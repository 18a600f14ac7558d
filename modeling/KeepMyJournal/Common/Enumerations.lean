import Mathlib.Init

/-!
# Enumerations

`common/include/enumerations.hpp`, with the casts to and from the 32-bit integers that the
D-Bus structs carry. A cast back of an integer that names no enumerator yields the last one;
only integers that come from a cast out reach it.
-/

namespace KeepMyJournal.Common

/-- `task_state_e`. -/
inductive TaskState where
  | initiated | running | stopped | restarted | remove | unknown
  deriving DecidableEq, Repr

/-- `trade_type_e`; `total` stands for no trade type. -/
inductive TradeType where
  | futures | spot | swap | total
  deriving DecidableEq, Repr

/-- `exchange_e`; `total` stands for no exchange. -/
inductive Exchange where
  | binance | kucoin | okex | total
  deriving DecidableEq, Repr

/-- `price_direction_e`. -/
inductive PriceDirection where
  | up | down | invalid
  deriving DecidableEq, Repr

/-- `duration_unit_e`. -/
inductive DurationUnit where
  | seconds | minutes | hours | days | weeks | invalid
  deriving DecidableEq, Repr

/-- `(int32_t)` of a `task_state_e`. -/
def TaskState.toInt32 : TaskState → Int32
  | initiated => 0 | running => 1 | stopped => 2 | restarted => 3 | remove => 4 | unknown => 5

/-- `static_cast<task_state_e>` of an `int32_t`. -/
def TaskState.ofInt32 (n : Int32) : TaskState :=
  if n = 0 then initiated else if n = 1 then running else if n = 2 then stopped
  else if n = 3 then restarted else if n = 4 then remove else unknown

/-- `(int32_t)` of a `trade_type_e`. -/
def TradeType.toInt32 : TradeType → Int32
  | futures => 0 | spot => 1 | swap => 2 | total => 3

/-- `static_cast<trade_type_e>` of an `int32_t`. -/
def TradeType.ofInt32 (n : Int32) : TradeType :=
  if n = 0 then futures else if n = 1 then spot else if n = 2 then swap else total

/-- `(int32_t)` of an `exchange_e`. -/
def Exchange.toInt32 : Exchange → Int32
  | binance => 0 | kucoin => 1 | okex => 2 | total => 3

/-- `static_cast<exchange_e>` of an `int32_t`. -/
def Exchange.ofInt32 (n : Int32) : Exchange :=
  if n = 0 then binance else if n = 1 then kucoin else if n = 2 then okex else total

/-- `(int32_t)` of a `price_direction_e`. -/
def PriceDirection.toInt32 : PriceDirection → Int32
  | up => 0 | down => 1 | invalid => 2

/-- `static_cast<price_direction_e>` of an `int32_t`. -/
def PriceDirection.ofInt32 (n : Int32) : PriceDirection :=
  if n = 0 then up else if n = 1 then down else invalid

/-- `(int32_t)` of a `duration_unit_e`. -/
def DurationUnit.toInt32 : DurationUnit → Int32
  | seconds => 0 | minutes => 1 | hours => 2 | days => 3 | weeks => 4 | invalid => 5

/-- `static_cast<duration_unit_e>` of an `int32_t`. -/
def DurationUnit.ofInt32 (n : Int32) : DurationUnit :=
  if n = 0 then seconds else if n = 1 then minutes else if n = 2 then hours
  else if n = 3 then days else if n = 4 then weeks else invalid

@[simp] theorem TaskState.ofInt32_toInt32 (e : TaskState) : ofInt32 e.toInt32 = e := by
  cases e <;> decide

@[simp] theorem TradeType.ofInt32_toInt32 (e : TradeType) : ofInt32 e.toInt32 = e := by
  cases e <;> decide

@[simp] theorem Exchange.ofInt32_toInt32 (e : Exchange) : ofInt32 e.toInt32 = e := by
  cases e <;> decide

@[simp] theorem PriceDirection.ofInt32_toInt32 (e : PriceDirection) : ofInt32 e.toInt32 = e := by
  cases e <;> decide

@[simp] theorem DurationUnit.ofInt32_toInt32 (e : DurationUnit) : ofInt32 e.toInt32 = e := by
  cases e <;> decide

end KeepMyJournal.Common
