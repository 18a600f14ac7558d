import KeepMyJournal.Base.Bytes
import KeepMyJournal.Common.Container
import KeepMyJournal.Common.Enumerations
import Mathlib.Algebra.Order.Ring.Rat

/-!
# Instruments, price tasks and their D-Bus form

`common/include/price_stream/commodity.hpp` and `tasks.hpp`, and the conversions of
`common/src/price_stream/adaptor/scheduled_task_adaptor.cpp`. Prices and percentages are
`double` in the source and exact rationals here: the infinities and NaN, which `std::stod` reads
too, and its rounding are left out.
-/

namespace KeepMyJournal.Common

open KeepMyJournal.Base

/-- `instrument_type_t`. -/
structure InstrumentType where
  name : Bytes
  currentPrice : ℚ := 0
  open24h : ℚ := 0
  tradeType : TradeType
  deriving DecidableEq, Repr

/-- What `std::hash` and `std::equal_to` of an instrument look at. -/
def InstrumentType.key (instr : InstrumentType) : Bytes × TradeType :=
  (instr.name, instr.tradeType)

/-- `std::equal_to<instrument_type_t>`. -/
def InstrumentType.equalTo (instA instB : InstrumentType) : Bool :=
  instA.name == instB.name && instA.tradeType == instB.tradeType

/-- `std::hash<instrument_type_t>`, over `boost::hash_combine`. -/
def InstrumentType.hash (hashCombine : UInt64 → Bytes ⊕ TradeType → UInt64)
    (instr : InstrumentType) : UInt64 :=
  hashCombine (hashCombine 0 (.inl instr.name)) (.inr instr.tradeType)

/-- Two instruments are equal to the map if they have the same key. -/
theorem InstrumentType.equalTo_iff {instA instB : InstrumentType} :
    instA.equalTo instB = true ↔ instA.key = instB.key := by
  rw [equalTo, Bool.and_eq_true, beq_iff_eq, beq_iff_eq, key, key, Prod.mk.injEq]

/-- Equal instruments have equal hashes, and so the map finds one under the other. -/
theorem InstrumentType.hash_eq_of_equalTo {instA instB : InstrumentType}
    (hashCombine : UInt64 → Bytes ⊕ TradeType → UInt64) (h : instA.equalTo instB = true) :
    instA.hash hashCombine = instB.hash hashCombine := by
  obtain ⟨hname, htype⟩ := Prod.mk.inj (equalTo_iff.mp h)
  rw [hash, hash, hname, htype]

/-- `instrument_set_t`: the instruments of one exchange with their latest prices. -/
abbrev InstrumentSet := UniqueElements InstrumentType.key

/-- For every sequence of calls: a look-up finds the last instrument with the name and trade type
of the key since the last `clear`, and nothing if there is none; the list holds exactly one
instrument for every name and trade type inserted since then, the last one. -/
theorem InstrumentSet.latest_of_run (calls : List (UniqueElements.Call InstrumentType)) :
    let s : InstrumentSet := UniqueElements.empty.run calls
    let inserted := UniqueElements.sinceClear calls
    (∀ k found, s.findItem k = some found ↔
        UniqueElements.IsLast InstrumentType.key inserted found ∧ found.name = k.name ∧
          found.tradeType = k.tradeType) ∧
      (∀ k, s.findItem k = none ↔
        ∀ a ∈ inserted, ¬(a.name = k.name ∧ a.tradeType = k.tradeType)) ∧
      (∀ a, a ∈ s.toList ↔ UniqueElements.IsLast InstrumentType.key inserted a) ∧
      (∀ a ∈ inserted, ∃ b ∈ s.toList, b.name = a.name ∧ b.tradeType = a.tradeType) ∧
      (s.toList.map InstrumentType.key).Nodup := by
  intro s inserted
  have hkey : ∀ a b : InstrumentType,
      a.key = b.key ↔ a.name = b.name ∧ a.tradeType = b.tradeType := by
    intro a b
    rw [InstrumentType.key, InstrumentType.key, Prod.mk.injEq]
  refine ⟨?_, ?_, UniqueElements.mem_toList_run_iff calls, ?_, s.nodup_keys⟩
  · intro k found
    rw [UniqueElements.findItem_run_eq_some_iff, hkey]
  · intro k
    simp only [s, inserted, UniqueElements.findItem_run_eq_none_iff, ne_eq, hkey]
  · intro a ha
    obtain ⟨b, hb, hba⟩ : ∃ b, UniqueElements.IsLast InstrumentType.key inserted b ∧
        b.key = a.key := UniqueElements.exists_isLast ha
    exact ⟨b, (UniqueElements.mem_toList_run_iff calls b).mpr hb, (hkey b a).mp hba⟩

/-- `instrument_exchange_set_t`: the instruments of every exchange. -/
abbrev InstrumentExchangeSet := Exchange → InstrumentSet

/-- `scheduled_price_task_t::timed_based_property_t`. -/
structure TimedBasedProperty where
  timeMS : UInt64 := 0
  duration : DurationUnit := .invalid
  deriving DecidableEq, Repr

/-- `scheduled_price_task_t::percentage_based_property_t`. -/
structure PercentageBasedProperty where
  percentage : ℚ := 0
  direction : PriceDirection := .invalid
  deriving DecidableEq, Repr

/-- `scheduled_price_task_t`. -/
structure ScheduledPriceTask where
  taskId : Bytes := []
  userId : Bytes := []
  tokens : List Bytes := []
  tradeType : TradeType := .total
  exchange : Exchange := .total
  percentProp : Option PercentageBasedProperty := none
  timeProp : Option TimedBasedProperty := none
  status : TaskState := .initiated
  processAssignedId : UInt64 := 0
  deriving DecidableEq, Repr

/-- `dbus_instrument_type_t`: name, price and the price a day ago. -/
structure DbusInstrumentType where
  name : Bytes
  price : ℚ
  open24h : ℚ
  deriving DecidableEq, Repr

/-- `dbus_progress_struct_t`, its nine fields in order. -/
structure DbusProgressStruct where
  processAssignedId : UInt64
  percentage : ℚ
  directionEnum : Int32
  tradeTypeEnum : Int32
  exchangeEnum : Int32
  taskStatusEnum : Int32
  taskId : Bytes
  userId : Bytes
  tokens : List Bytes
  deriving DecidableEq, Repr

/-- `dbus_time_task_t`, its nine fields in order. -/
structure DbusTimeTask where
  processAssignedId : UInt64
  time : UInt64
  durationEnum : Int32
  tradeTypeEnum : Int32
  exchangeEnum : Int32
  taskStatusEnum : Int32
  taskId : Bytes
  userId : Bytes
  tokens : List Bytes
  deriving DecidableEq, Repr

/-- `scheduled_task_to_dbus_progress`; it reads `percentProp` without a test, so the task
has to carry one. -/
def scheduledTaskToDbusProgress (taskInfo : ScheduledPriceTask)
    (h : taskInfo.percentProp.isSome) : DbusProgressStruct where
  processAssignedId := taskInfo.processAssignedId
  percentage := (taskInfo.percentProp.get h).percentage
  directionEnum := (taskInfo.percentProp.get h).direction.toInt32
  tradeTypeEnum := taskInfo.tradeType.toInt32
  exchangeEnum := taskInfo.exchange.toInt32
  taskStatusEnum := taskInfo.status.toInt32
  taskId := taskInfo.taskId
  userId := taskInfo.userId
  tokens := taskInfo.tokens

/-- `scheduled_task_to_dbus_time`; it reads `timeProp` without a test. -/
def scheduledTaskToDbusTime (taskInfo : ScheduledPriceTask)
    (h : taskInfo.timeProp.isSome) : DbusTimeTask where
  processAssignedId := taskInfo.processAssignedId
  time := (taskInfo.timeProp.get h).timeMS
  durationEnum := (taskInfo.timeProp.get h).duration.toInt32
  tradeTypeEnum := taskInfo.tradeType.toInt32
  exchangeEnum := taskInfo.exchange.toInt32
  taskStatusEnum := taskInfo.status.toInt32
  taskId := taskInfo.taskId
  userId := taskInfo.userId
  tokens := taskInfo.tokens

/-- `dbus_time_to_scheduled_task`. -/
def dbusTimeToScheduledTask (taskStruct : DbusTimeTask) : ScheduledPriceTask where
  processAssignedId := taskStruct.processAssignedId
  timeProp := some
    { timeMS := taskStruct.time
      duration := .ofInt32 taskStruct.durationEnum }
  tradeType := .ofInt32 taskStruct.tradeTypeEnum
  exchange := .ofInt32 taskStruct.exchangeEnum
  status := .ofInt32 taskStruct.taskStatusEnum
  taskId := taskStruct.taskId
  userId := taskStruct.userId
  tokens := taskStruct.tokens

/-- `dbus_progress_to_scheduled_task`. -/
def dbusProgressToScheduledTask (taskStruct : DbusProgressStruct) : ScheduledPriceTask where
  processAssignedId := taskStruct.processAssignedId
  percentProp := some
    { percentage := taskStruct.percentage
      direction := .ofInt32 taskStruct.directionEnum }
  tradeType := .ofInt32 taskStruct.tradeTypeEnum
  exchange := .ofInt32 taskStruct.exchangeEnum
  status := .ofInt32 taskStruct.taskStatusEnum
  taskId := taskStruct.taskId
  userId := taskStruct.userId
  tokens := taskStruct.tokens

/-- A progress task crosses D-Bus unchanged, except that an interval it also carried is lost. -/
@[simp] theorem dbusProgressToScheduledTask_scheduledTaskToDbusProgress
    (task : ScheduledPriceTask) (h : task.percentProp.isSome) :
    dbusProgressToScheduledTask (scheduledTaskToDbusProgress task h) =
      { task with timeProp := none } := by
  obtain ⟨taskId, userId, tokens, tradeType, exchange, percentProp, timeProp, status, id⟩ := task
  cases percentProp with
  | none => cases h
  | some percent => simp [dbusProgressToScheduledTask, scheduledTaskToDbusProgress]

/-- A time task crosses D-Bus unchanged, except that a percentage it also carried is lost. -/
@[simp] theorem dbusTimeToScheduledTask_scheduledTaskToDbusTime
    (task : ScheduledPriceTask) (h : task.timeProp.isSome) :
    dbusTimeToScheduledTask (scheduledTaskToDbusTime task h) =
      { task with percentProp := none } := by
  obtain ⟨taskId, userId, tokens, tradeType, exchange, percentProp, timeProp, status, id⟩ := task
  cases timeProp with
  | none => cases h
  | some timed => simp [dbusTimeToScheduledTask, scheduledTaskToDbusTime]

end KeepMyJournal.Common
