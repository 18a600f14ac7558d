import KeepMyJournal.Common.Json
import KeepMyJournal.Common.StringUtils
import KeepMyJournal.Common.Tasks

/-!
# Tasks and instruments as JSON

The `to_json` functions of `common/src/json_utils.cpp` that the HTTP server answers with. The
members of an object stand in the order of their keys.
-/

namespace KeepMyJournal.Common

open KeepMyJournal.Base

/-- A JSON string from a literal. -/
def Json.text (s : String) : Json := .string (bytes s)

/-- `to_json` of a `scheduled_price_task_t`; a task with an interval shows that alone. -/
def ScheduledPriceTask.toJson (data : ScheduledPriceTask) : Json :=
  let exchange := (bytes "exchange", Json.string (exchangesToString data.exchange))
  let symbols := (bytes "symbols", Json.array (data.tokens.map .string))
  let taskId := (bytes "task_id", Json.string data.taskId)
  let tradeType := (bytes "trade_type", Json.string (tradeTypeToString data.tradeType))
  match data.timeProp, data.percentProp with
  | some timeProp, _ =>
    .object
      [(bytes "duration", .text "seconds"), exchange,
        (bytes "intervals", .numberInteger (timeProp.timeMS.toInt64 / 1000)), symbols, taskId,
        tradeType]
  | none, some percentProp =>
    .object
      [(bytes "direction", if percentProp.percentage < 0 then .text "down" else .text "up"),
        exchange, (bytes "percentage", .numberFloat |percentProp.percentage|), symbols, taskId,
        tradeType]
  | none, none => .object [exchange, symbols, taskId, tradeType]

/-- `to_json` of an `instrument_type_t`. -/
def InstrumentType.toJson (instr : InstrumentType) : Json :=
  .object
    [(bytes "name", .string instr.name), (bytes "open_24hr", .numberFloat instr.open24h),
      (bytes "price", .numberFloat instr.currentPrice),
      (bytes "type", .string (tradeTypeToString instr.tradeType))]

private theorem isUtf8_exchangesToString (exchange : Exchange) :
    Json.isUtf8 (exchangesToString exchange) = true := by
  cases exchange <;> decide

private theorem isUtf8_tradeTypeToString (tradeType : TradeType) :
    Json.isUtf8 (tradeTypeToString tradeType) = true := by
  cases tradeType <;> decide

/-- A task is written if its id and its tokens are UTF-8. -/
theorem ScheduledPriceTask.dumps_toJson (data : ScheduledPriceTask) :
    data.toJson.dumps = (Json.isUtf8 data.taskId && data.tokens.all Json.isUtf8) := by
  have hsymbols : Json.dumpsItems (data.tokens.map .string) = data.tokens.all Json.isUtf8 := by
    rw [Json.dumpsItems_eq_all, List.all_map]
    rfl
  have hkeys : ∀ key ∈ ["direction", "down", "duration", "exchange", "intervals", "percentage",
      "seconds", "symbols", "task_id", "trade_type", "up"], Json.isUtf8 (bytes key) = true := by
    decide
  simp only [List.forall_mem_cons] at hkeys
  unfold toJson
  split
  · simp [Json.dumps, Json.dumpsMembers, Json.text, hkeys, hsymbols, isUtf8_exchangesToString,
      isUtf8_tradeTypeToString, Bool.and_comm]
  · split <;>
      simp [Json.dumps, Json.dumpsMembers, Json.text, hkeys, hsymbols, isUtf8_exchangesToString,
        isUtf8_tradeTypeToString, Bool.and_comm]
  · simp [Json.dumps, Json.dumpsMembers, hkeys, hsymbols, isUtf8_exchangesToString,
      isUtf8_tradeTypeToString, Bool.and_comm]

/-- The members of a task's object. -/
theorem ScheduledPriceTask.toJson_members (data : ScheduledPriceTask) :
    ∃ members : Json.Object, data.toJson = .object members ∧
      members.find (bytes "exchange") = some (.string (exchangesToString data.exchange)) ∧
      members.find (bytes "trade_type") = some (.string (tradeTypeToString data.tradeType)) ∧
      members.find (bytes "symbols") = some (.array (data.tokens.map .string)) ∧
      (∀ prop, data.timeProp = some prop →
        members.find (bytes "duration") = some (.text "seconds") ∧
          members.find (bytes "intervals") =
            some (.numberInteger (prop.timeMS.toInt64 / 1000))) ∧
      ∀ prop, data.timeProp = none → data.percentProp = some prop →
        members.find (bytes "direction") =
            some (if prop.percentage < 0 then .text "down" else .text "up") ∧
          members.find (bytes "percentage") = some (.numberFloat |prop.percentage|) := by
  unfold toJson
  cases htime : data.timeProp with
  | some timeProp =>
    refine ⟨_, rfl, rfl, rfl, rfl, ?_, nofun⟩
    intro prop hprop
    obtain rfl := Option.some.inj hprop
    exact ⟨rfl, rfl⟩
  | none =>
    cases hpercent : data.percentProp with
    | some percentProp =>
      refine ⟨_, rfl, rfl, rfl, rfl, nofun, ?_⟩
      intro prop _ hprop
      obtain rfl := Option.some.inj hprop
      exact ⟨rfl, rfl⟩
    | none => exact ⟨_, rfl, rfl, rfl, rfl, nofun, nofun⟩

/-- An instrument is written if its name is UTF-8. -/
theorem InstrumentType.dumps_toJson (instr : InstrumentType) :
    instr.toJson.dumps = Json.isUtf8 instr.name := by
  have hkeys : ∀ key ∈ ["name", "open_24hr", "price", "type"],
      Json.isUtf8 (bytes key) = true := by
    decide
  simp only [List.forall_mem_cons] at hkeys
  simp [toJson, Json.dumps, Json.dumpsMembers, hkeys, isUtf8_tradeTypeToString]

end KeepMyJournal.Common
