import KeepMyJournal.HttpStream.Session
import KeepMyJournal.TimeTasks.Watch

/-!
# Reading one contract

What `add_new_pricing_tasks` reads from a contract (`http_stream/src/session.cpp:564–628`) once
`passed_valid_task_check` has accepted it, and for which intervals the milliseconds that the
time service waits (`time_tasks/src/time_based_watch.cpp:51–63`) are those asked for. The two
checks on the way (`session.cpp:594`, `scheduled_price_tasks.cpp`) compare an unsigned number
with zero.
-/

namespace KeepMyJournal.HttpStream

open KeepMyJournal.Base KeepMyJournal.Common KeepMyJournal.TimeTasks

/-- The length of a unit in seconds. -/
def inSeconds : DurationUnit → Int
  | .seconds => 1
  | .minutes => 60
  | .hours => 3600
  | .days => 86400
  | .weeks => 604800
  | .invalid => 0

/-- The length of a unit in milliseconds. -/
def inMilliseconds (unit : DurationUnit) : Int := inSeconds unit * 1000

/-- The integer that a value asks for as an interval: an integer of either sign, a float without
a fraction, or a text that begins with an integer. -/
def integer : Json → Option Int
  | .numberInteger n => some n.toInt
  | .numberUnsigned n => some n.toNat
  | .numberFloat x => if x.den = 1 then some x.num else none
  | .string s => (stoi s).toOption.map Int32.toInt
  | _ => none

/-- The contract asks for an interval of `n` times the unit. -/
structure AsksInterval (contract : Json.Object) (n : Int) (unit : DurationUnit) : Prop where
  intervals : (contract.find (bytes "intervals")).bind integer = some n
  duration : ∃ text, contract.find (bytes "duration") = some (.string text) ∧
    stringToDurationUnit text = unit

/-- A contract asks for one interval. -/
theorem AsksInterval.unique {contract : Json.Object} {n n' : Int} {unit unit' : DurationUnit}
    (h : AsksInterval contract n unit) (h' : AsksInterval contract n' unit') :
    n = n' ∧ unit = unit' := by
  obtain ⟨text, htext, rfl⟩ := h.duration
  obtain ⟨text', htext', rfl⟩ := h'.duration
  obtain rfl := Json.string.inj (Option.some.inj (htext.symm.trans htext'))
  exact ⟨Option.some.inj (h.intervals.symm.trans h'.intervals), rfl⟩

/-- The watch that the time service makes of a task it receives. -/
def timeWatchOf (task : ScheduledPriceTask) (h : task.timeProp.isSome) : TimeWatch :=
  TimeWatch.construct (dbusTimeToScheduledTask (scheduledTaskToDbusTime task h)) rfl

/-- The delay of `next_timer`, a signed count of milliseconds. -/
def delay (w : TimeWatch) : Int64 := (w.task.timeProp.get w.timed).timeMS.toInt64

/-- The task waits for exactly `n` times the unit, and that is a positive time. -/
def WaitsExactly (n : Int) (unit : DurationUnit) (task : ScheduledPriceTask) : Prop :=
  0 < n ∧ ∃ h : task.timeProp.isSome,
    (task.timeProp.get h).timeMS.toNat = n * inMilliseconds unit ∧
      0 < (delay (timeWatchOf task h)).toInt

/-! ### Milliseconds -/

private theorem toNat_toUInt64 (x : Int64) : (x.toUInt64.toNat : Int) = x.toInt % 2 ^ 64 := by
  have hx := x.toBitVec.isLt
  rw [← Int64.toNat_toBitVec, ← Int64.toInt_toBitVec, BitVec.toInt_eq_toNat_cond]
  omega

private theorem bmod_emod (x : Int) : x.bmod (2 ^ 64) % 2 ^ 64 = x % 2 ^ 64 := by
  exact_mod_cast Int.bmod_emod

/-- The milliseconds are those asked for, up to the width of the result. -/
theorem toNat_millisecondsFromString (unit : DurationUnit) (t : Int64) :
    ((millisecondsFromString unit t).toNat : Int) = t.toInt * inMilliseconds unit % 2 ^ 64 := by
  unfold millisecondsFromString inMilliseconds inSeconds
  cases unit with
  | seconds | minutes | hours =>
    dsimp only
    rw [toNat_toUInt64, Int64.toInt_mul, bmod_emod]
    rfl
  | days =>
    have hday := bmod_emod (t.toInt * 24)
    dsimp only
    rw [toNat_toUInt64, Int64.toInt_mul, Int64.toInt_mul, bmod_emod]
    change (t.toInt * 24).bmod (2 ^ 64) * 3600000 % 2 ^ 64 = _
    omega
  | weeks =>
    have hday := bmod_emod (t.toInt * 24)
    have hweek := bmod_emod ((t.toInt * 24).bmod (2 ^ 64) * 7)
    dsimp only
    rw [toNat_toUInt64, Int64.toInt_mul, Int64.toInt_mul, Int64.toInt_mul, bmod_emod]
    change ((t.toInt * 24).bmod (2 ^ 64) * 7).bmod (2 ^ 64) * 3600000 % 2 ^ 64 = _
    omega
  | invalid => simp

/-! ### The interval -/

/-- The interval as `add_new_pricing_tasks` takes it from a value. -/
private def intervalOf (intervals : Json) : Except StdException Int64 :=
  if intervals.isNumber then intervals.getNumberInteger
  else (intervals.getString >>= stoi).map Int32.toInt64

/-- An integer of 64 bits is read as it is. -/
private theorem intervalOf_of_integer {intervals : Json} {n : Int}
    (h : integer intervals = some n) (hlow : -2 ^ 63 ≤ n) (hhigh : n < 2 ^ 63) :
    intervalOf intervals = .ok (Int64.ofInt n) := by
  cases intervals with
  | numberInteger m =>
    obtain rfl := Option.some.inj h
    rw [Int64.ofInt_toInt]
    rfl
  | numberUnsigned m =>
    obtain rfl := Option.some.inj h
    rw [Int64.ofInt_eq_ofNat, ← UInt64.toInt64_ofNat', UInt64.ofNat_toNat]
    rfl
  | numberFloat x =>
    change (if x.den = 1 then some x.num else none) = some n at h
    split at h
    · next hden =>
      obtain rfl := Option.some.inj h
      change Except.ok (Json.truncate x) = _
      rw [Json.truncate, hden, Nat.cast_one, Int.tdiv_one]
    · cases h
  | string s =>
    obtain ⟨m, hm, rfl⟩ := Option.map_eq_some_iff.mp h
    change (stoi s).map Int32.toInt64 = _
    cases hs : stoi s with
    | error e =>
      rw [hs] at hm
      cases hm
    | ok value =>
      rw [hs] at hm
      obtain rfl := Option.some.inj hm
      rw [← Int32.toInt_toInt64, Int64.ofInt_toInt]
      rfl
  | null | boolean _ | array _ | object _ => cases h

/-- An interval that is accepted has the milliseconds of what was asked for, and some. -/
theorem readInterval_of_asks {contract : Json.Object} {intervals : Json} {n : Int}
    {unit : DurationUnit} {prop : TimedBasedProperty} (hasks : AsksInterval contract n unit)
    (hlow : -2 ^ 63 ≤ n) (hhigh : n < 2 ^ 63)
    (hintervals : contract.find (bytes "intervals") = some intervals)
    (h : readInterval contract intervals = .ok prop) :
    (prop.timeMS.toNat : Int) = n * inMilliseconds unit % 2 ^ 64 ∧ 0 < prop.timeMS.toNat := by
  obtain ⟨text, htext, rfl⟩ := hasks.duration
  have hn := hasks.intervals
  rw [hintervals, Option.bind_some] at hn
  unfold readInterval at h
  rw [htext] at h
  change ((intervalOf intervals).mapError Rejection.thrown >>= _) = _ at h
  rw [intervalOf_of_integer hn hlow hhigh] at h
  change (if millisecondsFromString (stringToDurationUnit text) (Int64.ofInt n) = 0 then _
    else _) = _ at h
  split at h
  · cases h
  · next hzero =>
    obtain rfl := Except.ok.inj h
    refine ⟨?_, Nat.pos_of_ne_zero fun h0 ↦ hzero (UInt64.toNat_inj.mp h0)⟩
    rw [toNat_millisecondsFromString, Int64.toInt_ofInt_of_le hlow hhigh]

/-- An interval that is accepted names a unit. -/
theorem unit_of_readInterval {contract : Json.Object} {intervals : Json} {n : Int}
    {unit : DurationUnit} {prop : TimedBasedProperty} (hasks : AsksInterval contract n unit)
    (h : readInterval contract intervals = .ok prop) : 1 ≤ inSeconds unit := by
  obtain ⟨text, htext, rfl⟩ := hasks.duration
  unfold readInterval at h
  rw [htext] at h
  obtain ⟨interval, -, hread⟩ := of_bind_eq_ok h
  change (if millisecondsFromString (stringToDurationUnit text) interval = 0 then _
    else _) = _ at hread
  cases hunit : stringToDurationUnit text with
  | invalid =>
    rw [hunit] at hread
    cases hread
  | seconds | minutes | hours | days | weeks => decide

/-! ### The contract -/

/-- What stands in a task that has been read from a contract. -/
structure ReadFrom (userId requestId : Bytes) (contract : Json.Object)
    (task : ScheduledPriceTask) : Prop where
  ids : task.userId = userId ∧ task.taskId = requestId
  symbols : ∃ names : List Bytes,
    contract.find (bytes "symbols") = some (.array (names.map .string)) ∧
      task.tokens = names.map toUpperCopy
  tradeType : ∃ text, contract.find (bytes "trade") = some (.string text) ∧
    task.tradeType = stringToTradeType text
  exchange : ∃ text, contract.find (bytes "exchange") = some (.string text) ∧
    task.exchange = stringToExchange text
  interval : ∀ intervals, contract.find (bytes "intervals") = some intervals →
    ∃ prop, readInterval contract intervals = .ok prop ∧ task.timeProp = some prop ∧
      task.percentProp = none
  percentage : contract.find (bytes "intervals") = none → task.timeProp = none ∧
    ∀ prop, task.percentProp = some prop → ∃ percentage,
      contract.find (bytes "percentage") = some percentage ∧
        readPercentage contract percentage = .ok prop

/-- A task has an interval or a percentage, not both. -/
theorem ReadFrom.oneKind {userId requestId : Bytes} {contract : Json.Object}
    {task : ScheduledPriceTask} (h : ReadFrom userId requestId contract task) :
    task.percentProp = none ∨ task.timeProp = none := by
  cases hintervals : contract.find (bytes "intervals") with
  | some intervals =>
    obtain ⟨prop, -, -, hpercent⟩ := h.interval intervals hintervals
    exact .inl hpercent
  | none => exact .inr (h.percentage hintervals).1

private theorem find_of_contractMember {o : Json.Object} {key : String} {α : Type}
    {get : Json → Except StdException α} {a : α} (h : contractMember o key get = .ok a) :
    ∃ value, o.find (bytes key) = some value ∧ get value = .ok a := by
  obtain ⟨value, hvalue, hget⟩ := of_bind_eq_ok (of_mapError_eq_ok h)
  exact ⟨value, Json.Object.at_eq_ok_iff.mp hvalue, hget⟩

private theorem of_mapM_symbols {symbols : List Json} {tokens : List Bytes}
    (h : (symbols.mapM fun symbol ↦
      (symbol.getString.map toUpperCopy).mapError Rejection.thrown) = .ok tokens) :
    ∃ names : List Bytes, symbols = names.map .string ∧ tokens = names.map toUpperCopy := by
  have hall := forall₂_of_mapM_eq_ok h
  clear h
  induction hall with
  | nil => exact ⟨[], rfl, rfl⟩
  | @cons symbol token symbols tokens hsymbol _ ih =>
    obtain ⟨names, rfl, rfl⟩ := ih
    have hupper := of_mapError_eq_ok hsymbol
    cases hname : symbol.getString with
    | error e =>
      rw [hname] at hupper
      cases hupper
    | ok name =>
      rw [hname] at hupper
      obtain rfl := Except.ok.inj hupper
      obtain rfl := Json.getString_eq_ok_iff.mp hname
      exact ⟨name :: names, rfl, rfl⟩

/-- A contract that is read is an object with the members that the task shows. -/
theorem readContract_readFrom {userId requestId : Bytes} {contract : Json}
    {task : ScheduledPriceTask} (h : readContract userId requestId contract = .ok task) :
    ∃ o, contract = .object o ∧ ReadFrom userId requestId o task := by
  unfold readContract at h
  obtain ⟨o, ho, h⟩ := of_bind_eq_ok h
  obtain ⟨symbols, hsymbols, h⟩ := of_bind_eq_ok h
  obtain ⟨tokens, htokens, h⟩ := of_bind_eq_ok h
  obtain ⟨trade, htrade, h⟩ := of_bind_eq_ok h
  obtain ⟨exchange, hexchange, h⟩ := of_bind_eq_ok h
  obtain ⟨symbols', hsymbols', hget⟩ := find_of_contractMember hsymbols
  obtain rfl := Json.getArray_eq_ok_iff.mp hget
  obtain ⟨names, rfl, rfl⟩ := of_mapM_symbols htokens
  obtain ⟨trade', htrade', hget⟩ := find_of_contractMember htrade
  obtain rfl := Json.getString_eq_ok_iff.mp hget
  obtain ⟨exchange', hexchange', hget⟩ := find_of_contractMember hexchange
  obtain rfl := Json.getString_eq_ok_iff.mp hget
  refine ⟨o, Json.getObject_eq_ok_iff.mp (of_mapError_eq_ok ho), ?_⟩
  dsimp only at h
  cases hintervals : o.find (bytes "intervals") with
  | some intervals =>
    rw [hintervals] at h
    obtain ⟨prop, hprop, h⟩ := of_bind_eq_ok h
    obtain rfl := Except.ok.inj h
    refine ⟨⟨rfl, rfl⟩, ⟨names, hsymbols', rfl⟩, ⟨trade, htrade', rfl⟩,
      ⟨exchange, hexchange', rfl⟩, ?_, ?_⟩
    · intro other hother
      obtain rfl := Option.some.inj (hintervals.symm.trans hother)
      exact ⟨prop, hprop, rfl, rfl⟩
    · intro hnone
      exact absurd (hintervals.symm.trans hnone) nofun
  | none =>
    rw [hintervals] at h
    cases hpercentage : o.find (bytes "percentage") with
    | some percentage =>
      rw [hpercentage] at h
      obtain ⟨prop, hprop, h⟩ := of_bind_eq_ok h
      obtain rfl := Except.ok.inj h
      refine ⟨⟨rfl, rfl⟩, ⟨names, hsymbols', rfl⟩, ⟨trade, htrade', rfl⟩,
        ⟨exchange, hexchange', rfl⟩, ?_, ?_⟩
      · intro other hother
        exact absurd (hintervals.symm.trans hother) nofun
      · intro _
        refine ⟨rfl, ?_⟩
        intro other hother
        obtain rfl := Option.some.inj hother
        exact ⟨percentage, hpercentage, hprop⟩
    | none =>
      rw [hpercentage] at h
      obtain rfl := Except.ok.inj h
      refine ⟨⟨rfl, rfl⟩, ⟨names, hsymbols', rfl⟩, ⟨trade, htrade', rfl⟩,
        ⟨exchange, hexchange', rfl⟩, ?_, ?_⟩
      · intro other hother
        exact absurd (hintervals.symm.trans hother) nofun
      · intro _
        exact ⟨rfl, nofun⟩

/-! ### Exact intervals -/

private theorem delay_timeWatchOf {task : ScheduledPriceTask} (h : task.timeProp.isSome) :
    delay (timeWatchOf task h) = (task.timeProp.get h).timeMS.toInt64 := rfl

/-- A count of milliseconds is read as a positive delay if it is neither zero nor too large for
a signed number. -/
private theorem toInt_toInt64_pos_iff (timeMS : UInt64) :
    0 < timeMS.toInt64.toInt ↔ 0 < timeMS.toNat ∧ timeMS.toNat < 2 ^ 63 := by
  have hlt := timeMS.toNat_lt
  rw [← Int64.toInt_toBitVec, UInt64.toBitVec_toInt64, BitVec.toInt_eq_toNat_cond,
    UInt64.toNat_toBitVec]
  omega

/-- An accepted task waits for exactly the interval its contract asks for if and only if that is
a positive number of units whose milliseconds fit in 63 bits. -/
theorem waitsExactly_iff {userId requestId : Bytes} {contract : Json.Object} {n : Int}
    {unit : DurationUnit} {task task' : ScheduledPriceTask}
    (hasks : AsksInterval contract n unit) (hlow : -2 ^ 63 ≤ n) (hhigh : n < 2 ^ 63)
    (hread : readContract userId requestId (.object contract) = .ok task)
    (hcheck : passedValidTaskCheck task = (true, task')) :
    WaitsExactly n unit task' ↔ 0 < n ∧ n * inMilliseconds unit < 2 ^ 63 := by
  obtain ⟨o, ho, hfrom⟩ := readContract_readFrom hread
  obtain rfl := Json.object.inj ho
  obtain ⟨intervals, hintervals, -⟩ := Option.bind_eq_some_iff.mp hasks.intervals
  obtain ⟨prop, hprop, htask, -⟩ := hfrom.interval intervals hintervals
  obtain ⟨hms, hzero⟩ := readInterval_of_asks hasks hlow hhigh hintervals hprop
  have htask' : task'.timeProp = some prop := by
    rw [(passedValidTaskCheck_of_true hcheck).1]
    exact htask
  have hget (h : task'.timeProp.isSome) : task'.timeProp.get h = prop := by
    simp only [htask', Option.get_some]
  have hunit : 0 ≤ inMilliseconds unit := by
    cases unit <;> decide
  unfold WaitsExactly
  constructor
  · rintro ⟨hpos, h, htime, hdelay⟩
    rw [hget] at htime
    rw [delay_timeWatchOf, hget, toInt_toInt64_pos_iff] at hdelay
    exact ⟨hpos, by omega⟩
  · rintro ⟨hpos, hsmall⟩
    have hproduct : 0 ≤ n * inMilliseconds unit := Int.mul_nonneg hpos.le hunit
    refine ⟨hpos, by rw [htask']; rfl, ?_⟩
    rw [delay_timeWatchOf, hget, toInt_toInt64_pos_iff]
    exact ⟨by omega, hzero, by omega⟩

/-- A contract for one spot token at an interval of seconds. -/
def secondsContract (n : Int64) : Json.Object :=
  [(bytes "duration", .text "seconds"), (bytes "exchange", .text "binance"),
    (bytes "intervals", .numberInteger n), (bytes "symbols", .array [.text "BTC-USDT"]),
    (bytes "trade", .text "spot")]

/-- The task that is read from it. -/
def secondsTask (n : Int64) : ScheduledPriceTask :=
  { taskId := bytes "t1"
    userId := bytes "u1"
    tokens := [bytes "BTC-USDT"]
    tradeType := .spot
    exchange := .binance
    timeProp := some { timeMS := (n * 1000).toUInt64, duration := .seconds } }

private theorem secondsContract_asks (n : Int64) :
    AsksInterval (secondsContract n) n.toInt .seconds :=
  ⟨rfl, bytes "seconds", rfl, by decide⟩

/-- Sixty seconds are waited for as asked. -/
theorem waitsExactly_oneMinute : WaitsExactly 60 .seconds (secondsTask 60) :=
  have hread : readContract (bytes "u1") (bytes "t1") (.object (secondsContract 60)) =
      .ok (secondsTask 60) := rfl
  (waitsExactly_iff (secondsContract_asks 60) (by decide) (by decide) hread rfl).mpr (by decide)

/-- An interval of minus one second is accepted. -/
theorem not_waitsExactly_negative :
    readContract (bytes "u1") (bytes "t1") (.object (secondsContract (-1))) =
        .ok (secondsTask (-1)) ∧
      passedValidTaskCheck (secondsTask (-1)) = (true, secondsTask (-1)) ∧
      AsksInterval (secondsContract (-1)) (-1) .seconds ∧
      ¬WaitsExactly (-1) .seconds (secondsTask (-1)) := by
  refine ⟨rfl, rfl, secondsContract_asks (-1), ?_⟩
  intro h
  have hpos : (0 : Int) < -1 := h.1
  omega

end KeepMyJournal.HttpStream
