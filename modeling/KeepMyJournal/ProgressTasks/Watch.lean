import KeepMyJournal.Common.Tasks

/-!
# The progress watch

`progress_based_watch_price_impl_t`, `progress_tasks/src/progress_based_task.cpp:34–142`, as
a release build runs it: the assertions are not compiled in, and a token or a live price that
is missing is passed over.
-/

namespace KeepMyJournal.ProgressTasks

open KeepMyJournal.Base KeepMyJournal.Common

/-- `scheduled_progress_task_result_t`: one notification. -/
structure ScheduledProgressTaskResult where
  task : DbusProgressStruct
  tokens : List DbusInstrumentType
  deriving DecidableEq, Repr

/-- `is_lesser_or_equals`. -/
def isLesserOrEquals (a b : ℚ) : Bool := a ≤ b

/-- `is_greater_or_equals`. -/
def isGreaterOrEquals (a b : ℚ) : Bool := b ≤ a

/-- `progress_based_watch_price_impl_t`. The price stored in a snapshot is the target price;
`periodicTimer` says that `m_periodicTimer` holds a timer. -/
structure ProgressWatch where
  task : ScheduledPriceTask
  percent : task.percentProp.isSome
  snapshots : List InstrumentType
  periodicTimer : Bool
  comparator : ℚ → ℚ → Bool

namespace ProgressWatch

/-- The snapshot the constructor takes of one instrument: its price moved to the target. -/
def target (percentage : ℚ) (instr : InstrumentType) : InstrumentType :=
  let t := instr.currentPrice * (percentage / 100)
  if percentage < 0 then { instr with currentPrice := instr.currentPrice - t }
  else { instr with currentPrice := instr.currentPrice + t }

/-- The constructor, run against the instruments of the task's exchange. -/
def construct (instruments : InstrumentSet) (task : ScheduledPriceTask)
    (h : task.percentProp.isSome) : ProgressWatch :=
  let snapshot := instruments.toList
  let percentage := (task.percentProp.get h).percentage
  { task := task
    percent := h
    snapshots := task.tokens.filterMap (fun token ↦
      (snapshot.find? (fun instr ↦ instr.tradeType == task.tradeType && instr.name == token)).map
        (target percentage))
    periodicTimer := false
    comparator := if percentage < 0 then isLesserOrEquals else isGreaterOrEquals }

/-- `m_dbusTask`. -/
def dbusTask (w : ProgressWatch) : DbusProgressStruct :=
  scheduledTaskToDbusProgress w.task w.percent

/-- `next_timer`: whether a wait of 100 ms is started on the timer. -/
def nextTimer (w : ProgressWatch) : Bool := w.periodicTimer

/-- `call`: the watch with its timer, and whether a first wait is started. -/
def call (w : ProgressWatch) : ProgressWatch × Bool :=
  if w.periodicTimer then (w, false)
  else
    let w := { w with periodicTimer := true }
    (w, w.nextTimer)

/-- `stop`. -/
def stop (w : ProgressWatch) : ProgressWatch := { w with periodicTimer := false }

/-- The test `check_prices` makes of one snapshot against the live instruments. -/
def isReported (w : ProgressWatch) (instruments : InstrumentSet) (instrument : InstrumentType) :
    Bool :=
  match instruments.findItem instrument with
  | none => false
  | some optInstr => w.comparator instrument.currentPrice optInstr.currentPrice

/-- The tokens `check_prices` collects. -/
def resultTokens (w : ProgressWatch) (instruments : InstrumentSet) : List DbusInstrumentType :=
  (w.snapshots.filter (w.isReported instruments)).map (fun instrument ↦
    { name := instrument.name, price := instrument.currentPrice, open24h := instrument.open24h })

/-- The erase loop: for each collected token, all snapshots of its name go. -/
def eraseTokens (snapshots : List InstrumentType) (tokens : List DbusInstrumentType) :
    List InstrumentType :=
  tokens.foldl (fun snapshots instrument ↦
    snapshots.filter (fun instr ↦ !(instrument.name == instr.name))) snapshots

/-- What one `check_prices` leaves: the watch, the notification sent, and whether a wait has
been started again. -/
structure Tick where
  watch : ProgressWatch
  result : Option ScheduledProgressTaskResult
  waits : Bool

/-- `check_prices`. -/
def checkPrices (w : ProgressWatch) (instruments : InstrumentSet) : Tick :=
  let tokens := w.resultTokens instruments
  let w' := if tokens.isEmpty then w else { w with snapshots := eraseTokens w.snapshots tokens }
  let result := if tokens.isEmpty then none else some { task := w.dbusTask, tokens := tokens }
  if w'.snapshots.isEmpty then { watch := w'.stop, result := result, waits := false }
  else { watch := w', result := result, waits := w'.nextTimer }

/-- The notifications of the successive ticks of a watch, `none` where a tick sends nothing.
A tick comes only while a wait is pending; `waits` says that one is. -/
def ticks : ProgressWatch → Bool → List InstrumentSet → List (Option ScheduledProgressTaskResult)
  | _, _, [] => []
  | w, false, _ :: rest => none :: ticks w false rest
  | w, true, instruments :: rest =>
    let tick := w.checkPrices instruments
    tick.result :: ticks tick.watch tick.waits rest

/-- The notifications of a watch from its `call` on, each tick seeing the next cache. -/
def notifications (w : ProgressWatch) (caches : List InstrumentSet) :
    List (Option ScheduledProgressTaskResult) :=
  ticks w.call.1 w.call.2 caches

/-! ### The constructor -/

@[simp] theorem target_name (percentage : ℚ) (instr : InstrumentType) :
    (target percentage instr).name = instr.name := by
  unfold target
  dsimp only
  split <;> rfl

@[simp] theorem target_tradeType (percentage : ℚ) (instr : InstrumentType) :
    (target percentage instr).tradeType = instr.tradeType := by
  unfold target
  dsimp only
  split <;> rfl

/-- The look-up the constructor makes for a token finds an instrument of that name. -/
theorem name_of_find_eq_some {instruments : List InstrumentType} {tradeType : TradeType}
    {token : Bytes} {instr : InstrumentType}
    (h : instruments.find? (fun instr ↦ instr.tradeType == tradeType && instr.name == token) =
      some instr) : instr.name = token ∧ instr.tradeType = tradeType := by
  have hkey := List.find?_some h
  rw [Bool.and_eq_true, beq_iff_eq, beq_iff_eq] at hkey
  exact ⟨hkey.2, hkey.1⟩

/-! ### One tick -/

/-- A notification names the watched instruments whose test succeeds. -/
theorem mem_resultTokens {w : ProgressWatch} {instruments : InstrumentSet} {token : Bytes} :
    token ∈ (w.resultTokens instruments).map DbusInstrumentType.name ↔
      ∃ s ∈ w.snapshots, s.name = token ∧ w.isReported instruments s = true := by
  simp only [resultTokens, List.map_map, List.mem_map, List.mem_filter, Function.comp_apply]
  constructor
  · rintro ⟨s, ⟨hs, hr⟩, rfl⟩
    exact ⟨s, hs, rfl, hr⟩
  · rintro ⟨s, hs, rfl, hr⟩
    exact ⟨s, ⟨hs, hr⟩, rfl⟩

/-- The erase loop keeps the snapshots of all other names, in their order. -/
theorem eraseTokens_eq_filter (snapshots : List InstrumentType) (tokens : List DbusInstrumentType) :
    eraseTokens snapshots tokens =
      snapshots.filter (fun instr ↦ !(tokens.map DbusInstrumentType.name).contains instr.name) := by
  unfold eraseTokens
  induction tokens generalizing snapshots with
  | nil => simp
  | cons t rest ih =>
    rw [List.foldl_cons, ih, List.filter_filter]
    apply List.filter_congr
    intro s _
    rw [List.map_cons, List.contains_cons, Bool.not_or, Bool.and_comm, Bool.beq_comm]

/-- `check_prices` branches on the tokens only for the notification: with none there is
nothing to erase. -/
theorem checkPrices_eq (w : ProgressWatch) (instruments : InstrumentSet) :
    w.checkPrices instruments =
      let tokens := w.resultTokens instruments
      let w' := { w with snapshots := eraseTokens w.snapshots tokens }
      let result := if tokens.isEmpty then none else some { task := w.dbusTask, tokens := tokens }
      if w'.snapshots.isEmpty then { watch := w'.stop, result := result, waits := false }
      else { watch := w', result := result, waits := w'.nextTimer } := by
  have hw : (if (w.resultTokens instruments).isEmpty then w
      else { w with snapshots := eraseTokens w.snapshots (w.resultTokens instruments) }) =
      { w with snapshots := eraseTokens w.snapshots (w.resultTokens instruments) } := by
    split
    · next he =>
      rw [List.isEmpty_iff.mp he]
      rfl
    · rfl
  unfold checkPrices
  dsimp only
  rw [hw]

/-- A tick erases the snapshots it reported. -/
theorem snapshots_checkPrices (w : ProgressWatch) (instruments : InstrumentSet) :
    (w.checkPrices instruments).watch.snapshots =
      eraseTokens w.snapshots (w.resultTokens instruments) := by
  rw [checkPrices_eq]
  dsimp only
  split <;> rfl

/-- The snapshots left by a tick are those whose name it did not report. -/
theorem mem_snapshots_checkPrices {w : ProgressWatch} {instruments : InstrumentSet}
    {s : InstrumentType} :
    s ∈ (w.checkPrices instruments).watch.snapshots ↔
      s ∈ w.snapshots ∧ s.name ∉ (w.resultTokens instruments).map DbusInstrumentType.name := by
  rw [snapshots_checkPrices, eraseTokens_eq_filter, List.mem_filter]
  simp

/-- A tick notifies exactly when it collected tokens. -/
theorem result_checkPrices (w : ProgressWatch) (instruments : InstrumentSet) :
    (w.checkPrices instruments).result =
      if (w.resultTokens instruments).isEmpty then none
      else some { task := w.dbusTask, tokens := w.resultTokens instruments } := by
  rw [checkPrices_eq]
  dsimp only
  split <;> rfl

/-- The notification of a tick carries exactly the collected tokens. -/
theorem result_checkPrices_names {w : ProgressWatch} {instruments : InstrumentSet} {token : Bytes} :
    (∃ r, (w.checkPrices instruments).result = some r ∧
        token ∈ r.tokens.map DbusInstrumentType.name) ↔
      token ∈ (w.resultTokens instruments).map DbusInstrumentType.name := by
  rw [result_checkPrices]
  by_cases he : (w.resultTokens instruments).isEmpty
  · rw [if_pos he, List.isEmpty_iff.mp he]
    simp
  · rw [if_neg he]
    simp

/-- A tick leaves the comparator as it is. -/
@[simp] theorem comparator_checkPrices (w : ProgressWatch) (instruments : InstrumentSet) :
    (w.checkPrices instruments).watch.comparator = w.comparator := by
  rw [checkPrices_eq]
  dsimp only
  split <;> rfl

/-- While snapshots are left, a tick keeps the timer and waits on it again. -/
theorem checkPrices_waits {w : ProgressWatch} {instruments : InstrumentSet}
    (h : (w.checkPrices instruments).watch.snapshots ≠ []) :
    (w.checkPrices instruments).watch.periodicTimer = w.periodicTimer ∧
      (w.checkPrices instruments).waits = w.periodicTimer := by
  rw [snapshots_checkPrices] at h
  rw [checkPrices_eq]
  dsimp only
  rw [if_neg (by rwa [List.isEmpty_iff])]
  exact ⟨rfl, rfl⟩

end ProgressWatch

end KeepMyJournal.ProgressTasks
