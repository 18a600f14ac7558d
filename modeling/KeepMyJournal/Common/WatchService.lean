import KeepMyJournal.Base.Timers
import KeepMyJournal.Base.Transition
import KeepMyJournal.Common.TaskList

/-!
# The two threads of a price service

The time and the progress service share their threads' shape: the `io_context` thread runs the
handlers of the watches' timers, the D-Bus thread schedules watches and removes them
(`progress_tasks/src/progress_based_task.cpp:79–216`,
`time_tasks/src/time_based_watch.cpp:51–171`). A step is one expiry, one handler, one schedule
call, or one part of a removal: its call, a round of its loop, its return. A round stops and
erases one watch; the other thread does not look at the list. A watch is known by the number of
watches scheduled before it. Waits expire and handlers run as long as the `io_context` thread does,
which is not part of the state: it is started with the first watch, and not again after it has
ended.
-/

namespace KeepMyJournal.Common

open KeepMyJournal.Base

/-- A class of watches: `construct` and `call` schedule one, `tick` is its timer's handler. A
watch keeps its task, waits only on the timer it holds, and never holds one again once it has
let it go. -/
structure WatchClass (κ ω ι ρ : Type) where
  construct : κ → ω
  task : ω → ScheduledPriceTask
  timer : ω → Bool
  call : ω → ω × Bool
  tick : ω → ι → ω × Option ρ × Bool
  stop : ω → ω
  task_call : ∀ w, task (call w).1 = task w
  task_tick : ∀ w i, task (tick w i).1 = task w
  task_stop : ∀ w, task (stop w) = task w
  timer_call : ∀ w, (call w).2 = true → timer (call w).1 = true
  timer_tick : ∀ w i, (tick w i).2.2 = true → timer (tick w i).1 = true
  tick_stopped : ∀ w i, timer w = false → timer (tick w i).1 = false
  timer_stop : ∀ w, timer (stop w) = false

/-- A removal under way. -/
structure Removal where
  userId : Bytes
  taskId : Bytes
  deriving DecidableEq, Repr

/-- A service between two steps; `removed` are the watches whose removal has returned. -/
structure WatchService (ω ρ : Type) where
  watches : List ω := []
  globalTaskList : TaskList Nat := ∅
  timers : Timers Nat := {}
  scheduledTaskResults : List (Nat × ρ) := []
  removal : Option Removal := none
  removed : List Nat := []

/-- The steps of the two threads. -/
inductive WatchEvent (κ ι : Type) where
  | schedule (k : κ)
  | expire (watch : Nat)
  | runHandler (handler : Handler Nat) (instruments : ι)
  | removeCall (userId taskId : Bytes)
  | removeRound
  | removeReturn

namespace WatchService

variable {κ ω ι ρ : Type} (C : WatchClass κ ω ι ρ)

/-- `task_data` of a watch. -/
def taskData (s : WatchService ω ρ) (watch : Nat) : ScheduledPriceTask :=
  (s.watches[watch]?).elim {} C.task

/-- `schedule_new_*_task_impl`. -/
def schedule (s : WatchService ω ρ) (k : κ) : WatchService ω ρ :=
  let task := C.construct k
  let watch := s.watches.length
  { s with
    watches := s.watches ++ [(C.call task).1]
    globalTaskList := s.globalTaskList.pushBack (C.task task).userId watch
    timers := if (C.call task).2 then s.timers.asyncWait watch else s.timers }

/-- What `cancel`, or `expires_from_now`, does to the waits on the timer of a watch, if it
holds one. -/
def cancelTimer (timers : Timers Nat) (watch : Nat) (w : ω) : Timers Nat :=
  if C.timer w then timers.cancel watch else timers

/-- The service after the handler of a watch has run to its end. -/
def ticked (s : WatchService ω ρ) (timers : Timers Nat) (watch : Nat) (w : ω) (instruments : ι) :
    WatchService ω ρ :=
  let (w', result, waits) := C.tick w instruments
  let timers := cancelTimer C timers watch w
  { s with
    watches := s.watches.set watch w'
    timers := if waits then timers.asyncWait watch else timers
    scheduledTaskResults := s.scheduledTaskResults ++ result.toList.map (fun r ↦ (watch, r)) }

/-- A queued handler runs; with an error it returns at once. -/
def runHandler (s : WatchService ω ρ) (h : Handler Nat) (instruments : ι) :
    Option (WatchService ω ρ) :=
  (s.timers.take h).bind fun timers ↦
    if h.aborted then some { s with timers := timers }
    else (s.watches[h.owner]?).map fun w ↦ s.ticked C timers h.owner w instruments

/-- The search of the removal loop. -/
def findTask (s : WatchService ω ρ) (r : Removal) : Option Nat :=
  (s.globalTaskList.tasksOf r.userId).findIdx?
    (TaskList.isTask (s.taskData C) r.userId r.taskId)

/-- The service after a watch has been stopped and erased. -/
def erased (s : WatchService ω ρ) (r : Removal) (iter watch : Nat) (w : ω) : WatchService ω ρ :=
  { s with
    watches := s.watches.set watch (C.stop w)
    globalTaskList := s.globalTaskList.updateAt r.userId (·.eraseIdx iter)
    timers := cancelTimer C s.timers watch w }

/-- A round of the removal loop, on the first watch found. -/
def removeRound (s : WatchService ω ρ) (r : Removal) : Option (WatchService ω ρ) :=
  (s.findTask C r).bind fun iter ↦
    ((s.globalTaskList.tasksOf r.userId)[iter]?).bind fun watch ↦
      (s.watches[watch]?).map fun w ↦ s.erased C r iter watch w

/-- The watches scheduled so far under a user and a task id. -/
def watchesOf (s : WatchService ω ρ) (r : Removal) : List Nat :=
  (List.range s.watches.length).filter (TaskList.isTask (s.taskData C) r.userId r.taskId)

/-- The end of the removal loop, when nothing is found any more. -/
def removeReturn (s : WatchService ω ρ) (r : Removal) : Option (WatchService ω ρ) :=
  if (s.findTask C r).isNone then
    some { s with removal := none, removed := s.removed ++ s.watchesOf C r }
  else none

/-- One step. The D-Bus thread serves one call at a time. -/
def step (s : WatchService ω ρ) : WatchEvent κ ι → Option (WatchService ω ρ)
  | .schedule k => if s.removal.isNone then some (s.schedule C k) else none
  | .expire watch => (s.timers.expire watch).map fun timers ↦ { s with timers := timers }
  | .runHandler h instruments => s.runHandler C h instruments
  | .removeCall userId taskId =>
    if s.removal.isNone then
      some
        { s with
          globalTaskList := s.globalTaskList.updateAt userId id
          removal := some { userId := userId, taskId := taskId } }
    else none
  | .removeRound => s.removal.bind (s.removeRound C)
  | .removeReturn => s.removal.bind (s.removeReturn C)

/-- The step appends no result of a watch whose removal has returned. -/
def NoLateResult (s : WatchService ω ρ) (_ : WatchEvent κ ι) (s' : WatchService ω ρ) : Prop :=
  ∀ entry ∈ s'.scheduledTaskResults.drop s.scheduledTaskResults.length, entry.1 ∉ s.removed

/-- If the step is the return of a removal, no watch it removes has an expired handler queued. -/
def ReturnsClean (s : WatchService ω ρ) : WatchEvent κ ι → WatchService ω ρ → Prop
  | .removeReturn, _ => ∀ r ∈ s.removal, ∀ watch ∈ s.watchesOf C r, ¬s.timers.Expired watch
  | _, _ => True

instance (s : WatchService ω ρ) (e : WatchEvent κ ι) (s' : WatchService ω ρ) :
    Decidable (NoLateResult s e s') :=
  inferInstanceAs (Decidable
    (∀ entry ∈ s'.scheduledTaskResults.drop s.scheduledTaskResults.length, entry.1 ∉ s.removed))

instance (s : WatchService ω ρ) (e : WatchEvent κ ι) (s' : WatchService ω ρ) :
    Decidable (ReturnsClean C s e s') :=
  match e with
  | .removeReturn =>
    inferInstanceAs
      (Decidable (∀ r ∈ s.removal, ∀ watch ∈ s.watchesOf C r, ¬s.timers.Expired watch))
  | .schedule _ | .expire _ | .runHandler _ _ | .removeCall _ _ | .removeRound =>
    inferInstanceAs (Decidable True)

/-! ### One step -/

/-- All that a step can do, with the guards under which it does it. -/
inductive Stepped (s : WatchService ω ρ) : WatchEvent κ ι → WatchService ω ρ → Prop
  | schedule (k : κ) : Stepped s (.schedule k) (s.schedule C k)
  | expire {watch : Nat} {timers : Timers Nat} (h : s.timers.expire watch = some timers) :
    Stepped s (.expire watch) { s with timers := timers }
  | aborted {h : Handler Nat} {timers : Timers Nat} (ht : s.timers.take h = some timers)
    (instruments : ι) : Stepped s (.runHandler h instruments) { s with timers := timers }
  | ticked {h : Handler Nat} {timers : Timers Nat} {w : ω} (ht : s.timers.take h = some timers)
    (hok : h.aborted = false) (hw : s.watches[h.owner]? = some w) (instruments : ι) :
    Stepped s (.runHandler h instruments) (s.ticked C timers h.owner w instruments)
  | removeCall (userId taskId : Bytes) :
    Stepped s (.removeCall userId taskId)
      { s with
        globalTaskList := s.globalTaskList.updateAt userId id
        removal := some { userId := userId, taskId := taskId } }
  | removeRound {r : Removal} {iter watch : Nat} {w : ω}
    (hiter : (s.globalTaskList.tasksOf r.userId)[iter]? = some watch)
    (hw : s.watches[watch]? = some w) : Stepped s .removeRound (s.erased C r iter watch w)
  | removeReturn {r : Removal} (hr : s.removal = some r) (hnone : s.findTask C r = none) :
    Stepped s .removeReturn { s with removal := none, removed := s.removed ++ s.watchesOf C r }

theorem step_cases {s s' : WatchService ω ρ} {e : WatchEvent κ ι}
    (hstep : s.step C e = some s') : Stepped C s e s' := by
  cases e with
  | schedule k =>
    rw [step] at hstep
    split at hstep
    · obtain rfl := Option.some.inj hstep
      exact .schedule k
    · cases hstep
  | expire watch =>
    obtain ⟨timers, ht, rfl⟩ := Option.map_eq_some_iff.mp hstep
    exact .expire ht
  | runHandler h instruments =>
    obtain ⟨timers, ht, hrun⟩ := Option.bind_eq_some_iff.mp hstep
    split at hrun
    · obtain rfl := Option.some.inj hrun
      exact .aborted ht instruments
    · next hok =>
      obtain ⟨w, hw, rfl⟩ := Option.map_eq_some_iff.mp hrun
      exact .ticked ht (by simpa using hok) hw instruments
  | removeCall userId taskId =>
    rw [step] at hstep
    split at hstep
    · obtain rfl := Option.some.inj hstep
      exact .removeCall userId taskId
    · cases hstep
  | removeRound =>
    obtain ⟨r, -, hround⟩ := Option.bind_eq_some_iff.mp hstep
    obtain ⟨iter, -, hround⟩ := Option.bind_eq_some_iff.mp hround
    obtain ⟨watch, hiter, hround⟩ := Option.bind_eq_some_iff.mp hround
    obtain ⟨w, hw, rfl⟩ := Option.map_eq_some_iff.mp hround
    exact .removeRound hiter hw
  | removeReturn =>
    obtain ⟨r, hr, hreturn⟩ := Option.bind_eq_some_iff.mp hstep
    unfold removeReturn at hreturn
    split at hreturn
    · next hnone =>
      obtain rfl := Option.some.inj hreturn
      exact .removeReturn hr (Option.isNone_iff_eq_none.mp hnone)
    · cases hreturn

/-- A step appends no result, or that of the handler which it runs. -/
theorem results_step {s s' : WatchService ω ρ} {e : WatchEvent κ ι}
    (hstep : s.step C e = some s') :
    s'.scheduledTaskResults = s.scheduledTaskResults ∨
      ∃ h instruments w r, e = .runHandler h instruments ∧ s.watches[h.owner]? = some w ∧
        (C.tick w instruments).2.1 = some r ∧
        s'.scheduledTaskResults = s.scheduledTaskResults ++ [(h.owner, r)] := by
  cases step_cases C hstep with
  | @ticked h timers w ht hok hw instruments =>
    rw [ticked]
    dsimp only
    cases hr : (C.tick w instruments).2.1 with
    | none => exact .inl (by simp)
    | some r => exact .inr ⟨h, instruments, w, r, rfl, hw, hr, rfl⟩
  | schedule | expire | aborted | removeCall | removeRound | removeReturn => exact .inl rfl

/-- After a step each watch is as it was, has just been scheduled, has been stopped, or has run
its handler. -/
theorem watches_step {s s' : WatchService ω ρ} {e : WatchEvent κ ι}
    (hstep : s.step C e = some s') {i : Nat} {v : ω} (hv : s'.watches[i]? = some v) :
    s.watches[i]? = some v ∨
      (∃ k, e = .schedule k ∧ i = s.watches.length ∧ v = (C.call (C.construct k)).1) ∨
      ∃ w, s.watches[i]? = some w ∧
        (v = C.stop w ∨ ∃ h instruments, e = .runHandler h instruments ∧
          v = (C.tick w instruments).1) := by
  cases step_cases C hstep with
  | schedule k =>
    have hv : (s.watches ++ [(C.call (C.construct k)).1])[i]? = some v := hv
    rcases Nat.lt_trichotomy i s.watches.length with hlt | heq | hgt
    · rw [List.getElem?_append_left hlt] at hv
      exact .inl hv
    · subst heq
      rw [List.getElem?_concat_length] at hv
      exact .inr (.inl ⟨k, rfl, rfl, (Option.some.inj hv).symm⟩)
    · rw [List.getElem?_eq_none (by simp; omega)] at hv
      cases hv
  | expire | aborted | removeCall | removeReturn => exact .inl hv
  | @ticked h timers w ht hok hw instruments =>
    rw [ticked, List.getElem?_set] at hv
    split at hv
    · next heq =>
      subst heq
      split at hv
      · obtain rfl := Option.some.inj hv
        exact .inr (.inr ⟨w, hw, .inr ⟨h, instruments, rfl, rfl⟩⟩)
      · cases hv
    · exact .inl hv
  | @removeRound r iter watch w hiter hw =>
    rw [erased, List.getElem?_set] at hv
    split at hv
    · next heq =>
      subst heq
      split at hv
      · obtain rfl := Option.some.inj hv
        exact .inr (.inr ⟨w, hw, .inl rfl⟩)
      · cases hv
    · exact .inl hv

/-- No step forgets a watch. -/
theorem length_watches_step {s s' : WatchService ω ρ} {e : WatchEvent κ ι}
    (hstep : s.step C e = some s') : s.watches.length ≤ s'.watches.length := by
  cases step_cases C hstep with
  | schedule k =>
    rw [schedule, List.length_append]
    exact Nat.le_add_right _ _
  | expire | aborted | removeCall | removeReturn => exact Nat.le_refl _
  | ticked | removeRound =>
    simp only [WatchService.ticked, erased, List.length_set]
    exact Nat.le_refl _

/-! ### Removed watches stay silent -/

/-- What every step keeps: a watch that waits holds its timer, one that holds its timer is
listed under its user, and a removed one holds no timer and has no expired handler queued. -/
structure Inv (s : WatchService ω ρ) : Prop where
  waiting : ∀ watch ∈ s.timers.waits, ∃ w, s.watches[watch]? = some w ∧ C.timer w = true
  listed : ∀ watch w, s.watches[watch]? = some w →
    watch ∈ s.globalTaskList.tasksOf (C.task w).userId ∨ C.timer w = false
  removed : ∀ watch ∈ s.removed,
    ¬s.timers.Expired watch ∧ ∃ w, s.watches[watch]? = some w ∧ C.timer w = false

section Inv

variable {C} {s s' : WatchService ω ρ} {timers : Timers Nat} {watch : Nat} {w : ω}

theorem getElem?_set_cases {l : List ω} {i j : Nat} {a b : ω}
    (h : (l.set i a)[j]? = some b) : i = j ∧ b = a ∨ i ≠ j ∧ l[j]? = some b := by
  by_cases hij : i = j
  · subst hij
    rw [List.getElem?_set_self'] at h
    obtain ⟨_, -, rfl⟩ := Option.map_eq_some_iff.mp h
    exact .inl ⟨rfl, rfl⟩
  · rw [List.getElem?_set_ne hij] at h
    exact .inr ⟨hij, h⟩

/-- A watch that is replaced by one that holds no timer if it held none keeps the others. -/
private theorem unarmed_set {w' : ω} (hw : s.watches[watch]? = some w)
    (htimer : C.timer w = false → C.timer w' = false) {i : Nat}
    (hi : ∃ v, s.watches[i]? = some v ∧ C.timer v = false) :
    ∃ v, (s.watches.set watch w')[i]? = some v ∧ C.timer v = false := by
  obtain ⟨v, hv, hfalse⟩ := hi
  by_cases hij : watch = i
  · subst hij
    obtain rfl := Option.some.inj (hw.symm.trans hv)
    exact ⟨w', by rw [List.getElem?_set_self', hw]; rfl, htimer hfalse⟩
  · exact ⟨v, by rw [List.getElem?_set_ne hij, hv], hfalse⟩

@[simp] private theorem expired_cancelTimer {i : Nat} :
    (cancelTimer C timers watch w).Expired i ↔ timers.Expired i := by
  unfold cancelTimer
  split <;> simp

/-- Once a watch's timer is cancelled, only other watches wait. -/
private theorem waiting_cancelTimer (hinv : s.Inv C) (hw : s.watches[watch]? = some w)
    (ht : timers.waits = s.timers.waits) (w' : ω) :
    ∀ i ∈ (cancelTimer C timers watch w).waits, i ≠ watch ∧
      ∃ v, (s.watches.set watch w')[i]? = some v ∧ C.timer v = true := by
  intro i hi
  have hne : i ≠ watch ∧ i ∈ s.timers.waits := by
    unfold cancelTimer at hi
    split at hi
    · rw [Timers.mem_waits_cancel, ht] at hi
      exact ⟨hi.2, hi.1⟩
    · next hfalse =>
      rw [ht] at hi
      refine ⟨?_, hi⟩
      rintro rfl
      obtain ⟨v, hv, htrue⟩ := hinv.waiting i hi
      obtain rfl := Option.some.inj (hw.symm.trans hv)
      exact hfalse htrue
  obtain ⟨v, hv, htrue⟩ := hinv.waiting i hne.2
  exact ⟨hne.1, v, by rw [List.getElem?_set_ne (Ne.symm hne.1), hv], htrue⟩

private theorem inv_empty : Inv C ({} : WatchService ω ρ) where
  waiting := by simp
  listed := by simp
  removed := by simp

private theorem inv_schedule (hinv : s.Inv C) (k : κ) : (s.schedule C k).Inv C := by
  have hlast : (s.schedule C k).watches[s.watches.length]? = some (C.call (C.construct k)).1 :=
    List.getElem?_concat_length
  have hold : ∀ (i : Nat) v, s.watches[i]? = some v → (s.schedule C k).watches[i]? = some v := by
    intro i v hv
    obtain ⟨hlt, -⟩ := List.getElem?_eq_some_iff.mp hv
    exact (List.getElem?_append_left hlt).trans hv
  have hlist : ∀ u, (s.schedule C k).globalTaskList.tasksOf u = _ := fun u ↦
    TaskList.tasksOf_pushBack s.globalTaskList _ u s.watches.length
  constructor
  · intro i hi
    by_cases hwaits : (C.call (C.construct k)).2 = true
    · rw [schedule] at hi
      dsimp only at hi
      rw [if_pos hwaits, Timers.mem_waits_asyncWait] at hi
      rcases hi with hi | rfl
      · obtain ⟨v, hv, htrue⟩ := hinv.waiting i hi
        exact ⟨v, hold i v hv, htrue⟩
      · exact ⟨_, hlast, C.timer_call _ hwaits⟩
    · rw [schedule] at hi
      dsimp only at hi
      rw [if_neg hwaits] at hi
      obtain ⟨v, hv, htrue⟩ := hinv.waiting i hi
      exact ⟨v, hold i v hv, htrue⟩
  · intro i v hv
    rw [hlist]
    by_cases hlt : i < s.watches.length
    · have hv' : s.watches[i]? = some v := (List.getElem?_append_left hlt).symm.trans hv
      refine (hinv.listed i v hv').imp_left fun hm ↦ ?_
      split
      · exact List.mem_append_left _ hm
      · exact hm
    · have hlen := (List.getElem?_eq_some_iff.mp hv).1
      have hi : i = s.watches.length := by
        rw [schedule, List.length_append, List.length_singleton] at hlen
        omega
      subst hi
      obtain rfl := Option.some.inj (hlast.symm.trans hv)
      refine .inl ?_
      rw [if_pos (by rw [C.task_call])]
      exact List.mem_append_right _ List.mem_cons_self
  · intro i hi
    obtain ⟨hquiet, v, hv, hfalse⟩ := hinv.removed i hi
    refine ⟨?_, v, hold i v hv, hfalse⟩
    rw [schedule]
    dsimp only
    split
    · exact hquiet
    · exact hquiet

private theorem inv_timers (hinv : s.Inv C) (hwaits : ∀ i ∈ timers.waits, i ∈ s.timers.waits)
    (hexpired : ∀ i, timers.Expired i → s.timers.Expired i ∨ i ∈ s.timers.waits) :
    Inv C { s with timers := timers } where
  waiting := fun i hi ↦ hinv.waiting i (hwaits i hi)
  listed := hinv.listed
  removed := by
    intro i hi
    obtain ⟨hquiet, v, hv, hfalse⟩ := hinv.removed i hi
    refine ⟨fun he ↦ ?_, v, hv, hfalse⟩
    rcases hexpired i he with he | hwait
    · exact hquiet he
    · obtain ⟨v', hv', htrue⟩ := hinv.waiting i hwait
      obtain rfl := Option.some.inj (hv.symm.trans hv')
      rw [hfalse] at htrue
      cases htrue

private theorem inv_ticked (hinv : s.Inv C) (hw : s.watches[watch]? = some w)
    (hwaits : timers.waits = s.timers.waits)
    (hexpired : ∀ i, timers.Expired i → s.timers.Expired i) (instruments : ι) :
    (s.ticked C timers watch w instruments).Inv C := by
  have hself : (s.watches.set watch (C.tick w instruments).1)[watch]? =
      some (C.tick w instruments).1 := by
    rw [List.getElem?_set_self', hw]
    rfl
  have hwaiting := waiting_cancelTimer hinv hw hwaits (C.tick w instruments).1
  constructor
  · intro i hi
    rw [ticked] at hi
    dsimp only at hi
    split at hi
    · next hagain =>
      rcases Timers.mem_waits_asyncWait.mp hi with hi | rfl
      · exact (hwaiting i hi).2
      · exact ⟨_, hself, C.timer_tick w instruments hagain⟩
    · exact (hwaiting i hi).2
  · intro i v hv
    rcases getElem?_set_cases hv with ⟨rfl, rfl⟩ | ⟨-, hv⟩
    · rw [C.task_tick]
      exact (hinv.listed watch w hw).imp_right (C.tick_stopped w instruments)
    · exact hinv.listed i v hv
  · intro i hi
    obtain ⟨hquiet, hunarmed⟩ := hinv.removed i hi
    refine ⟨fun he ↦ hquiet (hexpired i ?_), unarmed_set hw (C.tick_stopped w instruments) hunarmed⟩
    rw [ticked] at he
    dsimp only at he
    split at he
    · rwa [Timers.expired_asyncWait, expired_cancelTimer] at he
    · rwa [expired_cancelTimer] at he

private theorem inv_erased (hinv : s.Inv C) {r : Removal} {iter : Nat}
    (hiter : (s.globalTaskList.tasksOf r.userId)[iter]? = some watch)
    (hw : s.watches[watch]? = some w) : (s.erased C r iter watch w).Inv C := by
  constructor
  · exact fun i hi ↦ (waiting_cancelTimer hinv hw rfl (C.stop w) i hi).2
  · intro i v hv
    rcases getElem?_set_cases hv with ⟨rfl, rfl⟩ | ⟨hne, hv⟩
    · exact .inr (C.timer_stop w)
    · refine (hinv.listed i v hv).imp_left fun hm ↦ ?_
      rw [erased, TaskList.tasksOf_updateAt]
      split
      · next hu =>
        obtain ⟨j, hj⟩ := List.mem_iff_getElem?.mp hm
        refine List.mem_eraseIdx_iff_getElem?.mpr ⟨j, ?_, hj⟩
        rintro rfl
        rw [hu] at hj
        exact hne (Option.some.inj (hiter.symm.trans hj))
      · exact hm
  · intro i hi
    obtain ⟨hquiet, hunarmed⟩ := hinv.removed i hi
    refine ⟨fun he ↦ hquiet (expired_cancelTimer.mp he), ?_⟩
    exact unarmed_set hw (fun _ ↦ C.timer_stop w) hunarmed

private theorem inv_removeReturn (hinv : s.Inv C) {r : Removal} (hnone : s.findTask C r = none)
    (hclean : ∀ i ∈ s.watchesOf C r, ¬s.timers.Expired i) :
    Inv C { s with removal := none, removed := s.removed ++ s.watchesOf C r } where
  waiting := hinv.waiting
  listed := hinv.listed
  removed := by
    intro i hi
    rcases List.mem_append.mp hi with hi | hi
    · exact hinv.removed i hi
    · refine ⟨hclean i hi, ?_⟩
      obtain ⟨hlt, htask⟩ := List.mem_filter.mp hi
      rw [List.mem_range] at hlt
      have hw : s.watches[i]? = some s.watches[i] := List.getElem?_eq_getElem hlt
      refine ⟨_, hw, (hinv.listed i _ hw).resolve_left fun hm ↦ ?_⟩
      have hdata : s.taskData C i = C.task s.watches[i] := by
        rw [taskData, hw]
        rfl
      have huser : (C.task s.watches[i]).userId = r.userId := by
        rw [TaskList.isTask, hdata, Bool.and_eq_true, beq_iff_eq] at htask
        exact htask.1
      rw [huser] at hm
      rw [findTask, List.findIdx?_eq_none_iff] at hnone
      rw [hnone i hm] at htask
      cases htask

/-- A step whose removal, if it returns one, returns clean keeps the invariant. -/
private theorem inv_step {e : WatchEvent κ ι} (hinv : s.Inv C) (hstep : s.step C e = some s')
    (hclean : s.ReturnsClean C e s') : s'.Inv C := by
  cases step_cases C hstep with
  | schedule k => exact inv_schedule hinv k
  | @expire watch timers ht =>
    obtain ⟨hwatch, hwaits, hexpired⟩ := Timers.expire_spec ht
    refine inv_timers hinv hwaits fun i hi ↦ (hexpired i hi).imp_right ?_
    rintro rfl
    exact hwatch
  | aborted ht =>
    obtain ⟨-, hwaits, hexpired⟩ := Timers.take_spec ht
    exact inv_timers hinv (fun i hi ↦ hwaits ▸ hi) fun i hi ↦ .inl (hexpired i hi)
  | ticked ht hok hw instruments =>
    obtain ⟨-, hwaits, hexpired⟩ := Timers.take_spec ht
    exact inv_ticked hinv hw hwaits hexpired instruments
  | removeCall userId taskId =>
    refine ⟨hinv.waiting, ?_, hinv.removed⟩
    intro i v hv
    dsimp only
    rw [TaskList.tasksOf_updateAt, id_eq, ite_self]
    exact hinv.listed i v hv
  | removeRound hiter hw => exact inv_erased hinv hiter hw
  | removeReturn hr hnone => exact inv_removeReturn hinv hnone (hclean _ hr)

/-- Results come from handlers of expired waits only, and a removed watch has none queued. -/
private theorem noLateResult_step {e : WatchEvent κ ι} (hinv : s.Inv C)
    (hstep : s.step C e = some s') : s.NoLateResult e s' := by
  have hsame : s'.scheduledTaskResults = s.scheduledTaskResults → s.NoLateResult e s' := by
    intro h entry hentry
    rw [h, List.drop_length] at hentry
    cases hentry
  cases step_cases C hstep with
  | @ticked h timers w ht hok hw instruments =>
    obtain ⟨hqueued, -, -⟩ := Timers.take_spec ht
    intro entry hentry hremoved
    rw [ticked, List.drop_left] at hentry
    obtain ⟨_, -, rfl⟩ := List.mem_map.mp hentry
    apply (hinv.removed h.owner hremoved).1
    rw [Timers.Expired, ← hok]
    exact hqueued
  | schedule | expire | aborted | removeCall | removeRound | removeReturn => exact hsame rfl

end Inv

/-- In every run in which the removals return clean, no result of a removed watch is appended. -/
theorem noLateResult_of_returnsClean {events : List (WatchEvent κ ι)}
    (h : Transition.Along (step C) (ReturnsClean C) {} events) :
    Transition.Along (step C) NoLateResult ({} : WatchService ω ρ) events := by
  apply Transition.along_of_inv (I := Inv C) _ inv_empty h
  intro s e _ s' hinv hstep hclean
  exact ⟨noLateResult_step hinv hstep, inv_step hinv hstep hclean⟩

end WatchService

end KeepMyJournal.Common
