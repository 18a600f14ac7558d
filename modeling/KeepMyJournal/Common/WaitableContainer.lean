import KeepMyJournal.Base.Linearizability
import KeepMyJournal.Base.Transition

/-!
# The waitable container

`waitable_container_t`, `common/include/container.hpp:142–203`, called by any number of threads.
Every locked section is one atomic step. A `get` that finds the container empty sleeps on the
condition variable; woken, for a notification or for none, it tests again under the lock.
-/

namespace KeepMyJournal.Common

open KeepMyJournal.Base KeepMyJournal.Base.Transition

universe u v

/-- A call of a member function. -/
inductive ContainerCall (τ : Type v) where
  | append (data : τ)
  | appendList (newList : List τ)
  | clear
  | empty
  | get
  deriving DecidableEq, Repr

/-- What a call returns; `thrown` is the exception of `get`, and `blocked` no result at all. -/
inductive ContainerResult (τ : Type v) where
  | done
  | empty (empty : Bool)
  | value (value : τ)
  | thrown
  | blocked
  deriving DecidableEq, Repr

/-- A queue that is called by one thread at a time; `get` of an empty queue does not return. -/
def abstractQueue {τ : Type v} : List τ → ContainerCall τ → ContainerResult τ × List τ
  | queue, .append data => (.done, queue ++ [data])
  | queue, .appendList newList => (.done, queue ++ newList)
  | _, .clear => (.done, [])
  | queue, .empty => (.empty queue.isEmpty, queue)
  | [], .get => (.blocked, [])
  | value :: queue, .get => (.value value, queue)

/-- A thread on the condition variable: when it called `get`, and whether it has been notified
since it fell asleep. -/
structure Waiting where
  began : Nat
  notified : Bool
  deriving DecidableEq, Repr

/-- `waitable_container_t`. With it stand the threads that wait on `m_cv`, and the calls that have
returned, in the order of their ends. -/
structure WaitableContainer (θ : Type u) (τ : Type v) where
  mContainer : List τ := []
  mCv : θ → Option Waiting := fun _ ↦ none
  time : Nat := 0
  completed : List (Completed (ContainerCall τ) (ContainerResult τ)) := []

namespace WaitableContainer

variable {θ : Type u} {τ : Type v}

/-! ### Locked sections -/

/-- `append`. -/
def append (data : τ) (mContainer : List τ) : List τ := mContainer ++ [data]

/-- `append_list`. -/
def appendList (newList mContainer : List τ) : List τ := mContainer ++ newList

/-- `get`, behind the wait. -/
def get : List τ → ContainerResult τ × List τ
  | [] => (.thrown, [])
  | value :: mContainer => (.value value, mContainer)

/-- `m_cv.notify_all()`. -/
def notifyAll (mCv : θ → Option Waiting) : θ → Option Waiting := fun thread ↦
  (mCv thread).map fun waiting ↦ { waiting with notified := true }

/-! ### Steps -/

/-- A locked section of a thread. -/
inductive Event (θ : Type u) (τ : Type v) where
  | append (thread : θ) (data : τ)
  | appendList (thread : θ) (newList : List τ)
  | clear (thread : θ)
  | empty (thread : θ)
  | get (thread : θ)
  | wake (thread : θ)

/-- A call returns, with the container that it leaves. -/
def finish (s : WaitableContainer θ τ) (call : ContainerCall τ) (began : Nat)
    (r : ContainerResult τ × List τ) : WaitableContainer θ τ :=
  { s with
    mContainer := r.2
    time := s.time + 1
    completed :=
      s.completed ++ [{ call := call, result := r.1, began := began, ended := s.time }] }

variable [DecidableEq θ]

/-- Whether and since when a thread waits, after a step of its own. -/
def setWaiting (s : WaitableContainer θ τ) (thread : θ) (waiting : Option Waiting) :
    WaitableContainer θ τ :=
  { s with mCv := fun other ↦ if other = thread then waiting else s.mCv other }

/-- The predicate of the wait is tested: the thread goes on with `get`, or sleeps. -/
def testAndGet (s : WaitableContainer θ τ) (thread : θ) (began : Nat) : WaitableContainer θ τ :=
  if !s.mContainer.isEmpty then
    (s.setWaiting thread none).finish .get began (get s.mContainer)
  else { s.setWaiting thread (some ⟨began, false⟩) with time := s.time + 1 }

/-- One step; a thread that waits takes no other than to wake up. -/
def step (s : WaitableContainer θ τ) : Event θ τ → Option (WaitableContainer θ τ)
  | .append thread data =>
    if (s.mCv thread).isSome then none
    else
      some (finish { s with mCv := notifyAll s.mCv } (.append data) s.time
        (.done, append data s.mContainer))
  | .appendList thread newList =>
    if (s.mCv thread).isSome then none
    else
      some (finish { s with mCv := notifyAll s.mCv } (.appendList newList) s.time
        (.done, appendList newList s.mContainer))
  | .clear thread =>
    if (s.mCv thread).isSome then none else some (s.finish .clear s.time (.done, []))
  | .empty thread =>
    if (s.mCv thread).isSome then none
    else some (s.finish .empty s.time (.empty s.mContainer.isEmpty, s.mContainer))
  | .get thread => if (s.mCv thread).isSome then none else some (s.testAndGet thread s.time)
  | .wake thread => (s.mCv thread).map fun waiting ↦ s.testAndGet thread waiting.began

/-! ### What holds in every run -/

/-- The calls that have returned have the results of a queue that is called in the order of their
ends, and the container is what that queue holds; nobody sleeps beside a filled container without
having been notified. -/
structure Consistent (s : WaitableContainer θ τ) : Prop where
  recorded : Recorded abstractQueue [] s.completed s.time s.mContainer
  began : ∀ thread waiting, s.mCv thread = some waiting → waiting.began ≤ s.time
  notified : ∀ thread waiting, s.mCv thread = some waiting → waiting.notified = false →
    s.mContainer = []

variable {s s' : WaitableContainer θ τ}

omit [DecidableEq θ] in
theorem consistent_start : Consistent ({} : WaitableContainer θ τ) where
  recorded := recorded_nil _ _ _
  began _ _ h := by cases h
  notified _ _ h := by cases h

omit [DecidableEq θ] in
/-- A call that does what a queue does and notifies the threads if it adds something. -/
theorem Consistent.finish (hs : Consistent s) {call : ContainerCall τ} {began : Nat}
    {r : ContainerResult τ × List τ} (hbegan : began ≤ s.time)
    (happly : abstractQueue s.mContainer call = r)
    (hnotified : ∀ thread waiting, s.mCv thread = some waiting → waiting.notified = false →
      r.2 = []) : Consistent (s.finish call began r) where
  recorded := hs.recorded.concat hbegan happly
  began thread waiting h := Nat.le_succ_of_le (hs.began thread waiting h)
  notified := hnotified

omit [DecidableEq θ] in
theorem Consistent.notifyAll (hs : Consistent s) :
    Consistent { s with mCv := notifyAll s.mCv } where
  recorded := hs.recorded
  began thread waiting h := by
    obtain ⟨asleep, hasleep, rfl⟩ := Option.map_eq_some_iff.mp h
    exact hs.began thread asleep hasleep
  notified thread waiting h hnot := by
    obtain ⟨asleep, -, rfl⟩ := Option.map_eq_some_iff.mp h
    cases hnot

omit [DecidableEq θ] in
/-- After `notify_all` no waiting thread is without a notification. -/
theorem not_unnotified {mCv : θ → Option Waiting} {thread : θ} {waiting : Waiting}
    (h : WaitableContainer.notifyAll mCv thread = some waiting) : waiting.notified ≠ false := by
  obtain ⟨asleep, -, rfl⟩ := Option.map_eq_some_iff.mp h
  exact Bool.true_eq_false.mp

theorem Consistent.setWaiting_none (hs : Consistent s) (thread : θ) :
    Consistent (s.setWaiting thread none) where
  recorded := hs.recorded
  began other waiting h := by
    unfold setWaiting at h
    dsimp only at h
    split at h
    · cases h
    · exact hs.began other waiting h
  notified other waiting h := by
    unfold setWaiting at h
    dsimp only at h
    split at h
    · cases h
    · exact hs.notified other waiting h

/-- A thread falls asleep beside the empty container. -/
theorem Consistent.sleep (hs : Consistent s) (thread : θ) {began : Nat} (hbegan : began ≤ s.time)
    (hempty : s.mContainer = []) :
    Consistent { s.setWaiting thread (some ⟨began, false⟩) with time := s.time + 1 } where
  recorded := hs.recorded.later
  began other waiting h := by
    unfold setWaiting at h
    dsimp only at h ⊢
    split at h
    · rw [← Option.some.inj h]
      exact Nat.le_succ_of_le hbegan
    · exact Nat.le_succ_of_le (hs.began other waiting h)
  notified _ _ _ _ := hempty

/-- The test of the wait lets nobody through to the exception. -/
theorem Consistent.testAndGet (hs : Consistent s) (thread : θ) {began : Nat}
    (hbegan : began ≤ s.time) : Consistent (s.testAndGet thread began) := by
  unfold WaitableContainer.testAndGet
  cases hcontainer : s.mContainer with
  | nil => exact hs.sleep thread hbegan hcontainer
  | cons value rest =>
    have hawake := hs.setWaiting_none thread
    refine hawake.finish hbegan ?_ ?_
    · show abstractQueue s.mContainer .get = (.value value, rest)
      rw [hcontainer]
      rfl
    · intro other waiting h hnot
      have hempty : s.mContainer = [] := hawake.notified other waiting h hnot
      rw [hcontainer] at hempty
      cases hempty

theorem consistent_step {e : Event θ τ} (hs : Consistent s) (h : step s e = some s') :
    Consistent s' := by
  cases e with
  | wake thread =>
    obtain ⟨waiting, hwaiting, rfl⟩ := Option.map_eq_some_iff.mp h
    exact hs.testAndGet thread (hs.began thread waiting hwaiting)
  | append thread data =>
    rw [step] at h
    split at h
    · cases h
    · obtain rfl := Option.some.inj h
      exact hs.notifyAll.finish (Nat.le_refl _) rfl fun _ _ hw hnot ↦
        absurd hnot (not_unnotified hw)
  | appendList thread newList =>
    rw [step] at h
    split at h
    · cases h
    · obtain rfl := Option.some.inj h
      exact hs.notifyAll.finish (Nat.le_refl _) rfl fun _ _ hw hnot ↦
        absurd hnot (not_unnotified hw)
  | clear thread =>
    rw [step] at h
    split at h
    · cases h
    · obtain rfl := Option.some.inj h
      exact hs.finish (Nat.le_refl _) rfl fun _ _ _ _ ↦ rfl
  | empty thread =>
    rw [step] at h
    split at h
    · cases h
    · obtain rfl := Option.some.inj h
      exact hs.finish (Nat.le_refl _) rfl hs.notified
  | get thread =>
    rw [step] at h
    split at h
    · cases h
    · obtain rfl := Option.some.inj h
      exact hs.testAndGet thread (Nat.le_refl _)

theorem consistent_run {events : List (Event θ τ)}
    (hrun : run step ({} : WaitableContainer θ τ) events = some s) : Consistent s :=
  inv_run (fun _ _ _ hs hstep ↦ consistent_step hs hstep) consistent_start hrun

/-- A queue never throws. -/
theorem ne_thrown_of_sequential {queue left : List τ}
    {ops : List (Completed (ContainerCall τ) (ContainerResult τ))}
    (h : Sequential abstractQueue queue ops left) : ∀ op ∈ ops, op.result ≠ .thrown := by
  induction h with
  | nil queue => exact List.forall_mem_nil _
  | @cons queue after left op ops happly _ ih =>
    refine List.forall_mem_cons.mpr ⟨?_, ih⟩
    intro hthrown
    rw [hthrown] at happly
    cases hcall : op.call with
    | get =>
      rw [hcall] at happly
      cases queue <;> cases happly
    | append _ | appendList _ | clear | empty =>
      rw [hcall] at happly
      cases happly

/-- Over every run of any threads, the container is a first-in first-out queue: the calls have the
results of some order of the same calls on a queue, which respects what ended before what began;
called in the order of their ends they leave what the container holds; and no `get` throws. -/
theorem linearizable_of_run {events : List (Event θ τ)}
    (hrun : run step ({} : WaitableContainer θ τ) events = some s) :
    Linearizable abstractQueue [] s.completed ∧
      Sequential abstractQueue [] s.completed s.mContainer ∧
      ∀ op ∈ s.completed, op.result ≠ .thrown := by
  have hs := (consistent_run hrun).recorded
  exact ⟨hs.linearizable, hs.sequential, ne_thrown_of_sequential hs.sequential⟩

/-- Threads 1 and 2 wait for an element that thread 3 takes after both have been notified of it;
the `get` of thread 3 began last and ended first. -/
theorem linearizable_of_run_overtaken :
    ∃ s, run step ({} : WaitableContainer Nat Nat)
        [.get 1, .get 2, .append 0 5, .get 3, .wake 2, .appendList 0 [6, 7], .wake 2] = some s ∧
      Linearizable abstractQueue [] s.completed ∧
      Sequential abstractQueue [] s.completed s.mContainer ∧
      (∀ op ∈ s.completed, op.result ≠ .thrown) ∧
      s.completed.map (fun op ↦ (op.result, op.began)) =
        [(.done, 2), (.value 5, 3), (.done, 5), (.value 6, 1)] :=
  have ⟨hlinearizable, hsequential, hvalues⟩ := @linearizable_of_run Nat Nat _ _
    [.get 1, .get 2, .append 0 5, .get 3, .wake 2, .appendList 0 [6, 7], .wake 2] rfl
  ⟨_, rfl, hlinearizable, hsequential, hvalues, rfl⟩

/-! ### Waking up -/

/-- A thread that wakes up beside a filled container takes its first element. -/
theorem step_wake {thread : θ} {waiting : Waiting} {value : τ} {rest : List τ}
    (hwaiting : s.mCv thread = some waiting) (hcontainer : s.mContainer = value :: rest) :
    step s (.wake thread) =
      some ((s.setWaiting thread none).finish .get waiting.began (.value value, rest)) := by
  rw [step, hwaiting]
  dsimp only [Option.map_some]
  rw [testAndGet, hcontainer]
  rfl

/-- As many waiting threads as there are elements are served, in the order in which they wake. -/
theorem run_wake (threads : List θ) (hnodup : threads.Nodup)
    (hwaiting : ∀ thread ∈ threads, (s.mCv thread).isSome)
    (hlength : threads.length ≤ s.mContainer.length) :
    ∃ s', run step s (threads.map .wake) = some s' ∧
      s'.mContainer = s.mContainer.drop threads.length ∧
      s'.completed.map Completed.result =
        s.completed.map Completed.result ++ (s.mContainer.take threads.length).map .value := by
  induction threads generalizing s with
  | nil => exact ⟨s, rfl, rfl, by simp⟩
  | cons thread threads ih =>
    obtain ⟨hnew, hnodup⟩ := List.nodup_cons.mp hnodup
    obtain ⟨hthread, hwaiting⟩ := List.forall_mem_cons.mp hwaiting
    obtain ⟨waiting, hasleep⟩ := Option.isSome_iff_exists.mp hthread
    cases hcontainer : s.mContainer with
    | nil =>
      rw [hcontainer] at hlength
      cases hlength
    | cons value rest =>
      rw [hcontainer] at hlength
      have hstep := step_wake hasleep hcontainer
      have hothers : ∀ other ∈ threads,
          (((s.setWaiting thread none).finish .get waiting.began (.value value, rest)).mCv
            other).isSome := by
        intro other hother
        have hne : other ≠ thread := fun heq ↦ hnew (heq ▸ hother)
        show (if other = thread then none else s.mCv other).isSome
        rw [if_neg hne]
        exact hwaiting other hother
      obtain ⟨s', hrun, hleft, hresults⟩ := ih hnodup hothers (Nat.le_of_succ_le_succ hlength)
      refine ⟨s', ?_, hleft, ?_⟩
      · rw [List.map_cons, run_cons, hstep]
        exact hrun
      · rw [hresults]
        simp [WaitableContainer.finish, setWaiting]

/-- Over every run of any threads, no wake-up is lost: beside a filled container every thread that
waits has been notified, and any of them, as many as there are elements, are served when they wake
up, in that order, with the first elements. -/
theorem served_of_run {events : List (Event θ τ)}
    (hrun : run step ({} : WaitableContainer θ τ) events = some s) :
    (∀ thread waiting, s.mCv thread = some waiting → s.mContainer ≠ [] →
        waiting.notified = true) ∧
      ∀ threads : List θ, threads.Nodup → (∀ thread ∈ threads, (s.mCv thread).isSome) →
        threads.length ≤ s.mContainer.length →
        ∃ s', run step s (threads.map .wake) = some s' ∧
          s'.mContainer = s.mContainer.drop threads.length ∧
          s'.completed.map Completed.result =
            s.completed.map Completed.result ++
              (s.mContainer.take threads.length).map .value := by
  refine ⟨?_, run_wake⟩
  intro thread waiting hwaiting hfilled
  cases hnotified : waiting.notified with
  | true => rfl
  | false =>
    exact absurd ((consistent_run hrun).notified thread waiting hwaiting hnotified) hfilled

/-- Three threads wait when two elements are appended: all have been notified, and the last two of
them, awake first, take both. -/
theorem served_of_run_three :
    ∃ s, run step ({} : WaitableContainer Nat Nat)
        [.get 1, .get 2, .get 3, .appendList 0 [5, 6]] = some s ∧
      (s.mCv 1).map Waiting.notified = some true ∧
      ∃ s', run step s [.wake 3, .wake 2] = some s' ∧ s'.mContainer = [] ∧
        s'.completed.map Completed.result = [.done, .value 5, .value 6] :=
  have ⟨hnotified, hserved⟩ := @served_of_run Nat Nat _ _
    [.get 1, .get 2, .get 3, .appendList 0 [5, 6]] rfl
  ⟨_, rfl, congrArg some (hnotified 1 ⟨0, true⟩ rfl (List.cons_ne_nil _ _)),
    hserved [3, 2] (by decide) (List.forall_mem_cons.mpr ⟨rfl, List.forall_mem_singleton.mpr rfl⟩)
      (Nat.le_refl 2)⟩

end WaitableContainer

end KeepMyJournal.Common
