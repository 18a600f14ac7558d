import KeepMyJournal.Base.Transition
import Mathlib.Logic.Function.Basic

/-!
# Processes that share a queue

A process is an object with operations in flight. When one completes, its handler changes the
object, then acts on the shared queue, one atomic action after the other, and last starts
further operations. It may ask at its start whether the queue is empty. Several processes and
one taker run interleaved; an exception that leaves a handler ends them all.
-/

namespace KeepMyJournal.Base.Shared

universe u v

/-- What a handler does to the queue, and the exception that leaves it. -/
inductive Action (α : Type u) where
  | append (a : α)
  | clear
  | throw
  deriving DecidableEq, Repr

/-- An operation in flight, or a handler at work: its next action, those after it and the
operations it starts at its end. -/
inductive Task (ω α : Type u) where
  | op (op : ω)
  | handler (action : Action α) (rest : List (Action α)) (started : List ω)
  deriving DecidableEq, Repr

/-- The operations of a task, in flight or still to be started. -/
def Task.ops {ω α : Type u} : Task ω α → List ω
  | op o => [o]
  | handler _ _ started => started

/-- What is left of a handler that still has the actions to do. -/
def Task.after {ω α : Type u} (actions : List (Action α)) (started : List ω) :
    List (Task ω α) :=
  match actions with
  | [] => started.map .op
  | action :: rest => [.handler action rest started]

/-- An object and its tasks. -/
structure Process (σ ω α : Type u) where
  object : σ
  tasks : List (Task ω α)

/-- What the handler of an operation does with an object, given whether the queue is empty; a
handler that returns `none` does something whose behaviour is not defined. -/
abbrev Handler (σ ω ρ α : Type u) := σ → Bool → ω → ρ → Option (σ × List (Action α) × List ω)

/-- What a process can do next: an operation completes while the queue is empty or not, or a
handler does its next action. -/
inductive Move (ω ρ α : Type u) where
  | complete (op : ω) (result : ρ) (empty : Bool)
  | act (action : Action α) (rest : List (Action α)) (started : List ω)
  deriving DecidableEq, Repr

variable {σ ω ρ α : Type u} [DecidableEq ω] [DecidableEq α]

/-- One step of a process by itself, whatever the queue holds. -/
def move (h : Handler σ ω ρ α) (p : Process σ ω α) : Move ω ρ α → Option (Process σ ω α)
  | .complete op result empty =>
    if .op op ∈ p.tasks then
      (h p.object empty op result).map (fun r ↦
        { object := r.1, tasks := p.tasks.erase (.op op) ++ Task.after r.2.1 r.2.2 })
    else none
  | .act action rest started =>
    if .handler action rest started ∈ p.tasks ∧ action ≠ .throw then
      some { p with
        tasks := p.tasks.erase (.handler action rest started) ++ Task.after rest started }
    else none

/-- The processes, the queue, and all that has been appended to it and taken from it. -/
structure System (ι : Type v) (σ ω α : Type u) where
  process : ι → Process σ ω α
  queue : List α := []
  appended : List α := []
  taken : List α := []

/-- A process moves, or the taker takes. -/
inductive Event (ι : Type v) (ω ρ α : Type u) where
  | move (i : ι) (m : Move ω ρ α)
  | take
  deriving DecidableEq, Repr

variable {ι : Type v} [DecidableEq ι]

/-- The handler sees the queue as it is. -/
def Move.Sees (queue : List α) : Move ω ρ α → Prop
  | complete _ _ empty => empty = queue.isEmpty
  | act _ _ _ => True

instance (queue : List α) (m : Move ω ρ α) : Decidable (m.Sees queue) := by
  unfold Move.Sees
  split <;> infer_instance

/-- What the move does to the queue. -/
def Move.effect (s : System ι σ ω α) : Move ω ρ α → System ι σ ω α
  | act (.append a) _ _ => { s with queue := s.queue ++ [a], appended := s.appended ++ [a] }
  | act .clear _ _ => { s with queue := [] }
  | _ => s

/-- One step of the system. -/
def step (h : Handler σ ω ρ α) (s : System ι σ ω α) :
    Event ι ω ρ α → Option (System ι σ ω α)
  | .move i m =>
    if m.Sees s.queue then
      (move h (s.process i) m).map (fun p ↦
        { m.effect s with process := Function.update s.process i p })
    else none
  | .take =>
    match s.queue with
    | [] => none
    | a :: rest => some { s with queue := rest, taken := s.taken ++ [a] }

/-! ### One chain -/

/-- Nothing runs beside the one task of the process, which starts one operation at most; `J`
holds of the object, and `I` of the object and that operation. -/
structure Chain (J : σ → Prop) (I : σ → ω → Prop) (p : Process σ ω α) : Prop where
  single : p.tasks.length ≤ 1
  ops : ∀ t ∈ p.tasks, t.ops.length ≤ 1
  object : J p.object
  op : ∀ t ∈ p.tasks, ∀ o ∈ t.ops, I p.object o

variable {h : Handler σ ω ρ α} {J : σ → Prop} {I : σ → ω → Prop} {p p' : Process σ ω α}

omit [DecidableEq ω] [DecidableEq α] in
/-- The task of a chain is the only one. -/
theorem Chain.tasks_eq (hp : Chain J I p) {t : Task ω α} (ht : t ∈ p.tasks) : p.tasks = [t] := by
  obtain ⟨other, hother⟩ := List.length_eq_one_iff.mp
    (Nat.le_antisymm hp.single (List.length_pos_of_mem ht))
  rw [hother] at ht ⊢
  rw [List.mem_singleton.mp ht]

omit [DecidableEq ω] [DecidableEq α] in
/-- A handler that starts at most one operation leaves a chain. -/
theorem chain_after {s : σ} {actions : List (Action α)} {started : List ω} (hJ : J s)
    (hlen : started.length ≤ 1) (hI : ∀ o ∈ started, I s o) :
    Chain J I { object := s, tasks := Task.after actions started } := by
  have hops : ∀ t ∈ Task.after actions started, t.ops.length ≤ 1 ∧ ∀ o ∈ t.ops, o ∈ started := by
    cases actions with
    | nil =>
      intro t ht
      obtain ⟨o, ho, rfl⟩ := List.mem_map.mp ht
      refine ⟨Nat.le_refl 1, ?_⟩
      intro o' ho'
      rw [List.mem_singleton.mp ho']
      exact ho
    | cons action rest =>
      intro t ht
      rw [List.mem_singleton.mp ht]
      exact ⟨hlen, fun _ ho ↦ ho⟩
  constructor
  · cases actions with
    | nil => simpa [Task.after] using hlen
    | cons action rest => exact Nat.le_refl 1
  · exact fun t ht ↦ (hops t ht).1
  · exact hJ
  · exact fun t ht o ho ↦ hI o ((hops t ht).2 o ho)

/-- The rule of one chain: handlers that start at most one operation keep it, and what they
keep of the object and the operation at the moves that satisfy `Θ` holds after these. -/
theorem chain_move {Θ : σ → Move ω ρ α → Prop}
    (hh : ∀ s empty op result s' actions started, Θ s (.complete op result empty) → J s →
      I s op → h s empty op result = some (s', actions, started) →
        J s' ∧ started.length ≤ 1 ∧ ∀ o ∈ started, I s' o)
    {m : Move ω ρ α} (hp : Chain J I p) (hΘ : Θ p.object m) (hm : move h p m = some p') :
    Chain J I p' := by
  cases m with
  | complete op result empty =>
    unfold move at hm
    dsimp only at hm
    split at hm
    · next ht =>
      obtain ⟨⟨s', actions, started⟩, hr, rfl⟩ := Option.map_eq_some_iff.mp hm
      have hI : I p.object op := hp.op _ ht op (List.mem_singleton.mpr rfl)
      obtain ⟨hJ', hlen, hI'⟩ := hh _ _ _ _ _ _ _ hΘ hp.object hI hr
      rw [hp.tasks_eq ht, List.erase_cons_head, List.nil_append]
      exact chain_after hJ' hlen hI'
    · cases hm
  | act action rest started =>
    unfold move at hm
    dsimp only at hm
    split at hm
    · next ht =>
      obtain rfl := Option.some.inj hm
      have htask := hp.tasks_eq ht.1
      rw [htask, List.erase_cons_head, List.nil_append]
      exact chain_after hp.object (hp.ops _ ht.1) (hp.op _ ht.1)
    · cases hm

/-! ### All tasks -/

omit [DecidableEq ω] [DecidableEq α] in
/-- What a handler leaves holds no other operations than those it starts. -/
private theorem mem_started_of_after {actions : List (Action α)} {started : List ω} {t : Task ω α}
    (ht : t ∈ Task.after actions started) : ∀ o ∈ t.ops, o ∈ started := by
  cases actions with
  | nil =>
    obtain ⟨o, ho, rfl⟩ := List.mem_map.mp ht
    exact List.forall_mem_singleton.mpr ho
  | cons action rest =>
    rw [List.mem_singleton.mp ht]
    exact fun _ ho ↦ ho

/-- `J` holds of the object, and `I` of the object and every operation of its tasks. -/
structure Keeps (J : σ → Prop) (I : σ → ω → Prop) (p : Process σ ω α) : Prop where
  object : J p.object
  op : ∀ t ∈ p.tasks, ∀ o ∈ t.ops, I p.object o

/-- Handlers that establish `J` and `I` for what they leave and start, and spare `I` of all other
operations, keep them in every move. -/
theorem keeps_move
    (hh : ∀ s empty op result s' actions started, J s → I s op →
      h s empty op result = some (s', actions, started) →
        J s' ∧ (∀ o ∈ started, I s' o) ∧ ∀ o, I s o → I s' o)
    {m : Move ω ρ α} (hp : Keeps J I p) (hm : move h p m = some p') : Keeps J I p' := by
  cases m with
  | complete op result empty =>
    unfold move at hm
    dsimp only at hm
    split at hm
    · next ht =>
      obtain ⟨⟨s', actions, started⟩, hr, rfl⟩ := Option.map_eq_some_iff.mp hm
      have hop : I p.object op := hp.op _ ht op (List.mem_singleton.mpr rfl)
      obtain ⟨hJ', hstarted, hothers⟩ := hh _ _ _ _ _ _ _ hp.object hop hr
      refine ⟨hJ', fun t ht o ho ↦ ?_⟩
      rcases List.mem_append.mp ht with ht | ht
      · exact hothers o (hp.op t (List.mem_of_mem_erase ht) o ho)
      · exact hstarted o (mem_started_of_after ht o ho)
    · cases hm
  | act action rest started =>
    unfold move at hm
    dsimp only at hm
    split at hm
    · next htask =>
      obtain rfl := Option.some.inj hm
      refine ⟨hp.object, fun t ht o ho ↦ ?_⟩
      rcases List.mem_append.mp ht with ht | ht
      · exact hp.op t (List.mem_of_mem_erase ht) o ho
      · exact hp.op _ htask.1 o (mem_started_of_after ht o ho)
    · cases hm

/-! ### Records -/

variable {τ : Type u} {note : τ → ω → ρ → τ}

/-- The handlers with a record of the completions beside the object. -/
def recorded (h : Handler σ ω ρ α) (note : τ → ω → ρ → τ) : Handler (σ × τ) ω ρ α :=
  fun s empty op result ↦ (h s.1 empty op result).map fun r ↦ ((r.1, note s.2 op result), r.2)

/-- What a move leaves on record. -/
def Move.noted (note : τ → ω → ρ → τ) (t : τ) : Move ω ρ α → τ
  | complete op result _ => note t op result
  | act _ _ _ => t

omit [DecidableEq ω] [DecidableEq α] in
theorem of_recorded {s s' : σ × τ} {empty : Bool} {op : ω} {result : ρ} {actions : List (Action α)}
    {started : List ω} (hr : recorded h note s empty op result = some (s', actions, started)) :
    h s.1 empty op result = some (s'.1, actions, started) ∧ s'.2 = note s.2 op result := by
  obtain ⟨⟨object, rest⟩, hh, hrest⟩ := Option.map_eq_some_iff.mp hr
  obtain ⟨rfl, rfl⟩ := Prod.mk.inj hrest
  exact ⟨hh, rfl⟩

private theorem move_recorded {m : Move ω ρ α} (hm : move h p m = some p') (t : τ) :
    move (recorded h note) { object := (p.object, t), tasks := p.tasks } m =
      some { object := (p'.object, m.noted note t), tasks := p'.tasks } := by
  cases m with
  | complete op result empty =>
    unfold move at hm ⊢
    dsimp only at hm ⊢
    split at hm
    · next ht =>
      obtain ⟨r, hr, rfl⟩ := Option.map_eq_some_iff.mp hm
      rw [if_pos ht, recorded, hr]
      rfl
    · cases hm
  | act action rest started =>
    unfold move at hm ⊢
    dsimp only at hm ⊢
    split at hm
    · next ht =>
      obtain rfl := Option.some.inj hm
      rw [if_pos ht]
      rfl
    · cases hm

/-- A process does with a record what it does without, and the record is that of its moves. -/
theorem run_recorded {moves : List (Move ω ρ α)}
    (hrun : Transition.run (move h) p moves = some p') (t : τ) :
    Transition.run (move (recorded h note)) { object := (p.object, t), tasks := p.tasks } moves =
      some { object := (p'.object, moves.foldl (Move.noted note) t), tasks := p'.tasks } := by
  induction moves generalizing p t with
  | nil =>
    obtain rfl := Option.some.inj hrun
    rfl
  | cons m moves ih =>
    rw [Transition.run_cons, Option.bind_eq_some_iff] at hrun
    obtain ⟨q, hq, hrun⟩ := hrun
    rw [Transition.run_cons, move_recorded hq t]
    exact ih hrun _

/-! ### The system -/

variable {s s' : System ι σ ω α}

/-- In a step one process moves, as it does by itself, and the others stay. -/
theorem step_move {i : ι} {m : Move ω ρ α} (hs : step h s (.move i m) = some s') :
    m.Sees s.queue ∧ ∃ p, move h (s.process i) m = some p ∧
      s' = { m.effect s with process := Function.update s.process i p } := by
  unfold step at hs
  dsimp only at hs
  split at hs
  · next hsees =>
    obtain ⟨p, hp, rfl⟩ := Option.map_eq_some_iff.mp hs
    exact ⟨hsees, p, hp, rfl⟩
  · cases hs

/-- The move that an event makes of process `i`. -/
def Event.moveOf (i : ι) : Event ι ω ρ α → Option (Move ω ρ α)
  | .move j m => if j = i then some m else none
  | .take => none

omit [DecidableEq ω] [DecidableEq α] in
theorem of_moveOf {i : ι} {e : Event ι ω ρ α} {m : Move ω ρ α} (h : e.moveOf i = some m) :
    e = .move i m := by
  cases e with
  | move j m' =>
    by_cases hij : j = i
    · subst hij
      obtain rfl : m' = m := by simpa [Event.moveOf] using h
      rfl
    · simp [Event.moveOf, hij] at h
  | take => cases h

theorem step_take (hs : step h s .take = some s') :
    ∃ a rest, s.queue = a :: rest ∧ s' = { s with queue := rest, taken := s.taken ++ [a] } := by
  unfold step at hs
  dsimp only at hs
  split at hs
  · cases hs
  · next a rest hq => exact ⟨a, rest, hq, (Option.some.inj hs).symm⟩

/-- What the moves of process `i` keep of it, every step keeps, provided the moves that the
step makes satisfy `Θ`. -/
theorem process_step {K : Process σ ω α → Prop} {Θ : Process σ ω α → Move ω ρ α → Prop} {i : ι}
    (hmove : ∀ m p p', K p → Θ p m → move h p m = some p' → K p') {e : Event ι ω ρ α}
    (hs : K (s.process i)) (hstep : step h s e = some s')
    (hΘ : ∀ m, e = .move i m → Θ (s.process i) m) : K (s'.process i) := by
  cases e with
  | move j m =>
    obtain ⟨-, p, hp, rfl⟩ := step_move hstep
    dsimp only
    by_cases hij : i = j
    · subst hij
      rw [Function.update_self]
      exact hmove m _ _ hs (hΘ m rfl) hp
    · rw [Function.update_of_ne hij]
      exact hs
  | take =>
    obtain ⟨a, rest, -, rfl⟩ := step_take hstep
    exact hs

/-- In a run of the system every process goes through a run of its own. -/
theorem run_process {es : List (Event ι ω ρ α)} (hrun : Transition.run (step h) s es = some s')
    (i : ι) : Transition.run (move h) (s.process i) (es.filterMap (Event.moveOf i)) =
      some (s'.process i) := by
  refine Transition.run_of_component (f := fun s ↦ s.process i) ?_ ?_ hrun
  · intro s e s' hs hnone
    cases e with
    | move j m =>
      obtain ⟨-, p, hp, rfl⟩ := step_move hs
      have hij : i ≠ j := by
        rintro rfl
        simp [Event.moveOf] at hnone
      exact Function.update_of_ne hij _ _
    | take =>
      obtain ⟨a, rest, -, rfl⟩ := step_take hs
      rfl
  · intro s e s' m hs hsome
    obtain rfl := of_moveOf hsome
    obtain ⟨-, p, hp, rfl⟩ := step_move hs
    dsimp only
    rw [Function.update_self]
    exact hp

/-- All that has been appended has been taken or is still queued, in its order. -/
def Conserved (s : System ι σ ω α) : Prop := s.appended = s.taken ++ s.queue

instance (s : System ι σ ω α) : Decidable (Conserved s) :=
  inferInstanceAs (Decidable (s.appended = s.taken ++ s.queue))

/-- If the step clears the queue, the queue is empty. -/
def ClearsEmpty (s : System ι σ ω α) : Event ι ω ρ α → System ι σ ω α → Prop
  | .move _ (.act .clear _ _), _ => s.queue = []
  | _, _ => True

instance (s : System ι σ ω α) (e : Event ι ω ρ α) (s' : System ι σ ω α) :
    Decidable (ClearsEmpty s e s') := by
  unfold ClearsEmpty
  split <;> infer_instance

/-- A step loses nothing if and only if it clears no queue that holds something. -/
theorem conserved_step {e : Event ι ω ρ α} (hs : Conserved s) (hstep : step h s e = some s') :
    Conserved s' ↔ ClearsEmpty s e s' := by
  unfold Conserved at hs ⊢
  cases e with
  | take =>
    obtain ⟨a, rest, hq, rfl⟩ := step_take hstep
    refine iff_of_true ?_ True.intro
    rw [hs, hq, List.append_assoc, List.singleton_append]
  | move i m =>
    obtain ⟨-, p, -, rfl⟩ := step_move hstep
    cases m with
    | complete op result empty => exact iff_of_true hs True.intro
    | act action rest started =>
      cases action with
      | append a =>
        refine iff_of_true ?_ True.intro
        change s.appended ++ [a] = s.taken ++ (s.queue ++ [a])
        rw [hs, List.append_assoc]
      | clear =>
        change s.appended = s.taken ++ [] ↔ s.queue = []
        rw [hs, List.append_cancel_left_eq]
      | throw => exact iff_of_true hs True.intro

/-- In every run nothing is lost if and only if no queue is cleared that holds something. -/
theorem along_conserved_iff (hs : Conserved s) {es : List (Event ι ω ρ α)} :
    Transition.Along (step h) (fun _ _ s' ↦ Conserved s') s es ↔
      Transition.Along (step h) ClearsEmpty s es := by
  apply Transition.along_congr (I := Conserved)
  · intro s e _ s' hs hstep
    exact conserved_step hs hstep
  · intro _ _ _ _ _ _ hconserved
    exact hconserved
  · exact hs

/-! ### What the handlers yield -/

/-- The values that the actions append. -/
def appends (actions : List (Action α)) : List α :=
  actions.filterMap fun action ↦ match action with | .append a => some a | .clear | .throw => none

/-- The values that a task has still to append. -/
def Task.appends : Task ω α → List α
  | op _ => []
  | handler action rest _ => Shared.appends (action :: rest)

/-- The values that a process has still to append. -/
def Process.appends (p : Process σ ω α) : List α := p.tasks.flatMap Task.appends

omit [DecidableEq α] in
theorem appends_append (actions more : List (Action α)) :
    appends (actions ++ more) = appends actions ++ appends more := List.filterMap_append

omit [DecidableEq ω] [DecidableEq α] in
theorem appends_cons (action : Action α) (rest : List (Action α)) :
    appends (action :: rest) = appends [action] ++ appends rest :=
  List.filterMap_append (l := [action])

omit [DecidableEq ω] [DecidableEq α] in
theorem appends_singleton_of_ne {action : Action α} (h : ∀ a, action ≠ .append a) :
    appends [action] = [] := by
  cases action with
  | append a => exact absurd rfl (h a)
  | clear | throw => rfl

omit [DecidableEq α] in
/-- Appending any values appends them. -/
theorem appends_map_append (values : List α) : appends (values.map .append) = values := by
  unfold appends
  rw [List.filterMap_map]
  exact List.filterMap_some

omit [DecidableEq ω] [DecidableEq α] in
private theorem appends_after (actions : List (Action α)) (started : List ω) :
    (Task.after actions started).flatMap Task.appends = appends actions := by
  cases actions with
  | nil =>
    unfold Task.after
    rw [List.flatMap_map]
    exact List.flatMap_eq_nil_iff.mpr fun _ _ ↦ rfl
  | cons action rest => exact List.append_nil _

private theorem perm_appends_erase {tasks : List (Task ω α)} {t : Task ω α} (ht : t ∈ tasks) :
    (tasks.flatMap Task.appends).Perm (t.appends ++ (tasks.erase t).flatMap Task.appends) :=
  (List.perm_cons_erase ht).flatMap_right _

/-- A handler that starts has still to append what it yields. -/
theorem perm_appends_complete {op : ω} {result : ρ} {empty : Bool}
    (hm : move h p (.complete op result empty) = some p') :
    ∃ s' actions started, h p.object empty op result = some (s', actions, started) ∧
      p'.object = s' ∧ p'.appends.Perm (p.appends ++ appends actions) := by
  unfold move at hm
  dsimp only at hm
  split at hm
  · next ht =>
    obtain ⟨⟨s', actions, started⟩, hr, rfl⟩ := Option.map_eq_some_iff.mp hm
    refine ⟨s', actions, started, hr, rfl, ?_⟩
    unfold Process.appends
    rw [List.flatMap_append, appends_after]
    exact (perm_appends_erase ht).symm.append_right _
  · cases hm

/-- What an action appends, the process no longer has to append. -/
theorem perm_appends_act {action : Action α} {rest : List (Action α)} {started : List ω}
    (hm : move h p (.act action rest started) = some p') :
    p'.object = p.object ∧ p.appends.Perm (appends [action] ++ p'.appends) := by
  unfold move at hm
  dsimp only at hm
  split at hm
  · next ht =>
    obtain rfl := Option.some.inj hm
    refine ⟨rfl, (perm_appends_erase ht.1).trans ?_⟩
    unfold Process.appends
    rw [List.flatMap_append, appends_after]
    change (appends (action :: rest) ++ _).Perm _
    rw [appends_cons, List.append_assoc]
    exact List.perm_append_comm.append_left _
  · cases hm

/-- What the completions of a run yield, given what each operation yields with its result. -/
def Event.received (yields : ι → ω → ρ → List α) : Event ι ω ρ α → List α
  | .move i (.complete op result _) => yields i op result
  | _ => []

/-- What has been appended, and what the processes have still to append. -/
def System.fed (all : List ι) (s : System ι σ ω α) : List α :=
  s.appended ++ all.flatMap fun i ↦ (s.process i).appends

omit [DecidableEq ω] [DecidableEq α] in
private theorem perm_flatMap_update {all : List ι} (hnodup : all.Nodup) {i : ι} (hi : i ∈ all)
    (process : ι → Process σ ω α) (p : Process σ ω α) :
    (all.flatMap fun j ↦ (Function.update process i p j).appends).Perm
      (p.appends ++ (all.erase i).flatMap fun j ↦ (process j).appends) := by
  refine ((List.perm_cons_erase hi).flatMap_right _).trans ?_
  have hothers : ((all.erase i).flatMap fun j ↦ (Function.update process i p j).appends) =
      (all.erase i).flatMap fun j ↦ (process j).appends := by
    rw [List.flatMap_def, List.flatMap_def]
    refine congrArg List.flatten (List.map_congr_left fun j hj ↦ ?_)
    rw [Function.update_of_ne (hnodup.mem_erase_iff.mp hj).1]
  rw [List.flatMap_cons, Function.update_self, hothers]

omit [DecidableEq ω] [DecidableEq α] in
/-- A move of a process changes what is fed by what it appends and what it has still to append. -/
private theorem perm_fed_move {all : List ι} (hnodup : all.Nodup) {i : ι} (hi : i ∈ all)
    {p : Process σ ω α} (appended more yielded : List α)
    (hp : (appended ++ p.appends).Perm ((s.process i).appends ++ yielded)) :
    ((more ++ appended) ++
        all.flatMap fun j ↦ (Function.update s.process i p j).appends).Perm
      ((more ++ all.flatMap fun j ↦ (s.process j).appends) ++ yielded) := by
  have hbefore := perm_flatMap_update hnodup hi s.process (s.process i)
  rw [Function.update_eq_self] at hbefore
  rw [List.append_assoc, List.append_assoc]
  refine List.Perm.append_left more ?_
  calc (appended ++ all.flatMap fun j ↦ (Function.update s.process i p j).appends).Perm
        (appended ++ (p.appends ++ (all.erase i).flatMap fun j ↦ (s.process j).appends)) :=
      (perm_flatMap_update hnodup hi s.process p).append_left _
    List.Perm _ ((s.process i).appends ++ yielded ++
        (all.erase i).flatMap fun j ↦ (s.process j).appends) := by
      rw [← List.append_assoc]
      exact hp.append_right _
    List.Perm _ ((s.process i).appends ++
        ((all.erase i).flatMap (fun j ↦ (s.process j).appends) ++ yielded)) := by
      rw [List.append_assoc]
      exact List.perm_append_comm.append_left _
    List.Perm _ (all.flatMap (fun j ↦ (s.process j).appends) ++ yielded) := by
      rw [← List.append_assoc]
      exact hbefore.symm.append_right _

/-- In every run of processes whose handlers append what their completions yield, nothing of that
is lost, repeated or made up: it has been appended, or a handler has still to append it. -/
theorem fed_run {yields : ι → ω → ρ → List α} {I : ι → σ → Prop}
    (hh : ∀ i s empty op result s' actions started, I i s →
      h s empty op result = some (s', actions, started) →
        I i s' ∧ appends actions = yields i op result)
    {all : List ι} (hnodup : all.Nodup) (hall : ∀ i, i ∈ all)
    (hs : ∀ i, I i (s.process i).object) {es : List (Event ι ω ρ α)}
    (hrun : Transition.run (step h) s es = some s') :
    (s'.fed all).Perm (s.fed all ++ es.flatMap (Event.received yields)) := by
  refine Transition.perm_log_run (I := fun s ↦ ∀ i, I i (s.process i).object) ?_ hs hrun
  intro s e s' hs hstep
  cases e with
  | take =>
    obtain ⟨a, rest, -, rfl⟩ := step_take hstep
    refine ⟨hs, ?_⟩
    change (System.fed all s).Perm (System.fed all s ++ [])
    rw [List.append_nil]
  | move i m =>
    obtain ⟨-, p, hp, rfl⟩ := step_move hstep
    have hobjects : I i p.object →
        ∀ j, I j (Function.update s.process i p j).object := by
      intro hi j
      by_cases hij : j = i
      · subst hij
        rw [Function.update_self]
        exact hi
      · rw [Function.update_of_ne hij]
        exact hs j
    cases m with
    | complete op result empty =>
      obtain ⟨t, actions, started, hr, hobject, hperm⟩ := perm_appends_complete hp
      obtain ⟨ht, hyields⟩ := hh _ _ _ _ _ _ _ _ (hs i) hr
      refine ⟨hobjects (hobject ▸ ht), ?_⟩
      rw [hyields] at hperm
      have hmove := perm_fed_move hnodup (hall i) [] s.appended _ hperm
      rw [List.append_nil] at hmove
      exact hmove
    | act action rest started =>
      obtain ⟨hobject, hperm⟩ := perm_appends_act hp
      refine ⟨hobjects (hobject ▸ hs i), ?_⟩
      have hmove := perm_fed_move hnodup (hall i) (appends [action]) s.appended []
        (hperm.symm.trans (by rw [List.append_nil]))
      cases action with
      | append a => exact hmove
      | clear | throw => rwa [appends_singleton_of_ne nofun, List.append_nil] at hmove

/-! ### Handlers that only append -/

/-- The actions that a task has still to do. -/
def Task.actions : Task ω α → List (Action α)
  | op _ => []
  | handler action rest _ => action :: rest

/-- The actions do nothing but append. -/
def OnlyAppend (actions : List (Action α)) : Prop := ∀ action ∈ actions, ∃ a, action = .append a

/-- No handler of the process is going to clear the queue or to throw. -/
def Process.OnlyAppends (p : Process σ ω α) : Prop := ∀ t ∈ p.tasks, OnlyAppend t.actions

omit [DecidableEq ω] [DecidableEq α] in
private theorem onlyAppend_after {actions : List (Action α)} (h : OnlyAppend actions)
    (started : List ω) : ∀ t ∈ Task.after actions started, OnlyAppend t.actions := by
  cases actions with
  | nil =>
    intro t ht
    obtain ⟨op, -, rfl⟩ := List.mem_map.mp ht
    exact List.forall_mem_nil _
  | cons action rest => exact List.forall_mem_singleton.mpr h

private theorem onlyAppends_replace {t : Task ω α} {actions : List (Action α)} {started : List ω}
    {object : σ} (hp : p.OnlyAppends) (h : OnlyAppend actions) :
    Process.OnlyAppends
      { object := object, tasks := p.tasks.erase t ++ Task.after actions started } := by
  intro other hother
  rcases List.mem_append.mp hother with hother | hother
  · exact hp other (List.mem_of_mem_erase hother)
  · exact onlyAppend_after h started other hother

theorem onlyAppends_move
    (hh : ∀ s empty op result s' actions started,
      h s empty op result = some (s', actions, started) → OnlyAppend actions)
    {m : Move ω ρ α} (hp : p.OnlyAppends) (hm : move h p m = some p') : p'.OnlyAppends := by
  cases m with
  | complete op result empty =>
    unfold move at hm
    dsimp only at hm
    split at hm
    · obtain ⟨⟨s', actions, started⟩, hr, rfl⟩ := Option.map_eq_some_iff.mp hm
      exact onlyAppends_replace hp (hh _ _ _ _ _ _ _ hr)
    · cases hm
  | act action rest started =>
    unfold move at hm
    dsimp only at hm
    split at hm
    · next ht =>
      obtain rfl := Option.some.inj hm
      exact onlyAppends_replace hp fun other hother ↦
        hp _ ht.1 other (List.mem_cons_of_mem _ hother)
    · cases hm

/-- Where handlers do nothing but append, nothing is lost in any run. -/
theorem conserved_run
    (hh : ∀ s empty op result s' actions started,
      h s empty op result = some (s', actions, started) → OnlyAppend actions)
    (hs : Conserved s) (hprocess : ∀ i, (s.process i).OnlyAppends) {es : List (Event ι ω ρ α)}
    (hrun : Transition.run (step h) s es = some s') :
    Conserved s' ∧ ∀ i, (s'.process i).OnlyAppends := by
  refine Transition.inv_run (I := fun s ↦ Conserved s ∧ ∀ i, (s.process i).OnlyAppends) ?_
    ⟨hs, hprocess⟩ hrun
  rintro s e s' ⟨hs, hprocess⟩ hstep
  constructor
  · rw [conserved_step hs hstep]
    cases e with
    | take => exact True.intro
    | move i m =>
      cases m with
      | complete op result empty => exact True.intro
      | act action rest started =>
        obtain ⟨-, p, hp, -⟩ := step_move hstep
        unfold move at hp
        dsimp only at hp
        split at hp
        · next ht =>
          obtain ⟨a, rfl⟩ := hprocess i _ ht.1 action List.mem_cons_self
          exact True.intro
        · cases hp
  · intro i
    exact process_step (Θ := fun _ _ ↦ True) (fun _ _ _ hp _ hm ↦ onlyAppends_move hh hp hm)
      (hprocess i) hstep fun _ _ ↦ True.intro

end KeepMyJournal.Base.Shared
