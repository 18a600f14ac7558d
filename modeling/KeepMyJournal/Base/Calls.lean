import KeepMyJournal.Base.Transition

/-!
# Objects that are called while operations are in flight

An object has methods that its owner may call at any time, and operations in flight whose
handlers run when they complete, in any order. Either changes the object and may start further
operations. A method or a handler that returns `none` is not possible in that state.
-/

namespace KeepMyJournal.Base.Calls

universe u

/-- What the methods and the handlers of an object of type `σ` do: the object it becomes and
the operations they start. -/
structure Methods (σ κ ω ρ : Type u) where
  call : σ → κ → Option (σ × List ω)
  complete : σ → ω → ρ → Option (σ × List ω)

/-- An object and its operations in flight. -/
structure Flight (σ ω : Type u) where
  object : σ
  pending : List ω := []

/-- What can happen next. -/
inductive Event (κ ω ρ : Type u) where
  | call (k : κ)
  | complete (op : ω) (result : ρ)
  deriving DecidableEq, Repr

variable {σ κ ω ρ : Type u} [DecidableEq ω]

/-- One step: a call, or the completion of an operation in flight. -/
def step (m : Methods σ κ ω ρ) (s : Flight σ ω) : Event κ ω ρ → Option (Flight σ ω)
  | .call k =>
    (m.call s.object k).map (fun r ↦ { object := r.1, pending := s.pending ++ r.2 })
  | .complete op result =>
    if op ∈ s.pending then
      (m.complete s.object op result).map (fun r ↦
        { object := r.1, pending := s.pending.erase op ++ r.2 })
    else none

variable {m : Methods σ κ ω ρ} {s s' : Flight σ ω}

/-- A call adds the operations it starts. -/
theorem step_call {k : κ} (h : step m s (.call k) = some s') :
    ∃ object started, m.call s.object k = some (object, started) ∧
      s' = { object := object, pending := s.pending ++ started } := by
  unfold step at h
  dsimp only at h
  obtain ⟨r, hr, rfl⟩ := Option.map_eq_some_iff.mp h
  exact ⟨r.1, r.2, hr, rfl⟩

/-- A completion takes its operation out of flight and adds those its handler starts. -/
theorem step_complete {op : ω} {result : ρ} (h : step m s (.complete op result) = some s') :
    op ∈ s.pending ∧ ∃ object started, m.complete s.object op result = some (object, started) ∧
      s' = { object := object, pending := s.pending.erase op ++ started } := by
  unfold step at h
  dsimp only at h
  split at h
  · next hm =>
    obtain ⟨r, hr, rfl⟩ := Option.map_eq_some_iff.mp h
    exact ⟨hm, r.1, r.2, hr, rfl⟩
  · cases h

omit [DecidableEq ω] in
/-- Where at most one operation is in flight, the one that completes was the only one. -/
theorem pending_of_length_le_one {op : ω} (hlen : s.pending.length ≤ 1) (hm : op ∈ s.pending) :
    s.pending = [op] := by
  obtain ⟨other, hother⟩ := List.length_eq_one_iff.mp
    (Nat.le_antisymm hlen (List.length_pos_of_mem hm))
  rw [hother] at hm ⊢
  rw [List.mem_singleton.mp hm]

end KeepMyJournal.Base.Calls
