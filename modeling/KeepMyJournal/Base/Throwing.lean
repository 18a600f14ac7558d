import Mathlib.Data.List.Forall2

/-!
# Computations that throw

A computation over a state that may throw; what it has done to the state before a throw stays
done. The rules say what a sequence, a loop and a handler do when the first part returns or
throws, and how a projection of the state that no part changes is kept.
-/

namespace KeepMyJournal.Base

universe u

section Except

variable {ε ε' α β : Type u} {x : Except ε α}

/-- A computation in two parts returns if and only if both do. -/
theorem bind_eq_ok_iff {f : α → Except ε β} {b : β} :
    x >>= f = .ok b ↔ ∃ a, x = .ok a ∧ f a = .ok b := by
  constructor
  · intro h
    cases x with
    | error e => cases h
    | ok a => exact ⟨a, rfl, h⟩
  · rintro ⟨a, rfl, h⟩
    exact h

/-- A computation in two parts returns only if both do. -/
theorem of_bind_eq_ok {f : α → Except ε β} {b : β} (h : x >>= f = .ok b) :
    ∃ a, x = .ok a ∧ f a = .ok b := bind_eq_ok_iff.mp h

/-- Renaming what is thrown does not change what is returned. -/
theorem of_mapError_eq_ok {f : ε → ε'} {a : α} (h : x.mapError f = .ok a) : x = .ok a := by
  cases x with
  | error e => cases h
  | ok b =>
    obtain rfl := Except.ok.inj h
    rfl

/-- What is handed on if nothing is thrown has been returned. -/
theorem toOption_eq_some_iff {a : α} : x.toOption = some a ↔ x = .ok a := by
  cases x with
  | error e => exact iff_of_false nofun nofun
  | ok b => exact ⟨fun h ↦ congrArg _ (Option.some.inj h), fun h ↦ congrArg _ (Except.ok.inj h)⟩

/-- A list is read as a whole if each of its elements is. -/
theorem forall₂_of_mapM_eq_ok {f : α → Except ε β} {l : List α} {l' : List β}
    (h : l.mapM f = .ok l') : List.Forall₂ (fun a b ↦ f a = .ok b) l l' := by
  induction l generalizing l' with
  | nil =>
    obtain rfl := Except.ok.inj h
    exact .nil
  | cons a l ih =>
    rw [List.mapM_cons] at h
    obtain ⟨b, hb, h⟩ := of_bind_eq_ok h
    obtain ⟨rest, hrest, h⟩ := of_bind_eq_ok h
    obtain rfl := Except.ok.inj h
    exact .cons hb (ih hrest)

end Except

/-- A computation over `σ` that returns an `α` or throws an `ε`. -/
abbrev Throwing (ε σ α : Type u) := ExceptT ε (StateM σ) α

namespace Throwing

variable {ε σ α β γ : Type u} {x : Throwing ε σ α} {f : α → Throwing ε σ β} {s s' : σ}

/-- A part that returns hands its value and its state on. -/
theorem bind_ok {a : α} (h : x s = (.ok a, s')) : (x >>= f) s = f a s' := by
  change (match x s with | (r, s) => (ExceptT.bindCont f r) s) = _
  rw [h]
  rfl

/-- A part that throws ends the computation in the state it leaves. -/
theorem bind_error {e : ε} (h : x s = (.error e, s')) : (x >>= f) s = (.error e, s') := by
  change (match x s with | (r, s) => (ExceptT.bindCont f r) s) = _
  rw [h]
  rfl

/-- A sequence that returns has a first part that returned. -/
theorem of_bind {b : β} (h : (x >>= f) s = (.ok b, s')) :
    ∃ a t, x s = (.ok a, t) ∧ f a t = (.ok b, s') := by
  cases hx : x s with
  | mk result t =>
    cases result with
    | ok a => exact ⟨a, t, rfl, (bind_ok (f := f) hx).symm.trans h⟩
    | error e =>
      cases (bind_error (f := f) hx).symm.trans h

/-- A part that does not touch the state hands its value on. -/
theorem lift_bind_ok {y : Except ε α} {a : α} (h : y = .ok a) (s : σ) :
    ((liftM y : Throwing ε σ α) >>= f) s = f a s := by
  subst h
  exact bind_ok rfl

/-- A part that does not touch the state throws in the state it has found. -/
theorem lift_bind_error {y : Except ε α} {e : ε} (h : y = .error e) (s : σ) :
    ((liftM y : Throwing ε σ α) >>= f) s = (.error e, s) := by
  subst h
  exact bind_error rfl

/-- A computation that returns leaves nothing to its handler. -/
theorem tryCatch_ok {handler : ε → Throwing ε σ α} {a : α} (h : x s = (.ok a, s')) :
    (tryCatch x handler : Throwing ε σ α) s = (.ok a, s') := by
  change (match x s with
    | (r, s) => (match r with
      | .ok a => (pure (.ok a) : StateM σ (Except ε α))
      | .error e => handler e) s) = _
  rw [h]
  rfl

/-- A handler starts in the state in which the computation threw. -/
theorem tryCatch_error {handler : ε → Throwing ε σ α} {e : ε} (h : x s = (.error e, s')) :
    (tryCatch x handler : Throwing ε σ α) s = handler e s' := by
  change (match x s with
    | (r, s) => (match r with
      | .ok a => (pure (.ok a) : StateM σ (Except ε α))
      | .error e => handler e) s) = _
  rw [h]

/-- A computation with a handler that returns does not throw. -/
theorem fst_tryCatch {a : α} : ((tryCatch x (fun _ ↦ pure a) : Throwing ε σ α) s).1.isOk := by
  cases h : x s with
  | mk result t =>
    cases result with
    | ok b =>
      rw [tryCatch_ok h]
      rfl
    | error e =>
      rw [tryCatch_error h]
      rfl

/-- The computation leaves the part `view` of the state as it is, whether it returns or throws. -/
def Keeps (view : σ → γ) (x : Throwing ε σ α) : Prop := ∀ s, view (x s).2 = view s

variable {view : σ → γ}

theorem keeps_pure (a : α) : Keeps view (pure a : Throwing ε σ α) := fun _ ↦ rfl

theorem Keeps.bind (hx : Keeps view x) (hf : ∀ a, Keeps view (f a)) : Keeps view (x >>= f) := by
  intro s
  have hview := hx s
  cases h : x s with
  | mk result t =>
    rw [h] at hview
    cases result with
    | ok a =>
      rw [bind_ok h, ← hview]
      exact hf a t
    | error e =>
      rw [bind_error h]
      exact hview

theorem keeps_forM {l : List α} {g : α → Throwing ε σ PUnit} (hg : ∀ a, Keeps view (g a)) :
    Keeps view (l.forM g) := by
  induction l with
  | nil => exact keeps_pure _
  | cons a l ih => exact (hg a).bind fun _ ↦ ih

end Throwing

end KeepMyJournal.Base
