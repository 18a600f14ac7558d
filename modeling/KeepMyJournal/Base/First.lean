import Mathlib.Init

/-!
# The first position at which a sequence satisfies a predicate
-/

namespace KeepMyJournal.Base

universe u

variable {α : Type u} {P Q : α → Prop} {l : List α}

/-- `P` holds of the element at position `k`, and of none before it. -/
def FirstAt (P : α → Prop) (l : List α) (k : Nat) : Prop :=
  (∃ x, l[k]? = some x ∧ P x) ∧ ∀ j < k, ∀ x, l[j]? = some x → ¬P x

/-- Past the head, first positions are those of the tail, if the head is no match. -/
theorem firstAt_cons_succ (x : α) (k : Nat) :
    FirstAt P (x :: l) (k + 1) ↔ ¬P x ∧ FirstAt P l k := by
  constructor
  · rintro ⟨hk, hb⟩
    refine ⟨hb 0 (by omega) x rfl, hk, ?_⟩
    intro j hj y hy
    exact hb (j + 1) (by omega) y hy
  · rintro ⟨hx, hk, hb⟩
    refine ⟨hk, ?_⟩
    intro j hj y hy
    cases j with
    | zero => exact Option.some.inj hy ▸ hx
    | succ j => exact hb j (by omega) y hy

/-- The head is the first match exactly when it matches. -/
theorem firstAt_cons_zero (x : α) : FirstAt P (x :: l) 0 ↔ P x := by
  constructor
  · rintro ⟨⟨y, hy, hP⟩, -⟩
    exact Option.some.inj hy ▸ hP
  · intro hx
    exact ⟨⟨x, rfl, hx⟩, fun j hj ↦ absurd hj (by omega)⟩

/-- An empty sequence has no first match. -/
theorem not_firstAt_nil (k : Nat) : ¬FirstAt P ([] : List α) k := by
  rintro ⟨⟨x, hx, -⟩, -⟩
  cases hx

/-- A sequence with a match has a first one. -/
theorem exists_firstAt (h : ∃ x ∈ l, P x) : ∃ k, FirstAt P l k := by
  classical
  induction l with
  | nil =>
    obtain ⟨x, hx, -⟩ := h
    cases hx
  | cons y rest ih =>
    by_cases hy : P y
    · exact ⟨0, (firstAt_cons_zero y).mpr hy⟩
    · obtain ⟨x, hx, hP⟩ := h
      rcases List.mem_cons.mp hx with rfl | hx
      · exact absurd hP hy
      · obtain ⟨k, hk⟩ := ih ⟨x, hx, hP⟩
        exact ⟨k + 1, (firstAt_cons_succ y k).mpr ⟨hy, hk⟩⟩

private theorem firstAt_of_either
    (h : ∀ k, FirstAt (fun x ↦ P x ∨ Q x) l k → ∀ x, l[k]? = some x → P x ∧ Q x)
    {k : Nat} (hk : FirstAt P l k) : FirstAt Q l k := by
  obtain ⟨⟨x, hx, hP⟩, hb⟩ := hk
  have hm : ∃ y ∈ l, P y ∨ Q y := ⟨x, List.mem_of_getElem? hx, .inl hP⟩
  obtain ⟨m, hfirst⟩ := exists_firstAt hm
  obtain ⟨⟨y, hy, -⟩, hbefore⟩ := id hfirst
  obtain ⟨hPy, hQy⟩ := h m hfirst y hy
  have hle : m ≤ k := Nat.le_of_not_lt (fun hlt ↦ hbefore k hlt x hx (.inl hP))
  have hge : k ≤ m := Nat.le_of_not_lt (fun hlt ↦ hb m hlt y hy hPy)
  obtain rfl : m = k := Nat.le_antisymm hle hge
  exact ⟨⟨y, hy, hQy⟩, fun j hj z hz hQ ↦ hbefore j hj z hz (.inr hQ)⟩

/-- Two predicates have the same first position exactly when the first element that
satisfies either of them satisfies both. -/
theorem forall_firstAt_iff :
    (∀ k, FirstAt P l k ↔ FirstAt Q l k) ↔
      ∀ k, FirstAt (fun x ↦ P x ∨ Q x) l k → ∀ x, l[k]? = some x → P x ∧ Q x := by
  constructor
  · rintro h k ⟨⟨y, hy, hPQ⟩, hb⟩ x hx
    obtain rfl : y = x := Option.some.inj (hy.symm.trans hx)
    rcases hPQ with hP | hQ
    · have hf : FirstAt P l k := ⟨⟨y, hy, hP⟩, fun j hj z hz hp ↦ hb j hj z hz (.inl hp)⟩
      obtain ⟨⟨z, hz, hQ⟩, -⟩ := (h k).mp hf
      exact ⟨hP, Option.some.inj (hy.symm.trans hz) ▸ hQ⟩
    · have hf : FirstAt Q l k := ⟨⟨y, hy, hQ⟩, fun j hj z hz hq ↦ hb j hj z hz (.inr hq)⟩
      obtain ⟨⟨z, hz, hP⟩, -⟩ := (h k).mpr hf
      exact ⟨Option.some.inj (hy.symm.trans hz) ▸ hP, hQ⟩
  · intro h k
    have hswap : ∀ k, FirstAt (fun x ↦ Q x ∨ P x) l k → ∀ x, l[k]? = some x → Q x ∧ P x := by
      intro k hk x hx
      simp only [or_comm] at hk
      exact (h k hk x hx).symm
    exact ⟨firstAt_of_either h, firstAt_of_either hswap⟩

end KeepMyJournal.Base
