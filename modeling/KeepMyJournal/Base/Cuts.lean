import Mathlib.Data.List.Infix

/-!
# Cutting a list at the occurrences of another

A text is cut at the first occurrence of a delimiter, what stands behind it is cut again, and so
on up to a rest without the delimiter. Occurrences that overlap an earlier one do not count.
-/

namespace KeepMyJournal.Base

universe u

variable {α : Type u} {delim text piece rest last : List α} {pieces : List (List α)}

/-- The first occurrence of the delimiter in the text stands between the piece and the rest. -/
structure FirstCut (delim text piece rest : List α) : Prop where
  text_eq : text = piece ++ delim ++ rest
  first : ∀ i < piece.length, ¬delim <+: text.drop i

/-- The text is cut into pieces and a rest. -/
inductive Cut (delim : List α) : List α → List (List α) → List α → Prop
  | rest {text : List α} : ¬delim <:+: text → Cut delim text [] text
  | next {text piece rest last : List α} {pieces : List (List α)} :
      FirstCut delim text piece rest → Cut delim rest pieces last →
        Cut delim text (piece :: pieces) last

/-- An occurrence in the piece would be an earlier one. -/
theorem FirstCut.not_contains (h : FirstCut delim text piece rest) (hdelim : delim ≠ []) :
    ¬delim <:+: piece := by
  rintro ⟨before, after, rfl⟩
  apply h.first before.length
  · have hpos := List.length_pos_iff.mpr hdelim
    simp only [List.length_append]
    omega
  · rw [h.text_eq]
    simp only [List.append_assoc, List.drop_left]
    exact List.prefix_append delim _

theorem FirstCut.contains (h : FirstCut delim text piece rest) : delim <:+: text :=
  ⟨piece, rest, h.text_eq.symm⟩

/-- The text is longer than what is left of it. -/
theorem FirstCut.length_lt (h : FirstCut delim text piece rest) (hdelim : delim ≠ []) :
    rest.length < text.length := by
  have hpos := List.length_pos_iff.mpr hdelim
  rw [h.text_eq]
  simp only [List.length_append]
  omega

/-- One more element in front of a text without the delimiter there. -/
theorem FirstCut.cons {x : α} (hx : ¬delim <+: x :: text) (h : FirstCut delim text piece rest) :
    FirstCut delim (x :: text) (x :: piece) rest := by
  refine ⟨by rw [h.text_eq]; rfl, ?_⟩
  intro i hi
  cases i with
  | zero => exact hx
  | succ i => exact h.first i (Nat.lt_of_succ_lt_succ hi)

/-- A delimiter whose first element is not in the piece does not begin there. -/
theorem FirstCut.of_not_mem {x : α} (hx : x ∉ piece) (delim rest : List α) :
    FirstCut (x :: delim) (piece ++ x :: delim ++ rest) piece rest := by
  induction piece with
  | nil => exact ⟨rfl, fun i hi ↦ absurd hi (Nat.not_lt_zero i)⟩
  | cons y piece ih =>
    rw [List.mem_cons, not_or] at hx
    apply (ih hx.2).cons
    intro hhead
    exact hx.1 (List.cons_prefix_cons.mp hhead).1

/-- Without its first element the text has the same first occurrence. -/
theorem FirstCut.of_cons {x y : α} (h : FirstCut delim (x :: text) (y :: piece) rest) :
    ¬delim <+: x :: text ∧ FirstCut delim text piece rest := by
  refine ⟨h.first 0 (Nat.zero_lt_succ _), ?_, ?_⟩
  · exact List.tail_eq_of_cons_eq h.text_eq
  · intro i hi
    exact h.first (i + 1) (Nat.succ_lt_succ hi)

/-- What occurs has a first occurrence. -/
theorem exists_firstCut (h : delim <:+: text) : ∃ piece rest, FirstCut delim text piece rest := by
  induction text with
  | nil =>
    rw [List.infix_nil.mp h]
    exact ⟨[], [], rfl, fun i hi ↦ absurd hi (Nat.not_lt_zero i)⟩
  | cons x text ih =>
    by_cases hhead : delim <+: x :: text
    · obtain ⟨rest, hrest⟩ := hhead
      exact ⟨[], rest, hrest.symm, fun i hi ↦ absurd hi (Nat.not_lt_zero i)⟩
    · obtain ⟨piece, rest, hcut⟩ := ih ((List.infix_cons_iff.mp h).resolve_left hhead)
      exact ⟨x :: piece, rest, hcut.cons hhead⟩

/-- Every text is cut into pieces and a rest. -/
theorem exists_cut (hdelim : delim ≠ []) (text : List α) :
    ∃ pieces last, Cut delim text pieces last := by
  by_cases hin : delim <:+: text
  · obtain ⟨piece, rest, hfirst⟩ := exists_firstCut hin
    have hlength := hfirst.length_lt hdelim
    obtain ⟨pieces, last, hcut⟩ := exists_cut hdelim rest
    exact ⟨piece :: pieces, last, .next hfirst hcut⟩
  · exact ⟨[], text, .rest hin⟩
termination_by text.length

/-- No piece contains the delimiter. -/
theorem Cut.not_contains_of_mem (h : Cut delim text pieces last) (hdelim : delim ≠ []) :
    ∀ piece ∈ pieces, ¬delim <:+: piece := by
  induction h with
  | rest => exact List.forall_mem_nil _
  | next hfirst _ ih => exact List.forall_mem_cons.mpr ⟨hfirst.not_contains hdelim, ih⟩

/-- Nor does the rest. -/
theorem Cut.not_contains_last (h : Cut delim text pieces last) : ¬delim <:+: last := by
  induction h with
  | rest hnot => exact hnot
  | next _ _ ih => exact ih

/-- The pieces and the rest give the text back. -/
theorem Cut.intercalate_concat (h : Cut delim text pieces last) :
    delim.intercalate (pieces ++ [last]) = text := by
  induction h with
  | rest => exact List.intercalate_singleton
  | next hfirst _ ih =>
    rw [List.cons_append, List.intercalate_cons_of_ne_nil (by simp), ih, hfirst.text_eq,
      List.append_assoc]

/-- Without an empty rest, the delimiter in front of it is lost. -/
theorem Cut.intercalate_append (h : Cut delim text pieces []) (hpieces : pieces ≠ []) :
    delim.intercalate pieces ++ delim = text := by
  generalize hlast : ([] : List α) = last at h
  induction h with
  | rest => exact absurd rfl hpieces
  | @next text piece rest last pieces hfirst hrest ih =>
    rw [hfirst.text_eq]
    by_cases hmore : pieces = []
    · subst hmore
      cases hrest with
      | rest => rw [List.intercalate_singleton, ← hlast, List.append_nil]
    · rw [List.intercalate_cons_of_ne_nil hmore, ← ih hmore hlast]
      simp only [List.append_assoc]

/-- There are pieces if the delimiter occurs. -/
theorem Cut.ne_nil_iff (h : Cut delim text pieces last) : pieces ≠ [] ↔ delim <:+: text := by
  cases h with
  | rest hnot => exact iff_of_false (fun hne ↦ hne rfl) hnot
  | next hfirst _ => exact iff_of_true (List.cons_ne_nil _ _) hfirst.contains

/-- At one element, the pieces and the rest are those of `List.splitOn`. -/
theorem Cut.splitOn_eq [BEq α] [LawfulBEq α] {x : α} (h : Cut [x] text pieces last) :
    text.splitOn x = pieces ++ [last] := by
  induction h with
  | rest hnot =>
    exact List.splitOn_eq_singleton fun hmem ↦ hnot ((List.singleton_infix_iff x _).mpr hmem)
  | @next text piece rest last pieces hfirst _ ih =>
    have hpiece : x ∉ piece := fun hmem ↦
      hfirst.not_contains (List.cons_ne_nil x []) ((List.singleton_infix_iff x piece).mpr hmem)
    rw [hfirst.text_eq, List.append_assoc, List.singleton_append,
      List.splitOn_append_cons_self_of_not_mem hpiece, ih, List.cons_append]

end KeepMyJournal.Base
