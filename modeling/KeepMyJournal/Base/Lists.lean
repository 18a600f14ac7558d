import Std.Data.ExtTreeMap

/-!
# Splitting and reading lists, and searching an ordered map

A list is split at an element exactly into the pieces that, joined by it, give the list back.
A part of a list can be read index by index. A search through the entries of an ordered map
ends at the first key whose entry succeeds.
-/

namespace KeepMyJournal.Base

universe u v w

/-- What stands in a part stands in the whole. -/
theorem mem_intercalate {α : Type u} {sep l : List α} {ls : List (List α)} {x : α} (hx : x ∈ l)
    (hl : l ∈ ls) : x ∈ sep.intercalate ls := by
  induction ls with
  | nil => cases hl
  | cons first rest ih =>
    cases rest with
    | nil =>
      rw [List.intercalate_singleton, ← List.mem_singleton.mp hl]
      exact hx
    | cons second rest =>
      rw [List.intercalate_cons_cons, List.mem_append, List.mem_append]
      rcases List.mem_cons.mp hl with rfl | hl
      · exact .inl (.inl hx)
      · exact .inr (ih hl)

section Split

variable {α : Type u} [DecidableEq α] {a : α}

/-- No piece contains the element the list was split at. -/
theorem not_mem_of_mem_splitOn {xs l : List α} (h : l ∈ xs.splitOn a) : a ∉ l := by
  induction xs generalizing l with
  | nil =>
    rw [List.splitOn_nil, List.mem_singleton] at h
    rw [h]
    exact List.not_mem_nil
  | cons x xs ih =>
    rw [List.splitOn_cons_eq_if_modifyHead] at h
    by_cases hx : x = a
    · rw [if_pos (beq_iff_eq.mpr hx)] at h
      rcases List.mem_cons.mp h with rfl | h
      · exact List.not_mem_nil
      · exact ih h
    · rw [if_neg (fun he ↦ hx (beq_iff_eq.mp he))] at h
      obtain ⟨p, ps, hp⟩ := List.exists_cons_of_ne_nil (List.splitOn_ne_nil a xs)
      rw [hp, List.modifyHead_cons] at h
      rcases List.mem_cons.mp h with rfl | h
      · have htail : a ∉ p := ih (by rw [hp]; exact List.mem_cons_self)
        rw [List.mem_cons, not_or]
        exact ⟨Ne.symm hx, htail⟩
      · exact ih (by rw [hp]; exact List.mem_cons_of_mem p h)

/-- The pieces are determined by what they join to and by not containing the element. -/
theorem splitOn_eq_iff {xs : List α} {ls : List (List α)} :
    xs.splitOn a = ls ↔ ls ≠ [] ∧ (∀ l ∈ ls, a ∉ l) ∧ [a].intercalate ls = xs := by
  constructor
  · rintro rfl
    refine ⟨List.splitOn_ne_nil a xs, ?_, List.intercalate_splitOn a⟩
    intro l hl
    exact not_mem_of_mem_splitOn hl
  · rintro ⟨hne, hnot, rfl⟩
    exact List.splitOn_intercalate a hnot hne

omit [DecidableEq α] in
/-- Joined pieces end in the last of them. -/
theorem suffix_intercalate (sep : List α) (front : List (List α)) (last : List α) :
    last <:+ sep.intercalate (front ++ [last]) := by
  induction front with
  | nil => exact ⟨[], List.intercalate_singleton.symm⟩
  | cons first front ih =>
    rw [List.cons_append, List.intercalate_cons_of_ne_nil (by simp)]
    exact ih.trans (List.suffix_append _ _)

end Split

/-- Two functions that agree on a list succeed on it alike. -/
theorem mapM_congr {α : Type u} {β : Type v} {l : List α} {f g : α → Option β}
    (h : ∀ a ∈ l, f a = g a) : l.mapM f = l.mapM g := by
  induction l with
  | nil => rfl
  | cons a l ih =>
    rw [List.forall_mem_cons] at h
    rw [List.mapM_cons, List.mapM_cons, h.1, ih h.2]

/-- Reading `n` elements from index `k` on, one by one, is reading that part of the list. -/
theorem mapM_getElem?_range {α : Type u} {l : List α} {k n : Nat} (h : k + n ≤ l.length) :
    (List.range n).mapM (fun i ↦ l[i + k]?) = some ((l.drop k).take n) := by
  induction n with
  | zero => rfl
  | succ n ih =>
    have hget : l[n + k]? = some l[k + n] := by
      rw [Nat.add_comm n k, List.getElem?_eq_getElem]
    have hdrop : n < (l.drop k).length := by
      rw [List.length_drop]
      omega
    rw [List.range_succ, List.mapM_append, ih (by omega), List.take_add_one,
      List.getElem?_eq_getElem hdrop, List.getElem_drop]
    simp [hget]

section OrderedMap

variable {κ : Type u} {ν : Type v} {β : Type w} [Ord κ] [Std.TransOrd κ] [Std.LawfulEqOrd κ]

/-- The search fails exactly when it fails at every entry. -/
theorem findSome?_toList_eq_none_iff (m : Std.ExtTreeMap κ ν) (f : κ → ν → Option β) :
    m.toList.findSome? (fun entry ↦ f entry.1 entry.2) = none ↔
      ∀ k v, m[k]? = some v → f k v = none := by
  rw [List.findSome?_eq_none_iff]
  constructor
  · intro h k v hv
    exact h (k, v) (Std.ExtTreeMap.mem_toList_iff_getElem?_eq_some.mpr hv)
  · intro h entry hentry
    exact h entry.1 entry.2 (Std.ExtTreeMap.mem_toList_iff_getElem?_eq_some.mp hentry)

/-- The search returns what it finds at the least key at which it succeeds. -/
theorem findSome?_toList_eq_some_iff (m : Std.ExtTreeMap κ ν) (f : κ → ν → Option β) (b : β) :
    m.toList.findSome? (fun entry ↦ f entry.1 entry.2) = some b ↔
      ∃ k v, m[k]? = some v ∧ f k v = some b ∧
        ∀ k' v', m[k']? = some v' → compare k' k = .lt → f k' v' = none := by
  have hordered := m.ordered_keys_toList
  rw [List.findSome?_eq_some_iff]
  constructor
  · rintro ⟨before, ⟨k, v⟩, after, hsplit, hf, hnone⟩
    refine ⟨k, v, ?_, hf, ?_⟩
    · apply Std.ExtTreeMap.mem_toList_iff_getElem?_eq_some.mp
      rw [hsplit]
      exact List.mem_append_right _ List.mem_cons_self
    · intro k' v' hv' hlt
      have hmem := Std.ExtTreeMap.mem_toList_iff_getElem?_eq_some.mpr hv'
      rw [hsplit] at hmem hordered
      rcases List.mem_append.mp hmem with hbefore | hmem
      · exact hnone (k', v') hbefore
      · exfalso
        rcases List.mem_cons.mp hmem with heq | hafter
        · obtain rfl := (Prod.mk.inj heq).1
          rw [Std.compare_self] at hlt
          cases hlt
        · have hgt := (List.pairwise_cons.mp (List.pairwise_append.mp hordered).2.1).1 _ hafter
          exact Std.OrientedCmp.not_lt_of_lt hlt hgt
  · rintro ⟨k, v, hv, hf, hleast⟩
    have hmem := Std.ExtTreeMap.mem_toList_iff_getElem?_eq_some.mpr hv
    obtain ⟨before, after, hsplit⟩ := List.append_of_mem hmem
    refine ⟨before, (k, v), after, hsplit, hf, ?_⟩
    intro entry hentry
    apply hleast entry.1 entry.2
    · apply Std.ExtTreeMap.mem_toList_iff_getElem?_eq_some.mp
      rw [hsplit]
      exact List.mem_append_left _ hentry
    · rw [hsplit] at hordered
      exact (List.pairwise_append.mp hordered).2.2 entry hentry (k, v) List.mem_cons_self

end OrderedMap

end KeepMyJournal.Base
