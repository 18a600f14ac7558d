import Mathlib.Data.List.Forall2
import Mathlib.Data.List.NodupEquivFin

/-!
# Values read from a growing record

A record to which entries are only ever added, at its end, and values that are read from it one
after the other. They are read forward if none comes from before the place of the last.
-/

namespace KeepMyJournal.Base

universe u v

variable {α : Type u} {β : Type v} {R : α → β → Prop} {record record' : List α} {values : List β}

/-- Each value has been read from an entry that it is related to, and none from before the place
of the one before it. -/
def Forward (R : α → β → Prop) (record : List α) (values : List β) : Prop :=
  ∃ places : List Nat, places.Pairwise (· ≤ ·) ∧
    List.Forall₂ (fun place value ↦ ∃ a, record[place]? = some a ∧ R a value) places values

theorem forward_nil (R : α → β → Prop) (record : List α) : Forward R record [] :=
  ⟨[], List.Pairwise.nil, .nil⟩

/-- Every value has been read from some entry. -/
theorem Forward.exists_of_mem (h : Forward R record values) {value : β} (hvalue : value ∈ values) :
    ∃ a ∈ record, R a value := by
  obtain ⟨places, -, hvalues⟩ := h
  obtain ⟨i, hi, rfl⟩ := List.getElem_of_mem hvalue
  obtain ⟨a, ha, hread⟩ := hvalues.get (hvalues.length_eq ▸ hi) hi
  exact ⟨a, List.mem_of_getElem? ha, hread⟩

/-- Two values are read forward from two entries, the second not before the first. -/
theorem forward_pair {i j : Nat} {a b : α} (hij : i ≤ j) (ha : record[i]? = some a)
    (hb : record[j]? = some b) : Forward Eq record [a, b] := by
  refine ⟨[i, j], ?_, .cons ⟨a, ha, rfl⟩ (.cons ⟨b, hb, rfl⟩ .nil)⟩
  rw [List.pairwise_pair]
  exact hij

/-- Values read from a record can be read from any record that has its entries in their order. -/
theorem Forward.of_sublist (h : Forward R record values) (hsub : record.Sublist record') :
    Forward R record' values := by
  obtain ⟨places, hplaces, hvalues⟩ := h
  obtain ⟨f, hf⟩ := List.sublist_iff_exists_orderEmbedding_getElem?_eq.mp hsub
  refine ⟨places.map f, ?_, ?_⟩
  · rw [List.pairwise_map]
    exact hplaces.imp fun hij ↦ f.monotone hij
  · rw [List.forall₂_map_left_iff]
    refine hvalues.imp fun place value hread ↦ ?_
    obtain ⟨a, ha, hvalue⟩ := hread
    exact ⟨a, (hf place).symm.trans ha, hvalue⟩

/-- One more value may be read from an entry behind which there is none that any value could be
read from. -/
theorem Forward.concat (h : Forward R record values) {last : Nat} {a : α} {value : β}
    (ha : record[last]? = some a) (hvalue : R a value)
    (hlast : ∀ (place : Nat) c v, record[place]? = some c → R c v → place ≤ last) :
    Forward R record (values ++ [value]) := by
  obtain ⟨places, hplaces, hvalues⟩ := h
  refine ⟨places ++ [last], ?_, List.rel_append hvalues (.cons ⟨a, ha, hvalue⟩ .nil)⟩
  rw [List.pairwise_append]
  refine ⟨hplaces, List.pairwise_singleton _ _, ?_⟩
  intro place hplace l hl
  obtain rfl := List.mem_singleton.mp hl
  obtain ⟨i, hi, hget⟩ := List.mem_iff_getElem.mp hplace
  have hlength := hvalues.length_eq
  obtain ⟨c, hc, hv⟩ := List.Forall₂.get hvalues hi (hlength ▸ hi)
  rw [List.get_eq_getElem, hget] at hc
  exact hlast place c _ hc hv

/-- The same for several values at once. -/
theorem Forward.append (h : Forward R record values) {more : List β}
    (hmore : ∀ value ∈ more, ∃ (last : Nat) (a : α), record[last]? = some a ∧ R a value ∧
      ∀ (place : Nat) c v, record[place]? = some c → R c v → place ≤ last) :
    Forward R record (values ++ more) := by
  induction more generalizing values with
  | nil =>
    rw [List.append_nil]
    exact h
  | cons value more ih =>
    obtain ⟨last, a, ha, hvalue, hlast⟩ := hmore value List.mem_cons_self
    rw [List.append_cons]
    exact ih (h.concat ha hvalue hlast) fun v hv ↦ hmore v (List.mem_cons_of_mem _ hv)

end KeepMyJournal.Base
