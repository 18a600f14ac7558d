import Mathlib.Data.List.Induction
import Mathlib.Data.List.Nodup

/-!
# Containers

`common/include/container.hpp`. Every member function runs under the container's own mutex,
so each is one atomic step. `locked_map_t` iterates in key order; `unique_elements_t` is a
hash map whose iteration order is not specified, and the entries of its model may stand in
any order.
-/

namespace KeepMyJournal.Common

universe u v

/-! ### locked_map_t -/

/-- The `std::map` inside a `locked_map_t`. -/
abbrev LockedMap (κ : Type u) (ν : Type v) [Ord κ] [Std.TransOrd κ] := Std.ExtTreeMap κ ν

namespace LockedMap

variable {κ : Type u} {ν : Type v} [Ord κ] [Std.TransOrd κ]

/-- `operator[]` followed by an update through the reference it returns: a missing key is
entered with a default value first. -/
def updateAt [Inhabited ν] (m : LockedMap κ ν) (key : κ) (f : ν → ν) : LockedMap κ ν :=
  m.insert key (f (m[key]?.getD default))

/-- `find_value`. -/
def findValue (m : LockedMap κ ν) (key : κ) : Option ν := m[key]?

/-- `to_flat_list`: the images of all listed elements, key after key. -/
def toFlatList {α β : Type v} (m : LockedMap κ (List α)) (func : α → β) : List β :=
  m.toList.flatMap (fun entry ↦ entry.2.map func)

/-- The flat list of images is the image of the flat list. -/
theorem toFlatList_eq_map {α β : Type v} (m : LockedMap κ (List α)) (func : α → β) :
    m.toFlatList func = (m.toFlatList id).map func := by
  simp only [toFlatList, List.map_flatMap, List.map_id_fun, id_eq]

section Lawful

variable [Std.LawfulEqOrd κ]

/-- An update through `operator[]` changes the value at its own key only. -/
theorem findValue_updateAt [Inhabited ν] [DecidableEq κ] (m : LockedMap κ ν) (key k : κ)
    (f : ν → ν) : (m.updateAt key f).findValue k =
      if k = key then some (f ((m.findValue key).getD default)) else m.findValue k := by
  simp only [updateAt, findValue, Std.ExtTreeMap.getElem?_insert, Std.compare_eq_iff_eq]
  by_cases h : key = k
  · rw [if_pos h, if_pos h.symm]
  · rw [if_neg h, if_neg (Ne.symm h)]

omit [Ord κ] [Std.TransOrd κ] [Std.LawfulEqOrd κ] in
private theorem filter_flatMap_key {α : Type v} [DecidableEq κ] (owner : α → κ)
    (entries : List (κ × List α)) (hk : (entries.map Prod.fst).Nodup)
    (ho : ∀ e ∈ entries, ∀ a ∈ e.2, owner a = e.1) (key : κ) :
    (entries.flatMap Prod.snd).filter (fun a ↦ owner a = key) =
      ((entries.find? (fun e ↦ e.1 = key)).map Prod.snd).getD [] := by
  induction entries with
  | nil => rfl
  | cons e rest ih =>
    obtain ⟨k, l⟩ := e
    rw [List.map_cons, List.nodup_cons] at hk
    have hl : ∀ a ∈ l, owner a = k := ho (k, l) List.mem_cons_self
    have hi := ih hk.2 (fun e he ↦ ho e (List.mem_cons_of_mem _ he))
    rw [List.flatMap_cons, List.filter_append, hi, List.find?_cons]
    by_cases h : k = key
    · subst key
      have hnone : rest.find? (fun e ↦ e.1 = k) = none := by
        rw [List.find?_eq_none]
        intro e he hek
        exact hk.1 (List.mem_map.mpr ⟨e, he, of_decide_eq_true hek⟩)
      have hall : l.filter (fun a ↦ owner a = k) = l :=
        List.filter_eq_self.mpr (fun a ha ↦ decide_eq_true (hl a ha))
      simp [hnone, hall]
    · have hnone : l.filter (fun a ↦ owner a = key) = [] := by
        rw [List.filter_eq_nil_iff]
        intro a ha hak
        exact h ((hl a ha).symm.trans (of_decide_eq_true hak))
      simp [h, hnone]

private theorem find_toList (m : LockedMap κ ν) [DecidableEq κ] (key : κ) :
    (m.toList.find? (fun e ↦ e.1 = key)).map Prod.snd = m.findValue key := by
  rw [findValue]
  cases hv : m[key]? with
  | none =>
    rw [Option.map_eq_none_iff, List.find?_eq_none]
    rintro ⟨k, v⟩ he hk
    have hs := Std.ExtTreeMap.mem_toList_iff_getElem?_eq_some.mp he
    rw [show k = key from of_decide_eq_true hk, hv] at hs
    cases hs
  | some v =>
    have hm := Std.ExtTreeMap.mem_toList_iff_getElem?_eq_some.mpr hv
    cases hf : m.toList.find? (fun e ↦ e.1 = key) with
    | none =>
      rw [List.find?_eq_none] at hf
      exact absurd (decide_eq_true rfl) (hf (key, v) hm)
    | some e =>
      have hk : e.1 = key := of_decide_eq_true (List.find?_some hf :)
      have he := Std.ExtTreeMap.mem_toList_iff_getElem?_eq_some.mp (List.mem_of_find?_eq_some hf)
      rw [hk, hv] at he
      rw [Option.map_some, Option.some.inj he]

/-- Where every listed element is stored under its owner, the flat list holds for each key
exactly the elements stored there, in their order. -/
theorem filter_toFlatList {α : Type v} [DecidableEq κ] (m : LockedMap κ (List α)) (owner : α → κ)
    (ho : ∀ k l, m.findValue k = some l → ∀ a ∈ l, owner a = k) (key : κ) :
    (m.toFlatList id).filter (fun a ↦ owner a = key) = (m.findValue key).getD [] := by
  have hk : (m.toList.map Prod.fst).Nodup := by
    rw [List.Nodup, List.pairwise_map]
    exact m.distinct_keys_toList.imp (fun {a b} hab he ↦ hab (Std.compare_eq_iff_eq.mpr he))
  have hf := filter_flatMap_key owner m.toList hk
    (fun e he ↦ ho e.1 e.2 (Std.ExtTreeMap.mem_toList_iff_getElem?_eq_some.mp he)) key
  rw [find_toList] at hf
  simpa only [toFlatList, List.map_id_fun, id_eq] using hf

end Lawful

end LockedMap

/-! ### unique_elements_t -/

/-- `unique_elements_t<T, Hash, EqualTo>`, where `EqualTo` compares the `key` of the elements.
Each entry is a map node: the element first inserted under its key, and the latest one. -/
structure UniqueElements {α : Type u} {κ : Type v} (key : α → κ) where
  entries : List (α × α)
  keyed : ∀ e ∈ entries, key e.1 = key e.2
  distinct : (entries.map (fun e ↦ key e.1)).Nodup

namespace UniqueElements

variable {α : Type u} {κ : Type v} [DecidableEq κ] {key : α → κ}

/-- `m_set[item] = item`: the node of an equal element keeps its key and takes the new value. -/
def insertImpl (key : α → κ) (item : α) : List (α × α) → List (α × α)
  | [] => [(item, item)]
  | e :: rest =>
    if key e.1 = key item then (e.1, item) :: rest else e :: insertImpl key item rest

omit [DecidableEq κ] in
private theorem keys_eq (entries : List (α × α)) (h : ∀ e ∈ entries, key e.1 = key e.2) :
    entries.map (fun e ↦ key e.1) = entries.map (fun e ↦ key e.2) :=
  List.map_congr_left h

private theorem mem_insertImpl {item : α} {entries : List (α × α)} {e : α × α}
    (h : e ∈ insertImpl key item entries) :
    e ∈ entries ∨ (e.2 = item ∧ key e.1 = key item) := by
  induction entries with
  | nil =>
    rw [insertImpl, List.mem_singleton] at h
    exact .inr (h ▸ ⟨rfl, rfl⟩)
  | cons d rest ih =>
    rw [insertImpl] at h
    split at h
    · next hd =>
      rcases List.mem_cons.mp h with rfl | h
      · exact .inr ⟨rfl, hd⟩
      · exact .inl (List.mem_cons_of_mem _ h)
    · rcases List.mem_cons.mp h with rfl | h
      · exact .inl List.mem_cons_self
      · exact (ih h).imp_left (List.mem_cons_of_mem _)

private theorem keys_insertImpl (item : α) (entries : List (α × α)) :
    (insertImpl key item entries).map (fun e ↦ key e.1) =
      if key item ∈ entries.map (fun e ↦ key e.1) then entries.map (fun e ↦ key e.1)
      else entries.map (fun e ↦ key e.1) ++ [key item] := by
  induction entries with
  | nil => simp [insertImpl]
  | cons d rest ih =>
    rw [insertImpl]
    by_cases hd : key d.1 = key item
    · simp [hd]
    · rw [if_neg hd, List.map_cons, List.map_cons, ih]
      by_cases hm : key item ∈ rest.map (fun e ↦ key e.1)
      · rw [if_pos hm, if_pos (List.mem_cons_of_mem _ hm)]
      · have hn : key item ∉ key d.1 :: rest.map (fun e ↦ key e.1) := by
          rw [List.mem_cons, not_or]
          exact ⟨Ne.symm hd, hm⟩
        rw [if_neg hm, if_neg hn, List.cons_append]

/-- `insert`: replace the element with the same key if there is one, add it otherwise. -/
def insert (s : UniqueElements key) (item : α) : UniqueElements key where
  entries := insertImpl key item s.entries
  keyed := by
    intro e he
    rcases mem_insertImpl he with h | ⟨h2, h1⟩
    · exact s.keyed e h
    · rw [h1, h2]
  distinct := by
    rw [keys_insertImpl]
    split
    · exact s.distinct
    · next hn =>
      rw [List.nodup_append]
      refine ⟨s.distinct, List.pairwise_singleton _ _, ?_⟩
      intro a ha b hb hab
      rw [List.mem_singleton] at hb
      exact hn (hb ▸ hab ▸ ha)

/-- A freshly constructed container. -/
def empty : UniqueElements key := ⟨[], by simp, by simp⟩

instance : Inhabited (UniqueElements key) := ⟨empty⟩

/-- `to_list`: the latest element of every node. -/
def toList (s : UniqueElements key) : List α := s.entries.map Prod.snd

/-- `find_item`: the latest element with the key of the given one. -/
def findItem (s : UniqueElements key) (item : α) : Option α :=
  (s.entries.find? (fun e ↦ key e.1 = key item)).map Prod.snd

/-- A look-up depends on the key only. -/
theorem findItem_congr {s : UniqueElements key} {a b : α} (h : key a = key b) :
    s.findItem a = s.findItem b := by
  rw [findItem, findItem, h]

omit [DecidableEq κ] in
/-- No two listed elements have the same key. -/
theorem nodup_keys (s : UniqueElements key) : (s.toList.map key).Nodup := by
  rw [toList, List.map_map]
  have h := s.distinct
  rw [keys_eq s.entries s.keyed] at h
  exact h

/-- A look-up finds exactly the listed element with its key, whatever else the look-up key
carries. -/
theorem findItem_eq_some_iff (s : UniqueElements key) (item found : α) :
    s.findItem item = some found ↔ found ∈ s.toList ∧ key found = key item := by
  constructor
  · intro h
    rw [findItem, Option.map_eq_some_iff] at h
    obtain ⟨e, he, rfl⟩ := h
    have hm := List.mem_of_find?_eq_some he
    have hk : key e.1 = key item := of_decide_eq_true (List.find?_some he :)
    exact ⟨List.mem_map.mpr ⟨e, hm, rfl⟩, (s.keyed e hm).symm.trans hk⟩
  · rintro ⟨hm, hk⟩
    obtain ⟨e, he, rfl⟩ := List.mem_map.mp hm
    rw [findItem]
    have hek : key e.1 = key item := (s.keyed e he).trans hk
    cases hf : s.entries.find? (fun d ↦ key d.1 = key item) with
    | none =>
      rw [List.find?_eq_none] at hf
      exact absurd (decide_eq_true hek) (hf e he)
    | some d =>
      have hd : key d.1 = key item := of_decide_eq_true (List.find?_some hf :)
      have hde : d = e :=
        List.inj_on_of_nodup_map s.distinct (List.mem_of_find?_eq_some hf) he (hd.trans hek.symm)
      rw [Option.map_some, hde]

private theorem mem_map_snd_insertImpl {item a : α} {entries : List (α × α)}
    (hkeyed : ∀ e ∈ entries, key e.1 = key e.2)
    (hdistinct : (entries.map (fun e ↦ key e.1)).Nodup) :
    a ∈ (insertImpl key item entries).map Prod.snd ↔
      a = item ∨ a ∈ entries.map Prod.snd ∧ key a ≠ key item := by
  induction entries with
  | nil => simp [insertImpl]
  | cons e rest ih =>
    rw [List.map_cons, List.nodup_cons] at hdistinct
    have hrest := List.forall_mem_cons.mp hkeyed
    rw [insertImpl]
    by_cases he : key e.1 = key item
    · -- no element behind the node has its key
      have hother : a ∈ rest.map Prod.snd → key a ≠ key item := by
        intro ha heq
        obtain ⟨d, hd, rfl⟩ := List.mem_map.mp ha
        apply hdistinct.1
        rw [he, ← heq, ← hrest.2 d hd]
        exact List.mem_map_of_mem hd
      rw [if_pos he, List.map_cons, List.map_cons, List.mem_cons, List.mem_cons]
      constructor
      · rintro (rfl | ha)
        · exact .inl rfl
        · exact .inr ⟨.inr ha, hother ha⟩
      · rintro (rfl | ⟨rfl | ha, hne⟩)
        · exact .inl rfl
        · exact absurd (hrest.1.symm.trans he) hne
        · exact .inr ha
    · rw [if_neg he, List.map_cons, List.map_cons, List.mem_cons, List.mem_cons,
        ih hrest.2 hdistinct.2]
      have hne : key e.2 ≠ key item := fun heq ↦ he (hrest.1.trans heq)
      constructor
      · rintro (rfl | rfl | ⟨ha, hkey⟩)
        · exact .inr ⟨.inl rfl, hne⟩
        · exact .inl rfl
        · exact .inr ⟨.inr ha, hkey⟩
      · rintro (rfl | ⟨rfl | ha, hkey⟩)
        · exact .inr (.inl rfl)
        · exact .inl rfl
        · exact .inr (.inr ⟨ha, hkey⟩)

/-- An insertion lists the item, and of the others those with another key. -/
theorem mem_toList_insert (s : UniqueElements key) (item a : α) :
    a ∈ (s.insert item).toList ↔ a = item ∨ a ∈ s.toList ∧ key a ≠ key item :=
  mem_map_snd_insertImpl s.keyed s.distinct

/-! ### Runs of unique_elements_t -/

/-- The calls that change a `unique_elements_t`. -/
inductive Call (α : Type u) where
  | insert (item : α)
  | clear
  deriving DecidableEq, Repr

/-- `insert` and `clear`. -/
def call (s : UniqueElements key) : Call α → UniqueElements key
  | .insert item => s.insert item
  | .clear => empty

/-- A sequence of calls. -/
def run (s : UniqueElements key) (calls : List (Call α)) : UniqueElements key :=
  calls.foldl call s

/-- The items inserted since the last `clear`, in order. -/
def sinceClear : List (Call α) → List α :=
  List.foldl (fun items c ↦ match c with | .insert item => items ++ [item] | .clear => []) []

/-- The item is the last of the list with its key. -/
def IsLast (key : α → κ) (items : List α) (a : α) : Prop :=
  ∃ before after, items = before ++ a :: after ∧ ∀ b ∈ after, key b ≠ key a

omit [DecidableEq κ] in
/-- Of a list with one more item, the last with their keys are that item, and of the others
those with another key. -/
theorem isLast_concat_iff {items : List α} {item a : α} :
    IsLast key (items ++ [item]) a ↔ a = item ∨ IsLast key items a ∧ key a ≠ key item := by
  constructor
  · rintro ⟨before, after, heq, hafter⟩
    rcases List.eq_nil_or_concat' after with rfl | ⟨after, b, rfl⟩
    · exact .inl (List.singleton_inj.mp (List.append_inj' heq rfl).2).symm
    · rw [← List.cons_append, ← List.append_assoc] at heq
      obtain ⟨hitems, hb⟩ := List.append_inj' heq rfl
      obtain rfl := List.singleton_inj.mp hb
      refine .inr ⟨⟨before, after, hitems, ?_⟩, ?_⟩
      · intro c hc
        exact hafter c (List.mem_append_left _ hc)
      · exact (hafter item (List.mem_append_right _ List.mem_cons_self)).symm
  · rintro (rfl | ⟨⟨before, after, rfl, hafter⟩, hne⟩)
    · exact ⟨items, [], rfl, List.forall_mem_nil _⟩
    · refine ⟨before, after ++ [item], by simp, ?_⟩
      intro b hb
      rcases List.mem_append.mp hb with hb | hb
      · exact hafter b hb
      · rw [List.mem_singleton.mp hb]
        exact hne.symm

omit [DecidableEq κ] in
/-- Every key of a list has a last item. -/
theorem exists_isLast {items : List α} {a : α} (h : a ∈ items) :
    ∃ b, IsLast key items b ∧ key b = key a := by
  classical
  induction items using List.reverseRecOn with
  | nil => cases h
  | append_singleton items item ih =>
    by_cases hkey : key a = key item
    · exact ⟨item, isLast_concat_iff.mpr (.inl rfl), hkey.symm⟩
    · have ha : a ∈ items := by
        rcases List.mem_append.mp h with ha | ha
        · exact ha
        · exact absurd (congrArg key (List.mem_singleton.mp ha)) hkey
      obtain ⟨b, hb, hba⟩ := ih ha
      exact ⟨b, isLast_concat_iff.mpr (.inr ⟨hb, hba ▸ hkey⟩), hba⟩

omit [DecidableEq κ] in
/-- The last with its key has a place behind which there is none with its key. -/
theorem IsLast.exists_place {items : List α} {a : α} (h : IsLast key items a) :
    ∃ last : Nat, items[last]? = some a ∧
      ∀ (place : Nat) b, items[place]? = some b → key b = key a → place ≤ last := by
  obtain ⟨before, after, rfl, hafter⟩ := h
  refine ⟨before.length, by simp, ?_⟩
  intro place b hb hkey
  by_contra hlt
  obtain ⟨i, rfl⟩ := Nat.exists_eq_add_of_lt (Nat.not_le.mp hlt)
  rw [List.getElem?_append_right (by omega), Nat.add_assoc, Nat.add_sub_cancel_left,
    List.getElem?_cons_succ] at hb
  exact hafter b (List.mem_of_getElem? hb) hkey

/-- After any calls exactly the items are listed that are the last with their key since the last
`clear`. -/
theorem mem_toList_run_iff (calls : List (Call α)) (a : α) :
    a ∈ ((empty : UniqueElements key).run calls).toList ↔ IsLast key (sinceClear calls) a := by
  induction calls using List.reverseRecOn generalizing a with
  | nil =>
    refine iff_of_false List.not_mem_nil ?_
    rintro ⟨before, after, heq, -⟩
    exact absurd heq (by simp [sinceClear])
  | append_singleton calls c ih =>
    unfold run sinceClear at ih ⊢
    rw [List.foldl_append, List.foldl_append, List.foldl_cons, List.foldl_nil, List.foldl_cons,
      List.foldl_nil]
    cases c with
    | insert item =>
      dsimp only [call]
      rw [mem_toList_insert, ih, isLast_concat_iff]
    | clear =>
      refine iff_of_false List.not_mem_nil ?_
      rintro ⟨before, after, heq, -⟩
      exact absurd heq (by simp)

omit [DecidableEq κ] in
/-- Without a `clear` all inserted items count. -/
theorem sinceClear_map_insert (items : List α) : sinceClear (items.map .insert) = items := by
  unfold sinceClear
  induction items using List.reverseRecOn with
  | nil => rfl
  | append_singleton items item ih =>
    rw [List.map_append, List.foldl_append, ih]
    rfl

/-- A look-up after any calls finds the last item since the last `clear` with its key. -/
theorem findItem_run_eq_some_iff (calls : List (Call α)) (item found : α) :
    ((empty : UniqueElements key).run calls).findItem item = some found ↔
      IsLast key (sinceClear calls) found ∧ key found = key item := by
  rw [findItem_eq_some_iff, mem_toList_run_iff]

/-- A look-up finds nothing if nothing with its key has been inserted since the last `clear`. -/
theorem findItem_run_eq_none_iff (calls : List (Call α)) (item : α) :
    ((empty : UniqueElements key).run calls).findItem item = none ↔
      ∀ a ∈ sinceClear calls, key a ≠ key item := by
  rw [Option.eq_none_iff_forall_ne_some]
  simp only [ne_eq, findItem_run_eq_some_iff, not_and]
  constructor
  · intro h a ha heq
    obtain ⟨b, hb, hba⟩ : ∃ b, IsLast key (sinceClear calls) b ∧ key b = key a := exists_isLast ha
    exact h b hb (hba.trans heq)
  · rintro h found ⟨before, after, heq, -⟩
    exact h found (by rw [heq]; simp)

end UniqueElements

end KeepMyJournal.Common
