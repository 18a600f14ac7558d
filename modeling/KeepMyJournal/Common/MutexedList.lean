import KeepMyJournal.Base.Linearizability
import KeepMyJournal.Base.Transition

/-!
# The mutexed list

`mutexed_list_t`, `common/include/container.hpp:205–243`, called by any number of threads. Every
locked section is one atomic step, and `get` has two of them. What the rules of `std::vector` leave
undefined has no result.
-/

namespace KeepMyJournal.Common

open KeepMyJournal.Base KeepMyJournal.Base.Transition

universe u v

/-- A call of a member function. -/
inductive ListCall (τ : Type v) where
  | append (data : τ)
  | get
  | removeIfExists (comp : τ → Bool)

/-- What a call returns; `thrown` is the exception of `get`. -/
inductive ListResult (τ : Type v) where
  | done
  | value (value : τ)
  | thrown
  | found (found : Bool)

/-- A list that is called by one thread at a time: `get` takes the first element or throws, and
`remove_if_exists` removes the first element that matches and returns whether there is one. -/
def abstractList {τ : Type v} : List τ → ListCall τ → ListResult τ × List τ
  | list, .append data => (.done, list ++ [data])
  | [], .get => (.thrown, [])
  | value :: list, .get => (.value value, list)
  | list, .removeIfExists comp => (.found (list.any comp), list.eraseP comp)

/-- `mutexed_list_t`. With it stand the threads that are between the two sections of `get`, with
the time at which they called it, and the calls that have returned, in the order of their ends. -/
structure MutexedList (θ : Type u) (τ : Type v) where
  mList : List τ := []
  getting : θ → Option Nat := fun _ ↦ none
  time : Nat := 0
  undefined : Bool := false
  completed : List (Completed (ListCall τ) (ListResult τ)) := []

namespace MutexedList

variable {θ : Type u} {τ : Type v}

/-! ### Locked sections -/

/-- `m_list.erase(position)`; the end cannot be erased. -/
def erase (mList : List τ) (position : Nat) : Option (List τ) :=
  if position < mList.length then some (mList.eraseIdx position) else none

/-- `append`. -/
def append (data : τ) (mList : List τ) : List τ := mList ++ [data]

/-- `empty`, the first section of `get`. -/
def empty (mList : List τ) : Bool := mList.isEmpty

/-- The second section of `get`; an empty vector has no front. -/
def front (mList : List τ) : Option (τ × List τ) := do
  let value ← mList.head?
  let rest ← erase mList 0
  return (value, rest)

/-- `remove_if_exists`. -/
def removeIfExists (comp : τ → Bool) (mList : List τ) : Option (Bool × List τ) :=
  let iter := mList.findIdx comp
  let found := mList.length == iter
  if found then (erase mList iter).map fun rest ↦ (found, rest) else some (found, mList)

/-! ### Steps -/

/-- A locked section of a thread. -/
inductive Event (θ : Type u) (τ : Type v) where
  | append (thread : θ) (data : τ)
  | getEmpty (thread : θ)
  | getFront (thread : θ)
  | removeIfExists (thread : θ) (comp : τ → Bool)

/-- A call returns, with the vector that it leaves. -/
def finish (s : MutexedList θ τ) (call : ListCall τ) (result : ListResult τ) (began : Nat)
    (mList : List τ) : MutexedList θ τ :=
  { s with
    mList := mList
    time := s.time + 1
    completed :=
      s.completed ++ [{ call := call, result := result, began := began, ended := s.time }] }

variable [DecidableEq θ]

/-- What the threads that are between the sections of `get` are after a step of one of them. -/
def setGetting (s : MutexedList θ τ) (thread : θ) (began : Option Nat) : MutexedList θ τ :=
  { s with getting := fun other ↦ if other = thread then began else s.getting other }

/-- One step; a thread that is in a call takes no other, and nothing follows undefined
behaviour. -/
def step (s : MutexedList θ τ) : Event θ τ → Option (MutexedList θ τ)
  | .append thread data =>
    if s.undefined ∨ (s.getting thread).isSome then none
    else some (s.finish (.append data) .done s.time (append data s.mList))
  | .getEmpty thread =>
    if s.undefined ∨ (s.getting thread).isSome then none
    else if empty s.mList then some (s.finish .get .thrown s.time s.mList)
    else some { s.setGetting thread (some s.time) with time := s.time + 1 }
  | .getFront thread =>
    match s.undefined, s.getting thread with
    | false, some began =>
      match front s.mList with
      | some (value, rest) =>
        some ((s.setGetting thread none).finish .get (.value value) began rest)
      | none => some { s with undefined := true }
    | _, _ => none
  | .removeIfExists thread comp =>
    if s.undefined ∨ (s.getting thread).isSome then none
    else
      match removeIfExists comp s.mList with
      | some (found, rest) => some (s.finish (.removeIfExists comp) (.found found) s.time rest)
      | none => some { s with undefined := true }

/-- Nothing undefined has happened, and the calls that have returned have the results of some
order of the same calls on an abstract list. -/
def ActsAsList (s : MutexedList θ τ) : Prop :=
  s.undefined = false ∧ Linearizable abstractList [] s.completed

/-- The step calls no `remove_if_exists`, and reads the front of a list that is not empty. -/
def Meets (s : MutexedList θ τ) : Event θ τ → Prop
  | .append _ _ | .getEmpty _ => True
  | .getFront _ => s.mList ≠ []
  | .removeIfExists _ _ => False

/-! ### What a sequence of calls leaves -/

/-- What the call puts into the list. -/
def added (op : Completed (ListCall τ) (ListResult τ)) : Option τ :=
  match op.call with
  | .append data => some data
  | .get | .removeIfExists _ => none

/-- What the call takes out of the list. -/
def taken (op : Completed (ListCall τ) (ListResult τ)) : Option τ :=
  match op.result with
  | .value value => some value
  | .done | .thrown | .found _ => none

/-- The call removes nothing by a comparison. -/
def Plain (op : Completed (ListCall τ) (ListResult τ)) : Prop :=
  match op.call with
  | .append _ | .get => True
  | .removeIfExists _ => False

/-- What was there and what was added is what was taken and what is left. -/
theorem perm_of_sequential {list left : List τ} {ops : List (Completed (ListCall τ) (ListResult τ))}
    (h : Sequential abstractList list ops left) (hplain : ∀ op ∈ ops, Plain op) :
    (list ++ ops.filterMap added).Perm (ops.filterMap taken ++ left) := by
  induction h with
  | nil list => simp
  | @cons list after left op ops happly _ ih =>
    obtain ⟨hop, hops⟩ := List.forall_mem_cons.mp hplain
    have hrest := ih hops
    obtain ⟨call, result, began, ended⟩ := op
    cases call with
    | append data =>
      obtain ⟨rfl, rfl⟩ := Prod.mk.inj happly
      rw [List.append_assoc] at hrest
      exact hrest
    | get =>
      cases list with
      | nil =>
        obtain ⟨rfl, rfl⟩ := Prod.mk.inj happly
        exact hrest
      | cons value list =>
        obtain ⟨rfl, rfl⟩ := Prod.mk.inj happly
        exact hrest.cons value
    | removeIfExists comp => exact absurd hop id

/-- Every order of the same calls leaves the same elements. -/
theorem perm_of_perm {left left' : List τ}
    {ops order : List (Completed (ListCall τ) (ListResult τ))}
    (h : Sequential abstractList [] ops left) (h' : Sequential abstractList [] order left')
    (hplain : ∀ op ∈ ops, Plain op) (hperm : order.Perm ops) : left'.Perm left := by
  have hleft := perm_of_sequential h hplain
  have hleft' := perm_of_sequential h' fun op hop ↦ hplain op (hperm.mem_iff.mp hop)
  have hadded := hperm.filterMap added
  have htaken := hperm.filterMap taken
  rw [List.nil_append] at hleft hleft'
  have hall : (ops.filterMap taken ++ left').Perm (ops.filterMap taken ++ left) :=
    (htaken.symm.append_right left').trans (hleft'.symm.trans (hadded.trans hleft))
  exact (List.perm_append_left_iff _).mp hall

/-! ### The sections -/

theorem front_eq (mList : List τ) :
    front mList =
      match mList with
      | [] => none
      | value :: rest => some (value, rest) := by
  cases mList with
  | nil => rfl
  | cons value rest => rfl

/-- The test is inverted: with a match it returns false and removes nothing, and without one it
erases the end. -/
theorem removeIfExists_eq (comp : τ → Bool) (mList : List τ) :
    removeIfExists comp mList = if mList.any comp then some (false, mList) else none := by
  unfold removeIfExists erase
  dsimp only
  by_cases hany : mList.any comp
  · have hlt : mList.findIdx comp < mList.length :=
      List.findIdx_lt_length.mpr (List.any_eq_true.mp hany)
    have hfound : (mList.length == mList.findIdx comp) = false := by
      rw [beq_eq_false_iff_ne]
      omega
    rw [hfound, if_pos hany]
    rfl
  · have hend : mList.findIdx comp = mList.length := by
      rw [List.findIdx_eq_length]
      simpa using hany
    rw [hend, if_neg hany]
    simp

/-! ### Runs -/

/-- The calls that have returned have, in the order of their ends, the results of calls on an
abstract list, which the vector is. -/
structure Consistent (s : MutexedList θ τ) : Prop where
  defined : s.undefined = false
  sequential : Sequential abstractList [] s.completed s.mList
  plain : ∀ op ∈ s.completed, Plain op
  span : ∀ op ∈ s.completed, op.began ≤ op.ended
  past : ∀ op ∈ s.completed, op.ended < s.time
  ends : s.completed.Pairwise (fun op later ↦ op.ended ≤ later.ended)
  getting : ∀ thread began, s.getting thread = some began → began < s.time

variable {s s' : MutexedList θ τ} {call : ListCall τ} {result : ListResult τ} {began : Nat}
  {mList : List τ}

omit [DecidableEq θ] in
theorem Consistent.actsAsList (hs : Consistent s) : ActsAsList s :=
  ⟨hs.defined, hs.sequential.linearizable hs.span hs.ends⟩

omit [DecidableEq θ] in
/-- A call that returns what an abstract list returns. -/
theorem Consistent.finish (hs : Consistent s) (hbegan : began ≤ s.time)
    (happly : abstractList s.mList call = (result, mList))
    (hcall : ∀ comp, call ≠ .removeIfExists comp) :
    Consistent (s.finish call result began mList) where
  defined := hs.defined
  sequential := sequential_concat_iff.mpr ⟨s.mList, hs.sequential, happly⟩
  plain op hop := by
    rcases List.mem_append.mp hop with hop | hop
    · exact hs.plain op hop
    · rw [List.mem_singleton.mp hop]
      cases call with
      | append _ | get => trivial
      | removeIfExists comp => exact absurd rfl (hcall comp)
  span op hop := by
    rcases List.mem_append.mp hop with hop | hop
    · exact hs.span op hop
    · rw [List.mem_singleton.mp hop]
      exact hbegan
  past op hop := by
    rcases List.mem_append.mp hop with hop | hop
    · exact Nat.lt_succ_of_lt (hs.past op hop)
    · rw [List.mem_singleton.mp hop]
      exact Nat.lt_succ_self s.time
  ends := by
    rw [MutexedList.finish, List.pairwise_append]
    refine ⟨hs.ends, List.pairwise_singleton _ _, ?_⟩
    intro op hop later hlater
    rw [List.mem_singleton.mp hlater]
    exact Nat.le_of_lt (hs.past op hop)
  getting thread began h := Nat.lt_succ_of_lt (hs.getting thread began h)

/-- A thread leaves `get`. -/
theorem Consistent.setGetting_none (hs : Consistent s) (thread : θ) :
    Consistent (s.setGetting thread none) where
  defined := hs.defined
  sequential := hs.sequential
  plain := hs.plain
  span := hs.span
  past := hs.past
  ends := hs.ends
  getting other began h := by
    unfold setGetting at h
    dsimp only at h
    split at h
    · cases h
    · exact hs.getting other began h

/-- A thread goes on with `get`. -/
theorem Consistent.setGetting_some (hs : Consistent s) (thread : θ) :
    Consistent { s.setGetting thread (some s.time) with time := s.time + 1 } where
  defined := hs.defined
  sequential := hs.sequential
  plain := hs.plain
  span := hs.span
  past op hop := Nat.lt_succ_of_lt (hs.past op hop)
  ends := hs.ends
  getting other began h := by
    unfold setGetting at h
    dsimp only at h ⊢
    split at h
    · rw [← Option.some.inj h]
      exact Nat.lt_succ_self s.time
    · exact Nat.lt_succ_of_lt (hs.getting other began h)

omit [DecidableEq θ] in
/-- No order explains that a match is not found. -/
theorem Consistent.not_linearizable (hs : Consistent s) {comp : τ → Bool}
    (hany : s.mList.any comp = true) :
    ¬Linearizable abstractList []
      (s.finish (.removeIfExists comp) (.found false) s.time s.mList).completed := by
  intro h
  obtain ⟨order, left, hperm, horder, hresult⟩ := h.of_concat hs.past
  have hleft := perm_of_perm hs.sequential horder hs.plain hperm
  have hnone : left.any comp = false := ListResult.found.inj hresult
  obtain ⟨value, hvalue, hmatches⟩ := List.any_eq_true.mp hany
  have hsome : left.any comp = true :=
    List.any_eq_true.mpr ⟨value, hleft.mem_iff.mpr hvalue, hmatches⟩
  rw [hnone] at hsome
  cases hsome

/-- A step that meets the condition keeps the calls consistent, and one that acts as a list meets
it. -/
theorem consistent_step {e : Event θ τ} (hs : Consistent s) (h : step s e = some s') :
    (Meets s e → Consistent s') ∧ (ActsAsList s' → Meets s e) := by
  cases e with
  | append thread data =>
    rw [step] at h
    split at h
    · cases h
    · obtain rfl := Option.some.inj h
      exact ⟨fun _ ↦ hs.finish (Nat.le_refl _) rfl nofun, fun _ ↦ trivial⟩
  | getEmpty thread =>
    rw [step] at h
    split at h
    · cases h
    · split at h
      · next hempty =>
        obtain rfl := Option.some.inj h
        have hnil : s.mList = [] := List.isEmpty_iff.mp hempty
        have happly : abstractList s.mList .get = (.thrown, s.mList) := by
          rw [hnil]
          rfl
        exact ⟨fun _ ↦ hs.finish (Nat.le_refl _) happly nofun, fun _ ↦ trivial⟩
      · obtain rfl := Option.some.inj h
        exact ⟨fun _ ↦ hs.setGetting_some thread, fun _ ↦ trivial⟩
  | getFront thread =>
    rw [step] at h
    split at h
    · next began _ hgetting =>
      have hbegan := Nat.le_of_lt (hs.getting thread began hgetting)
      rw [front_eq] at h
      cases hlist : s.mList with
      | nil =>
        rw [hlist] at h
        obtain rfl := Option.some.inj h
        exact ⟨fun hne ↦ absurd hlist hne, fun hacts ↦ absurd hacts.1 (by simp)⟩
      | cons value rest =>
        rw [hlist] at h
        obtain rfl := Option.some.inj h
        have hne : s.mList ≠ [] := hlist ▸ List.cons_ne_nil value rest
        refine ⟨fun _ ↦ (hs.setGetting_none thread).finish hbegan ?_ nofun, fun _ ↦ hne⟩
        show abstractList s.mList .get = (.value value, rest)
        rw [hlist]
        rfl
    · cases h
  | removeIfExists thread comp =>
    refine ⟨False.elim, fun hacts ↦ ?_⟩
    rw [step] at h
    split at h
    · cases h
    · rw [removeIfExists_eq] at h
      by_cases hany : s.mList.any comp
      · rw [if_pos hany] at h
        obtain rfl := Option.some.inj h
        exact hs.not_linearizable hany hacts.2
      · rw [if_neg hany] at h
        obtain rfl := Option.some.inj h
        exact absurd hacts.1 (by simp)

omit [DecidableEq θ] in
theorem consistent_start : Consistent ({} : MutexedList θ τ) where
  defined := rfl
  sequential := .nil []
  plain := List.forall_mem_nil _
  span := List.forall_mem_nil _
  past := List.forall_mem_nil _
  ends := .nil
  getting _ _ h := by cases h

/-- Over every run of any threads, the list acts as an abstract list if and only if no thread calls
`remove_if_exists`, and no `get` comes to its second section when the list is empty. For the `false`
that `remove_if_exists` returns with a match there is no order of the calls that have returned; a
`get` that overlaps it can give it one when it returns. -/
theorem actsAsList_iff_meets (events : List (Event θ τ)) :
    Along step (fun _ _ s' ↦ ActsAsList s') ({} : MutexedList θ τ) events ↔
      Along step (fun s e _ ↦ Meets s e) ({} : MutexedList θ τ) events := by
  apply along_congr (I := Consistent)
  · intro s e _ s' hs hstep
    obtain ⟨hconsistent, hmeets⟩ := consistent_step hs hstep
    exact ⟨hmeets, fun h ↦ (hconsistent h).actsAsList⟩
  · intro s e _ s' hs hstep hacts
    obtain ⟨hconsistent, hmeets⟩ := consistent_step hs hstep
    exact hconsistent (hmeets hacts)
  · exact consistent_start

/-- The element is in the list and matches, but it is not found. -/
theorem not_actsAsList_removal :
    ¬∀ events : List (Event Unit Nat),
      Along step (fun _ _ s' ↦ ActsAsList s') ({} : MutexedList Unit Nat) events := by
  intro h
  obtain ⟨-, hrest⟩ := h [.append () 5, .removeIfExists () (· == 5)] _ rfl
  obtain ⟨hacts, -⟩ := hrest _ rfl
  have hconsistent : Consistent
      (({} : MutexedList Unit Nat).finish (.append 5) .done 0 [5]) :=
    consistent_start.finish (Nat.le_refl 0) rfl nofun
  exact hconsistent.not_linearizable rfl hacts.2

end MutexedList

end KeepMyJournal.Common
