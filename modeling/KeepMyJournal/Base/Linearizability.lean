import Mathlib.Init

/-!
# Linearizability

Operations that overlap have the results of the same operations called one after the other, in an
order in which no operation stands behind one that began after its end.
-/

namespace KeepMyJournal.Base

universe u v w

variable {α : Type u} {ω : Type v} {ρ : Type w}

/-- An operation that has returned: the call, the result, and when it began and ended. -/
structure Completed (ω : Type v) (ρ : Type w) where
  call : ω
  result : ρ
  began : Nat
  ended : Nat

/-- The operation has ended before the other one begins. -/
def Completed.Precedes (op other : Completed ω ρ) : Prop := op.ended < other.began

/-- Called one after the other, the operations lead from one state to the other with these
results. -/
inductive Sequential (apply : α → ω → ρ × α) : α → List (Completed ω ρ) → α → Prop
  | nil (a : α) : Sequential apply a [] a
  | cons {a b c : α} {op : Completed ω ρ} {ops : List (Completed ω ρ)} :
      apply a op.call = (op.result, b) → Sequential apply b ops c → Sequential apply a (op :: ops) c

/-- The completed operations have the results of a sequence of the same operations that respects
what preceded what. -/
def Linearizable (apply : α → ω → ρ × α) (a : α) (completed : List (Completed ω ρ)) : Prop :=
  ∃ order b, order.Perm completed ∧
    order.Pairwise (fun op later ↦ ¬later.Precedes op) ∧ Sequential apply a order b

variable {apply : α → ω → ρ × α} {a b c : α} {op : Completed ω ρ} {ops : List (Completed ω ρ)}

/-- A sequence is extended at its end. -/
theorem sequential_concat_iff :
    Sequential apply a (ops ++ [op]) c ↔
      ∃ b, Sequential apply a ops b ∧ apply b op.call = (op.result, c) := by
  induction ops generalizing a with
  | nil =>
    constructor
    · rintro (_ | ⟨happly, ⟨⟩⟩)
      exact ⟨a, .nil a, happly⟩
    · rintro ⟨b, ⟨⟩, happly⟩
      exact .cons happly (.nil c)
  | cons first ops ih =>
    constructor
    · rintro (_ | ⟨hfirst, hrest⟩)
      obtain ⟨b, hops, happly⟩ := ih.mp hrest
      exact ⟨b, .cons hfirst hops, happly⟩
    · rintro ⟨b, (_ | ⟨hfirst, hops⟩), happly⟩
      exact .cons hfirst (ih.mpr ⟨b, hops, happly⟩)

/-- The order in which the operations end respects what preceded what. -/
theorem Sequential.linearizable (h : Sequential apply a ops b)
    (hspan : ∀ op ∈ ops, op.began ≤ op.ended)
    (hends : ops.Pairwise (fun op later ↦ op.ended ≤ later.ended)) :
    Linearizable apply a ops := by
  refine ⟨ops, b, .refl ops, ?_, h⟩
  apply hends.imp_of_mem
  intro op later hop _ hle hprecedes
  have hbegan := hspan op hop
  unfold Completed.Precedes at hprecedes
  omega

/-- An operation that all others precede comes last. -/
theorem Linearizable.of_concat (h : Linearizable apply a (ops ++ [op]))
    (hlast : ∀ other ∈ ops, other.Precedes op) :
    ∃ order b, order.Perm ops ∧ Sequential apply a order b ∧ (apply b op.call).1 = op.result := by
  obtain ⟨order, c, hperm, hpairwise, hsequential⟩ := h
  have hmem : op ∈ order := hperm.mem_iff.mpr (List.mem_append_right _ List.mem_cons_self)
  obtain ⟨before, after, rfl⟩ := List.append_of_mem hmem
  have hothers : (before ++ after).Perm ops := by
    have hcons : (op :: (before ++ after)).Perm (op :: ops) :=
      (List.perm_middle.symm.trans hperm).trans (List.perm_append_singleton op ops)
    exact hcons.cons_inv
  cases after with
  | nil =>
    rw [List.append_nil] at hothers
    obtain ⟨b, hbefore, happly⟩ := sequential_concat_iff.mp hsequential
    exact ⟨before, b, hothers, hbefore, congrArg Prod.fst happly⟩
  | cons later after =>
    have hlater : later ∈ ops := hothers.mem_iff.mp (by simp)
    have hnot := (List.pairwise_append.mp hpairwise).2.1
    exact absurd (hlast later hlater) ((List.pairwise_cons.mp hnot).1 later List.mem_cons_self)

/-! ### Records -/

/-- The operations have been recorded as they ended, before a time; called in that order they
lead from one state to the other. -/
structure Recorded (apply : α → ω → ρ × α) (a : α) (ops : List (Completed ω ρ)) (time : Nat)
    (b : α) : Prop where
  sequential : Sequential apply a ops b
  span : ∀ op ∈ ops, op.began ≤ op.ended
  past : ∀ op ∈ ops, op.ended < time
  ends : ops.Pairwise (fun op later ↦ op.ended ≤ later.ended)

theorem recorded_nil (apply : α → ω → ρ × α) (a : α) (time : Nat) :
    Recorded apply a [] time a where
  sequential := .nil a
  span := List.forall_mem_nil _
  past := List.forall_mem_nil _
  ends := .nil

namespace Recorded

variable {time : Nat}

theorem linearizable (h : Recorded apply a ops time b) : Linearizable apply a ops :=
  h.sequential.linearizable h.span h.ends

/-- Time passes. -/
theorem later (h : Recorded apply a ops time b) : Recorded apply a ops (time + 1) b :=
  { h with past := fun op hop ↦ Nat.lt_succ_of_lt (h.past op hop) }

/-- An operation ends, with what the state gives. -/
theorem concat (h : Recorded apply a ops time b) {began : Nat} {call : ω} {result : ρ}
    (hbegan : began ≤ time) (happly : apply b call = (result, c)) :
    Recorded apply a
      (ops ++ [{ call := call, result := result, began := began, ended := time }])
      (time + 1) c where
  sequential := sequential_concat_iff.mpr ⟨b, h.sequential, happly⟩
  span op hop := by
    rcases List.mem_append.mp hop with hop | hop
    · exact h.span op hop
    · rw [List.mem_singleton.mp hop]
      exact hbegan
  past op hop := by
    rcases List.mem_append.mp hop with hop | hop
    · exact Nat.lt_succ_of_lt (h.past op hop)
    · rw [List.mem_singleton.mp hop]
      exact Nat.lt_succ_self time
  ends := by
    rw [List.pairwise_append]
    refine ⟨h.ends, List.pairwise_singleton _ _, ?_⟩
    intro op hop later hlater
    rw [List.mem_singleton.mp hlater]
    exact Nat.le_of_lt (h.past op hop)

end Recorded

end KeepMyJournal.Base
