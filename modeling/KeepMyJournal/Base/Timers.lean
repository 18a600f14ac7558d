import Mathlib.Data.List.Basic

/-!
# Waits on timers

A wait that expires queues its handler. Cancelling aborts the waits that have not expired:
their handlers are queued with an error. A handler already queued runs with no error.
-/

namespace KeepMyJournal.Base

universe u

/-- A queued handler: whose wait it ends, and whether the wait has been aborted. -/
structure Handler (α : Type u) where
  owner : α
  aborted : Bool
  deriving DecidableEq, Repr

/-- The waits that have not expired and the handlers that have not run. -/
structure Timers (α : Type u) where
  waits : List α := []
  queue : List (Handler α) := []
  deriving DecidableEq, Repr

namespace Timers

variable {α : Type u} [DecidableEq α]

/-- A wait of `a` begins. -/
def asyncWait (t : Timers α) (a : α) : Timers α := { t with waits := t.waits ++ [a] }

/-- A wait of `a` expires. -/
def expire (t : Timers α) (a : α) : Option (Timers α) :=
  if a ∈ t.waits then
    some { waits := t.waits.erase a, queue := t.queue ++ [{ owner := a, aborted := false }] }
  else none

/-- The waits of `a` are cancelled. -/
def cancel (t : Timers α) (a : α) : Timers α :=
  { waits := t.waits.filter (fun b ↦ !decide (b = a))
    queue := t.queue ++
      (t.waits.filter (fun b ↦ decide (b = a))).map (fun b ↦ { owner := b, aborted := true }) }

/-- A queued handler is taken out to be run. -/
def take (t : Timers α) (h : Handler α) : Option (Timers α) :=
  if h ∈ t.queue then some { t with queue := t.queue.erase h } else none

/-- The handler of an expired wait of `a` is queued. -/
def Expired (t : Timers α) (a : α) : Prop := { owner := a, aborted := false } ∈ t.queue

instance (t : Timers α) (a : α) : Decidable (t.Expired a) :=
  inferInstanceAs (Decidable (_ ∈ t.queue))

variable {t t' : Timers α} {a b : α}

omit [DecidableEq α] in
@[simp] theorem mem_waits_asyncWait : b ∈ (t.asyncWait a).waits ↔ b ∈ t.waits ∨ b = a := by
  simp [asyncWait]

omit [DecidableEq α] in
@[simp] theorem expired_asyncWait : (t.asyncWait a).Expired b ↔ t.Expired b := Iff.rfl

@[simp] theorem mem_waits_cancel : b ∈ (t.cancel a).waits ↔ b ∈ t.waits ∧ b ≠ a := by
  simp [cancel]

/-- Cancelling neither queues nor removes the handler of an expired wait. -/
@[simp] theorem expired_cancel : (t.cancel a).Expired b ↔ t.Expired b := by
  simp [cancel, Expired]

/-- Only a wait of its owner expires, and no wait begins. -/
theorem expire_spec (h : t.expire a = some t') :
    a ∈ t.waits ∧ (∀ b ∈ t'.waits, b ∈ t.waits) ∧ ∀ b, t'.Expired b → t.Expired b ∨ b = a := by
  unfold expire at h
  split at h
  · next ha =>
    obtain rfl := Option.some.inj h
    refine ⟨ha, fun b hb ↦ List.mem_of_mem_erase hb, ?_⟩
    intro b hb
    unfold Expired at hb
    rw [List.mem_append, List.mem_singleton, Handler.mk.injEq] at hb
    exact hb.imp_right And.left
  · cases h

/-- A handler that is taken was queued, and nothing is queued or begun. -/
theorem take_spec {h : Handler α} (ht : t.take h = some t') :
    h ∈ t.queue ∧ t'.waits = t.waits ∧ ∀ b, t'.Expired b → t.Expired b := by
  unfold take at ht
  split at ht
  · next hm =>
    obtain rfl := Option.some.inj ht
    exact ⟨hm, rfl, fun b hb ↦ List.mem_of_mem_erase hb⟩
  · cases ht

/-! ### What is outstanding -/

/-- The waits of `a` that have not expired and the handlers of those that have. -/
def outstanding (t : Timers α) (a : α) : Nat :=
  t.waits.count a + t.queue.count { owner := a, aborted := false }

theorem outstanding_asyncWait (t : Timers α) (a b : α) :
    (t.asyncWait a).outstanding b = t.outstanding b + if a = b then 1 else 0 := by
  have hcount : (t.waits ++ [a]).count b = t.waits.count b + if a = b then 1 else 0 := by
    rw [List.count_append, List.count_singleton]
    simp only [beq_iff_eq]
  rw [outstanding, outstanding, asyncWait, hcount]
  dsimp only
  omega

/-- A wait that expires is still outstanding, as a handler. -/
theorem outstanding_expire (h : t.expire a = some t') (b : α) :
    t'.outstanding b = t.outstanding b := by
  unfold expire at h
  split at h
  · next ha =>
    obtain rfl := Option.some.inj h
    rw [outstanding, outstanding]
    dsimp only
    rw [List.count_append, List.count_singleton]
    by_cases hab : a = b
    · subst hab
      have hpos := List.count_pos_iff.mpr ha
      rw [List.count_erase_self, if_pos (by simp)]
      omega
    · rw [List.count_erase_of_ne (Ne.symm hab), if_neg (by simp [hab])]
      omega
  · cases h

/-- A wait that is cancelled is not outstanding any more. -/
theorem outstanding_cancel (t : Timers α) (a b : α) :
    (t.cancel a).outstanding b =
      if a = b then t.queue.count { owner := b, aborted := false } else t.outstanding b := by
  have hqueue : (t.cancel a).queue.count { owner := b, aborted := false } =
      t.queue.count { owner := b, aborted := false } := by
    rw [cancel]
    dsimp only
    rw [List.count_append, Nat.add_eq_left, List.count_eq_zero]
    simp
  rw [outstanding, hqueue]
  split
  · next hab =>
    rw [List.count_eq_zero.mpr (by simp [hab]), Nat.zero_add]
  · next hab =>
    rw [outstanding, Nat.add_right_cancel_iff, cancel]
    dsimp only
    exact List.count_filter (by simp [Ne.symm hab])

/-- A handler that runs is not outstanding any more; one that was aborted never was. -/
theorem outstanding_take {h : Handler α} (ht : t.take h = some t') (b : α) :
    t.outstanding b = t'.outstanding b + if h.owner = b ∧ h.aborted = false then 1 else 0 := by
  unfold take at ht
  split at ht
  · next hm =>
    obtain rfl := Option.some.inj ht
    rw [outstanding, outstanding]
    dsimp only
    split
    · next hh =>
      obtain ⟨rfl, hok⟩ := hh
      have heq : h = { owner := h.owner, aborted := false } := by rw [← hok]
      have hpos := List.count_pos_iff.mpr (heq ▸ hm)
      rw [← heq, List.count_erase_self]
      rw [← heq] at hpos
      omega
    · next hh =>
      rw [List.count_erase_of_ne, Nat.add_zero]
      rintro rfl
      exact hh ⟨rfl, rfl⟩
  · cases ht

theorem not_mem_waits_of_outstanding (h : t.outstanding a = 0) : a ∉ t.waits :=
  List.count_eq_zero.mp (Nat.add_eq_zero_iff.mp h).1

end Timers

end KeepMyJournal.Base
