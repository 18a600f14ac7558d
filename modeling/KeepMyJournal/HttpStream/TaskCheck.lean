import KeepMyJournal.Common.Tasks
import Mathlib.Data.List.Sort
import Mathlib.Tactic.Linarith

/-!
# The check every price task passes before it is scheduled

`passed_valid_task_check`, `http_stream/src/scheduled_price_tasks.cpp:37–60`. The source
judges its argument and rewrites it; here the verdict comes with the rewritten task. A task
the source refuses is never read again, so what `std::unique` leaves in its tokens is not
modelled.
-/

namespace KeepMyJournal.HttpStream

open KeepMyJournal.Base KeepMyJournal.Common

/-- `std::clamp(percentage, -100.0, 100.0)`. -/
def clampPercentage (percentage : ℚ) : ℚ :=
  if percentage < -100 then -100 else if 100 < percentage then 100 else percentage

/-- `std::sort` of byte strings: unsigned lexicographic, equal elements being identical. -/
def sortTokens (tokens : List Bytes) : List Bytes :=
  tokens.insertionSort (fun a b ↦ (compare a b).isLE)

/-- `std::unique` of a range finds an element that repeats the one before it. -/
def hasRepeat : List Bytes → Bool
  | [] => false
  | [_] => false
  | a :: b :: rest => a == b || hasRepeat (b :: rest)

/-- What `std::unique` keeps of the rest of a range behind `a`. -/
def uniqueAfter (a : Bytes) : List Bytes → List Bytes
  | [] => []
  | b :: rest => if a == b then uniqueAfter a rest else b :: uniqueAfter b rest

/-- The part of the range in front of the iterator that `std::unique` returns. -/
def unique : List Bytes → List Bytes
  | [] => []
  | a :: rest => a :: uniqueAfter a rest

/-- The part of the check after the percentage. -/
def checkIntervalAndTokens (task : ScheduledPriceTask) : Bool × ScheduledPriceTask :=
  if task.timeProp.any (fun prop ↦ prop.timeMS ≤ 0) then (false, task)
  else if task.exchange = .total ∨ task.tradeType = .total then (false, task)
  else
    let sorted := { task with tokens := sortTokens task.tokens }
    (!hasRepeat sorted.tokens, sorted)

/-- `passed_valid_task_check`. -/
def passedValidTaskCheck (task : ScheduledPriceTask) : Bool × ScheduledPriceTask :=
  if task.tokens.isEmpty ∨ ¬(task.percentProp.isSome ∨ task.timeProp.isSome) then (false, task)
  else
    match task.percentProp with
    | none => checkIntervalAndTokens task
    | some prop =>
      let percentage := clampPercentage prop.percentage
      if percentage = 0 then (false, task)
      else checkIntervalAndTokens
        { task with percentProp := some { prop with percentage := percentage } }

/-- The task as the check leaves it: tokens sorted, percentage limited, nothing else touched. -/
def normalised (task : ScheduledPriceTask) : ScheduledPriceTask :=
  { task with
    tokens := sortTokens task.tokens
    percentProp := task.percentProp.map
      (fun prop ↦ { prop with percentage := clampPercentage prop.percentage }) }

/-! ### Repeats -/

/-- In a sorted list, equal elements are neighbours. -/
private theorem nodup_of_not_hasRepeat {tokens : List Bytes}
    (hs : tokens.Pairwise (fun a b ↦ (compare a b).isLE)) (h : hasRepeat tokens = false) :
    tokens.Nodup := by
  induction tokens with
  | nil => exact List.nodup_nil
  | cons a rest ih =>
    cases rest with
    | nil => exact List.nodup_singleton a
    | cons b rest =>
      rw [hasRepeat, Bool.or_eq_false_iff, beq_eq_false_iff_ne] at h
      obtain ⟨hle, hs⟩ := List.pairwise_cons.mp hs
      refine List.nodup_cons.mpr ⟨?_, ih hs h.2⟩
      intro ha
      have hba : (compare b a).isLE := by
        rcases List.mem_cons.mp ha with hab | ha
        · exact absurd hab h.1
        · exact (List.pairwise_cons.mp hs).1 a ha
      have hab : (compare a b).isLE := hle b List.mem_cons_self
      exact h.1 (Std.compare_eq_iff_eq.mp (Std.OrientedCmp.isLE_antisymm hab hba))

/-- Distinct elements are no repeats. -/
private theorem not_hasRepeat_of_nodup {tokens : List Bytes} (h : tokens.Nodup) :
    hasRepeat tokens = false := by
  induction tokens with
  | nil => rfl
  | cons a rest ih =>
    cases rest with
    | nil => rfl
    | cons b rest =>
      obtain ⟨ha, hrest⟩ := List.nodup_cons.mp h
      rw [hasRepeat, Bool.or_eq_false_iff, beq_eq_false_iff_ne]
      exact ⟨List.ne_of_not_mem_cons ha, ih hrest⟩

private theorem length_uniqueAfter_le (a : Bytes) (rest : List Bytes) :
    (uniqueAfter a rest).length ≤ rest.length := by
  induction rest generalizing a with
  | nil => exact Nat.le_refl 0
  | cons b rest ih =>
    rw [uniqueAfter]
    split
    · exact (ih a).trans (Nat.le_succ _)
    · exact Nat.succ_le_succ (ih b)

/-- Where there is no repeat, `std::unique` moves nothing. -/
theorem unique_eq_self {tokens : List Bytes} (h : hasRepeat tokens = false) :
    unique tokens = tokens := by
  induction tokens with
  | nil => rfl
  | cons a rest ih =>
    cases rest with
    | nil => rfl
    | cons b rest =>
      rw [hasRepeat, Bool.or_eq_false_iff] at h
      have hrest : b :: uniqueAfter b rest = b :: rest := ih h.2
      rw [unique, uniqueAfter, if_neg (Bool.eq_false_iff.mp h.1), hrest]

/-- `std::unique` returns the end exactly where there is no repeat. -/
theorem hasRepeat_eq_false_iff (tokens : List Bytes) :
    hasRepeat tokens = false ↔ (unique tokens).length = tokens.length := by
  constructor
  · intro h
    rw [unique_eq_self h]
  · induction tokens with
    | nil => exact fun _ ↦ rfl
    | cons a rest ih =>
      cases rest with
      | nil => exact fun _ ↦ rfl
      | cons b rest =>
        intro hlength
        rw [unique, uniqueAfter, List.length_cons, List.length_cons] at hlength
        by_cases hab : a == b
        · have hle := length_uniqueAfter_le a rest
          rw [if_pos hab, List.length_cons] at hlength
          omega
        · rw [if_neg hab] at hlength
          rw [hasRepeat, Bool.eq_false_iff.mpr hab, Bool.false_or]
          exact ih (Nat.succ.inj hlength)

/-- The tokens are sorted. -/
theorem pairwise_sortTokens (tokens : List Bytes) :
    (sortTokens tokens).Pairwise (fun a b ↦ (compare a b).isLE) := by
  have : Std.Total (fun a b : Bytes ↦ (compare a b).isLE = true) := by
    constructor
    intro a b
    by_cases h : (compare a b).isLE
    · exact .inl h
    · exact .inr (by rw [Std.OrientedCmp.lt_of_not_isLE h]; rfl)
  have : IsTrans Bytes (fun a b ↦ (compare a b).isLE = true) :=
    ⟨fun _ _ _ ↦ Std.TransCmp.isLE_trans⟩
  exact List.pairwise_insertionSort _ tokens

/-- Sorting loses no token. -/
theorem perm_sortTokens (tokens : List Bytes) : (sortTokens tokens).Perm tokens :=
  List.perm_insertionSort _ tokens

/-- Sorted, the tokens have a repeat if one of them is there twice. -/
theorem hasRepeat_sortTokens_eq_false_iff (tokens : List Bytes) :
    hasRepeat (sortTokens tokens) = false ↔ tokens.Nodup := by
  rw [← (perm_sortTokens tokens).nodup_iff]
  exact ⟨nodup_of_not_hasRepeat (pairwise_sortTokens tokens), not_hasRepeat_of_nodup⟩

/-! ### The limits of a percentage -/

theorem clampPercentage_eq (percentage : ℚ) :
    clampPercentage percentage = max (-100) (min percentage 100) := by
  unfold clampPercentage
  split
  · next h => rw [min_eq_left (by linarith), max_eq_left h.le]
  · next hlow =>
    split
    · next h => rw [min_eq_right h.le, max_eq_right (by norm_num)]
    · next hhigh => rw [min_eq_left (not_lt.mp hhigh), max_eq_right (not_lt.mp hlow)]

theorem clampPercentage_pos_iff (percentage : ℚ) :
    0 < clampPercentage percentage ↔ 0 < percentage := by
  rw [clampPercentage_eq, lt_max_iff, lt_min_iff]
  norm_num

/-- A limited percentage keeps its sign. -/
theorem clampPercentage_neg_iff (percentage : ℚ) :
    clampPercentage percentage < 0 ↔ percentage < 0 := by
  rw [clampPercentage_eq, max_lt_iff, min_lt_iff]
  norm_num

/-- No percentage is limited to zero. -/
theorem clampPercentage_eq_zero_iff (percentage : ℚ) :
    clampPercentage percentage = 0 ↔ percentage = 0 := by
  rw [← not_iff_not, ← ne_eq, ← ne_eq, ne_iff_lt_or_gt, ne_iff_lt_or_gt,
    clampPercentage_neg_iff, clampPercentage_pos_iff]

/-- The size of a percentage is limited to 100. -/
theorem abs_clampPercentage (percentage : ℚ) :
    |clampPercentage percentage| = min |percentage| 100 := by
  unfold clampPercentage
  split
  · next h =>
    rw [abs_of_neg (h.trans (by norm_num)), min_eq_right (by linarith)]
    norm_num
  · next hlow =>
    split
    · next h =>
      rw [abs_of_pos (lt_trans (by norm_num) h), min_eq_right h.le]
      norm_num
    · next hhigh => rw [min_eq_left (abs_le.mpr ⟨not_lt.mp hlow, not_lt.mp hhigh⟩)]

/-! ### The verdict -/

private theorem checkIntervalAndTokens_fst_iff (task : ScheduledPriceTask) :
    (checkIntervalAndTokens task).1 = true ↔
      task.tokens.Nodup ∧ (∀ prop ∈ task.timeProp, prop.timeMS ≠ 0) ∧
        task.exchange ≠ .total ∧ task.tradeType ≠ .total := by
  have htime : task.timeProp.any (fun prop ↦ prop.timeMS ≤ 0) = true ↔
      ¬ ∀ prop ∈ task.timeProp, prop.timeMS ≠ 0 := by
    cases task.timeProp with
    | none => simp
    | some prop => simp
  rw [checkIntervalAndTokens]
  split
  · next h =>
    refine iff_of_false Bool.false_ne_true ?_
    rintro ⟨-, hset, -⟩
    exact htime.mp h hset
  · next h =>
    split
    · next hknown =>
      refine iff_of_false Bool.false_ne_true ?_
      rintro ⟨-, -, hexchange, htrade⟩
      exact hknown.elim hexchange htrade
    · next hknown =>
      have hset : ∀ prop ∈ task.timeProp, prop.timeMS ≠ 0 := by
        by_contra hnot
        exact h (htime.mpr hnot)
      rw [not_or] at hknown
      dsimp only
      rw [Bool.not_eq_true', hasRepeat_sortTokens_eq_false_iff]
      constructor
      · intro hnodup
        exact ⟨hnodup, hset, hknown⟩
      · intro hall
        exact hall.1

/-- The verdict. -/
private theorem passedValidTaskCheck_fst_iff (task : ScheduledPriceTask) :
    (passedValidTaskCheck task).1 = true ↔
      task.tokens ≠ [] ∧ task.tokens.Nodup ∧
        (task.percentProp.isSome ∨ task.timeProp.isSome) ∧
        (∀ prop ∈ task.percentProp, prop.percentage ≠ 0) ∧
        (∀ prop ∈ task.timeProp, prop.timeMS ≠ 0) ∧
        task.exchange ≠ .total ∧ task.tradeType ≠ .total := by
  rw [passedValidTaskCheck]
  split
  · next h =>
    refine iff_of_false Bool.false_ne_true ?_
    rintro ⟨hne, -, hset, -⟩
    rcases h with h | h
    · exact hne (List.isEmpty_iff.mp h)
    · exact h hset
  · next h =>
    rw [not_or, not_not, List.isEmpty_iff] at h
    split
    · next hp =>
      have hpercent : ∀ prop ∈ task.percentProp, prop.percentage ≠ 0 := by
        intro prop hprop
        rw [hp] at hprop
        cases hprop
      rw [checkIntervalAndTokens_fst_iff]
      constructor
      · rintro ⟨hnodup, hrest⟩
        exact ⟨h.1, hnodup, h.2, hpercent, hrest⟩
      · rintro ⟨-, hnodup, -, -, hrest⟩
        exact ⟨hnodup, hrest⟩
    · next prop hp =>
      have hpercent : (∀ prop' ∈ task.percentProp, prop'.percentage ≠ 0) ↔
          clampPercentage prop.percentage ≠ 0 := by
        rw [ne_eq, clampPercentage_eq_zero_iff, hp]
        simp
      rw [hpercent]
      dsimp only
      split
      · next hzero =>
        refine iff_of_false Bool.false_ne_true ?_
        rintro ⟨-, -, -, hne, -⟩
        exact hne hzero
      · next hzero =>
        rw [checkIntervalAndTokens_fst_iff]
        constructor
        · rintro ⟨hnodup, hrest⟩
          exact ⟨h.1, hnodup, h.2, hzero, hrest⟩
        · rintro ⟨-, hnodup, -, -, hrest⟩
          exact ⟨hnodup, hrest⟩

private theorem checkIntervalAndTokens_of_true {task task' : ScheduledPriceTask}
    (h : checkIntervalAndTokens task = (true, task')) :
    task' = { task with tokens := sortTokens task.tokens } := by
  unfold checkIntervalAndTokens at h
  split at h
  · cases h
  · split at h
    · cases h
    · exact (Prod.mk.inj h).2.symm

/-- An accepted task is the normal form of the submitted one, and has a percentage that is
not zero or an interval. -/
theorem passedValidTaskCheck_of_true {task task' : ScheduledPriceTask}
    (h : passedValidTaskCheck task = (true, task')) :
    task' = normalised task ∧ (task.percentProp.isSome ∨ task.timeProp.isSome) ∧
      ∀ prop ∈ task'.percentProp, prop.percentage ≠ 0 := by
  unfold passedValidTaskCheck at h
  split at h
  · cases h
  · next hset =>
    rw [not_or, not_not] at hset
    split at h
    · next hp =>
      obtain rfl := checkIntervalAndTokens_of_true h
      refine ⟨?_, hset.2, ?_⟩
      · simp [normalised, hp]
      · simp [hp]
    · next prop hp =>
      dsimp only at h
      split at h
      · cases h
      · next hz =>
        obtain rfl := checkIntervalAndTokens_of_true h
        refine ⟨?_, hset.2, ?_⟩
        · simp [normalised, hp]
        · simpa using hz

/-- The tokens of an accepted task are distinct. -/
theorem nodup_of_passedValidTaskCheck {task task' : ScheduledPriceTask}
    (h : passedValidTaskCheck task = (true, task')) : task'.tokens.Nodup := by
  have hverdict := (passedValidTaskCheck_fst_iff task).mp (congrArg Prod.fst h)
  rw [(passedValidTaskCheck_of_true h).1]
  exact (perm_sortTokens task.tokens).nodup_iff.mpr hverdict.2.1

/-- An accepted task names an exchange and a trade type. -/
theorem known_of_passedValidTaskCheck {task task' : ScheduledPriceTask}
    (h : passedValidTaskCheck task = (true, task')) :
    task.exchange ≠ .total ∧ task.tradeType ≠ .total := by
  have hverdict := (passedValidTaskCheck_fst_iff task).mp (congrArg Prod.fst h)
  exact hverdict.2.2.2.2.2

/-- The check accepts exactly the tasks with distinct tokens, a percentage or an interval, neither
of them zero, an exchange and a trade type. What it hands back has the tokens in order and the
percentage limited, and nothing else is touched. -/
theorem passedValidTaskCheck_iff (task : ScheduledPriceTask) :
    ((passedValidTaskCheck task).1 = true ↔
        task.tokens ≠ [] ∧ task.tokens.Nodup ∧
          (task.percentProp.isSome ∨ task.timeProp.isSome) ∧
          (∀ prop ∈ task.percentProp, prop.percentage ≠ 0) ∧
          (∀ prop ∈ task.timeProp, prop.timeMS ≠ 0) ∧
          task.exchange ≠ .total ∧ task.tradeType ≠ .total) ∧
      ∀ task', passedValidTaskCheck task = (true, task') →
        task'.tokens.Perm task.tokens ∧
          task'.tokens.Pairwise (fun a b ↦ (compare a b).isLE) ∧
          unique task'.tokens = task'.tokens ∧
          task'.percentProp = task.percentProp.map
            (fun prop ↦ { prop with percentage := max (-100) (min prop.percentage 100) }) ∧
          (∀ prop ∈ task.percentProp, ∀ prop' ∈ task'.percentProp,
            (0 < prop'.percentage ↔ 0 < prop.percentage) ∧
              (prop'.percentage < 0 ↔ prop.percentage < 0)) ∧
          { task' with tokens := task.tokens, percentProp := task.percentProp } = task := by
  refine ⟨passedValidTaskCheck_fst_iff task, ?_⟩
  intro task' h
  obtain ⟨rfl, -, -⟩ := passedValidTaskCheck_of_true h
  have hrepeat : hasRepeat (sortTokens task.tokens) = false := by
    rw [hasRepeat_sortTokens_eq_false_iff, ← (perm_sortTokens task.tokens).nodup_iff]
    exact nodup_of_passedValidTaskCheck h
  refine ⟨perm_sortTokens task.tokens, pairwise_sortTokens task.tokens,
    unique_eq_self hrepeat, ?_, ?_, rfl⟩
  · simp only [normalised, clampPercentage_eq]
  · intro prop hprop prop' hprop'
    rw [Option.mem_def] at hprop
    simp only [normalised, hprop, Option.map_some, Option.mem_def, Option.some.injEq] at hprop'
    rw [← hprop']
    exact ⟨clampPercentage_pos_iff prop.percentage, clampPercentage_neg_iff prop.percentage⟩

end KeepMyJournal.HttpStream
