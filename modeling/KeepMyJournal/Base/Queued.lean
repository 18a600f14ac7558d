import KeepMyJournal.Base.Async
import Mathlib.Data.List.Count

/-!
# Handlers in the queue

An operation in flight first gets its result; its handler is then queued and runs with that
result later, in any order with the other queued handlers. To start an operation can end others
that are still in progress: they get the result of an aborted one, while a result that is there
stays. The handlers are those of `Async`.
-/

namespace KeepMyJournal.Base.Queued

universe u

/-- An operation whose handler has not run: it is in progress, or has the result its handler
will get. -/
structure Pending (ω ρ : Type u) where
  op : ω
  result : Option ρ := none
  deriving DecidableEq, Repr

/-- What the start of an operation does to the others: which of those in progress it ends, and
what result these get. Some operations are posted, with a result from the start. -/
structure Rules (ω ρ : Type u) where
  ends : ω → ω → Bool
  aborted : ρ
  posted : ω → Option ρ

/-- An object and the operations whose handlers have not run. -/
structure State (σ ω ρ : Type u) where
  object : σ
  pending : List (Pending ω ρ)

/-- What can happen next. -/
inductive Event (ν ω ρ : Type u) where
  | stop
  | notify (n : ν)
  | settle (op : ω) (result : ρ)
  | handle (op : ω) (result : ρ)
  deriving DecidableEq, Repr

variable {σ ν ω ρ : Type u}

/-- An operation gets its result and its handler runs. -/
def finish (op : ω) (result : ρ) : List (Event ν ω ρ) :=
  [.settle op result, .handle op result]

/-- The operation is in progress, or its result is one of these. -/
def Pending.live (ok : ρ → Bool) (p : Pending ω ρ) : Bool := p.result.all ok

/-- An operation that is started. -/
def Rules.start (m : Rules ω ρ) (op : ω) : Pending ω ρ := { op := op, result := m.posted op }

/-- An operation after these have been started. -/
def Rules.endBy (m : Rules ω ρ) (started : List ω) (p : Pending ω ρ) : Pending ω ρ :=
  if p.result.isNone && started.any (fun next ↦ m.ends next p.op) then
    { p with result := some m.aborted }
  else p

/-- The state in which a handler leaves the object and starts operations beside the rest. -/
def Rules.put (m : Rules ω ρ) (rest : List (Pending ω ρ)) (r : σ × List ω) : State σ ω ρ :=
  { object := r.1, pending := rest.map (m.endBy r.2) ++ r.2.map m.start }

variable [DecidableEq ω] [DecidableEq ρ]

/-- One step. An operation in progress gets its result once, and its handler runs once. -/
def step (h : Async.Handlers σ ν ω ρ) (m : Rules ω ρ) (s : State σ ω ρ) :
    Event ν ω ρ → Option (State σ ω ρ)
  | .stop => some (m.put s.pending (h.stop s.object))
  | .notify n =>
    if s.pending.any (fun p ↦ p.result.isNone && h.reads p.op) then
      (h.notify s.object n).map (m.put s.pending)
    else none
  | .settle op result =>
    if { op := op } ∈ s.pending then
      some { s with
        pending := s.pending.erase { op := op } ++ [{ op := op, result := some result }] }
    else none
  | .handle op result =>
    if { op := op, result := some result } ∈ s.pending then
      (h.complete s.object op result).map
        (m.put (s.pending.erase { op := op, result := some result }))
    else none

/-- No handler of these operations that can run next does anything undefined. An operation in
progress may get any result. -/
def Defined (h : Async.Handlers σ ν ω ρ) (kind : ω → Bool) (s : State σ ω ρ) : Prop :=
  ∀ p ∈ s.pending, kind p.op = true → ∀ result, (p.result = none ∨ p.result = some result) →
    h.complete s.object p.op result ≠ none

/-- Of the operations of a chain at most one is pending, and every pending operation fits the
object. -/
structure Chained (chain : ω → Bool) (Fits : σ → Pending ω ρ → Prop) (s : State σ ω ρ) :
    Prop where
  one : s.pending.countP (fun p ↦ chain p.op) ≤ 1
  fits : ∀ p ∈ s.pending, Fits s.object p

variable {h : Async.Handlers σ ν ω ρ} {m : Rules ω ρ} {s s' : State σ ω ρ} {chain : ω → Bool}
  {Fits : σ → Pending ω ρ → Prop}

omit [DecidableEq ω] [DecidableEq ρ] in
@[simp] theorem op_endBy (started : List ω) (p : Pending ω ρ) :
    (m.endBy started p).op = p.op := by
  unfold Rules.endBy
  split <;> rfl

omit [DecidableEq ω] [DecidableEq ρ] in
/-- What is live although a start has ended it has its result already. -/
theorem result_of_live_endBy {ok : ρ → Bool} {started : List ω} {p : Pending ω ρ} {next : ω}
    (hnext : next ∈ started) (hends : m.ends next p.op = true) (haborted : ok m.aborted = false)
    (hlive : (m.endBy started p).live ok = true) :
    ∃ result, p.result = some result ∧ ok result = true := by
  unfold Rules.endBy at hlive
  rw [List.any_eq_true.mpr ⟨next, hnext, hends⟩, Bool.and_true] at hlive
  cases hp : p.result with
  | none =>
    rw [hp] at hlive
    cases haborted.symm.trans hlive
  | some result =>
    unfold Pending.live at hlive
    rw [hp, if_neg nofun, hp] at hlive
    exact ⟨result, rfl, hlive⟩

omit [DecidableEq ω] [DecidableEq ρ] in
/-- To end an operation does not bring it to life. -/
theorem live_of_endBy {ok : ρ → Bool} {started : List ω} {p : Pending ω ρ}
    (hlive : (m.endBy started p).live ok = true) : p.live ok = true := by
  unfold Rules.endBy at hlive
  split at hlive
  · next hnone =>
    rw [Bool.and_eq_true, Option.isNone_iff_eq_none] at hnone
    unfold Pending.live
    rw [hnone.1]
    rfl
  · exact hlive

omit [DecidableEq ω] [DecidableEq ρ] in
/-- What fits in progress and with every result still fits after it has been ended. -/
theorem fits_endBy (hsettle : ∀ op result, Fits s.object { op := op } →
      Fits s.object { op := op, result := some result }) {started : List ω} {p : Pending ω ρ}
    (hp : Fits s.object p) : Fits s.object (m.endBy started p) := by
  unfold Rules.endBy
  split
  · next hnone =>
    rw [Bool.and_eq_true, Option.isNone_iff_eq_none] at hnone
    obtain ⟨op, result⟩ := p
    obtain rfl := hnone.1
    exact hsettle op m.aborted hp
  · exact hp

omit [DecidableEq ω] [DecidableEq ρ] in
/-- A handler leaves one operation of the chain at most if it starts one at most beside the
rest. -/
theorem chained_put {rest : List (Pending ω ρ)} {r : σ × List ω}
    (hone : rest.countP (fun p ↦ chain p.op) + r.2.countP chain ≤ 1)
    (hrest : ∀ p ∈ rest, Fits r.1 (m.endBy r.2 p))
    (hstarted : ∀ op ∈ r.2, Fits r.1 (m.start op)) : Chained chain Fits (m.put rest r) := by
  constructor
  · unfold Rules.put
    dsimp only
    rw [List.countP_append, List.countP_map, List.countP_map]
    have hend : (fun p : Pending ω ρ ↦ chain p.op) ∘ m.endBy r.2 = fun p ↦ chain p.op := by
      funext p
      rw [Function.comp_apply, op_endBy]
    rw [hend]
    exact hone
  · intro p hp
    rcases List.mem_append.mp hp with hp | hp
    · obtain ⟨q, hq, rfl⟩ := List.mem_map.mp hp
      exact hrest q hq
    · obtain ⟨op, hop, rfl⟩ := List.mem_map.mp hp
      exact hstarted op hop

/-- The operations of the chain beside one that is taken out. -/
theorem countP_erase (chain : ω → Bool) {pending : List (Pending ω ρ)} {p : Pending ω ρ}
    (hp : p ∈ pending) :
    (pending.erase p).countP (fun q ↦ chain q.op) + (if chain p.op = true then 1 else 0) =
      pending.countP (fun q ↦ chain q.op) := by
  rw [(List.perm_cons_erase hp).countP_eq, List.countP_cons]

/-- Beside an operation of the chain there is none. -/
theorem Chained.not_chain_of_mem_erase (hs : Chained chain Fits s) {p q : Pending ω ρ}
    (hp : p ∈ s.pending) (hchain : chain p.op = true) (hq : q ∈ s.pending.erase p) :
    chain q.op = false := by
  have hcount := countP_erase chain hp
  rw [if_pos hchain] at hcount
  have hnone : (s.pending.erase p).countP (fun q ↦ chain q.op) = 0 := by
    have := hs.one
    omega
  exact Bool.eq_false_iff.mpr (List.countP_eq_zero.mp hnone q hq)

/-- Two pending operations of the chain are the same. -/
theorem Chained.eq_of_chain (hs : Chained chain Fits s) {p q : Pending ω ρ}
    (hp : p ∈ s.pending) (hpchain : chain p.op = true) (hq : q ∈ s.pending)
    (hqchain : chain q.op = true) : q = p := by
  by_contra hne
  have hmem := (List.mem_erase_of_ne hne).mpr hq
  rw [hs.not_chain_of_mem_erase hp hpchain hmem] at hqchain
  cases hqchain

/-- A result moves an operation to the end of the queue. -/
theorem step_settle {op : ω} {result : ρ} (hs : step h m s (.settle op result) = some s') :
    { op := op } ∈ s.pending ∧ s' = { s with
      pending := s.pending.erase { op := op } ++ [{ op := op, result := some result }] } := by
  unfold step at hs
  dsimp only at hs
  split at hs
  · next hm => exact ⟨hm, (Option.some.inj hs).symm⟩
  · cases hs

/-- A handler runs once, with the result its operation has. -/
theorem step_handle {op : ω} {result : ρ} (hs : step h m s (.handle op result) = some s') :
    { op := op, result := some result } ∈ s.pending ∧
      ∃ r, h.complete s.object op result = some r ∧
        s' = m.put (s.pending.erase { op := op, result := some result }) r := by
  unfold step at hs
  dsimp only at hs
  split at hs
  · next hm =>
    obtain ⟨r, hr, rfl⟩ := Option.map_eq_some_iff.mp hs
    exact ⟨hm, r, hr, rfl⟩
  · cases hs

/-- A notification comes while a read is in progress. -/
theorem step_notify {n : ν} (hs : step h m s (.notify n) = some s') :
    (∃ p ∈ s.pending, p.result = none ∧ h.reads p.op = true) ∧
      ∃ r, h.notify s.object n = some r ∧ s' = m.put s.pending r := by
  unfold step at hs
  dsimp only at hs
  split at hs
  · next hread =>
    obtain ⟨p, hp, hread⟩ := List.any_eq_true.mp hread
    rw [Bool.and_eq_true, Option.isNone_iff_eq_none] at hread
    obtain ⟨r, hr, rfl⟩ := Option.map_eq_some_iff.mp hs
    exact ⟨⟨p, hp, hread⟩, r, hr, rfl⟩
  · cases hs

/-- To get a result keeps the chain. -/
theorem Chained.settle {op : ω} {result : ρ} (hs : Chained chain Fits s)
    (hsettle : Fits s.object { op := op } → Fits s.object { op := op, result := some result })
    (hstep : step h m s (.settle op result) = some s') :
    s'.object = s.object ∧ Chained chain Fits s' := by
  obtain ⟨hm, rfl⟩ := step_settle hstep
  refine ⟨rfl, ?_, ?_⟩
  · dsimp only
    rw [List.countP_append, List.countP_singleton, countP_erase chain hm]
    exact hs.one
  · intro p hp
    rcases List.mem_append.mp hp with hp | hp
    · exact hs.fits p (List.mem_of_mem_erase hp)
    · rw [List.mem_singleton.mp hp]
      exact hsettle (hs.fits _ hm)

end KeepMyJournal.Base.Queued
