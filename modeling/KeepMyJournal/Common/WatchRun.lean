import KeepMyJournal.Common.WatchService

/-!
# One watch from its first wait on

A watch as its own timer and its removal see it, from `call` to its last tick
(`progress_tasks/src/progress_based_task.cpp:79–142`,
`time_tasks/src/time_based_watch.cpp:51–112`). The caches a run lists are the states of
`m_instruments`, the instruments of the task's exchange, at the successive ticks.
-/

namespace KeepMyJournal.Common

open KeepMyJournal.Base

/-- A watch between two steps: `waits` says that a handler of its timer is still to run,
`results` are the notifications sent so far. -/
structure WatchRun (ω ρ : Type) where
  watch : ω
  waits : Bool
  results : List ρ := []
  removed : Bool := false

/-- A tick of the timer, or a removal; `expired` says that the wait has expired before it, so
that its handler is queued already. -/
inductive WatchRunEvent (ι : Type) where
  | tick (instruments : ι)
  | stop (expired : Bool)

namespace WatchRun

variable {κ ω ι ρ : Type} (C : WatchClass κ ω ι ρ)

/-- The watch after its `call`. -/
def start (w : ω) : WatchRun ω ρ :=
  let (watch, waits) := C.call w
  { watch := watch, waits := waits }

/-- One step. The handler runs only when a wait has been started for it. -/
def step (s : WatchRun ω ρ) : WatchRunEvent ι → Option (WatchRun ω ρ)
  | .tick instruments =>
    if s.waits then
      let (watch, result, waits) := C.tick s.watch instruments
      some { s with watch := watch, waits := waits, results := s.results ++ result.toList }
    else none
  | .stop expired =>
    some { s with watch := C.stop s.watch, waits := s.waits && expired, removed := true }

variable {C} {s s' : WatchRun ω ρ}

/-- A tick ends a wait, and does to the watch what its handler does. -/
theorem step_tick {instruments : ι} (h : step C s (.tick instruments) = some s') :
    s.waits = true ∧
      s' = { s with
        watch := (C.tick s.watch instruments).1
        waits := (C.tick s.watch instruments).2.2
        results := s.results ++ (C.tick s.watch instruments).2.1.toList } := by
  unfold step at h
  dsimp only at h
  split at h
  · next hw => exact ⟨hw, (Option.some.inj h).symm⟩
  · cases h

/-- A removal stops the watch. -/
theorem step_stop {expired : Bool} (h : step C s (.stop expired) = some s') :
    s' = { s with watch := C.stop s.watch, waits := s.waits && expired, removed := true } :=
  (Option.some.inj h).symm

end WatchRun

end KeepMyJournal.Common
