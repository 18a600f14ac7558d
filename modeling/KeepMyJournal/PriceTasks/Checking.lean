import KeepMyJournal.Common.WatchTimers
import KeepMyJournal.ProgressTasks.Service
import KeepMyJournal.TimeTasks.Watch

/-!
# Which price tasks wait for a check

The watches of the progress and of the time service and the timers they wait on, over the whole
life of a service. Whether a wait that is there ends in a check depends on the thread of the
`io_context`, which is started once and ends with the last wait; nothing is said of it here.
-/

namespace KeepMyJournal.PriceTasks

open KeepMyJournal.Base KeepMyJournal.Base.Transition KeepMyJournal.Common

/-- A progress watch waits until it has no snapshots left. -/
theorem rearms_progress :
    ProgressTasks.watchClass.Rearms fun w ↦ w.snapshots = [] where
  schedule _ := rfl
  tick w instruments htimer := by
    have htimer : w.periodicTimer = true := htimer
    by_cases hleft : (w.checkPrices instruments).watch.snapshots = []
    · refine .inr ⟨?_, hleft⟩
      have hends : (w.checkPrices instruments).watch.periodicTimer = false := by
        rw [ProgressTasks.ProgressWatch.snapshots_checkPrices] at hleft
        rw [ProgressTasks.ProgressWatch.checkPrices_eq]
        dsimp only
        rw [if_pos (List.isEmpty_iff.mpr hleft)]
        rfl
      exact hends
    · exact .inl ((ProgressTasks.ProgressWatch.checkPrices_waits hleft).2.trans htimer)

/-- A time watch waits until it is removed. -/
theorem rearms_time : TimeTasks.watchClass.Rearms fun _ ↦ False where
  schedule _ := rfl
  tick _ _ htimer := .inl htimer

/-- In both services, after every run: a watch that holds its timer is listed under its user and
has one wait or one queued handler, never two; one that does not hold it waits no more; and a
watch that is listed, once, holds its timer, or is a progress watch that has reported all its
tokens. -/
theorem checked_of_run :
    (∀ events s, run (WatchService.step ProgressTasks.watchClass) {} events = some s →
      s.Checked ProgressTasks.watchClass fun w ↦ w.snapshots = []) ∧
    (∀ events s, run (WatchService.step TimeTasks.watchClass) {} events = some s →
      s.Checked TimeTasks.watchClass fun _ ↦ False) :=
  ⟨fun _ _ hrun ↦ WatchService.checked_run rearms_progress hrun,
    fun _ _ hrun ↦ WatchService.checked_run rearms_time hrun⟩

/-- A task of a user, fetched every minute. -/
private def everyMinute (taskId : Bytes) : DbusTimeTask :=
  { processAssignedId := 1, time := 60000, durationEnum := 1,
    tradeTypeEnum := TradeType.spot.toInt32, exchangeEnum := Exchange.binance.toInt32,
    taskStatusEnum := 0, taskId := taskId, userId := [117], tokens := [] }

/-- Two tasks are scheduled, the first is removed after its wait has expired, and its handler
runs. -/
private def removedLate : List (WatchEvent DbusTimeTask InstrumentSet) :=
  [.schedule (everyMinute [1]), .schedule (everyMinute [2]), .expire 0, .removeCall [117] [1],
    .removeRound, .removeReturn, .runHandler { owner := 0, aborted := false } .empty]

theorem checked_of_run_removedLate : ∃ s,
    run (WatchService.step TimeTasks.watchClass) {} removedLate = some s ∧
      s.globalTaskList.tasksOf [117] = [1] ∧ s.timers = { waits := [1], queue := [] } ∧
      s.Checked TimeTasks.watchClass fun _ ↦ False := by
  have hrun : (run (WatchService.step TimeTasks.watchClass) {} removedLate).map
      (fun s ↦ (s.globalTaskList.tasksOf [117], s.timers)) =
      some ([1], { waits := [1], queue := [] }) := by decide +kernel
  obtain ⟨s, hs, hends⟩ := Option.map_eq_some_iff.mp hrun
  exact ⟨s, hs, congrArg Prod.fst hends, congrArg Prod.snd hends, checked_of_run.2 _ _ hs⟩

end KeepMyJournal.PriceTasks
