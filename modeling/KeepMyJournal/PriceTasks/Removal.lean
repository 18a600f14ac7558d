import KeepMyJournal.ProgressTasks.Service
import KeepMyJournal.TimeTasks.Watch

/-!
# Removing a price task

What the progress and the time service still append to `scheduled_task_results` once
`remove_scheduled_progress_task_impl` or `remove_scheduled_time_task_impl` has returned.
-/

namespace KeepMyJournal.PriceTasks

open KeepMyJournal.Base KeepMyJournal.Common

/-- In both services: in every run in which no removal returns while an expired handler of a
watch it removes is queued, no result of a removed task is appended. -/
theorem noLateResult_of_clean
    (progress : List (WatchEvent (InstrumentExchangeSet × DbusProgressStruct) InstrumentSet))
    (time : List (WatchEvent DbusTimeTask InstrumentSet)) :
    (Transition.Along (WatchService.step ProgressTasks.watchClass)
        (WatchService.ReturnsClean ProgressTasks.watchClass) {} progress →
      Transition.Along (WatchService.step ProgressTasks.watchClass)
        WatchService.NoLateResult {} progress) ∧
    (Transition.Along (WatchService.step TimeTasks.watchClass)
        (WatchService.ReturnsClean TimeTasks.watchClass) {} time →
      Transition.Along (WatchService.step TimeTasks.watchClass)
        WatchService.NoLateResult {} time) :=
  ⟨WatchService.noLateResult_of_returnsClean ProgressTasks.watchClass,
    WatchService.noLateResult_of_returnsClean TimeTasks.watchClass⟩

/-- One instrument at price 100. -/
private def cache : InstrumentSet :=
  UniqueElements.empty.insert
    { name := bytes "BTC-USDT", currentPrice := 100, open24h := 90, tradeType := .spot }

/-- A task that watches it for a rise. -/
private def progressTask : DbusProgressStruct :=
  { processAssignedId := 1, percentage := 10, directionEnum := 0,
    tradeTypeEnum := TradeType.spot.toInt32, exchangeEnum := Exchange.binance.toInt32,
    taskStatusEnum := 0, taskId := bytes "t1", userId := bytes "u1",
    tokens := [bytes "BTC-USDT"] }

/-- A task that fetches its price every minute. -/
private def timeTask : DbusTimeTask :=
  { processAssignedId := 1, time := 60000, durationEnum := 1,
    tradeTypeEnum := TradeType.spot.toInt32, exchangeEnum := Exchange.binance.toInt32,
    taskStatusEnum := 0, taskId := bytes "t1", userId := bytes "u1",
    tokens := [bytes "BTC-USDT"] }

/-- A task is scheduled and removed; `expired` says whether its first wait has expired by then.
Its handler runs after the removal. -/
private def removal {κ : Type} (k : κ) (expired : Bool) : List (WatchEvent κ InstrumentSet) :=
  .schedule k :: (if expired then [.expire 0] else []) ++
    [.removeCall (bytes "u1") (bytes "t1"), .removeRound, .removeReturn,
      .runHandler { owner := 0, aborted := !expired } cache]

/-- Removed while its wait has not expired, a task stays silent. -/
theorem noLateResult_waiting :
    Transition.Along (WatchService.step ProgressTasks.watchClass) WatchService.NoLateResult {}
        (removal (fun _ ↦ cache, progressTask) false) ∧
      Transition.Along (WatchService.step TimeTasks.watchClass) WatchService.NoLateResult {}
        (removal timeTask false) :=
  ⟨(noLateResult_of_clean _ []).1 (by decide +kernel),
    (noLateResult_of_clean [] _).2 (by decide +kernel)⟩

/-- Removed between the expiry and the handler, a task still sends a result. -/
theorem lateResult_expired :
    ¬Transition.Along (WatchService.step ProgressTasks.watchClass) WatchService.NoLateResult {}
        (removal (fun _ ↦ cache, progressTask) true) ∧
      ¬Transition.Along (WatchService.step TimeTasks.watchClass) WatchService.NoLateResult {}
        (removal timeTask true) := by
  decide +kernel

end KeepMyJournal.PriceTasks
