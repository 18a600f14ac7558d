import KeepMyJournal.Common.WatchService
import KeepMyJournal.ProgressTasks.Watch

/-!
# The progress service

The functions the D-Bus adaptor of the progress service calls,
`progress_tasks/src/progress_based_task.cpp:186–243` and
`progress_tasks/include/dbus/progress_task_adaptor.hpp`. A watch is built from the instruments
its exchange has when it is scheduled.
-/

namespace KeepMyJournal.ProgressTasks

open KeepMyJournal.Base KeepMyJournal.Common

/-- `schedule_new_progress_task_impl`. -/
def scheduleNewProgressTaskImpl (uniqueInstruments : InstrumentExchangeSet)
    (globalTaskList : TaskList ProgressWatch) (taskInfo : ScheduledPriceTask)
    (h : taskInfo.percentProp.isSome) : Bool × TaskList ProgressWatch :=
  let task := ProgressWatch.construct (uniqueInstruments taskInfo.exchange) taskInfo h
  (true, globalTaskList.pushBack taskInfo.userId task.call.1)

/-- `schedule_new_progress_task` of the D-Bus adaptor. -/
def scheduleNewProgressTask (uniqueInstruments : InstrumentExchangeSet)
    (globalTaskList : TaskList ProgressWatch) (task : DbusProgressStruct) :
    Bool × TaskList ProgressWatch :=
  scheduleNewProgressTaskImpl uniqueInstruments globalTaskList (dbusProgressToScheduledTask task)
    rfl

/-- `remove_scheduled_progress_task_impl`. -/
def removeScheduledProgressTaskImpl (globalTaskList : TaskList ProgressWatch)
    (userId taskId : Bytes) : TaskList ProgressWatch :=
  globalTaskList.remove ProgressWatch.task userId taskId

/-- `get_scheduled_tasks_for_user_impl`. -/
def getScheduledTasksForUserImpl (globalTaskList : TaskList ProgressWatch) (userId : Bytes) :
    List DbusProgressStruct :=
  globalTaskList.forUser userId ProgressWatch.dbusTask

/-- `get_all_scheduled_tasks_impl`. -/
def getAllScheduledTasksImpl (globalTaskList : TaskList ProgressWatch) :
    List DbusProgressStruct :=
  globalTaskList.all ProgressWatch.dbusTask

/-! ### The watch as the two threads see it -/

/-- The progress watch; a task arrives with the instruments its constructor finds. -/
def watchClass :
    WatchClass (InstrumentExchangeSet × DbusProgressStruct) ProgressWatch InstrumentSet
      ScheduledProgressTaskResult where
  construct k :=
    let taskInfo := dbusProgressToScheduledTask k.2
    ProgressWatch.construct (k.1 taskInfo.exchange) taskInfo rfl
  task := ProgressWatch.task
  timer := ProgressWatch.periodicTimer
  call := ProgressWatch.call
  tick w instruments :=
    let tick := w.checkPrices instruments
    (tick.watch, tick.result, tick.waits)
  stop := ProgressWatch.stop
  task_call := by
    intro w
    rw [ProgressWatch.call]
    split <;> rfl
  task_tick := by
    intro w instruments
    rw [ProgressWatch.checkPrices_eq]
    dsimp only
    split <;> rfl
  task_stop := fun _ ↦ rfl
  timer_call := by
    intro w
    rw [ProgressWatch.call]
    split <;> simp
  timer_tick := by
    intro w instruments
    rw [ProgressWatch.checkPrices_eq]
    dsimp only
    split
    · simp
    · exact id
  tick_stopped := by
    intro w instruments hstopped
    rw [ProgressWatch.checkPrices_eq]
    dsimp only
    split
    · rfl
    · exact hstopped
  timer_stop := fun _ ↦ rfl

end KeepMyJournal.ProgressTasks
