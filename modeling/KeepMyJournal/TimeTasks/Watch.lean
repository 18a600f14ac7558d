import KeepMyJournal.Common.WatchService

/-!
# The time watch and its service

`time_based_watch_price_impl_t` and the functions the D-Bus adaptor of the time service calls,
`time_tasks/src/time_based_watch.cpp` and `time_tasks/include/dbus/time_task_adaptor.hpp`.
-/

namespace KeepMyJournal.TimeTasks

open KeepMyJournal.Base KeepMyJournal.Common

/-- `scheduled_time_task_result_t`: one notification. -/
structure ScheduledTimeTaskResult where
  task : DbusTimeTask
  tokens : List DbusInstrumentType
  deriving DecidableEq, Repr

/-- `time_based_watch_price_impl_t`; `timer` says that `m_timer` holds a timer. -/
structure TimeWatch where
  task : ScheduledPriceTask
  timed : task.timeProp.isSome
  timer : Bool

namespace TimeWatch

/-- The constructor. -/
def construct (task : ScheduledPriceTask) (h : task.timeProp.isSome) : TimeWatch :=
  { task := task, timed := h, timer := false }

/-- `m_dbusTask`. -/
def dbusTask (w : TimeWatch) : DbusTimeTask := scheduledTaskToDbusTime w.task w.timed

/-- `next_timer`: whether a wait is started on the timer. -/
def nextTimer (w : TimeWatch) : Bool := w.timer

/-- `call`: the watch with its timer, and whether a first wait is started. -/
def call (w : TimeWatch) : TimeWatch × Bool :=
  if w.timer then (w, false)
  else
    let w := { w with timer := true }
    (w, w.nextTimer)

/-- `stop`. -/
def stop (w : TimeWatch) : TimeWatch := { w with timer := false }

/-- The tokens `fetch_prices` collects from the instruments of the task's exchange. -/
def fetchTokens (w : TimeWatch) (instruments : InstrumentSet) : List DbusInstrumentType :=
  w.task.tokens.filterMap (fun instrument ↦
    (instruments.toList.find?
      (fun instr ↦ instr.tradeType == w.task.tradeType && instr.name == instrument)).map
      (fun instr ↦ { name := instr.name, price := instr.currentPrice, open24h := instr.open24h }))

/-- `fetch_prices`: the notification sent, and whether a wait has been started again. -/
def fetchPrices (w : TimeWatch) (instruments : InstrumentSet) :
    Option ScheduledTimeTaskResult × Bool :=
  let tokens := w.fetchTokens instruments
  let result := if tokens.isEmpty then none else some { task := w.dbusTask, tokens := tokens }
  (result, w.nextTimer)

end TimeWatch

/-! ### The service -/

/-- `schedule_new_time_task_impl`, called with the task the D-Bus adaptor has converted. -/
def scheduleNewTimeTaskImpl (globalTaskList : TaskList TimeWatch) (taskInfo : ScheduledPriceTask)
    (h : taskInfo.timeProp.isSome) : Bool × TaskList TimeWatch :=
  (true, globalTaskList.pushBack taskInfo.userId (TimeWatch.construct taskInfo h).call.1)

/-- `schedule_new_time_task` of the D-Bus adaptor. -/
def scheduleNewTimeTask (globalTaskList : TaskList TimeWatch) (task : DbusTimeTask) :
    Bool × TaskList TimeWatch :=
  scheduleNewTimeTaskImpl globalTaskList (dbusTimeToScheduledTask task) rfl

/-- `remove_scheduled_time_task_impl`. -/
def removeScheduledTimeTaskImpl (globalTaskList : TaskList TimeWatch) (userId taskId : Bytes) :
    TaskList TimeWatch :=
  globalTaskList.remove TimeWatch.task userId taskId

/-- `get_scheduled_tasks_for_user_impl`. -/
def getScheduledTasksForUserImpl (globalTaskList : TaskList TimeWatch) (userId : Bytes) :
    List DbusTimeTask :=
  globalTaskList.forUser userId TimeWatch.dbusTask

/-- `get_all_scheduled_tasks_impl`. -/
def getAllScheduledTasksImpl (globalTaskList : TaskList TimeWatch) : List DbusTimeTask :=
  globalTaskList.all TimeWatch.dbusTask

/-! ### The watch as the two threads see it -/

/-- The time watch. -/
def watchClass : WatchClass DbusTimeTask TimeWatch InstrumentSet ScheduledTimeTaskResult where
  construct k := TimeWatch.construct (dbusTimeToScheduledTask k) rfl
  task := TimeWatch.task
  timer := TimeWatch.timer
  call := TimeWatch.call
  tick w instruments :=
    let (result, waits) := w.fetchPrices instruments
    (w, result, waits)
  stop := TimeWatch.stop
  task_call := by
    intro w
    rw [TimeWatch.call]
    split <;> rfl
  task_tick := fun _ _ ↦ rfl
  task_stop := fun _ ↦ rfl
  timer_call := by
    intro w
    rw [TimeWatch.call]
    split <;> simp
  timer_tick := fun _ _ ↦ id
  tick_stopped := fun _ _ ↦ id
  timer_stop := fun _ ↦ rfl

end KeepMyJournal.TimeTasks
