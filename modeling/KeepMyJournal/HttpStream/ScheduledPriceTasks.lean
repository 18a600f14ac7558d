import KeepMyJournal.Base.Throwing
import KeepMyJournal.HttpStream.TaskCheck

/-!
# Price tasks over D-Bus

`http_stream/src/scheduled_price_tasks.cpp:62–166`. The proxies of the three services are a
parameter: each call is a function of the state behind the bus that returns or throws, and may
have changed that state either way.
-/

namespace KeepMyJournal.HttpStream

open KeepMyJournal.Base KeepMyJournal.Common

/-- `sdbus::Error`. -/
structure SdbusError where
  message : Bytes
  deriving DecidableEq, Repr

/-- A computation that may throw an `sdbus::Error`. -/
abbrev Dbus (σ α : Type) := Throwing SdbusError σ α

/-- `time_dbus_client()`, `progress_dbus_client()` and `telegram_dbus_client()`. -/
structure DbusProxies (σ : Type) where
  scheduleNewTimeTask : DbusTimeTask → Dbus σ Bool
  removeScheduledTimeTask : Bytes → Bytes → Dbus σ Unit
  getScheduledTimeTasksForUser : Bytes → Dbus σ (List DbusTimeTask)
  getAllScheduledTimeTasks : Dbus σ (List DbusTimeTask)
  scheduleNewProgressTask : DbusProgressStruct → Dbus σ Bool
  removeScheduledProgressTask : Bytes → Bytes → Dbus σ Unit
  getScheduledProgressTasksForUser : Bytes → Dbus σ (List DbusProgressStruct)
  getAllScheduledProgressTasks : Dbus σ (List DbusProgressStruct)
  onAuthorizationCodeRequested : Bytes → Bytes → Dbus σ Unit
  onAuthorizationPasswordRequested : Bytes → Bytes → Dbus σ Unit
  sendNewTelegramText : Int64 → Bytes → Dbus σ Unit

/-- The state behind the bus and the function-local `static uint64_t task_id`. -/
structure HttpProcess (σ : Type) where
  services : σ
  taskId : UInt64 := 0

namespace HttpProcess

variable {σ α : Type}

/-- A D-Bus call changes the state behind the bus only. -/
def call (c : Dbus σ α) : Dbus (HttpProcess σ) α :=
  fun p ↦ ((c p.services).1, { p with services := (c p.services).2 })

/-- `++task_id`. -/
def nextTaskId : Dbus (HttpProcess σ) UInt64 :=
  fun p ↦ (.ok (p.taskId + 1), { p with taskId := p.taskId + 1 })

end HttpProcess

open HttpProcess

variable {σ : Type} (proxies : DbusProxies σ)

/-- `push_progress_based_task_to_wire`. -/
def pushProgressBasedTaskToWire (taskInfo : ScheduledPriceTask) (h : taskInfo.percentProp.isSome) :
    Dbus (HttpProcess σ) Bool :=
  call (proxies.scheduleNewProgressTask (scheduledTaskToDbusProgress taskInfo h))

/-- `push_time_based_task_to_wire`. -/
def pushTimeBasedTaskToWire (taskInfo : ScheduledPriceTask) (h : taskInfo.timeProp.isSome) :
    Dbus (HttpProcess σ) Bool :=
  call (proxies.scheduleNewTimeTask (scheduledTaskToDbusTime taskInfo h))

/-- `stop_scheduled_price_task`. -/
def stopScheduledPriceTask (userId taskId : Bytes) : Dbus (HttpProcess σ) Unit := do
  call (proxies.removeScheduledTimeTask userId taskId)
  call (proxies.removeScheduledProgressTask userId taskId)

/-- The body of the push loop: `result` keeps its value for a task with neither property. -/
def pushTask (result : Bool) (task : ScheduledPriceTask) : Dbus (HttpProcess σ) Bool :=
  if h : task.percentProp.isSome then pushProgressBasedTaskToWire proxies task h
  else if h : task.timeProp.isSome then pushTimeBasedTaskToWire proxies task h
  else pure result

/-- The push loop: every task gets the next number and is pushed; the tasks that were not
scheduled are collected. -/
def pushTasks (result : Bool) (erredList : List ScheduledPriceTask) :
    List ScheduledPriceTask → Dbus (HttpProcess σ) (List ScheduledPriceTask)
  | [] => pure erredList
  | task :: tasks => do
    let id ← nextTaskId
    let task := { task with processAssignedId := id }
    let result ← pushTask proxies result task
    pushTasks result (if result then erredList else erredList ++ [task]) tasks

/-- The clean-up: every erred task is stopped by its user and task id. -/
def stopErred : List ScheduledPriceTask → Dbus (HttpProcess σ) Unit
  | [] => pure ()
  | task :: tasks => do
    stopScheduledPriceTask proxies task.userId task.taskId
    stopErred tasks

/-- `std::all_of(tasks, passed_valid_task_check)`, which rewrites the tasks it accepts. -/
def checkTasks : List ScheduledPriceTask → Option (List ScheduledPriceTask)
  | [] => some []
  | task :: tasks =>
    match passedValidTaskCheck task with
    | (false, _) => none
    | (true, task) => (checkTasks tasks).map (task :: ·)

/-- `schedule_new_price_tasks`. -/
def scheduleNewPriceTasks (tasks : List ScheduledPriceTask) : Dbus (HttpProcess σ) Bool :=
  match checkTasks tasks with
  | none => pure false
  | some tasks => do
    let erredList ← pushTasks proxies true [] tasks
    stopErred proxies erredList
    pure erredList.isEmpty

/-- `get_price_tasks_for_user`. -/
def getPriceTasksForUser (userID : Bytes) : Dbus (HttpProcess σ) (List ScheduledPriceTask) := do
  let timed ← call (proxies.getScheduledTimeTasksForUser userID)
  let progress ← call (proxies.getScheduledProgressTasksForUser userID)
  pure (timed.map dbusTimeToScheduledTask ++ progress.map dbusProgressToScheduledTask)

/-- `get_price_tasks_for_all`. -/
def getPriceTasksForAll : Dbus (HttpProcess σ) (List ScheduledPriceTask) := do
  let timed ← call proxies.getAllScheduledTimeTasks
  let progress ← call proxies.getAllScheduledProgressTasks
  pure (timed.map dbusTimeToScheduledTask ++ progress.map dbusProgressToScheduledTask)

/-- `send_telegram_registration_code`. -/
def sendTelegramRegistrationCode (mobile code : Bytes) : Dbus (HttpProcess σ) Unit :=
  call (proxies.onAuthorizationCodeRequested mobile code)

/-- `send_telegram_registration_password`. -/
def sendTelegramRegistrationPassword (mobile password : Bytes) : Dbus (HttpProcess σ) Unit :=
  call (proxies.onAuthorizationPasswordRequested mobile password)

/-- `send_new_telegram_text`. -/
def sendNewTelegramText (chatId : Int64) (content : Bytes) : Dbus (HttpProcess σ) Unit :=
  call (proxies.sendNewTelegramText chatId content)

/-! ### The check of a batch -/

/-- A batch is accepted as a whole, in normal form. -/
theorem checkTasks_eq_some {tasks tasks' : List ScheduledPriceTask}
    (h : checkTasks tasks = some tasks') :
    tasks' = tasks.map normalised ∧
      ∀ task ∈ tasks, task.percentProp.isSome ∨ task.timeProp.isSome := by
  induction tasks generalizing tasks' with
  | nil =>
    obtain rfl := Option.some.inj h
    exact ⟨rfl, fun task ht ↦ absurd ht List.not_mem_nil⟩
  | cons task tasks ih =>
    rw [checkTasks] at h
    split at h
    · cases h
    · next task₁ ht =>
      obtain ⟨tasks₁, htasks, rfl⟩ := Option.map_eq_some_iff.mp h
      obtain ⟨rfl, hset⟩ := ih htasks
      obtain ⟨rfl, hone, -⟩ := passedValidTaskCheck_of_true ht
      refine ⟨rfl, ?_⟩
      intro t hm
      rcases List.mem_cons.mp hm with rfl | hm
      · exact hone
      · exact hset t hm

/-- A batch is accepted exactly when each task passes the check. -/
theorem isSome_checkTasks (tasks : List ScheduledPriceTask) :
    (checkTasks tasks).isSome = tasks.all (fun task ↦ (passedValidTaskCheck task).1) := by
  induction tasks with
  | nil => rfl
  | cons task tasks ih =>
    rw [checkTasks, List.all_cons]
    split
    · next h => rw [h]; rfl
    · next h => rw [h, Option.isSome_map, ih, Bool.true_and]

end KeepMyJournal.HttpStream
