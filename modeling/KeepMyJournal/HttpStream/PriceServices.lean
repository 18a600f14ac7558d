import KeepMyJournal.HttpStream.ScheduledPriceTasks
import KeepMyJournal.ProgressTasks.Service
import KeepMyJournal.TimeTasks.Watch

/-!
# The two price services behind the bus

The D-Bus proxies of `ScheduledPriceTasks`, instantiated with the time and the progress
service. Each schedule call has one of three outcomes, taken from an environment: the service
enters the task and answers, or it refuses, or the call throws. The other calls return. What a
batch leaves in the services is then a function of the outcomes of its pushes.
-/

namespace KeepMyJournal.HttpStream

open KeepMyJournal.Base KeepMyJournal.Common KeepMyJournal.TimeTasks KeepMyJournal.ProgressTasks

/-- The services that keep price tasks. -/
inductive PriceService where
  | time | progress
  deriving DecidableEq, Repr

/-- How one schedule call ends. -/
inductive PushOutcome where
  | scheduled
  | refused
  | thrown (error : SdbusError)
  deriving DecidableEq, Repr

/-- The outcome of the `n`-th schedule call, and the instruments cached when it arrives. -/
structure Environment where
  outcome : Nat → PushOutcome
  cache : Nat → InstrumentExchangeSet

/-- The task lists of both services, and how many schedule calls there have been. -/
structure Services where
  time : TaskList TimeWatch
  progress : TaskList ProgressWatch
  pushes : Nat := 0

namespace Services

/-- One schedule call; `enter` is what the service does with it. -/
def push (env : Environment) (enter : Services → Bool × Services) : Dbus Services Bool := fun s ↦
  let s' := { s with pushes := s.pushes + 1 }
  match env.outcome s.pushes with
  | .scheduled => (.ok (enter s').1, (enter s').2)
  | .refused => (.ok false, s')
  | .thrown error => (.error error, s')

/-- The time service's part of a schedule call. -/
def enterTime (task : DbusTimeTask) (s : Services) : Bool × Services :=
  let r := scheduleNewTimeTask s.time task
  (r.1, { s with time := r.2 })

/-- The progress service's part of a schedule call. -/
def enterProgress (cache : InstrumentExchangeSet) (task : DbusProgressStruct) (s : Services) :
    Bool × Services :=
  let r := scheduleNewProgressTask cache s.progress task
  (r.1, { s with progress := r.2 })

/-- The proxies of the http server, with the services behind them. -/
def proxies (env : Environment) : DbusProxies Services where
  scheduleNewTimeTask task := push env (enterTime task)
  removeScheduledTimeTask userId taskId := fun s ↦
    (.ok (), { s with time := removeScheduledTimeTaskImpl s.time userId taskId })
  getScheduledTimeTasksForUser userId := fun s ↦
    (.ok (TimeTasks.getScheduledTasksForUserImpl s.time userId), s)
  getAllScheduledTimeTasks := fun s ↦ (.ok (TimeTasks.getAllScheduledTasksImpl s.time), s)
  scheduleNewProgressTask task := fun s ↦
    push env (enterProgress (env.cache s.pushes) task) s
  removeScheduledProgressTask userId taskId := fun s ↦
    (.ok (), { s with progress := removeScheduledProgressTaskImpl s.progress userId taskId })
  getScheduledProgressTasksForUser userId := fun s ↦
    (.ok (ProgressTasks.getScheduledTasksForUserImpl s.progress userId), s)
  getAllScheduledProgressTasks := fun s ↦
    (.ok (ProgressTasks.getAllScheduledTasksImpl s.progress), s)
  onAuthorizationCodeRequested _ _ := pure ()
  onAuthorizationPasswordRequested _ _ := pure ()
  sendNewTelegramText _ _ := pure ()

/-- The tasks a service keeps for a user, oldest first. -/
def tasks (s : Services) : PriceService → Bytes → List ScheduledPriceTask
  | .time, userId => (s.time.tasksOf userId).map TimeWatch.task
  | .progress, userId => (s.progress.tasksOf userId).map ProgressWatch.task

/-- Both services keep each task under the user it names. -/
structure Owned (s : Services) : Prop where
  time : s.time.Owned TimeWatch.task
  progress : s.progress.Owned ProgressWatch.task

end Services

/-- The service a task is pushed to. -/
def serviceOf (task : ScheduledPriceTask) : PriceService :=
  if task.percentProp.isSome then .progress else .time

/-- What the D-Bus struct of the time service carries of a task. -/
def timePart (task : ScheduledPriceTask) : ScheduledPriceTask := { task with percentProp := none }

/-- What the D-Bus struct of the progress service carries of a task. -/
def progressPart (task : ScheduledPriceTask) : ScheduledPriceTask := { task with timeProp := none }

/-- A task as it arrives in its service. -/
def received (task : ScheduledPriceTask) : ScheduledPriceTask :=
  if task.percentProp.isSome then progressPart task else timePart task

@[simp] theorem received_userId (task : ScheduledPriceTask) :
    (received task).userId = task.userId := by
  unfold received
  split <;> rfl

@[simp] theorem received_taskId (task : ScheduledPriceTask) :
    (received task).taskId = task.taskId := by
  unfold received
  split <;> rfl

/-- A time task is read back as it was pushed. -/
theorem timePart_received {task : ScheduledPriceTask} (h : serviceOf task = .time) :
    timePart (received task) = task := by
  cases hp : task.percentProp with
  | none =>
    rw [received, hp, if_neg (by simp)]
    change { task with percentProp := none } = task
    rw [← hp]
  | some prop =>
    rw [serviceOf, hp, Option.isSome_some, if_pos rfl] at h
    cases h

/-- A progress task without an interval is read back as it was pushed. -/
theorem progressPart_received {task : ScheduledPriceTask} (h : serviceOf task = .progress)
    (hone : task.percentProp = none ∨ task.timeProp = none) :
    progressPart (received task) = task := by
  cases hp : task.percentProp with
  | none =>
    rw [serviceOf, hp, if_neg (by simp)] at h
    cases h
  | some prop =>
    have ht : task.timeProp = none := hone.resolve_left (by rw [hp]; simp)
    rw [received, hp, Option.isSome_some, if_pos rfl]
    change { task with timeProp := none } = task
    rw [← ht]

/-! ### Requests -/

/-- The tasks of one add request, as `add_new_pricing_tasks` builds them
(`session.cpp:564–628`): under one user and task id, each with an interval or a percentage,
never both. -/
structure AddRequest where
  userId : Bytes
  taskId : Bytes
  tasks : List ScheduledPriceTask
  owned : ∀ task ∈ tasks, task.userId = userId ∧ task.taskId = taskId
  oneKind : ∀ task ∈ tasks, task.percentProp = none ∨ task.timeProp = none

/-- The batch passes the check of its tasks. -/
def AddRequest.accepted (r : AddRequest) : Bool :=
  r.tasks.all (fun task ↦ (passedValidTaskCheck task).1)

/-- What was contracted by a task: all of it but the number the server assigns. -/
def contract (task : ScheduledPriceTask) : ScheduledPriceTask :=
  { task with processAssignedId := 0 }

/-- A batch is checked as a whole. -/
theorem checkTasks_addRequest (r : AddRequest) :
    checkTasks r.tasks = if r.accepted then some (r.tasks.map normalised) else none := by
  have hsome := isSome_checkTasks r.tasks
  cases hc : checkTasks r.tasks with
  | none =>
    rw [hc] at hsome
    rw [AddRequest.accepted, ← hsome]
    rfl
  | some tasks =>
    rw [hc] at hsome
    rw [AddRequest.accepted, ← hsome, (checkTasks_eq_some hc).1]
    rfl

/-! ### One push -/

/-- Entering a task appends it to its user's list in its service, and owners stay right. -/
structure Entered (task : ScheduledPriceTask) (s s' : Services) : Prop where
  tasks : ∀ svc u, s'.tasks svc u =
    s.tasks svc u ++ if serviceOf task = svc ∧ task.userId = u then [received task] else []
  owned : s.Owned → s'.Owned

private theorem entered_progress (cache : InstrumentExchangeSet) {task : ScheduledPriceTask}
    (h : task.percentProp.isSome) (s : Services) :
    Entered task s (Services.enterProgress cache (scheduledTaskToDbusProgress task h) s).2 := by
  have hreceived : received task =
      dbusProgressToScheduledTask (scheduledTaskToDbusProgress task h) := by
    rw [dbusProgressToScheduledTask_scheduledTaskToDbusProgress, received, if_pos h, progressPart]
  have hservice : serviceOf task = .progress := if_pos h
  constructor
  · intro svc u
    rw [hservice]
    cases svc with
    | time =>
      rw [if_neg (by simp), List.append_nil]
      rfl
    | progress =>
      simp only [Services.enterProgress, scheduleNewProgressTask, scheduleNewProgressTaskImpl,
        Services.tasks, TaskList.tasksOf_pushBack, ← hreceived, received_userId, true_and]
      by_cases hu : task.userId = u
      · rw [if_pos hu.symm, if_pos hu, List.map_append]
        rfl
      · rw [if_neg (Ne.symm hu), if_neg hu, List.append_nil]
  · intro ho
    exact ⟨ho.time, TaskList.Owned.pushBack _ ho.progress rfl⟩

private theorem entered_time {task : ScheduledPriceTask} (h : task.timeProp.isSome)
    (hp : ¬task.percentProp.isSome) (s : Services) :
    Entered task s (Services.enterTime (scheduledTaskToDbusTime task h) s).2 := by
  have hreceived : received task = dbusTimeToScheduledTask (scheduledTaskToDbusTime task h) := by
    rw [dbusTimeToScheduledTask_scheduledTaskToDbusTime, received, if_neg hp, timePart]
  have hservice : serviceOf task = .time := if_neg hp
  constructor
  · intro svc u
    rw [hservice]
    cases svc with
    | progress =>
      rw [if_neg (by simp), List.append_nil]
      rfl
    | time =>
      simp only [Services.enterTime, scheduleNewTimeTask, scheduleNewTimeTaskImpl,
        Services.tasks, TaskList.tasksOf_pushBack, ← hreceived, received_userId, true_and]
      by_cases hu : task.userId = u
      · rw [if_pos hu.symm, if_pos hu, List.map_append]
        rfl
      · rw [if_neg (Ne.symm hu), if_neg hu, List.append_nil]
  · intro ho
    exact ⟨TaskList.Owned.pushBack _ ho.time rfl, ho.progress⟩

/-- What one push answers, and what it does to the process. -/
theorem pushTask_outcome (env : Environment) (result : Bool) (task : ScheduledPriceTask)
    (hset : task.percentProp.isSome ∨ task.timeProp.isSome) (p : HttpProcess Services) :
    ∃ s', pushTask (Services.proxies env) result task p =
        (match env.outcome p.services.pushes with
          | .scheduled => .ok true
          | .refused => .ok false
          | .thrown error => .error error, { p with services := s' }) ∧
      s'.pushes = p.services.pushes + 1 ∧
      if env.outcome p.services.pushes = .scheduled then Entered task p.services s'
      else s' = { p.services with pushes := p.services.pushes + 1 } := by
  unfold pushTask
  by_cases hp : task.percentProp.isSome
  · rw [dif_pos hp]
    simp only [pushProgressBasedTaskToWire, HttpProcess.call, Services.proxies, Services.push]
    cases env.outcome p.services.pushes with
    | scheduled =>
      refine ⟨_, rfl, rfl, ?_⟩
      rw [if_pos rfl]
      have he := entered_progress (env.cache p.services.pushes) hp
        { p.services with pushes := p.services.pushes + 1 }
      exact ⟨he.tasks, fun ho ↦ he.owned ⟨ho.time, ho.progress⟩⟩
    | refused => exact ⟨_, rfl, rfl, by rw [if_neg (by simp)]⟩
    | thrown error => exact ⟨_, rfl, rfl, by rw [if_neg (by simp)]⟩
  · have ht := hset.resolve_left hp
    rw [dif_neg hp, dif_pos ht]
    simp only [pushTimeBasedTaskToWire, HttpProcess.call, Services.proxies, Services.push]
    cases env.outcome p.services.pushes with
    | scheduled =>
      refine ⟨_, rfl, rfl, ?_⟩
      rw [if_pos rfl]
      have he := entered_time ht hp { p.services with pushes := p.services.pushes + 1 }
      exact ⟨he.tasks, fun ho ↦ he.owned ⟨ho.time, ho.progress⟩⟩
    | refused => exact ⟨_, rfl, rfl, by rw [if_neg (by simp)]⟩
    | thrown error => exact ⟨_, rfl, rfl, by rw [if_neg (by simp)]⟩

/-! ### A batch -/

/-- The tasks of a batch as the push loop numbers them, each with the outcome of its push. -/
def attempts (env : Environment) (counter : UInt64) (calls : Nat) :
    List ScheduledPriceTask → List (ScheduledPriceTask × PushOutcome)
  | [] => []
  | task :: tasks =>
    ({ task with processAssignedId := counter + 1 }, env.outcome calls) ::
      attempts env (counter + 1) (calls + 1) tasks

/-- The outcomes of `n` successive schedule calls. -/
def Environment.outcomes (env : Environment) (calls n : Nat) : List PushOutcome :=
  (List.range' calls n).map env.outcome

theorem map_snd_attempts (env : Environment) (counter : UInt64) (calls : Nat)
    (tasks : List ScheduledPriceTask) :
    (attempts env counter calls tasks).map Prod.snd = env.outcomes calls tasks.length := by
  induction tasks generalizing counter calls with
  | nil => rfl
  | cons task tasks ih =>
    change _ :: (attempts env _ _ tasks).map Prod.snd = _
    rw [ih]
    rfl

theorem map_fst_attempts (env : Environment) (counter : UInt64) (calls : Nat)
    (tasks : List ScheduledPriceTask) :
    (attempts env counter calls tasks).map (fun a ↦ contract a.1) = tasks.map contract := by
  induction tasks generalizing counter calls with
  | nil => rfl
  | cons task tasks ih =>
    change _ :: (attempts env _ _ tasks).map _ = _
    rw [ih]
    rfl

/-- The tasks that are scheduled before a push throws. -/
def scheduledOf : List (ScheduledPriceTask × PushOutcome) → List ScheduledPriceTask
  | [] => []
  | (task, .scheduled) :: rest => task :: scheduledOf rest
  | (_, .refused) :: rest => scheduledOf rest
  | (_, .thrown _) :: _ => []

/-- How the push loop ends: with the tasks that were refused, or with what a push threw. -/
def erredOf (erredList : List ScheduledPriceTask) :
    List (ScheduledPriceTask × PushOutcome) → Except SdbusError (List ScheduledPriceTask)
  | [] => .ok erredList
  | (_, .scheduled) :: rest => erredOf erredList rest
  | (task, .refused) :: rest => erredOf (erredList ++ [task]) rest
  | (_, .thrown error) :: _ => .error error

/-- What a list of newly scheduled tasks adds to one user's list in one service. -/
def addedTo (svc : PriceService) (userId : Bytes) (tasks : List ScheduledPriceTask) :
    List ScheduledPriceTask :=
  (tasks.filter (fun task ↦ serviceOf task = svc ∧ task.userId = userId)).map received

private theorem addedTo_cons (svc : PriceService) (u : Bytes) (task : ScheduledPriceTask)
    (tasks : List ScheduledPriceTask) :
    addedTo svc u (task :: tasks) =
      (if serviceOf task = svc ∧ task.userId = u then [received task] else []) ++
        addedTo svc u tasks := by
  unfold addedTo
  rw [List.filter_cons]
  split
  · next h => rw [if_pos (of_decide_eq_true h)]; rfl
  · next h => rw [if_neg (fun hd ↦ h (decide_eq_true hd))]; rfl

/-- The push loop: its result, the tasks it adds, the numbers it uses up, and the owners. -/
theorem pushTasks_spec (env : Environment) (result : Bool) (erredList : List ScheduledPriceTask)
    {tasks : List ScheduledPriceTask}
    (hset : ∀ task ∈ tasks, task.percentProp.isSome ∨ task.timeProp.isSome)
    (p : HttpProcess Services) :
    let pushed := attempts env p.taskId p.services.pushes tasks
    let r := pushTasks (Services.proxies env) result erredList tasks p
    r.1 = erredOf erredList pushed ∧
      (∀ svc u, r.2.services.tasks svc u =
        p.services.tasks svc u ++ addedTo svc u (scheduledOf pushed)) ∧
      (p.services.Owned → r.2.services.Owned) := by
  induction tasks generalizing result erredList p with
  | nil => exact ⟨rfl, fun svc u ↦ (List.append_nil _).symm, id⟩
  | cons task tasks ih =>
    have hset' := fun t ht ↦ hset t (List.mem_cons_of_mem _ ht)
    let p₁ : HttpProcess Services := { p with taskId := p.taskId + 1 }
    let task₁ : ScheduledPriceTask := { task with processAssignedId := p.taskId + 1 }
    obtain ⟨s', hpush, hcalls, hs'⟩ :=
      pushTask_outcome env result task₁ (hset task List.mem_cons_self) p₁
    have hnext : HttpProcess.nextTaskId p = (.ok (p.taskId + 1), p₁) := rfl
    have hp₁ : p₁.services = p.services := rfl
    dsimp only
    rw [attempts, pushTasks, Throwing.bind_ok hnext]
    cases ho : env.outcome p.services.pushes with
    | scheduled =>
      rw [hp₁, ho, if_pos rfl] at hs'
      rw [hp₁, ho] at hpush
      obtain ⟨hr, htasks, howned⟩ := ih true erredList hset' { p₁ with services := s' }
      rw [hcalls] at hr htasks
      rw [Throwing.bind_ok hpush, if_pos rfl]
      refine ⟨hr, ?_, fun h ↦ howned (hs'.owned h)⟩
      intro svc u
      rw [htasks, hs'.tasks, scheduledOf, addedTo_cons, List.append_assoc]
    | refused =>
      rw [hp₁, ho, if_neg (by simp)] at hs'
      rw [hp₁, ho] at hpush
      obtain ⟨hr, htasks, howned⟩ :=
        ih false (erredList ++ [task₁]) hset' { p₁ with services := s' }
      rw [hcalls] at hr htasks
      rw [Throwing.bind_ok hpush, if_neg (by simp)]
      refine ⟨hr, ?_, fun h ↦ howned (hs' ▸ ⟨h.time, h.progress⟩)⟩
      intro svc u
      rw [htasks, hs']
      cases svc <;> rfl
    | thrown error =>
      rw [hp₁, ho, if_neg (by simp)] at hs'
      rw [hp₁, ho] at hpush
      rw [Throwing.bind_error hpush]
      refine ⟨rfl, ?_, fun h ↦ hs' ▸ ⟨h.time, h.progress⟩⟩
      intro svc u
      rw [hs', scheduledOf]
      cases svc <;> exact (List.append_nil _).symm

/-- The attempts of an accepted request. -/
def pushedOf (env : Environment) (r : AddRequest) (p : HttpProcess Services) :
    List (ScheduledPriceTask × PushOutcome) :=
  attempts env p.taskId p.services.pushes (r.tasks.map normalised)

/-- An accepted request is pushed as its check has left it. -/
theorem pushTasks_accepted (env : Environment) (p : HttpProcess Services) {r : AddRequest}
    (ha : r.accepted = true) :
    checkTasks r.tasks = some (r.tasks.map normalised) ∧
      let q := pushTasks (Services.proxies env) true [] (r.tasks.map normalised) p
      q.1 = erredOf [] (pushedOf env r p) ∧
        (∀ svc u, q.2.services.tasks svc u =
          p.services.tasks svc u ++ addedTo svc u (scheduledOf (pushedOf env r p))) ∧
        (p.services.Owned → q.2.services.Owned) := by
  have hcheck := checkTasks_addRequest r
  rw [ha, if_pos rfl] at hcheck
  refine ⟨hcheck, pushTasks_spec env true [] ?_ p⟩
  intro task ht
  obtain ⟨t, hm, rfl⟩ := List.mem_map.mp ht
  simpa [normalised] using (checkTasks_eq_some hcheck).2 t hm

/-! ### Stopping -/

/-- A task is the one a stop names. -/
def named (userId taskId : Bytes) (task : ScheduledPriceTask) : Bool :=
  task.userId == userId && task.taskId == taskId

/-- A stop returns; it takes the named tasks from one user's lists, in both services. -/
theorem stopScheduledPriceTask_spec (env : Environment) (userId taskId : Bytes)
    (p : HttpProcess Services) :
    ∃ s', stopScheduledPriceTask (Services.proxies env) userId taskId p =
        (.ok (), { p with services := s' }) ∧
      (∀ svc u, s'.tasks svc u =
        if u = userId then (p.services.tasks svc u).filter (fun t ↦ !named userId taskId t)
        else p.services.tasks svc u) ∧
      (p.services.Owned → s'.Owned) ∧ s'.pushes = p.services.pushes := by
  refine ⟨_, rfl, ?_, ?_, rfl⟩
  · intro svc u
    cases svc with
    | time =>
      simp only [Services.tasks, Services.proxies, removeScheduledTimeTaskImpl,
        TaskList.tasksOf_remove]
      split
      · rw [List.filter_map]
        rfl
      · rfl
    | progress =>
      simp only [Services.tasks, Services.proxies, removeScheduledProgressTaskImpl,
        TaskList.tasksOf_remove]
      split
      · rw [List.filter_map]
        rfl
      · rfl
  · intro ho
    exact ⟨TaskList.Owned.remove _ ho.time userId taskId,
      TaskList.Owned.remove _ ho.progress userId taskId⟩

/-- The clean-up returns. When all erred tasks have one user and task id, the tasks under
these ids go, whether the batch had entered them or not. -/
theorem stopErred_spec (env : Environment) (userId taskId : Bytes)
    {erredList : List ScheduledPriceTask}
    (hall : ∀ task ∈ erredList, task.userId = userId ∧ task.taskId = taskId)
    (p : HttpProcess Services) :
    (stopErred (Services.proxies env) erredList p).1 = .ok () ∧
      (∀ svc u, (stopErred (Services.proxies env) erredList p).2.services.tasks svc u =
        if erredList ≠ [] ∧ u = userId then
          (p.services.tasks svc u).filter (fun t ↦ !named userId taskId t)
        else p.services.tasks svc u) ∧
      (p.services.Owned → (stopErred (Services.proxies env) erredList p).2.services.Owned) := by
  induction erredList generalizing p with
  | nil => exact ⟨rfl, fun svc u ↦ by rw [if_neg (by simp)]; rfl, id⟩
  | cons task rest ih =>
    obtain ⟨hu, ht⟩ := hall task List.mem_cons_self
    obtain ⟨s', hstop, htasks, howned, -⟩ :=
      stopScheduledPriceTask_spec env task.userId task.taskId p
    obtain ⟨hr, hrest, hown⟩ :=
      ih (fun t hm ↦ hall t (List.mem_cons_of_mem _ hm)) { p with services := s' }
    rw [stopErred, Throwing.bind_ok hstop]
    refine ⟨hr, ?_, fun h ↦ hown (howned h)⟩
    intro svc u
    rw [hrest, htasks, hu, ht]
    by_cases huser : u = userId
    · rw [if_pos huser, if_pos (⟨List.cons_ne_nil _ _, huser⟩ : task :: rest ≠ [] ∧ u = userId)]
      split
      · rw [List.filter_filter]
        simp only [Bool.and_self]
      · rfl
    · rw [if_neg huser, if_neg (fun h ↦ huser h.2), if_neg (fun h ↦ huser h.2)]

/-! ### Reading -/

namespace Services

/-- What the http server lists for one user: his time tasks, then his progress tasks. -/
def listed (s : Services) (userId : Bytes) : List ScheduledPriceTask :=
  (s.tasks .time userId).map timePart ++ (s.tasks .progress userId).map progressPart

/-- What the http server lists for all users. -/
def listedAll (s : Services) : List ScheduledPriceTask :=
  (s.time.all TimeWatch.task).map timePart ++ (s.progress.all ProgressWatch.task).map progressPart

private theorem dbusTime_dbusTask (w : TimeWatch) :
    dbusTimeToScheduledTask w.dbusTask = timePart w.task :=
  dbusTimeToScheduledTask_scheduledTaskToDbusTime w.task w.timed

private theorem dbusProgress_dbusTask (w : ProgressWatch) :
    dbusProgressToScheduledTask w.dbusTask = progressPart w.task :=
  dbusProgressToScheduledTask_scheduledTaskToDbusProgress w.task w.percent

/-- The listing for a user reads what the services keep for him. -/
theorem getPriceTasksForUser_proxies (env : Environment) (userId : Bytes)
    (p : HttpProcess Services) :
    getPriceTasksForUser (proxies env) userId p = (.ok (p.services.listed userId), p) := by
  change ((.ok ((TimeTasks.getScheduledTasksForUserImpl p.services.time userId).map
    dbusTimeToScheduledTask ++ (ProgressTasks.getScheduledTasksForUserImpl p.services.progress
      userId).map dbusProgressToScheduledTask), p) : Except SdbusError _ × _) = _
  simp only [TimeTasks.getScheduledTasksForUserImpl, ProgressTasks.getScheduledTasksForUserImpl,
    TaskList.forUser_eq, List.map_map, listed, tasks, Function.comp_def, dbusTime_dbusTask,
    dbusProgress_dbusTask]

/-- The listing for all users reads everything the services keep. -/
theorem getPriceTasksForAll_proxies (env : Environment) (p : HttpProcess Services) :
    getPriceTasksForAll (proxies env) p = (.ok p.services.listedAll, p) := by
  change ((.ok ((TimeTasks.getAllScheduledTasksImpl p.services.time).map
    dbusTimeToScheduledTask ++ (ProgressTasks.getAllScheduledTasksImpl p.services.progress).map
      dbusProgressToScheduledTask), p) : Except SdbusError _ × _) = _
  simp only [TimeTasks.getAllScheduledTasksImpl, ProgressTasks.getAllScheduledTasksImpl,
    TaskList.all, LockedMap.toFlatList_eq_map _ TimeWatch.dbusTask,
    LockedMap.toFlatList_eq_map _ ProgressWatch.dbusTask,
    LockedMap.toFlatList_eq_map _ TimeWatch.task, LockedMap.toFlatList_eq_map _ ProgressWatch.task,
    List.map_map, listedAll, Function.comp_def, dbusTime_dbusTask, dbusProgress_dbusTask]

/-- The listing for all users holds each user's own listing, task for task. -/
theorem filter_listedAll {s : Services} (ho : s.Owned) (userId : Bytes) :
    s.listedAll.filter (fun task ↦ task.userId = userId) = s.listed userId := by
  have htime := TaskList.filter_all TimeWatch.task ho.time TimeWatch.task
    ScheduledPriceTask.userId (fun _ ↦ rfl) userId
  have hprogress := TaskList.filter_all ProgressWatch.task ho.progress ProgressWatch.task
    ScheduledPriceTask.userId (fun _ ↦ rfl) userId
  rw [TaskList.forUser_eq] at htime hprogress
  rw [listedAll, List.filter_append, List.filter_map, List.filter_map]
  exact congrArg₂ (fun a b ↦ a.map timePart ++ b.map progressPart) htime hprogress

end Services

end KeepMyJournal.HttpStream
