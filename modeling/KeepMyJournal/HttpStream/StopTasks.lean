import KeepMyJournal.HttpStream.Contracts
import KeepMyJournal.HttpStream.PriceServices

/-!
# Stopping a list of tasks

`stop_prices_task` (`http_stream/src/session.cpp:385–407`) converts and stops the items of its
list one after the other, each in both services (`scheduled_price_tasks.cpp:101–106`). An item
that is not a string, or a call that throws, ends the loop and is answered as a bad request;
what has been removed by then stays removed. (`add_new_pricing_tasks` reads its whole list
first.)
-/

namespace KeepMyJournal.HttpStream

open KeepMyJournal.Base KeepMyJournal.Common KeepMyJournal.TimeTasks KeepMyJournal.ProgressTasks

/-! ### Removals that may fail -/

/-- How one removal call ends: it returns, or it throws, and then it may have reached its
service. -/
inductive RemovalOutcome where
  | returned
  | thrown (reached : Bool) (error : SdbusError)
  deriving DecidableEq, Repr

/-- The services, and how many removal calls there have been. -/
structure Removable where
  services : Services
  calls : Nat := 0

/-- The service's part of a removal call. -/
def Services.remove (s : Services) (userId taskId : Bytes) : PriceService → Services
  | .time => { s with time := removeScheduledTimeTaskImpl s.time userId taskId }
  | .progress => { s with progress := removeScheduledProgressTaskImpl s.progress userId taskId }

namespace Removable

/-- One removal call. -/
def remove (outcome : Nat → RemovalOutcome) (svc : PriceService) (userId taskId : Bytes) :
    Dbus Removable Unit := fun b ↦
  let removed := b.services.remove userId taskId svc
  match outcome b.calls with
  | .returned => (.ok (), { services := removed, calls := b.calls + 1 })
  | .thrown reached error =>
    (.error error, { services := if reached then removed else b.services, calls := b.calls + 1 })

/-- A call that removes nothing. -/
def other {α : Type} (c : Dbus Services α) : Dbus Removable α := fun b ↦
  ((c b.services).1, { b with services := (c b.services).2 })

/-- The proxies of the http server, where each removal call ends as `outcome` says. -/
def proxies (env : Environment) (outcome : Nat → RemovalOutcome) : DbusProxies Removable where
  scheduleNewTimeTask task := other ((Services.proxies env).scheduleNewTimeTask task)
  removeScheduledTimeTask := remove outcome .time
  getScheduledTimeTasksForUser userId :=
    other ((Services.proxies env).getScheduledTimeTasksForUser userId)
  getAllScheduledTimeTasks := other (Services.proxies env).getAllScheduledTimeTasks
  scheduleNewProgressTask task := other ((Services.proxies env).scheduleNewProgressTask task)
  removeScheduledProgressTask := remove outcome .progress
  getScheduledProgressTasksForUser userId :=
    other ((Services.proxies env).getScheduledProgressTasksForUser userId)
  getAllScheduledProgressTasks := other (Services.proxies env).getAllScheduledProgressTasks
  onAuthorizationCodeRequested mobile code :=
    other ((Services.proxies env).onAuthorizationCodeRequested mobile code)
  onAuthorizationPasswordRequested mobile password :=
    other ((Services.proxies env).onAuthorizationPasswordRequested mobile password)
  sendNewTelegramText chatId content :=
    other ((Services.proxies env).sendNewTelegramText chatId content)

end Removable

/-! ### The property -/

/-- A removal: the service and the id of the task. -/
abbrev Removal := PriceService × Bytes

/-- What removals for one user leave of a list of tasks that a service keeps for `u`. -/
def leftBy (userId : Bytes) (removals : List Removal) (svc : PriceService) (u : Bytes)
    (tasks : List ScheduledPriceTask) : List ScheduledPriceTask :=
  if u = userId then
    tasks.filter (fun t ↦ !removals.any (fun r ↦ r.1 == svc && named userId r.2 t))
  else tasks

/-- The body of the request names a user and a list of items. -/
def NamesTasks {σ : Type} (world : World σ) (request : Request) (userId : Bytes)
    (items : List Json) : Prop :=
  ∃ root : Json.Object, parseBody world request = .ok root ∧
    root.find (bytes "user_id") = some (.string userId) ∧
    root.find (bytes "task_list") = some (.array items)

/-- An answer other than a success leaves the services as they were; a success has removed the
listed tasks of the user from both, and no others. -/
def StopsAsAnswered (world : World Removable) (request : Request) (s : Session Removable) : Prop :=
  let s' := (stopPricesTask world request s).2
  ∃ status body, s'.responses = s.responses ++ [.json status body] ∧
    (status ≠ 200 → ∀ svc u, s'.process.services.services.tasks svc u =
      s.process.services.services.tasks svc u) ∧
    (status = 200 → ∃ (userId : Bytes) (ids : List Bytes),
      NamesTasks world request userId (ids.map .string) ∧
        ∀ svc u, s'.process.services.services.tasks svc u =
          if u = userId then (s.process.services.services.tasks svc u).filter
            (fun t ↦ !ids.any (fun id ↦ named userId id t))
          else s.process.services.services.tasks svc u)

/-- The removals of one item, and whether both its calls return. -/
def itemRemovals (outcome : Nat → RemovalOutcome) (calls : Nat) (taskId : Bytes) :
    List Removal × Bool :=
  match outcome calls with
  | .thrown reached _ => (if reached then [(.time, taskId)] else [], false)
  | .returned =>
    match outcome (calls + 1) with
    | .thrown reached _ => ((.time, taskId) :: if reached then [(.progress, taskId)] else [], false)
    | .returned => ([(.time, taskId), (.progress, taskId)], true)

/-- The removals that reach a service before the first failure, and whether there is none. -/
def removals (outcome : Nat → RemovalOutcome) : Nat → List Json → List Removal × Bool
  | _, [] => ([], true)
  | calls, .string taskId :: items =>
    let item := itemRemovals outcome calls taskId
    if item.2 then
      (item.1 ++ (removals outcome (calls + 2) items).1, (removals outcome (calls + 2) items).2)
    else item
  | _, _ :: _ => ([], false)

/-- The list is gone through without a failure, or no removal before the failure finds a task. -/
def HarmlessStop (outcome : Nat → RemovalOutcome) (s : Removable) (userId : Bytes)
    (items : List Json) : Prop :=
  let made := removals outcome s.calls items
  made.2 = true ∨ ∀ r ∈ made.1, ∀ t ∈ s.services.tasks r.1 userId, named userId r.2 t = false

/-! ### What removals leave -/

theorem leftBy_nil (userId : Bytes) (svc : PriceService) (u : Bytes)
    (tasks : List ScheduledPriceTask) : leftBy userId [] svc u tasks = tasks := by
  unfold leftBy
  simp

/-- Removals act one after the other. -/
theorem leftBy_append (userId : Bytes) (first second : List Removal) (svc : PriceService)
    (u : Bytes) (tasks : List ScheduledPriceTask) :
    leftBy userId (first ++ second) svc u tasks =
      leftBy userId second svc u (leftBy userId first svc u tasks) := by
  unfold leftBy
  split
  · rw [List.filter_filter]
    refine List.filter_congr fun t _ ↦ ?_
    rw [List.any_append, Bool.not_or, Bool.and_comm]
  · rfl

private theorem leftBy_other {svc svc' : PriceService} (h : svc ≠ svc') (userId taskId u : Bytes)
    (tasks : List ScheduledPriceTask) :
    leftBy userId [(svc, taskId)] svc' u tasks = tasks := by
  have hsvc : (svc == svc') = false := beq_eq_false_iff_ne.mpr h
  unfold leftBy
  simp [hsvc]

private theorem leftBy_same (svc : PriceService) (userId taskId u : Bytes)
    (tasks : List ScheduledPriceTask) :
    leftBy userId [(svc, taskId)] svc u tasks =
      if u = userId then tasks.filter (fun t ↦ !named userId taskId t) else tasks := by
  unfold leftBy
  simp

/-- One removal takes the named tasks out of one list of one service. -/
theorem tasks_remove (s : Services) (userId taskId : Bytes) (svc svc' : PriceService) (u : Bytes) :
    (s.remove userId taskId svc).tasks svc' u =
      leftBy userId [(svc, taskId)] svc' u (s.tasks svc' u) := by
  cases svc with
  | time =>
    cases svc' with
    | time =>
      rw [leftBy_same]
      simp only [Services.tasks, Services.remove, removeScheduledTimeTaskImpl,
        TaskList.tasksOf_remove]
      split
      · rw [List.filter_map]
        rfl
      · rfl
    | progress =>
      rw [leftBy_other (by decide)]
      rfl
  | progress =>
    cases svc' with
    | time =>
      rw [leftBy_other (by decide)]
      rfl
    | progress =>
      rw [leftBy_same]
      simp only [Services.tasks, Services.remove, removeScheduledProgressTaskImpl,
        TaskList.tasksOf_remove]
      split
      · rw [List.filter_map]
        rfl
      · rfl

/-! ### One item -/

variable (env : Environment) (outcome : Nat → RemovalOutcome) (userId : Bytes)

/-- The process after a removal call. -/
private def afterCall (p : HttpProcess Removable) (services : Services) : HttpProcess Removable :=
  { p with services := { services := services, calls := p.services.calls + 1 } }

/-- A removal call returns if its outcome says so. -/
private theorem call_remove (taskId : Bytes) (svc : PriceService) (p : HttpProcess Removable) :
    (outcome p.services.calls = .returned ∧
        HttpProcess.call (Removable.remove outcome svc userId taskId) p =
          (.ok (), afterCall p (p.services.services.remove userId taskId svc))) ∨
      ∃ reached error, outcome p.services.calls = .thrown reached error ∧
        HttpProcess.call (Removable.remove outcome svc userId taskId) p =
          (.error error, afterCall p (if reached then p.services.services.remove userId taskId svc
            else p.services.services)) := by
  unfold HttpProcess.call Removable.remove
  cases ho : outcome p.services.calls with
  | returned => exact .inl ⟨rfl, rfl⟩
  | thrown reached error => exact .inr ⟨reached, error, rfl, rfl⟩

private theorem tasks_reached (userId : Bytes) (s : Services) (taskId : Bytes) (reached : Bool)
    (svc svc' : PriceService) (u : Bytes) :
    (if reached then s.remove userId taskId svc else s).tasks svc' u =
      leftBy userId (if reached then [(svc, taskId)] else []) svc' u (s.tasks svc' u) := by
  cases reached with
  | true => exact tasks_remove s userId taskId svc svc' u
  | false => exact (leftBy_nil userId svc' u _).symm

/-- Stopping one item makes its removals, and returns if both calls do. -/
private theorem stopScheduledPriceTask_removals (taskId : Bytes) (p : HttpProcess Removable) :
    let item := itemRemovals outcome p.services.calls taskId
    let r := stopScheduledPriceTask (Removable.proxies env outcome) userId taskId p
    (item.2 = true → r.1 = .ok () ∧ r.2.services.calls = p.services.calls + 2) ∧
      (item.2 = false → ∃ e, r.1 = .error e) ∧
      ∀ svc u, r.2.services.services.tasks svc u =
        leftBy userId item.1 svc u (p.services.services.tasks svc u) := by
  have hstop : stopScheduledPriceTask (Removable.proxies env outcome) userId taskId =
      HttpProcess.call (Removable.remove outcome .time userId taskId) >>=
        fun _ ↦ HttpProcess.call (Removable.remove outcome .progress userId taskId) := rfl
  unfold itemRemovals
  rw [hstop]
  dsimp only
  rcases call_remove outcome userId taskId .time p with
    ⟨ho, hfirst⟩ | ⟨reached, error, ho, hfirst⟩
  · rw [Throwing.bind_ok hfirst, ho]
    dsimp only
    rcases call_remove outcome userId taskId .progress
        (afterCall p (p.services.services.remove userId taskId .time)) with
      ⟨ho', hsecond⟩ | ⟨reached, error, ho', hsecond⟩
    · rw [hsecond]
      rw [show outcome (p.services.calls + 1) = .returned from ho']
      refine ⟨fun _ ↦ ⟨rfl, rfl⟩, nofun, ?_⟩
      intro svc u
      refine Eq.trans ?_ (leftBy_append userId [(.time, taskId)] [(.progress, taskId)] svc u _).symm
      rw [← tasks_remove]
      exact tasks_remove _ userId taskId .progress svc u
    · rw [hsecond]
      rw [show outcome (p.services.calls + 1) = .thrown reached error from ho']
      refine ⟨nofun, fun _ ↦ ⟨error, rfl⟩, ?_⟩
      intro svc u
      refine Eq.trans ?_ (leftBy_append userId [(.time, taskId)]
        (if reached then [(.progress, taskId)] else []) svc u _).symm
      rw [← tasks_remove]
      exact tasks_reached userId _ taskId reached .progress svc u
  · rw [Throwing.bind_error hfirst, ho]
    refine ⟨nofun, fun _ ↦ ⟨error, rfl⟩, ?_⟩
    intro svc u
    exact tasks_reached userId _ taskId reached .time svc u

/-! ### The list -/

/-- The body of the loop of `stop_prices_task`. -/
private def stopItem (world : World Removable) (userId : Bytes) (item : Json) :
    Handling Removable Unit := do
  let taskId ← Handling.std item.getString
  Handling.dbus (stopScheduledPriceTask world.proxies userId taskId)

variable {world : World Removable}

/-- An item that is not a string ends the loop before any call. -/
private theorem stopItem_error {item : Json} {e : StdException} (h : item.getString = .error e)
    (s : Session Removable) : stopItem world userId item s = (.error (.std e), s) := by
  have hstd : Handling.std item.getString s = (.error (.std e), s) := by
    rw [h]
    rfl
  exact Throwing.bind_error hstd

private theorem stopItem_string (taskId : Bytes) (s : Session Removable) :
    stopItem world userId (.string taskId) s =
      Handling.dbus (stopScheduledPriceTask world.proxies userId taskId) s := rfl

/-- The loop makes the removals of its items up to the first failure. -/
private theorem forM_stopItem (items : List Json) (s : Session Removable)
    (hproxies : world.proxies = Removable.proxies env outcome) :
    let made := removals outcome s.process.services.calls items
    let r := items.forM (stopItem world userId) s
    (made.2 = true → r.1 = .ok ()) ∧ (made.2 = false → ∃ e, r.1 = .error e) ∧
      r.2.responses = s.responses ∧
      ∀ svc u, r.2.process.services.services.tasks svc u =
        leftBy userId made.1 svc u (s.process.services.services.tasks svc u) := by
  induction items generalizing s with
  | nil => exact ⟨fun _ ↦ rfl, nofun, rfl, fun svc u ↦ (leftBy_nil userId svc u _).symm⟩
  | cons item items ih =>
    have hforM : (item :: items).forM (stopItem world userId) =
        stopItem world userId item >>= fun _ ↦ items.forM (stopItem world userId) := rfl
    rw [hforM]
    cases item with
    | string taskId =>
      obtain ⟨hreturns, hthrows, htasks⟩ :=
        stopScheduledPriceTask_removals env outcome userId taskId s.process
      have hitem : stopItem world userId (.string taskId) s =
          ((stopScheduledPriceTask (Removable.proxies env outcome) userId taskId
              s.process).1.mapError .sdbus,
            { s with
              process := (stopScheduledPriceTask (Removable.proxies env outcome) userId taskId
                s.process).2 }) := by
        rw [stopItem_string, hproxies]
        rfl
      unfold removals
      cases hok : (itemRemovals outcome s.process.services.calls taskId).2 with
      | true =>
        obtain ⟨hr, hcalls⟩ := hreturns hok
        rw [hr] at hitem
        rw [Throwing.bind_ok hitem]
        dsimp only
        rw [if_pos hok, ← hcalls]
        obtain ⟨hok', herror, hresponses, hrest⟩ := ih
          { s with process := (stopScheduledPriceTask (Removable.proxies env outcome) userId taskId
            s.process).2 }
        refine ⟨hok', herror, hresponses, ?_⟩
        intro svc u
        rw [hrest svc u, htasks svc u, leftBy_append]
      | false =>
        obtain ⟨e, hr⟩ := hthrows hok
        rw [hr] at hitem
        rw [Throwing.bind_error hitem]
        dsimp only
        rw [if_neg (by rw [hok]; simp)]
        exact ⟨fun h ↦ absurd (hok.symm.trans h) nofun, fun _ ↦ ⟨_, rfl⟩, rfl, htasks⟩
    | null | boolean _ | numberInteger _ | numberUnsigned _ | numberFloat _ | array _ | object _ =>
      rw [Throwing.bind_error (stopItem_error userId rfl s)]
      exact ⟨nofun, fun _ ↦ ⟨_, rfl⟩, rfl, fun svc u ↦ (leftBy_nil userId svc u _).symm⟩

private theorem itemRemovals_of_true {calls : Nat} {taskId : Bytes}
    (h : (itemRemovals outcome calls taskId).2 = true) :
    (itemRemovals outcome calls taskId).1 = [(.time, taskId), (.progress, taskId)] := by
  unfold itemRemovals at h ⊢
  split at h
  · cases h
  · split at h
    · cases h
    · rfl

/-- Items that are gone through are strings, and each is removed from both services. -/
private theorem removals_of_true {calls : Nat} {items : List Json}
    (h : (removals outcome calls items).2 = true) :
    ∃ ids : List Bytes, items = ids.map .string ∧
      (removals outcome calls items).1 =
        ids.flatMap (fun id ↦ [(.time, id), (.progress, id)]) := by
  induction items generalizing calls with
  | nil => exact ⟨[], rfl, rfl⟩
  | cons item items ih =>
    cases item with
    | string taskId =>
      unfold removals at h ⊢
      dsimp only at h ⊢
      by_cases hok : (itemRemovals outcome calls taskId).2 = true
      · rw [if_pos hok] at h ⊢
        obtain ⟨ids, rfl, hids⟩ := ih h
        refine ⟨taskId :: ids, rfl, ?_⟩
        rw [hids, itemRemovals_of_true outcome hok, List.flatMap_cons]
      · rw [if_neg hok] at h
        exact absurd h hok
    | null | boolean _ | numberInteger _ | numberUnsigned _ | numberFloat _ | array _ | object _ =>
      cases h

/-- Removals from both services take the tasks with the ids. -/
private theorem leftBy_both (ids : List Bytes) (svc : PriceService) (u : Bytes)
    (tasks : List ScheduledPriceTask) :
    leftBy userId (ids.flatMap fun id ↦ [(.time, id), (.progress, id)]) svc u tasks =
      if u = userId then tasks.filter (fun t ↦ !ids.any (fun id ↦ named userId id t))
      else tasks := by
  unfold leftBy
  split
  · refine List.filter_congr fun t _ ↦ congrArg Bool.not ?_
    rw [List.any_flatMap]
    refine congrArg (ids.any ·) (funext fun id ↦ ?_)
    cases svc with
    | time => simp
    | progress => simp
  · rfl

/-- Removals leave everything in place if and only if none finds a task of the user. -/
private theorem leftBy_eq_iff (s : Services) (removals : List Removal) :
    (∀ svc u, leftBy userId removals svc u (s.tasks svc u) = s.tasks svc u) ↔
      ∀ r ∈ removals, ∀ t ∈ s.tasks r.1 userId, named userId r.2 t = false := by
  unfold leftBy
  constructor
  · rintro h ⟨svc, taskId⟩ hr t ht
    have hsvc := h svc userId
    rw [if_pos rfl, List.filter_eq_self] at hsvc
    have hkept := hsvc t ht
    rw [Bool.not_eq_true', List.any_eq_false] at hkept
    simpa using hkept (svc, taskId) hr
  · intro h svc u
    split
    · next hu =>
      subst hu
      rw [List.filter_eq_self]
      intro t ht
      rw [Bool.not_eq_true', List.any_eq_false]
      rintro ⟨svc', taskId⟩ hr hfound
      rw [Bool.and_eq_true, beq_iff_eq] at hfound
      obtain ⟨rfl, hnamed⟩ := hfound
      rw [h (svc', taskId) hr t ht] at hnamed
      cases hnamed
    · rfl

/-! ### The request -/

/-- A request that names no tasks is a bad request, and makes no call. -/
private theorem stopPricesTask_unread (world : World Removable) (request : Request)
    (s : Session Removable)
    (h : ∀ userId items, ¬NamesTasks world request userId items) :
    stopPricesTask world request s =
      (.ok (), { s with responses := s.responses ++ [badRequest "JSON object is invalid"] }) := by
  have hthrow (e : Exception) :
      Handling.orBadRequest "JSON object is invalid" (throw e : Handling Removable Unit) s =
        (.ok (), { s with responses := s.responses ++ [badRequest "JSON object is invalid"] }) :=
    Handling.orBadRequest_error rfl
  unfold stopPricesTask
  cases hparse : parseBody world request with
  | error e =>
    rw [Handling.std_error_bind]
    exact hthrow _
  | ok root =>
    rw [Handling.std_ok_bind]
    cases hitems : root.find (bytes "task_list") with
    | none => exact hthrow _
    | some items =>
      cases huser : root.find (bytes "user_id") with
      | none => exact hthrow _
      | some user =>
        dsimp only
        cases huserId : user.getString with
        | error e =>
          rw [Handling.std_error_bind]
          exact hthrow _
        | ok userId =>
          rw [Handling.std_ok_bind]
          cases hlist : items.getArray with
          | error e =>
            rw [Handling.std_error_bind]
            exact hthrow _
          | ok list =>
            obtain rfl := Json.getString_eq_ok_iff.mp huserId
            obtain rfl := Json.getArray_eq_ok_iff.mp hlist
            exact absurd ⟨root, hparse, huser, hitems⟩ (h userId list)

/-- A request that names tasks stops them, and is answered with its items. -/
private theorem stopPricesTask_read {request : Request} {items : List Json}
    (h : NamesTasks world request userId items) :
    stopPricesTask world request =
      Handling.orBadRequest "JSON object is invalid"
        (items.forM (stopItem world userId) >>= fun _ ↦ Handling.sendSuccess (.array items)) := by
  obtain ⟨root, hparse, huser, hitems⟩ := h
  unfold stopPricesTask
  rw [hparse, Handling.std_ok_bind, huser, hitems]
  rfl

private theorem NamesTasks.unique {σ : Type} {world : World σ} {request : Request}
    {userId userId' : Bytes} {items items' : List Json}
    (h : NamesTasks world request userId items) (h' : NamesTasks world request userId' items') :
    userId = userId' ∧ items = items' := by
  obtain ⟨root, hroot, huser, hitems⟩ := h
  obtain ⟨root', hroot', huser', hitems'⟩ := h'
  obtain rfl := Except.ok.inj (hroot.symm.trans hroot')
  exact ⟨Json.string.inj (Option.some.inj (huser.symm.trans huser')),
    Json.array.inj (Option.some.inj (hitems.symm.trans hitems'))⟩

private theorem stopsAsAnswered_names (world : World Removable) {request : Request}
    {items : List Json} (hproxies : world.proxies = Removable.proxies env outcome)
    (hparse : ∀ text value, world.parse text = .ok value → value.dumps = true)
    (hnames : NamesTasks world request userId items) (s : Session Removable) :
    StopsAsAnswered world request s ↔ HarmlessStop outcome s.process.services userId items := by
  obtain ⟨hreturns, hthrows, hresponses, htasks⟩ :=
    forM_stopItem env outcome userId items s hproxies
  unfold HarmlessStop StopsAsAnswered
  rw [stopPricesTask_read userId hnames]
  cases hforM : items.forM (stopItem world userId) s with
  | mk result t =>
    rw [hforM] at hreturns hthrows hresponses htasks
    dsimp only at hreturns hthrows hresponses htasks ⊢
    by_cases hmade : (removals outcome s.process.services.calls items).2 = true
    · refine iff_of_true ?_ (.inl hmade)
      obtain ⟨ids, rfl, hids⟩ := removals_of_true outcome hmade
      rw [hreturns hmade] at hforM
      have hdumps : (Json.array (ids.map .string)).dumps = true := by
        obtain ⟨root, hroot, -, hitems⟩ := hnames
        obtain ⟨value, hvalue, hobject⟩ := of_bind_eq_ok hroot
        obtain rfl := Json.getObject_eq_ok_iff.mp hobject
        exact Json.dumps_of_find (hparse _ _ hvalue) hitems
      rw [Handling.orBadRequest_ok ((Throwing.bind_ok hforM).trans
        (Handling.sendSuccess_of_dumps hdumps))]
      refine ⟨200, _, by rw [← hresponses], fun hne ↦ absurd rfl hne, ?_⟩
      intro _
      refine ⟨userId, ids, hnames, ?_⟩
      intro svc u
      rw [← leftBy_both userId ids svc u, ← hids]
      exact htasks svc u
    · rw [Bool.not_eq_true] at hmade
      obtain ⟨e, he⟩ := hthrows hmade
      rw [he] at hforM
      rw [Handling.orBadRequest_error (Throwing.bind_error hforM), hmade, or_iff_right nofun,
        ← leftBy_eq_iff]
      constructor
      · rintro ⟨status, body, hresponse, hunchanged, -⟩ svc u
        dsimp only at hresponse
        rw [hresponses, List.append_cancel_left_eq, List.singleton_inj] at hresponse
        have hstatus := (Response.json.inj hresponse).1
        exact (htasks svc u).symm.trans (hunchanged (by omega) svc u)
      · intro h
        refine ⟨400, _, by rw [← hresponses]; rfl, ?_, nofun⟩
        intro _ svc u
        exact (htasks svc u).trans (h svc u)

/-- A request to stop tasks does as it is answered if and only if its list is gone through
without a failure or the removals made before the failure find nothing. -/
theorem stopsAsAnswered_iff (env : Environment) (outcome : Nat → RemovalOutcome)
    (world : World Removable) (hparse : ∀ text value, world.parse text = .ok value →
      value.dumps = true) (request : Request) (s : Session Removable) :
    StopsAsAnswered { world with proxies := Removable.proxies env outcome } request s ↔
      ∀ userId items, NamesTasks world request userId items →
        HarmlessStop outcome s.process.services userId items := by
  by_cases hread : ∃ userId items, NamesTasks world request userId items
  · obtain ⟨userId, items, hnames⟩ := hread
    have hright : (∀ userId items, NamesTasks world request userId items →
        HarmlessStop outcome s.process.services userId items) ↔
          HarmlessStop outcome s.process.services userId items := by
      constructor
      · intro h
        exact h userId items hnames
      · intro h userId' items' hnames'
        obtain ⟨rfl, rfl⟩ := hnames.unique hnames'
        exact h
    rw [hright]
    exact stopsAsAnswered_names env outcome userId
      { world with proxies := Removable.proxies env outcome } rfl hparse hnames s
  · refine iff_of_true ?_ ?_
    · have hunread := stopPricesTask_unread { world with proxies := Removable.proxies env outcome }
        request s (fun userId items h ↦ hread ⟨userId, items, h⟩)
      unfold StopsAsAnswered
      rw [hunread]
      exact ⟨400, _, rfl, fun _ _ _ ↦ rfl, nofun⟩
    · intro userId items h
      exact absurd ⟨userId, items, h⟩ hread

/-- A server that is asked to stop the items for one user, and whose removal calls end as
`outcome` says. -/
def stopWorld (items : List Json) (outcome : Nat → RemovalOutcome) : World Removable where
  parse _ := .ok (.object [(bytes "task_list", .array items), (bytes "user_id", .text "u1")])
  past _ := 0
  uniqueInstruments _ := default
  proxies := Removable.proxies { outcome := fun _ ↦ .scheduled, cache := fun _ _ ↦ default } outcome
  queueAccountStreamTasks _ := pure none

/-- The time service keeps one task of that user. -/
def oneTimeTask : Session Removable where
  process :=
    { services :=
        { services :=
            { time := TaskList.pushBack ∅ (bytes "u1") (TimeWatch.construct (secondsTask 60) rfl)
              progress := ∅ } } }

private theorem namesTasks_stopWorld (items : List Json) (outcome : Nat → RemovalOutcome)
    (request : Request) : NamesTasks (stopWorld items outcome) request (bytes "u1") items :=
  ⟨_, rfl, rfl, rfl⟩

private theorem dumps_stopWorld {items : List Json} (outcome : Nat → RemovalOutcome)
    (h : Json.dumpsItems items = true) (text : Bytes) (value : Json)
    (hvalue : (stopWorld items outcome).parse text = .ok value) : value.dumps = true := by
  obtain rfl := Except.ok.inj hvalue
  simp only [Json.dumps, Json.dumpsMembers, Json.text, h]
  decide

/-- A list of strings whose calls return is stopped as it is answered. -/
theorem stopsAsAnswered_oneTask :
    StopsAsAnswered (stopWorld [.text "t1"] (fun _ ↦ .returned))
      { target := bytes "/stop_price_tasks", method := .post } oneTimeTask := by
  refine (stopsAsAnswered_iff { outcome := fun _ ↦ .scheduled, cache := fun _ _ ↦ default }
    (fun _ ↦ .returned) (stopWorld [.text "t1"] (fun _ ↦ .returned))
    (dumps_stopWorld _ (by decide)) _ _).mpr ?_
  intro userId items h
  obtain ⟨rfl, rfl⟩ := (namesTasks_stopWorld _ _ _).unique h
  exact .inl rfl

/-- The second item is not a string: the answer is an error, and the first task is gone. -/
theorem not_stopsAsAnswered_illTyped :
    ¬StopsAsAnswered (stopWorld [.text "t1", .numberInteger 5] (fun _ ↦ .returned))
      { target := bytes "/stop_price_tasks", method := .post } oneTimeTask := by
  rw [stopsAsAnswered_names _ _ (bytes "u1") (stopWorld _ _) rfl (dumps_stopWorld _ (by decide))
    (namesTasks_stopWorld _ _ _)]
  unfold HarmlessStop
  decide +kernel

end KeepMyJournal.HttpStream
