import KeepMyJournal.AccountMonitor.Launcher

/-!
# Account tasks and their results

`queue_account_stream_tasks` and `monitor_scheduled_tasks_result`,
`http_stream/src/scheduled_account_tasks.cpp:18–94`, with the monitor loops that answer
(`account_monitor/src/watches_launcher.cpp:126–235`). A request is known by the number of
requests before it; a result is kept with the request it was produced for, which the source
does not record. Each append, search, test, reply and time-out is one step.

A round of the loop searches, sleeps for 100 ms and tests. Between the search and the test the
request keeps the `end()` its search has given. The standard does not say what this iterator is once
a result has been stored or erased; with libstdc++ it points at the first result stored since, or,
when results have been taken, at none.
-/

namespace KeepMyJournal.HttpStream

open KeepMyJournal.Base KeepMyJournal.Common KeepMyJournal.AccountMonitor

/-- The three monitor loops. -/
structure Monitors where
  binance : MonitorLoop AccountInfo := {}
  kucoin : MonitorLoop KucoinStreamInfo := {}
  okex : MonitorLoop AccountInfo := {}
  deriving DecidableEq, Repr

/-- The loop of the task's exchange takes the task; what it appends to `monitorStatusResults`. -/
def Monitors.iterate (m : Monitors) (task : AccountScheduledTask) :
    Monitors × Option AccountMonitorTaskResult :=
  match task.exchange with
  | .binance =>
    let loop := binanceAccountMonitor m.binance (some task)
    ({ m with binance := loop }, loop.result)
  | .kucoin =>
    let loop := kucoinAccountMonitor m.kucoin (some task)
    ({ m with kucoin := loop }, loop.result)
  | .okex =>
    let loop := okexAccountMonitor m.okex (some task)
    ({ m with okex := loop }, loop.result)
  | .total => (m, none)

/-- A result, with the request it was produced for. -/
structure ProducedResult where
  request : Nat
  result : AccountMonitorTaskResult
  deriving DecidableEq, Repr

/-- The server and the monitors between two steps. `tasks` are the requests in
`taskMonitorQueue` or on their way to a monitor, `replies` the results on their way back,
`waiting` the requests whose `queue_account_stream_tasks` runs, `returned` what it has returned.
`asleep` and `stale` are the requests that sleep; `monitoredTaskResults` has changed since the
search of a stale one. Once a test has read what is no result, the rest is `undefined`. -/
structure AccountTasks where
  requests : List AccountScheduledTask := []
  tasks : List Nat := []
  monitors : Monitors := {}
  replies : List ProducedResult := []
  monitoredTaskResults : List ProducedResult := []
  waiting : List Nat := []
  asleep : List Nat := []
  stale : List Nat := []
  returned : List (Nat × ProducedResult) := []
  undefined : Bool := false

/-- What can happen next. A test finds `iter` at `end()`, or else at a place, which is one of a
stored result or behind them. -/
inductive AccountTaskEvent where
  | request (task : AccountScheduledTask)
  | monitor (request : Nat)
  | receive (reply : ProducedResult)
  | lose (request : Nat)
  | search (request : Nat)
  | test (request : Nat) (place : Option Nat)
  | timeOut (request : Nat)
  deriving DecidableEq, Repr

/-- `resultBufferLimit`. -/
def resultBufferLimit : Nat := 5000

/-- Every loop answers with the ids of the task, and each exchange has a loop. -/
theorem Monitors.result_iterate (m : Monitors) {task : AccountScheduledTask}
    (h : task.exchange ≠ .total) :
    ∃ state, (m.iterate task).2 =
      some { state := state, userID := task.userID, taskID := task.taskID } := by
  obtain ⟨userID, taskID, apiKey, secretKey, passphrase, exchange, tradeType, operation⟩ := task
  cases exchange with
  | total => exact absurd rfl h
  | binance => cases operation <;> exact ⟨_, rfl⟩
  | kucoin => cases operation <;> exact ⟨_, rfl⟩
  | okex => cases operation <;> exact ⟨_, rfl⟩

namespace AccountTasks

/-- `taskMonitorQueue.append`, at the beginning of `queue_account_stream_tasks`. -/
def queued (s : AccountTasks) (task : AccountScheduledTask) : AccountTasks :=
  { s with
    requests := s.requests ++ [task]
    tasks := s.tasks ++ [s.requests.length]
    waiting := s.waiting ++ [s.requests.length] }

/-- A monitor has read the task of a request. -/
def monitored (s : AccountTasks) (request : Nat) (task : AccountScheduledTask) : AccountTasks :=
  { s with
    tasks := s.tasks.erase request
    monitors := (s.monitors.iterate task).1
    replies := s.replies ++
      (s.monitors.iterate task).2.toList.map (fun r ↦ { request := request, result := r }) }

/-- `monitor_scheduled_tasks_result` has received a result. -/
def received (s : AccountTasks) (reply : ProducedResult) : AccountTasks :=
  let kept :=
    if s.monitoredTaskResults.length = resultBufferLimit then s.monitoredTaskResults.drop 1
    else s.monitoredTaskResults
  { s with
    replies := s.replies.erase reply
    monitoredTaskResults := kept ++ [reply]
    asleep := []
    stale := s.stale ++ s.asleep }

/-- The search predicate of `queue_account_stream_tasks`. -/
def hasTaskID (task : AccountScheduledTask) (r : ProducedResult) : Bool :=
  r.result.taskID == task.taskID

/-- A request does not sleep any more. -/
def awakened (s : AccountTasks) (request : Nat) : AccountTasks :=
  { s with
    asleep := s.asleep.filter (· != request)
    stale := s.stale.filter (· != request) }

/-- `auto result = *iter; monitoredTaskResults.erase(iter); return result;`, with what is left. -/
def handedOut (s : AccountTasks) (request : Nat) (found : ProducedResult)
    (left : List ProducedResult) : AccountTasks :=
  { s with
    monitoredTaskResults := left
    waiting := s.waiting.erase request
    asleep := []
    stale := (s.stale ++ s.asleep).filter (· != request)
    returned := s.returned ++ [(request, found)] }

/-- The search of a round: the first result with the task id is handed out, or the request goes to
sleep. -/
def searched (s : AccountTasks) (request : Nat) (task : AccountScheduledTask) : AccountTasks :=
  match s.monitoredTaskResults.find? (hasTaskID task) with
  | none => { s with asleep := s.asleep ++ [request] }
  | some found =>
    s.handedOut request found (s.monitoredTaskResults.eraseP (hasTaskID task))

/-- A stale iterator that is not at `end()` gives the result at its place, if there is one. -/
def foundAt (s : AccountTasks) (request place : Nat) : AccountTasks :=
  match s.monitoredTaskResults[place]? with
  | none => { s with undefined := true }
  | some found => s.handedOut request found (s.monitoredTaskResults.eraseIdx place)

/-- The task of a request, or its result, is lost on its way. -/
def lost (s : AccountTasks) (request : Nat) : AccountTasks :=
  { s with
    tasks := s.tasks.erase request
    replies := s.replies.eraseP (fun r ↦ r.request == request) }

/-- The loop of a request ends without a result. -/
def timedOut (s : AccountTasks) (request : Nat) : AccountTasks :=
  { s.awakened request with waiting := s.waiting.erase request }

/-- One step of what is defined. `monitor_user_account` queues no task without an exchange; what is
published may be lost; a loop that has run for 20 s ends without a result. A test of an iterator
that nothing has changed finds it at `end()`, and the loop goes on; a stale one may be found there,
or anywhere. -/
def next (s : AccountTasks) : AccountTaskEvent → Option AccountTasks
  | .request task => if task.exchange = .total then none else some (s.queued task)
  | .monitor request =>
    if request ∈ s.tasks then (s.requests[request]?).map (s.monitored request) else none
  | .receive reply => if reply ∈ s.replies then some (s.received reply) else none
  | .lose request => some (s.lost request)
  | .search request =>
    if request ∈ s.waiting ∧ request ∉ s.asleep ++ s.stale then
      (s.requests[request]?).map (s.searched request)
    else none
  | .test request none =>
    if request ∈ s.waiting ∧ request ∈ s.asleep ++ s.stale then some (s.awakened request)
    else none
  | .test request (some place) =>
    if request ∈ s.waiting ∧ request ∈ s.stale then some (s.foundAt request place) else none
  | .timeOut request =>
    if request ∈ s.waiting ∧ request ∈ s.asleep ++ s.stale then some (s.timedOut request)
    else none

/-- One step; nothing follows undefined behaviour. -/
def step (s : AccountTasks) (e : AccountTaskEvent) : Option AccountTasks :=
  if s.undefined then none else s.next e

/-- A result belongs to a request: it was produced for it, and carries its user and task id. -/
def Own (s : AccountTasks) (request : Nat) (r : ProducedResult) : Prop :=
  r.request = request ∧ ∃ task, s.requests[request]? = some task ∧
    r.result.userID = task.userID ∧ r.result.taskID = task.taskID

/-- Nothing undefined has happened, and every result returned belongs to its request. -/
def ReturnsOwn (s : AccountTasks) : Prop :=
  s.undefined = false ∧ ∀ answer ∈ s.returned, s.Own answer.1 answer.2

/-- The requests that wait, or whose task or result is still somewhere. -/
def live (s : AccountTasks) : List Nat :=
  s.waiting ++ s.tasks ++ (s.replies ++ s.monitoredTaskResults).map ProducedResult.request

/-- No live request has the task id. -/
def Fresh (s : AccountTasks) (task : AccountScheduledTask) : Prop :=
  ∀ request ∈ s.live, ∀ other ∈ s.requests[request]?, other.taskID ≠ task.taskID

/-- If the step is a request, its task id is fresh. -/
def FreshRequest (s : AccountTasks) : AccountTaskEvent → AccountTasks → Prop
  | .request task, _ => s.Fresh task
  | _, _ => True

/-- At a place there is a result, with the task id of the request. -/
def Apt (s : AccountTasks) (request place : Nat) : Prop :=
  ∃ r ∈ s.monitoredTaskResults[place]?, ∀ task ∈ s.requests[request]?,
    r.result.taskID = task.taskID

/-- If the step is a test that finds a stale iterator at a place, there is a result with the task
id. -/
def AptTest (s : AccountTasks) : AccountTaskEvent → AccountTasks → Prop
  | .test request (some place), _ => s.Apt request place
  | _, _ => True

instance (s : AccountTasks) (e : AccountTaskEvent) (s' : AccountTasks) :
    Decidable (FreshRequest s e s') :=
  match e with
  | .request task =>
    inferInstanceAs (Decidable
      (∀ request ∈ s.live, ∀ other ∈ s.requests[request]?, other.taskID ≠ task.taskID))
  | .monitor _ | .receive _ | .lose _ | .search _ | .test _ _ | .timeOut _ =>
    inferInstanceAs (Decidable True)

instance (s : AccountTasks) (e : AccountTaskEvent) (s' : AccountTasks) :
    Decidable (AptTest s e s') :=
  match e with
  | .test request (some place) =>
    inferInstanceAs (Decidable
      (∃ r ∈ s.monitoredTaskResults[place]?, ∀ task ∈ s.requests[request]?,
        r.result.taskID = task.taskID))
  | .request _ | .monitor _ | .receive _ | .lose _ | .search _ | .test _ none | .timeOut _ =>
    inferInstanceAs (Decidable True)

/-! ### One step -/

variable {s s' : AccountTasks}

private theorem mem_live {request : Nat} :
    request ∈ s.live ↔ request ∈ s.waiting ∨ request ∈ s.tasks ∨
      ∃ r ∈ s.replies ++ s.monitoredTaskResults, r.request = request := by
  rw [live, List.mem_append, List.mem_append, List.mem_map, or_assoc]

/-- What a step can do. -/
inductive Effect (s : AccountTasks) : AccountTaskEvent → AccountTasks → Prop where
  | request {task : AccountScheduledTask} (hx : task.exchange ≠ .total) :
    Effect s (.request task) (s.queued task)
  | monitor {request : Nat} {task : AccountScheduledTask} (hm : request ∈ s.tasks)
    (ht : s.requests[request]? = some task) : Effect s (.monitor request) (s.monitored request task)
  | receive {reply : ProducedResult} (hm : reply ∈ s.replies) :
    Effect s (.receive reply) (s.received reply)
  | lose {request : Nat} : Effect s (.lose request) (s.lost request)
  | search {request : Nat} {task : AccountScheduledTask} (hm : request ∈ s.waiting)
    (ht : s.requests[request]? = some task) : Effect s (.search request) (s.searched request task)
  | awake {request : Nat} (hm : request ∈ s.waiting) :
    Effect s (.test request none) (s.awakened request)
  | found {request place : Nat} {found : ProducedResult} (hm : request ∈ s.waiting)
    (hfound : s.monitoredTaskResults[place]? = some found) :
    Effect s (.test request (some place))
      (s.handedOut request found (s.monitoredTaskResults.eraseIdx place))
  | undefined {request place : Nat} (hm : request ∈ s.waiting)
    (hnone : s.monitoredTaskResults[place]? = none) :
    Effect s (.test request (some place)) { s with undefined := true }
  | timeOut {request : Nat} (hm : request ∈ s.waiting) :
    Effect s (.timeOut request) (s.timedOut request)

/-- What every step but a request does: nothing becomes live, a result is moved or produced by
a monitor, and a waiting request returns only a stored result. -/
structure Shrinks (s s' : AccountTasks) : Prop where
  requests : s'.requests = s.requests
  waiting : ∀ request ∈ s'.waiting, request ∈ s.waiting
  tasks : ∀ request ∈ s'.tasks, request ∈ s.tasks
  results : ∀ r ∈ s'.replies ++ s'.monitoredTaskResults,
    r ∈ s.replies ++ s.monitoredTaskResults ∨ r.request ∈ s.tasks ∧ s.Own r.request r
  returned : ∀ answer ∈ s'.returned, answer ∈ s.returned ∨
    answer.1 ∈ s.waiting ∧ answer.2 ∈ s.monitoredTaskResults

private theorem shrinks_monitored {request : Nat} {task : AccountScheduledTask}
    (hm : request ∈ s.tasks) (ht : s.requests[request]? = some task)
    (hx : task.exchange ≠ .total) : Shrinks s (s.monitored request task) := by
  obtain ⟨state, hresult⟩ := s.monitors.result_iterate hx
  constructor
  · rfl
  · exact fun _ ↦ id
  · exact fun _ ↦ List.mem_of_mem_erase
  · intro r hr
    unfold monitored at hr
    dsimp only at hr
    rw [hresult, Option.toList_some, List.map_singleton, List.mem_append, List.mem_append,
      List.mem_singleton] at hr
    rcases hr with (hr | rfl) | hr
    · exact .inl (List.mem_append_left _ hr)
    · exact .inr ⟨hm, rfl, task, ht, rfl, rfl⟩
    · exact .inl (List.mem_append_right _ hr)
  · exact fun _ ↦ .inl

private theorem mem_received {reply r : ProducedResult}
    (h : r ∈ (s.received reply).monitoredTaskResults) :
    r ∈ s.monitoredTaskResults ∨ r = reply := by
  unfold received at h
  dsimp only at h
  rw [List.mem_append, List.mem_singleton] at h
  refine h.imp_left ?_
  split
  · exact List.mem_of_mem_drop
  · exact id

private theorem shrinks_received {reply : ProducedResult} (hm : reply ∈ s.replies) :
    Shrinks s (s.received reply) := by
  constructor
  · rfl
  · exact fun _ ↦ id
  · exact fun _ ↦ id
  · intro r hr
    rw [List.mem_append] at hr
    rcases hr with hr | hr
    · exact .inl (List.mem_append_left _ (List.mem_of_mem_erase hr))
    · rcases mem_received hr with hr | rfl
      · exact .inl (List.mem_append_right _ hr)
      · exact .inl (List.mem_append_left _ hm)
  · exact fun _ ↦ .inl

private theorem shrinks_handedOut {request : Nat} {found : ProducedResult}
    {left : List ProducedResult} (hm : request ∈ s.waiting)
    (hfound : found ∈ s.monitoredTaskResults) (hleft : left ⊆ s.monitoredTaskResults) :
    Shrinks s (s.handedOut request found left) := by
  constructor
  · rfl
  · exact fun _ ↦ List.mem_of_mem_erase
  · exact fun _ ↦ id
  · intro r hr
    rw [List.mem_append] at hr
    left
    rcases hr with hr | hr
    · exact List.mem_append_left _ hr
    · exact List.mem_append_right _ (hleft hr)
  · intro answer ha
    rcases List.mem_append.mp ha with ha | ha
    · exact .inl ha
    · obtain rfl := List.mem_singleton.mp ha
      exact .inr ⟨hm, hfound⟩

private theorem shrinks_searched {request : Nat} (hm : request ∈ s.waiting)
    (task : AccountScheduledTask) : Shrinks s (s.searched request task) := by
  unfold searched
  split
  · exact ⟨rfl, fun _ ↦ id, fun _ ↦ id, fun _ ↦ .inl, fun _ ↦ .inl⟩
  · next found hfound =>
    exact shrinks_handedOut hm (List.mem_of_find?_eq_some hfound) List.eraseP_subset

theorem step_eq_some_iff {e : AccountTaskEvent} :
    step s e = some s' ↔ s.undefined = false ∧ s.next e = some s' := by
  unfold step
  rw [← Bool.not_eq_true]
  split
  · next hundefined => exact iff_of_false nofun fun h ↦ h.1 hundefined
  · next hdefined => exact (and_iff_right hdefined).symm

theorem effect_of_step {e : AccountTaskEvent} (h : step s e = some s') : Effect s e s' := by
  obtain ⟨-, h⟩ := step_eq_some_iff.mp h
  cases e with
  | request task =>
    obtain ⟨hx, h⟩ := Option.ite_none_left_eq_some.mp h
    obtain rfl := Option.some.inj h
    exact .request hx
  | monitor request =>
    obtain ⟨hm, h⟩ := Option.ite_none_right_eq_some.mp h
    obtain ⟨task, ht, rfl⟩ := Option.map_eq_some_iff.mp h
    exact .monitor hm ht
  | receive reply =>
    obtain ⟨hm, h⟩ := Option.ite_none_right_eq_some.mp h
    obtain rfl := Option.some.inj h
    exact .receive hm
  | lose request =>
    obtain rfl := Option.some.inj h
    exact .lose
  | search request =>
    obtain ⟨hm, h⟩ := Option.ite_none_right_eq_some.mp h
    obtain ⟨task, ht, rfl⟩ := Option.map_eq_some_iff.mp h
    exact .search hm.1 ht
  | test request place =>
    cases place with
    | none =>
      obtain ⟨hm, h⟩ := Option.ite_none_right_eq_some.mp h
      obtain rfl := Option.some.inj h
      exact .awake hm.1
    | some place =>
      obtain ⟨hm, h⟩ := Option.ite_none_right_eq_some.mp h
      rw [← Option.some.inj h, foundAt]
      split
      · next hnone => exact .undefined hm.1 hnone
      · next found hfound => exact .found hm.1 hfound
  | timeOut request =>
    obtain ⟨hm, h⟩ := Option.ite_none_right_eq_some.mp h
    obtain rfl := Option.some.inj h
    exact .timeOut hm.1

/-- A step is a request, or leaves at most what was live. -/
theorem step_cases {e : AccountTaskEvent}
    (hx : ∀ task ∈ s.requests, task.exchange ≠ .total) (h : step s e = some s') :
    (∃ task, e = .request task ∧ task.exchange ≠ .total ∧ s' = s.queued task) ∨
      Shrinks s s' := by
  cases effect_of_step h with
  | request hne => exact .inl ⟨_, rfl, hne, rfl⟩
  | monitor hm ht => exact .inr (shrinks_monitored hm ht (hx _ (List.mem_of_getElem? ht)))
  | receive hm => exact .inr (shrinks_received hm)
  | lose =>
    right
    refine ⟨rfl, fun _ ↦ id, fun _ ↦ List.mem_of_mem_erase, ?_, fun _ ↦ .inl⟩
    intro r hr
    rw [List.mem_append] at hr
    left
    rcases hr with hr | hr
    · exact List.mem_append_left _ (List.mem_of_mem_eraseP hr)
    · exact List.mem_append_right _ hr
  | search hm ht => exact .inr (shrinks_searched hm _)
  | awake hm => exact .inr ⟨rfl, fun _ ↦ id, fun _ ↦ id, fun _ ↦ .inl, fun _ ↦ .inl⟩
  | found hm hfound =>
    exact .inr (shrinks_handedOut hm (List.mem_of_getElem? hfound) List.eraseIdx_subset)
  | undefined hm hnone => exact .inr ⟨rfl, fun _ ↦ id, fun _ ↦ id, fun _ ↦ .inl, fun _ ↦ .inl⟩
  | timeOut hm =>
    exact .inr ⟨rfl, fun _ ↦ List.mem_of_mem_erase, fun _ ↦ id, fun _ ↦ .inl, fun _ ↦ .inl⟩

private theorem live_of_shrinks (h : Shrinks s s') {request : Nat} (hl : request ∈ s'.live) :
    request ∈ s.live := by
  rw [mem_live] at hl ⊢
  rcases hl with hl | hl | ⟨r, hr, rfl⟩
  · exact .inl (h.waiting request hl)
  · exact .inr (.inl (h.tasks request hl))
  · rcases h.results r hr with hr | ⟨hr, -⟩
    · exact .inr (.inr ⟨r, hr, rfl⟩)
    · exact .inr (.inl hr)

theorem own_of_requests (h : s'.requests = s.requests) {request : Nat}
    {r : ProducedResult} : s'.Own request r ↔ s.Own request r := by
  unfold Own
  rw [h]

theorem getElem?_queued {request : Nat} (h : request < s.requests.length)
    (task : AccountScheduledTask) :
    (s.queued task).requests[request]? = s.requests[request]? := List.getElem?_append_left h

theorem getElem?_queued_self (task : AccountScheduledTask) :
    (s.queued task).requests[s.requests.length]? = some task := by
  unfold queued
  rw [List.getElem?_append_right (Nat.le_refl _), Nat.sub_self]
  rfl

private theorem mem_live_queued {task : AccountScheduledTask} {request : Nat} :
    request ∈ (s.queued task).live ↔ request ∈ s.live ∨ request = s.requests.length := by
  rw [mem_live, mem_live]
  unfold queued
  dsimp only
  rw [List.mem_append, List.mem_append, List.mem_singleton]
  grind

theorem own_queued {request : Nat} {r : ProducedResult} (h : s.Own request r)
    (task : AccountScheduledTask) : (s.queued task).Own request r := by
  obtain ⟨hr, other, ho, hids⟩ := h
  refine ⟨hr, other, ?_, hids⟩
  rw [getElem?_queued (List.getElem?_eq_some_iff.mp ho).choose]
  exact ho

/-! ### Every run -/

/-- Live requests have been made, and the results that have been produced belong to the
requests they were produced for. -/
structure Sound (s : AccountTasks) : Prop where
  bound : ∀ request ∈ s.live, request < s.requests.length
  produced : ∀ r ∈ s.replies ++ s.monitoredTaskResults, s.Own r.request r
  exchange : ∀ task ∈ s.requests, task.exchange ≠ .total

theorem sound_start : Sound {} := by
  constructor
  · intro request h
    cases h
  · intro r h
    cases h
  · intro task h
    cases h

theorem sound_step (hs : Sound s) {e : AccountTaskEvent} (h : step s e = some s') :
    Sound s' := by
  rcases step_cases hs.exchange h with ⟨task, -, hx, rfl⟩ | hsh
  · constructor
    · intro request hl
      have hlen : (s.queued task).requests.length = s.requests.length + 1 := by
        unfold queued
        rw [List.length_append, List.length_singleton]
      rcases mem_live_queued.mp hl with hl | rfl
      · have := hs.bound request hl
        omega
      · omega
    · intro r hr
      exact own_queued (hs.produced r hr) task
    · intro other ho
      rcases List.mem_append.mp ho with ho | ho
      · exact hs.exchange other ho
      · rwa [List.mem_singleton.mp ho]
  · constructor
    · intro request hl
      rw [hsh.requests]
      exact hs.bound request (live_of_shrinks hsh hl)
    · intro r hr
      rw [own_of_requests hsh.requests]
      rcases hsh.results r hr with hr | ⟨-, hr⟩
      · exact hs.produced r hr
      · exact hr
    · rw [hsh.requests]
      exact hs.exchange

/-- A search hands out a result with the task id, and so does a test that is apt. -/
theorem taskID_of_step (hs : Sound s) {e : AccountTaskEvent} (h : step s e = some s')
    (hapt : AptTest s e s') :
    ∀ answer ∈ s'.returned, answer ∈ s.returned ∨
      ∃ task, s.requests[answer.1]? = some task ∧ answer.2.result.taskID = task.taskID := by
  intro answer ha
  cases effect_of_step h with
  | request | monitor | receive | lose | awake | undefined | timeOut => exact .inl ha
  | @search request task hm ht =>
    unfold searched at ha
    split at ha
    · exact .inl ha
    · next found hfound =>
      rcases List.mem_append.mp ha with ha | ha
      · exact .inl ha
      · obtain rfl := List.mem_singleton.mp ha
        have hid : hasTaskID task found = true := List.find?_some hfound
        exact .inr ⟨task, ht, beq_iff_eq.mp hid⟩
  | @found request place found hm hfound =>
    rcases List.mem_append.mp ha with ha | ha
    · exact .inl ha
    · obtain rfl := List.mem_singleton.mp ha
      obtain ⟨task, ht⟩ : ∃ task, s.requests[request]? = some task :=
        ⟨_, List.getElem?_eq_getElem (hs.bound request (mem_live.mpr (.inl hm)))⟩
      obtain ⟨r, hr, hids⟩ := hapt
      obtain rfl := Option.some.inj (hfound.symm.trans hr)
      exact .inr ⟨task, ht, hids task ht⟩

/-- Only a test that finds no result is undefined. -/
private theorem defined_of_step {e : AccountTaskEvent} (h : step s e = some s')
    (hapt : AptTest s e s') : s'.undefined = false := by
  have hdefined : s.undefined = false := (step_eq_some_iff.mp h).1
  cases effect_of_step h with
  | request | monitor | receive | lose | awake | found | timeOut => exact hdefined
  | search =>
    unfold searched
    split <;> exact hdefined
  | undefined hm hnone =>
    obtain ⟨r, hr, -⟩ := hapt
    cases hnone.symm.trans hr

/-- Live requests have different task ids, and what was returned belongs to its request. -/
private structure Distinct (s : AccountTasks) : Prop where
  ids : ∀ i ∈ s.live, ∀ j ∈ s.live, ∀ a b, s.requests[i]? = some a → s.requests[j]? = some b →
    a.taskID = b.taskID → i = j
  own : s.ReturnsOwn

private theorem distinct_queued (hs : Sound s) (hd : Distinct s) {task : AccountScheduledTask}
    (hfresh : s.Fresh task) : Distinct (s.queued task) := by
  have hnew : (s.queued task).requests[s.requests.length]? = some task := getElem?_queued_self task
  have hother : ∀ request ∈ s.live, ∀ other, (s.queued task).requests[request]? = some other →
      other.taskID ≠ task.taskID := by
    intro request hl other ho
    rw [getElem?_queued (hs.bound request hl)] at ho
    exact hfresh request hl other ho
  constructor
  · intro i hi j hj a b ha hb hab
    rcases mem_live_queued.mp hi with hi | rfl
    · rcases mem_live_queued.mp hj with hj | rfl
      · rw [getElem?_queued (hs.bound i hi)] at ha
        rw [getElem?_queued (hs.bound j hj)] at hb
        exact hd.ids i hi j hj a b ha hb hab
      · obtain rfl := Option.some.inj (hnew.symm.trans hb)
        exact absurd hab (hother i hi a ha)
    · rcases mem_live_queued.mp hj with hj | rfl
      · obtain rfl := Option.some.inj (hnew.symm.trans ha)
        exact absurd hab.symm (hother j hj b hb)
      · rfl
  · exact ⟨hd.own.1, fun answer ha ↦ own_queued (hd.own.2 answer ha) task⟩

private theorem distinct_shrinks (hs : Sound s) (hd : Distinct s) (h : Shrinks s s')
    (hdefined : s'.undefined = false)
    (hids : ∀ answer ∈ s'.returned, answer ∈ s.returned ∨
      ∃ task, s.requests[answer.1]? = some task ∧ answer.2.result.taskID = task.taskID) :
    Distinct s' := by
  constructor
  · intro i hi j hj a b ha hb
    rw [h.requests] at ha hb
    exact hd.ids i (live_of_shrinks h hi) j (live_of_shrinks h hj) a b ha hb
  · refine ⟨hdefined, fun answer ha ↦ ?_⟩
    rw [own_of_requests h.requests]
    rcases h.returned answer ha with hold | ⟨hwait, hstored⟩
    · exact hd.own.2 answer hold
    rcases hids answer ha with hold | ⟨task, ht, hid⟩
    · exact hd.own.2 answer hold
    · -- the stored result and the waiting request have one task id, so they are of one request
      have hmem := List.mem_append_right s.replies hstored
      obtain ⟨-, other, ho, huser, htask⟩ := hs.produced answer.2 hmem
      have heq : answer.2.request = answer.1 :=
        hd.ids _ (mem_live.mpr (.inr (.inr ⟨answer.2, hmem, rfl⟩))) _ (mem_live.mpr (.inl hwait))
          other task ho ht (htask.symm.trans hid)
      rw [heq] at ho
      exact ⟨heq, other, ho, huser, htask⟩

private theorem distinct_run {es : List AccountTaskEvent}
    (hrun : Transition.run step {} es = some s)
    (hmeets : Transition.Along step (fun s e s' ↦ FreshRequest s e s' ∧ AptTest s e s') {} es) :
    Distinct s := by
  refine (Transition.inv_run_of_along (I := fun s ↦ Sound s ∧ Distinct s) ?_ ?_ hmeets hrun).2
  · rintro s e s' ⟨hs, hd⟩ hstep ⟨hfresh, hapt⟩
    refine ⟨sound_step hs hstep, ?_⟩
    rcases step_cases hs.exchange hstep with ⟨task, rfl, -, rfl⟩ | hsh
    · exact distinct_queued hs hd hfresh
    · exact distinct_shrinks hs hd hsh (defined_of_step hstep hapt)
        (taskID_of_step hs hstep hapt)
  · exact ⟨sound_start, List.forall_mem_nil _, rfl, List.forall_mem_nil _⟩

/-! ### A request whose task id is not fresh -/

/-- Some continuation returns a result to a request it does not belong to. -/
def Strays (s : AccountTasks) : Prop :=
  ∃ es s', Transition.run step s es = some s' ∧ ∃ answer ∈ s'.returned, ¬s'.Own answer.1 answer.2

private theorem strays_of_step {e : AccountTaskEvent} (h : step s e = some s')
    (hstray : Strays s') : Strays s := by
  obtain ⟨es, t, hrun, hanswer⟩ := hstray
  refine ⟨e :: es, t, ?_, hanswer⟩
  rw [Transition.run_cons, h]
  exact hrun

private theorem filter_bne_of_notMem {request : Nat} {l : List Nat} (h : request ∉ l) :
    l.filter (· != request) = l := by
  rw [List.filter_eq_self]
  intro other ho
  rw [bne_iff_ne]
  rintro rfl
  exact h ho

/-- A waiting request that sleeps may be woken, to find its iterator at `end()`. -/
private theorem strays_of_awakened (hdefined : s.undefined = false) {request : Nat}
    (hw : request ∈ s.waiting) (hstray : Strays (s.awakened request)) : Strays s := by
  by_cases hsleeps : request ∈ s.asleep ++ s.stale
  · refine strays_of_step (e := .test request none) (step_eq_some_iff.mpr ⟨hdefined, ?_⟩) hstray
    rw [next, if_pos ⟨hw, hsleeps⟩]
  · rw [List.mem_append, not_or] at hsleeps
    have hsame : s.awakened request = s := by
      unfold awakened
      rw [filter_bne_of_notMem hsleeps.1, filter_bne_of_notMem hsleeps.2]
    rwa [hsame] at hstray

/-- No stored result with the task id is the request's own. -/
private def OnlyOthers (s : AccountTasks) (request : Nat) (task : AccountScheduledTask) : Prop :=
  ∀ r ∈ s.monitoredTaskResults, hasTaskID task r = true → r.request ≠ request

/-- A waiting request strays when a result with its task id is stored, and none is its own. -/
private theorem strays_of_stored (hdefined : s.undefined = false) {request : Nat}
    {task : AccountScheduledTask} {r : ProducedResult} (hw : request ∈ s.waiting)
    (ht : s.requests[request]? = some task) (honly : s.OnlyOthers request task)
    (hr : r ∈ s.monitoredTaskResults) (hid : hasTaskID task r = true) : Strays s := by
  apply strays_of_awakened hdefined hw
  have hawake : request ∉ (s.awakened request).asleep ++ (s.awakened request).stale := by
    simp [awakened]
  cases hfound : s.monitoredTaskResults.find? (hasTaskID task) with
  | none => exact absurd hid (List.find?_eq_none.mp hfound r hr)
  | some found =>
    refine ⟨[.search request], (s.awakened request).searched request task, ?_, (request, found),
      ?_, ?_⟩
    · have hstep : step (s.awakened request) (.search request) =
          some ((s.awakened request).searched request task) := by
        refine step_eq_some_iff.mpr ⟨hdefined, ?_⟩
        rw [next, if_pos ⟨hw, hawake⟩]
        change (s.requests[request]?).map _ = _
        rw [ht]
        rfl
      rw [Transition.run_cons, hstep]
      rfl
    · unfold searched
      change _ ∈ (match s.monitoredTaskResults.find? (hasTaskID task) with
        | none => _
        | some found => _ : AccountTasks).returned
      rw [hfound]
      exact List.mem_append_right _ List.mem_cons_self
    · rintro ⟨h, -⟩
      exact honly found (List.mem_of_find?_eq_some hfound) (List.find?_some hfound) h

/-- It strays as well when such a result is on its way. -/
private theorem strays_of_reply (hdefined : s.undefined = false) {request : Nat}
    {task : AccountScheduledTask} {r : ProducedResult} (hw : request ∈ s.waiting)
    (ht : s.requests[request]? = some task) (honly : s.OnlyOthers request task)
    (hr : r ∈ s.replies) (hid : hasTaskID task r = true) (hne : r.request ≠ request) :
    Strays s := by
  have hstep : step s (.receive r) = some (s.received r) :=
    step_eq_some_iff.mpr ⟨hdefined, if_pos hr⟩
  refine strays_of_step hstep ?_
  refine strays_of_stored (s := s.received r) (r := r) hdefined hw ht ?_ ?_ hid
  · intro other ho hid'
    rcases mem_received ho with ho | rfl
    · exact honly other ho hid'
    · exact hne
  · exact List.mem_append_right _ List.mem_cons_self

/-- It strays as well when another task with its id is still to be read by a monitor. -/
private theorem strays_of_task (hdefined : s.undefined = false) {request : Nat}
    {task : AccountScheduledTask} (hw : request ∈ s.waiting)
    (ht : s.requests[request]? = some task) (honly : s.OnlyOthers request task) {j : Nat}
    {other : AccountScheduledTask} (hj : j ∈ s.tasks) (ho : s.requests[j]? = some other)
    (hx : other.exchange ≠ .total) (hid : other.taskID = task.taskID) (hne : j ≠ request) :
    Strays s := by
  obtain ⟨state, hresult⟩ := s.monitors.result_iterate hx
  have hstep : step s (.monitor j) = some (s.monitored j other) := by
    refine step_eq_some_iff.mpr ⟨hdefined, ?_⟩
    rw [next, if_pos hj, ho]
    rfl
  refine strays_of_step hstep ?_
  refine @strays_of_reply (s.monitored j other) hdefined request task
    { request := j
      result := { state := state, userID := other.userID, taskID := other.taskID } }
    hw ht honly ?_ (beq_iff_eq.mpr hid) hne
  unfold monitored
  dsimp only
  rw [hresult]
  exact List.mem_append_right _ List.mem_cons_self

/-- A request whose task id is not fresh can stray, or make another request stray. -/
private theorem strays_of_not_fresh (hs : Sound s) (hdefined : s.undefined = false)
    {task : AccountScheduledTask} (hx : task.exchange ≠ .total) (h : ¬s.Fresh task) :
    Strays (s.queued task) := by
  simp only [Fresh, Option.mem_def, ne_eq, Classical.not_forall, Classical.not_not,
    exists_prop] at h
  obtain ⟨j, hj, other, ho, hid⟩ := h
  have hjlt := hs.bound j hj
  have hw : s.requests.length ∈ (s.queued task).waiting :=
    List.mem_append_right _ List.mem_cons_self
  have ht : (s.queued task).requests[s.requests.length]? = some task := getElem?_queued_self task
  have honly : (s.queued task).OnlyOthers s.requests.length task := by
    intro r hr _ heq
    have := hs.bound r.request
      (mem_live.mpr (.inr (.inr ⟨r, List.mem_append_right _ hr, rfl⟩)))
    omega
  have ho' : (s.queued task).requests[j]? = some other := by rwa [getElem?_queued hjlt]
  have hown : ∀ r ∈ s.replies ++ s.monitoredTaskResults, r.request = j →
      hasTaskID task r = true := by
    rintro r hr rfl
    obtain ⟨-, other', ho', -, htask⟩ := hs.produced r hr
    obtain rfl := Option.some.inj (ho.symm.trans ho')
    exact beq_iff_eq.mpr (htask.trans hid)
  rcases mem_live.mp hj with hj | hj | ⟨r, hr, hrj⟩
  · by_cases hstored : ∃ r ∈ s.monitoredTaskResults, hasTaskID task r = true
    · obtain ⟨r, hr, hrid⟩ := hstored
      exact strays_of_stored hdefined hw ht honly hr hrid
    · -- the new request's result is the only one with the task id, and the old one takes it
      refine strays_of_task hdefined (List.mem_append_left _ hj) ho' ?_
        (List.mem_append_right _ List.mem_cons_self) ht hx hid.symm (by omega)
      intro r hr hrid _
      refine hstored ⟨r, hr, ?_⟩
      exact beq_iff_eq.mpr ((beq_iff_eq.mp hrid).trans hid)
  · exact strays_of_task hdefined hw ht honly (List.mem_append_left _ hj) ho'
      (hs.exchange other (List.mem_of_getElem? ho)) hid (by omega)
  · rcases List.mem_append.mp hr with hreply | hstored
    · exact strays_of_reply hdefined hw ht honly hreply (hown r hr hrj) (by omega)
    · exact strays_of_stored hdefined hw ht honly hstored (hown r hr hrj)

end AccountTasks

/-- In every run in which each request has a fresh task id, and each test that finds a stale
iterator at a place finds a result with the task id there, nothing undefined happens and every
result returned is the request's own. After any run, a request without a fresh task id has a
continuation in which a result is returned to a request it does not belong to, and a test that finds
another result, or none, returns it at once. -/
theorem returned_own_of_fresh {es : List AccountTaskEvent} {s : AccountTasks}
    (hrun : Transition.run AccountTasks.step {} es = some s) :
    (Transition.Along AccountTasks.step
        (fun s e s' ↦ AccountTasks.FreshRequest s e s' ∧ AccountTasks.AptTest s e s') {} es →
      s.ReturnsOwn) ∧
    (∀ task s', AccountTasks.step s (.request task) = some s' → ¬s.Fresh task → s'.Strays) ∧
    ∀ request place s', AccountTasks.step s (.test request (some place)) = some s' →
      ¬s.Apt request place → ¬s'.ReturnsOwn := by
  have hs := Transition.inv_run (fun _ _ _ hs ↦ AccountTasks.sound_step hs)
    AccountTasks.sound_start hrun
  refine ⟨?_, ?_, ?_⟩
  · intro hmeets
    exact (AccountTasks.distinct_run hrun hmeets).own
  · intro task s' hstep hnot
    have hdefined := (AccountTasks.step_eq_some_iff.mp hstep).1
    cases AccountTasks.effect_of_step hstep with
    | request hx => exact AccountTasks.strays_of_not_fresh hs hdefined hx hnot
  · rintro request place s' hstep hnot ⟨hdefined, hown⟩
    cases AccountTasks.effect_of_step hstep with
    | undefined => cases hdefined
    | @found _ _ found hm hfound =>
      obtain ⟨-, task, ht, -, hid⟩ :=
        hown (request, found) (List.mem_append_right _ List.mem_cons_self)
      refine hnot ⟨found, hfound, fun task' ht' ↦ ?_⟩
      obtain rfl := Option.some.inj (ht.symm.trans ht')
      exact hid

/-- An account task of a user under a task id. -/
private def taskOf (userID taskID : String) : AccountScheduledTask :=
  { userID := bytes userID, taskID := bytes taskID, exchange := .binance, tradeType := .spot,
    operation := .add }

/-- The result a monitor produces for such a task. -/
private def runningOf (request : Nat) (userID taskID : String) : ProducedResult :=
  { request := request
    result := { state := .running, userID := bytes userID, taskID := bytes taskID } }

/-- Two requests with different task ids sleep while the first result arrives, which the old `end()`
of its request then points at. -/
theorem returned_own_twoIds :
    ∃ s, Transition.run AccountTasks.step {}
        [.request (taskOf "u1" "t1"), .request (taskOf "u2" "t2"), .search 0, .search 1,
          .monitor 1, .monitor 0, .receive (runningOf 1 "u2" "t2"), .test 1 (some 0), .test 0 none,
          .receive (runningOf 0 "u1" "t1"), .search 0] = some s ∧
      s.returned = [(1, runningOf 1 "u2" "t2"), (0, runningOf 0 "u1" "t1")] ∧ s.ReturnsOwn :=
  ⟨_, (Option.some_get (by decide +kernel)).symm, by decide +kernel,
    (returned_own_of_fresh (Option.some_get _).symm).1 (by decide +kernel)⟩

/-- A request times out, its result arrives, and is returned to another user's request with the
same task id. -/
private def reusedTaskID : List AccountTaskEvent :=
  [.request (taskOf "u1" "1"), .search 0, .monitor 0, .timeOut 0, .receive (runningOf 0 "u1" "1"),
    .request (taskOf "u2" "1"), .search 1]

/-- The result of one request arrives while another sleeps, whose old `end()` points at it. -/
private def staleEnd : List AccountTaskEvent :=
  [.request (taskOf "u1" "t1"), .request (taskOf "u2" "t2"), .search 0, .monitor 1,
    .receive (runningOf 1 "u2" "t2"), .test 0 (some 0)]

/-- A result is taken while another request sleeps, whose old `end()` is behind the results then. -/
private def takenMeanwhile : List AccountTaskEvent :=
  [.request (taskOf "u1" "t1"), .request (taskOf "u2" "t2"), .monitor 1,
    .receive (runningOf 1 "u2" "t2"), .search 0, .search 1, .test 0 (some 0)]

private theorem not_returnsOwn_of_returned {events : List AccountTaskEvent} {request : Nat}
    {r : ProducedResult} (hne : r.request ≠ request)
    (h : (Transition.run AccountTasks.step {} events).map AccountTasks.returned =
      some [(request, r)]) :
    ∃ s, Transition.run AccountTasks.step {} events = some s ∧ s.returned = [(request, r)] ∧
      ¬s.ReturnsOwn := by
  obtain ⟨s, hrun, hreturned⟩ := Option.map_eq_some_iff.mp h
  refine ⟨s, hrun, hreturned, ?_⟩
  rintro ⟨-, hown⟩
  rw [hreturned] at hown
  exact hne (hown (request, r) List.mem_cons_self).1

/-- A request gets the result of another user's request: of one that has timed out, under the same
task id; or, under whatever task id, of one whose result arrives while it sleeps. Or it reads what
is no result, because one has been taken while it slept. -/
theorem returned_other_users_result :
    (∃ s, Transition.run AccountTasks.step {} reusedTaskID = some s ∧
      s.returned = [(1, runningOf 0 "u1" "1")] ∧ ¬s.ReturnsOwn) ∧
    (∃ s, Transition.run AccountTasks.step {} staleEnd = some s ∧
      s.returned = [(0, runningOf 1 "u2" "t2")] ∧ ¬s.ReturnsOwn) ∧
    ∃ s, Transition.run AccountTasks.step {} takenMeanwhile = some s ∧ s.undefined = true := by
  refine ⟨not_returnsOwn_of_returned (by decide) (by decide +kernel),
    not_returnsOwn_of_returned (by decide) (by decide +kernel), ?_⟩
  have hundefined : (Transition.run AccountTasks.step {} takenMeanwhile).map
      AccountTasks.undefined = some true := by
    decide +kernel
  exact Option.map_eq_some_iff.mp hundefined

end KeepMyJournal.HttpStream
