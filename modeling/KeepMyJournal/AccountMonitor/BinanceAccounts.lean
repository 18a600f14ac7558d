import KeepMyJournal.AccountMonitor.BinanceEvents
import KeepMyJournal.AccountMonitor.Launcher

/-!
# The Binance accounts that are monitored

`binanceAccountMonitor` (`account_monitor/src/watches_launcher.cpp:113–155`) adds and removes the
streams of `binanceStreams` as its tasks say (`binance_user_stream.cpp:360–381`), while the
operations of all of them complete in any order. What their messages hold is appended to the sink.
A handler or a destructor whose `close` throws ends the program, and with it the run.
-/

namespace KeepMyJournal.AccountMonitor.Binance

open KeepMyJournal.Base KeepMyJournal.Common

/-- A stream and the account it was made for; `listed` says that `binanceStreams` holds it. A
stream that has been erased lives on in the handlers of its operations, until it is destroyed. -/
structure AccountStream where
  userInfo : AccountInfo
  stream : State
  listed : Bool := true
  destroyed : Bool := false

/-- All streams in the order in which they were made, and the messages that have been read, each
with the account of its stream. -/
structure Accounts where
  streams : List AccountStream := []
  delivered : List (AccountInfo × Bytes) := []

/-- A task is received, a stream moves, or a stream is destroyed. -/
inductive AccountsEvent where
  | task (optTask : Option AccountScheduledTask)
  | notify (place : ℕ) (frameType : FrameType)
  | complete (place : ℕ) (op : Op) (result : Completion)
  | destroy (place : ℕ) (closeReturns : Bool)

/-- The handler of the operation holds the stream it was started by. -/
def Op.holdsStream : Op → Bool
  | .close | .keepalive _ => false
  | _ => true

namespace Accounts

/-- The accounts of `binanceStreams`. -/
def listed (s : Accounts) : List AccountInfo :=
  (s.streams.filter AccountStream.listed).map AccountStream.userInfo

/-- `addBinanceAccountStream`. -/
def add (s : Accounts) (task : AccountInfo) : Accounts :=
  { s with streams := s.streams ++ [{ userInfo := task, stream := .start (BinanceStream.run {}) }] }

/-- `stop` of a stream that is taken off the list. -/
def stop (t : AccountStream) : AccountStream :=
  { t with
    stream :=
      { object := t.stream.object.stop.1
        pending := t.stream.pending ++ t.stream.object.stop.2
        started := t.stream.object.stop.2
        stopped := true }
    listed := false }

/-- The first stream of the account that is listed is stopped and taken off the list. -/
def eraseStream (info : AccountInfo) : List AccountStream → List AccountStream
  | [] => []
  | t :: rest =>
    if t.listed && t.userInfo == info then stop t :: rest else t :: eraseStream info rest

/-- `removeBinanceAccountStream`. -/
def remove (s : Accounts) (info : AccountInfo) : Accounts :=
  { s with streams := eraseStream info s.streams }

/-- One iteration of the loop of `binanceAccountMonitor`, without its report. -/
def receive (s : Accounts) : Option AccountScheduledTask → Accounts
  | none => s
  | some task =>
    if task.exchange ≠ .binance then s
    else
      match task.operation with
      | .add => s.add (acctInfoFromTask task)
      | .remove => s.remove (acctInfoFromTask task)
      | .update => s

variable (parse : JsonParse) (closeReturns : Severance → Bool) (toString : ℚ → Bytes)

/-- A stream takes a step of its own. -/
def move (s : Accounts) (place : ℕ) (t : AccountStream) (e : Event) : Option Accounts :=
  (Async.step (BinanceStream.handlers parse closeReturns) t.stream e).map fun stream ↦
    { s with streams := s.streams.set place { t with stream := stream } }

/-- A stream that neither the list nor a handler holds is destroyed. -/
def destroy (s : Accounts) (place : ℕ) (t : AccountStream) (closeReturns : Bool) :
    Option Accounts :=
  if t.listed || t.destroyed || t.stream.pending.any Op.holdsStream then none
  else
    (t.stream.object.destroy closeReturns).toOption.map fun _ ↦
      { s with streams := s.streams.set place { t with destroyed := true } }

/-- The message that a completion hands to `ws_interpret_generic_messages`. -/
def deliveredBy : Op → Completion → Option Bytes
  | .read, .success buffer => some buffer
  | _, _ => none

/-- One step, and what it appends to the sink. -/
def step (s : Accounts) : AccountsEvent → Option (Accounts × List StreamData)
  | .task optTask => some (s.receive optTask, [])
  | .notify place frameType =>
    match s.streams[place]? with
    | none => none
    | some t => (s.move parse closeReturns place t (.notify frameType)).map fun s ↦ (s, [])
  | .complete place op result =>
    match s.streams[place]? with
    | none => none
    | some t => (s.move parse closeReturns place t (.complete op result)).map fun s ↦
        match deliveredBy op result with
        | none => (s, [])
        | some buffer => ({ s with delivered := s.delivered ++ [(t.userInfo, buffer)] },
            eventsOfMessage parse toString t.userInfo.userID buffer)
  | .destroy place closeReturns =>
    match s.streams[place]? with
    | none => none
    | some t => (s.destroy place t closeReturns).map fun s ↦ (s, [])

variable {parse closeReturns toString} {s s' : Accounts}

/-! ### The list -/

private theorem listed_eraseStream (info : AccountInfo) (streams : List AccountStream) :
    listed { streams := eraseStream info streams } =
      removeBinanceAccountStream (listed { streams := streams }) info := by
  unfold removeBinanceAccountStream eraseFirst listed
  induction streams with
  | nil => rfl
  | cons t rest ih =>
    unfold eraseStream
    by_cases hlisted : t.listed = true
    · by_cases hinfo : t.userInfo = info
      · simp [hlisted, hinfo, stop]
      · rw [if_neg (by simp [hinfo])]
        dsimp only at ih ⊢
        rw [List.filter_cons_of_pos hlisted, List.filter_cons_of_pos hlisted, List.map_cons,
          List.map_cons, ih, List.eraseP_cons_of_neg (by simpa using hinfo)]
    · rw [if_neg (by simp [hlisted])]
      dsimp only at ih ⊢
      rw [List.filter_cons_of_neg hlisted, List.filter_cons_of_neg hlisted, ih]

/-- The list is that of the loop. -/
theorem listed_receive (s : Accounts) (optTask : Option AccountScheduledTask)
    (result : Option AccountMonitorTaskResult) : (s.receive optTask).listed =
      (binanceAccountMonitor { streams := s.listed, result := result } optTask).streams := by
  unfold receive binanceAccountMonitor
  cases optTask with
  | none => rfl
  | some task =>
    dsimp only
    split
    · rfl
    · cases task.operation with
      | add => simp [add, listed, addBinanceAccountStream]
      | remove => exact listed_eraseStream _ _
      | update => rfl

/-- The tasks among the events of a run. -/
def tasksOf (events : List AccountsEvent) : List (Option AccountScheduledTask) :=
  events.filterMap fun
    | .task optTask => some optTask
    | _ => none

/-- The list depends on what stands with the streams, not on how they are. -/
private theorem listed_eq (s : Accounts) : s.listed =
    ((s.streams.map fun t ↦ (t.userInfo, t.listed)).filter Prod.snd).map Prod.fst := by
  rw [List.filter_map, List.map_map]
  rfl

private theorem listed_set {place : ℕ} {t t' : AccountStream} (ht : s.streams[place]? = some t)
    (hinfo : t'.userInfo = t.userInfo) (hlisted : t'.listed = t.listed) :
    listed { s with streams := s.streams.set place t' } = s.listed := by
  obtain ⟨hplace, rfl⟩ := List.getElem?_eq_some_iff.mp ht
  rw [listed_eq, listed_eq]
  dsimp only
  rw [List.map_set, hinfo, hlisted]
  have hmap : (s.streams.map fun t ↦ (t.userInfo, t.listed)).set place
      (s.streams[place].userInfo, s.streams[place].listed) =
        s.streams.map fun t ↦ (t.userInfo, t.listed) := by
    rw [← List.map_set, List.set_getElem_self]
  rw [hmap]

private theorem move_spec {place : ℕ} {t : AccountStream} {e : Event}
    (ht : s.streams[place]? = some t) (h : s.move parse closeReturns place t e = some s') :
    s'.listed = s.listed ∧ s'.delivered = s.delivered ∧
      ∃ stream, Async.step (BinanceStream.handlers parse closeReturns) t.stream e = some stream ∧
        s'.streams = s.streams.set place { t with stream := stream } := by
  obtain ⟨stream, hstream, rfl⟩ := Option.map_eq_some_iff.mp h
  exact ⟨listed_set ht rfl rfl, rfl, stream, hstream, rfl⟩

private theorem destroy_spec {place : ℕ} {t : AccountStream} {closeReturns : Bool}
    (ht : s.streams[place]? = some t) (h : s.destroy place t closeReturns = some s') :
    s'.listed = s.listed ∧ s'.delivered = s.delivered ∧
      s'.streams = s.streams.set place { t with destroyed := true } := by
  unfold destroy at h
  split at h
  · cases h
  · obtain ⟨_, -, rfl⟩ := Option.map_eq_some_iff.mp h
    exact ⟨listed_set ht rfl rfl, rfl, rfl⟩

/-- A stream after a step: it is as it was, has been made for a task, has moved, has been stopped
and taken off the list, or has been destroyed. -/
inductive Became (parse : JsonParse) (closeReturns : Severance → Bool) (s : Accounts)
    (e : AccountsEvent) (t' : AccountStream) : Prop
  | same (hmem : t' ∈ s.streams)
  | added {task : AccountScheduledTask} (htask : e = .task (some task))
    (hexchange : task.exchange = .binance) (hadd : task.operation = .add)
    (hnew : t' =
      { userInfo := acctInfoFromTask task, stream := .start (BinanceStream.run {}) })
  | moved {t : AccountStream} (hmem : t ∈ s.streams) {move : Event} (hmove : move ≠ .stop)
    {stream : State}
    (hstep : Async.step (BinanceStream.handlers parse closeReturns) t.stream move = some stream)
    (hmoved : t' = { t with stream := stream })
  | stopped {t : AccountStream} (hmem : t ∈ s.streams) (hstop : t' = stop t)
  | destroyed {t : AccountStream} (hmem : t ∈ s.streams)
    (hdestroyed : t' = { t with destroyed := true })

private theorem mem_eraseStream {info : AccountInfo} {streams : List AccountStream}
    {t' : AccountStream} (h : t' ∈ eraseStream info streams) :
    t' ∈ streams ∨ ∃ t ∈ streams, t' = stop t := by
  induction streams with
  | nil => cases h
  | cons t rest ih =>
    unfold eraseStream at h
    split at h
    · rcases List.mem_cons.mp h with rfl | h
      · exact .inr ⟨t, List.mem_cons_self, rfl⟩
      · exact .inl (List.mem_cons_of_mem t h)
    · rcases List.mem_cons.mp h with rfl | h
      · exact .inl List.mem_cons_self
      · rcases ih h with h | ⟨u, hu, rfl⟩
        · exact .inl (List.mem_cons_of_mem t h)
        · exact .inr ⟨u, List.mem_cons_of_mem t hu, rfl⟩

private theorem became_receive {optTask : Option AccountScheduledTask} {t' : AccountStream}
    (h : t' ∈ (s.receive optTask).streams) : Became parse closeReturns s (.task optTask) t' := by
  unfold receive at h
  split at h
  · exact .same h
  · split at h
    · exact .same h
    · next task hexchange =>
      split at h
      · next hadd =>
        rcases List.mem_append.mp h with h | h
        · exact .same h
        · exact .added rfl (not_not.mp hexchange) hadd (List.mem_singleton.mp h)
      · rcases mem_eraseStream h with h | ⟨t, ht, rfl⟩
        · exact .same h
        · exact .stopped ht rfl
      · exact .same h

private theorem became_move {place : ℕ} {t : AccountStream} {e : AccountsEvent} {move : Event}
    (ht : s.streams[place]? = some t) (hmove : move ≠ .stop)
    (h : s.move parse closeReturns place t move = some s') {t' : AccountStream}
    (ht' : t' ∈ s'.streams) : Became parse closeReturns s e t' := by
  obtain ⟨-, -, stream, hstream, hstreams⟩ := move_spec ht h
  rw [hstreams] at ht'
  rcases List.mem_or_eq_of_mem_set ht' with ht' | rfl
  · exact .same ht'
  · exact .moved (List.mem_of_getElem? ht) hmove hstream rfl

private theorem became_destroy {place : ℕ} {t : AccountStream} {e : AccountsEvent} {returns : Bool}
    (ht : s.streams[place]? = some t) (h : s.destroy place t returns = some s')
    {t' : AccountStream} (ht' : t' ∈ s'.streams) : Became parse closeReturns s e t' := by
  rw [(destroy_spec ht h).2.2] at ht'
  rcases List.mem_or_eq_of_mem_set ht' with ht' | rfl
  · exact .same ht'
  · exact .destroyed (List.mem_of_getElem? ht) rfl

/-- What a step does: to the list, to the streams, and to what is appended. -/
private theorem step_spec {e : AccountsEvent} {out : List StreamData}
    (h : step parse closeReturns toString s e = some (s', out)) :
    (∀ result, s'.listed = ((tasksOf [e]).foldl binanceAccountMonitor
        { streams := s.listed, result := result }).streams) ∧
      (∀ t' ∈ s'.streams, Became parse closeReturns s e t') ∧
      (out = [] ∧ s'.delivered = s.delivered ∨
        ∃ t ∈ s.streams, ∃ buffer, s'.delivered = s.delivered ++ [(t.userInfo, buffer)] ∧
          out = eventsOfMessage parse toString t.userInfo.userID buffer) := by
  cases e with
  | task optTask =>
    obtain ⟨rfl, rfl⟩ := Prod.mk.inj (Option.some.inj h)
    refine ⟨listed_receive s optTask, fun t' ↦ became_receive, .inl ⟨rfl, ?_⟩⟩
    unfold receive
    split
    · rfl
    · split
      · rfl
      · split <;> rfl
  | notify place frameType =>
    unfold step at h
    dsimp only at h
    split at h
    · cases h
    · next t ht =>
      obtain ⟨u, hu, he⟩ := Option.map_eq_some_iff.mp h
      obtain ⟨rfl, rfl⟩ := Prod.mk.inj he
      obtain ⟨hlisted, hdelivered, -⟩ := move_spec ht hu
      exact ⟨fun _ ↦ hlisted, fun t' ↦ became_move ht (by simp) hu, .inl ⟨rfl, hdelivered⟩⟩
  | complete place op result =>
    unfold step at h
    dsimp only at h
    split at h
    · cases h
    · next t ht =>
      obtain ⟨u, hu, he⟩ := Option.map_eq_some_iff.mp h
      obtain ⟨hlisted, hdelivered, -⟩ := move_spec ht hu
      have hbecame : ∀ t' ∈ u.streams, Became parse closeReturns s (.complete place op result) t' :=
        fun t' ↦ became_move ht (by simp) hu
      split at he
      · obtain ⟨rfl, rfl⟩ := Prod.mk.inj he
        exact ⟨fun _ ↦ hlisted, hbecame, .inl ⟨rfl, hdelivered⟩⟩
      · next buffer _ =>
        obtain ⟨rfl, rfl⟩ := Prod.mk.inj he
        refine ⟨fun _ ↦ hlisted, hbecame, .inr ⟨t, List.mem_of_getElem? ht, buffer, ?_, rfl⟩⟩
        rw [hdelivered]
  | destroy place returns =>
    unfold step at h
    dsimp only at h
    split at h
    · cases h
    · next t ht =>
      obtain ⟨u, hu, he⟩ := Option.map_eq_some_iff.mp h
      obtain ⟨rfl, rfl⟩ := Prod.mk.inj he
      obtain ⟨hlisted, hdelivered, -⟩ := destroy_spec ht hu
      exact ⟨fun _ ↦ hlisted, fun t' ↦ became_destroy ht hu, .inl ⟨rfl, hdelivered⟩⟩

/-! ### Runs -/

/-- Over a run the list is that of the loop after the tasks. -/
private theorem listed_run {events : List AccountsEvent} {r r' : Accounts × List StreamData}
    (hrun : Transition.run (Transition.logged (step parse closeReturns toString)) r events =
      some r') (result : Option AccountMonitorTaskResult) :
    r'.1.listed = ((tasksOf events).foldl binanceAccountMonitor
      { streams := r.1.listed, result := result }).streams := by
  induction events generalizing r result with
  | nil =>
    obtain rfl := Option.some.inj hrun
    rfl
  | cons e events ih =>
    rw [Transition.run_cons, Option.bind_eq_some_iff] at hrun
    obtain ⟨u, hu, hrun⟩ := hrun
    obtain ⟨out, hstep, -⟩ := Transition.of_logged hu
    have htasks : tasksOf (e :: events) = tasksOf [e] ++ tasksOf events := by
      rw [← List.singleton_append, tasksOf, List.filterMap_append]
      rfl
    rw [htasks, List.foldl_append]
    have hfirst := (step_spec hstep).1 result
    rw [ih hrun ((tasksOf [e]).foldl binanceAccountMonitor
      { streams := r.1.listed, result := result }).result, hfirst]

/-- A task has been received that adds the account. -/
def AddedBy (events : List AccountsEvent) (info : AccountInfo) : Prop :=
  ∃ task : AccountScheduledTask, .task (some task) ∈ events ∧ task.exchange = .binance ∧
    task.operation = .add ∧ info = acctInfoFromTask task

/-- The events are those that the message describes for its user, or none if it describes none. -/
def Holds (parse : JsonParse) (toString : ℚ → Bytes) (message : AccountInfo × Bytes)
    (events : List StreamData) : Prop :=
  MessageDescribes parse toString message.1.userID message.2 events ∨
    events = [] ∧ ∀ described,
      ¬MessageDescribes parse toString message.1.userID message.2 described

/-- The stream has been told to stop if and only if it is no longer listed, and what has become of
it is a run of its own. -/
def Running (parse : JsonParse) (closeReturns : Severance → Bool) (t : AccountStream) : Prop :=
  (t.stream.stopped = true ↔ t.listed = false) ∧
    ∃ moves, Transition.run (Async.step (BinanceStream.handlers parse closeReturns))
      (.start (BinanceStream.run {})) moves = some t.stream

/-- The streams run, for accounts that have been added, and what has been appended is what the
delivered messages hold. -/
structure Followed (parse : JsonParse) (closeReturns : Severance → Bool) (toString : ℚ → Bytes)
    (events : List AccountsEvent) (r : Accounts × List StreamData) : Prop where
  streams : ∀ t ∈ r.1.streams, Running parse closeReturns t ∧ AddedBy events t.userInfo
  delivered : ∀ message ∈ r.1.delivered, AddedBy events message.1
  results : ∃ batches, List.Forall₂ (Holds parse toString) r.1.delivered batches ∧
    r.2 = batches.flatten

private theorem stopped_of_step {state state' : State} {move : Event} (hmove : move ≠ .stop)
    (h : Async.step (BinanceStream.handlers parse closeReturns) state move = some state') :
    state'.stopped = state.stopped := by
  cases move with
  | stop => exact absurd rfl hmove
  | notify frameType =>
    obtain ⟨object, started, -, rfl⟩ := Async.step_notify h
    rfl
  | complete op result =>
    obtain ⟨-, object, started, -, rfl⟩ := Async.step_complete h
    rfl

private theorem running_of_became {events : List AccountsEvent} {e : AccountsEvent}
    (he : e ∈ events)
    (hs : ∀ t ∈ s.streams, Running parse closeReturns t ∧ AddedBy events t.userInfo)
    {t' : AccountStream} (h : Became parse closeReturns s e t') :
    Running parse closeReturns t' ∧ AddedBy events t'.userInfo := by
  cases h with
  | same hmem => exact hs t' hmem
  | added htask hexchange hadd hnew =>
    subst hnew
    refine ⟨⟨by simp [Async.InFlight.start], [], rfl⟩, ?_⟩
    exact ⟨_, htask ▸ he, hexchange, hadd, rfl⟩
  | @moved t hmem move hmove stream hstep hmoved =>
    subst hmoved
    obtain ⟨⟨hstopped, moves, hrun⟩, hadded⟩ := hs _ hmem
    refine ⟨⟨?_, moves ++ [move], ?_⟩, hadded⟩
    · dsimp only
      rw [stopped_of_step hmove hstep]
      exact hstopped
    · rw [Transition.run_concat, hrun]
      exact hstep
  | stopped hmem hstop =>
    subst hstop
    obtain ⟨⟨hstopped, moves, hrun⟩, hadded⟩ := hs _ hmem
    refine ⟨⟨by simp [stop], moves ++ [.stop], ?_⟩, hadded⟩
    rw [Transition.run_concat, hrun]
    rfl
  | destroyed hmem hdestroyed =>
    subst hdestroyed
    obtain ⟨hrunning, hadded⟩ := hs _ hmem
    exact ⟨hrunning, hadded⟩

private theorem followed_step {events : List AccountsEvent} {e : AccountsEvent} (he : e ∈ events)
    {r r' : Accounts × List StreamData} (hr : Followed parse closeReturns toString events r)
    (h : Transition.logged (step parse closeReturns toString) r e = some r') :
    Followed parse closeReturns toString events r' := by
  obtain ⟨out, hstep, hout⟩ := Transition.of_logged h
  obtain ⟨-, hbecame, happended⟩ := step_spec hstep
  have hstreams : ∀ t' ∈ r'.1.streams, Running parse closeReturns t' ∧ AddedBy events t'.userInfo :=
    fun t' ht' ↦ running_of_became he hr.streams (hbecame t' ht')
  obtain ⟨batches, hbatches, hresults⟩ := hr.results
  rcases happended with ⟨rfl, hdelivered⟩ | ⟨t, ht, buffer, hdelivered, rfl⟩
  · refine ⟨hstreams, hdelivered ▸ hr.delivered, batches, hdelivered ▸ hbatches, ?_⟩
    rw [hout, List.append_nil, hresults]
  · refine ⟨hstreams, ?_, batches ++ [eventsOfMessage parse toString t.userInfo.userID buffer],
      ?_, ?_⟩
    · rw [hdelivered, List.forall_mem_append]
      exact ⟨hr.delivered, fun message hmessage ↦
        (List.mem_singleton.mp hmessage) ▸ (hr.streams t ht).2⟩
    · rw [hdelivered]
      exact List.rel_append hbatches (.cons (eventsOfMessage_spec _ _ _ _) .nil)
    · rw [hout, hresults, List.flatten_append, List.flatten_singleton]

/-- Over every run the messages are followed. -/
theorem followed_run {events : List AccountsEvent} {r : Accounts × List StreamData}
    (hrun : Transition.run (Transition.logged (step parse closeReturns toString)) ({}, []) events =
      some r) : Followed parse closeReturns toString events r := by
  refine Transition.inv_run_of_mem (fun r e he r' hr h ↦ followed_step he hr h) ?_ hrun
  exact ⟨by simp, by simp, [], .nil, rfl⟩

/-- Where the users are known by UTF-8, all that has been appended can be written. -/
theorem Followed.dumps {events : List AccountsEvent} {r : Accounts × List StreamData}
    (hr : Followed parse closeReturns toString events r)
    (hparse : ∀ text value, parse text = .ok value → value.dumps = true)
    (htoString : ∀ x, Json.isUtf8 (toString x) = true)
    (husers : ∀ task : AccountScheduledTask, .task (some task) ∈ events →
      Json.isUtf8 task.userID = true) : ∀ data ∈ r.2, data.toJson.dumps = true := by
  obtain ⟨batches, hbatches, hresults⟩ := hr.results
  intro data hdata
  rw [hresults] at hdata
  obtain ⟨batch, hbatch, hdata⟩ := List.mem_flatten.mp hdata
  obtain ⟨place, hplace, rfl⟩ := List.getElem_of_mem hbatch
  have hlength := hbatches.length_eq
  have hholds := hbatches.get (hlength ▸ hplace) hplace
  obtain ⟨task, htask, -, -, hinfo⟩ := hr.delivered _ (List.get_mem _ ⟨place, hlength ▸ hplace⟩)
  rcases hholds with hdescribes | ⟨hnone, -⟩
  · refine dumps_of_messageDescribes hparse htoString ?_ hdescribes data hdata
    rw [hinfo]
    exact husers task htask
  · rw [List.get_eq_getElem] at hnone
    rw [hnone] at hdata
    cases hdata

/-- In every run of the loop with the operations of all its streams: the list is the loop's, a
stream has been told to stop if and only if it is no longer listed, each stream goes through a run
of its own, and what is appended to the sink is what the delivered messages describe, message after
message, each for the user of its stream, for whom a task has been received. -/
theorem monitored_of_run {events : List AccountsEvent} {results : List StreamData}
    (hrun : Transition.run (Transition.logged (step parse closeReturns toString)) ({}, []) events =
      some (s, results)) :
    s.listed = ((tasksOf events).foldl binanceAccountMonitor {}).streams ∧
      (∀ t ∈ s.streams, Running parse closeReturns t ∧ AddedBy events t.userInfo) ∧
      (∀ message ∈ s.delivered, AddedBy events message.1) ∧
      ∃ batches, List.Forall₂ (Holds parse toString) s.delivered batches ∧
        results = batches.flatten := by
  have hfollowed := followed_run hrun
  exact ⟨listed_run hrun none, hfollowed.streams, hfollowed.delivered, hfollowed.results⟩

/-- A parser that knows a listen key and a change of a balance. -/
def accountParse : JsonParse := fun buffer ↦
  if buffer = bytes "key" then .ok (.object [(bytes "listenKey", .string (bytes "pqia91"))])
  else if buffer = bytes "balance" then
    .ok (.object [(bytes "E", .numberInteger 3), (bytes "T", .numberInteger 4),
      (bytes "a", .string (bytes "BTC")), (bytes "d", .string (bytes "7")),
      (bytes "e", .string (bytes "balanceUpdate"))])
  else .error .parseError

/-- A task for the account of a user. -/
def accountTask (operation : TaskOperation) : AccountScheduledTask :=
  { userID := bytes "u1", exchange := .binance, tradeType := .spot, operation := operation }

/-- The operations of a stream up to its first message. -/
def firstMessage : List AccountsEvent :=
  [.rest .resolve, .rest .connect, .rest .sslHandshake, .rest .write].map
      (fun op ↦ .complete 0 op (.success [])) ++
    [.complete 0 (.rest .read) (.success (bytes "key"))] ++
    [.resolve, .connect, .sslHandshake, .wsHandshake].map
      (fun op ↦ .complete 0 op (.success [])) ++
    [.complete 0 .read (.success (bytes "balance"))]

/-- An account is added, and removed while the next message is being read. -/
private def removedReading : List AccountsEvent :=
  .task (some (accountTask .add)) :: firstMessage ++
    [.task (some (accountTask .remove)), .complete 0 .read (.success (bytes "balance"))]

/-- Both messages count; the stream that has read them is no longer listed. -/
theorem monitored_of_run_removedReading :
    ∃ s results, Transition.run
        (Transition.logged (step accountParse (fun _ ↦ true) fun _ ↦ [])) ({}, []) removedReading =
          some (s, results) ∧ s.listed = [] ∧ results.length = 2 ∧
      (∀ t ∈ s.streams, Running accountParse (fun _ ↦ true) t ∧ AddedBy removedReading t.userInfo) ∧
      ∃ batches, List.Forall₂ (Holds accountParse fun _ ↦ []) s.delivered batches ∧
        results = batches.flatten := by
  have hrun : (Transition.run
      (Transition.logged (step accountParse (fun _ ↦ true) fun _ ↦ [])) ({}, []) removedReading).map
      (fun r ↦ (r.1.listed, r.2.length)) = some ([], 2) := by decide +kernel
  obtain ⟨⟨s, results⟩, hs, hlists⟩ := Option.map_eq_some_iff.mp hrun
  obtain ⟨hlisted, hresults⟩ := Prod.mk.inj hlists
  obtain ⟨-, hstreams, -, hbatches⟩ := monitored_of_run hs
  exact ⟨s, results, hs, hlisted, hresults, hstreams, hbatches⟩

end Accounts

end KeepMyJournal.AccountMonitor.Binance
