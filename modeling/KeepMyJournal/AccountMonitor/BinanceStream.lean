import KeepMyJournal.AccountMonitor.Network
import KeepMyJournal.Base.Async
import KeepMyJournal.Common.Json

/-!
# The Binance account stream

`binance_stream_t`, `account_monitor/src/binance_user_stream.cpp:35–228, 319–358`, and the
`userstream_keyalive_t` it starts, as an object with operations in flight. A pointer a handler
dereferences without a test is part of the state; where it is null, the handler is undefined.
What a message appends to the results is left out here.

Whether the synchronous `close` of `on_ws_connection_severed` and of the destructor returns is
Beast's: `closeReturns` says so for each way in which a connection is lost. Nothing catches what it
throws, so that no event comes behind a `close` that has thrown.
-/

namespace KeepMyJournal.AccountMonitor.Binance

open KeepMyJournal.Base KeepMyJournal.Common

/-- `binance_stream_t`; of a pointer that is not read, only whether it is null. -/
structure BinanceStream where
  sslWebStream : Bool := false
  buffer : Bool := false
  onErrorTimer : Bool := false
  listenKeyTimer : Bool := false
  listenKey : Option Bytes := none
  isStopped : Bool := false
  deriving DecidableEq, Repr

/-- The operations of the stream; `keepalive` are those of a `userstream_keyalive_t`, which go
through the same chain as those of the REST client. -/
inductive Op where
  | rest (op : RestOp)
  | resolve | connect | sslHandshake | wsHandshake
  | read | close
  | listenKeyTimer | periodicTimeout | onErrorTimer
  | keepalive (op : RestOp)
  deriving DecidableEq, Repr

/-- `websock::frame_type`. -/
inductive FrameType where
  | close | ping | pong
  deriving DecidableEq, Repr

/-- How a connection is lost: a read fails, or the other side sends a close frame. -/
inductive Severance where
  | failedRead | closeFrame
  deriving DecidableEq, Repr

namespace BinanceStream

/-- `stop`. -/
def stop (s : BinanceStream) : BinanceStream × List Op :=
  ({ s with isStopped := true }, if s.sslWebStream then [.close] else [])

/-- `rest_api_initiate_connection`. -/
def restApiInitiateConnection (s : BinanceStream) : BinanceStream × List Op :=
  if s.isStopped then (s, [])
  else
    ({ s with listenKeyTimer := false, onErrorTimer := false, sslWebStream := true },
      [.rest .resolve])

/-- `run`. -/
def run (s : BinanceStream) : BinanceStream × List Op := s.restApiInitiateConnection

/-- `ws_initiate_connection`. -/
def wsInitiateConnection (s : BinanceStream) : BinanceStream × List Op :=
  if s.isStopped || s.listenKey.isNone then (s, [])
  else ({ s with sslWebStream := true }, [.resolve])

/-- `rest_api_on_data_received`; after an exception it goes on with the listen key it has. -/
def restApiOnDataReceived (parse : JsonParse) (s : BinanceStream) (data : Bytes) :
    BinanceStream × List Op :=
  match parse data >>= Json.getObject with
  | .error _ => wsInitiateConnection { s with sslWebStream := false }
  | .ok result =>
    match result.find (bytes "listenKey") with
    | none => (s, [])
    | some listenKey =>
      match listenKey.getString with
      | .error _ => wsInitiateConnection { s with sslWebStream := false }
      | .ok key => wsInitiateConnection { s with listenKey := some key, sslWebStream := false }

/-- `ws_connect_to_names`. -/
def wsConnectToNames (s : BinanceStream) : Option (BinanceStream × List Op) :=
  if s.sslWebStream then some (s, [.connect]) else none

/-- `ws_perform_ssl_handshake`; `sni` says whether the host name could be set. -/
def wsPerformSslHandshake (s : BinanceStream) (sni : Bool) : Option (BinanceStream × List Op) :=
  if s.sslWebStream then some (s, if sni then [.sslHandshake] else []) else none

/-- `ws_upgrade_to_websocket`. -/
def wsUpgradeToWebsocket (s : BinanceStream) : Option (BinanceStream × List Op) :=
  if s.sslWebStream && s.listenKey.isSome then some (s, [.wsHandshake]) else none

/-- `ws_wait_for_messages`. -/
def wsWaitForMessages (s : BinanceStream) : Option (BinanceStream × List Op) :=
  if s.sslWebStream then some ({ s with buffer := true }, [.read]) else none

/-- `ws_interpret_generic_messages`; what a message throws is caught. -/
def wsInterpretGenericMessages (s : BinanceStream) : Option (BinanceStream × List Op) :=
  if s.buffer then s.wsWaitForMessages else none

/-- `on_ws_connection_severed`, behind the `close`. -/
def severed (s : BinanceStream) : BinanceStream × List Op :=
  ({ s with sslWebStream := false, listenKey := none, listenKeyTimer := false, buffer := false,
            onErrorTimer := true }, [.onErrorTimer])

/-- `on_ws_connection_severed`; a websocket that is there is closed first. -/
def onWsConnectionSevered (closeReturns : Severance → Bool) (severance : Severance)
    (s : BinanceStream) : Except Failure (BinanceStream × List Op) :=
  if s.sslWebStream && !closeReturns severance then .error .exception else .ok s.severed

/-- `~binance_stream_t`. -/
def destroy (closeReturns : Bool) (s : BinanceStream) : Except Failure Unit :=
  if s.sslWebStream && !closeReturns then .error .exception else .ok ()

/-- `on_periodic_time_timeout`. -/
def onPeriodicTimeTimeout (s : BinanceStream) : Option (BinanceStream × List Op) :=
  if s.listenKeyTimer then some (s, [.listenKeyTimer]) else none

/-- `activate_listen_key_keepalive`. -/
def activateListenKeyKeepalive (s : BinanceStream) : BinanceStream × List Op :=
  ({ s with listenKeyTimer := true }, [.listenKeyTimer])

/-- The handler of a successful websocket handshake. -/
def onWsHandshake (s : BinanceStream) : Option (BinanceStream × List Op) :=
  let (s, started) := if s.listenKeyTimer then (s, []) else s.activateListenKeyKeepalive
  s.wsWaitForMessages.map (fun r ↦ (r.1, started ++ r.2))

/-- The handler of the listen-key timer: the key is renewed and the timer posted again. -/
def onListenKeyTimer (s : BinanceStream) (result : Completion) :
    Option (BinanceStream × List Op) :=
  if result.isSuccess && s.sslWebStream then
    if s.listenKey.isSome && s.listenKeyTimer then
      some (s, [.keepalive .resolve, .periodicTimeout])
    else none
  else some (s, [])

/-- The control callback. -/
def controlCallback (closeReturns : Severance → Bool) (s : BinanceStream) (frameType : FrameType) :
    Except Failure (BinanceStream × List Op) :=
  match frameType with
  | .close => if s.isStopped then .ok (s, []) else s.onWsConnectionSevered closeReturns .closeFrame
  | .ping | .pong => .ok (s, [])

/-- The handlers of the operations. -/
def complete (parse : JsonParse) (closeReturns : Severance → Bool) (s : BinanceStream) (op : Op)
    (result : Completion) : Except Failure (BinanceStream × List Op) :=
  match op with
  | .rest op =>
    match restComplete op result with
    | .starts op => .ok (s, [.rest op])
    -- the error callback only logs
    | .errorCallback => .ok (s, [])
    | .successCallback data => .ok (s.restApiOnDataReceived parse data)
  | .resolve => if result.isSuccess then orNullPointer s.wsConnectToNames else .ok (s, [])
  | .connect =>
    match result with
    | .success _ => orNullPointer (s.wsPerformSslHandshake true)
    | .noServerName => orNullPointer (s.wsPerformSslHandshake false)
    | .aborted | .failed => .ok (s, [])
  | .sslHandshake => if result.isSuccess then orNullPointer s.wsUpgradeToWebsocket else .ok (s, [])
  | .wsHandshake => if result.isSuccess then orNullPointer s.onWsHandshake else .ok (s, [])
  | .read =>
    if result.isSuccess then orNullPointer s.wsInterpretGenericMessages
    else s.onWsConnectionSevered closeReturns .failedRead
  | .close => .ok (s, [])
  | .listenKeyTimer => orNullPointer (s.onListenKeyTimer result)
  | .periodicTimeout => orNullPointer s.onPeriodicTimeTimeout
  | .onErrorTimer => .ok (if result.isSuccess then s.restApiInitiateConnection else (s, []))
  | .keepalive op =>
    match restComplete op result with
    | .starts op => .ok (s, [.keepalive op])
    | .errorCallback | .successCallback _ => .ok (s, [])

/-- The stream as an object with operations in flight. A control frame comes during a read. -/
def handlers (parse : JsonParse) (closeReturns : Severance → Bool) :
    Async.Handlers BinanceStream FrameType Op Completion where
  stop := stop
  notify s frameType := (s.controlCallback closeReturns frameType).toOption
  complete s op result := (s.complete parse closeReturns op result).toOption
  reads op := op = .read

variable {closeReturns : Severance → Bool} {severance : Severance} {s : BinanceStream}
  {r : BinanceStream × List Op}

/-- Behind a `close` that returns, the stream is reset. -/
theorem of_onWsConnectionSevered (h : s.onWsConnectionSevered closeReturns severance = .ok r) :
    (s.sslWebStream = true → closeReturns severance = true) ∧ r = s.severed := by
  unfold onWsConnectionSevered at h
  split at h
  · cases h
  · next hreturns =>
    rw [Bool.not_eq_true, Bool.and_eq_false_imp, Bool.not_eq_eq_eq_not] at hreturns
    exact ⟨hreturns, (Except.ok.inj h).symm⟩

theorem controlCallback_close (closeReturns : Severance → Bool) (h : s.isStopped = false) :
    s.controlCallback closeReturns .close = s.onWsConnectionSevered closeReturns .closeFrame := by
  unfold controlCallback
  rw [h]
  rfl

theorem complete_read_failed (parse : JsonParse) (closeReturns : Severance → Bool)
    {result : Completion} (h : result.isSuccess = false) :
    s.complete parse closeReturns .read result =
      s.onWsConnectionSevered closeReturns .failedRead := by
  unfold complete
  rw [h]
  rfl

/-- A control frame is a close frame that finds the stream running, or does nothing. -/
theorem of_controlCallback {frameType : FrameType}
    (h : s.controlCallback closeReturns frameType = .ok r) :
    r = (s, []) ∨ frameType = .close ∧ s.isStopped = false ∧
      s.onWsConnectionSevered closeReturns .closeFrame = .ok r := by
  unfold controlCallback at h
  cases frameType with
  | close =>
    dsimp only at h
    split at h
    · exact .inl (Except.ok.inj h).symm
    · next hrunning => exact .inr ⟨rfl, Bool.eq_false_iff.mpr hrunning, h⟩
  | ping | pong => exact .inl (Except.ok.inj h).symm

end BinanceStream

/-- The state of a stream between two handlers. -/
abbrev State := Async.InFlight BinanceStream Op

/-- What can happen to a stream. -/
abbrev Event := Async.Event FrameType Op Completion

/-! ### After the stop -/

/-- The operations a stopped stream should not start: the listen-key request and its renewal,
name resolutions, connects, websocket handshakes and reads. -/
def Op.isOutreach : Op → Bool
  | .rest op | .keepalive op => op != .sslHandshake
  | .resolve | .connect | .wsHandshake | .read => true
  | _ => false

/-- The events after which a stopped stream starts none of these: errors, the last steps of the
REST chains, and successes whose handler has nothing to start but a TLS handshake. -/
def Harmless (s : BinanceStream) : Event → Prop
  | .complete op result =>
    result.isSuccess = true →
      match op with
      | .rest op | .keepalive op => op = .connect ∨ op = .read
      | .resolve | .sslHandshake | .wsHandshake | .read => False
      | .listenKeyTimer => s.sslWebStream = false
      | .connect | .close | .periodicTimeout | .onErrorTimer => True
  | _ => True

private theorem wsInitiateConnection_stopped {s : BinanceStream} (h : s.isStopped = true) :
    s.wsInitiateConnection.1.isStopped = true ∧ s.wsInitiateConnection.2 = [] := by
  rw [BinanceStream.wsInitiateConnection, h, Bool.true_or, if_pos rfl]
  exact ⟨h, rfl⟩

private theorem restApiOnDataReceived_stopped (parse : JsonParse) {s : BinanceStream}
    (h : s.isStopped = true) (data : Bytes) :
    (s.restApiOnDataReceived parse data).1.isStopped = true ∧
      (s.restApiOnDataReceived parse data).2 = [] := by
  unfold BinanceStream.restApiOnDataReceived
  split
  · exact wsInitiateConnection_stopped h
  · split
    · exact ⟨h, rfl⟩
    · split <;> exact wsInitiateConnection_stopped h

private theorem wsWaitForMessages_started {s s' : BinanceStream} {started : List Op}
    (h : s.wsWaitForMessages = some (s', started)) :
    s'.isStopped = s.isStopped ∧ started = [.read] := by
  unfold BinanceStream.wsWaitForMessages at h
  split at h
  · obtain ⟨rfl, rfl⟩ := Prod.mk.inj (Option.some.inj h)
    exact ⟨rfl, rfl⟩
  · cases h

private theorem onWsHandshake_started {s s' : BinanceStream} {started : List Op}
    (h : s.onWsHandshake = some (s', started)) :
    s'.isStopped = s.isStopped ∧ .read ∈ started := by
  unfold BinanceStream.onWsHandshake at h
  cases ht : s.listenKeyTimer with
  | true =>
    rw [ht, if_pos rfl] at h
    obtain ⟨r, hr, he⟩ := Option.map_eq_some_iff.mp h
    obtain ⟨rfl, rfl⟩ := Prod.mk.inj he
    obtain ⟨hs, hread⟩ := wsWaitForMessages_started hr
    exact ⟨hs, by simp [hread]⟩
  | false =>
    rw [ht, if_neg (by simp)] at h
    obtain ⟨r, hr, he⟩ := Option.map_eq_some_iff.mp h
    obtain ⟨rfl, rfl⟩ := Prod.mk.inj he
    obtain ⟨hs, hread⟩ := wsWaitForMessages_started hr
    exact ⟨hs, by simp [hread]⟩

section Stopped

variable {parse : JsonParse} {closeReturns : Severance → Bool} {s s' : BinanceStream}
  {result : Completion} {started : List Op}

/-- After one handler: the stream stays stopped, and its event has been rightly judged. -/
private def Judged (s s' : BinanceStream) (op : Op) (result : Completion) (started : List Op) :
    Prop :=
  s'.isStopped = true ∧
    ((∀ o ∈ started, o.isOutreach = false) ↔ Harmless s (.complete op result))

private theorem judged_of_eq {op : Op} {l : List Op} (hstopped : s.isStopped = true)
    (h : (s, l) = (s', started))
    (hiff : (∀ o ∈ l, o.isOutreach = false) ↔ Harmless s (.complete op result)) :
    Judged s s' op result started := by
  obtain ⟨rfl, rfl⟩ := Prod.mk.inj h
  exact ⟨hstopped, hiff⟩

private theorem judged_rest {op : RestOp} (hstopped : s.isStopped = true)
    (h : s.complete parse closeReturns (.rest op) result = .ok (s', started)) :
    Judged s s' (.rest op) result started := by
  cases result with
  | success data =>
    cases op with
    | read =>
      obtain ⟨hs, hnone⟩ := restApiOnDataReceived_stopped parse hstopped data
      have hr : s.restApiOnDataReceived parse data = (s', started) := Except.ok.inj h
      rw [hr] at hs hnone
      dsimp only at hnone
      exact ⟨hs, by simp [hnone, Harmless]⟩
    | _ =>
      exact judged_of_eq hstopped (Except.ok.inj h)
        (by simp [Op.isOutreach, Harmless, Completion.isSuccess])
  | _ =>
    cases op <;>
      exact judged_of_eq hstopped (Except.ok.inj h) (by simp [Harmless, Completion.isSuccess])

private theorem judged_keepalive {op : RestOp} (hstopped : s.isStopped = true)
    (h : s.complete parse closeReturns (.keepalive op) result = .ok (s', started)) :
    Judged s s' (.keepalive op) result started := by
  cases result with
  | success data =>
    cases op <;>
      exact judged_of_eq hstopped (Except.ok.inj h)
        (by simp [Op.isOutreach, Harmless, Completion.isSuccess])
  | _ =>
    cases op <;>
      exact judged_of_eq hstopped (Except.ok.inj h) (by simp [Harmless, Completion.isSuccess])

private theorem judged_of_outreach {op o : Op} (hstopped : s'.isStopped = true)
    (ho : o ∈ started) (hout : o.isOutreach = true) (hharm : ¬Harmless s (.complete op result)) :
    Judged s s' op result started := by
  refine ⟨hstopped, iff_of_false ?_ hharm⟩
  intro h
  rw [h o ho] at hout
  cases hout

/-- The handlers from the name resolution to the messages, when they succeed. -/
private theorem judged_websocket {op : Op} {data : Bytes}
    (hop : op ∈ [Op.resolve, .sslHandshake, .wsHandshake, .read])
    (hstopped : s.isStopped = true)
    (h : s.complete parse closeReturns op (.success data) = .ok (s', started)) :
    Judged s s' op (.success data) started := by
  simp only [List.mem_cons, List.not_mem_nil, or_false] at hop
  have hharm : ¬Harmless s (.complete op (.success data)) := by
    rcases hop with rfl | rfl | rfl | rfl <;> simp [Harmless, Completion.isSuccess]
  rcases hop with rfl | rfl | rfl | rfl
  · have hc : orNullPointer s.wsConnectToNames = .ok (s', started) := h
    obtain ⟨rfl, rfl⟩ := Prod.mk.inj (of_orNullPointer hc).2
    exact judged_of_outreach hstopped List.mem_cons_self rfl hharm
  · have hc : orNullPointer s.wsUpgradeToWebsocket = .ok (s', started) := h
    obtain ⟨rfl, rfl⟩ := Prod.mk.inj (of_orNullPointer hc).2
    exact judged_of_outreach hstopped List.mem_cons_self rfl hharm
  · obtain ⟨hs, hread⟩ := onWsHandshake_started (orNullPointer_eq_ok_iff.mp h)
    exact judged_of_outreach (hs.trans hstopped) hread rfl hharm
  · have hc : s.wsInterpretGenericMessages = some (s', started) := orNullPointer_eq_ok_iff.mp h
    unfold BinanceStream.wsInterpretGenericMessages at hc
    split at hc
    · obtain ⟨hs, rfl⟩ := wsWaitForMessages_started hc
      exact judged_of_outreach (hs.trans hstopped) List.mem_cons_self rfl hharm
    · cases hc

private theorem judged_connect (hstopped : s.isStopped = true)
    (h : s.complete parse closeReturns .connect result = .ok (s', started)) :
    Judged s s' .connect result started := by
  cases result with
  | success data | noServerName =>
    have hc : orNullPointer (BinanceStream.wsPerformSslHandshake s _) = .ok (s', started) := h
    exact judged_of_eq hstopped (of_orNullPointer hc).2.symm (by simp [Op.isOutreach, Harmless])
  | aborted | failed => exact judged_of_eq hstopped (Except.ok.inj h) (by simp [Harmless])

private theorem judged_listenKeyTimer (hstopped : s.isStopped = true)
    (h : s.complete parse closeReturns .listenKeyTimer result = .ok (s', started)) :
    Judged s s' .listenKeyTimer result started := by
  have hc : s.onListenKeyTimer result = some (s', started) := orNullPointer_eq_ok_iff.mp h
  unfold BinanceStream.onListenKeyTimer at hc
  split at hc
  · next hsome =>
    rw [Bool.and_eq_true] at hsome
    split at hc
    · exact judged_of_eq hstopped (Option.some.inj hc) (by simp [Op.isOutreach, Harmless, hsome])
    · cases hc
  · next hsome =>
    refine judged_of_eq hstopped (Option.some.inj hc) ?_
    rw [Bool.and_eq_true, not_and, Bool.not_eq_true] at hsome
    exact iff_of_true (by simp) hsome

/-- What a handler of a stopped stream starts, and that the stream stays stopped. -/
private theorem judged_complete {op : Op} (hstopped : s.isStopped = true)
    (h : s.complete parse closeReturns op result = .ok (s', started)) :
    Judged s s' op result started := by
  cases op with
  | rest op => exact judged_rest hstopped h
  | keepalive op => exact judged_keepalive hstopped h
  | connect => exact judged_connect hstopped h
  | listenKeyTimer => exact judged_listenKeyTimer hstopped h
  | close => exact judged_of_eq hstopped (Except.ok.inj h) (by simp [Harmless])
  | periodicTimeout =>
    have hc : orNullPointer s.onPeriodicTimeTimeout = .ok (s', started) := h
    exact judged_of_eq hstopped (of_orNullPointer hc).2.symm (by simp [Op.isOutreach, Harmless])
  | onErrorTimer =>
    refine judged_of_eq (l := []) hstopped ?_ (by simp [Harmless])
    rw [← Except.ok.inj h, BinanceStream.restApiInitiateConnection, hstopped, if_pos rfl, ite_self]
  | resolve | sslHandshake | wsHandshake =>
    cases result with
    | success data => exact judged_websocket (by simp) hstopped h
    | _ => exact judged_of_eq hstopped (Except.ok.inj h) (by simp [Harmless, Completion.isSuccess])
  | read =>
    cases result with
    | success data => exact judged_websocket (by simp) hstopped h
    | _ =>
      obtain ⟨rfl, rfl⟩ := Prod.mk.inj (BinanceStream.of_onWsConnectionSevered h).2
      exact ⟨hstopped, by simp [Op.isOutreach, Harmless, Completion.isSuccess]⟩

end Stopped

private theorem controlCallback_stopped (closeReturns : Severance → Bool) {s : BinanceStream}
    (h : s.isStopped = true) (frameType : FrameType) :
    s.controlCallback closeReturns frameType = .ok (s, []) := by
  unfold BinanceStream.controlCallback
  cases frameType <;> simp [h]

/-- Over every run of a stream, nothing reaches out after the stop if and only if every event
after it is harmless. -/
theorem quiet_iff_harmless (parse : JsonParse) (closeReturns : Severance → Bool)
    (events : List Event) :
    Transition.Along (Async.step (BinanceStream.handlers parse closeReturns))
        (Async.Quiet Op.isOutreach) (Async.InFlight.start (BinanceStream.run {})) events ↔
      Transition.Along (Async.step (BinanceStream.handlers parse closeReturns))
        (fun s e _ ↦ s.stopped = true → Harmless s.object e)
        (Async.InFlight.start (BinanceStream.run {})) events := by
  apply Async.along_quiet_iff (J := fun object ↦ object.isStopped = true)
  · intro s e s' hJ hstep hstopped
    have hs := hJ hstopped
    cases e with
    | stop =>
      obtain rfl := Option.some.inj hstep
      simp only [BinanceStream.handlers, BinanceStream.stop, Harmless, iff_true]
      split <;> simp [Op.isOutreach]
    | notify frameType =>
      obtain ⟨object, started, hn, rfl⟩ := Async.step_notify hstep
      have hnone := controlCallback_stopped closeReturns hs frameType
      obtain ⟨-, rfl⟩ := Prod.mk.inj
        (Except.ok.inj (hnone.symm.trans (toOption_eq_some_iff.mp hn)))
      simp [Harmless]
    | complete op result =>
      obtain ⟨-, object, started, hc, rfl⟩ := Async.step_complete hstep
      exact (judged_complete hs (toOption_eq_some_iff.mp hc)).2
  · intro s e s' hJ hstep hstopped
    cases e with
    | stop =>
      obtain rfl := Option.some.inj hstep
      rfl
    | notify frameType =>
      obtain ⟨object, started, hn, rfl⟩ := Async.step_notify hstep
      have hs := hJ hstopped
      have hnone := controlCallback_stopped closeReturns hs frameType
      obtain ⟨rfl, -⟩ := Prod.mk.inj
        (Except.ok.inj (hnone.symm.trans (toOption_eq_some_iff.mp hn)))
      exact hs
    | complete op result =>
      obtain ⟨-, object, started, hc, rfl⟩ := Async.step_complete hstep
      exact (judged_complete (hJ hstopped) (toOption_eq_some_iff.mp hc)).1
  · intro h
    cases h

end KeepMyJournal.AccountMonitor.Binance
