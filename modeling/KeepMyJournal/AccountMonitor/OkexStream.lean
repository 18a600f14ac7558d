import KeepMyJournal.AccountMonitor.Network
import KeepMyJournal.Base.Async
import KeepMyJournal.Base.Throwing
import KeepMyJournal.Common.Json

/-!
# The OKX account stream

`okex_stream_t`, `account_monitor/src/okex_user_stream.cpp:57–436`, as an object with operations
in flight. `okexMsTimeToString` is a parameter; it does not throw. Whether the synchronous `close`
of `on_ws_connection_severed` returns is Beast's: `closeReturns` says so for each way in which a
connection is lost. Nothing but the `try` of `interpret_login_response` catches what it throws, so
that no event comes behind a `close` that has thrown.
-/

namespace KeepMyJournal.AccountMonitor.Okex

open KeepMyJournal.Base KeepMyJournal.Common

/-! ### Messages -/

/-- `okex::ws_order_info_t`, as far as a message fills it. -/
structure OrderInfo where
  instrumentType : Bytes
  instrumentID : Bytes
  currency : Bytes
  orderID : Bytes
  orderPrice : Bytes
  quantityPurchased : Bytes
  orderType : Bytes
  orderSide : Bytes
  positionSide : Bytes
  tradeMode : Bytes
  lastFilledQuantity : Bytes
  lastFilledFee : Bytes
  lastFilledCurrency : Bytes
  state : Bytes
  feeCurrency : Bytes
  fee : Bytes
  updatedTime : Bytes
  createdTime : Bytes
  amendResult : Bytes
  amendErrorMessage : Bytes
  deriving DecidableEq, Repr

/-- `okex::ws_balance_data_t`. -/
structure BalanceData where
  balance : Bytes
  currency : Bytes
  deriving DecidableEq, Repr

/-- `okex::okex_ws_data_t`. -/
inductive StreamData where
  | balance (data : BalanceData)
  | order (info : OrderInfo)
  deriving DecidableEq, Repr

/-- What may throw while it appends to `m_streamResult`; what was appended before stays. -/
abbrev Processing (α : Type) := Throwing StdException (List StreamData) α

/-- `m_streamResult.append`. -/
def append (data : StreamData) : Processing Unit := modify (fun results ↦ results ++ [data])

/-- `at(key).get<json::string_t>()`. -/
def text (o : Json.Object) (key : String) : Except StdException Bytes :=
  o.at (bytes key) >>= Json.getString

/-- The members an order is read from, in the order of the source. -/
def readOrder (okexMsTimeToString : Bytes → Option Bytes) (o : Json.Object) :
    Except StdException OrderInfo := do
  let instrumentType ← text o "instType"
  let instrumentID ← text o "instId"
  let currency ← text o "ccy"
  let orderID ← text o "ordId"
  let orderPrice ← text o "px"
  let quantityPurchased ← text o "sz"
  let orderType ← text o "ordType"
  let orderSide ← text o "side"
  let positionSide ← text o "posSide"
  let tradeMode ← text o "tdMode"
  let lastFilledQuantity ← text o "fillSz"
  let lastFilledFee ← text o "fillFee"
  let lastFilledCurrency ← text o "fillFeeCcy"
  let state ← text o "state"
  let feeCurrency ← text o "feeCcy"
  let fee ← text o "fee"
  let updatedTime ← text o "uTime"
  let createdTime ← text o "cTime"
  let amendResult ← text o "amendResult"
  let amendErrorMessage ← text o "msg"
  pure { instrumentType, instrumentID, currency, orderID, orderPrice, quantityPurchased,
         orderType, orderSide, positionSide, tradeMode, lastFilledQuantity, lastFilledFee,
         lastFilledCurrency, state, feeCurrency, fee,
         updatedTime := (okexMsTimeToString updatedTime).getD [],
         createdTime := (okexMsTimeToString createdTime).getD [],
         amendResult, amendErrorMessage }

/-- `process_orders_pushed_data`. -/
def processOrdersPushedData (okexMsTimeToString : Bytes → Option Bytes) (dataList : List Json) :
    Processing Unit :=
  dataList.forM fun dataJson ↦ do
    let dataObject ← dataJson.getObject
    append (.order (← readOrder okexMsTimeToString dataObject))

/-- `process_pushed_balance_data`. -/
def processPushedBalanceData (dataList : List Json) : Processing Unit :=
  dataList.forM fun jsonData ↦ do
    let dataItem ← jsonData.getObject
    match Json.Object.find dataItem (bytes "balData") with
    | none => pure ()
    | some balanceData =>
      let balanceDataList ← balanceData.getArray
      balanceDataList.forM fun jsonBalance ↦ do
        let item ← jsonBalance.getObject
        let currency ← text item "ccy"
        let balance ← text item "cashBal"
        append (.balance { balance, currency })

/-- What `interpret_generic_messages` does with the message itself. -/
def processMessage (parse : JsonParse) (okexMsTimeToString : Bytes → Option Bytes)
    (buffer : Bytes) : Processing Unit := do
  let json ← parse buffer
  let root ← json.getObject
  match root.find (bytes "event"), root.find (bytes "data"), root.find (bytes "arg") with
  | some _, _, _ =>
    if (root.find (bytes "code")).isSome then
      let _ ← text root "msg"
  | none, some data, some arg =>
    let argObject ← arg.getObject
    let channel ← text argObject "channel"
    if channel = bytes "orders" then
      processOrdersPushedData okexMsTimeToString (← data.getArray)
    else if channel = bytes "balance_and_position" then
      processPushedBalanceData (← data.getArray)
  | none, _, _ => pure ()

/-- The part of `interpret_login_response` that may throw: the login has been accepted. -/
def loginAccepted (parse : JsonParse) (buffer : Bytes) : Except StdException Bool := do
  let json ← parse buffer
  let object ← json.getObject
  let code ← text object "code"
  if code ≠ bytes "0" then
    let _ ← text object "msg"
    pure false
  else pure true

/-! ### The stream -/

/-- `okex_stream_t`; of a pointer that is not read, only whether it is null. -/
structure OkexStream where
  sslWebStream : Bool := false
  buffer : Bool := false
  stopped : Bool := false
  accountsSubscribedTo : Bool := false
  streamResult : List StreamData := []
  deriving DecidableEq, Repr

/-- The operations of the stream. -/
inductive Op where
  | resolve | connect | sslHandshake | wsHandshake
  | loginWrite | loginRead
  | ordersWrite | accountsWrite
  | read | timer | close
  deriving DecidableEq, Repr

/-- `websocket::frame_type`. -/
inductive FrameType where
  | close | ping | pong
  deriving DecidableEq, Repr

/-- How a connection is lost: an operation fails, the host name cannot be set, the login is
rejected, its response throws, or the other side sends a close frame. -/
inductive Severance where
  | failed (op : Op)
  | noServerName | loginRejected | loginException | closeFrame
  deriving DecidableEq, Repr

namespace OkexStream

/-- `initiate_websocket_connection`. -/
def initiateWebsocketConnection (s : OkexStream) : OkexStream × List Op :=
  if s.stopped then (s, []) else (s, [.resolve])

/-- `run`. -/
def run (s : OkexStream) : OkexStream × List Op := s.initiateWebsocketConnection

/-- `stop`. -/
def stop (s : OkexStream) : OkexStream × List Op :=
  ({ s with stopped := true }, if s.sslWebStream then [.close] else [])

/-- `on_ws_connection_severed`, behind the `close`; it takes the stop back. -/
def severed (s : OkexStream) : OkexStream × List Op :=
  ({ s with sslWebStream := false, buffer := false, stopped := false }, [.timer])

/-- `on_ws_connection_severed`; a websocket that is there is closed first. -/
def onWsConnectionSevered (closeReturns : Severance → Bool) (severance : Severance)
    (s : OkexStream) : Except Failure (OkexStream × List Op) :=
  if s.sslWebStream && !closeReturns severance then .error .exception else .ok s.severed

/-- `connect_to_resolved_names`. -/
def connectToResolvedNames (s : OkexStream) : OkexStream × List Op :=
  ({ s with sslWebStream := true }, [.connect])

/-- An operation on `*m_sslWebStream`. -/
def onStream (s : OkexStream) (op : Op) : Except Failure (OkexStream × List Op) :=
  if s.sslWebStream then .ok (s, [op]) else .error .nullPointer

/-- `perform_ssl_handshake`; `sni` says whether the host name could be set. -/
def performSslHandshake (closeReturns : Severance → Bool) (s : OkexStream) (sni : Bool) :
    Except Failure (OkexStream × List Op) :=
  if sni then s.onStream .sslHandshake
  else if s.sslWebStream then s.onWsConnectionSevered closeReturns .noServerName
  else .error .nullPointer

/-- `perform_websocket_handshake`. -/
def performWebsocketHandshake (s : OkexStream) : Except Failure (OkexStream × List Op) :=
  s.onStream .wsHandshake

/-- `perform_user_login`. -/
def performUserLogin (s : OkexStream) : Except Failure (OkexStream × List Op) :=
  s.onStream .loginWrite

/-- `read_login_response`. -/
def readLoginResponse (s : OkexStream) : Except Failure (OkexStream × List Op) :=
  onStream { s with buffer := true } .loginRead

/-- `subscribe_to_orders_channels`. -/
def subscribeToOrdersChannels (s : OkexStream) : Except Failure (OkexStream × List Op) :=
  s.onStream .ordersWrite

/-- `subscribe_to_accounts_channel`. -/
def subscribeToAccountsChannel (s : OkexStream) : Except Failure (OkexStream × List Op) :=
  s.onStream .accountsWrite

/-- `interpret_login_response`; what the `close` for a rejected login throws is caught as well. -/
def interpretLoginResponse (parse : JsonParse) (closeReturns : Severance → Bool) (s : OkexStream)
    (buffer : Bytes) : Except Failure (OkexStream × List Op) :=
  if !s.buffer then .error .nullPointer
  else
    match loginAccepted parse buffer with
    | .ok true => subscribeToOrdersChannels { s with buffer := false }
    | .ok false =>
      match s.onWsConnectionSevered closeReturns .loginRejected with
      | .ok r => .ok r
      | .error _ => s.onWsConnectionSevered closeReturns .loginException
    | .error _ => s.onWsConnectionSevered closeReturns .loginException

/-- `wait_for_messages`, and `on_instruments_subscribed`, which has the same body. -/
def waitForMessages (s : OkexStream) : Except Failure (OkexStream × List Op) :=
  onStream { s with buffer := true } .read

/-- `interpret_generic_messages`; after an exception it goes on to wait. -/
def interpretGenericMessages (parse : JsonParse) (okexMsTimeToString : Bytes → Option Bytes)
    (s : OkexStream) (buffer : Bytes) : Except Failure (OkexStream × List Op) :=
  if !s.buffer then .error .nullPointer
  else
    match (processMessage parse okexMsTimeToString buffer).run s.streamResult with
    | (.ok (), results) =>
      let s := { s with streamResult := results }
      if s.accountsSubscribedTo then s.waitForMessages
      else subscribeToAccountsChannel { s with accountsSubscribedTo := true }
    | (.error _, results) => waitForMessages { s with streamResult := results }

/-- The control callback. -/
def controlCallback (closeReturns : Severance → Bool) (s : OkexStream) (frameType : FrameType) :
    Except Failure (OkexStream × List Op) :=
  match frameType with
  | .close => if s.stopped then .ok (s, []) else s.onWsConnectionSevered closeReturns .closeFrame
  | .ping | .pong => .ok (s, [])

/-- The handlers of the operations, each of which tests the error first. -/
def complete (parse : JsonParse) (okexMsTimeToString : Bytes → Option Bytes)
    (closeReturns : Severance → Bool) (s : OkexStream) (op : Op) (result : Completion) :
    Except Failure (OkexStream × List Op) :=
  match op, result with
  | .timer, .success _ => .ok s.initiateWebsocketConnection
  | .timer, _ | .close, _ => .ok (s, [])
  | .resolve, .success _ => .ok s.connectToResolvedNames
  | .connect, .success _ => s.performSslHandshake closeReturns true
  | .connect, .noServerName => s.performSslHandshake closeReturns false
  | .sslHandshake, .success _ => s.performWebsocketHandshake
  | .wsHandshake, .success _ => s.performUserLogin
  | .loginWrite, .success _ => s.readLoginResponse
  | .loginRead, .success data => s.interpretLoginResponse parse closeReturns data
  | .ordersWrite, .success _ | .accountsWrite, .success _ => s.waitForMessages
  | .read, .success data => s.interpretGenericMessages parse okexMsTimeToString data
  | op, _ => s.onWsConnectionSevered closeReturns (.failed op)

/-- The stream as an object with operations in flight. A control frame comes during a read. -/
def handlers (parse : JsonParse) (okexMsTimeToString : Bytes → Option Bytes)
    (closeReturns : Severance → Bool) : Async.Handlers OkexStream FrameType Op Completion where
  stop := stop
  notify s frameType := (s.controlCallback closeReturns frameType).toOption
  complete s op result := (s.complete parse okexMsTimeToString closeReturns op result).toOption
  reads op := op = .read || op = .loginRead

variable {closeReturns : Severance → Bool} {s : OkexStream} {r : OkexStream × List Op}

/-- Behind a `close` that returns, the stream is reset. -/
theorem of_onWsConnectionSevered {severance : Severance}
    (h : s.onWsConnectionSevered closeReturns severance = .ok r) :
    (s.sslWebStream = true → closeReturns severance = true) ∧ r = s.severed := by
  unfold onWsConnectionSevered at h
  split at h
  · cases h
  · next hreturns =>
    rw [Bool.not_eq_true, Bool.and_eq_false_imp, Bool.not_eq_eq_eq_not] at hreturns
    exact ⟨hreturns, (Except.ok.inj h).symm⟩

/-- What uses the websocket finds it there, and keeps the stream. -/
theorem of_onStream {op : Op} (h : s.onStream op = .ok r) :
    s.sslWebStream = true ∧ r = (s, [op]) := by
  unfold onStream at h
  split at h
  · next hstream => exact ⟨hstream, (Except.ok.inj h).symm⟩
  · cases h

/-- A login that is not accepted resets the stream, if one of the `close`s for it returns. -/
theorem of_interpretLoginResponse {parse : JsonParse} {buffer : Bytes}
    (h : s.interpretLoginResponse parse closeReturns buffer = .ok r) :
    s.sslWebStream = true ∧ r = ({ s with buffer := false }, [.ordersWrite]) ∨
      r = s.severed := by
  unfold interpretLoginResponse at h
  split at h
  · cases h
  · split at h
    · exact .inl (of_onStream h)
    · split at h
      · next r' hr' =>
        obtain rfl := Except.ok.inj h
        exact .inr (of_onWsConnectionSevered hr').2
      · exact .inr (of_onWsConnectionSevered h).2
    · exact .inr (of_onWsConnectionSevered h).2

/-- Without the host name the connection is lost. -/
theorem of_performSslHandshake {sni : Bool}
    (h : s.performSslHandshake closeReturns sni = .ok r) :
    s.sslWebStream = true ∧ (sni = true ∧ r = (s, [.sslHandshake]) ∨
      sni = false ∧ s.onWsConnectionSevered closeReturns .noServerName = .ok r) := by
  unfold performSslHandshake at h
  split at h
  · next hsni =>
    obtain ⟨hstream, hr⟩ := of_onStream h
    exact ⟨hstream, .inl ⟨hsni, hr⟩⟩
  · next hsni =>
    split at h
    · next hstream => exact ⟨hstream, .inr ⟨Bool.eq_false_iff.mpr hsni, h⟩⟩
    · cases h

/-- A control frame does nothing, or is a close frame and the connection is lost. -/
theorem of_controlCallback {frameType : FrameType}
    (h : s.controlCallback closeReturns frameType = .ok r) :
    r = (s, []) ∨ s.onWsConnectionSevered closeReturns .closeFrame = .ok r := by
  unfold controlCallback at h
  split at h
  · split at h
    · exact .inl (Except.ok.inj h).symm
    · exact .inr h
  · exact .inl (Except.ok.inj h).symm
  · exact .inl (Except.ok.inj h).symm

end OkexStream

/-- The state of a stream between two handlers. -/
abbrev State := Async.InFlight OkexStream Op

/-- What can happen to a stream. -/
abbrev Event := Async.Event FrameType Op Completion

/-! ### After the stop -/

/-- The operations a stopped stream should not start: name resolutions, connects, websocket
handshakes and reads. -/
def Op.isOutreach : Op → Bool
  | .resolve | .connect | .wsHandshake | .loginRead | .read => true
  | _ => false

/-- The message is worked through without an exception. -/
def Processed (parse : JsonParse) (okexMsTimeToString : Bytes → Option Bytes) (s : OkexStream)
    (data : Bytes) : Prop :=
  ((processMessage parse okexMsTimeToString data).run s.streamResult).1 = .ok ()

/-- The events after which a stream starts none of these: the errors, the steps that start a
handshake of the TLS layer or a write, and a timer that meets the stop flag. -/
def Harmless (parse : JsonParse) (okexMsTimeToString : Bytes → Option Bytes) (s : OkexStream) :
    Event → Prop
  | .complete op result =>
    match op with
    | .resolve | .sslHandshake | .loginWrite | .ordersWrite | .accountsWrite =>
      result.isSuccess = false
    | .read =>
      ∀ data, result = .success data →
        Processed parse okexMsTimeToString s data ∧ s.accountsSubscribedTo = false
    | .timer => result.isSuccess = true → s.stopped = true
    | .connect | .wsHandshake | .loginRead | .close => True
  | _ => True

section Started

variable {parse : JsonParse} {okexMsTimeToString : Bytes → Option Bytes}
  {closeReturns : Severance → Bool} {s s' : OkexStream} {started : List Op} {data : Bytes}

theorem onStream_started {op : Op} (h : s.onStream op = .ok (s', started)) :
    started = [op] := congrArg Prod.snd (OkexStream.of_onStream h).2

theorem severed_started {severance : Severance}
    (h : s.onWsConnectionSevered closeReturns severance = .ok (s', started)) :
    started = [.timer] := congrArg Prod.snd (OkexStream.of_onWsConnectionSevered h).2

private theorem connect_started {sni : Bool}
    (h : s.performSslHandshake closeReturns sni = .ok (s', started)) :
    ∀ o ∈ started, o.isOutreach = false := by
  obtain ⟨-, ⟨-, hr⟩ | ⟨-, hr⟩⟩ := OkexStream.of_performSslHandshake h
  · obtain ⟨-, rfl⟩ := Prod.mk.inj hr
    simp [Op.isOutreach]
  · rw [severed_started hr]
    simp [Op.isOutreach]

private theorem loginRead_started
    (h : s.interpretLoginResponse parse closeReturns data = .ok (s', started)) :
    ∀ o ∈ started, o.isOutreach = false := by
  obtain ⟨-, hr⟩ | hr := OkexStream.of_interpretLoginResponse h
  · obtain ⟨-, rfl⟩ := Prod.mk.inj hr
    simp [Op.isOutreach]
  · obtain ⟨-, rfl⟩ := Prod.mk.inj hr
    simp [Op.isOutreach]

private theorem read_started
    (h : s.interpretGenericMessages parse okexMsTimeToString data = .ok (s', started)) :
    (∀ o ∈ started, o.isOutreach = false) ↔
      Processed parse okexMsTimeToString s data ∧ s.accountsSubscribedTo = false := by
  unfold OkexStream.interpretGenericMessages at h
  unfold Processed
  split at h
  · cases h
  · split at h
    · next results hrun =>
      rw [hrun]
      dsimp only at h
      split at h
      · next hsub =>
        rw [onStream_started h]
        simp [Op.isOutreach, hsub]
      · next hsub =>
        rw [onStream_started h]
        simp [Op.isOutreach, hsub]
    · next e results hrun =>
      rw [hrun, onStream_started h]
      simp [Op.isOutreach]

private theorem timer_started (h : s.initiateWebsocketConnection = (s', started)) :
    (∀ o ∈ started, o.isOutreach = false) ↔ s.stopped = true := by
  unfold OkexStream.initiateWebsocketConnection at h
  split at h
  · next hstopped =>
    obtain ⟨-, rfl⟩ := Prod.mk.inj h
    simp [hstopped]
  · next hrunning =>
    obtain ⟨-, rfl⟩ := Prod.mk.inj h
    simp [Op.isOutreach, hrunning]

private theorem controlCallback_started {frameType : FrameType}
    (h : s.controlCallback closeReturns frameType = .ok (s', started)) :
    ∀ o ∈ started, o.isOutreach = false := by
  obtain hr | hr := OkexStream.of_controlCallback h
  · obtain ⟨-, rfl⟩ := Prod.mk.inj hr
    simp
  · rw [severed_started hr]
    simp [Op.isOutreach]

/-- What the handler of an operation starts is judged by its result and the object before it. -/
private theorem complete_started {op : Op} {result : Completion}
    (h : s.complete parse okexMsTimeToString closeReturns op result = .ok (s', started)) :
    (∀ o ∈ started, o.isOutreach = false) ↔
      Harmless parse okexMsTimeToString s (.complete op result) := by
  cases result with
  | success data =>
    cases op with
    | resolve =>
      obtain ⟨-, rfl⟩ := Prod.mk.inj (Except.ok.inj h)
      simp [Op.isOutreach, Harmless, Completion.isSuccess]
    | connect => exact iff_of_true (connect_started h) True.intro
    | loginRead => exact iff_of_true (loginRead_started h) True.intro
    | read => simpa [Harmless] using read_started h
    | timer => simpa [Harmless, Completion.isSuccess] using timer_started (Except.ok.inj h)
    | close =>
      obtain ⟨-, rfl⟩ := Prod.mk.inj (Except.ok.inj h)
      simp [Harmless]
    | wsHandshake | sslHandshake | loginWrite | ordersWrite | accountsWrite =>
      rw [onStream_started h]
      simp [Op.isOutreach, Harmless, Completion.isSuccess]
  | noServerName =>
    cases op with
    | connect => exact iff_of_true (connect_started h) True.intro
    | timer | close =>
      obtain ⟨-, rfl⟩ := Prod.mk.inj (Except.ok.inj h)
      simp [Harmless, Completion.isSuccess]
    | _ =>
      rw [severed_started h]
      simp [Op.isOutreach, Harmless, Completion.isSuccess]
  | aborted | failed =>
    cases op with
    | timer | close =>
      obtain ⟨-, rfl⟩ := Prod.mk.inj (Except.ok.inj h)
      simp [Harmless, Completion.isSuccess]
    | _ =>
      rw [severed_started h]
      simp [Op.isOutreach, Harmless, Completion.isSuccess]

end Started

/-- Over every run of a stream, nothing reaches out after the stop if and only if every event
after it is harmless. -/
theorem quiet_iff_harmless (parse : JsonParse) (okexMsTimeToString : Bytes → Option Bytes)
    (closeReturns : Severance → Bool) (events : List Event) :
    Transition.Along (Async.step (OkexStream.handlers parse okexMsTimeToString closeReturns))
        (Async.Quiet Op.isOutreach) (Async.InFlight.start (OkexStream.run {})) events ↔
      Transition.Along (Async.step (OkexStream.handlers parse okexMsTimeToString closeReturns))
        (fun s e _ ↦ s.stopped = true → Harmless parse okexMsTimeToString s.object e)
        (Async.InFlight.start (OkexStream.run {})) events := by
  apply Async.along_quiet_iff_of_step
  intro s e s' hstep
  cases e with
  | stop =>
    obtain rfl := Option.some.inj hstep
    simp only [OkexStream.handlers, OkexStream.stop, Harmless, iff_true]
    split <;> simp [Op.isOutreach]
  | notify frameType =>
    obtain ⟨object, started, hn, rfl⟩ := Async.step_notify hstep
    exact iff_of_true (controlCallback_started (toOption_eq_some_iff.mp hn)) True.intro
  | complete op result =>
    obtain ⟨-, object, started, hc, rfl⟩ := Async.step_complete hstep
    exact complete_started (toOption_eq_some_iff.mp hc)

end KeepMyJournal.AccountMonitor.Okex
