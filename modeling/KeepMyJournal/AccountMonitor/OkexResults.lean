import KeepMyJournal.AccountMonitor.OkexStream
import KeepMyJournal.Base.Emitting

/-!
# The results of the OKX account stream

What `interpret_generic_messages` and its two loops append to `m_streamResult`,
`account_monitor/src/okex_user_stream.cpp:300–400`, over whole runs of the stream.
-/

namespace KeepMyJournal.AccountMonitor.Okex

open KeepMyJournal.Base KeepMyJournal.Common

/-! ### The items of a message -/

/-- An element of the orders channel, as the order it is read as. -/
def orderItem (okexMsTimeToString : Bytes → Option Bytes) (dataJson : Json) :
    Except StdException StreamData := do
  let dataObject ← dataJson.getObject
  let info ← readOrder okexMsTimeToString dataObject
  pure (.order info)

/-- An element of `balData`, as the balance it is read as. -/
def balanceItem (jsonBalance : Json) : Except StdException StreamData := do
  let item ← jsonBalance.getObject
  let currency ← text item "ccy"
  let balance ← text item "cashBal"
  pure (.balance { balance, currency })

/-- The elements of `balData` in an element of the balance channel; it may have none. -/
def balanceItems (jsonData : Json) : List (Except StdException StreamData) :=
  behind jsonData.getObject fun dataItem ↦
    match Json.Object.find dataItem (bytes "balData") with
    | none => []
    | some balanceData => behind balanceData.getArray fun balances ↦ balances.map balanceItem

/-- The elements of a message that data is read from, in their order; what keeps a message or
an element from being read stands in its place. -/
def messageItems (parse : JsonParse) (okexMsTimeToString : Bytes → Option Bytes) (buffer : Bytes) :
    List (Except StdException StreamData) :=
  behind (parse buffer >>= Json.getObject) fun root ↦
    match root.find (bytes "event"), root.find (bytes "data"), root.find (bytes "arg") with
    | some _, _, _ =>
      if (root.find (bytes "code")).isSome then behind (text root "msg") fun _ ↦ [] else []
    | none, some data, some arg =>
      behind (arg.getObject >>= fun argObject ↦ text argObject "channel") fun channel ↦
        if channel = bytes "orders" then
          behind data.getArray fun dataList ↦ dataList.map (orderItem okexMsTimeToString)
        else if channel = bytes "balance_and_position" then
          behind data.getArray fun dataList ↦ dataList.flatMap balanceItems
        else []
    | none, _, _ => []

/-- `m_streamResult.append` on the results. -/
abbrev addResult (results : List StreamData) (data : StreamData) : List StreamData :=
  results ++ [data]

variable {parse : JsonParse} {okexMsTimeToString : Bytes → Option Bytes}

private theorem emits_append (data : StreamData) : Emits addResult (append data) [.ok data] :=
  emits_modify data

private theorem emits_processOrdersPushedData (dataList : List Json) :
    Emits addResult (processOrdersPushedData okexMsTimeToString dataList)
      (dataList.map (orderItem okexMsTimeToString)) := by
  refine emits_forM_map (fun dataJson ↦ ?_) dataList
  simp only [orderItem, ← behind_singleton]
  exact .lift_bind fun dataObject ↦ .lift_bind fun info ↦ emits_append (.order info)

private theorem emits_processPushedBalanceData (dataList : List Json) :
    Emits addResult (processPushedBalanceData dataList) (dataList.flatMap balanceItems) := by
  refine emits_forM (fun jsonData ↦ ?_) dataList
  refine .lift_bind fun dataItem ↦ ?_
  cases Json.Object.find dataItem (bytes "balData") with
  | none => exact emits_pure
  | some balanceData =>
    refine .lift_bind fun balances ↦ ?_
    refine emits_forM_map (fun jsonBalance ↦ ?_) balances
    simp only [balanceItem, ← behind_singleton]
    exact .lift_bind fun item ↦ .lift_bind fun currency ↦ .lift_bind fun balance ↦
      emits_append (.balance { balance, currency })

/-- A message adds its items, up to the first that cannot be read. -/
private theorem emits_processMessage (parse : JsonParse) (okexMsTimeToString : Bytes → Option Bytes)
    (buffer : Bytes) : Emits addResult (processMessage parse okexMsTimeToString buffer)
      (messageItems parse okexMsTimeToString buffer) := by
  unfold processMessage messageItems
  rw [behind_bind]
  refine .lift_bind fun json ↦ .lift_bind fun root ↦ ?_
  cases root.find (bytes "event") with
  | some event =>
    cases root.find (bytes "code") with
    | none => exact emits_pure
    | some code => exact .lift_bind fun _ ↦ emits_pure
  | none =>
    cases root.find (bytes "data") with
    | none => exact emits_pure
    | some data =>
      cases root.find (bytes "arg") with
      | none => exact emits_pure
      | some arg =>
        dsimp only
        rw [behind_bind]
        refine .lift_bind fun argObject ↦ .lift_bind fun channel ↦ ?_
        split
        · exact .lift_bind fun dataList ↦ emits_processOrdersPushedData dataList
        · split
          · exact .lift_bind fun dataList ↦ emits_processPushedBalanceData dataList
          · exact emits_pure

/-! ### Runs -/

/-- The message that an event delivers to `interpret_generic_messages`. -/
def deliveredBy : Event → Option Bytes
  | .complete .read (.success buffer) => some buffer
  | _ => none

/-- What an event appends to the results. -/
def resultsOf (parse : JsonParse) (okexMsTimeToString : Bytes → Option Bytes) (e : Event) :
    List StreamData :=
  match deliveredBy e with
  | some buffer => firstOks (messageItems parse okexMsTimeToString buffer)
  | none => []

variable {closeReturns : Severance → Bool} {s s' : OkexStream} {started : List Op}

private theorem streamResult_onStream {op : Op} (h : s.onStream op = .ok (s', started)) :
    s'.streamResult = s.streamResult := by
  obtain ⟨rfl, -⟩ := Prod.mk.inj (OkexStream.of_onStream h).2
  rfl

private theorem streamResult_onWsConnectionSevered {severance : Severance}
    (h : s.onWsConnectionSevered closeReturns severance = .ok (s', started)) :
    s'.streamResult = s.streamResult := by
  obtain ⟨rfl, -⟩ := Prod.mk.inj (OkexStream.of_onWsConnectionSevered h).2
  rfl

/-- Every read hands on what it appends, whatever it starts next. -/
private theorem streamResult_interpretGenericMessages {buffer : Bytes}
    (h : s.interpretGenericMessages parse okexMsTimeToString buffer = .ok (s', started)) :
    s'.streamResult =
      s.streamResult ++ firstOks (messageItems parse okexMsTimeToString buffer) := by
  unfold OkexStream.interpretGenericMessages at h
  split at h
  · cases h
  · have hresults : ((processMessage parse okexMsTimeToString buffer).run s.streamResult).2 =
        s.streamResult ++ firstOks (messageItems parse okexMsTimeToString buffer) := by
      rw [← foldl_concat]
      exact congrArg Prod.snd (emits_processMessage parse okexMsTimeToString buffer s.streamResult)
    rw [← hresults]
    split at h
    · next results hrun =>
      rw [hrun]
      dsimp only at h
      split at h
      · exact streamResult_onStream h
      · exact streamResult_onStream h
    · next e results hrun =>
      rw [hrun]
      exact streamResult_onStream h

private theorem streamResult_performSslHandshake {sni : Bool}
    (h : s.performSslHandshake closeReturns sni = .ok (s', started)) :
    s'.streamResult = s.streamResult := by
  obtain ⟨-, ⟨-, hr⟩ | ⟨-, hr⟩⟩ := OkexStream.of_performSslHandshake h
  · obtain ⟨rfl, -⟩ := Prod.mk.inj hr
    rfl
  · exact streamResult_onWsConnectionSevered hr

private theorem streamResult_interpretLoginResponse {data : Bytes}
    (h : s.interpretLoginResponse parse closeReturns data = .ok (s', started)) :
    s'.streamResult = s.streamResult := by
  obtain ⟨-, hr⟩ | hr := OkexStream.of_interpretLoginResponse h <;>
  · obtain ⟨rfl, -⟩ := Prod.mk.inj hr
    rfl

private theorem streamResult_initiateWebsocketConnection (s : OkexStream) :
    s.initiateWebsocketConnection.1.streamResult = s.streamResult := by
  unfold OkexStream.initiateWebsocketConnection
  split <;> rfl

/-- Nothing but a delivered message touches the results. -/
private theorem streamResult_complete {op : Op} {result : Completion}
    (h : s.complete parse okexMsTimeToString closeReturns op result = .ok (s', started)) :
    s'.streamResult =
      s.streamResult ++ resultsOf parse okexMsTimeToString (.complete op result) := by
  cases result with
  | success data =>
    cases op with
    | read => exact streamResult_interpretGenericMessages h
    | loginRead =>
      exact (streamResult_interpretLoginResponse h).trans (List.append_nil _).symm
    | connect => exact (streamResult_performSslHandshake h).trans (List.append_nil _).symm
    | timer =>
      obtain rfl := congrArg Prod.fst (Except.ok.inj h)
      exact (streamResult_initiateWebsocketConnection s).trans (List.append_nil _).symm
    | resolve | close =>
      obtain ⟨rfl, -⟩ := Prod.mk.inj (Except.ok.inj h)
      exact (List.append_nil _).symm
    | sslHandshake | wsHandshake | loginWrite | ordersWrite | accountsWrite =>
      exact (streamResult_onStream h).trans (List.append_nil _).symm
  | noServerName =>
    cases op with
    | connect => exact (streamResult_performSslHandshake h).trans (List.append_nil _).symm
    | timer | close =>
      obtain ⟨rfl, -⟩ := Prod.mk.inj (Except.ok.inj h)
      exact (List.append_nil _).symm
    | _ => exact (streamResult_onWsConnectionSevered h).trans (List.append_nil _).symm
  | aborted | failed =>
    cases op with
    | timer | close =>
      obtain ⟨rfl, -⟩ := Prod.mk.inj (Except.ok.inj h)
      exact (List.append_nil _).symm
    | _ => exact (streamResult_onWsConnectionSevered h).trans (List.append_nil _).symm

private theorem streamResult_controlCallback {frameType : FrameType}
    (h : s.controlCallback closeReturns frameType = .ok (s', started)) :
    s'.streamResult = s.streamResult := by
  obtain hr | hr := OkexStream.of_controlCallback h
  · obtain ⟨rfl, -⟩ := Prod.mk.inj hr
    rfl
  · exact streamResult_onWsConnectionSevered hr

private theorem streamResult_step {s s' : State} {e : Event}
    (hstep : Async.step (OkexStream.handlers parse okexMsTimeToString closeReturns) s e =
      some s') :
    s'.object.streamResult =
      s.object.streamResult ++ resultsOf parse okexMsTimeToString e := by
  cases e with
  | stop =>
    obtain rfl := Option.some.inj hstep
    exact (List.append_nil _).symm
  | notify frameType =>
    obtain ⟨object, started, hn, rfl⟩ := Async.step_notify hstep
    have hcallback := streamResult_controlCallback (toOption_eq_some_iff.mp hn)
    exact hcallback.trans (List.append_nil _).symm
  | complete op result =>
    obtain ⟨-, object, started, hc, rfl⟩ := Async.step_complete hstep
    exact streamResult_complete (toOption_eq_some_iff.mp hc)

/-- Over every run of a stream, through stops, reconnections and control frames, the results are
what the delivered messages hold, message after message, of each message the elements in front
of the first that cannot be read. -/
theorem streamResult_of_run (parse : JsonParse) (okexMsTimeToString : Bytes → Option Bytes)
    (closeReturns : Severance → Bool) {events : List Event} {s : State}
    (hrun : Transition.run (Async.step (OkexStream.handlers parse okexMsTimeToString closeReturns))
      (Async.InFlight.start (OkexStream.run {})) events = some s) :
    s.object.streamResult = events.flatMap (resultsOf parse okexMsTimeToString) :=
  Transition.log_run (fun _ _ _ hstep ↦ streamResult_step hstep) hrun

/-- A parser that knows three messages: the login is accepted; two balances, of which the second
has no amount; one balance. -/
private def sampleParse : JsonParse := fun buffer ↦
  let pushed (balances : List Json) : Json :=
    .object [(bytes "arg", .object [(bytes "channel", .string (bytes "balance_and_position"))]),
      (bytes "data", .array [.object [(bytes "balData", .array balances)]])]
  let usdt : Json :=
    .object [(bytes "ccy", .string (bytes "USDT")), (bytes "cashBal", .string (bytes "7"))]
  if buffer = bytes "login" then .ok (.object [(bytes "code", .string (bytes "0"))])
  else if buffer = bytes "broken" then
    .ok (pushed [usdt, .object [(bytes "ccy", .string (bytes "BTC"))], usdt])
  else if buffer = bytes "whole" then .ok (pushed [usdt])
  else .error .parseError

/-- The operations of a session up to its first read. -/
private def loginEvents : List Event :=
  [.complete .resolve (.success []), .complete .connect (.success []),
    .complete .sslHandshake (.success []), .complete .wsHandshake (.success []),
    .complete .loginWrite (.success []), .complete .loginRead (.success (bytes "login")),
    .complete .ordersWrite (.success [])]

/-- The name of the host cannot be resolved at first; then two messages are read. -/
private def resolvedLater : List Event :=
  [.complete .resolve .failed, .complete .timer (.success [])] ++ loginEvents ++
    [.complete .read (.success (bytes "broken")), .complete .read (.success (bytes "whole"))]

/-- Of the message with a broken element the balance before it counts. -/
theorem streamResult_of_run_resolvedLater :
    ∃ s, Transition.run (Async.step (OkexStream.handlers sampleParse (fun _ ↦ none) fun _ ↦ false))
        (Async.InFlight.start (OkexStream.run {})) resolvedLater = some s ∧
      s.object.streamResult = [.balance { balance := bytes "7", currency := bytes "USDT" },
        .balance { balance := bytes "7", currency := bytes "USDT" }] :=
  have hrun := (Option.some_get (x := Transition.run
    (Async.step (OkexStream.handlers sampleParse (fun _ ↦ none) fun _ ↦ false))
    (Async.InFlight.start (OkexStream.run {})) resolvedLater) (by decide +kernel)).symm
  ⟨_, hrun, (streamResult_of_run sampleParse (fun _ ↦ none) (fun _ ↦ false) hrun).trans
    (by decide +kernel)⟩

end KeepMyJournal.AccountMonitor.Okex
