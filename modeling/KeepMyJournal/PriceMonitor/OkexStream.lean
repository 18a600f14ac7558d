import KeepMyJournal.AccountMonitor.OkexStream
import KeepMyJournal.Base.Shared
import KeepMyJournal.Common.Tasks
import Std.Data.ExtTreeSet

/-!
# The OKX price streams

`okex_price_stream_t`, `price_monitor/src/okex_price_stream.cpp:10–297`, as the handler of a
process that shares the instrument sink of the exchange. `std::stod` is a parameter. The
websocket is replaced, but never reset once it is there.
-/

namespace KeepMyJournal.PriceMonitor.Okex

open KeepMyJournal.Base KeepMyJournal.Base.Shared KeepMyJournal.Common
open KeepMyJournal.AccountMonitor (Completion RestOp restComplete)
open KeepMyJournal.AccountMonitor.Okex (text)

/-- `okex_price_stream_t`. -/
structure OkexStream where
  tradeType : TradeType
  instruments : Std.ExtTreeSet Bytes := ∅

/-- What a stream waits for: its call of `run`, operations, and the end of the five seconds
`report_error_and_retry` sleeps. A write carries the instruments it subscribes to; `firstRead`
is the read of `on_tickers_subscribed`. -/
inductive Op where
  | run
  | rest (op : RestOp)
  | resolve | connect | sslHandshake | wsHandshake
  | write (instruments : List Bytes)
  | firstRead | read
  | retry
  deriving DecidableEq, Repr

/-- How an operation ends, or that a close frame arrives during a read, which goes on. -/
inductive Delivery where
  | completed (result : Completion)
  | closeFrame
  deriving DecidableEq, Repr

/-- What a handler leaves: the stream, its actions on the sink, and what it starts. -/
abbrev Result := OkexStream × List (Action InstrumentType) × List Op

/-! ### Messages and responses -/

/-- What a message or a response is read into: `m_instruments`, and what is appended to the
sink. -/
structure Pushed where
  instruments : Std.ExtTreeSet Bytes
  appended : List InstrumentType := []

/-- What may throw while it pushes; what was pushed before stays. -/
abbrev Processing (α : Type) := Throwing StdException Pushed α

/-- `m_instruments.insert`. -/
def insert (instId : Bytes) : Processing Unit :=
  modify (fun pushed ↦ { pushed with instruments := pushed.instruments.insert instId })

/-- `m_tradedInstruments.append`. -/
def append (data : InstrumentType) : Processing Unit :=
  modify (fun pushed ↦ { pushed with appended := pushed.appended ++ [data] })

namespace OkexStream

/-- `process_pushed_instruments_data`. -/
def processPushedInstrumentsData (dataList : List Json) : Processing Unit :=
  dataList.forM fun dataJson ↦ do
    let dataObject ← dataJson.getObject
    insert (← text dataObject "instId")

/-- `process_pushed_tickers_data`. -/
def processPushedTickersData (stod : Bytes → Except StdException ℚ) (s : OkexStream)
    (dataList : List Json) : Processing Unit :=
  dataList.forM fun dataJson ↦ do
    let dataObject ← dataJson.getObject
    let name ← text dataObject "instId"
    let currentPrice ← stod (← text dataObject "last")
    let open24h ← stod (← text dataObject "sodUtc8")
    append { name, currentPrice, open24h, tradeType := s.tradeType }

/-- The part of `interpret_generic_messages` inside its `try`. -/
def processMessage (parse : JsonParse) (stod : Bytes → Except StdException ℚ) (s : OkexStream)
    (buffer : Bytes) : Processing Unit := do
  let json ← parse buffer
  let root ← json.getObject
  match root.find (bytes "event"), root.find (bytes "data"), root.find (bytes "arg") with
  | some _, _, _ =>
    if (root.find (bytes "code")).isSome then
      let _ ← text root "msg"
  | none, some data, some arg =>
    let argObject ← arg.getObject
    let channel ← text argObject "channel"
    if channel = bytes "instruments" then
      processPushedInstrumentsData (← data.getArray)
    else if channel = bytes "tickers" then
      s.processPushedTickersData stod (← data.getArray)
  | none, _, _ => pure ()

/-- The part of `rest_api_on_data_received` before `initiate_websocket_connection`, and whether
it gets there. -/
def processInstruments (parse : JsonParse) (data : Bytes) : Processing Bool := do
  let json ← parse data
  let obj ← json.getObject
  match obj.find (bytes "code"), obj.find (bytes "data") with
  | none, _ => pure false
  | some code, data =>
    let code ← code.getString
    if code ≠ bytes "0" then pure false
    else
      match data with
      | some (.array dataList) =>
        modify fun pushed ↦ { pushed with instruments := ∅ }
        processPushedInstrumentsData dataList
        pure true
      | _ => pure false

/-! ### The stream -/

/-- `rest_api_initiate_connection`. -/
def restApiInitiateConnection (s : OkexStream) : Result := (s, [], [.rest .resolve])

/-- `report_error_and_retry` up to its sleep. -/
def reportErrorAndRetry (s : OkexStream) : Result := (s, [], [.retry])

/-- `initiate_websocket_connection`. -/
def initiateWebsocketConnection (s : OkexStream) : Result := (s, [.clear], [.resolve])

/-- `rest_api_on_data_received`. -/
def restApiOnDataReceived (parse : JsonParse) (s : OkexStream) (data : Bytes) : Result :=
  match processInstruments parse data { instruments := s.instruments } with
  | (.ok true, pushed) => initiateWebsocketConnection { s with instruments := pushed.instruments }
  -- what is thrown is caught
  | (_, pushed) => ({ s with instruments := pushed.instruments }, [], [])

/-- `ticker_subscribe`; `dump` throws on a name that is not UTF-8. -/
def tickerSubscribe (s : OkexStream) : Result :=
  let instrumentList := s.instruments.toList
  let s := { s with instruments := ∅ }
  if instrumentList.all Json.isUtf8 then (s, [], [.write instrumentList]) else (s, [.throw], [])

/-- `on_tickers_subscribed`. -/
def onTickersSubscribed (s : OkexStream) : Result := (s, [], [.firstRead])

/-- `wait_for_messages`. -/
def waitForMessages (s : OkexStream) : Result := (s, [], [.read])

/-- `interpret_generic_messages`. -/
def interpretGenericMessages (parse : JsonParse) (stod : Bytes → Except StdException ℚ)
    (s : OkexStream) (buffer : Bytes) : Result :=
  let handled : Processing Unit := tryCatch (s.processMessage parse stod buffer) fun _ ↦ pure ()
  match handled { instruments := s.instruments } with
  | (.ok _, pushed) =>
    let (s, _, started) := waitForMessages { s with instruments := pushed.instruments }
    (s, pushed.appended.map .append, started)
  | (.error _, pushed) =>
    ({ s with instruments := pushed.instruments }, pushed.appended.map .append ++ [.throw], [])

/-- The handlers of the operations. -/
def complete (parse : JsonParse) (stod : Bytes → Except StdException ℚ) :
    Handler OkexStream Op Delivery InstrumentType :=
  fun s _ op delivery ↦
    match op, delivery with
    | .run, .completed _ | .retry, .completed _ => some s.restApiInitiateConnection
    | .rest op, .completed result =>
      match restComplete op result with
      | .starts op => some (s, [], [.rest op])
      | .errorCallback => some s.reportErrorAndRetry
      | .successCallback data => some (s.restApiOnDataReceived parse data)
    | .resolve, .completed result =>
      some (if result.isSuccess then (s, [], [.connect]) else s.reportErrorAndRetry)
    | .connect, .completed (.success _) => some (s, [], [.sslHandshake])
    | .connect, .completed .noServerName => some (s, [], [])
    | .connect, .completed _ => some s.reportErrorAndRetry
    | .sslHandshake, .completed result =>
      some (if result.isSuccess then (s, [], [.wsHandshake]) else s.reportErrorAndRetry)
    | .wsHandshake, .completed result =>
      some (if result.isSuccess then s.tickerSubscribe else s.reportErrorAndRetry)
    | .write _, .completed result =>
      some (if result.isSuccess then s.onTickersSubscribed else s.reportErrorAndRetry)
    | .firstRead, .completed (.success buffer) | .read, .completed (.success buffer) =>
      some (s.interpretGenericMessages parse stod buffer)
    | .read, .completed .aborted => some (s, [], [])
    | .firstRead, .completed _ | .read, .completed _ => some s.reportErrorAndRetry
    | .firstRead, .closeFrame | .read, .closeFrame =>
      let (s, actions, started) := s.reportErrorAndRetry
      some (s, actions, op :: started)
    | _, .closeFrame => none

end OkexStream

/-- A stream that has been made and is going to be called. -/
def start (tradeType : TradeType) : Process OkexStream Op InstrumentType :=
  { object := { tradeType := tradeType }, tasks := [.op .run] }

end KeepMyJournal.PriceMonitor.Okex
