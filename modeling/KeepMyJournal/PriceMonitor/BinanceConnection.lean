import KeepMyJournal.PriceMonitor.BinanceStream
import KeepMyJournal.PriceMonitor.OkexStream

/-!
# The Binance price streams

`binance_price_stream_t`, `price_monitor/src/binance_price_stream.cpp:20–239`, as the handler of a
process that shares the instrument sink of the exchange. The first error on the way to the
websocket ends a stream; a websocket that fails later is connected anew. A close frame destroys
the websocket under its own read: how that read then ends is left open.
-/

namespace KeepMyJournal.PriceMonitor.Binance

open KeepMyJournal.Base KeepMyJournal.Base.Shared KeepMyJournal.Common
open KeepMyJournal.AccountMonitor (Completion RestOp restComplete)
open KeepMyJournal.AccountMonitor.Okex (text)
open KeepMyJournal.PriceMonitor.Okex (Delivery)

/-- What a stream waits for: its call of `run`, and operations. -/
inductive StreamOp where
  | run
  | rest (op : RestOp)
  | resolve | connect | sslHandshake | wsHandshake
  | read
  deriving DecidableEq, Repr

/-- The operations on the connected websocket among them. -/
def Op.toStreamOp : Op → StreamOp
  | .read => .read

/-- What a handler leaves: the stream, its actions on the sink, and what it starts. -/
abbrev Result := BinanceStream × List (Action InstrumentType) × List StreamOp

namespace BinanceStream

/-- `process_pushed_instruments_data`. -/
def processPushedInstrumentsData (s : BinanceStream) (dataList : List Json) : Processing Unit :=
  dataList.forM fun dataJson ↦ do
    let dataObject ← dataJson.getObject
    let name ← text dataObject "symbol"
    append { name, tradeType := s.tradeType }

/-- The part of `rest_api_on_data_received` before `initiate_websocket_connection`. -/
def processInstruments (parse : JsonParse) (s : BinanceStream) (data : Bytes) :
    Processing Unit := do
  let json ← parse data
  s.processPushedInstrumentsData (← json.getArray)

/-- `rest_api_initiate_connection`, and `run`. -/
def restApiInitiateConnection (s : BinanceStream) : Result := (s, [], [.rest .resolve])

/-- `initiate_websocket_connection`. -/
def initiateWebsocketConnection (s : BinanceStream) : Result := (s, [], [.resolve])

/-- `rest_api_on_data_received`. -/
def restApiOnDataReceived (parse : JsonParse) (s : BinanceStream) (data : Bytes) : Result :=
  match s.processInstruments parse data [] with
  | (.ok _, appended) =>
    let (s, _, started) := s.initiateWebsocketConnection
    (s, appended.map .append, started)
  -- what is thrown is caught, and the stream ends
  | (.error _, appended) => (s, appended.map .append, [])

/-- `interpret_generic_messages`, among all operations of a stream. -/
def interpretMessage (parse : JsonParse) (stod : Bytes → Except StdException ℚ)
    (s : BinanceStream) (buffer : Bytes) : Result :=
  let (s, actions, started) := s.interpretGenericMessages parse stod buffer
  (s, actions, started.map Op.toStreamOp)

/-- The handlers of the operations. -/
def complete (parse : JsonParse) (stod : Bytes → Except StdException ℚ) :
    Handler BinanceStream StreamOp Delivery InstrumentType :=
  fun s _ op delivery ↦
    match op, delivery with
    | .run, .completed _ => some s.restApiInitiateConnection
    | .rest op, .completed result =>
      match restComplete op result with
      | .starts op => some (s, [], [.rest op])
      -- the error callback only logs
      | .errorCallback => some (s, [], [])
      | .successCallback data => some (s.restApiOnDataReceived parse data)
    | .resolve, .completed (.success _) => some (s, [], [.connect])
    | .connect, .completed (.success _) => some (s, [], [.sslHandshake])
    | .sslHandshake, .completed (.success _) => some (s, [], [.wsHandshake])
    | .wsHandshake, .completed (.success _) => some (s, [], [.read])
    | .resolve, .completed _ | .connect, .completed _ | .sslHandshake, .completed _
    | .wsHandshake, .completed _ => some (s, [], [])
    | .read, .completed (.success buffer) => some (s.interpretMessage parse stod buffer)
    | .read, .completed .aborted => some (s, [], [])
    | .read, .completed _ => some s.initiateWebsocketConnection
    | .read, .closeFrame =>
      let (s, actions, started) := s.initiateWebsocketConnection
      some (s, actions, .read :: started)
    | _, .closeFrame => none

end BinanceStream

/-- A stream that has been made and is going to be called. -/
def start (tradeType : TradeType) : Process BinanceStream StreamOp InstrumentType :=
  { object := { tradeType := tradeType }, tasks := [.op .run] }

end KeepMyJournal.PriceMonitor.Binance
