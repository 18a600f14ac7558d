import KeepMyJournal.AccountMonitor.OkexStream
import KeepMyJournal.Base.Shared
import KeepMyJournal.Common.Tasks

/-!
# Messages of the Binance price streams

`binance_price_stream_t`, `price_monitor/src/binance_price_stream.cpp:164–214`, from a completed
read to the next. `std::stod` is a parameter.
-/

namespace KeepMyJournal.PriceMonitor.Binance

open KeepMyJournal.Base KeepMyJournal.Base.Shared KeepMyJournal.Common
open KeepMyJournal.AccountMonitor.Okex (text)

/-- `binance_price_stream_t`, as far as its messages depend on it. -/
structure BinanceStream where
  tradeType : TradeType
  deriving DecidableEq, Repr

/-- The operations on the websocket once it is connected. -/
inductive Op where
  | read
  deriving DecidableEq, Repr

/-- What may throw while it appends to the sink; what was appended before stays. -/
abbrev Processing (α : Type) := Throwing StdException (List InstrumentType) α

/-- `m_tradedInstruments.append`. -/
def append (data : InstrumentType) : Processing Unit :=
  modify (fun appended ↦ appended ++ [data])

namespace BinanceStream

/-- `process_pushed_tickers_data`. -/
def processPushedTickersData (stod : Bytes → Except StdException ℚ) (s : BinanceStream)
    (dataList : List Json) : Processing Unit :=
  dataList.forM fun dataJson ↦ do
    let dataObject ← dataJson.getObject
    let name ← text dataObject "s"
    let currentPrice ← stod (← text dataObject "c")
    let open24h ← stod (← text dataObject "o")
    append { name, currentPrice, open24h, tradeType := s.tradeType }

/-- The part of `interpret_generic_messages` inside its `try`. -/
def processMessage (parse : JsonParse) (stod : Bytes → Except StdException ℚ) (s : BinanceStream)
    (buffer : Bytes) : Processing Unit := do
  let json ← parse buffer
  s.processPushedTickersData stod (← json.getArray)

/-- `wait_for_messages`. -/
def waitForMessages (s : BinanceStream) : BinanceStream × List Op := (s, [.read])

/-- `interpret_generic_messages`. -/
def interpretGenericMessages (parse : JsonParse) (stod : Bytes → Except StdException ℚ)
    (s : BinanceStream) (buffer : Bytes) :
    BinanceStream × List (Action InstrumentType) × List Op :=
  let handled : Processing Unit := tryCatch (s.processMessage parse stod buffer) fun _ ↦ pure ()
  match handled [] with
  | (.ok _, appended) =>
    let (s, started) := s.waitForMessages
    (s, appended.map .append, started)
  | (.error _, appended) => (s, appended.map .append ++ [.throw], [])

end BinanceStream

end KeepMyJournal.PriceMonitor.Binance
