import KeepMyJournal.PriceMonitor.Distribution

/-!
# The streams of all exchanges

The price streams of each exchange (`price_monitor/main.cpp` starts those of all of them), for
systems that read the prices of several exchanges.
-/

namespace KeepMyJournal.PriceMonitor.Market

open KeepMyJournal.Base KeepMyJournal.Common

/-- The price streams of an exchange; `total` has none. -/
abbrev Watcher : Exchange → Type
  | .binance => BinanceWatcher
  | .kucoin => KucoinWatcher
  | .okex => OkexWatcher
  | .total => Empty

/-- Its class of streams. -/
abbrev Stream : Exchange → Type
  | .binance => Binance.BinanceStream
  | .kucoin => Kucoin.KucoinStream
  | .okex => Okex.OkexStream
  | .total => Empty

/-- What a stream waits for. -/
abbrev StreamOp : Exchange → Type
  | .binance => Binance.StreamOp
  | .kucoin => Kucoin.Op
  | .okex => Okex.Op
  | .total => Empty

/-- How that ends. -/
abbrev StreamResult : Exchange → Type
  | .kucoin => AccountMonitor.Completion
  | .binance | .okex | .total => Okex.Delivery

instance : ∀ exchange, DecidableEq (Watcher exchange)
  | .binance => inferInstanceAs (DecidableEq BinanceWatcher)
  | .kucoin => inferInstanceAs (DecidableEq KucoinWatcher)
  | .okex => inferInstanceAs (DecidableEq OkexWatcher)
  | .total => inferInstanceAs (DecidableEq Empty)

instance : ∀ exchange, DecidableEq (StreamOp exchange)
  | .binance => inferInstanceAs (DecidableEq Binance.StreamOp)
  | .kucoin => inferInstanceAs (DecidableEq Kucoin.Op)
  | .okex => inferInstanceAs (DecidableEq Okex.Op)
  | .total => inferInstanceAs (DecidableEq Empty)

/-- The handlers of the streams of all exchanges. -/
def handlers (parse : JsonParse) (stod : Bytes → Except StdException ℚ) : ∀ exchange,
    Shared.Handler (Stream exchange) (StreamOp exchange) (StreamResult exchange) InstrumentType
  | .binance => Binance.BinanceStream.complete parse stod
  | .kucoin => Kucoin.KucoinStream.complete parse stod
  | .okex => Okex.OkexStream.complete parse stod
  | .total => fun s _ _ _ ↦ some (s, [], [])

/-- The streams of Binance with their websockets connected, the others before their first steps. -/
def connected : ∀ exchange, Watcher exchange →
    Shared.Process (Stream exchange) (StreamOp exchange) InstrumentType
  | .binance => fun i ↦ { object := { tradeType := i.tradeType }, tasks := [.op .read] }
  | .kucoin => fun i ↦ Kucoin.start i.tradeType
  | .okex => fun i ↦ Okex.start i.tradeType
  | .total => fun i ↦ i.elim

/-! ### One instrument -/

/-- A spot instrument at a price, at a quarter a day ago. -/
def btcAt (price : ℚ) : InstrumentType :=
  { name := bytes "BTC", currentPrice := price, open24h := 1 / 4, tradeType := .spot }

/-- A message with its ticker, at a price that the message itself spells. -/
def oneTicker : JsonParse := fun text ↦
  .ok (.array [.object [(bytes "s", .string (bytes "BTC")), (bytes "c", .string text),
    (bytes "o", .string (bytes "0.25"))]])

/-- `std::stod` on a half and a quarter. -/
def readPrice : Bytes → Except StdException ℚ := fun text ↦
  if text = bytes "0.5" then .ok (1 / 2) else .ok (1 / 4)

/-- The bytes of the instrument, by the second byte of its price. -/
def btcBytes (second : UInt8) : Bytes :=
  [0x94, 0xa3] ++ bytes "BTC" ++ [0xcb, 0x3f, second, 0, 0, 0, 0, 0, 0,
    0xcb, 0x3f, 0xd0, 0, 0, 0, 0, 0, 0, 0x01]

def packBtc (instr : InstrumentType) : Bytes :=
  if instr.currentPrice = 1 / 2 then btcBytes 0xe0 else btcBytes 0xd0

def unpackBtc (view : Bytes) : Option InstrumentType :=
  if (btcBytes 0xe0).isPrefixOf view then some (btcAt (1 / 2))
  else if (btcBytes 0xd0).isPrefixOf view then some (btcAt (1 / 4))
  else none

theorem unpackBtc_pack {instrument : InstrumentType}
    (h : instrument = btcAt (1 / 2) ∨ instrument = btcAt (1 / 4)) (rest : Bytes) :
    unpackBtc (packBtc instrument ++ rest) = some instrument := by
  rcases h with rfl | rfl
  · have hpack : packBtc (btcAt (1 / 2)) = btcBytes 0xe0 := by decide +kernel
    rw [hpack]
    rfl
  · have hpack : packBtc (btcAt (1 / 4)) = btcBytes 0xd0 := by decide +kernel
    rw [hpack]
    rfl

end KeepMyJournal.PriceMonitor.Market
