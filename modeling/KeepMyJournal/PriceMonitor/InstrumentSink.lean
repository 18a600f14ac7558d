import KeepMyJournal.PriceMonitor.KucoinStream
import KeepMyJournal.PriceMonitor.OkexStream

/-!
# The shared instrument sink

`instrument_sink_t::get_all_listed_instruments` hands one list to all streams of an exchange and
to the thread that sends its instruments on, `common/include/price_stream/commodity.hpp:33–39`,
`price_monitor/src/external_messaging_stream.cpp:24–49`. A stream clears it when it connects
anew. The order in which the watchers call `run` is left open.
-/

namespace KeepMyJournal.PriceMonitor

open KeepMyJournal.Base KeepMyJournal.Base.Shared KeepMyJournal.Common

/-- The streams of `kucoin_price_watcher`. -/
inductive KucoinWatcher where
  | spotWatcher | futuresWatcher
  deriving DecidableEq, Repr

/-- The streams of `okexchange_price_watcher`. -/
inductive OkexWatcher where
  | spotStream | swapStream | futuresStream
  deriving DecidableEq, Repr

/-- The class of each stream. -/
def KucoinWatcher.tradeType : KucoinWatcher → TradeType
  | spotWatcher => .spot
  | futuresWatcher => .futures

/-- The trade type of each stream. -/
def OkexWatcher.tradeType : OkexWatcher → TradeType
  | spotStream => .spot
  | swapStream => .swap
  | futuresStream => .futures

/-- The streams of KuCoin before their first steps, with the empty sink. -/
def kucoinPriceWatcher :
    System KucoinWatcher Kucoin.KucoinStream Kucoin.Op InstrumentType :=
  { process := fun i ↦ Kucoin.start i.tradeType }

/-- The streams of OKX before their first steps, with the empty sink. -/
def okexchangePriceWatcher : System OkexWatcher Okex.OkexStream Okex.Op InstrumentType :=
  { process := fun i ↦ Okex.start i.tradeType }

/-- In every run of the streams of KuCoin or of OKX with the sender, every instrument appended
has been taken or is still queued, if and only if no stream clears the sink while it holds
something. -/
theorem conserved_iff (parse : JsonParse) (stod : Bytes → Except StdException ℚ) :
    (∀ es : List (Event KucoinWatcher Kucoin.Op AccountMonitor.Completion InstrumentType),
      Transition.Along (step (Kucoin.KucoinStream.complete parse stod))
          (fun _ _ s' ↦ Conserved s') kucoinPriceWatcher es ↔
        Transition.Along (step (Kucoin.KucoinStream.complete parse stod)) ClearsEmpty
          kucoinPriceWatcher es) ∧
    ∀ es : List (Event OkexWatcher Okex.Op Okex.Delivery InstrumentType),
      Transition.Along (step (Okex.OkexStream.complete parse stod))
          (fun _ _ s' ↦ Conserved s') okexchangePriceWatcher es ↔
        Transition.Along (step (Okex.OkexStream.complete parse stod)) ClearsEmpty
          okexchangePriceWatcher es :=
  ⟨fun _ ↦ along_conserved_iff (s := kucoinPriceWatcher) rfl,
    fun _ ↦ along_conserved_iff (s := okexchangePriceWatcher) rfl⟩

/-- The moves of a futures stream that finds the sink filled, and fails to resolve the name of
the websocket. -/
def failedConnect : List (Move Kucoin.Op AccountMonitor.Completion InstrumentType) :=
  .complete .run (.success []) false :: Kucoin.requestMoves .token "token" false ++
    [.complete .resolve .failed false, .act .clear [] [.retry]]

/-- The futures stream clears the sink while an instrument of the spot stream is queued. -/
theorem not_conserved_kucoin :
    ¬Transition.Along
      (step (Kucoin.KucoinStream.complete Kucoin.sampleParse fun _ ↦ .error .invalidArgument))
      (fun _ _ s' ↦ Conserved s') kucoinPriceWatcher
      (Kucoin.spotMoves.map (.move .spotWatcher) ++ failedConnect.map (.move .futuresWatcher)) := by
  decide +kernel

end KeepMyJournal.PriceMonitor
