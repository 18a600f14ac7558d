import KeepMyJournal.AccountMonitor.BinanceStream
import KeepMyJournal.AccountMonitor.KucoinStream
import KeepMyJournal.AccountMonitor.OkexStream

/-!
# Stopping an account stream

What the three stream classes start after `stop`, over every order in which `stop` and the
completions of the operations in flight come.
-/

namespace KeepMyJournal.AccountMonitor

open KeepMyJournal.Base KeepMyJournal.Common

/-- Over every run of a stream from its start, whatever a `close` does, nothing reaches out after
`stop` if and only if all events after it are harmless for the stream they meet. -/
theorem quiet_after_stop_iff (parse : JsonParse) (okexMsTimeToString : Bytes → Option Bytes)
    (binanceCloseReturns : Binance.Severance → Bool) (okexCloseReturns : Okex.Severance → Bool)
    (tradeType : TradeType) :
    (∀ events : List Binance.Event,
      Transition.Along (Async.step (Binance.BinanceStream.handlers parse binanceCloseReturns))
          (Async.Quiet Binance.Op.isOutreach)
          (Async.InFlight.start (Binance.BinanceStream.run {})) events ↔
        Transition.Along (Async.step (Binance.BinanceStream.handlers parse binanceCloseReturns))
          (fun s e _ ↦ s.stopped = true → Binance.Harmless s.object e)
          (Async.InFlight.start (Binance.BinanceStream.run {})) events) ∧
    (∀ events : List Kucoin.Event,
      Transition.Along (Async.step (Kucoin.KucoinStream.handlers parse))
          (Async.Quiet Kucoin.Op.isOutreach)
          (Async.InFlight.start (Kucoin.KucoinStream.run { tradeType := tradeType })) events ↔
        Transition.Along (Async.step (Kucoin.KucoinStream.handlers parse))
          (fun s e _ ↦ s.stopped = true → Kucoin.Harmless parse s.object e)
          (Async.InFlight.start (Kucoin.KucoinStream.run { tradeType := tradeType })) events) ∧
    (∀ events : List Okex.Event,
      Transition.Along (Async.step (Okex.OkexStream.handlers parse okexMsTimeToString
          okexCloseReturns))
          (Async.Quiet Okex.Op.isOutreach)
          (Async.InFlight.start (Okex.OkexStream.run {})) events ↔
        Transition.Along (Async.step (Okex.OkexStream.handlers parse okexMsTimeToString
          okexCloseReturns))
          (fun s e _ ↦ s.stopped = true →
            Okex.Harmless parse okexMsTimeToString s.object e)
          (Async.InFlight.start (Okex.OkexStream.run {})) events) :=
  ⟨Binance.quiet_iff_harmless parse binanceCloseReturns, Kucoin.quiet_iff_harmless parse tradeType,
    Okex.quiet_iff_harmless parse okexMsTimeToString okexCloseReturns⟩

/-- A stop between the start and the completion of the first name resolution: the resolution
succeeds and each stream connects. -/
theorem not_quiet_after_stop :
    ¬Transition.Along
        (Async.step (Binance.BinanceStream.handlers (fun _ ↦ .error .parseError) fun _ ↦ false))
        (Async.Quiet Binance.Op.isOutreach)
        (Async.InFlight.start (Binance.BinanceStream.run {}))
        [.stop, .complete (.rest .resolve) (.success [])] ∧
      ¬Transition.Along (Async.step (Kucoin.KucoinStream.handlers (fun _ ↦ .error .parseError)))
        (Async.Quiet Kucoin.Op.isOutreach)
        (Async.InFlight.start (Kucoin.KucoinStream.run { tradeType := .spot }))
        [.stop, .complete (.rest .resolve) (.success [])] ∧
      ¬Transition.Along
        (Async.step (Okex.OkexStream.handlers (fun _ ↦ .error .parseError) (fun _ ↦ none)
          fun _ ↦ false))
        (Async.Quiet Okex.Op.isOutreach)
        (Async.InFlight.start (Okex.OkexStream.run {}))
        [.stop, .complete .resolve (.success [])] := by
  refine ⟨?_, ?_, ?_⟩
  · intro h
    have hconnect := (h _ rfl).2 _ rfl
    exact absurd (hconnect.1 rfl (.rest .connect) (by decide)) (by decide)
  · intro h
    have hconnect := (h _ rfl).2 _ rfl
    exact absurd (hconnect.1 rfl (.rest .connect) (by decide)) (by decide)
  · intro h
    have hconnect := (h _ rfl).2 _ rfl
    exact absurd (hconnect.1 rfl .connect (by decide)) (by decide)

end KeepMyJournal.AccountMonitor
