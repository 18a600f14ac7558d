import KeepMyJournal.PriceMonitor.BinanceStream
import KeepMyJournal.PriceMonitor.OkexStream
import KeepMyJournal.PriceMonitor.TickerSubscription

/-!
# Messages of the price streams

What `interpret_generic_messages` of the three price streams does with any bytes it receives.
Binance and OKX read a message inside a `try`; KuCoin reads it outside of any.
-/

namespace KeepMyJournal.PriceMonitor

open KeepMyJournal.Base KeepMyJournal.Base.Shared KeepMyJournal.Common
open KeepMyJournal.AccountMonitor (Completion)

/-- No exception leaves the handler of a message, and it starts exactly one operation, which
reads from the websocket or writes to it. -/
def Absorbs {σ ω α : Type} (isReadOrWrite : ω → Bool) (r : σ × List (Action α) × List ω) : Prop :=
  .throw ∉ r.2.1 ∧ ∃ op, r.2.2 = [op] ∧ isReadOrWrite op = true

private theorem throw_not_mem_map {α : Type} (l : List α) : Action.throw ∉ l.map Action.append := by
  intro h
  obtain ⟨a, -, ha⟩ := List.mem_map.mp h
  cases ha

/-! ### Binance -/

/-- The operation reads from the websocket or writes to it. -/
def Binance.Op.isReadOrWrite : Binance.Op → Bool
  | .read => true

/-- The Binance streams absorb every message. -/
private theorem absorbs_binance (parse : JsonParse) (stod : Bytes → Except StdException ℚ)
    (s : Binance.BinanceStream) (buffer : Bytes) :
    Absorbs Binance.Op.isReadOrWrite (s.interpretGenericMessages parse stod buffer) := by
  unfold Binance.BinanceStream.interpretGenericMessages
  have hok := Throwing.fst_tryCatch (x := s.processMessage parse stod buffer) (s := []) (a := ())
  dsimp only
  split
  · exact ⟨throw_not_mem_map _, .read, rfl, rfl⟩
  · next heq =>
    rw [heq] at hok
    cases hok

/-! ### OKX -/

/-- The operation reads from the websocket or writes to it. -/
def Okex.Op.isReadOrWrite : Okex.Op → Bool
  | .write _ | .firstRead | .read => true
  | _ => false

/-- The OKX streams absorb every message. -/
private theorem absorbs_okex (parse : JsonParse) (stod : Bytes → Except StdException ℚ)
    (s : Okex.OkexStream) (buffer : Bytes) :
    Absorbs Okex.Op.isReadOrWrite (s.interpretGenericMessages parse stod buffer) := by
  unfold Okex.OkexStream.interpretGenericMessages
  have hok := Throwing.fst_tryCatch (x := s.processMessage parse stod buffer)
    (s := { instruments := s.instruments }) (a := ())
  dsimp only
  split
  · exact ⟨throw_not_mem_map _, .read, rfl, rfl⟩
  · next heq =>
    rw [heq] at hok
    cases hok

/-! ### KuCoin -/

namespace Kucoin

/-- The operation reads from the websocket or writes to it. -/
def Op.isReadOrWrite : Op → Bool
  | .read | .write _ => true
  | _ => false

/-- The text that the spot branch hands to `std::stod`, if there is one, is a number. -/
def SpotPriceRead (stod : Bytes → Except StdException ℚ)
    (jsonObject dataObject : Json.Object) : Prop :=
  ∀ subject price, jsonObject.find (bytes "subject") = some (.string subject) →
    dataObject.find (bytes "price") = some (.string price) → (stod price).isOk

/-- The texts that the futures branch hands to `std::stod`, if there are, are numbers. -/
def FuturesPricesRead (stod : Bytes → Except StdException ℚ) (dataObject : Json.Object) : Prop :=
  ∀ symbol bid ask, dataObject.find (bytes "symbol") = some (.string symbol) →
    dataObject.find (bytes "bestBidPrice") = some (.string bid) →
    dataObject.find (bytes "bestAskPrice") = some (.string ask) → (stod bid).isOk ∧ (stod ask).isOk

/-- The texts that should be prices are numbers. -/
def PricesRead (stod : Bytes → Except StdException ℚ) (tradeType : TradeType)
    (jsonObject : Json.Object) : Prop :=
  ∀ dataObject, jsonObject.find (bytes "data") = some (.object dataObject) →
    if tradeType = .spot then SpotPriceRead stod jsonObject dataObject
    else FuturesPricesRead stod dataObject

/-- The bytes are a JSON object, and the texts in it that should be prices are numbers. -/
def Readable (parse : JsonParse) (stod : Bytes → Except StdException ℚ) (tradeType : TradeType)
    (buffer : Bytes) : Prop :=
  ∃ jsonObject, parse buffer = .ok (.object jsonObject) ∧ PricesRead stod tradeType jsonObject

variable {parse : JsonParse} {stod : Bytes → Except StdException ℚ}

private theorem isOk_bind_pure {ε α β : Type} {x : Except ε α} {f : α → β} :
    (x >>= fun a ↦ pure (f a)).isOk = x.isOk := by
  cases x <;> rfl

private theorem isOk_bind_bind_pure_iff {ε α β γ : Type} {x : Except ε α} {y : Except ε β}
    {f : α → β → γ} :
    (x >>= fun a ↦ y >>= fun b ↦ pure (f a b)).isOk ↔ x.isOk ∧ y.isOk := by
  cases x with
  | error e => exact iff_of_false nofun fun h ↦ nomatch h.1
  | ok a =>
    change (y >>= fun b ↦ pure (f a b)).isOk ↔ _
    rw [isOk_bind_pure]
    exact ⟨fun h ↦ ⟨rfl, h⟩, And.right⟩

private theorem isOk_readPrice_iff {price : Json} :
    (readPrice stod (pure 0) price).isOk ↔ ∀ s, price = .string s → (stod s).isOk := by
  cases price <;> simp [readPrice, Json.isNumber, Json.getNumberFloat] <;> rfl

private theorem isOk_spotInstrument_iff {jsonObject dataObject : Json.Object}
    {tradeType : TradeType} :
    (spotInstrument stod jsonObject dataObject tradeType).isOk ↔
      SpotPriceRead stod jsonObject dataObject := by
  unfold spotInstrument SpotPriceRead
  split
  · next name hname =>
    split
    · next hprice =>
      refine iff_of_true rfl ?_
      intro _ price _ hfind
      rw [hprice] at hfind
      cases hfind
    · next price hprice =>
      rw [isOk_bind_pure, isOk_readPrice_iff]
      constructor
      · intro h _ text _ hfind
        rw [hprice] at hfind
        exact h text (Option.some.inj hfind)
      · rintro h text rfl
        exact h name text hname hprice
  · next hname =>
    refine iff_of_true rfl ?_
    intro subject _ hfind
    exact absurd hfind (hname subject)

private theorem isOk_futuresInstrument_iff {dataObject : Json.Object} {tradeType : TradeType} :
    (futuresInstrument stod dataObject tradeType).isOk ↔ FuturesPricesRead stod dataObject := by
  unfold futuresInstrument FuturesPricesRead
  split
  · next name hname =>
    split
    · next bestBid bestAsk hbid hask =>
      rw [isOk_bind_bind_pure_iff]
      constructor
      · intro h symbol bid ask _ hbid' hask'
        rw [hbid] at hbid'
        rw [hask] at hask'
        cases hbid'
        cases hask'
        exact h
      · intro h
        exact h name bestBid bestAsk hname hbid hask
    · next hnone =>
      refine iff_of_true rfl ?_
      intro _ bid ask _ hbid hask
      exact absurd hask (hnone bid ask hbid)
  · next hname =>
    refine iff_of_true rfl ?_
    intro symbol _ _ hfind
    exact absurd hfind (hname symbol)

private theorem isOk_readInstrument_iff {jsonObject : Json.Object} {tradeType : TradeType} :
    (readInstrument stod jsonObject tradeType).isOk ↔ PricesRead stod tradeType jsonObject := by
  unfold readInstrument PricesRead
  split
  · next dataObject hdata =>
    simp only [hdata, Option.some.injEq, Json.object.injEq, forall_eq']
    by_cases hspot : tradeType = .spot
    · rw [if_pos hspot, if_pos hspot]
      exact isOk_spotInstrument_iff
    · rw [if_neg hspot, if_neg hspot]
      exact isOk_futuresInstrument_iff
  · next hdata =>
    refine iff_of_true rfl ?_
    intro dataObject hfind
    exact absurd hfind (hdata dataObject)

/-- `get_instrument_from_json` returns exactly on a readable message. -/
theorem isOk_getInstrumentFromJson_iff {buffer : Bytes} {tradeType : TradeType} :
    (getInstrumentFromJson parse stod buffer tradeType).isOk ↔
      Readable parse stod tradeType buffer := by
  unfold getInstrumentFromJson Readable
  cases parse buffer with
  | error e =>
    refine iff_of_false nofun ?_
    rintro ⟨jsonObject, h, -⟩
    cases h
  | ok value =>
    cases value with
    | object jsonObject =>
      change (readInstrument stod jsonObject tradeType).isOk ↔ _
      rw [isOk_readInstrument_iff]
      constructor
      · exact fun h ↦ ⟨jsonObject, rfl, h⟩
      · rintro ⟨other, hother, h⟩
        cases hother
        exact h
    | _ =>
      refine iff_of_false nofun ?_
      rintro ⟨jsonObject, h, -⟩
      cases h

/-- A stream keeps its class, and has one chain. -/
private theorem chain_tradeType {tradeType : TradeType}
    {moves : List (Move Op Completion InstrumentType)}
    {p : Process KucoinStream Op InstrumentType}
    (hrun : Transition.run (move (KucoinStream.complete parse stod)) (start tradeType) moves =
      some p) :
    Chain (fun s ↦ s.tradeType = tradeType) (fun _ _ ↦ True) p := by
  refine Transition.inv_run ?_ ?_ hrun
  · intro p m p' hp hm
    refine chain_move (Θ := fun _ _ ↦ True) ?_ hp True.intro hm
    intro s empty op result s' actions started _ hs _ h
    have hkept : ∀ r, KucoinStream.Outcome parse stod s empty op r →
        r.1.tradeType = tradeType ∧ r.2.2.length ≤ 1 := by
      intro r hr
      cases hr with
      | kept _ hlen _ => exact ⟨hs, hlen⟩
      | initiated _ => cases empty <;> exact ⟨hs, Nat.le_refl 1⟩
      | received _ _ hlen _ => exact ⟨hs, hlen⟩
      | retried _ => exact ⟨(KucoinStream.tradeType_resetCounter s).trans hs, Nat.le_refl 1⟩
      | written success =>
        cases success with
        | true => exact ⟨hs, Nat.le_refl 1⟩
        | false => exact ⟨(KucoinStream.tradeType_resetCounter _).trans hs, Nat.le_refl 1⟩
      | sent _ hr _ =>
        obtain ⟨⟨htype, -, -⟩, hlen⟩ := KucoinStream.sendTickerSubscription_spec hr
        exact ⟨htype.trans hs, hlen⟩
    obtain ⟨htype, hlen⟩ := hkept _ (KucoinStream.complete_cases h)
    exact ⟨htype, hlen, fun _ _ ↦ True.intro⟩
  · exact chain_start rfl True.intro

/-- A stream that is not a futures stream can always subscribe. -/
private theorem sendTickerSubscription_of_ne {s : KucoinStream} (h : s.tradeType ≠ .futures) :
    ∃ t topic, s.sendTickerSubscription = some (t, [], [.write topic]) := by
  unfold KucoinStream.sendTickerSubscription
  cases s.subscriptionString with
  | some topic => exact ⟨_, topic, rfl⟩
  | none =>
    unfold KucoinStream.getSubscriptionJson
    dsimp only
    rw [if_neg h]
    exact ⟨_, bytes "/market/ticker:all", rfl⟩

/-- A connected stream absorbs a message exactly if the message is readable. -/
private theorem absorbs_kucoin_iff {s : KucoinStream}
    (hsend : ∃ t topic, s.sendTickerSubscription = some (t, [], [.write topic]))
    {buffer : Bytes} :
    (∃ r, s.interpretGenericMessages parse stod buffer = some r ∧ Absorbs Op.isReadOrWrite r) ↔
      Readable parse stod s.tradeType buffer := by
  rw [← isOk_getInstrumentFromJson_iff]
  unfold KucoinStream.interpretGenericMessages
  cases getInstrumentFromJson parse stod buffer s.tradeType with
  | error e =>
    refine iff_of_false ?_ nofun
    rintro ⟨r, hr, hthrow, -⟩
    obtain rfl := Option.some.inj hr
    exact hthrow List.mem_cons_self
  | ok inst =>
    refine iff_of_true ?_ rfl
    dsimp only
    have hthrow : Action.throw ∉
        (if inst.name.isEmpty then [] else [Action.append inst] : List (Action InstrumentType)) ++
          [] := by
      split <;> simp
    obtain ⟨t, topic, hsend⟩ := hsend
    cases s.tokensSubscribedFor with
    | false =>
      rw [hsend]
      exact ⟨_, rfl, hthrow, .write topic, rfl, rfl⟩
    | true => exact ⟨_, rfl, hthrow, .read, rfl, rfl⟩

end Kucoin

/-- Every message is absorbed by the Binance and the OKX streams, and by a KuCoin stream that
waits for one exactly if it is readable. The read that receives it is the only operation in
flight. -/
theorem absorbs_iff (parse : JsonParse) (stod : Bytes → Except StdException ℚ)
    (hparse : ∀ text value, parse text = .ok value → value.dumps = true) :
    (∀ (s : Binance.BinanceStream) (buffer : Bytes),
      Absorbs Binance.Op.isReadOrWrite (s.interpretGenericMessages parse stod buffer)) ∧
    (∀ (s : Okex.OkexStream) (buffer : Bytes),
      Absorbs Okex.Op.isReadOrWrite (s.interpretGenericMessages parse stod buffer)) ∧
    ∀ (tradeType : TradeType) (moves : List (Move Kucoin.Op Completion InstrumentType))
      (p : Process Kucoin.KucoinStream Kucoin.Op InstrumentType) (buffer : Bytes),
      Transition.run (move (Kucoin.KucoinStream.complete parse stod)) (Kucoin.start tradeType)
          moves = some p → .op .read ∈ p.tasks →
        p.tasks = [.op .read] ∧
          ((∃ r, p.object.interpretGenericMessages parse stod buffer = some r ∧
              Absorbs Kucoin.Op.isReadOrWrite r) ↔
            Kucoin.Readable parse stod tradeType buffer) := by
  refine ⟨absorbs_binance parse stod, absorbs_okex parse stod, ?_⟩
  intro tradeType moves p buffer hrun hread
  have hp := Kucoin.chain_tradeType hrun
  have htype : p.object.tradeType = tradeType := hp.object
  refine ⟨hp.tasks_eq hread, ?_⟩
  rw [← htype]
  apply Kucoin.absorbs_kucoin_iff
  by_cases hfutures : tradeType = .futures
  · subst hfutures
    exact Kucoin.KucoinStream.sendTickerSubscription_run hparse hrun hread
  · exact Kucoin.sendTickerSubscription_of_ne (htype.trans_ne hfutures)

/-- The KuCoin futures stream absorbs the message that greets it, and then writes its first
subscription. -/
theorem absorbs_welcome :
    let p := (Transition.run
      (move (Kucoin.KucoinStream.complete Kucoin.sampleParse fun _ ↦ .error .invalidArgument))
      (Kucoin.start .futures) Kucoin.futuresMoves).get (by decide +kernel)
    ∃ r, p.object.interpretGenericMessages Kucoin.sampleParse (fun _ ↦ .error .invalidArgument)
      (bytes "welcome") = some r ∧ Absorbs Kucoin.Op.isReadOrWrite r :=
  ((absorbs_iff Kucoin.sampleParse (fun _ ↦ .error .invalidArgument)
    Kucoin.dumps_sampleParse).2.2 .futures Kucoin.futuresMoves _ (bytes "welcome")
      (Option.some_get _).symm (by decide +kernel)).2.mpr ⟨[], by rfl, nofun⟩

/-- Bytes that are no JSON text end a connected KuCoin stream with an exception, although it has
one read in flight like the others. -/
theorem not_absorbs_truncated :
    let p := (Transition.run
      (move (Kucoin.KucoinStream.complete Kucoin.sampleParse fun _ ↦ .error .invalidArgument))
      (Kucoin.start .futures) Kucoin.futuresMoves).get (by decide +kernel)
    p.tasks = [.op .read] ∧
      ¬∃ r, p.object.interpretGenericMessages Kucoin.sampleParse (fun _ ↦ .error .invalidArgument)
        (bytes "truncated") = some r ∧ Absorbs Kucoin.Op.isReadOrWrite r := by
  refine ⟨by decide +kernel, ?_⟩
  rintro ⟨r, hr, hthrow, -⟩
  rw [Kucoin.KucoinStream.interpretGenericMessages, Kucoin.getInstrumentFromJson,
    show Kucoin.sampleParse (bytes "truncated") = .error .parseError by rfl] at hr
  obtain rfl := Option.some.inj hr
  exact hthrow List.mem_cons_self

end KeepMyJournal.PriceMonitor
