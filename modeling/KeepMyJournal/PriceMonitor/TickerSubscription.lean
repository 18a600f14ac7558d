import KeepMyJournal.Base.Lists
import KeepMyJournal.PriceMonitor.KucoinStream

/-!
# The subscriptions of the KuCoin futures stream

The stream subscribes to the tickers of its contracts in batches of at most 100 names,
`price_monitor/src/kucoin_price_stream.cpp:306–418`. The counter, the flag and the list of
contracts are changed by different handlers; what keeps them together is which operation is in
flight.
-/

namespace KeepMyJournal.PriceMonitor.Kucoin.KucoinStream

open KeepMyJournal.Base KeepMyJournal.Base.Shared KeepMyJournal.Common
open KeepMyJournal.AccountMonitor (Completion)
open KeepMyJournal.AccountMonitor.Kucoin.KucoinStream (Fault member)

/-- The subscriptions written since the last reset name consecutive blocks of at most 100
contracts, which make up the list as far as the counter, and the stream counts as subscribed
only at the end of the list. -/
structure Batched (s : KucoinStream) : Prop where
  counter : s.tokenCounter ≤ s.fInstruments.length
  blocks : ∃ blocks : List (List Bytes), s.written = blocks.map tickerTopic ∧
    (∀ b ∈ blocks, b.length ≤ 100) ∧
      blocks.flatten = (s.fInstruments.map InstrumentType.name).take s.tokenCounter
  whole : s.tokensSubscribedFor = true → s.tokenCounter = s.fInstruments.length

/-- What holds beside an operation: nothing has been subscribed to before the contracts are
there, and a text waits to be written only during its write. -/
structure Beside (s : KucoinStream) (op : Op) : Prop where
  opening : op.isOpening = true →
    s.tokenCounter = 0 ∧ s.tokensSubscribedFor = false ∧ s.written = []
  text : op.isWrite = false → s.subscriptionString = none

/-- The names the next subscription lists. -/
def nextBatch (s : KucoinStream) : List Bytes :=
  ((s.fInstruments.map InstrumentType.name).drop s.tokenCounter).take 100

/-- The stream after `get_subscription_json`. -/
def advanced (s : KucoinStream) : KucoinStream :=
  let counter := s.tokenCounter + min 100 (s.fInstruments.length - s.tokenCounter)
  { s with
    tokenCounter := counter
    tokensSubscribedFor := s.tokensSubscribedFor || counter == s.fInstruments.length }

variable {parse : JsonParse} {stod : Bytes → Except StdException ℚ} {s : KucoinStream}

/-- While the counter is within the list, the subtraction does not wrap and every index is
within the list. -/
theorem getSubscriptionJson_eq (hfutures : s.tradeType = .futures)
    (hcounter : s.tokenCounter ≤ s.fInstruments.length) :
    s.getSubscriptionJson = some (s.advanced, tickerTopic s.nextBatch) := by
  have hminus : sizeMinus s.fInstruments.length s.tokenCounter =
      s.fInstruments.length - s.tokenCounter := if_pos hcounter
  have hread := mapM_getElem?_range (l := s.fInstruments) (k := s.tokenCounter)
    (n := min 100 (s.fInstruments.length - s.tokenCounter)) (by omega)
  have htake : (s.fInstruments.drop s.tokenCounter).take
      (min 100 (s.fInstruments.length - s.tokenCounter)) =
        (s.fInstruments.drop s.tokenCounter).take 100 := by
    rw [List.take_eq_take_iff, List.length_drop]
    omega
  unfold getSubscriptionJson nextBatch
  dsimp only
  rw [if_pos hfutures, hminus, hread, htake]
  dsimp only
  rw [List.map_take, List.map_drop]
  rfl

/-- The next subscription carries on where the last one ended. -/
private theorem batched_advanced (hs : s.Batched) (text : Option Bytes) :
    Batched { s.advanced with
      subscriptionString := text, written := s.written ++ [tickerTopic s.nextBatch] } := by
  have hcounter := hs.counter
  constructor
  · change s.tokenCounter + min 100 (s.fInstruments.length - s.tokenCounter) ≤
      s.fInstruments.length
    omega
  · obtain ⟨blocks, hwritten, hlen, hflatten⟩ := hs.blocks
    refine ⟨blocks ++ [s.nextBatch], ?_, ?_, ?_⟩
    · rw [hwritten, List.map_append]
      rfl
    · intro b hb
      rcases List.mem_append.mp hb with hb | hb
      · exact hlen b hb
      · rw [List.mem_singleton.mp hb]
        exact List.length_take_le _ _
    · change _ = (s.fInstruments.map InstrumentType.name).take
        (s.tokenCounter + min 100 (s.fInstruments.length - s.tokenCounter))
      rw [List.flatten_append, List.flatten_singleton, hflatten, nextBatch, ← List.take_add,
        List.take_eq_take_iff, List.length_map]
      omega
  · intro hsubscribed
    change s.tokenCounter + min 100 (s.fInstruments.length - s.tokenCounter) =
      s.fInstruments.length
    rcases Bool.or_eq_true_iff.mp hsubscribed with h | h
    · have hwhole := hs.whole h
      omega
    · exact beq_iff_eq.mp h

/-! ### The names of the contracts -/

/-- What a loop pushed, it read from one of the items. -/
private theorem mem_readItems {α : Type} {read : Option α → Json → Except Fault (Option α)}
    {last : Option α} {items : List Json} {a : α} (h : a ∈ (readItems read last items).1) :
    ∃ last, ∃ item ∈ items, read last item = .ok (some a) := by
  induction items generalizing last with
  | nil => cases h
  | cons item rest ih =>
    unfold readItems at h
    split at h
    · cases h
    · obtain ⟨last', item', hitem, hread⟩ := ih h
      exact ⟨last', item', List.mem_cons_of_mem _ hitem, hread⟩
    · next b hb =>
      rcases List.mem_cons.mp h with rfl | h
      · exact ⟨last, item, List.mem_cons_self, hb⟩
      · obtain ⟨last', item', hitem, hread⟩ := ih h
        exact ⟨last', item', List.mem_cons_of_mem _ hitem, hread⟩

/-- The name of an instrument is the symbol of its ticker. -/
private theorem name_of_readTicker {tradeType : TradeType} {key : Bytes}
    {otherwise : ℚ → Except StdException ℚ} {last : Option InstrumentType} {item : Json}
    {inst : InstrumentType}
    (h : readTicker stod tradeType key otherwise last item = .ok (some inst)) :
    ∃ o, item = .object o ∧ Json.Object.find o (bytes "symbol") = some (.string inst.name) := by
  unfold readTicker at h
  split at h
  · cases h
  · next o ho =>
    have hitem : item = .object o := by
      cases item with
      | object members => rw [Except.ok.inj ho]
      | _ => cases ho
    refine ⟨o, hitem, ?_⟩
    split at h
    · cases h
    · cases h
    · next price _ _ =>
      dsimp only at h
      cases hprice : readPrice stod (otherwise ((last.map InstrumentType.currentPrice).getD 0))
          price with
      | error e =>
        rw [hprice] at h
        cases h
      | ok currentPrice =>
        rw [hprice] at h
        unfold member at h
        cases hsymbol : Json.Object.find o (bytes "symbol") with
        | none =>
          rw [hsymbol] at h
          cases h
        | some value =>
          rw [hsymbol] at h
          cases value with
          | string name =>
            obtain rfl := Option.some.inj (Except.ok.inj h)
            rfl
          | _ => cases h

/-- The data of a response can be written again. -/
private theorem dumps_responseData
    (hparse : ∀ text value, parse text = .ok value → value.dumps = true) {str : Bytes}
    {data : Json} (h : responseData parse str = .ok (some data)) : data.dumps = true := by
  unfold responseData at h
  cases hvalue : parse str with
  | error e =>
    rw [hvalue] at h
    cases h
  | ok value =>
    rw [hvalue] at h
    cases value with
    | object members =>
      have hdata : successData members = some data := Except.ok.inj h
      unfold successData at hdata
      split at hdata
      · split at hdata
        · exact Json.dumps_of_find (hparse str _ hvalue) hdata
        · cases hdata
      · cases hdata
    | _ => cases h

/-- The names read from a response can be written again. -/
theorem isUtf8_readContracts (hparse : ∀ text value, parse text = .ok value → value.dumps = true)
    {str : Bytes} {inst : InstrumentType} (h : inst ∈ (readContracts parse stod str).1) :
    Json.isUtf8 inst.name = true := by
  unfold readContracts at h
  split at h
  · cases h
  · next tickers hdata =>
    have htickers : (Json.array tickers).dumps = true := dumps_responseData hparse hdata
    obtain ⟨last, item, hitem, hread⟩ := mem_readItems h
    obtain ⟨o, rfl, hsymbol⟩ := name_of_readTicker hread
    change Json.dumpsItems tickers = true at htickers
    rw [Json.dumpsItems_eq_all, List.all_eq_true] at htickers
    exact Json.dumps_of_find (htickers _ hitem) hsymbol
  · cases h

/-! ### Every run -/

/-- What a futures stream keeps. -/
private structure Sound (s : KucoinStream) : Prop where
  futures : s.tradeType = .futures
  batched : s.Batched
  names : ∀ inst ∈ s.fInstruments, Json.isUtf8 inst.name = true

private theorem batched_nil (hcounter : s.tokenCounter = 0) (hwritten : s.written = [])
    (hsubscribed : s.tokensSubscribedFor = false) : s.Batched where
  counter := by omega
  blocks := ⟨[], hwritten, nofun, by rw [hcounter]; rfl⟩
  whole h := by
    rw [hsubscribed] at h
    cases h

private theorem sendTickerSubscription_eq (hs : s.Sound) (htext : s.subscriptionString = none) :
    s.sendTickerSubscription =
      some ({ s.advanced with
          subscriptionString := some (tickerTopic s.nextBatch)
          written := s.written ++ [tickerTopic s.nextBatch] },
        [], [.write (tickerTopic s.nextBatch)]) := by
  have htopic : Json.isUtf8 (tickerTopic s.nextBatch) = true := by
    apply Json.isUtf8_append (by decide)
    apply Json.isUtf8_intersperse (by decide)
    intro name hname
    obtain ⟨inst, hinst, rfl⟩ :=
      List.mem_map.mp (List.mem_of_mem_drop (List.mem_of_mem_take hname))
    exact hs.names inst hinst
  unfold sendTickerSubscription
  rw [htext]
  dsimp only
  rw [getSubscriptionJson_eq hs.futures hs.batched.counter]
  dsimp only
  rw [if_pos htopic]
  rfl

private theorem sound_reportErrorAndRetry (hfutures : s.tradeType = .futures)
    (hnames : ∀ inst ∈ s.fInstruments, Json.isUtf8 inst.name = true)
    (htext : s.subscriptionString = none) :
    s.reportErrorAndRetry.1.Sound ∧ s.reportErrorAndRetry.2.2.length ≤ 1 ∧
      ∀ o ∈ s.reportErrorAndRetry.2.2, s.reportErrorAndRetry.1.Beside o := by
  unfold reportErrorAndRetry
  rw [resetCounter_of_futures hfutures]
  refine ⟨⟨hfutures, batched_nil rfl rfl rfl, hnames⟩, Nat.le_refl 1, ?_⟩
  intro o _
  exact ⟨fun _ ↦ ⟨rfl, rfl, rfl⟩, fun _ ↦ htext⟩

/-- What every handler keeps of a futures stream, and what holds beside the operation it
starts. -/
private theorem sound_outcome
    (hparse : ∀ text value, parse text = .ok value → value.dumps = true) {empty : Bool} {op : Op}
    {r : Result} (hs : s.Sound) (hop : s.Beside op) (h : Outcome parse stod s empty op r) :
    r.1.Sound ∧ r.2.2.length ≤ 1 ∧ ∀ o ∈ r.2.2, r.1.Beside o := by
  cases h with
  | kept hwrite hlen hstarted =>
    refine ⟨⟨hs.futures, ⟨hs.batched.1, hs.batched.2, hs.batched.3⟩, hs.names⟩, hlen, ?_⟩
    intro o ho
    obtain ⟨-, hopening⟩ := hstarted o ho
    exact ⟨fun h ↦ hop.opening (hopening ▸ h), fun _ ↦ hop.text hwrite⟩
  | initiated hinit =>
    have hopening : op.isOpening = true := by
      rcases hinit with rfl | rfl <;> rfl
    have hwrite : op.isWrite = false := by
      rcases hinit with rfl | rfl <;> rfl
    obtain ⟨hcounter, hsubscribed, hwritten⟩ := hop.opening hopening
    cases empty with
    | true =>
      refine ⟨⟨hs.futures, batched_nil hcounter hwritten rfl, hs.names⟩, Nat.le_refl 1, ?_⟩
      intro o _
      exact ⟨fun _ ↦ ⟨hcounter, rfl, hwritten⟩, fun _ ↦ hop.text hwrite⟩
    | false =>
      refine ⟨⟨hs.futures, batched_nil hcounter hwritten hsubscribed, hs.names⟩,
        Nat.le_refl 1, ?_⟩
      intro o _
      exact ⟨fun _ ↦ ⟨hcounter, hsubscribed, hwritten⟩, fun _ ↦ hop.text hwrite⟩
  | received str hcontracts hlen hstarted =>
    obtain ⟨hcounter, hsubscribed, hwritten⟩ := hop.opening rfl
    refine ⟨⟨hs.futures, batched_nil hcounter hwritten hsubscribed, ?_⟩, hlen, ?_⟩
    · rw [hcontracts hs.futures]
      exact fun inst hinst ↦ isUtf8_readContracts hparse hinst
    · intro o _
      exact ⟨fun _ ↦ ⟨hcounter, hsubscribed, hwritten⟩, fun _ ↦ hop.text rfl⟩
  | retried hwrite =>
    exact sound_reportErrorAndRetry hs.futures hs.names (hop.text hwrite)
  | written success =>
    cases success with
    | true =>
      refine ⟨⟨hs.futures, ⟨hs.batched.1, hs.batched.2, hs.batched.3⟩, hs.names⟩,
        Nat.le_refl 1, ?_⟩
      intro o ho
      rw [List.mem_singleton.mp ho]
      exact ⟨nofun, fun _ ↦ rfl⟩
    | false =>
      exact sound_reportErrorAndRetry (s := { s with subscriptionString := none }) hs.futures
        hs.names rfl
  | sent hsubscribed hr appends =>
    rw [sendTickerSubscription_eq hs (hop.text rfl)] at hr
    obtain rfl := Option.some.inj hr
    refine ⟨⟨hs.futures, batched_advanced hs.batched _, hs.names⟩, Nat.le_refl 1, ?_⟩
    intro o ho
    rw [List.mem_singleton.mp ho]
    exact ⟨nofun, nofun⟩

/-- The chain of a futures stream, in every state it reaches. -/
private theorem chain_run (hparse : ∀ text value, parse text = .ok value → value.dumps = true)
    {moves : List (Move Op Completion InstrumentType)} {p : Process KucoinStream Op InstrumentType}
    (hrun : Transition.run (move (complete parse stod)) (start .futures) moves = some p) :
    Chain Sound Beside p := by
  refine Transition.inv_run ?_ ?_ hrun
  · intro p m p' hp hm
    refine chain_move (Θ := fun _ _ ↦ True) ?_ hp True.intro hm
    intro s empty op result s' actions started _ hs hop h
    exact sound_outcome hparse hs hop (complete_cases h)
  · exact chain_start ⟨rfl, batched_nil rfl rfl rfl, nofun⟩ ⟨fun _ ↦ ⟨rfl, rfl, rfl⟩, fun _ ↦ rfl⟩

/-- A futures stream that has been connected can subscribe. -/
theorem sendTickerSubscription_run
    (hparse : ∀ text value, parse text = .ok value → value.dumps = true)
    {moves : List (Move Op Completion InstrumentType)} {p : Process KucoinStream Op InstrumentType}
    (hrun : Transition.run (move (complete parse stod)) (start .futures) moves = some p)
    (hread : .op .read ∈ p.tasks) :
    ∃ s topic, p.object.sendTickerSubscription = some (s, [], [.write topic]) := by
  have hp := chain_run hparse hrun
  have htext := (hp.op _ hread .read (List.mem_singleton.mpr rfl)).text rfl
  exact ⟨_, _, sendTickerSubscription_eq hp.object htext⟩

/-- In every state a futures stream reaches, whatever the sink holds at any time, its
subscriptions are batched and the next one is defined. -/
theorem batched_run (parse : JsonParse) (stod : Bytes → Except StdException ℚ)
    (hparse : ∀ text value, parse text = .ok value → value.dumps = true)
    (moves : List (Move Op Completion InstrumentType))
    (p : Process KucoinStream Op InstrumentType)
    (hrun : Transition.run (move (complete parse stod)) (start .futures) moves = some p) :
    p.object.Batched ∧ p.object.getSubscriptionJson.isSome = true := by
  have hs := (chain_run hparse hrun).object
  refine ⟨hs.batched, ?_⟩
  rw [getSubscriptionJson_eq hs.futures hs.batched.counter]
  rfl

/-- More contracts than one subscription names. -/
private def manyContracts : List InstrumentType :=
  (List.range 101).map fun n ↦
    { name := bytes "XBTM" ++ [48 + (n / 100).toUInt8, 48 + (n / 10 % 10).toUInt8,
        48 + (n % 10).toUInt8], currentPrice := 30000, tradeType := .futures }

/-- `json::parse` on the texts of an exchange with these contracts. -/
private def manyParse : JsonParse := fun text ↦
  if text = bytes "contracts" then
    .ok (sampleResponse (.array (manyContracts.map fun contract ↦
      .object [(bytes "lastTradePrice", .numberUnsigned 30000),
        (bytes "symbol", .string contract.name)])))
  else sampleParse text

private theorem dumps_manyParse (text : Bytes) (value : Json) (h : manyParse text = .ok value) :
    value.dumps = true := by
  unfold manyParse at h
  split at h
  · rw [← Except.ok.inj h]
    decide +kernel
  · exact dumps_sampleParse text value h

/-- The moves of the handler that appends the contracts. -/
private def appendMoves : List InstrumentType → List (Move Op Completion InstrumentType)
  | [] => []
  | contract :: rest =>
    .act (.append contract) (rest.map .append) [.rest .token .resolve] :: appendMoves rest

/-- The topic of the first subscription. -/
private def firstTopic : Bytes := tickerTopic ((manyContracts.map InstrumentType.name).take 100)

/-- The moves of a stream up to its second subscription. -/
private def manyMoves : List (Move Op Completion InstrumentType) :=
  .complete .run (.success []) true :: requestMoves .instruments "contracts" true ++
    appendMoves manyContracts ++ connectMoves false ++
    [welcome false, .complete (.write firstTopic) (.success []) false, welcome false]

/-- The first message is answered by a subscription to a hundred contracts, the second by one to
the last contract. -/
theorem batched_sample :
    let p := (Transition.run (move (complete manyParse fun _ ↦ .error .invalidArgument))
      (start .futures) manyMoves).get (by decide +kernel)
    (p.object.Batched ∧ p.object.getSubscriptionJson.isSome = true) ∧
      p.object.written = [firstTopic, bytes "/contractMarket/tickerV2:XBTM100"] ∧
        p.object.tokensSubscribedFor = true :=
  ⟨batched_run manyParse (fun _ ↦ .error .invalidArgument) dumps_manyParse _ _
    (Option.some_get _).symm, by decide +kernel, by decide +kernel⟩

end KeepMyJournal.PriceMonitor.Kucoin.KucoinStream
