import KeepMyJournal.Base.Emitting
import KeepMyJournal.PriceMonitor.BinanceConnection
import KeepMyJournal.PriceMonitor.InstrumentSink

/-!
# What the price streams feed into the sink

Every instrument that a stream appends to the sink of its exchange comes from a response or a
message that it has received, over whole runs of all streams of the exchange.
-/

namespace KeepMyJournal.PriceMonitor

open KeepMyJournal.Base KeepMyJournal.Base.Shared KeepMyJournal.Common
open KeepMyJournal.AccountMonitor (Completion)
open KeepMyJournal.AccountMonitor.Okex (text)

/-- A ticker of Binance or OKX, by the members that it is read from. -/
def tickerItem (stod : Bytes → Except StdException ℚ) (nameKey priceKey openKey : String)
    (tradeType : TradeType) (dataJson : Json) : Except StdException InstrumentType := do
  let dataObject ← dataJson.getObject
  let name ← text dataObject nameKey
  let currentPrice ← text dataObject priceKey >>= stod
  let open24h ← text dataObject openKey >>= stod
  pure { name, currentPrice, open24h, tradeType }

/-! ### Binance -/

namespace Binance

/-- The instruments that a response lists, still without a price. -/
def responseItems (parse : JsonParse) (tradeType : TradeType) (data : Bytes) :
    List (Except StdException InstrumentType) :=
  behind (parse data >>= Json.getArray) fun dataList ↦ dataList.map fun dataJson ↦ do
    let dataObject ← dataJson.getObject
    let name ← text dataObject "symbol"
    pure { name, tradeType }

/-- The tickers of a message. -/
def messageItems (parse : JsonParse) (stod : Bytes → Except StdException ℚ) (tradeType : TradeType)
    (buffer : Bytes) : List (Except StdException InstrumentType) :=
  behind (parse buffer >>= Json.getArray) fun dataList ↦
    dataList.map (tickerItem stod "s" "c" "o" tradeType)

/-- What a completed operation yields. -/
def yields (parse : JsonParse) (stod : Bytes → Except StdException ℚ) (tradeType : TradeType) :
    StreamOp → Okex.Delivery → List InstrumentType
  | .rest .read, .completed (.success data) => firstOks (responseItems parse tradeType data)
  | .read, .completed (.success buffer) => firstOks (messageItems parse stod tradeType buffer)
  | _, _ => []

variable {parse : JsonParse} {stod : Bytes → Except StdException ℚ}

/-- `m_tradedInstruments.append` on what has been appended. -/
abbrev addInstrument (appended : List InstrumentType) (data : InstrumentType) :
    List InstrumentType := appended ++ [data]

private theorem emits_append (data : InstrumentType) :
    Emits addInstrument (append data) [.ok data] := emits_modify data

private theorem emits_processInstruments (parse : JsonParse) (s : BinanceStream) (data : Bytes) :
    Emits addInstrument (s.processInstruments parse data)
      (responseItems parse s.tradeType data) := by
  unfold BinanceStream.processInstruments responseItems
  rw [behind_bind]
  refine .lift_bind fun json ↦ .lift_bind fun dataList ↦ ?_
  refine emits_forM_map (fun dataJson ↦ ?_) dataList
  simp only [← behind_singleton]
  exact .lift_bind fun dataObject ↦ .lift_bind fun name ↦ emits_append _

private theorem emits_processMessage (parse : JsonParse) (stod : Bytes → Except StdException ℚ)
    (s : BinanceStream) (buffer : Bytes) :
    Emits addInstrument (s.processMessage parse stod buffer)
      (messageItems parse stod s.tradeType buffer) := by
  unfold BinanceStream.processMessage messageItems
  rw [behind_bind]
  refine .lift_bind fun json ↦ .lift_bind fun dataList ↦ ?_
  refine emits_forM_map (fun dataJson ↦ ?_) dataList
  simp only [tickerItem, ← behind_singleton, behind_bind]
  exact .lift_bind fun dataObject ↦ .lift_bind fun name ↦ .lift_bind fun c ↦
    .lift_bind fun currentPrice ↦ .lift_bind fun o ↦ .lift_bind fun open24h ↦ emits_append _

private theorem restApiOnDataReceived_eq (parse : JsonParse) (s : BinanceStream) (data : Bytes) :
    ∃ started, s.restApiOnDataReceived parse data =
      (s, (firstOks (responseItems parse s.tradeType data)).map .append, started) := by
  have hrun := emits_processInstruments parse s data []
  rw [foldl_concat, List.nil_append] at hrun
  unfold BinanceStream.restApiOnDataReceived
  rw [hrun]
  cases firstError (responseItems parse s.tradeType data) with
  | ok _ => exact ⟨_, rfl⟩
  | error e => exact ⟨_, rfl⟩

private theorem interpretMessage_eq (s : BinanceStream) (buffer : Bytes) :
    s.interpretMessage parse stod buffer =
      (s, (firstOks (messageItems parse stod s.tradeType buffer)).map .append, [.read]) := by
  have hrun := (emits_processMessage parse stod s buffer).tryCatch []
  rw [foldl_concat, List.nil_append] at hrun
  unfold BinanceStream.interpretMessage BinanceStream.interpretGenericMessages
  dsimp only
  rw [hrun]
  rfl

/-- A handler appends what its operation yields, does nothing else to the sink, and leaves the
stream as it is. -/
private theorem complete_yields {s s' : BinanceStream} {empty : Bool} {op : StreamOp}
    {delivery : Okex.Delivery} {actions : List (Action InstrumentType)} {started : List StreamOp}
    (h : s.complete parse stod empty op delivery = some (s', actions, started)) :
    s' = s ∧ actions = (yields parse stod s.tradeType op delivery).map .append := by
  cases delivery with
  | closeFrame =>
    cases op with
    | read =>
      obtain ⟨rfl, rfl, -⟩ := Option.some.inj h
      exact ⟨rfl, rfl⟩
    | _ => cases h
  | completed result =>
    cases op with
    | rest op =>
      cases result with
      | success data =>
        cases op with
        | read =>
          obtain ⟨started, heq⟩ := restApiOnDataReceived_eq parse s data
          obtain ⟨rfl, rfl, -⟩ := heq.symm.trans (Option.some.inj h)
          exact ⟨rfl, rfl⟩
        | _ =>
          obtain ⟨rfl, rfl, -⟩ := Option.some.inj h
          exact ⟨rfl, rfl⟩
      | _ =>
        cases op <;>
        · obtain ⟨rfl, rfl, -⟩ := Option.some.inj h
          exact ⟨rfl, rfl⟩
    | read =>
      cases result with
      | success buffer =>
        obtain ⟨rfl, rfl, -⟩ := (interpretMessage_eq s buffer).symm.trans (Option.some.inj h)
        exact ⟨rfl, rfl⟩
      | _ =>
        obtain ⟨rfl, rfl, -⟩ := Option.some.inj h
        exact ⟨rfl, rfl⟩
    | _ =>
      cases result <;>
      · obtain ⟨rfl, rfl, -⟩ := Option.some.inj h
        exact ⟨rfl, rfl⟩

end Binance

/-! ### OKX -/

namespace Okex

/-- What a message pushes: identifiers of instruments, or tickers. -/
def messageItems (parse : JsonParse) (stod : Bytes → Except StdException ℚ) (tradeType : TradeType)
    (buffer : Bytes) : List (Except StdException (Bytes ⊕ InstrumentType)) :=
  behind (parse buffer >>= Json.getObject) fun root ↦
    match root.find (bytes "event"), root.find (bytes "data"), root.find (bytes "arg") with
    | some _, _, _ =>
      if (root.find (bytes "code")).isSome then behind (text root "msg") fun _ ↦ [] else []
    | none, some data, some arg =>
      behind (arg.getObject >>= fun argObject ↦ text argObject "channel") fun channel ↦
        if channel = bytes "instruments" then
          behind data.getArray fun dataList ↦ dataList.map fun dataJson ↦ do
            let dataObject ← dataJson.getObject
            let instId ← text dataObject "instId"
            pure (.inl instId)
        else if channel = bytes "tickers" then
          behind data.getArray fun dataList ↦ dataList.map fun dataJson ↦ do
            let data ← tickerItem stod "instId" "last" "sodUtc8" tradeType dataJson
            pure (.inr data)
        else []
    | none, _, _ => []

/-- What a completed operation yields. -/
def yields (parse : JsonParse) (stod : Bytes → Except StdException ℚ) (tradeType : TradeType) :
    Op → Delivery → List InstrumentType
  | .firstRead, .completed (.success buffer) | .read, .completed (.success buffer) =>
    (firstOks (messageItems parse stod tradeType buffer)).filterMap Sum.getRight?
  | _, _ => []

variable {parse : JsonParse} {stod : Bytes → Except StdException ℚ}

/-- `m_instruments.insert` and `m_tradedInstruments.append`. -/
def push (pushed : Pushed) : Bytes ⊕ InstrumentType → Pushed
  | .inl instId => { pushed with instruments := pushed.instruments.insert instId }
  | .inr data => { pushed with appended := pushed.appended ++ [data] }

/-- `m_instruments` after names have been inserted. -/
def insertAll (instruments : Std.ExtTreeSet Bytes) (names : List Bytes) : Std.ExtTreeSet Bytes :=
  names.foldl (fun set name ↦ set.insert name) instruments

private theorem foldl_push (items : List (Bytes ⊕ InstrumentType)) (pushed : Pushed) :
    items.foldl push pushed =
      { instruments := insertAll pushed.instruments (items.filterMap Sum.getLeft?)
        appended := pushed.appended ++ items.filterMap Sum.getRight? } := by
  induction items generalizing pushed with
  | nil =>
    rw [List.filterMap_nil, List.filterMap_nil, List.append_nil]
    rfl
  | cons item items ih =>
    rw [List.foldl_cons, ih]
    cases item with
    | inl instId => rfl
    | inr data =>
      have happended : (pushed.appended ++ [data]) ++ items.filterMap Sum.getRight? =
          pushed.appended ++ data :: items.filterMap Sum.getRight? := List.append_assoc _ _ _
      exact congrArg (Pushed.mk _) happended

private theorem emits_insert (instId : Bytes) : Emits push (insert instId) [.ok (.inl instId)] :=
  fun _ ↦ rfl

private theorem emits_append (data : InstrumentType) :
    Emits push (append data) [.ok (.inr data)] := fun _ ↦ rfl

private theorem emits_processMessage (parse : JsonParse) (stod : Bytes → Except StdException ℚ)
    (s : OkexStream) (buffer : Bytes) :
    Emits push (s.processMessage parse stod buffer)
      (messageItems parse stod s.tradeType buffer) := by
  unfold OkexStream.processMessage messageItems
  rw [behind_bind]
  refine .lift_bind fun json ↦ .lift_bind fun root ↦ ?_
  cases root.find (bytes "event") with
  | some event =>
    cases root.find (bytes "code") with
    | none => exact emits_pure
    | some code => exact .lift_bind fun _ ↦ emits_pure
  | none =>
    cases root.find (bytes "data") with
    | none => exact emits_pure
    | some data =>
      cases root.find (bytes "arg") with
      | none => exact emits_pure
      | some arg =>
        dsimp only
        rw [behind_bind]
        refine .lift_bind fun argObject ↦ .lift_bind fun channel ↦ ?_
        split
        · refine .lift_bind fun dataList ↦ emits_forM_map (fun dataJson ↦ ?_) dataList
          simp only [← behind_singleton]
          exact .lift_bind fun dataObject ↦ .lift_bind fun instId ↦ emits_insert instId
        · split
          · refine .lift_bind fun dataList ↦ emits_forM_map (fun dataJson ↦ ?_) dataList
            simp only [tickerItem, ← behind_singleton, behind_bind]
            exact .lift_bind fun dataObject ↦ .lift_bind fun name ↦ .lift_bind fun last ↦
              .lift_bind fun currentPrice ↦ .lift_bind fun sodUtc8 ↦ .lift_bind fun open24h ↦
                emits_append _
          · exact emits_pure

/-- The names of instruments that a message pushes. -/
def messageNames (parse : JsonParse) (stod : Bytes → Except StdException ℚ) (tradeType : TradeType)
    (buffer : Bytes) : List Bytes :=
  (firstOks (messageItems parse stod tradeType buffer)).filterMap Sum.getLeft?

/-- The handler of a message inserts the names and appends the tickers that it pushes. -/
theorem interpretGenericMessages_eq (parse : JsonParse) (stod : Bytes → Except StdException ℚ)
    (s : OkexStream) (buffer : Bytes) :
    s.interpretGenericMessages parse stod buffer =
      ({ s with instruments :=
          insertAll s.instruments (messageNames parse stod s.tradeType buffer) },
        ((firstOks (messageItems parse stod s.tradeType buffer)).filterMap
          Sum.getRight?).map .append, [.read]) := by
  have hrun := (emits_processMessage parse stod s buffer).tryCatch
    { instruments := s.instruments }
  unfold OkexStream.interpretGenericMessages
  dsimp only
  rw [hrun]
  dsimp only
  rw [foldl_push]
  rfl

/-- A handler that reads no message appends nothing. -/
private theorem restApiOnDataReceived_appends (parse : JsonParse) (s : OkexStream) (data : Bytes) :
    (s.restApiOnDataReceived parse data).1.tradeType = s.tradeType ∧
      appends (s.restApiOnDataReceived parse data).2.1 = [] := by
  unfold OkexStream.restApiOnDataReceived
  split
  · exact ⟨rfl, rfl⟩
  · exact ⟨rfl, rfl⟩

private theorem tickerSubscribe_appends (s : OkexStream) :
    s.tickerSubscribe.1.tradeType = s.tradeType ∧ appends s.tickerSubscribe.2.1 = [] := by
  unfold OkexStream.tickerSubscribe
  dsimp only
  split
  · exact ⟨rfl, rfl⟩
  · exact ⟨rfl, rfl⟩

/-- A handler appends what its operation yields, and keeps the trade type. -/
private theorem complete_yields {s s' : OkexStream} {empty : Bool} {op : Op} {delivery : Delivery}
    {actions : List (Action InstrumentType)} {started : List Op}
    (h : s.complete parse stod empty op delivery = some (s', actions, started)) :
    s'.tradeType = s.tradeType ∧ appends actions = yields parse stod s.tradeType op delivery := by
  cases delivery with
  | closeFrame =>
    cases op with
    | read | firstRead =>
      obtain ⟨rfl, rfl, -⟩ := Option.some.inj h
      exact ⟨rfl, rfl⟩
    | _ => cases h
  | completed result =>
    cases op with
    | rest op =>
      cases result with
      | success data =>
        cases op with
        | read =>
          have hr := restApiOnDataReceived_appends parse s data
          rw [show s.restApiOnDataReceived parse data = _ from Option.some.inj h] at hr
          exact hr
        | _ =>
          obtain ⟨rfl, rfl, -⟩ := Option.some.inj h
          exact ⟨rfl, rfl⟩
      | _ =>
        cases op <;>
        · obtain ⟨rfl, rfl, -⟩ := Option.some.inj h
          exact ⟨rfl, rfl⟩
    | read | firstRead =>
      cases result with
      | success buffer =>
        have heq := interpretGenericMessages_eq parse stod s buffer
        obtain ⟨rfl, rfl, -⟩ := heq.symm.trans (Option.some.inj h)
        exact ⟨rfl, appends_map_append _⟩
      | _ =>
        obtain ⟨rfl, rfl, -⟩ := Option.some.inj h
        exact ⟨rfl, rfl⟩
    | wsHandshake =>
      cases result with
      | success data =>
        have hr := tickerSubscribe_appends s
        rw [show s.tickerSubscribe = _ from Option.some.inj h] at hr
        exact hr
      | _ =>
        obtain ⟨rfl, rfl, -⟩ := Option.some.inj h
        exact ⟨rfl, rfl⟩
    | _ =>
      cases result <;>
      · obtain ⟨rfl, rfl, -⟩ := Option.some.inj h
        exact ⟨rfl, rfl⟩

end Okex

/-! ### KuCoin -/

namespace Kucoin

/-- What a response lists, up to what interrupts its reading. -/
def responseInstruments (parse : JsonParse) (stod : Bytes → Except StdException ℚ)
    (tradeType : TradeType) (data : Bytes) : List InstrumentType :=
  if tradeType = .futures then (readContracts parse stod data).1
  else (readAllTickers parse stod data).1

/-- The instrument of a message, if it has one with a name. -/
def messageInstrument (parse : JsonParse) (stod : Bytes → Except StdException ℚ)
    (tradeType : TradeType) (buffer : Bytes) : List InstrumentType :=
  match getInstrumentFromJson parse stod buffer tradeType with
  | .ok inst => if inst.name.isEmpty then [] else [inst]
  | .error _ => []

/-- What a completed operation yields. -/
def yields (parse : JsonParse) (stod : Bytes → Except StdException ℚ) (tradeType : TradeType) :
    Op → Completion → List InstrumentType
  | .rest .instruments .read, .success data => responseInstruments parse stod tradeType data
  | .read, .success buffer => messageInstrument parse stod tradeType buffer
  | _, _ => []

variable {parse : JsonParse} {stod : Bytes → Except StdException ℚ}

private theorem sendTickerSubscription_appends {s : KucoinStream} {r : Result}
    (h : s.sendTickerSubscription = some r) : appends r.2.1 = [] := by
  unfold KucoinStream.sendTickerSubscription at h
  split at h
  · obtain rfl := Option.some.inj h
    rfl
  · split at h
    · cases h
    · split at h
      · obtain rfl := Option.some.inj h
        rfl
      · obtain rfl := Option.some.inj h
        rfl

private theorem onInstrumentsReceived_appends {s : KucoinStream} {data : Bytes} {r : Result}
    (h : s.onInstrumentsReceived parse stod data = some r) :
    appends r.2.1 = responseInstruments parse stod s.tradeType data := by
  unfold KucoinStream.onInstrumentsReceived at h
  unfold responseInstruments
  dsimp only at h
  split at h
  · next hfutures =>
    rw [if_pos hfutures]
    split at h
    · cases h
    · next hread =>
      obtain rfl := Option.some.inj h
      rw [hread]
      exact appends_map_append _
  · next hspot =>
    rw [if_neg hspot]
    split at h
    · cases h
    · next hread =>
      obtain rfl := Option.some.inj h
      rw [hread, appends_append, appends_map_append]
      exact List.append_nil _
    · next hread =>
      obtain rfl := Option.some.inj h
      rw [hread]
      exact appends_map_append _

private theorem interpretGenericMessages_appends {s : KucoinStream} {buffer : Bytes} {r : Result}
    (h : s.interpretGenericMessages parse stod buffer = some r) :
    appends r.2.1 = messageInstrument parse stod s.tradeType buffer := by
  unfold KucoinStream.interpretGenericMessages at h
  unfold messageInstrument
  split at h
  · next hread =>
    obtain rfl := Option.some.inj h
    rw [hread]
    rfl
  · next inst hread =>
    obtain ⟨sent, hsent, rfl⟩ := Option.map_eq_some_iff.mp h
    have hnone : appends sent.2.1 = [] := by
      split at hsent
      · exact sendTickerSubscription_appends hsent
      · obtain rfl := Option.some.inj hsent
        rfl
    rw [hread, appends_append, hnone, List.append_nil]
    dsimp only
    split
    · rfl
    · rfl

private theorem initiateWebsocketConnection_appends (s : KucoinStream) :
    appends s.initiateWebsocketConnection.2.1 = [] := by
  unfold KucoinStream.initiateWebsocketConnection
  dsimp only
  split
  · rfl
  · split
    · rfl
    · rfl

private theorem onTokenObtained_appends {s : KucoinStream} {empty : Bool} {data : Bytes}
    {r : Result}
    (h : s.complete parse stod empty (.rest .token .read) (.success data) = some r) :
    appends r.2.1 = [] := by
  have h : s.onSuccess parse stod .token data = some r := h
  unfold KucoinStream.onSuccess at h
  dsimp only at h
  split at h
  · cases h
  · obtain rfl := Option.some.inj h
    exact initiateWebsocketConnection_appends _

private theorem tradeType_complete {s : KucoinStream} {empty : Bool} {op : Op}
    {result : Completion} {r : Result}
    (h : s.complete parse stod empty op result = some r) : r.1.tradeType = s.tradeType := by
  cases KucoinStream.complete_cases h with
  | kept _ _ _ => rfl
  | initiated _ => cases empty <;> rfl
  | received _ _ _ _ => rfl
  | retried _ => exact KucoinStream.tradeType_resetCounter s
  | written success =>
    cases success with
    | true => rfl
    | false => exact KucoinStream.tradeType_resetCounter _
  | sent _ hr _ => exact (KucoinStream.sendTickerSubscription_spec hr).1.1

/-- A handler appends what its operation yields, and keeps the trade type. -/
private theorem complete_yields {s s' : KucoinStream} {empty : Bool} {op : Op}
    {result : Completion} {actions : List (Action InstrumentType)} {started : List Op}
    (h : s.complete parse stod empty op result = some (s', actions, started)) :
    s'.tradeType = s.tradeType ∧ appends actions = yields parse stod s.tradeType op result := by
  refine ⟨tradeType_complete h, ?_⟩
  cases op with
  | run | retry =>
    cases empty <;>
    · obtain ⟨rfl, rfl, -⟩ := Option.some.inj h
      rfl
  | rest request op =>
    cases result with
    | success data =>
      cases op with
      | read =>
        cases request with
        | instruments => exact onInstrumentsReceived_appends h
        | token => exact onTokenObtained_appends h
      | _ =>
        obtain ⟨rfl, rfl, -⟩ := Option.some.inj h
        cases request <;> rfl
    | _ =>
      cases op <;>
      · obtain ⟨rfl, rfl, -⟩ := Option.some.inj h
        cases request <;> rfl
  | read =>
    cases result with
    | success buffer => exact interpretGenericMessages_appends h
    | _ =>
      obtain ⟨rfl, rfl, -⟩ := Option.some.inj h
      rfl
  | _ =>
    cases result <;>
    · obtain ⟨rfl, rfl, -⟩ := Option.some.inj h
      rfl

end Kucoin

/-! ### The exchanges -/

/-- The streams of `binance_price_watcher`. -/
inductive BinanceWatcher where
  | spot | futures
  deriving DecidableEq, Repr

/-- The trade type of each stream. -/
def BinanceWatcher.tradeType : BinanceWatcher → TradeType
  | spot => .spot
  | futures => .futures

/-- The streams of Binance before their first steps, with the empty sink. -/
def binancePriceWatcher : System BinanceWatcher Binance.BinanceStream Binance.StreamOp
    InstrumentType :=
  { process := fun i ↦ Binance.start i.tradeType }

/-- For each exchange, in every run of its streams with the sender: what has been appended to the
sink, and what a handler has still to append, are the instruments of the responses and messages
that the streams have received, of each up to the first element that cannot be read, under the
trade type of the stream. Nothing else is appended, and nothing twice. -/
theorem fed_of_run (parse : JsonParse) (stod : Bytes → Except StdException ℚ) :
    (∀ es s, Transition.run (step (Binance.BinanceStream.complete parse stod)) binancePriceWatcher
        es = some s →
      (s.fed [.spot, .futures]).Perm (es.flatMap (Event.received fun i ↦
        Binance.yields parse stod i.tradeType))) ∧
    (∀ es s, Transition.run (step (Okex.OkexStream.complete parse stod)) okexchangePriceWatcher
        es = some s →
      (s.fed [.spotStream, .swapStream, .futuresStream]).Perm (es.flatMap (Event.received fun i ↦
        Okex.yields parse stod i.tradeType))) ∧
    ∀ es s, Transition.run (step (Kucoin.KucoinStream.complete parse stod)) kucoinPriceWatcher
        es = some s →
      (s.fed [.spotWatcher, .futuresWatcher]).Perm (es.flatMap (Event.received fun i ↦
        Kucoin.yields parse stod i.tradeType)) := by
  refine ⟨?_, ?_, ?_⟩
  · intro es s hrun
    refine fed_run (I := fun i s ↦ s.tradeType = i.tradeType) ?_ (by decide) ?_ (fun _ ↦ rfl) hrun
    · intro i s empty op result s' actions started hs h
      obtain ⟨rfl, rfl⟩ := Binance.complete_yields h
      rw [← hs]
      exact ⟨rfl, appends_map_append _⟩
    · intro i
      cases i <;> decide
  · intro es s hrun
    refine fed_run (I := fun i s ↦ s.tradeType = i.tradeType) ?_ (by decide) ?_ (fun _ ↦ rfl) hrun
    · intro i s empty op result s' actions started hs h
      rw [← hs]
      exact Okex.complete_yields h
    · intro i
      cases i <;> decide
  · intro es s hrun
    refine fed_run (I := fun i s ↦ s.tradeType = i.tradeType) ?_ (by decide) ?_ (fun _ ↦ rfl) hrun
    · intro i s empty op result s' actions started hs h
      rw [← hs]
      exact Kucoin.complete_yields h
    · intro i
      cases i <;> decide

/-- A response that lists one instrument, and a message with two tickers, of which the second has
no price. -/
private def sampleParse : JsonParse := fun text ↦
  if text = bytes "list" then
    .ok (.array [.object [(bytes "symbol", .string (bytes "BTCUSDT"))]])
  else if text = bytes "tickers" then
    .ok (.array [.object [(bytes "s", .string (bytes "BTCUSDT")), (bytes "c", .string (bytes "2")),
        (bytes "o", .string (bytes "1"))],
      .object [(bytes "s", .string (bytes "ETHUSDT"))]])
  else .error .parseError

/-- Every text is the number two. -/
private def sampleStod : Bytes → Except StdException ℚ := fun _ ↦ .ok 2

/-- The instrument that the response lists, and what the message says of it. -/
private def sampleInstruments : List InstrumentType :=
  [{ name := bytes "BTCUSDT", tradeType := .spot },
    { name := bytes "BTCUSDT", currentPrice := 2, open24h := 2, tradeType := .spot }]

/-- The spot stream up to its first message, whose handler has still to append, and the futures
stream, whose request fails. -/
private def binanceRun :
    List (Event BinanceWatcher Binance.StreamOp Okex.Delivery InstrumentType) :=
  .move .futures (.complete .run (.completed (.success [])) true) ::
    .move .spot (.complete .run (.completed (.success [])) true) ::
    [AccountMonitor.RestOp.resolve, .connect, .sslHandshake, .write].map (fun op ↦
      .move .spot (.complete (.rest op) (.completed (.success [])) true)) ++
    [.move .spot (.complete (.rest .read) (.completed (.success (bytes "list"))) true),
      .move .futures (.complete (.rest .resolve) (.completed .failed) true),
      .move .spot (.act (.append { name := bytes "BTCUSDT", tradeType := .spot }) [] [.resolve])] ++
    [Binance.StreamOp.resolve, .connect, .sslHandshake, .wsHandshake].map (fun op ↦
      .move .spot (.complete op (.completed (.success [])) false)) ++
    [.take, .move .spot (.complete .read (.completed (.success (bytes "tickers"))) true)]

/-- The swap stream, which has been called. -/
private def okexRun : List (Event OkexWatcher Okex.Op Okex.Delivery InstrumentType) :=
  [.move .swapStream (.complete .run (.completed (.success [])) true)]

/-- Of the message with the broken ticker the one before it counts. -/
theorem fed_of_run_broken :
    ∃ s, Transition.run (step (Binance.BinanceStream.complete sampleParse sampleStod))
        binancePriceWatcher binanceRun = some s ∧ (s.fed [.spot, .futures]).Perm sampleInstruments ∧
      ∃ t, Transition.run (step (Kucoin.KucoinStream.complete Kucoin.sampleParse sampleStod))
          kucoinPriceWatcher (Kucoin.spotMoves.map (.move .spotWatcher)) = some t ∧
        (t.fed [.spotWatcher, .futuresWatcher]).Perm [Kucoin.sampleTicker] ∧
        ∃ u, Transition.run (step (Okex.OkexStream.complete sampleParse sampleStod))
            okexchangePriceWatcher okexRun = some u ∧
          (u.fed [.spotStream, .swapStream, .futuresStream]).Perm [] :=
  have hbinance := (Option.some_get (x := Transition.run
    (step (Binance.BinanceStream.complete sampleParse sampleStod)) binancePriceWatcher binanceRun)
    (by decide +kernel)).symm
  have hkucoin := (Option.some_get (x := Transition.run
    (step (Kucoin.KucoinStream.complete Kucoin.sampleParse sampleStod)) kucoinPriceWatcher
    (Kucoin.spotMoves.map (.move .spotWatcher))) (by decide +kernel)).symm
  ⟨_, hbinance, ((fed_of_run sampleParse sampleStod).1 _ _ hbinance).trans (by decide +kernel),
    _, hkucoin, ((fed_of_run Kucoin.sampleParse sampleStod).2.2 _ _ hkucoin).trans
      (by decide +kernel),
    _, rfl, (fed_of_run sampleParse sampleStod).2.1 okexRun _ rfl⟩

/-- In every run of the streams of Binance with the sender, whatever connections fail, every
instrument appended to the sink is taken or still queued, in its order, and no handler is ever
going to clear the sink or to leave `io_context::run` with an exception. -/
theorem conserved_binance (parse : JsonParse) (stod : Bytes → Except StdException ℚ)
    {es : List (Event BinanceWatcher Binance.StreamOp Okex.Delivery InstrumentType)}
    {s : System BinanceWatcher Binance.BinanceStream Binance.StreamOp InstrumentType}
    (hrun : Transition.run (step (Binance.BinanceStream.complete parse stod)) binancePriceWatcher
      es = some s) : Conserved s ∧ ∀ i, (s.process i).OnlyAppends := by
  refine conserved_run (s := binancePriceWatcher) ?_ rfl ?_ hrun
  · intro s empty op result s' actions started h action haction
    rw [(Binance.complete_yields h).2] at haction
    obtain ⟨data, -, rfl⟩ := List.mem_map.mp haction
    exact ⟨data, rfl⟩
  · intro i
    exact List.forall_mem_singleton.mpr (List.forall_mem_nil _)

/-- With the first instrument taken and the second about to be appended. -/
theorem conserved_binance_broken :
    ∃ s, Transition.run (step (Binance.BinanceStream.complete sampleParse sampleStod))
        binancePriceWatcher binanceRun = some s ∧
      Conserved s ∧ (∀ i, (s.process i).OnlyAppends) ∧ s.taken = sampleInstruments.take 1 :=
  have hrun := (Option.some_get (x := Transition.run
    (step (Binance.BinanceStream.complete sampleParse sampleStod)) binancePriceWatcher binanceRun)
    (by decide +kernel)).symm
  have ⟨hconserved, happends⟩ := conserved_binance sampleParse sampleStod hrun
  ⟨_, hrun, hconserved, happends, by decide +kernel⟩

end KeepMyJournal.PriceMonitor
