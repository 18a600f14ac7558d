import KeepMyJournal.AccountMonitor.KucoinStream
import KeepMyJournal.Base.Shared
import KeepMyJournal.Common.Tasks

/-!
# The KuCoin price streams

`kucoin_price_stream_t` and its spot and futures classes,
`price_monitor/src/kucoin_price_stream.cpp:10–473`, as the handler of a process that shares the
instrument sink of the exchange. `std::stod` is a parameter. An exception that leaves a handler
leaves `io_context::run` and ends the program. The ping timer is left out: none of its handlers
touches what is modelled here.

The watchers of the three exchanges run one `io_context` on their threads, without strands. That the
handlers of one stream run one after the other is an assumption; those of different streams
interleave.
-/

namespace KeepMyJournal.PriceMonitor.Kucoin

open KeepMyJournal.Base KeepMyJournal.Base.Shared KeepMyJournal.Common
open KeepMyJournal.AccountMonitor (Completion RestOp restComplete)
open KeepMyJournal.AccountMonitor.Kucoin (InstanceServerData)
open KeepMyJournal.AccountMonitor.Kucoin.KucoinStream (Fault member)

/-! ### Messages and responses -/

/-- `instrument_type_t{}`. -/
def emptyInstrument : InstrumentType := { name := [], tradeType := .futures }

/-- A price given as text or as a number; what happens to any other value is `otherwise`. -/
def readPrice (stod : Bytes → Except StdException ℚ) (otherwise : Except StdException ℚ) :
    Json → Except StdException ℚ
  | .string s => stod s
  | price => if price.isNumber then price.getNumberFloat else otherwise

/-- The spot branch of `get_instrument_from_json`. -/
def spotInstrument (stod : Bytes → Except StdException ℚ) (jsonObject dataObject : Json.Object)
    (tradeType : TradeType) : Except StdException InstrumentType :=
  match jsonObject.find (bytes "subject") with
  | some (.string name) =>
    match dataObject.find (bytes "price") with
    | none => pure emptyInstrument
    | some price => do
      let currentPrice ← readPrice stod (pure 0) price
      pure { name, currentPrice, tradeType }
  | _ => pure emptyInstrument

/-- The other branch of `get_instrument_from_json`. -/
def futuresInstrument (stod : Bytes → Except StdException ℚ) (dataObject : Json.Object)
    (tradeType : TradeType) : Except StdException InstrumentType :=
  match dataObject.find (bytes "symbol") with
  | some (.string name) =>
    match dataObject.find (bytes "bestBidPrice"), dataObject.find (bytes "bestAskPrice") with
    | some (.string bestBid), some (.string bestAsk) => do
      let bidPrice ← stod bestBid
      let askPrice ← stod bestAsk
      pure { name, currentPrice := (bidPrice + askPrice) / 2, tradeType }
    | _, _ => pure emptyInstrument
  | _ => pure emptyInstrument

/-- `get_instrument_from_json` behind the parser. -/
def readInstrument (stod : Bytes → Except StdException ℚ) (jsonObject : Json.Object)
    (tradeType : TradeType) : Except StdException InstrumentType :=
  match jsonObject.find (bytes "data") with
  | some (.object dataObject) =>
    if tradeType = .spot then spotInstrument stod jsonObject dataObject tradeType
    else futuresInstrument stod dataObject tradeType
  | _ => pure emptyInstrument

/-- `get_instrument_from_json` as a release build runs it. -/
def getInstrumentFromJson (parse : JsonParse) (stod : Bytes → Except StdException ℚ)
    (str : Bytes) (tradeType : TradeType) : Except StdException InstrumentType := do
  let jsonObject ← parse str >>= Json.getObject
  readInstrument stod jsonObject tradeType

/-- The `data` member of an object whose `code` says that the request succeeded. -/
def successData (rootObject : Json.Object) : Option Json :=
  match rootObject.find (bytes "code") with
  | some (.string code) =>
    if code = bytes "200000" then rootObject.find (bytes "data") else none
  | _ => none

/-- The `data` member of a response, up to which the three functions read alike. -/
def responseData (parse : JsonParse) (str : Bytes) : Except StdException (Option Json) := do
  let rootObject ← parse str >>= Json.getObject
  pure (successData rootObject)

/-- The loops over the items of an array that push back what they read of each. What is read
may depend on the last one pushed; a fault ends the loop, and what was pushed before stays. -/
def readItems {α : Type} (read : Option α → Json → Except Fault (Option α)) :
    Option α → List Json → List α × Option Fault
  | _, [] => ([], none)
  | last, item :: rest =>
    match read last item with
    | .error fault => ([], some fault)
    | .ok none => readItems read last rest
    | .ok (some a) =>
      let (items, fault) := readItems read (some a) rest
      (a :: items, fault)

/-- The body of the loops over the tickers: `key` is the member with the price, and `otherwise`
says what happens to a price that is neither null nor text nor number, given the price of the
ticker before. -/
def readTicker (stod : Bytes → Except StdException ℚ) (tradeType : TradeType) (key : Bytes)
    (otherwise : ℚ → Except StdException ℚ) (last : Option InstrumentType) (tickerItem : Json) :
    Except Fault (Option InstrumentType) :=
  match tickerItem.getObject with
  | .error e => .error (.thrown e)
  | .ok tickerObject =>
    match tickerObject.find key with
    | none => .error .undefined
    | some .null => .ok none
    | some price => do
      let before := (last.map InstrumentType.currentPrice).getD 0
      let currentPrice ← (readPrice stod (otherwise before) price).mapError Fault.thrown
      let name ← member tickerObject (bytes "symbol") Json.getString
      pure (some { name, currentPrice, tradeType })

/-- The contracts `kucoin_futures_price_stream_t::on_instruments_received` reads from a
response, with what interrupted it. -/
def readContracts (parse : JsonParse) (stod : Bytes → Except StdException ℚ) (str : Bytes) :
    List InstrumentType × Option Fault :=
  match responseData parse str with
  | .error e => ([], some (.thrown e))
  | .ok (some (.array tickers)) =>
    readItems (readTicker stod .futures (bytes "lastTradePrice") pure) none tickers
  | .ok _ => ([], none)

/-- The instruments `kucoin_spot_price_stream_t::on_instruments_received` reads from a
response, with what interrupted it. -/
def readAllTickers (parse : JsonParse) (stod : Bytes → Except StdException ℚ) (str : Bytes) :
    List InstrumentType × Option Fault :=
  match responseData parse str with
  | .error e => ([], some (.thrown e))
  | .ok (some (.object dataObject)) =>
    match Json.Object.find dataObject (bytes "ticker") with
    | some (.array tickers) =>
      readItems (readTicker stod .spot (bytes "last") fun _ ↦ .error (.runtimeError
        (bytes "Unknown data sent in on_instruments_received"))) none tickers
    | _ => ([], none)
  | .ok _ => ([], none)

/-- A server as the account stream reads it; the price stream reads the ping timeout as well. -/
def readServer (_ : Option InstanceServerData) (instanceJson : Json) :
    Except Fault (Option InstanceServerData) :=
  match instanceJson.getObject with
  | .error e => .error (.thrown e)
  | .ok instanceObject => do
    match ← AccountMonitor.Kucoin.KucoinStream.readServer instanceObject with
    | none => pure none
    | some server =>
      let _ ← member instanceObject (bytes "pingTimeout") Json.getNumberInteger
      pure (some server)

/-! ### The stream -/

/-- `kucoin_price_stream_t`; `tradeType` tells the spot from the futures class. A text to be
written is known by its topic. The last two fields record the run: the topics written since the
counter was last reset, and the last response that instruments were read from. -/
structure KucoinStream where
  tradeType : TradeType
  requestToken : Bytes := []
  instanceServers : List InstanceServerData := []
  subscriptionString : Option Bytes := none
  tokensSubscribedFor : Bool := false
  fInstruments : List InstrumentType := []
  tokenCounter : Nat := 0
  written : List Bytes := []
  response : Option Bytes := none

/-- The two requests of a stream. -/
inductive Request where
  | instruments | token
  deriving DecidableEq, Repr

/-- What a stream waits for: its call of `run`, operations, and the end of the five seconds
`report_error_and_retry` sleeps. -/
inductive Op where
  | run
  | rest (request : Request) (op : RestOp)
  | resolve | connect | sslHandshake | wsHandshake
  | read
  | write (topic : Bytes)
  | retry
  deriving DecidableEq, Repr

/-- What a handler leaves: the stream, its actions on the sink, and what it starts. -/
abbrev Result := KucoinStream × List (Action InstrumentType) × List Op

namespace KucoinStream

/-- `rest_api_obtain_token`. -/
def restApiObtainToken (s : KucoinStream) : Result := (s, [], [.rest .token .resolve])

/-- `rest_api_initiate_connection`, given whether `m_tradedInstruments` is empty. -/
def restApiInitiateConnection (s : KucoinStream) (empty : Bool) : Result :=
  if !empty then s.restApiObtainToken
  else ({ s with tokensSubscribedFor := false }, [], [.rest .instruments .resolve])

/-- `on_instruments_received` of the two classes, and the request of the token after it. -/
def onInstrumentsReceived (parse : JsonParse) (stod : Bytes → Except StdException ℚ)
    (s : KucoinStream) (str : Bytes) : Option Result :=
  let s := { s with response := some str }
  if s.tradeType = .futures then
    match readContracts parse stod str with
    | (_, some .undefined) => none
    -- what is thrown is caught
    | (instruments, _) =>
      let (s, _, started) := restApiObtainToken { s with fInstruments := instruments }
      some (s, instruments.map .append, started)
  else
    match readAllTickers parse stod str with
    | (_, some .undefined) => none
    | (instruments, some (.thrown _)) => some (s, instruments.map .append ++ [.throw], [])
    | (instruments, none) =>
      let (s, _, started) := s.restApiObtainToken
      some (s, instruments.map .append, started)

/-- `on_token_obtained`, with what interrupted it. -/
def onTokenObtained (parse : JsonParse) (s : KucoinStream) (str : Bytes) :
    KucoinStream × Option Fault :=
  match responseData parse str with
  | .error e => (s, some (.thrown e))
  | .ok (some (.object dataObject)) =>
    match Json.Object.find dataObject (bytes "token") with
    | some (.string token) =>
      let s := { s with requestToken := token }
      match member dataObject (bytes "instanceServers") Json.getArray with
      | .error fault => (s, some fault)
      | .ok serverInstances =>
        let (servers, fault) := readItems readServer none serverInstances
        ({ s with instanceServers := servers }, fault)
    | _ => (s, none)
  | .ok _ => (s, none)

/-- `initiate_websocket_connection`. -/
def initiateWebsocketConnection (s : KucoinStream) : Result :=
  if s.instanceServers.isEmpty || s.requestToken.isEmpty then (s, [], [])
  else
    let s := { s with instanceServers := s.instanceServers.filter (fun d ↦ d.encryptProtocol) }
    if s.instanceServers.isEmpty then (s, [], []) else (s, [], [.resolve])

/-- The `onSuccess` callbacks of the two requests. -/
def onSuccess (parse : JsonParse) (stod : Bytes → Except StdException ℚ) (s : KucoinStream)
    (request : Request) (data : Bytes) : Option Result :=
  match request with
  | .instruments => s.onInstrumentsReceived parse stod data
  | .token =>
    match s.onTokenObtained parse data with
    | (_, some .undefined) => none
    | (s, _) => some s.initiateWebsocketConnection

/-- `reset_counter` of the two classes. -/
def resetCounter (s : KucoinStream) : KucoinStream :=
  let s := { s with tokensSubscribedFor := false, written := [] }
  if s.tradeType = .futures then { s with tokenCounter := 0 } else s

/-- `report_error_and_retry` up to its sleep. -/
def reportErrorAndRetry (s : KucoinStream) : Result := (s.resetCounter, [.clear], [.retry])

/-- `a - b` on `size_t`. -/
def sizeMinus (a b : Nat) : Nat := if b ≤ a then a - b else 2 ^ 64 - (b - a)

/-- The topic of a subscription to the tickers of these contracts. -/
def tickerTopic (names : List Bytes) : Bytes :=
  bytes "/contractMarket/tickerV2:" ++ (names.intersperse (bytes ",")).flatten

/-- `get_subscription_json` of the two classes, by its topic. An index past the end of
`m_fInstruments` is undefined. -/
def getSubscriptionJson (s : KucoinStream) : Option (KucoinStream × Bytes) :=
  if s.tradeType = .futures then
    let size := s.fInstruments.length
    let counter := min 100 (sizeMinus size s.tokenCounter)
    match (List.range counter).mapM (fun i ↦ s.fInstruments[i + s.tokenCounter]?) with
    | none => none
    | some instruments =>
      let s := { s with tokenCounter := s.tokenCounter + counter }
      some ({ s with tokensSubscribedFor := s.tokensSubscribedFor || s.tokenCounter == size },
        tickerTopic (instruments.map InstrumentType.name))
  else some ({ s with tokensSubscribedFor := true }, bytes "/market/ticker:all")

/-- The write at the end of `send_ticker_subscription`. -/
def writeSubscription (s : KucoinStream) (topic : Bytes) : Result :=
  ({ s with written := s.written ++ [topic] }, [], [.write topic])

/-- `send_ticker_subscription`; `dump` throws on a topic that is not UTF-8. -/
def sendTickerSubscription (s : KucoinStream) : Option Result :=
  match s.subscriptionString with
  | some topic => some (s.writeSubscription topic)
  | none =>
    match s.getSubscriptionJson with
    | none => none
    | some (s, topic) =>
      if Json.isUtf8 topic then
        some (writeSubscription { s with subscriptionString := some topic } topic)
      else some (s, [.throw], [])

/-- `wait_for_messages`. -/
def waitForMessages (s : KucoinStream) : Result := (s, [], [.read])

/-- `interpret_generic_messages`. -/
def interpretGenericMessages (parse : JsonParse) (stod : Bytes → Except StdException ℚ)
    (s : KucoinStream) (buffer : Bytes) : Option Result :=
  match getInstrumentFromJson parse stod buffer s.tradeType with
  | .error _ => some (s, [.throw], [])
  | .ok inst =>
    let appends := if inst.name.isEmpty then [] else [.append inst]
    let sent := if !s.tokensSubscribedFor then s.sendTickerSubscription else some s.waitForMessages
    sent.map (fun r ↦ (r.1, appends ++ r.2.1, r.2.2))

/-- The handlers of the operations. -/
def complete (parse : JsonParse) (stod : Bytes → Except StdException ℚ) :
    Handler KucoinStream Op Completion InstrumentType :=
  fun s empty op result ↦
    match op with
    | .run | .retry => some (s.restApiInitiateConnection empty)
    | .rest request op =>
      match restComplete op result with
      | .starts op => some (s, [], [.rest request op])
      -- the error callback only logs
      | .errorCallback => some (s, [], [])
      | .successCallback data => s.onSuccess parse stod request data
    | .resolve => some (if result.isSuccess then (s, [], [.connect]) else s.reportErrorAndRetry)
    | .connect =>
      match result with
      | .success _ => some (s, [], [.sslHandshake])
      | .noServerName => some (s, [], [])
      | .aborted | .failed => some s.reportErrorAndRetry
    | .sslHandshake => some (s, [], if result.isSuccess then [.wsHandshake] else [])
    | .wsHandshake => some (if result.isSuccess then s.waitForMessages else s.reportErrorAndRetry)
    | .read =>
      match result with
      | .success buffer => s.interpretGenericMessages parse stod buffer
      | .aborted => some (s, [], [])
      | .noServerName | .failed => some s.reportErrorAndRetry
    | .write _ =>
      let s := { s with subscriptionString := none }
      some (if result.isSuccess then s.waitForMessages else s.reportErrorAndRetry)

end KucoinStream

/-! ### What a handler can do -/

/-- The operations up to the response with the instruments. -/
def Op.isOpening : Op → Bool
  | .run | .retry | .rest .instruments _ => true
  | _ => false

/-- The write of a subscription. -/
def Op.isWrite : Op → Bool
  | .write _ => true
  | _ => false

namespace KucoinStream

/-- What the handler of an operation leaves, as far as the subscriptions depend on it. -/
inductive Outcome (parse : JsonParse) (stod : Bytes → Except StdException ℚ) (s : KucoinStream)
    (empty : Bool) : Op → Result → Prop
  | kept {op : Op} (hop : op.isWrite = false) {token : Bytes} {servers : List InstanceServerData}
      {actions : List (Action InstrumentType)} {started : List Op} (hlen : started.length ≤ 1)
      (hstarted : ∀ o ∈ started, o.isWrite = false ∧ o.isOpening = op.isOpening) :
      Outcome parse stod s empty op
        ({ s with requestToken := token, instanceServers := servers }, actions, started)
  | initiated {op : Op} (hop : op = .run ∨ op = .retry) :
      Outcome parse stod s empty op (s.restApiInitiateConnection empty)
  | received (str : Bytes) {instruments : List InstrumentType}
      (hcontracts : s.tradeType = .futures → instruments = (readContracts parse stod str).1)
      {actions : List (Action InstrumentType)} {started : List Op} (hlen : started.length ≤ 1)
      (hstarted : ∀ o ∈ started, o = .rest .token .resolve) :
      Outcome parse stod s empty (.rest .instruments .read)
        ({ s with response := some str, fInstruments := instruments }, actions, started)
  | retried {op : Op} (hop : op.isWrite = false) :
      Outcome parse stod s empty op s.reportErrorAndRetry
  | written {topic : Bytes} (success : Bool) :
      Outcome parse stod s empty (.write topic)
        (if success then waitForMessages { s with subscriptionString := none }
          else reportErrorAndRetry { s with subscriptionString := none })
  | sent {r : Result} (hsubscribed : s.tokensSubscribedFor = false)
      (hr : s.sendTickerSubscription = some r) (appends : List (Action InstrumentType)) :
      Outcome parse stod s empty .read (r.1, appends ++ r.2.1, r.2.2)

variable {parse : JsonParse} {stod : Bytes → Except StdException ℚ} {s : KucoinStream}

/-- A reset does not change the class. -/
theorem tradeType_resetCounter (s : KucoinStream) : s.resetCounter.tradeType = s.tradeType := by
  unfold resetCounter
  dsimp only
  split <;> rfl

/-- A reset of a futures stream takes back all its subscriptions. -/
theorem resetCounter_of_futures {s : KucoinStream} (h : s.tradeType = .futures) :
    s.resetCounter = { s with tokensSubscribedFor := false, written := [], tokenCounter := 0 } :=
  if_pos h

/-- A subscription changes neither the class nor the contracts nor what they were read from,
and starts at most one operation. -/
theorem sendTickerSubscription_spec {r : Result} (h : s.sendTickerSubscription = some r) :
    (r.1.tradeType = s.tradeType ∧ r.1.fInstruments = s.fInstruments ∧
      r.1.response = s.response) ∧ r.2.2.length ≤ 1 := by
  unfold sendTickerSubscription at h
  split at h
  · obtain rfl := Option.some.inj h
    exact ⟨⟨rfl, rfl, rfl⟩, Nat.le_refl 1⟩
  · split at h
    · cases h
    · next t topic hsubscription =>
      have hkept : t.tradeType = s.tradeType ∧ t.fInstruments = s.fInstruments ∧
          t.response = s.response := by
        unfold getSubscriptionJson at hsubscription
        dsimp only at hsubscription
        split at hsubscription
        · split at hsubscription
          · cases hsubscription
          · rw [← (Prod.mk.inj (Option.some.inj hsubscription)).1]
            exact ⟨rfl, rfl, rfl⟩
        · rw [← (Prod.mk.inj (Option.some.inj hsubscription)).1]
          exact ⟨rfl, rfl, rfl⟩
      split at h
      · obtain rfl := Option.some.inj h
        exact ⟨hkept, Nat.le_refl 1⟩
      · obtain rfl := Option.some.inj h
        exact ⟨hkept, Nat.zero_le 1⟩

/-- A handler that goes on with `next` and keeps the stream. -/
private theorem outcome_next {empty : Bool} {op next : Op} (hop : op.isWrite = false)
    (hnext : next.isWrite = false ∧ next.isOpening = op.isOpening) :
    Outcome parse stod s empty op (s, [], [next]) := by
  refine @Outcome.kept _ _ s _ _ hop s.requestToken s.instanceServers _ [next] (Nat.le_refl 1) ?_
  intro o ho
  rw [List.mem_singleton.mp ho]
  exact hnext

/-- A handler that ends the chain and keeps the stream. -/
private theorem outcome_end {empty : Bool} {op : Op} (hop : op.isWrite = false) :
    Outcome parse stod s empty op (s, [], []) :=
  @Outcome.kept _ _ s _ _ hop s.requestToken s.instanceServers _ [] (Nat.zero_le 1) nofun

private theorem outcome_onInstrumentsReceived {empty : Bool} {str : Bytes} {r : Result}
    (h : s.onInstrumentsReceived parse stod str = some r) :
    Outcome parse stod s empty (.rest .instruments .read) r := by
  unfold onInstrumentsReceived at h
  dsimp only at h
  split at h
  · split at h
    · cases h
    · next instruments _ _ hread =>
      obtain rfl := Option.some.inj h
      refine .received str (fun _ ↦ by rw [hread]) (Nat.le_refl 1) ?_
      exact fun o ho ↦ List.mem_singleton.mp ho
  · next hspot =>
    split at h
    · cases h
    · obtain rfl := Option.some.inj h
      exact .received str (fun hfutures ↦ absurd hfutures hspot) (Nat.zero_le 1) nofun
    · obtain rfl := Option.some.inj h
      refine .received str (fun hfutures ↦ absurd hfutures hspot) (Nat.le_refl 1) ?_
      exact fun o ho ↦ List.mem_singleton.mp ho

private theorem outcome_initiateWebsocketConnection {empty : Bool} {t : KucoinStream}
    {token : Bytes} {servers : List InstanceServerData}
    (ht : t = { s with requestToken := token, instanceServers := servers }) :
    Outcome parse stod s empty (.rest .token .read) t.initiateWebsocketConnection := by
  subst ht
  unfold initiateWebsocketConnection
  dsimp only
  split
  · exact .kept rfl (Nat.zero_le 1) nofun
  · split
    · exact .kept rfl (Nat.zero_le 1) nofun
    · refine .kept rfl (Nat.le_refl 1) ?_
      intro o ho
      rw [List.mem_singleton.mp ho]
      exact ⟨rfl, rfl⟩

/-- The token and the servers are all that the response to the token request changes. -/
private theorem onTokenObtained_fst (parse : JsonParse) (s : KucoinStream) (str : Bytes) :
    ∃ token servers, (s.onTokenObtained parse str).1 =
      { s with requestToken := token, instanceServers := servers } := by
  unfold onTokenObtained
  split
  · exact ⟨_, _, rfl⟩
  · split
    · dsimp only
      split
      · exact ⟨_, _, rfl⟩
      · exact ⟨_, _, rfl⟩
    · exact ⟨_, _, rfl⟩
  · exact ⟨_, _, rfl⟩

private theorem outcome_interpretGenericMessages {empty : Bool} {buffer : Bytes} {r : Result}
    (h : s.interpretGenericMessages parse stod buffer = some r) :
    Outcome parse stod s empty .read r := by
  unfold interpretGenericMessages at h
  split at h
  · obtain rfl := Option.some.inj h
    exact @Outcome.kept _ _ s _ _ rfl s.requestToken s.instanceServers _ [] (Nat.zero_le 1) nofun
  · next inst _ =>
    obtain ⟨r, hr, rfl⟩ := Option.map_eq_some_iff.mp h
    cases hsubscribed : s.tokensSubscribedFor with
    | false =>
      rw [hsubscribed] at hr
      exact .sent hsubscribed hr _
    | true =>
      rw [hsubscribed] at hr
      obtain rfl := Option.some.inj hr
      refine @Outcome.kept _ _ s _ _ rfl s.requestToken s.instanceServers _ [.read]
        (Nat.le_refl 1) ?_
      intro o ho
      rw [List.mem_singleton.mp ho]
      exact ⟨rfl, rfl⟩

/-- All that a handler can do. -/
theorem complete_cases {empty : Bool} {op : Op} {result : Completion} {r : Result}
    (h : complete parse stod s empty op result = some r) : Outcome parse stod s empty op r := by
  cases op with
  | run =>
    obtain rfl := Option.some.inj h
    exact .initiated (.inl rfl)
  | retry =>
    obtain rfl := Option.some.inj h
    exact .initiated (.inr rfl)
  | rest request op =>
    change (match restComplete op result with
      | .starts op => some (s, [], [.rest request op])
      | .errorCallback => some (s, [], [])
      | .successCallback data => s.onSuccess parse stod request data) = some r at h
    split at h
    · obtain rfl := Option.some.inj h
      exact outcome_next rfl ⟨rfl, by cases request <;> rfl⟩
    · obtain rfl := Option.some.inj h
      exact outcome_end rfl
    · next data hdata =>
      obtain rfl : op = .read := by
        cases op <;> cases result <;> first | rfl | cases hdata
      cases request with
      | instruments => exact outcome_onInstrumentsReceived h
      | token =>
        unfold onSuccess at h
        dsimp only at h
        obtain ⟨token, servers, hfst⟩ := onTokenObtained_fst parse s data
        split at h
        · cases h
        · next t _ _ ht =>
          obtain rfl := Option.some.inj h
          rw [ht] at hfst
          exact outcome_initiateWebsocketConnection hfst
  | resolve =>
    obtain rfl := Option.some.inj h
    split
    · exact outcome_next rfl ⟨rfl, rfl⟩
    · exact .retried rfl
  | connect =>
    cases result with
    | success data =>
      obtain rfl := Option.some.inj h
      exact outcome_next rfl ⟨rfl, rfl⟩
    | noServerName =>
      obtain rfl := Option.some.inj h
      exact outcome_end rfl
    | aborted | failed =>
      obtain rfl := Option.some.inj h
      exact .retried rfl
  | sslHandshake =>
    obtain rfl := Option.some.inj h
    split
    · exact outcome_next rfl ⟨rfl, rfl⟩
    · exact outcome_end rfl
  | wsHandshake =>
    obtain rfl := Option.some.inj h
    split
    · exact outcome_next rfl ⟨rfl, rfl⟩
    · exact .retried rfl
  | read =>
    cases result with
    | success buffer => exact outcome_interpretGenericMessages h
    | aborted =>
      obtain rfl := Option.some.inj h
      exact outcome_end rfl
    | noServerName | failed =>
      obtain rfl := Option.some.inj h
      exact .retried rfl
  | write topic =>
    obtain rfl := Option.some.inj h
    exact .written result.isSuccess

end KucoinStream

/-- A stream that has been made and is going to be called. -/
def start (tradeType : TradeType) : Process KucoinStream Op InstrumentType :=
  { object := { tradeType := tradeType }, tasks := [.op .run] }

/-- The call of `run` is a chain by itself. -/
theorem chain_start {J : KucoinStream → Prop} {I : KucoinStream → Op → Prop}
    {tradeType : TradeType} (hJ : J { tradeType := tradeType })
    (hI : I { tradeType := tradeType } .run) : Chain J I (start tradeType) := by
  constructor
  · exact Nat.le_refl 1
  · intro t ht
    rw [List.mem_singleton.mp ht]
    exact Nat.le_refl 1
  · exact hJ
  · intro t ht op hop
    rw [List.mem_singleton.mp ht] at hop
    rw [List.mem_singleton.mp hop]
    exact hI

/-! ### A small exchange -/

/-- The contract of the small exchange. -/
def sampleContract : InstrumentType :=
  { name := bytes "XBTUSDTM", currentPrice := 30000, tradeType := .futures }

/-- The spot instrument of the small exchange. -/
def sampleTicker : InstrumentType :=
  { name := bytes "KCS-USDT", currentPrice := 2, tradeType := .spot }

/-- A successful response with the data. -/
def sampleResponse (data : Json) : Json :=
  .object [(bytes "code", .string (bytes "200000")), (bytes "data", data)]

/-- `json::parse` on the texts of the small exchange. -/
def sampleParse : JsonParse := fun text ↦
  if text = bytes "contracts" then
    .ok (sampleResponse (.array [.object [(bytes "lastTradePrice", .numberUnsigned 30000),
      (bytes "symbol", .string (bytes "XBTUSDTM"))]]))
  else if text = bytes "tickers" then
    .ok (sampleResponse (.object [(bytes "ticker", .array [.object
      [(bytes "last", .numberUnsigned 2), (bytes "symbol", .string (bytes "KCS-USDT"))]])]))
  else if text = bytes "token" then
    .ok (sampleResponse (.object [(bytes "token", .string (bytes "2neAiuYvAU61")),
      (bytes "instanceServers", .array [.object
        [(bytes "endpoint", .string (bytes "wss://ws-api.kucoin.com/endpoint")),
          (bytes "protocol", .string (bytes "websocket")), (bytes "encrypt", .boolean true),
          (bytes "pingInterval", .numberUnsigned 18000),
          (bytes "pingTimeout", .numberUnsigned 10000)]])]))
  else if text = bytes "welcome" then .ok (.object [])
  else .error .parseError

/-- The values of the small exchange can be written again. -/
theorem dumps_sampleParse (text : Bytes) (value : Json) (h : sampleParse text = .ok value) :
    value.dumps = true := by
  unfold sampleParse at h
  split at h
  · rw [← Except.ok.inj h]
    decide +kernel
  · split at h
    · rw [← Except.ok.inj h]
      decide +kernel
    · split at h
      · rw [← Except.ok.inj h]
        decide +kernel
      · split at h
        · rw [← Except.ok.inj h]
          decide +kernel
        · cases h

/-- The moves of a successful request. -/
def requestMoves (request : Request) (body : String) (empty : Bool) :
    List (Move Op Completion InstrumentType) :=
  [RestOp.resolve, .connect, .sslHandshake, .write].map (fun op ↦
      .complete (.rest request op) (.success []) empty) ++
    [.complete (.rest request .read) (.success (bytes body)) empty]

/-- The moves from the request of the token to the first read. -/
def connectMoves (empty : Bool) : List (Move Op Completion InstrumentType) :=
  requestMoves .token "token" empty ++
    [Op.resolve, .connect, .sslHandshake, .wsHandshake].map (fun op ↦
      .complete op (.success []) empty)

/-- The moves of a spot stream up to the request of its token. -/
def spotMoves : List (Move Op Completion InstrumentType) :=
  .complete .run (.success []) true :: requestMoves .instruments "tickers" true ++
    [.act (.append sampleTicker) [] [.rest .token .resolve]]

/-- The moves of a futures stream up to its first read. -/
def futuresMoves : List (Move Op Completion InstrumentType) :=
  .complete .run (.success []) true :: requestMoves .instruments "contracts" true ++
    .act (.append sampleContract) [] [.rest .token .resolve] :: connectMoves false

/-- The message that greets a new connection. -/
def welcome (empty : Bool) : Move Op Completion InstrumentType :=
  .complete .read (.success (bytes "welcome")) empty

end KeepMyJournal.PriceMonitor.Kucoin
