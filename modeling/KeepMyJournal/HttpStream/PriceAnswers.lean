import KeepMyJournal.Base.Readings
import KeepMyJournal.HttpStream.LatestPrice
import KeepMyJournal.PriceMonitor.Markets

/-!
# Answers about prices

The requests that `latest_price_handler` (`http_stream/src/session.cpp:352–379`) serves while the
watchers of all exchanges (`http_stream/src/latest_prices_watcher.cpp:25–64`) go on filling
`uniqueInstruments`.
-/

namespace KeepMyJournal.HttpStream

open KeepMyJournal.Base KeepMyJournal.Common KeepMyJournal.PriceMonitor
open KeepMyJournal.PriceMonitor.Distribution (PriceWatcher)

/-! ### One request -/

/-- The exchange and the item that a well-formed query asks for. -/
def askedFor (query : UrlQuery) : Option (Exchange × InstrumentType) :=
  match query[bytes "symbol"]?, query[bytes "exchange"]?, query[bytes "trade"]? with
  | some symbol, some exchange, some trade =>
    let exchange := stringToExchange (toLowerCopy exchange)
    let instr : InstrumentType :=
      { name := trimCopy (toUpperCopy symbol), tradeType := stringToTradeType (toLowerCopy trade) }
    if instr.name.isEmpty ∨ exchange = .total ∨ instr.tradeType = .total then none
    else some (exchange, instr)
  | _, _, _ => none

/-- The answer that an instrument is not cached. -/
def priceNotFound : Response := .json 200 (.text "not found")

/-- The answer with a cached instrument. -/
def priceFound (instrument : InstrumentType) : Response := .json 200 instrument.toJson

/-- What a look-up is answered with; there is no text for a name that is not UTF-8. -/
def answerTo : Option InstrumentType → List Response
  | some instrument => if Json.isUtf8 instrument.name then [priceFound instrument] else []
  | none => [priceNotFound]

variable {τ : Type} (world : World τ) (s : Session τ)

private theorem responses_sendSuccess (body : Json) : (Handling.sendSuccess body s).2.responses =
    s.responses ++ if body.dumps then [.json 200 body] else [] := by
  unfold Handling.sendSuccess jsonSuccess
  split
  · rfl
  · exact (List.append_nil _).symm

/-- A well-formed query is answered by a look-up. -/
theorem responses_latestPriceHandler {query : UrlQuery} {exchange : Exchange}
    {item : InstrumentType} (h : askedFor query = some (exchange, item)) :
    (latestPriceHandler world query s).2.responses =
      s.responses ++ answerTo ((world.uniqueInstruments exchange).findItem item) := by
  unfold askedFor at h
  unfold latestPriceHandler
  split at h
  · next symbol exchangeText trade hsymbol hexchange htrade =>
    rw [hsymbol, hexchange, htrade]
    dsimp only at h ⊢
    split at h
    · cases h
    · next hwell =>
      obtain ⟨rfl, rfl⟩ := Prod.mk.inj (Option.some.inj h)
      rw [if_neg hwell]
      cases (world.uniqueInstruments (stringToExchange (toLowerCopy exchangeText))).findItem
          { name := trimCopy (toUpperCopy symbol)
            tradeType := stringToTradeType (toLowerCopy trade) } with
      | some result =>
        dsimp only
        rw [responses_sendSuccess, InstrumentType.dumps_toJson]
        rfl
      | none => exact responses_sendSuccess s _
  · cases h

/-! ### Requests while prices arrive -/

/-- The price streams of all exchanges with the caches of `http_stream`, and the requests that have
been served, each with its responses. -/
structure PriceServer (ι σ ω : Exchange → Type) where
  distribution : ∀ exchange, Distribution (ι exchange) PriceWatcher (σ exchange) (ω exchange)
  served : List (UrlQuery × List Response) := []

namespace PriceServer

variable {ι σ ω ρ : Exchange → Type}

/-- A step of the price streams or caches of an exchange, or a request. -/
inductive Event (ι ω ρ : Exchange → Type) where
  | prices (exchange : Exchange)
    (e : Distribution.Event (ι exchange) PriceWatcher (ω exchange) (ρ exchange))
  | request (query : UrlQuery)

/-- What the streams of an exchange have appended. -/
def appended (s : PriceServer ι σ ω) (exchange : Exchange) : List InstrumentType :=
  (s.distribution exchange).streams.appended

/-- What has been inserted into the cache of an exchange. -/
def inserted (s : PriceServer ι σ ω) (exchange : Exchange) : List InstrumentType :=
  (s.distribution exchange).inserted .httpStream

/-- The handler reads the caches as they are. -/
def worldOf (s : PriceServer ι σ ω) (world : World τ) : World τ :=
  { world with
    uniqueInstruments := fun exchange ↦ (s.distribution exchange).instruments .httpStream }

/-- The responses to all requests for an instrument, however they spell it. -/
def answersFor (s : PriceServer ι σ ω) (exchange : Exchange) (key : Bytes × TradeType) :
    List Response :=
  (s.served.filter fun r ↦
    (askedFor r.1).map (fun asked ↦ (asked.1, asked.2.key)) == some (exchange, key)).flatMap
      Prod.snd

variable (pack : InstrumentType → Bytes) (unpack : Bytes → Option InstrumentType)
  [∀ exchange, DecidableEq (ι exchange)] [∀ exchange, DecidableEq (ω exchange)]
  (process : HttpProcess τ)

/-- One step. -/
def step (h : ∀ exchange, Shared.Handler (σ exchange) (ω exchange) (ρ exchange) InstrumentType)
    (s : PriceServer ι σ ω) : Event ι ω ρ → Option (PriceServer ι σ ω)
  | .prices exchange e =>
    (Distribution.step pack unpack (h exchange) (s.distribution exchange) e).map fun d ↦
      { s with distribution := Function.update s.distribution exchange d }
  | .request query =>
    some { s with served := s.served ++
      [(query, (latestPriceHandler (s.worldOf world) query { process := process }).2.responses)] }

/-- Before the first steps. -/
def start (streams : ∀ exchange, ι exchange →
    Shared.Process (σ exchange) (ω exchange) InstrumentType) : PriceServer ι σ ω :=
  { distribution := fun exchange ↦ Distribution.start (streams exchange) }

/-- The instrument is not found at first; from the first time that it is found on, all answers are
prices of the record, and none is from before the place of the one before it. -/
def ReadForward (key : Bytes × TradeType) (record : List InstrumentType)
    (answers : List Response) : Prop :=
  ∃ n found, answers = List.replicate n priceNotFound ++ found.map priceFound ∧
    Forward (fun a live ↦ live = a ∧ a.key = key) record found

/-- The caches hold what has been inserted, and the answers have been read forward from that. -/
structure Inv (s : PriceServer ι σ ω) : Prop where
  cached : ∀ exchange, (s.distribution exchange).Cached .httpStream
  answers : ∀ exchange key, ReadForward key (s.inserted exchange) (s.answersFor exchange key)

variable {world pack unpack process}
  {h : ∀ exchange, Shared.Handler (σ exchange) (ω exchange) (ρ exchange) InstrumentType}
  {s s' : PriceServer ι σ ω}

omit [∀ exchange, DecidableEq (ι exchange)] [∀ exchange, DecidableEq (ω exchange)] in
/-- One more look-up in the cache goes on reading forward. -/
private theorem readForward_answerTo {key : Bytes × TradeType} {record : List InstrumentType}
    {answers : List Response} (hread : ReadForward key record answers) {item : InstrumentType}
    (hitem : item.key = key) {cache : InstrumentSet}
    (hcached : cache = UniqueElements.empty.run (record.map .insert)) :
    ReadForward key record (answers ++ answerTo (cache.findItem item)) := by
  obtain ⟨n, found, rfl, hforward⟩ := hread
  cases hfind : cache.findItem item with
  | none =>
    rw [hcached, UniqueElements.findItem_run_eq_none_iff, UniqueElements.sinceClear_map_insert,
      hitem] at hfind
    -- what has been found before would still be there
    obtain rfl : found = [] := by
      apply List.eq_nil_iff_forall_not_mem.mpr
      intro live hlive
      obtain ⟨a, ha, -, hkey⟩ := hforward.exists_of_mem hlive
      exact hfind a ha hkey
    refine ⟨n + 1, [], ?_, forward_nil _ _⟩
    simp [answerTo, List.replicate_succ']
  | some result =>
    rw [hcached, UniqueElements.findItem_run_eq_some_iff, UniqueElements.sinceClear_map_insert,
      hitem] at hfind
    obtain ⟨hlast, hkey⟩ := hfind
    obtain ⟨last, hget, hbehind⟩ := hlast.exists_place
    unfold answerTo
    dsimp only
    split
    · refine ⟨n, found ++ [result], by simp, ?_⟩
      refine hforward.concat hget ⟨rfl, hkey⟩ fun place other live hother hlive ↦ ?_
      exact hbehind place other hother (hlive.2.trans hkey.symm)
    · rw [List.append_nil]
      exact ⟨n, found, rfl, hforward⟩

private theorem inv_prices {exchange : Exchange}
    {e : Distribution.Event (ι exchange) PriceWatcher (ω exchange) (ρ exchange)} (hs : s.Inv)
    (hstep : step world pack unpack process h s (.prices exchange e) = some s') : s'.Inv := by
  obtain ⟨d, hd, rfl⟩ := Option.map_eq_some_iff.mp hstep
  obtain ⟨hgrow, hcached⟩ := Distribution.cached_step (hs.cached exchange) hd
  constructor
  · intro other
    dsimp only
    by_cases hother : other = exchange
    · subst hother
      rw [Function.update_self]
      exact hcached
    · rw [Function.update_of_ne hother]
      exact hs.cached other
  · intro other key
    obtain ⟨n, found, hanswers, hforward⟩ := hs.answers other key
    refine ⟨n, found, hanswers, hforward.of_sublist ?_⟩
    unfold inserted
    dsimp only
    by_cases hother : other = exchange
    · subst hother
      rw [Function.update_self]
      exact hgrow.sublist
    · rw [Function.update_of_ne hother]

private theorem inv_request {query : UrlQuery} (hs : s.Inv)
    (hstep : step world pack unpack process h s (.request query) = some s') : s'.Inv := by
  obtain rfl := Option.some.inj hstep
  refine ⟨hs.cached, fun exchange key ↦ ?_⟩
  have hread := hs.answers exchange key
  unfold answersFor at hread ⊢
  rw [List.filter_append, List.flatMap_append]
  by_cases hasked : (askedFor query).map (fun asked ↦ (asked.1, asked.2.key)) = some (exchange, key)
  · obtain ⟨⟨other, item⟩, hquery, hsame⟩ := Option.map_eq_some_iff.mp hasked
    obtain ⟨rfl, hitem⟩ := Prod.mk.inj hsame
    rw [List.filter_cons_of_pos (by simpa using hasked), List.filter_nil, List.flatMap_singleton,
      responses_latestPriceHandler _ _ hquery]
    exact readForward_answerTo hread hitem (hs.cached other)
  · rw [List.filter_cons_of_neg (by simpa using hasked), List.filter_nil, List.flatMap_nil,
      List.append_nil]
    exact hread

/-- A step moves the streams and caches of one exchange at most. -/
private theorem distribution_step {e : Event ι ω ρ}
    (hstep : step world pack unpack process h s e = some s') :
    s'.distribution = s.distribution ∨ ∃ exchange e' d,
      Distribution.step pack unpack (h exchange) (s.distribution exchange) e' = some d ∧
        s'.distribution = Function.update s.distribution exchange d := by
  cases e with
  | prices exchange e =>
    obtain ⟨d, hd, rfl⟩ := Option.map_eq_some_iff.mp hstep
    exact .inr ⟨exchange, e, d, hd, rfl⟩
  | request query =>
    obtain rfl := Option.some.inj hstep
    exact .inl rfl

/-- In every run of the price streams of all exchanges with the requests for prices, and for every
instrument: requests for it, however they spell it, are answered that it is not found, until it is
found; and from then on with instruments that the streams have appended under its name and trade
type, read forward: no answer is older than the one before it. -/
theorem answered_of_run {streams : ∀ exchange, ι exchange →
    Shared.Process (σ exchange) (ω exchange) InstrumentType} {events : List (Event ι ω ρ)}
    (hrun : Transition.run (step world pack unpack process h) (start streams) events = some s)
    (hunpack : ∀ exchange, ∀ instrument ∈ s.appended exchange, ∀ rest,
      unpack (pack instrument ++ rest) = some instrument)
    (exchange : Exchange) (key : Bytes × TradeType) :
    ReadForward key (s.appended exchange) (s.answersFor exchange key) := by
  have hinv : s.Inv := by
    refine Transition.inv_run (fun s e s' hs hstep ↦ ?_) ?_ hrun
    · cases e with
      | prices exchange e => exact inv_prices hs hstep
      | request query => exact inv_request hs hstep
    · exact ⟨fun _ ↦ rfl, fun _ _ ↦ ⟨0, [], rfl, forward_nil _ _⟩⟩
  obtain ⟨n, found, hanswers, hforward⟩ := hinv.answers exchange key
  obtain ⟨es, hes⟩ := Transition.exists_run_of_family (f := fun s ↦ s.distribution)
    (fun _ _ _ ↦ distribution_step) hrun exchange
  exact ⟨n, found, hanswers,
    hforward.of_sublist (Distribution.inserted_sublist hes (hunpack exchange) .httpStream)⟩

/-! ### Two spellings -/

open PriceMonitor.Market

/-- The query for the spot price at Binance. -/
private def btcQuery (symbol : String) : UrlQuery :=
  .ofList [(bytes "symbol", bytes symbol), (bytes "exchange", bytes "binance"),
    (bytes "trade", bytes "spot")]

/-- What the handler runs against, but for the caches. -/
private def priceWorld : World Services where
  parse _ := .error .parseError
  past _ := 0
  uniqueInstruments _ := .empty
  proxies := Services.proxies { outcome := fun _ ↦ .scheduled, cache := fun _ _ ↦ default }
  queueAccountStreamTasks _ := pure none

/-- The spot stream of Binance receives a ticker, and the sender sends it to all. -/
private def sentPrice (text : String) (instrument : InstrumentType) :
    List (Event Watcher StreamOp StreamResult) :=
  [.prices .binance (.stream .spot (.complete .read (.completed (.success (bytes text))) true)),
    .prices .binance (.stream .spot (.act (.append instrument) [] [.read])),
    .prices .binance .get, .prices .binance (.send fun _ ↦ true)]

/-- Requests before the first price, after it, while the second is on its way, and after it. -/
private def fourRequests : List (Event Watcher StreamOp StreamResult) :=
  [.request (btcQuery "btc")] ++ sentPrice "0.5" (btcAt (1 / 2)) ++
  [.prices .binance (.receive .httpStream), .request (btcQuery "Btc")] ++
  sentPrice "0.25" (btcAt (1 / 4)) ++
  [.request (btcQuery "BTC"), .prices .binance (.receive .httpStream), .request (btcQuery "btc")]

/-- All four are answered for one instrument. -/
theorem answered_of_run_fourRequests :
    ∃ s, Transition.run (step priceWorld packBtc unpackBtc
        { services := { time := ∅, progress := ∅ } } (handlers oneTicker readPrice))
        (start connected) fourRequests = some s ∧
      s.appended .binance = [btcAt (1 / 2), btcAt (1 / 4)] ∧
      (s.answersFor .binance (bytes "BTC", .spot)).length = 4 ∧
      ReadForward (bytes "BTC", .spot) (s.appended .binance)
        (s.answersFor .binance (bytes "BTC", .spot)) := by
  have hrun : (Transition.run (step priceWorld packBtc unpackBtc
      { services := { time := ∅, progress := ∅ } } (handlers oneTicker readPrice))
      (start connected) fourRequests).map (fun s ↦
        ((s.appended .binance, s.appended .kucoin, s.appended .okex, s.appended .total),
          (s.answersFor .binance (bytes "BTC", .spot)).length)) =
      some (([btcAt (1 / 2), btcAt (1 / 4)], [], [], []), 4) := by
    decide +kernel
  obtain ⟨s, hs, hends⟩ := Option.map_eq_some_iff.mp hrun
  obtain ⟨happended, hlength⟩ := Prod.mk.inj hends
  obtain ⟨hbinance, happended⟩ := Prod.mk.inj happended
  obtain ⟨hkucoin, happended⟩ := Prod.mk.inj happended
  obtain ⟨hokex, htotal⟩ := Prod.mk.inj happended
  refine ⟨s, hs, hbinance, hlength, answered_of_run hs (fun exchange instrument hmem rest ↦ ?_)
    .binance (bytes "BTC", .spot)⟩
  cases exchange with
  | binance =>
    rw [hbinance, List.mem_pair] at hmem
    exact unpackBtc_pack hmem rest
  | kucoin => simp [hkucoin] at hmem
  | okex => simp [hokex] at hmem
  | total => simp [htotal] at hmem

end PriceServer

end KeepMyJournal.HttpStream
