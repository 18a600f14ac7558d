import KeepMyJournal.PriceMonitor.InstrumentSink

/-!
# The contracts of the KuCoin futures stream

`rest_api_initiate_connection` requests the contracts only if the sink is empty,
`price_monitor/src/kucoin_price_stream.cpp:67–91`; but the spot stream fills the same sink. What
the futures stream subscribes to is its own list as long as it finds the sink empty until it has
received one.
-/

namespace KeepMyJournal.PriceMonitor.Kucoin

open KeepMyJournal.Base KeepMyJournal.Base.Shared KeepMyJournal.Common
open KeepMyJournal.AccountMonitor (Completion)

variable (parse : JsonParse) (stod : Bytes → Except StdException ℚ)

/-- The contracts are those of the last response to the stream's request for contracts. -/
def KucoinStream.HasOwnContracts (s : KucoinStream) : Prop :=
  match s.response with
  | none => False
  | some str => s.fInstruments = (readContracts parse stod str).1

instance (s : KucoinStream) : Decidable (s.HasOwnContracts parse stod) := by
  unfold KucoinStream.HasOwnContracts
  split <;> infer_instance

/-- If the stream counts as subscribed, or sends a subscription, its contracts are its own. -/
def SubscribesOwn (p : Process KucoinStream Op InstrumentType) : Prop :=
  (p.object.tokensSubscribedFor = true ∨ ∃ t ∈ p.tasks, ∃ op ∈ t.ops, op.isWrite = true) →
    p.object.HasOwnContracts parse stod

instance (p : Process KucoinStream Op InstrumentType) :
    Decidable (SubscribesOwn parse stod p) := by
  unfold SubscribesOwn
  infer_instance

/-- The move calls `rest_api_initiate_connection`. -/
def Initiates : Move Op Completion InstrumentType → Bool
  | .complete .run _ _ | .complete .retry _ _ => true
  | _ => false

/-- If the futures stream initiates a connection in the step and no contracts have been received
before, the sink is empty. -/
def FetchesFirst (s : System KucoinWatcher KucoinStream Op InstrumentType) :
    Event KucoinWatcher Op Completion InstrumentType →
      System KucoinWatcher KucoinStream Op InstrumentType → Prop
  | .move .futuresWatcher m, _ =>
    Initiates m = true → (s.process .futuresWatcher).object.response = none → s.queue = []
  | _, _ => True

instance (s : System KucoinWatcher KucoinStream Op InstrumentType)
    (e : Event KucoinWatcher Op Completion InstrumentType)
    (s' : System KucoinWatcher KucoinStream Op InstrumentType) :
    Decidable (FetchesFirst s e s') := by
  unfold FetchesFirst
  split <;> infer_instance

variable {parse stod} {s : KucoinStream}

/-- What a futures stream keeps: the contracts are those of the last response, and it
subscribes after a response only. -/
private structure Own (parse : JsonParse) (stod : Bytes → Except StdException ℚ)
    (s : KucoinStream) : Prop where
  futures : s.tradeType = .futures
  contracts : ∀ str, s.response = some str → s.fInstruments = (readContracts parse stod str).1
  subscribed : s.tokensSubscribedFor = true → s.response ≠ none

private theorem Own.hasOwnContracts (hs : Own parse stod s) (hresponse : s.response ≠ none) :
    s.HasOwnContracts parse stod := by
  unfold KucoinStream.HasOwnContracts
  split
  · next hnone => exact hresponse hnone
  · next str hstr => exact hs.contracts str hstr

/-- A stream that goes to sleep is not subscribed, and will call
`rest_api_initiate_connection`. -/
private theorem own_reportErrorAndRetry (hs : Own parse stod s) :
    Own parse stod s.reportErrorAndRetry.1 ∧ s.reportErrorAndRetry.2.2.length ≤ 1 ∧
      ∀ o ∈ s.reportErrorAndRetry.2.2, o.isOpening = false →
        s.reportErrorAndRetry.1.response ≠ none := by
  unfold KucoinStream.reportErrorAndRetry
  rw [KucoinStream.resetCounter_of_futures hs.futures]
  refine ⟨⟨hs.futures, hs.contracts, nofun⟩, Nat.le_refl 1, ?_⟩
  intro o ho hopening
  rw [List.mem_singleton.mp ho] at hopening
  cases hopening

/-- What every handler keeps of a futures stream, whose contracts have been received before it
requests a token. -/
private theorem own_outcome {empty : Bool} {op : Op} {r : Result}
    (hempty : op = .run ∨ op = .retry → s.response = none → empty = true)
    (hs : Own parse stod s) (hop : op.isOpening = false → s.response ≠ none)
    (h : KucoinStream.Outcome parse stod s empty op r) :
    Own parse stod r.1 ∧ r.2.2.length ≤ 1 ∧
      ∀ o ∈ r.2.2, o.isOpening = false → r.1.response ≠ none := by
  cases h with
  | kept _ hlen hstarted =>
    refine ⟨⟨hs.futures, hs.contracts, hs.subscribed⟩, hlen, ?_⟩
    intro o ho hopening
    exact hop ((hstarted o ho).2 ▸ hopening)
  | initiated hinit =>
    cases empty with
    | true =>
      refine ⟨⟨hs.futures, hs.contracts, nofun⟩, Nat.le_refl 1, ?_⟩
      intro o ho hopening
      rw [List.mem_singleton.mp ho] at hopening
      cases hopening
    | false =>
      -- the request for contracts is skipped, with those of an earlier response kept
      refine ⟨hs, Nat.le_refl 1, ?_⟩
      intro _ _ _ hnone
      exact Bool.false_ne_true (hempty hinit hnone)
  | received str hcontracts hlen hstarted =>
    refine ⟨⟨hs.futures, ?_, nofun⟩, hlen, nofun⟩
    intro str' hstr
    rw [← Option.some.inj hstr]
    exact hcontracts hs.futures
  | retried _ => exact own_reportErrorAndRetry hs
  | written success =>
    have hs' : Own parse stod { s with subscriptionString := none } :=
      ⟨hs.futures, hs.contracts, hs.subscribed⟩
    cases success with
    | true => exact ⟨hs', Nat.le_refl 1, fun _ _ _ ↦ hop rfl⟩
    | false => exact own_reportErrorAndRetry hs'
  | sent _ hr appends =>
    obtain ⟨⟨htype, hlist, hresponse⟩, hlen⟩ := KucoinStream.sendTickerSubscription_spec hr
    have hreceived : _ ≠ none := hresponse ▸ hop rfl
    refine ⟨⟨htype.trans hs.futures, ?_, fun _ ↦ hreceived⟩, hlen, fun _ _ _ ↦ hreceived⟩
    intro str hstr
    rw [hlist]
    exact hs.contracts str (hresponse ▸ hstr)

/-- The chain of the futures stream. -/
private abbrev OwnChain (parse : JsonParse) (stod : Bytes → Except StdException ℚ)
    (p : Process KucoinStream Op InstrumentType) : Prop :=
  Chain (Own parse stod) (fun s op ↦ op.isOpening = false → s.response ≠ none) p

/-- A stream without contracts initiates a connection only while the sink is empty. -/
private def FetchesAt (s : KucoinStream) : Move Op Completion InstrumentType → Prop
  | .complete op _ empty => op = .run ∨ op = .retry → s.response = none → empty = true
  | .act _ _ _ => True

private theorem ownChain_move {p p' : Process KucoinStream Op InstrumentType}
    {m : Move Op Completion InstrumentType} (hp : OwnChain parse stod p)
    (hfetches : FetchesAt p.object m)
    (hm : move (KucoinStream.complete parse stod) p m = some p') : OwnChain parse stod p' := by
  refine chain_move ?_ hp hfetches hm
  intro s empty op result s' actions started hempty hs hop h
  exact own_outcome hempty hs hop (KucoinStream.complete_cases h)

private theorem fetchesAt_of_fetchesFirst
    {s s' : System KucoinWatcher KucoinStream Op InstrumentType}
    {m : Move Op Completion InstrumentType} (hsees : m.Sees s.queue)
    (h : FetchesFirst s (.move .futuresWatcher m) s') :
    FetchesAt (s.process .futuresWatcher).object m := by
  cases m with
  | act _ _ _ => exact True.intro
  | complete op result empty =>
    intro hop hnone
    have hnil : s.queue = [] := by
      rcases hop with rfl | rfl
      · exact h rfl hnone
      · exact h rfl hnone
    rw [show empty = s.queue.isEmpty from hsees, hnil]
    rfl

private theorem subscribesOwn_of_ownChain {p : Process KucoinStream Op InstrumentType}
    (hp : OwnChain parse stod p) : SubscribesOwn parse stod p := by
  rintro (hsubscribed | ⟨t, ht, op, hop, hwrite⟩)
  · exact hp.object.hasOwnContracts (hp.object.subscribed hsubscribed)
  · apply hp.object.hasOwnContracts
    apply hp.op t ht op hop
    cases op with
    | write topic => rfl
    | _ => cases hwrite

/-- In every run of the two streams and the sender in which the futures stream finds the sink
empty whenever it initiates a connection without having received contracts, it subscribes to
its own contracts only. -/
theorem subscribesOwn_of_fetchesFirst (parse : JsonParse)
    (stod : Bytes → Except StdException ℚ)
    (es : List (Event KucoinWatcher Op Completion InstrumentType))
    (h : Transition.Along (step (KucoinStream.complete parse stod)) FetchesFirst
      kucoinPriceWatcher es) :
    Transition.Along (step (KucoinStream.complete parse stod))
      (fun _ _ s' ↦ SubscribesOwn parse stod (s'.process .futuresWatcher))
      kucoinPriceWatcher es := by
  refine Transition.along_of_inv (I := fun s ↦ OwnChain parse stod (s.process .futuresWatcher))
    ?_ ?_ h
  · intro s e _ s' hs hstep hfetches
    have hs' : OwnChain parse stod (s'.process .futuresWatcher) := by
      refine process_step (Θ := fun p ↦ FetchesAt p.object) ?_ hs hstep ?_
      · intro m p p' hp hfetches hm
        exact ownChain_move hp hfetches hm
      · rintro m rfl
        exact fetchesAt_of_fetchesFirst (step_move hstep).1 hfetches
    exact ⟨subscribesOwn_of_ownChain hs', hs'⟩
  · exact chain_start ⟨rfl, nofun, nofun⟩ nofun

/-- The futures stream is called before the spot stream has read anything, and subscribes. -/
theorem subscribesOwn_beforeSpot :
    Transition.Along
      (step (KucoinStream.complete sampleParse fun _ ↦ .error .invalidArgument))
      (fun _ _ s' ↦ SubscribesOwn sampleParse (fun _ ↦ .error .invalidArgument)
        (s'.process .futuresWatcher)) kucoinPriceWatcher
      (.move .spotWatcher (.complete .run (.success []) true) ::
        (futuresMoves ++ [welcome false]).map (.move .futuresWatcher)) :=
  subscribesOwn_of_fetchesFirst sampleParse (fun _ ↦ .error .invalidArgument) _ (by decide +kernel)

/-- The futures stream is called when the instruments of the spot stream are queued: it
subscribes to no contract at all, and counts as subscribed. -/
theorem not_subscribesOwn_afterSpot :
    let es : List (Event KucoinWatcher Op Completion InstrumentType) :=
      spotMoves.map (.move .spotWatcher) ++
        (.complete .run (.success []) false :: connectMoves false ++ [welcome false]).map
          (.move .futuresWatcher)
    let s := (Transition.run
      (step (KucoinStream.complete sampleParse fun _ ↦ .error .invalidArgument))
      kucoinPriceWatcher es).get (by decide +kernel)
    (¬Transition.Along
      (step (KucoinStream.complete sampleParse fun _ ↦ .error .invalidArgument))
      (fun _ _ s' ↦ SubscribesOwn sampleParse (fun _ ↦ .error .invalidArgument)
        (s'.process .futuresWatcher)) kucoinPriceWatcher es) ∧
      (s.process .futuresWatcher).object.tokensSubscribedFor = true ∧
        (s.process .futuresWatcher).object.written = [bytes "/contractMarket/tickerV2:"] := by
  decide +kernel

end KeepMyJournal.PriceMonitor.Kucoin
