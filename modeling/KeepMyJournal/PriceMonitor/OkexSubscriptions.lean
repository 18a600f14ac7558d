import KeepMyJournal.PriceMonitor.Feeding

/-!
# The subscriptions of the OKX price streams

What a stream subscribes to, `price_monitor/src/okex_price_stream.cpp:61–78, 172–196`, and what it
has been told of the instruments of the exchange. `m_instruments` is filled by the responses and by
the messages of one channel, and emptied by every response and every subscription.
-/

namespace KeepMyJournal.PriceMonitor.Okex

open KeepMyJournal.Base KeepMyJournal.Base.Shared KeepMyJournal.Common
open KeepMyJournal.AccountMonitor (Completion RestOp restComplete)
open KeepMyJournal.AccountMonitor.Okex (text)

/-! ### What a stream is told -/

/-- The instruments of a response that is read: one without an error, and with a list of data. -/
def responseItems (parse : JsonParse) (data : Bytes) : Option (List (Except StdException Bytes)) :=
  match parse data >>= Json.getObject with
  | .ok obj =>
    match (obj.find (bytes "code")).map Json.getString, obj.find (bytes "data") with
    | some (.ok code), some (.array dataList) =>
      if code = bytes "0" then
        some (dataList.map fun dataJson ↦ do
          let dataObject ← dataJson.getObject
          text dataObject "instId")
      else none
    | _, _ => none
  | .error _ => none

/-- What a stream has been told and has subscribed to: all instruments that responses and messages
have named, those of the last response that could be read to its end, and the subscription that
has been written since then. -/
structure Told where
  named : List Bytes := []
  listed : List Bytes := []
  subscribed : Option (List Bytes) := none
  deriving DecidableEq, Repr

/-- What a completion adds. -/
def Told.note (parse : JsonParse) (stod : Bytes → Except StdException ℚ) (tradeType : TradeType)
    (t : Told) : Op → Delivery → Told
  | .rest .read, .completed (.success data) =>
    match responseItems parse data with
    | some items =>
      match firstError items with
      | .ok _ => { named := t.named ++ firstOks items, listed := firstOks items }
      | .error _ => { t with named := t.named ++ firstOks items }
    | none => t
  | .write names, .completed (.success _) => { t with subscribed := some names }
  | .firstRead, .completed (.success buffer) | .read, .completed (.success buffer) =>
    { t with named := t.named ++ messageNames parse stod tradeType buffer }
  | _, _ => t

/-- The list has each of the names once, in the order of `std::set`. -/
def Lists (l names : List Bytes) : Prop :=
  l.Pairwise (fun a b ↦ compare a b = .lt) ∧ ∀ name, name ∈ l ↔ name ∈ names

/-! ### What a handler does -/

theorem mem_insertAll {instruments : Std.ExtTreeSet Bytes} {names : List Bytes} {name : Bytes} :
    name ∈ insertAll instruments names ↔ name ∈ instruments ∨ name ∈ names := by
  induction names generalizing instruments with
  | nil => simp [insertAll]
  | cons first names ih =>
    unfold insertAll at ih ⊢
    rw [List.foldl_cons, ih, Std.ExtTreeSet.mem_insert, Std.LawfulEqCmp.compare_eq_iff_eq,
      List.mem_cons]
    constructor
    · rintro ((rfl | h) | h)
      · exact .inr (.inl rfl)
      · exact .inl h
      · exact .inr (.inr h)
    · rintro (h | rfl | h)
      · exact .inl (.inr h)
      · exact .inl (.inl rfl)
      · exact .inr h

theorem lists_toList {instruments : Std.ExtTreeSet Bytes} {names : List Bytes}
    (h : ∀ name, name ∈ instruments ↔ name ∈ names) : Lists instruments.toList names :=
  ⟨Std.ExtTreeSet.ordered_toList, fun name ↦ Std.ExtTreeSet.mem_toList.trans (h name)⟩

/-- The operations before the websocket is there. -/
def Op.isConnecting : Op → Bool
  | resolve | connect | sslHandshake | wsHandshake => true
  | _ => false

/-- The request for the instruments, and what leads to it. -/
def Op.isRequest : Op → Bool
  | run | rest _ | retry => true
  | _ => false

/-- The reads of messages. -/
def Op.isRead : Op → Bool
  | firstRead | read => true
  | _ => false

/-- What the handler of an operation does with a stream and with what it has been told, and the
operations it starts. -/
inductive Turn (s : OkexStream) (t : Told) :
    Op → Delivery → OkexStream × Told → List Op → Prop where
  | requests {op : Op} {result : Completion} {started : List Op} (hlen : started.length ≤ 1)
      (hrequest : ∀ o ∈ started, o.isRequest = true) :
      Turn s t op (.completed result) (s, t) started
  | breaksOff {result : Completion} (names : List Bytes) :
      Turn s t (.rest .read) (.completed result) ({ s with instruments := insertAll ∅ names },
        { t with named := t.named ++ names }) []
  | responds {result : Completion} (names : List Bytes) :
      Turn s t (.rest .read) (.completed result) ({ s with instruments := insertAll ∅ names },
        { named := t.named ++ names, listed := names }) [.resolve]
  | connects {op next : Op} {result : Completion} (hop : op.isConnecting = true)
      (hnext : next.isConnecting = true) : Turn s t op (.completed result) (s, t) [next]
  | throws {op : Op} {result : Completion} :
      Turn s t op (.completed result) ({ s with instruments := ∅ }, t) []
  | subscribes {result : Completion} :
      Turn s t .wsHandshake (.completed result) ({ s with instruments := ∅ }, t)
        [.write s.instruments.toList]
  | written {names : List Bytes} {result : Completion} :
      Turn s t (.write names) (.completed result) (s, { t with subscribed := some names })
        [.firstRead]
  | interprets {op : Op} {result : Completion} (names : List Bytes) (hop : op.isRead = true) :
      Turn s t op (.completed result) ({ s with instruments := insertAll s.instruments names },
        { t with named := t.named ++ names }) [.read]
  | closes {op : Op} (hop : op.isRead = true) : Turn s t op .closeFrame (s, t) [op, .retry]

variable {parse : JsonParse} {stod : Bytes → Except StdException ℚ} {s s' : OkexStream} {t : Told}

/-- `m_instruments.insert` for each item. -/
private theorem emits_processPushedInstrumentsData (dataList : List Json) :
    Emits (fun pushed name ↦ push pushed (.inl name))
      (OkexStream.processPushedInstrumentsData dataList)
      (dataList.map fun dataJson ↦ do
        let dataObject ← dataJson.getObject
        text dataObject "instId") := by
  refine emits_forM_map (fun dataJson ↦ ?_) dataList
  rw [← behind_singleton]
  refine .lift_bind fun dataObject ↦ ?_
  rw [show [text dataObject "instId"] = behind (text dataObject "instId") fun name ↦ [.ok name] by
    cases text dataObject "instId" <;> rfl]
  exact .lift_bind fun name _ ↦ rfl

private theorem foldl_push_inl (names : List Bytes) (pushed : Pushed) :
    names.foldl (fun pushed name ↦ push pushed (.inl name)) pushed =
      { pushed with instruments := insertAll pushed.instruments names } := by
  induction names generalizing pushed with
  | nil => rfl
  | cons name names ih =>
    rw [List.foldl_cons, ih]
    rfl

/-- A list that is read replaces what the stream has known. -/
private theorem processList_eq (dataList : List Json) (pushed : Pushed) :
    let items : List (Except StdException Bytes) := dataList.map fun dataJson ↦ do
      let dataObject ← dataJson.getObject
      text dataObject "instId"
    (do
      modify fun pushed ↦ { pushed with instruments := ∅ }
      OkexStream.processPushedInstrumentsData dataList
      pure true : Processing Bool) pushed =
      ((firstError items).map fun _ ↦ true,
        { pushed with instruments := insertAll ∅ (firstOks items) }) := by
  intro items
  have hrun := emits_processPushedInstrumentsData dataList { pushed with instruments := ∅ }
  rw [foldl_push_inl] at hrun
  rw [Throwing.bind_ok (x := modify _) rfl]
  change _ = (firstError items, _) at hrun
  cases herror : firstError items with
  | ok u =>
    rw [herror] at hrun
    rw [Throwing.bind_ok hrun]
    rfl
  | error e =>
    rw [herror] at hrun
    rw [Throwing.bind_error hrun]
    rfl

/-- A response is read if it has items, and then up to the first that cannot be read. -/
private theorem processInstruments_eq (parse : JsonParse) (data : Bytes) (pushed : Pushed) :
    (∃ items, responseItems parse data = some items ∧
      OkexStream.processInstruments parse data pushed =
        ((firstError items).map fun _ ↦ true,
          { pushed with instruments := insertAll ∅ (firstOks items) })) ∨
    (responseItems parse data = none ∧ ∃ result, result ≠ .ok true ∧
      OkexStream.processInstruments parse data pushed = (result, pushed)) := by
  unfold OkexStream.processInstruments responseItems
  cases hjson : parse data with
  | error e => exact .inr ⟨rfl, .error e, by simp, rfl⟩
  | ok json =>
    rw [Throwing.lift_bind_ok rfl]
    change (∃ items, (match json.getObject with | .ok obj => _ | .error _ => none) = some items ∧
      _) ∨ ((match json.getObject with | .ok obj => _ | .error _ => none) = none ∧ _)
    cases hobj : json.getObject with
    | error e => exact .inr ⟨rfl, .error e, by simp, rfl⟩
    | ok obj =>
      rw [Throwing.lift_bind_ok rfl]
      dsimp only
      cases hcode : obj.find (bytes "code") with
      | none => exact .inr ⟨rfl, .ok false, by simp, rfl⟩
      | some code =>
        dsimp only [Option.map_some]
        cases htext : code.getString with
        | error e => exact .inr ⟨rfl, .error e, by simp, rfl⟩
        | ok codeText =>
          rw [Throwing.lift_bind_ok rfl]
          by_cases hzero : codeText = bytes "0"
          · rw [if_neg (not_not.mpr hzero)]
            cases hdata : obj.find (bytes "data") with
            | none => exact .inr ⟨rfl, .ok false, by simp, rfl⟩
            | some value =>
              cases value with
              | array dataList => exact .inl ⟨_, if_pos hzero, processList_eq dataList pushed⟩
              | _ => exact .inr ⟨rfl, .ok false, by simp, rfl⟩
          · rw [if_pos hzero]
            cases hdata : obj.find (bytes "data") with
            | none => exact .inr ⟨rfl, .ok false, by simp, rfl⟩
            | some value =>
              cases value with
              | array dataList => exact .inr ⟨if_neg hzero, .ok false, by simp, rfl⟩
              | _ => exact .inr ⟨rfl, .ok false, by simp, rfl⟩

private theorem turn_restApiOnDataReceived {data : Bytes} {actions : List (Action InstrumentType)}
    {started : List Op} (h : s.restApiOnDataReceived parse data = (s', actions, started)) :
    Turn s t (.rest .read) (.completed (.success data))
      (s', t.note parse stod s.tradeType (.rest .read) (.completed (.success data))) started := by
  unfold OkexStream.restApiOnDataReceived at h
  unfold Told.note
  dsimp only
  rcases processInstruments_eq parse data { instruments := s.instruments } with
    ⟨items, hitems, hrun⟩ | ⟨hitems, result, hresult, hrun⟩
  · rw [hrun] at h
    rw [hitems]
    dsimp only
    cases herror : firstError items with
    | ok u =>
      rw [herror] at h
      obtain ⟨rfl, -, rfl⟩ := h
      exact .responds _
    | error e =>
      rw [herror] at h
      obtain ⟨rfl, -, rfl⟩ := h
      exact .breaksOff _
  · rw [hrun] at h
    rw [hitems]
    split at h
    · next hok => exact absurd (Prod.mk.inj hok).1 hresult
    · next hok =>
      obtain ⟨-, rfl⟩ := Prod.mk.inj hok
      obtain ⟨rfl, -, rfl⟩ := h
      exact .requests (Nat.zero_le 1) (List.forall_mem_nil _)

private theorem turn_tickerSubscribe {result : Completion} {actions : List (Action InstrumentType)}
    {started : List Op} (h : s.tickerSubscribe = (s', actions, started)) :
    Turn s t .wsHandshake (.completed result) (s', t) started := by
  unfold OkexStream.tickerSubscribe at h
  dsimp only at h
  split at h
  · obtain ⟨rfl, hrest⟩ := Prod.mk.inj h
    obtain ⟨-, rfl⟩ := Prod.mk.inj hrest
    exact .subscribes
  · obtain ⟨rfl, hrest⟩ := Prod.mk.inj h
    obtain ⟨-, rfl⟩ := Prod.mk.inj hrest
    exact .throws

/-- Every handler does what its turn says. -/
theorem turn_of_complete {empty : Bool} {op : Op} {delivery : Delivery}
    {actions : List (Action InstrumentType)} {started : List Op}
    (h : s.complete parse stod empty op delivery = some (s', actions, started)) :
    Turn s t op delivery (s', t.note parse stod s.tradeType op delivery) started := by
  cases delivery with
  | closeFrame =>
    cases op with
    | read | firstRead =>
      obtain ⟨rfl, rfl, rfl⟩ := Option.some.inj h
      exact .closes rfl
    | _ => cases h
  | completed result =>
    cases op with
    | run | retry =>
      obtain ⟨rfl, -, rfl⟩ := Option.some.inj h
      exact .requests (Nat.le_refl 1) (by decide)
    | rest op =>
      cases result with
      | success data =>
        cases op with
        | read => exact turn_restApiOnDataReceived (Option.some.inj h)
        | _ =>
          obtain ⟨rfl, -, rfl⟩ := Option.some.inj h
          exact .requests (Nat.le_refl 1) (by decide)
      | _ =>
        cases op <;>
        · obtain ⟨rfl, -, rfl⟩ := Option.some.inj h
          exact .requests (Nat.le_refl 1) (by decide)
    | read | firstRead =>
      cases result with
      | success buffer =>
        have heq := interpretGenericMessages_eq parse stod s buffer
        obtain ⟨rfl, -, rfl⟩ := heq.symm.trans (Option.some.inj h)
        exact .interprets _ rfl
      | _ =>
        obtain ⟨rfl, -, rfl⟩ := Option.some.inj h
        exact .requests (by decide) (by decide)
    | wsHandshake =>
      cases result with
      | success data => exact turn_tickerSubscribe (Option.some.inj h)
      | _ =>
        obtain ⟨rfl, -, rfl⟩ := Option.some.inj h
        exact .requests (Nat.le_refl 1) (by decide)
    | write names =>
      cases result with
      | success data =>
        obtain ⟨rfl, -, rfl⟩ := Option.some.inj h
        exact .written
      | _ =>
        obtain ⟨rfl, -, rfl⟩ := Option.some.inj h
        exact .requests (Nat.le_refl 1) (by decide)
    | _ =>
      cases result with
      | success data =>
        obtain ⟨rfl, -, rfl⟩ := Option.some.inj h
        exact .connects rfl rfl
      | _ =>
        obtain ⟨rfl, -, rfl⟩ := Option.some.inj h
        exact .requests (by decide) (by decide)

/-! ### Every run -/

/-- The stream knows only instruments that it has been told of. -/
private def Told.Covers (tradeType : TradeType) (s : OkexStream × Told) : Prop :=
  s.1.tradeType = tradeType ∧ ∀ name ∈ s.1.instruments, name ∈ s.2.named

/-- It subscribes to nothing else, and to nothing twice. -/
private def Told.CoversWrite (s : OkexStream × Told) (op : Op) : Prop :=
  ∀ names, op = .write names →
    names.Pairwise (fun a b ↦ compare a b = .lt) ∧ ∀ name ∈ names, name ∈ s.2.named

/-- What an operation needs while no close frame arrives: the instruments that have been listed are
there until the stream subscribes to them, and it reads when it has. -/
private def Told.Fits (s : OkexStream × Told) : Op → Prop
  | .resolve | .connect | .sslHandshake | .wsHandshake =>
    ∀ name, name ∈ s.1.instruments ↔ name ∈ s.2.listed
  | .write names => Lists names s.2.listed
  | .firstRead | .read => ∃ names, s.2.subscribed = some names ∧ Lists names s.2.listed
  | _ => True

private theorem fits_of_isRequest {s : OkexStream × Told} {op : Op} (h : op.isRequest = true) :
    Told.Fits s op := by
  cases op with
  | run | rest op | retry => exact True.intro
  | _ => cases h

private theorem fits_iff_of_isConnecting {s : OkexStream × Told} {op : Op}
    (h : op.isConnecting = true) :
    Told.Fits s op ↔ ∀ name, name ∈ s.1.instruments ↔ name ∈ s.2.listed := by
  cases op with
  | resolve | connect | sslHandshake | wsHandshake => exact Iff.rfl
  | _ => cases h

private theorem fits_iff_of_isRead {s : OkexStream × Told} {op : Op} (h : op.isRead = true) :
    Told.Fits s op ↔ ∃ names, s.2.subscribed = some names ∧ Lists names s.2.listed := by
  cases op with
  | firstRead | read => exact Iff.rfl
  | _ => cases h

variable {r : OkexStream × Told} {op : Op} {delivery : Delivery} {started : List Op}

/-- What a turn does to the names: none that the stream has been told of is forgotten, and the
stream keeps or subscribes to no others. -/
private theorem names_of_turn (hturn : Turn s t op delivery r started) :
    r.1.tradeType = s.tradeType ∧ (∀ name ∈ t.named, name ∈ r.2.named) ∧
      (∀ name ∈ r.1.instruments, name ∈ s.instruments ∨ name ∈ r.2.named) ∧
        ∀ names, .write names ∈ started → names = s.instruments.toList := by
  cases hturn with
  | requests hlen hrequest =>
    exact ⟨rfl, fun _ h ↦ h, fun _ h ↦ .inl h, fun names h ↦ by cases hrequest _ h⟩
  | breaksOff names | responds names =>
    refine ⟨rfl, fun _ h ↦ List.mem_append_left _ h, fun name h ↦ .inr ?_, by simp⟩
    have hname : name ∈ names := by simpa [mem_insertAll] using h
    exact List.mem_append_right _ hname
  | connects hthis hnext =>
    refine ⟨rfl, fun _ h ↦ h, fun _ h ↦ .inl h, fun names h ↦ ?_⟩
    rw [← List.mem_singleton.mp h] at hnext
    cases hnext
  | throws => exact ⟨rfl, fun _ h ↦ h, fun _ h ↦ by simp at h, by simp⟩
  | subscribes => exact ⟨rfl, fun _ h ↦ h, fun _ h ↦ by simp at h, by simp⟩
  | written => exact ⟨rfl, fun _ h ↦ h, fun _ h ↦ .inl h, by simp⟩
  | interprets names hread =>
    refine ⟨rfl, fun _ h ↦ List.mem_append_left _ h, fun name h ↦ ?_, by simp⟩
    exact (mem_insertAll.mp h).imp_right (List.mem_append_right _)
  | closes hread =>
    refine ⟨rfl, fun _ h ↦ h, fun _ h ↦ .inl h, fun names h ↦ ?_⟩
    rcases List.mem_pair.mp h with rfl | h
    · cases hread
    · cases h

private theorem covers_of_turn {tradeType : TradeType} (hturn : Turn s t op delivery r started)
    (hs : Told.Covers tradeType (s, t)) :
    Told.Covers tradeType r ∧ (∀ o ∈ started, Told.CoversWrite r o) ∧
      ∀ o, Told.CoversWrite (s, t) o → Told.CoversWrite r o := by
  obtain ⟨htype, hinstruments⟩ := hs
  obtain ⟨hkept, hgrow, hknown, hwrite⟩ := names_of_turn hturn
  refine ⟨⟨hkept.trans htype, fun name h ↦ ?_⟩, ?_, fun o ho names hnames ↦ ?_⟩
  · exact (hknown name h).elim (fun h ↦ hgrow name (hinstruments name h)) id
  · rintro o ho names rfl
    rw [hwrite names ho]
    refine ⟨Std.ExtTreeSet.ordered_toList, fun name h ↦ ?_⟩
    exact hgrow name (hinstruments name (Std.ExtTreeSet.mem_toList.mp h))
  · exact (ho names hnames).imp_right fun h name hname ↦ hgrow name (h name hname)

private theorem fits_of_turn (hturn : Turn s t op delivery r started) (hop : Told.Fits (s, t) op)
    (hclose : delivery ≠ .closeFrame) : started.length ≤ 1 ∧ ∀ o ∈ started, Told.Fits r o := by
  cases hturn with
  | requests hlen hrequest => exact ⟨hlen, fun o ho ↦ fits_of_isRequest (hrequest o ho)⟩
  | breaksOff names | throws => exact ⟨Nat.zero_le 1, List.forall_mem_nil _⟩
  | responds names =>
    refine ⟨Nat.le_refl 1, List.forall_mem_singleton.mpr fun name ↦ ?_⟩
    simp [mem_insertAll]
  | connects hthis hnext =>
    rw [fits_iff_of_isConnecting hthis] at hop
    exact ⟨Nat.le_refl 1,
      List.forall_mem_singleton.mpr ((fits_iff_of_isConnecting hnext).mpr hop)⟩
  | subscribes => exact ⟨Nat.le_refl 1, List.forall_mem_singleton.mpr (lists_toList hop)⟩
  | written => exact ⟨Nat.le_refl 1, List.forall_mem_singleton.mpr ⟨_, rfl, hop⟩⟩
  | interprets names hread =>
    rw [fits_iff_of_isRead hread] at hop
    exact ⟨Nat.le_refl 1, List.forall_mem_singleton.mpr hop⟩
  | closes hread => exact absurd rfl hclose

/-- What a stream has been told in a run of the streams. -/
def toldIn (parse : JsonParse) (stod : Bytes → Except StdException ℚ) (watcher : OkexWatcher)
    (events : List (Event OkexWatcher Op Delivery InstrumentType)) : Told :=
  (events.filterMap (Event.moveOf watcher)).foldl
    (Move.noted fun t op delivery ↦ t.note parse stod watcher.tradeType op delivery) {}

/-- No close frame arrives at a stream. -/
def NoCloseFrame (watcher : OkexWatcher)
    (events : List (Event OkexWatcher Op Delivery InstrumentType)) : Prop :=
  ∀ op empty, .move watcher (.complete op .closeFrame empty) ∉ events

private theorem turn_of_recorded {tradeType : TradeType} {empty : Bool}
    {actions : List (Action InstrumentType)} (htype : s.tradeType = tradeType)
    (h : recorded (OkexStream.complete parse stod)
      (fun t op delivery ↦ Told.note parse stod tradeType t op delivery) (s, t) empty op delivery =
        some (r, actions, started)) : Turn s t op delivery r started := by
  obtain ⟨hcomplete, hnote⟩ := of_recorded h
  have hturn := turn_of_complete (t := t) hcomplete
  rw [htype, ← hnote] at hturn
  exact hturn

variable {tradeType : TradeType} {moves : List (Move Op Delivery InstrumentType)}
  {p : Process (OkexStream × Told) Op InstrumentType}

private theorem keeps_run (hrun : Transition.run (move (recorded (OkexStream.complete parse stod)
      fun t op delivery ↦ Told.note parse stod tradeType t op delivery))
      { object := ({ tradeType := tradeType }, {}), tasks := [.op .run] } moves = some p) :
    Keeps (Told.Covers tradeType) Told.CoversWrite p := by
  refine Transition.inv_run (fun p m p' hp hm ↦ keeps_move ?_ hp hm) ?_ hrun
  · intro r empty op delivery r' actions started hr _ h
    exact covers_of_turn (turn_of_recorded hr.1 h) hr
  · refine ⟨⟨rfl, fun name h ↦ by simp at h⟩, ?_⟩
    rintro t ht o ho names rfl
    rw [List.mem_singleton.mp ht] at ho
    cases List.mem_singleton.mp ho

/-- Without close frames the operations of a stream are one chain. -/
private theorem chain_run (hrun : Transition.run (move (recorded (OkexStream.complete parse stod)
      fun t op delivery ↦ Told.note parse stod tradeType t op delivery))
      { object := ({ tradeType := tradeType }, {}), tasks := [.op .run] } moves = some p)
    (hclose : ∀ op empty, .complete op .closeFrame empty ∉ moves) :
    Chain (fun r ↦ r.1.tradeType = tradeType) Told.Fits p := by
  refine Transition.inv_run_of_mem (fun p m hm p' hp hmove ↦ ?_) ?_ hrun
  · refine chain_move (Θ := fun _ m ↦ ∀ op empty, m ≠ .complete op .closeFrame empty) ?_ hp ?_ hmove
    · intro r empty op delivery r' actions started hΘ hr hop h
      have hturn := turn_of_recorded hr h
      obtain ⟨hlen, hfits⟩ := fits_of_turn hturn hop fun hdelivery ↦
        hΘ op empty (by rw [hdelivery])
      exact ⟨(names_of_turn hturn).1.trans hr, hlen, hfits⟩
    · rintro op empty rfl
      exact hclose op empty hm
  · refine ⟨Nat.le_refl 1, ?_, rfl, ?_⟩
    · exact List.forall_mem_singleton.mpr (Nat.le_refl 1)
    · exact List.forall_mem_singleton.mpr (List.forall_mem_singleton.mpr True.intro)

/-- In every run of the streams of OKX with the sender: a stream subscribes only to instruments
that it has been told of, to each once; and as long as no close frame arrives it subscribes to
exactly the instruments that the last response has listed, and reads only when it has. -/
theorem subscribed_of_run {events : List (Event OkexWatcher Op Delivery InstrumentType)}
    {s : System OkexWatcher OkexStream Op InstrumentType}
    (hrun : Transition.run (step (OkexStream.complete parse stod)) okexchangePriceWatcher events =
      some s) (watcher : OkexWatcher) :
    (∀ names, .op (.write names) ∈ (s.process watcher).tasks →
      names.Pairwise (fun a b ↦ compare a b = .lt) ∧
        ∀ name ∈ names, name ∈ (toldIn parse stod watcher events).named) ∧
    (NoCloseFrame watcher events →
      (∀ names, .op (.write names) ∈ (s.process watcher).tasks →
        Lists names (toldIn parse stod watcher events).listed) ∧
      (.op .firstRead ∈ (s.process watcher).tasks ∨ .op .read ∈ (s.process watcher).tasks →
        ∃ names, (toldIn parse stod watcher events).subscribed = some names ∧
          Lists names (toldIn parse stod watcher events).listed)) := by
  have hmoves : Transition.run (move (recorded (OkexStream.complete parse stod)
      fun t op delivery ↦ Told.note parse stod watcher.tradeType t op delivery)) _ _ = some _ :=
    run_recorded (run_process hrun watcher) {}
  constructor
  · intro names hwrite
    exact (keeps_run hmoves).op _ hwrite _ (List.mem_singleton.mpr rfl) names rfl
  · intro hclose
    have hchain := chain_run hmoves (fun op empty hmem ↦ ?_)
    · refine ⟨fun names hwrite ↦ hchain.op _ hwrite (.write names) (List.mem_singleton.mpr rfl), ?_⟩
      rintro (hread | hread)
      · exact hchain.op _ hread .firstRead (List.mem_singleton.mpr rfl)
      · exact hchain.op _ hread .read (List.mem_singleton.mpr rfl)
    · obtain ⟨e, he, hmove⟩ := List.mem_filterMap.mp hmem
      rw [of_moveOf hmove] at he
      exact hclose op empty he

/-- A response that lists two instruments, one of them twice. -/
private def listParse : JsonParse := fun _ ↦
  .ok (.object [(bytes "code", .string (bytes "0")),
    (bytes "data", .array (["ETH-USDT", "BTC-USDT", "ETH-USDT"].map fun name ↦
      .object [(bytes "instId", .string (bytes name))]))])

/-- The spot stream gets its list and begins to subscribe, while the swap stream is called. -/
private def subscribingRun : List (Event OkexWatcher Op Delivery InstrumentType) :=
  .move .spotStream (.complete .run (.completed (.success [])) true) ::
    .move .swapStream (.complete .run (.completed (.success [])) true) ::
    [RestOp.resolve, .connect, .sslHandshake, .write, .read].map (fun op ↦
      .move .spotStream (.complete (.rest op) (.completed (.success [])) true)) ++
    [.move .spotStream (.act .clear [] [.resolve])] ++
    [Op.resolve, .connect, .sslHandshake, .wsHandshake].map (fun op ↦
      .move .spotStream (.complete op (.completed (.success [])) true))

/-- It subscribes to each of the two. -/
theorem subscribed_of_run_twice :
    ∃ s, Transition.run (step (OkexStream.complete listParse fun _ ↦ .error .invalidArgument))
        okexchangePriceWatcher subscribingRun = some s ∧
      .op (.write [bytes "BTC-USDT", bytes "ETH-USDT"]) ∈ (s.process .spotStream).tasks ∧
      Lists [bytes "BTC-USDT", bytes "ETH-USDT"]
        (toldIn listParse (fun _ ↦ .error .invalidArgument) .spotStream subscribingRun).listed := by
  have hrun : (Transition.run (step (OkexStream.complete listParse fun _ ↦ .error .invalidArgument))
      okexchangePriceWatcher subscribingRun).map (fun s ↦ (s.process .spotStream).tasks) =
      some [.op (.write [bytes "BTC-USDT", bytes "ETH-USDT"])] := by
    decide +kernel
  obtain ⟨s, hs, htasks⟩ := Option.map_eq_some_iff.mp hrun
  have hwrite : .op (.write [bytes "BTC-USDT", bytes "ETH-USDT"]) ∈
      (s.process .spotStream).tasks := by
    rw [htasks]
    exact List.mem_singleton.mpr rfl
  have hclose : NoCloseFrame .spotStream subscribingRun := by
    intro op empty h
    simp [subscribingRun] at h
  exact ⟨s, hs, hwrite, ((subscribed_of_run hs .spotStream).2 hclose).1 _ hwrite⟩

end KeepMyJournal.PriceMonitor.Okex
