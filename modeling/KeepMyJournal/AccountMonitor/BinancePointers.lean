import KeepMyJournal.AccountMonitor.BinanceStream
import KeepMyJournal.Base.Queued

/-!
# The pointers of the Binance account stream

The handlers of `binance_stream_t` in every order in which they can run once their operations
are over. `on_ws_connection_severed` (`account_monitor/src/binance_user_stream.cpp:335–352`)
resets four pointers while other handlers are queued; `on_periodic_time_timeout` is posted and
tests none of them. A stream that is replaced or reset ends what is in progress on it, and so
does a timer.

The websocket is closed before the pointers are reset, and Beast's `close` fails on one whose read
has failed: nothing catches what it throws, and no handler runs after it. What the order of the
handlers alone guards is said for a `close` that may return.
-/

namespace KeepMyJournal.AccountMonitor.Binance

open KeepMyJournal.Base KeepMyJournal.Base.Queued KeepMyJournal.Common

/-- The operation uses the websocket stream; the REST client works on its lower layer. -/
def Op.onWebStream : Op → Bool
  | .rest op => op != .resolve
  | .connect | .sslHandshake | .wsHandshake | .read | .close => true
  | _ => false

/-- The operation uses the resolver. -/
def Op.onResolver : Op → Bool
  | .rest .resolve | .resolve => true
  | _ => false

/-- The operations in progress that end when this one is started. -/
def endedBy : Op → Op → Bool
  -- `rest_api_initiate_connection` replaces the stream and the resolver and resets the timers
  | .rest .resolve, op =>
    op.onWebStream || op.onResolver || op == .listenKeyTimer || op == .onErrorTimer
  -- `ws_initiate_connection` replaces the stream and the resolver
  | .resolve, op => op.onWebStream || op.onResolver
  | .connect, op => op.onResolver
  -- `on_ws_connection_severed` resets the stream and the timer and replaces the other timer
  | .onErrorTimer, op => op.onWebStream || op == .listenKeyTimer || op == .onErrorTimer
  -- `expires_after`, and the `cancel` before the post
  | .listenKeyTimer, op | .periodicTimeout, op => op == .listenKeyTimer
  | _, _ => false

/-- How the operations of a stream end; `on_periodic_time_timeout` is posted. -/
def rules : Rules Op Completion where
  ends := endedBy
  aborted := .aborted
  posted op := if op = .periodicTimeout then some (.success []) else none

/-- A stream and the operations whose handlers have not run. -/
abbrev QueuedState := Queued.State BinanceStream Op Completion

/-- What can happen to it. -/
abbrev QueuedEvent := Queued.Event FrameType Op Completion

/-- The stream right after `run`. -/
def started : QueuedState := rules.put [] (BinanceStream.run {})

/-- The event runs `on_ws_connection_severed`. -/
def Severs (s : BinanceStream) : QueuedEvent → Prop
  | .notify frameType => frameType = .close ∧ s.isStopped = false
  | .handle op result => op = .read ∧ result.isSuccess = false
  | _ => False

/-- `on_ws_connection_severed` does not run while `on_periodic_time_timeout` is posted. -/
def SparesPosted (s : QueuedState) (e : QueuedEvent) : Prop :=
  Severs s.object e → ∀ p ∈ s.pending, p.op ≠ .periodicTimeout

/-- The queued handler is that of a read, of an expired listen-key wait or of an expired wait of
the error timer. -/
def isStale (p : Pending Op Completion) : Bool :=
  p.result.any fun result ↦
    p.op == .read || result.isSuccess && (p.op == .listenKeyTimer || p.op == .onErrorTimer)

/-- A reconnect does not run before such a handler that is queued already. -/
def InTurn (s : QueuedState) : QueuedEvent → Prop
  | .handle .onErrorTimer result =>
    result.isSuccess = true → s.object.isStopped = false →
      ∀ p ∈ s.pending.erase { op := .onErrorTimer, result := some result }, isStale p = false
  | _ => True

instance (s : BinanceStream) (e : QueuedEvent) : Decidable (Severs s e) := by
  unfold Severs
  split <;> infer_instance

instance (s : QueuedState) (e : QueuedEvent) : Decidable (SparesPosted s e) := by
  unfold SparesPosted
  infer_instance

instance (s : QueuedState) (e : QueuedEvent) : Decidable (InTurn s e) := by
  unfold InTurn
  split <;> infer_instance

/-! ### What every order keeps -/

/-- The operations of a connection, one after the other. -/
def Op.isConnection : Op → Bool
  | .rest _ | .resolve | .connect | .sslHandshake | .wsHandshake | .read => true
  | _ => false

/-- What the object is like while an operation is pending. -/
def Fits (s : BinanceStream) (p : Pending Op Completion) : Prop :=
  match p.op with
  | .rest _ => s.sslWebStream = true ∧ s.listenKeyTimer = false
  | .resolve | .connect | .sslHandshake | .wsHandshake =>
    s.sslWebStream = true ∧ s.listenKeyTimer = false ∧ s.listenKey.isSome = true
  | .read => p.live Completion.isSuccess = true → s.sslWebStream = true ∧ s.buffer = true
  | .periodicTimeout => s.listenKeyTimer = true
  | .listenKeyTimer =>
    p.live Completion.isSuccess = true → s.sslWebStream = true →
      s.listenKey.isSome = true ∧ s.listenKeyTimer = true
  | .onErrorTimer =>
    p.live Completion.isSuccess = true → s.sslWebStream = false ∧ s.listenKeyTimer = false
  | .close | .keepalive _ => True

/-- The invariant of a stream whose handlers run in turn. -/
structure Inv (s : QueuedState) : Prop where
  chained : Chained Op.isConnection Fits s
  keyed : s.object.sslWebStream = true → s.object.listenKeyTimer = true →
    s.object.listenKey.isSome = true

private theorem fits_settle {s : BinanceStream} (op : Op) (result : Completion)
    (h : Fits s { op := op }) : Fits s { op := op, result := some result } := by
  cases op with
  | read | listenKeyTimer | onErrorTimer => exact fun _ ↦ h rfl
  | _ => exact h

/-- While a connection is made, no timer is live, and so any object fits what is pending beside
it. -/
private theorem fits_connecting {s s' : BinanceStream} {p : Pending Op Completion}
    {next : List Op} (hstream : s.sslWebStream = true) (htimer : s.listenKeyTimer = false)
    (hp : p.op.isConnection = false) (hfits : Fits s p) : Fits s' (rules.endBy next p) := by
  unfold Fits at hfits ⊢
  rw [op_endBy]
  cases hop : p.op with
  | close | keepalive _ => exact True.intro
  | periodicTimeout =>
    rw [hop] at hfits
    cases htimer.symm.trans hfits
  | listenKeyTimer =>
    rw [hop] at hfits
    intro hlive
    cases htimer.symm.trans (hfits (live_of_endBy hlive) hstream).2
  | onErrorTimer =>
    rw [hop] at hfits
    intro hlive
    cases hstream.symm.trans (hfits (live_of_endBy hlive)).1
  | _ =>
    rw [hop] at hp
    cases hp

variable {parse : JsonParse} {closeReturns : Severance → Bool} {s s' : QueuedState}
  {p : Pending Op Completion}

/-- A handler that keeps the object. -/
private theorem inv_kept (hs : Inv s) (hp : p ∈ s.pending) {next : List Op}
    (hcount : next.countP Op.isConnection ≤ if p.op.isConnection = true then 1 else 0)
    (hnext : ∀ op ∈ next, Fits s.object (rules.start op)) :
    Inv (rules.put (s.pending.erase p) (s.object, next)) := by
  refine ⟨chained_put ?_ ?_ hnext, hs.keyed⟩
  · have hone := hs.chained.one
    rw [← countP_erase _ hp] at hone
    dsimp only
    omega
  · intro q hq
    exact fits_endBy fits_settle (hs.chained.fits q (List.mem_of_mem_erase hq))

/-- The handler of an operation of the connection, which may change the object. -/
private theorem inv_moved (hs : Inv s) (hp : p ∈ s.pending) (hchain : p.op.isConnection = true)
    {r : BinanceStream × List Op} (hcount : r.2.countP Op.isConnection ≤ 1)
    (hrest : ∀ q, q.op.isConnection = false → Fits s.object q → Fits r.1 (rules.endBy r.2 q))
    (hnext : ∀ op ∈ r.2, Fits r.1 (rules.start op))
    (hkeyed : r.1.sslWebStream = true → r.1.listenKeyTimer = true → r.1.listenKey.isSome = true) :
    Inv (rules.put (s.pending.erase p) r) := by
  refine ⟨chained_put ?_ ?_ hnext, hkeyed⟩
  · have hone := hs.chained.one
    rw [← countP_erase _ hp, if_pos hchain] at hone
    omega
  · intro q hq
    exact hrest q (hs.chained.not_chain_of_mem_erase hp hchain hq)
      (hs.chained.fits q (List.mem_of_mem_erase hq))

/-- `on_ws_connection_severed` where nothing is posted and no connection is in progress but the
read that is ended. -/
private theorem inv_severed {rest : List (Pending Op Completion)} {o : BinanceStream}
    (hone : rest.countP (fun q ↦ q.op.isConnection) ≤ 1)
    (hrest : ∀ q ∈ rest, q.op ≠ .periodicTimeout ∧
      (q.op.isConnection = true → q.op = .read ∧ q.result = none)) :
    Inv (rules.put rest o.severed) := by
  refine ⟨chained_put hone ?_ ?_, nofun⟩
  · intro q hq
    obtain ⟨hposted, hread⟩ := hrest q hq
    unfold Fits
    rw [op_endBy]
    cases hop : q.op with
    | close | keepalive _ => exact True.intro
    | listenKeyTimer => exact fun _ hstream ↦ nomatch hstream
    | onErrorTimer => exact fun _ ↦ ⟨rfl, rfl⟩
    | periodicTimeout => exact absurd hop hposted
    | read =>
      intro hlive
      have hnone := (hread (by rw [hop]; rfl)).2
      have htimer : Op.onErrorTimer ∈ o.severed.2 := List.mem_cons_self
      obtain ⟨result, hresult, -⟩ := result_of_live_endBy htimer (by rw [hop]; rfl) rfl hlive
      cases hnone.symm.trans hresult
    | _ => cases hop.symm.trans (hread (by rw [hop]; rfl)).1
  · intro op hop
    rw [List.mem_singleton.mp hop]
    exact fun _ ↦ ⟨rfl, rfl⟩

/-- `rest_api_initiate_connection` from the error timer, which runs in turn. -/
private theorem inv_initiated {data : Bytes} (hs : Inv s)
    (hp : { op := .onErrorTimer, result := some (.success data) } ∈ s.pending)
    (hrunning : s.object.isStopped = false)
    (hturn : ∀ q ∈ s.pending.erase { op := .onErrorTimer, result := some (.success data) },
      isStale q = false) :
    Inv (rules.put (s.pending.erase { op := .onErrorTimer, result := some (.success data) })
      s.object.restApiInitiateConnection) := by
  obtain ⟨hstream, htimer⟩ : s.object.sslWebStream = false ∧ s.object.listenKeyTimer = false :=
    hs.chained.fits _ hp rfl
  have hidle : ∀ q ∈ s.pending.erase { op := .onErrorTimer, result := some (.success data) },
      q.op.isConnection = false := by
    intro q hq
    have hfits := hs.chained.fits q (List.mem_of_mem_erase hq)
    have hstale := hturn q hq
    unfold Fits at hfits
    unfold isStale at hstale
    cases hop : q.op with
    | read =>
      rw [hop] at hfits hstale
      cases hresult : q.result with
      | none =>
        have hlive : q.live Completion.isSuccess = true := by
          unfold Pending.live
          rw [hresult]
          rfl
        cases hstream.symm.trans (hfits hlive).1
      | some result =>
        rw [hresult] at hstale
        cases hstale
    | rest _ | resolve | connect | sslHandshake | wsHandshake =>
      rw [hop] at hfits
      cases hstream.symm.trans hfits.1
    | _ => rfl
  unfold BinanceStream.restApiInitiateConnection
  rw [hrunning]
  refine ⟨chained_put ?_ ?_ ?_, nofun⟩
  · rw [List.countP_eq_zero.mpr fun q hq ↦ Bool.eq_false_iff.mp (hidle q hq)]
    exact Nat.le_refl 1
  · intro q hq
    have hfits := hs.chained.fits q (List.mem_of_mem_erase hq)
    have hstale := hturn q hq
    have hdead : q.op = .listenKeyTimer ∨ q.op = .onErrorTimer →
        ¬(rules.endBy [.rest .resolve] q).live Completion.isSuccess = true := by
      intro hop hlive
      obtain ⟨result, hresult, hsuccess⟩ := result_of_live_endBy (List.mem_singleton_self _)
        (by rcases hop with hop | hop <;> rw [hop] <;> rfl) rfl hlive
      unfold isStale at hstale
      rw [hresult] at hstale
      rcases hop with hop | hop <;> simp [hop, hsuccess] at hstale
    unfold Fits at hfits ⊢
    rw [op_endBy]
    cases hop : q.op with
    | close | keepalive _ => exact True.intro
    | listenKeyTimer => exact fun hlive ↦ absurd hlive (hdead (.inl hop))
    | onErrorTimer => exact fun hlive ↦ absurd hlive (hdead (.inr hop))
    | periodicTimeout =>
      rw [hop] at hfits
      cases htimer.symm.trans hfits
    | _ =>
      have hchain := hidle q hq
      rw [hop] at hchain
      cases hchain
  · intro op hop
    rw [List.mem_singleton.mp hop]
    exact ⟨rfl, rfl⟩

/-- What a reconnect starts is the name resolution, if anything, and then with a listen key. -/
private def Reconnects (o : BinanceStream) (r : BinanceStream × List Op) : Prop :=
  r.1.listenKeyTimer = o.listenKeyTimer ∧
    (r.2 = [] ∨ r.2 = [.resolve] ∧ r.1.sslWebStream = true ∧ r.1.listenKey.isSome = true)

private theorem reconnects_wsInitiateConnection (o : BinanceStream) :
    Reconnects o o.wsInitiateConnection := by
  unfold BinanceStream.wsInitiateConnection
  split
  · exact ⟨rfl, .inl rfl⟩
  · next hready =>
    rw [Bool.not_eq_true, Bool.or_eq_false_iff, Option.isNone_eq_false_iff] at hready
    exact ⟨rfl, .inr ⟨rfl, rfl, hready.2⟩⟩

private theorem reconnects_restApiOnDataReceived (parse : JsonParse) (o : BinanceStream)
    (data : Bytes) :
    Reconnects o (o.restApiOnDataReceived parse data) := by
  unfold BinanceStream.restApiOnDataReceived
  split
  · exact reconnects_wsInitiateConnection { o with sslWebStream := false }
  · split
    · exact ⟨rfl, .inl rfl⟩
    · split
      · exact reconnects_wsInitiateConnection { o with sslWebStream := false }
      · next key _ =>
        exact reconnects_wsInitiateConnection
          { o with listenKey := some key, sslWebStream := false }

private theorem inv_rest (hs : Inv s) {op : RestOp} {result : Completion}
    (hp : { op := .rest op, result := some result } ∈ s.pending) {r : BinanceStream × List Op}
    (hr : s.object.complete parse closeReturns (.rest op) result = .ok r) :
    Inv (rules.put (s.pending.erase { op := .rest op, result := some result }) r) := by
  obtain ⟨hstream, htimer⟩ : s.object.sslWebStream = true ∧ s.object.listenKeyTimer = false :=
    hs.chained.fits _ hp
  unfold BinanceStream.complete at hr
  dsimp only at hr
  split at hr
  · obtain rfl := Except.ok.inj hr
    refine inv_kept hs hp (Nat.le_refl 1) ?_
    intro next hnext
    rw [List.mem_singleton.mp hnext]
    exact ⟨hstream, htimer⟩
  · obtain rfl := Except.ok.inj hr
    exact inv_kept hs hp (Nat.zero_le 1) nofun
  · next data _ =>
    obtain rfl := Except.ok.inj hr
    obtain ⟨hkept, hstarted⟩ := reconnects_restApiOnDataReceived parse s.object data
    have htimer' := hkept.trans htimer
    refine inv_moved hs hp rfl ?_ (fun q ↦ fits_connecting hstream htimer) ?_ ?_
    · rcases hstarted with hnone | ⟨hresolve, -⟩
      · rw [hnone]
        exact Nat.zero_le 1
      · rw [hresolve]
        exact Nat.le_refl 1
    · rcases hstarted with hnone | ⟨hresolve, hstream', hkey⟩
      · rw [hnone]
        nofun
      · rw [hresolve]
        intro next hnext
        rw [List.mem_singleton.mp hnext]
        exact ⟨hstream', htimer', hkey⟩
    · intro _ hon
      cases htimer'.symm.trans hon

/-- The handlers from the name resolution to the websocket handshake keep the object, and start
the next of these operations or end the chain. -/
private theorem next_of_handshakes {o : BinanceStream} {op : Op} {result : Completion}
    (hop : op = .resolve ∨ op = .connect ∨ op = .sslHandshake) {r : BinanceStream × List Op}
    (hr : o.complete parse closeReturns op result = .ok r) :
    r = (o, []) ∨ ∃ next, r = (o, [next]) ∧
      (next = .connect ∨ next = .sslHandshake ∨ next = .wsHandshake) := by
  rcases hop with rfl | rfl | rfl
  · cases result with
    | success data =>
      replace hr : orNullPointer o.wsConnectToNames = .ok r := hr
      exact .inr ⟨_, (of_orNullPointer hr).2, .inl rfl⟩
    | _ => exact .inl (Except.ok.inj hr).symm
  · cases result with
    | success data =>
      replace hr : orNullPointer (o.wsPerformSslHandshake true) = .ok r := hr
      exact .inr ⟨_, (of_orNullPointer hr).2, .inr (.inl rfl)⟩
    | noServerName =>
      replace hr : orNullPointer (o.wsPerformSslHandshake false) = .ok r := hr
      exact .inl (of_orNullPointer hr).2
    | aborted | failed => exact .inl (Except.ok.inj hr).symm
  · cases result with
    | success data =>
      replace hr : orNullPointer o.wsUpgradeToWebsocket = .ok r := hr
      exact .inr ⟨_, (of_orNullPointer hr).2, .inr (.inr rfl)⟩
    | _ => exact .inl (Except.ok.inj hr).symm

private theorem inv_handshakes (hs : Inv s) {op : Op} {result : Completion}
    (hp : { op := op, result := some result } ∈ s.pending)
    (hop : op = .resolve ∨ op = .connect ∨ op = .sslHandshake) {r : BinanceStream × List Op}
    (hr : s.object.complete parse closeReturns op result = .ok r) :
    Inv (rules.put (s.pending.erase { op := op, result := some result }) r) := by
  have hfits : s.object.sslWebStream = true ∧ s.object.listenKeyTimer = false ∧
      s.object.listenKey.isSome = true := by
    have hfits := hs.chained.fits _ hp
    rcases hop with rfl | rfl | rfl <;> exact hfits
  have hchain : op.isConnection = true := by
    rcases hop with rfl | rfl | rfl <;> rfl
  obtain rfl | ⟨next, rfl, hnext⟩ := next_of_handshakes hop hr
  · exact inv_kept hs hp (Nat.zero_le _) (List.forall_mem_nil _)
  · refine inv_kept hs hp ?_ ?_
    · rw [if_pos hchain]
      exact List.countP_le_length
    · intro other hother
      rw [List.mem_singleton.mp hother]
      rcases hnext with rfl | rfl | rfl <;> exact hfits

private theorem inv_wsHandshake (hs : Inv s) {result : Completion}
    (hp : { op := .wsHandshake, result := some result } ∈ s.pending)
    {r : BinanceStream × List Op}
    (hr : s.object.complete parse closeReturns .wsHandshake result = .ok r) :
    Inv (rules.put (s.pending.erase { op := .wsHandshake, result := some result }) r) := by
  obtain ⟨hstream, htimer, hkey⟩ : s.object.sslWebStream = true ∧
      s.object.listenKeyTimer = false ∧ s.object.listenKey.isSome = true :=
    hs.chained.fits _ hp
  unfold BinanceStream.complete at hr
  dsimp only at hr
  split at hr
  · rw [orNullPointer_eq_ok_iff] at hr
    unfold BinanceStream.onWsHandshake at hr
    rw [htimer, if_neg nofun] at hr
    unfold BinanceStream.activateListenKeyKeepalive BinanceStream.wsWaitForMessages at hr
    rw [hstream] at hr
    obtain rfl := Option.some.inj hr
    refine inv_moved hs hp rfl (Nat.le_refl 1) (fun q ↦ fits_connecting hstream htimer) ?_ ?_
    · intro next hnext
      rcases List.mem_cons.mp hnext with rfl | hnext
      · exact fun _ _ ↦ ⟨hkey, rfl⟩
      · rw [List.mem_singleton.mp hnext]
        exact fun _ ↦ ⟨rfl, rfl⟩
    · exact fun _ _ ↦ hkey
  · obtain rfl := Except.ok.inj hr
    exact inv_kept hs hp (Nat.zero_le _) nofun

private theorem inv_read (hs : Inv s) {result : Completion}
    (hp : { op := .read, result := some result } ∈ s.pending)
    (hspares : SparesPosted s (.handle .read result)) {r : BinanceStream × List Op}
    (hr : s.object.complete parse closeReturns .read result = .ok r) :
    Inv (rules.put (s.pending.erase { op := .read, result := some result }) r) := by
  unfold BinanceStream.complete at hr
  dsimp only at hr
  split at hr
  · next hsuccess =>
    obtain ⟨hstream, hbuffer⟩ : s.object.sslWebStream = true ∧ s.object.buffer = true :=
      hs.chained.fits _ hp hsuccess
    rw [orNullPointer_eq_ok_iff] at hr
    unfold BinanceStream.wsInterpretGenericMessages BinanceStream.wsWaitForMessages at hr
    rw [if_pos hbuffer, if_pos hstream] at hr
    obtain rfl := Option.some.inj hr
    refine inv_moved hs hp rfl (Nat.le_refl 1) ?_ ?_ hs.keyed
    · intro q hq hfits
      refine fits_endBy (s := { s with object := { s.object with buffer := true } })
        fits_settle ?_
      unfold Fits at hfits ⊢
      cases hop : q.op with
      | read =>
        rw [hop] at hq
        cases hq
      | _ =>
        rw [hop] at hfits
        exact hfits
    · intro next hnext
      rw [List.mem_singleton.mp hnext]
      exact fun _ ↦ ⟨hstream, rfl⟩
  · next hfailed =>
    obtain ⟨-, rfl⟩ := BinanceStream.of_onWsConnectionSevered hr
    apply inv_severed
    · have hone := hs.chained.one
      rw [← countP_erase _ hp] at hone
      omega
    · intro q hq
      refine ⟨hspares ⟨rfl, Bool.eq_false_iff.mpr hfailed⟩ q (List.mem_of_mem_erase hq), ?_⟩
      intro hchain
      cases hchain.symm.trans (hs.chained.not_chain_of_mem_erase hp rfl hq)

private theorem inv_listenKeyTimer (hs : Inv s) {result : Completion}
    (hp : { op := .listenKeyTimer, result := some result } ∈ s.pending)
    {r : BinanceStream × List Op}
    (hr : s.object.complete parse closeReturns .listenKeyTimer result = .ok r) :
    Inv (rules.put (s.pending.erase { op := .listenKeyTimer, result := some result }) r) := by
  replace hr : s.object.onListenKeyTimer result = some r := orNullPointer_eq_ok_iff.mp hr
  unfold BinanceStream.onListenKeyTimer at hr
  split at hr
  · split at hr
    · next hready =>
      obtain rfl := Option.some.inj hr
      refine inv_kept hs hp (Nat.le_refl 0) ?_
      intro next hnext
      rcases List.mem_cons.mp hnext with rfl | hnext
      · exact True.intro
      · rw [List.mem_singleton.mp hnext]
        exact (Bool.and_eq_true_iff.mp hready).2
    · cases hr
  · obtain rfl := Option.some.inj hr
    exact inv_kept hs hp (Nat.le_refl 0) nofun

/-- Every handler that runs in turn and spares what is posted keeps the invariant. -/
private theorem inv_complete (hs : Inv s) {op : Op} {result : Completion}
    (hp : { op := op, result := some result } ∈ s.pending)
    (hturn : InTurn s (.handle op result)) (hspares : SparesPosted s (.handle op result))
    {r : BinanceStream × List Op} (hr : s.object.complete parse closeReturns op result = .ok r) :
    Inv (rules.put (s.pending.erase { op := op, result := some result }) r) := by
  cases op with
  | rest op => exact inv_rest hs hp hr
  | resolve => exact inv_handshakes hs hp (.inl rfl) hr
  | connect => exact inv_handshakes hs hp (.inr (.inl rfl)) hr
  | sslHandshake => exact inv_handshakes hs hp (.inr (.inr rfl)) hr
  | wsHandshake => exact inv_wsHandshake hs hp hr
  | read => exact inv_read hs hp hspares hr
  | close =>
    obtain rfl := Except.ok.inj hr
    exact inv_kept hs hp (Nat.le_refl 0) nofun
  | listenKeyTimer => exact inv_listenKeyTimer hs hp hr
  | periodicTimeout =>
    have htimer : s.object.listenKeyTimer = true := hs.chained.fits _ hp
    replace hr : orNullPointer s.object.onPeriodicTimeTimeout = .ok r := hr
    obtain ⟨-, rfl⟩ := of_orNullPointer hr
    refine inv_kept hs hp (Nat.le_refl 0) ?_
    intro next hnext
    rw [List.mem_singleton.mp hnext]
    exact fun _ hstream ↦ ⟨hs.keyed hstream htimer, htimer⟩
  | onErrorTimer =>
    cases result with
    | success data =>
      obtain rfl := Except.ok.inj hr
      change Inv (rules.put _ s.object.restApiInitiateConnection)
      cases hstopped : s.object.isStopped with
      | false => exact inv_initiated hs hp hstopped (hturn rfl hstopped)
      | true =>
        unfold BinanceStream.restApiInitiateConnection
        rw [if_pos hstopped]
        exact inv_kept hs hp (Nat.le_refl 0) nofun
    | _ =>
      obtain rfl := Except.ok.inj hr
      exact inv_kept hs hp (Nat.le_refl 0) nofun
  | keepalive op =>
    unfold BinanceStream.complete at hr
    dsimp only at hr
    split at hr
    · obtain rfl := Except.ok.inj hr
      refine inv_kept hs hp (Nat.le_refl 0) ?_
      intro next hnext
      rw [List.mem_singleton.mp hnext]
      exact True.intro
    all_goals
      obtain rfl := Except.ok.inj hr
      exact inv_kept hs hp (Nat.le_refl 0) nofun

/-- A control frame that spares what is posted keeps the invariant. -/
private theorem inv_controlCallback (hs : Inv s) {frameType : FrameType}
    (hread : ∃ p ∈ s.pending, p.result = none ∧ p.op = .read)
    (hspares : SparesPosted s (.notify frameType)) {r : BinanceStream × List Op}
    (hr : s.object.controlCallback closeReturns frameType = .ok r) :
    Inv (rules.put s.pending r) := by
  obtain rfl | ⟨rfl, hrunning, hr⟩ := BinanceStream.of_controlCallback hr
  · refine ⟨chained_put hs.chained.one ?_ nofun, hs.keyed⟩
    exact fun q hq ↦ fits_endBy fits_settle (hs.chained.fits q hq)
  · obtain ⟨-, rfl⟩ := BinanceStream.of_onWsConnectionSevered hr
    obtain ⟨p, hp, hnone, hpread⟩ := hread
    refine inv_severed hs.chained.one ?_
    intro q hq
    refine ⟨hspares ⟨rfl, hrunning⟩ q hq, ?_⟩
    intro hchain
    rw [hs.chained.eq_of_chain hp (by rw [hpread]; rfl) hq hchain]
    exact ⟨hpread, hnone⟩

/-- One step that runs in turn and spares what is posted keeps the invariant. -/
private theorem inv_step {e : QueuedEvent} (hs : Inv s)
    (hstep : Queued.step (BinanceStream.handlers parse closeReturns) rules s e = some s')
    (hturn : InTurn s e) (hspares : SparesPosted s e) : Inv s' := by
  cases e with
  | stop =>
    obtain rfl := Option.some.inj hstep
    refine ⟨chained_put ?_ ?_ ?_, hs.keyed⟩
    · change _ + (if s.object.sslWebStream then [Op.close] else []).countP _ ≤ 1
      split <;> exact hs.chained.one
    · exact fun q hq ↦ fits_endBy fits_settle (hs.chained.fits q hq)
    · intro op hop
      change op ∈ if s.object.sslWebStream then [Op.close] else [] at hop
      split at hop
      · rw [List.mem_singleton.mp hop]
        exact True.intro
      · cases hop
  | notify frameType =>
    obtain ⟨⟨p, hp, hnone, hpread⟩, r, hr, rfl⟩ := step_notify hstep
    exact inv_controlCallback hs ⟨p, hp, hnone, of_decide_eq_true hpread⟩ hspares
      (toOption_eq_some_iff.mp hr)
  | settle op result =>
    obtain ⟨hobject, hchained⟩ := hs.chained.settle (fits_settle op result) hstep
    refine ⟨hchained, ?_⟩
    rw [hobject]
    exact hs.keyed
  | handle op result =>
    obtain ⟨hp, r, hr, rfl⟩ := step_handle hstep
    exact inv_complete hs hp hturn hspares (toOption_eq_some_iff.mp hr)

/-! ### The handlers that dereference a null pointer -/

/-- No handler that can run next dereferences a null pointer. An operation in progress may get any
result. -/
def PointersHeld (parse : JsonParse) (closeReturns : Severance → Bool) (s : QueuedState) : Prop :=
  ∀ p ∈ s.pending, ∀ result, (p.result = none ∨ p.result = some result) →
    s.object.complete parse closeReturns p.op result ≠ .error .nullPointer

private theorem orNullPointer_ne {α : Type} {x : Option α} (h : x ≠ none) :
    orNullPointer x ≠ .error .nullPointer := by
  cases x with
  | none => exact absurd rfl h
  | some a => exact nofun

/-- The invariant keeps null pointers from every handler that can run next. -/
private theorem pointersHeld_of_inv (hs : Inv s) : PointersHeld parse closeReturns s := by
  intro p hp result hresult
  have hfits : Fits s.object { op := p.op, result := some result } := by
    have hfits := hs.chained.fits p hp
    obtain ⟨op, _⟩ := p
    rcases hresult with rfl | rfl
    · exact fits_settle op result hfits
    · exact hfits
  unfold BinanceStream.complete
  cases hop : p.op with
  | rest op | keepalive op =>
    dsimp only
    split <;> exact nofun
  | close | onErrorTimer => exact nofun
  | resolve =>
    rw [hop] at hfits
    dsimp only
    split
    · apply orNullPointer_ne
      unfold BinanceStream.wsConnectToNames
      rw [if_pos hfits.1]
      exact Option.some_ne_none _
    · exact nofun
  | connect =>
    rw [hop] at hfits
    have hheld (sni : Bool) : orNullPointer (s.object.wsPerformSslHandshake sni) ≠
        .error .nullPointer := by
      apply orNullPointer_ne
      unfold BinanceStream.wsPerformSslHandshake
      rw [if_pos hfits.1]
      exact Option.some_ne_none _
    dsimp only
    split
    · exact hheld true
    · exact hheld false
    · exact nofun
    · exact nofun
  | sslHandshake =>
    rw [hop] at hfits
    dsimp only
    split
    · apply orNullPointer_ne
      unfold BinanceStream.wsUpgradeToWebsocket
      rw [if_pos (Bool.and_eq_true_iff.mpr ⟨hfits.1, hfits.2.2⟩)]
      exact Option.some_ne_none _
    · exact nofun
  | wsHandshake =>
    rw [hop] at hfits
    dsimp only
    split
    · apply orNullPointer_ne
      unfold BinanceStream.onWsHandshake BinanceStream.activateListenKeyKeepalive
        BinanceStream.wsWaitForMessages
      simp [hfits.1, hfits.2.1]
    · exact nofun
  | read =>
    rw [hop] at hfits
    dsimp only
    split
    · next hsuccess =>
      obtain ⟨hstream, hbuffer⟩ := hfits hsuccess
      apply orNullPointer_ne
      unfold BinanceStream.wsInterpretGenericMessages BinanceStream.wsWaitForMessages
      rw [if_pos hbuffer, if_pos hstream]
      exact Option.some_ne_none _
    · unfold BinanceStream.onWsConnectionSevered
      split <;> exact nofun
  | listenKeyTimer =>
    rw [hop] at hfits
    apply orNullPointer_ne
    unfold BinanceStream.onListenKeyTimer
    split
    · next hexpired =>
      rw [Bool.and_eq_true] at hexpired
      obtain ⟨hkey, htimer⟩ := hfits hexpired.1 hexpired.2
      rw [hkey, htimer]
      exact Option.some_ne_none _
    · exact Option.some_ne_none _
  | periodicTimeout =>
    rw [hop] at hfits
    apply orNullPointer_ne
    unfold BinanceStream.onPeriodicTimeTimeout
    rw [if_pos (show s.object.listenKeyTimer = true from hfits)]
    exact Option.some_ne_none _

/-- Once `on_ws_connection_severed` has returned, `on_periodic_time_timeout` meets a null pointer
where it is posted. -/
private theorem not_pointersHeld_severed {rest : List (Pending Op Completion)} {o : BinanceStream}
    (hp : p ∈ rest) (hposted : p.op = .periodicTimeout) :
    ¬PointersHeld parse closeReturns (rules.put rest o.severed) := by
  intro hheld
  have hmem : rules.endBy o.severed.2 p ∈ (rules.put rest o.severed).pending :=
    List.mem_append_left _ (List.mem_map_of_mem hp)
  have hop : (rules.endBy o.severed.2 p).op = .periodicTimeout := (op_endBy _ _).trans hposted
  cases hresult : (rules.endBy o.severed.2 p).result with
  | none => exact hheld _ hmem .aborted (.inl hresult) (by rw [hop]; rfl)
  | some result => exact hheld _ hmem result (.inr hresult) (by rw [hop]; rfl)

/-- After a step that runs in turn no handler meets a null pointer if and only if the step spares
what is posted. -/
private theorem pointersHeld_step_iff {e : QueuedEvent} (hs : Inv s)
    (hstep : Queued.step (BinanceStream.handlers parse closeReturns) rules s e = some s')
    (hturn : InTurn s e) :
    PointersHeld parse closeReturns s' ↔ SparesPosted s e := by
  refine ⟨?_, fun hspares ↦ pointersHeld_of_inv (inv_step hs hstep hturn hspares)⟩
  intro hheld hsevers p hp hposted
  cases e with
  | stop | settle op result => exact hsevers
  | notify frameType =>
    obtain ⟨-, r, hr, rfl⟩ := step_notify hstep
    obtain ⟨rfl, hrunning⟩ := hsevers
    have hcallback := toOption_eq_some_iff.mp hr
    rw [BinanceStream.controlCallback_close closeReturns hrunning] at hcallback
    obtain ⟨-, rfl⟩ := BinanceStream.of_onWsConnectionSevered hcallback
    exact not_pointersHeld_severed hp hposted hheld
  | handle op result =>
    obtain ⟨-, r, hr, rfl⟩ := step_handle hstep
    obtain ⟨rfl, hfailed⟩ := hsevers
    have hcomplete := toOption_eq_some_iff.mp hr
    rw [BinanceStream.complete_read_failed parse closeReturns hfailed] at hcomplete
    obtain ⟨-, rfl⟩ := BinanceStream.of_onWsConnectionSevered hcomplete
    have hne : p ≠ { op := .read, result := some result } := by
      rintro rfl
      cases hposted
    exact not_pointersHeld_severed ((List.mem_erase_of_ne hne).mpr hp) hposted hheld

private theorem inv_started : Inv started := by
  refine ⟨chained_put (Nat.le_refl 1) nofun ?_, nofun⟩
  intro op hop
  rw [List.mem_singleton.mp hop]
  exact ⟨rfl, rfl⟩

/-! ### A `close` that throws -/

section Throws

variable {o : BinanceStream} {op : Op} {result : Completion} {r : BinanceStream × List Op}

end Throws

/-- `json::parse` on the response with a listen key. -/
def parseListenKey : JsonParse := fun _ ↦
  .ok (.object [(bytes "listenKey", .string (bytes "pqia91ma19a5s61cv6a81va65sdf19v8a65a1"))])

/-- From the start to the first read. -/
def connects : List QueuedEvent :=
  ([RestOp.resolve, .connect, .sslHandshake, .write, .read].map Op.rest ++
    [Op.resolve, .connect, .sslHandshake, .wsHandshake]).flatMap
    fun op ↦ finish op (.success [])

/-- Whenever `close` may return: over every run whose reconnects run in turn, no handler that can
run next dereferences a null pointer after any step, if and only if the stream is never severed
while `on_periodic_time_timeout` is posted. -/
theorem pointersHeld_iff_sparesPosted (parse : JsonParse) (closeReturns : Severance → Bool)
    (events : List QueuedEvent)
    (hturn : Transition.Along (Queued.step (BinanceStream.handlers parse closeReturns) rules)
      (fun s e _ ↦ InTurn s e) started events) :
    Transition.Along (Queued.step (BinanceStream.handlers parse closeReturns) rules)
        (fun _ _ s' ↦ PointersHeld parse closeReturns s') started events ↔
      Transition.Along (Queued.step (BinanceStream.handlers parse closeReturns) rules)
        (fun s e _ ↦ SparesPosted s e) started events := by
  refine Transition.along_congr_under (I := Inv) ?_ inv_started hturn
  intro s e s' hs hstep hturn
  exact ⟨pointersHeld_step_iff hs hstep hturn, inv_step hs hstep hturn⟩

/-- The listen-key wait expires before the read fails, and the handlers run in this order: the
first posts `on_periodic_time_timeout`; the second would reset the timer it uses, if its `close`
returned. -/
theorem not_pointersHeld_severedWhilePosted :
    ¬Transition.Along (Queued.step (BinanceStream.handlers parseListenKey fun _ ↦ true) rules)
      (fun _ _ s' ↦ PointersHeld parseListenKey (fun _ ↦ true) s') started
      (connects ++ [.settle .listenKeyTimer (.success []), .settle .read .failed,
        .handle .listenKeyTimer (.success []), .handle .read .failed]) := by
  intro h
  have hheld := Transition.along_iff_prefix.mp h
    (connects ++ [.settle .listenKeyTimer (.success []), .settle .read .failed,
      .handle .listenKeyTimer (.success [])]) (.handle .read .failed) [] rfl _ _ rfl rfl
  exact hheld { op := .periodicTimeout, result := some (.success []) } (by decide +kernel)
    (.success []) (.inr rfl) rfl

end KeepMyJournal.AccountMonitor.Binance
