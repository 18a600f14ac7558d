import KeepMyJournal.AccountMonitor.OkexStream
import KeepMyJournal.Base.Queued

/-!
# The subscriptions of the OKX account stream

What `okex_stream_t` subscribes to in each of its sessions
(`account_monitor/src/okex_user_stream.cpp:71–106, 233–341`). A session begins when
`connect_to_resolved_names` makes a new websocket. The orders channels are subscribed to after
every login, the balances when a message finds `m_accountsSubscribedTo` unset; no connection
loss unsets it.

The websocket of a session is closed when it is lost, and Beast's `close` fails on one on which an
operation has failed; only the one that a rejected login leaves open can be closed. What the flag
alone guards is said for a `close` that may return anywhere.
-/

namespace KeepMyJournal.AccountMonitor.Okex

open KeepMyJournal.Base KeepMyJournal.Base.Queued KeepMyJournal.Common

/-- The channels that are subscribed to. -/
inductive Channel where
  | orders | balanceAndPosition
  deriving DecidableEq, Repr

/-- The channel that a write subscribes to. -/
def Op.channel : Op → Option Channel
  | .ordersWrite => some .orders
  | .accountsWrite => some .balanceAndPosition
  | _ => none

/-- A stream with what has happened on its last websocket: the subscriptions that were written,
and whether a message has been interpreted after them. -/
structure SessionStream where
  stream : OkexStream
  subscribedTo : List Channel := []
  greeted : Bool := false
  deriving DecidableEq, Repr

namespace SessionStream

/-- The session after a handler of the stream. -/
def after (s : SessionStream) (greets : Bool) (r : OkexStream × List Op) :
    SessionStream × List Op :=
  let s := if .connect ∈ r.2 then { stream := s.stream } else s
  ({ stream := r.1
     subscribedTo := s.subscribedTo ++ r.2.filterMap Op.channel
     greeted := s.greeted || greets }, r.2)

/-- The handlers of the stream. -/
def handlers (parse : JsonParse) (okexMsTimeToString : Bytes → Option Bytes)
    (closeReturns : Severance → Bool) :
    Async.Handlers SessionStream FrameType Op Completion where
  stop s := s.after false s.stream.stop
  notify s frameType :=
    (s.stream.controlCallback closeReturns frameType).toOption.map (s.after false)
  complete s op result :=
    (s.stream.complete parse okexMsTimeToString closeReturns op result).toOption.map
      (s.after (op == .read && result.isSuccess))
  reads op := op = .read || op = .loginRead

end SessionStream

/-- The operation uses the websocket stream. -/
def Op.onWebStream : Op → Bool
  | .resolve | .timer => false
  | _ => true

/-- The operations in progress that end when this one is started. -/
def endedBy : Op → Op → Bool
  -- `on_ws_connection_severed` resets the stream and replaces the timer
  | .timer, op => op.onWebStream || op == .timer
  | .resolve, op => op == .resolve
  -- `connect_to_resolved_names` resets the resolver and the timer and replaces the stream
  | .connect, _ => true
  | _, _ => false

/-- How the operations of a stream end. -/
def rules : Rules Op Completion where
  ends := endedBy
  aborted := .aborted
  posted _ := none

/-- A stream and the operations whose handlers have not run. -/
abbrev QueuedState := Queued.State SessionStream Op Completion

/-- What can happen to it. -/
abbrev QueuedEvent := Queued.Event FrameType Op Completion

/-- The stream right after `run`. -/
def started : QueuedState :=
  rules.put [] (SessionStream.after { stream := {} } false (OkexStream.run {}))

/-- A session in which a message has been interpreted has subscribed to both kinds of channels. -/
def Subscribed (s : SessionStream) : Prop :=
  s.greeted = true → .orders ∈ s.subscribedTo ∧ .balanceAndPosition ∈ s.subscribedTo

instance (s : SessionStream) : Decidable (Subscribed s) := by
  unfold Subscribed
  infer_instance

/-- The operations of a connection, one after the other. -/
def Op.isConnection : Op → Bool
  | .timer | .close => false
  | _ => true

/-- The timer does not begin a connection while an operation of another is pending. -/
def InTurn (s : QueuedState) : QueuedEvent → Prop
  | .handle .timer result =>
    result.isSuccess = true → s.object.stream.stopped = false →
      ∀ p ∈ s.pending, p.op.isConnection = false
  | _ => True

/-- The first message of a session finds the flag unset and throws nothing. -/
def GreetsFresh (parse : JsonParse) (okexMsTimeToString : Bytes → Option Bytes)
    (s : SessionStream) : QueuedEvent → Prop
  | .handle .read (.success data) =>
    s.greeted = false →
      s.stream.accountsSubscribedTo = false ∧
        Processed parse okexMsTimeToString s.stream data
  | _ => True

instance (s : QueuedState) (e : QueuedEvent) : Decidable (InTurn s e) := by
  unfold InTurn
  split <;> infer_instance

instance (parse : JsonParse) (okexMsTimeToString : Bytes → Option Bytes) (s : SessionStream)
    (e : QueuedEvent) : Decidable (GreetsFresh parse okexMsTimeToString s e) := by
  unfold GreetsFresh Processed
  split <;> infer_instance

/-! ### What the handlers start -/

/-- The operation that the handler of another can start. -/
def Op.follows : Op → Op → Bool
  | .close, _ => false
  | .timer, next => next == .resolve
  | _, .timer => true
  | .resolve, next => next == .connect
  | .connect, next => next == .sslHandshake
  | .sslHandshake, next => next == .wsHandshake
  | .wsHandshake, next => next == .loginWrite
  | .loginWrite, next => next == .loginRead
  | .loginRead, next => next == .ordersWrite
  | .ordersWrite, next | .accountsWrite, next => next == .read
  | .read, next => next == .read || next == .accountsWrite

variable {parse : JsonParse} {okexMsTimeToString : Bytes → Option Bytes}
  {closeReturns : Severance → Bool} {s : OkexStream} {op : Op} {result : Completion}
  {r : OkexStream × List Op}

/-- A message is followed by the subscription to the balances exactly if it is processed while
the flag is unset, and otherwise by the next read. -/
private theorem interpretGenericMessages_next {data : Bytes}
    (hr : s.interpretGenericMessages parse okexMsTimeToString data = .ok r) :
    (r.2 = [.accountsWrite] ∨ r.2 = [.read]) ∧
      (r.2 = [.accountsWrite] ↔
        s.accountsSubscribedTo = false ∧ Processed parse okexMsTimeToString s data) := by
  unfold OkexStream.interpretGenericMessages at hr
  unfold Processed
  split at hr
  · cases hr
  · split at hr
    · next results hrun =>
      rw [hrun]
      dsimp only at hr
      split at hr
      · next hset =>
        rw [onStream_started hr]
        exact ⟨.inr rfl, iff_of_false nofun fun h ↦ nomatch hset.symm.trans h.1⟩
      · next hunset =>
        rw [onStream_started hr]
        exact ⟨.inl rfl, iff_of_true rfl ⟨Bool.eq_false_iff.mpr hunset, rfl⟩⟩
    · next e results hrun =>
      rw [hrun, onStream_started hr]
      exact ⟨.inr rfl, iff_of_false nofun fun h ↦ nomatch h.2⟩

/-- Every handler starts one operation at most, and the next one of its chain. -/
private theorem complete_next
    (hr : s.complete parse okexMsTimeToString closeReturns op result = .ok r) :
    r.2 = [] ∨ ∃ next, r.2 = [next] ∧ op.follows next = true := by
  cases result with
  | success data =>
    cases op with
    | timer =>
      obtain rfl := Except.ok.inj hr
      unfold OkexStream.initiateWebsocketConnection
      split
      · exact .inl rfl
      · exact .inr ⟨_, rfl, rfl⟩
    | close =>
      obtain rfl := Except.ok.inj hr
      exact .inl rfl
    | resolve =>
      obtain rfl := Except.ok.inj hr
      exact .inr ⟨_, rfl, rfl⟩
    | connect => exact .inr ⟨_, onStream_started hr, rfl⟩
    | sslHandshake => exact .inr ⟨_, onStream_started hr, rfl⟩
    | wsHandshake => exact .inr ⟨_, onStream_started hr, rfl⟩
    | loginWrite => exact .inr ⟨_, onStream_started hr, rfl⟩
    | loginRead =>
      obtain ⟨-, rfl⟩ | rfl := OkexStream.of_interpretLoginResponse hr
      · exact .inr ⟨_, rfl, rfl⟩
      · exact .inr ⟨_, rfl, rfl⟩
    | ordersWrite | accountsWrite => exact .inr ⟨_, onStream_started hr, rfl⟩
    | read =>
      obtain hwrite | hread := (interpretGenericMessages_next hr).1
      · exact .inr ⟨_, hwrite, rfl⟩
      · exact .inr ⟨_, hread, rfl⟩
  | noServerName =>
    cases op with
    | connect =>
      obtain ⟨-, ⟨-, rfl⟩ | ⟨-, hsevered⟩⟩ := OkexStream.of_performSslHandshake hr
      · exact .inr ⟨_, rfl, rfl⟩
      · exact .inr ⟨_, severed_started hsevered, rfl⟩
    | timer | close =>
      obtain rfl := Except.ok.inj hr
      exact .inl rfl
    | _ => exact .inr ⟨_, severed_started hr, rfl⟩
  | aborted | failed =>
    cases op with
    | timer | close =>
      obtain rfl := Except.ok.inj hr
      exact .inl rfl
    | _ => exact .inr ⟨_, severed_started hr, rfl⟩

/-- Only the timer begins a connection, and only while the stream is not stopped. -/
private theorem complete_timer
    (hr : s.complete parse okexMsTimeToString closeReturns .timer result = .ok r) :
    r = (s, []) ∨ r = (s, [.resolve]) ∧ result.isSuccess = true ∧ s.stopped = false := by
  cases result with
  | success data =>
    obtain rfl := Except.ok.inj hr
    unfold OkexStream.initiateWebsocketConnection
    split
    · exact .inl rfl
    · next hrunning => exact .inr ⟨rfl, rfl, Bool.eq_false_iff.mpr hrunning⟩
  | _ => exact .inl (Except.ok.inj hr).symm

/-- An operation of a connection that fails severs it. -/
private theorem complete_failed (hop : op.isConnection = true) (hfailed : result.isSuccess = false)
    (hr : s.complete parse okexMsTimeToString closeReturns op result = .ok r) :
    ∃ severance, severance ≠ .loginRejected ∧ severance ≠ .loginException ∧
      s.onWsConnectionSevered closeReturns severance = .ok r := by
  cases result with
  | success data => cases hfailed
  | noServerName =>
    cases op with
    | timer | close => cases hop
    | connect =>
      obtain ⟨-, ⟨hsni, -⟩ | ⟨-, hsevered⟩⟩ := OkexStream.of_performSslHandshake hr
      · cases hsni
      · exact ⟨.noServerName, nofun, nofun, hsevered⟩
    | _ => exact ⟨.failed _, nofun, nofun, hr⟩
  | aborted | failed =>
    cases op with
    | timer | close => cases hop
    | _ => exact ⟨.failed _, nofun, nofun, hr⟩

/-! ### What every order keeps -/

/-- The operation comes after the subscription to the orders channels. -/
def Op.isSubscribed : Op → Bool
  | .ordersWrite | .accountsWrite | .read => true
  | _ => false

private theorem isConnection_of_isSubscribed (hop : op.isSubscribed = true) :
    op.isConnection = true := by
  cases op <;> first | rfl | cases hop

/-- The subscription to the orders channels comes first. -/
private theorem isSubscribed_of_follows {next : Op} (hfollows : op.follows next = true)
    (hnext : next.isSubscribed = true) : next = .ordersWrite ∨ op.isSubscribed = true := by
  cases next <;> cases op <;> simp_all [Op.follows, Op.isSubscribed]

/-- While such an operation is pending, the session has subscribed to the orders channels. -/
def Fits (s : SessionStream) (p : Pending Op Completion) : Prop :=
  p.op.isSubscribed = true → .orders ∈ s.subscribedTo

/-- The invariant of a stream whose connections are made in turn. -/
structure Inv (s : QueuedState) : Prop where
  chained : Chained Op.isConnection Fits s
  subscribed : Subscribed s.object
  fresh : s.object.greeted = false → .balanceAndPosition ∉ s.object.subscribedTo

section Steps

variable {q : QueuedState} {greets : Bool}

private theorem after_of_not_mem {o : SessionStream} (hconnect : .connect ∉ r.2) :
    o.after greets r =
      ({ stream := r.1
         subscribedTo := o.subscribedTo ++ r.2.filterMap Op.channel
         greeted := o.greeted || greets }, r.2) := by
  unfold SessionStream.after
  rw [if_neg hconnect]

private theorem after_of_mem {o : SessionStream} (hconnect : .connect ∈ r.2) :
    o.after greets r =
      ({ stream := r.1, subscribedTo := r.2.filterMap Op.channel, greeted := greets }, r.2) := by
  unfold SessionStream.after
  rw [if_pos hconnect]
  rfl

/-- A handler that stays in the session. -/
private theorem inv_continued (hq : Inv q) {rest : List (Pending Op Completion)}
    (hrest : ∀ p ∈ rest, p ∈ q.pending) (hconnect : .connect ∉ r.2)
    (hone : rest.countP (fun p ↦ p.op.isConnection) + r.2.countP Op.isConnection ≤ 1)
    (hnext : ∀ next ∈ r.2, next.isSubscribed = true →
      .orders ∈ q.object.subscribedTo ++ r.2.filterMap Op.channel)
    (hfresh : greets = false → .accountsWrite ∉ r.2)
    (hsubscribed : Subscribed (q.object.after greets r).1) :
    Inv (rules.put rest (q.object.after greets r)) := by
  rw [after_of_not_mem hconnect] at hsubscribed ⊢
  refine ⟨chained_put hone ?_ hnext, hsubscribed, ?_⟩
  · intro p hp hop
    rw [op_endBy] at hop
    exact List.mem_append_left _ (hq.chained.fits p (hrest p hp) hop)
  · intro hgreeted hmem
    obtain ⟨hgreeted, hgreets⟩ := Bool.or_eq_false_iff.mp hgreeted
    rcases List.mem_append.mp hmem with hmem | hmem
    · exact hq.fresh hgreeted hmem
    · obtain ⟨next, hnext, hchannel⟩ := List.mem_filterMap.mp hmem
      cases next with
      | accountsWrite => exact hfresh hgreets hnext
      | _ => cases hchannel

/-- What is no message leaves both kinds of channels subscribed. -/
private theorem subscribed_after (hq : Inv q) : Subscribed (q.object.after false r).1 := by
  by_cases hconnect : .connect ∈ r.2
  · rw [after_of_mem hconnect]
    nofun
  · rw [after_of_not_mem hconnect]
    intro hgreeted
    obtain ⟨horders, hbalance⟩ := hq.subscribed ((Bool.or_false _).symm.trans hgreeted)
    exact ⟨List.mem_append_left _ horders, List.mem_append_left _ hbalance⟩

/-- A new session, which the resolver begins. -/
private theorem inv_connected (hq : Inv q)
    (hp : { op := .resolve, result := some result } ∈ q.pending) (hr : r.2 = [.connect]) :
    Inv (rules.put (q.pending.erase { op := .resolve, result := some result })
      (q.object.after false r)) := by
  rw [after_of_mem (by rw [hr]; exact List.mem_singleton_self _), hr]
  refine ⟨chained_put ?_ ?_ ?_, nofun, fun _ ↦ List.not_mem_nil⟩
  · have hone := hq.chained.one
    rw [← countP_erase Op.isConnection hp] at hone
    exact hone
  · intro p hp' hop
    rw [op_endBy] at hop
    have hidle := hq.chained.not_chain_of_mem_erase hp rfl hp'
    cases hidle.symm.trans (isConnection_of_isSubscribed hop)
  · intro next hnext hop
    rw [List.mem_singleton.mp hnext] at hop
    cases hop

/-- Where no other operation of a connection is pending, one may be started. -/
private theorem countP_next (hq : Inv q) (hp : { op := op, result := some result } ∈ q.pending)
    (hturn : InTurn q (.handle op result)) {next : Op} (hfollows : op.follows next = true)
    (hr : q.object.stream.complete parse okexMsTimeToString closeReturns op result = .ok r)
    (hnext : r.2 = [next]) :
    (q.pending.erase { op := op, result := some result }).countP (fun p ↦ p.op.isConnection) +
      [next].countP Op.isConnection ≤ 1 := by
  have hone := hq.chained.one
  have hcount := countP_erase Op.isConnection hp
  have hlen : [next].countP Op.isConnection ≤ 1 := List.countP_le_length
  cases op with
  | close => cases hfollows
  | timer =>
    obtain rfl | ⟨-, hsuccess, hrunning⟩ := complete_timer hr
    · cases hnext
    · have hidle := List.countP_eq_zero.mpr fun p hp' ↦
        Bool.eq_false_iff.mp (hturn hsuccess hrunning p hp')
      omega
  | _ =>
    change _ + 1 = _ at hcount
    omega

/-- The handler of an operation, beside a read that succeeds. -/
private theorem inv_handled (hq : Inv q)
    (hp : { op := op, result := some result } ∈ q.pending)
    (hread : (op == .read && result.isSuccess) = false)
    (hturn : InTurn q (.handle op result))
    (hr : q.object.stream.complete parse okexMsTimeToString closeReturns op result = .ok r) :
    Inv (rules.put (q.pending.erase { op := op, result := some result })
      (q.object.after false r)) := by
  have hrest : ∀ p ∈ q.pending.erase { op := op, result := some result }, p ∈ q.pending :=
    fun p ↦ List.mem_of_mem_erase
  obtain hnone | ⟨next, hnext, hfollows⟩ := complete_next hr
  · refine inv_continued hq hrest ?_ ?_ ?_ ?_ (subscribed_after hq) <;> rw [hnone]
    · nofun
    · have hone := hq.chained.one
      rw [← countP_erase Op.isConnection hp] at hone
      exact Nat.le_trans (Nat.le_add_right _ _) hone
    · nofun
    · nofun
  · by_cases hconnect : next = .connect
    · subst hconnect
      obtain rfl : op = .resolve := by
        cases op <;> first | rfl | cases hfollows
      exact inv_connected hq hp hnext
    · have hcount := countP_next hq hp hturn hfollows hr hnext
      refine inv_continued hq hrest ?_ ?_ ?_ ?_ (subscribed_after hq) <;> rw [hnext]
      · exact fun hmem ↦ hconnect (List.mem_singleton.mp hmem).symm
      · exact hcount
      · intro other hmem hop
        obtain rfl := List.mem_singleton.mp hmem
        obtain rfl | hbefore := isSubscribed_of_follows hfollows hop
        · exact List.mem_append_right _ (List.mem_singleton_self _)
        · exact List.mem_append_left _ (hq.chained.fits _ hp hbefore)
      · intro _ hmem
        obtain rfl := List.mem_singleton.mp hmem
        obtain rfl : op = .read := by
          cases op <;> first | rfl | cases hfollows
        obtain ⟨_, -, -, hsevered⟩ := complete_failed (by rfl) hread hr
        cases (severed_started hsevered).symm.trans hnext

/-- A message after which both kinds of channels are subscribed. -/
private theorem inv_message (hq : Inv q) {data : Bytes}
    (hp : { op := .read, result := some (.success data) } ∈ q.pending)
    (hr : q.object.stream.complete parse okexMsTimeToString closeReturns .read (.success data) =
      .ok r)
    (hsubscribed : Subscribed (q.object.after true r).1) :
    Inv (rules.put (q.pending.erase { op := .read, result := some (.success data) })
      (q.object.after true r)) := by
  have horders : .orders ∈ q.object.subscribedTo := hq.chained.fits _ hp rfl
  have hone := hq.chained.one
  rw [← countP_erase Op.isConnection hp] at hone
  have hrest : ∀ p ∈ q.pending.erase { op := .read, result := some (.success data) },
      p ∈ q.pending := fun p ↦ List.mem_of_mem_erase
  refine inv_continued hq hrest ?_ ?_ (fun _ _ _ ↦ List.mem_append_left _ horders) nofun
    hsubscribed
  all_goals obtain hwrite | hread := (interpretGenericMessages_next hr).1
  · rw [hwrite]
    decide
  · rw [hread]
    decide
  · rw [hwrite]
    exact hone
  · rw [hread]
    exact hone

/-- After a message both kinds of channels are subscribed exactly if it was not the first of its
session, or found the flag unset and threw nothing. -/
private theorem subscribed_message_iff (hq : Inv q) {data : Bytes}
    (hp : { op := .read, result := some (.success data) } ∈ q.pending)
    (hr : q.object.stream.complete parse okexMsTimeToString closeReturns .read (.success data) =
      .ok r) :
    Subscribed (q.object.after true r).1 ↔
      GreetsFresh parse okexMsTimeToString q.object (.handle .read (.success data)) := by
  have horders : .orders ∈ q.object.subscribedTo := hq.chained.fits _ hp rfl
  obtain ⟨hstarted, hiff⟩ := interpretGenericMessages_next hr
  change _ ↔ (q.object.greeted = false → q.object.stream.accountsSubscribedTo = false ∧
    Processed parse okexMsTimeToString q.object.stream data)
  rw [← hiff, after_of_not_mem (by rcases hstarted with h | h <;> rw [h] <;> decide)]
  unfold Subscribed
  dsimp only
  rw [Bool.or_true, imp_iff_right rfl, and_iff_right (List.mem_append_left _ horders),
    List.mem_append]
  cases hgreeted : q.object.greeted with
  | true => exact iff_of_true (.inl (hq.subscribed hgreeted).2) nofun
  | false =>
    rw [or_iff_right (hq.fresh hgreeted), imp_iff_right rfl]
    rcases hstarted with h | h <;> rw [h]
    · exact iff_of_true (List.mem_singleton_self _) rfl
    · exact iff_of_false nofun nofun

/-- What starts no operation of a connection. -/
private theorem inv_beside (hq : Inv q) (hr : ∀ op ∈ r.2, op.isConnection = false) :
    Inv (rules.put q.pending (q.object.after false r)) := by
  have hnone : r.2.countP Op.isConnection = 0 :=
    List.countP_eq_zero.mpr fun op hop ↦ Bool.eq_false_iff.mp (hr op hop)
  refine inv_continued hq (fun _ ↦ id) (fun hmem ↦ nomatch hr _ hmem) ?_ ?_
    (fun _ hmem ↦ nomatch hr _ hmem) (subscribed_after hq)
  · rw [hnone]
    exact hq.chained.one
  · intro next hnext hop
    cases (hr next hnext).symm.trans (isConnection_of_isSubscribed hop)

/-- What a control frame starts. -/
private theorem controlCallback_next {frameType : FrameType}
    (hr : s.controlCallback closeReturns frameType = .ok r) :
    ∀ op ∈ r.2, op.isConnection = false := by
  obtain rfl | hsevered := OkexStream.of_controlCallback hr
  · nofun
  · rw [severed_started hsevered]
    intro op hop
    rw [List.mem_singleton.mp hop]
    rfl

/-- One step of a stream whose connections are made in turn. -/
private theorem subscribed_step {q' : QueuedState} {e : QueuedEvent} (hq : Inv q)
    (hstep : step (SessionStream.handlers parse okexMsTimeToString closeReturns) rules q e =
      some q') (hturn : InTurn q e) :
    (Subscribed q'.object ↔ GreetsFresh parse okexMsTimeToString q.object e) ∧
      (GreetsFresh parse okexMsTimeToString q.object e → Inv q') := by
  have hother : ∀ {t : QueuedState}, Inv t → GreetsFresh parse okexMsTimeToString q.object e →
      (Subscribed t.object ↔ GreetsFresh parse okexMsTimeToString q.object e) ∧
        (GreetsFresh parse okexMsTimeToString q.object e → Inv t) :=
    fun ht hfresh ↦ ⟨iff_of_true ht.subscribed hfresh, fun _ ↦ ht⟩
  cases e with
  | stop =>
    obtain rfl := Option.some.inj hstep
    refine hother (inv_beside hq ?_) True.intro
    change ∀ op ∈ (if q.object.stream.sslWebStream then [Op.close] else []),
      op.isConnection = false
    split <;> decide
  | notify frameType =>
    obtain ⟨-, t, ht, rfl⟩ := step_notify hstep
    obtain ⟨r, hr, rfl⟩ := Option.map_eq_some_iff.mp ht
    have hnext := controlCallback_next (toOption_eq_some_iff.mp hr)
    exact hother (inv_beside hq hnext) True.intro
  | settle op result =>
    obtain ⟨hobject, hchained⟩ := hq.chained.settle id hstep
    refine hother ⟨hchained, ?_, ?_⟩ True.intro
    · rw [hobject]
      exact hq.subscribed
    · rw [hobject]
      exact hq.fresh
  | handle op result =>
    obtain ⟨hp, t, ht, rfl⟩ := step_handle hstep
    obtain ⟨r, hr', rfl⟩ := Option.map_eq_some_iff.mp ht
    have hr := toOption_eq_some_iff.mp hr'
    cases hread : (op == .read && result.isSuccess) with
    | false =>
      refine hother (inv_handled hq hp hread hturn hr) ?_
      unfold GreetsFresh
      split
      · next data heq =>
        cases heq
        cases hread
      · exact True.intro
    | true =>
      obtain ⟨hop, hsuccess⟩ := Bool.and_eq_true_iff.mp hread
      obtain rfl := eq_of_beq hop
      cases result with
      | success data =>
        have hiff := subscribed_message_iff hq hp hr
        exact ⟨hiff, fun hfresh ↦ inv_message hq hp hr (hiff.mpr hfresh)⟩
      | _ => cases hsuccess

end Steps

private theorem inv_started : Inv started := by
  refine ⟨chained_put (Nat.le_refl 1) nofun ?_, nofun, fun _ ↦ List.not_mem_nil⟩
  intro op hop
  rw [List.mem_singleton.mp hop]
  nofun

/-- Over every run whose connections are made in turn, each session that has interpreted a
message has subscribed to both kinds of channels, if and only if the first message of each
session finds `m_accountsSubscribedTo` unset and throws nothing. -/
theorem subscribed_iff_greetsFresh (parse : JsonParse)
    (okexMsTimeToString : Bytes → Option Bytes) (closeReturns : Severance → Bool)
    (events : List QueuedEvent)
    (hturn : Transition.Along
      (step (SessionStream.handlers parse okexMsTimeToString closeReturns) rules)
      (fun s e _ ↦ InTurn s e) started events) :
    Transition.Along (step (SessionStream.handlers parse okexMsTimeToString closeReturns) rules)
        (fun _ _ s' ↦ Subscribed s'.object) started events ↔
      Transition.Along (step (SessionStream.handlers parse okexMsTimeToString closeReturns) rules)
        (fun s e _ ↦ GreetsFresh parse okexMsTimeToString s.object e) started events := by
  refine Transition.along_congr_under (I := Inv) ?_ inv_started hturn
  intro s e s' hs hstep hturn
  exact subscribed_step hs hstep hturn

/-- The response to a login that is accepted. -/
def acceptedLogin : Bytes := bytes "\x7b\"event\":\"login\",\"code\":\"0\",\"msg\":\"\"\x7d"

/-- The response to one that is not. -/
def rejectedLogin : Bytes :=
  bytes "\x7b\"event\":\"error\",\"code\":\"60009\",\"msg\":\"Login failed.\"\x7d"

/-- The response to a subscription. -/
def confirmation : Bytes := bytes "\x7b\"event\":\"subscribe\"\x7d"

/-- Its first bytes. -/
def cutOff : Bytes := confirmation.take 7

/-- `json::parse` on these. -/
def parseMessage : JsonParse := fun text ↦
  if text = acceptedLogin then
    .ok (.object [(bytes "code", .string (bytes "0")), (bytes "event", .string (bytes "login")),
      (bytes "msg", .string [])])
  else if text = rejectedLogin then
    .ok (.object [(bytes "code", .string (bytes "60009")),
      (bytes "event", .string (bytes "error")), (bytes "msg", .string (bytes "Login failed."))])
  else if text = confirmation then
    .ok (.object [(bytes "event", .string (bytes "subscribe"))])
  else .error .parseError

/-- A connection up to the response to the login. -/
def connects : List QueuedEvent :=
  [Op.resolve, .connect, .sslHandshake, .wsHandshake, .loginWrite].flatMap
    fun op ↦ finish op (.success [])

/-- A session up to its first read. -/
def opensSession : List QueuedEvent :=
  connects ++ finish .loginRead (.success acceptedLogin) ++ finish .ordersWrite (.success [])

/-- A session interprets its first message, subscribes to the balances, and then its connection is
lost; another session is opened and interprets a message. Were the first one closed by a `close`
that returns, the second would find the flag set and never subscribe to the balances. -/
theorem not_subscribed_secondSession :
    ¬Transition.Along (step (SessionStream.handlers parseMessage (fun _ ↦ none) fun _ ↦ true) rules)
      (fun _ _ s' ↦ Subscribed s'.object) started
      (opensSession ++ finish .read (.success confirmation) ++
        finish .accountsWrite (.success []) ++ finish .read .failed ++
        finish .timer (.success []) ++ opensSession ++
        finish .read (.success confirmation)) := by
  decide +kernel

/-! ### A `close` that returns after a rejected login only -/

/-- There the websocket is open, and no operation on it has failed. -/
def ReturnsOnRejection (closeReturns : Severance → Bool) : Prop :=
  ∀ severance, closeReturns severance = true →
    severance = .loginRejected ∨ severance = .loginException

/-- The first message of a session throws nothing. -/
def GreetsWell (parse : JsonParse) (okexMsTimeToString : Bytes → Option Bytes)
    (s : SessionStream) : QueuedEvent → Prop
  | .handle .read (.success data) =>
    s.greeted = false → Processed parse okexMsTimeToString s.stream data
  | _ => True

instance (parse : JsonParse) (okexMsTimeToString : Bytes → Option Bytes) (s : SessionStream)
    (e : QueuedEvent) : Decidable (GreetsWell parse okexMsTimeToString s e) := by
  unfold GreetsWell Processed
  split <;> infer_instance

/-- What the stream is like while an operation is pending: it has the websocket that the operation
uses, and once a message has been interpreted, only what comes after the subscription follows. -/
def Holds (s : SessionStream) (p : Pending Op Completion) : Prop :=
  (p.op.isConnection = true → p.op ≠ .resolve → s.stream.sslWebStream = true) ∧
    (s.greeted = true → p.op = .close ∨ p.op.isSubscribed = true)

/-- The invariant: the operations follow each other, and what has set the flag is a message of the
session. -/
structure Kept (s : QueuedState) : Prop where
  chained : Chained (fun op ↦ op != .close) Holds s
  flag : s.object.stream.accountsSubscribedTo = true → s.object.greeted = true

section Kept

variable {q q' : QueuedState} {greets : Bool}

/-- A connection whose websocket is there is lost after a rejected login only. -/
private theorem rejected_of_severed (hclose : ReturnsOnRejection closeReturns)
    {severance : Severance} (hstream : s.sslWebStream = true)
    (hr : s.onWsConnectionSevered closeReturns severance = .ok r) :
    severance = .loginRejected ∨ severance = .loginException :=
  hclose severance ((OkexStream.of_onWsConnectionSevered hr).1 hstream)

private theorem stream_of_interpretGenericMessages {data : Bytes}
    (hr : s.interpretGenericMessages parse okexMsTimeToString data = .ok r) :
    r.1.sslWebStream = true := by
  unfold OkexStream.interpretGenericMessages at hr
  split at hr
  · cases hr
  · split at hr
    · dsimp only at hr
      split at hr
      · obtain ⟨hstream, rfl⟩ := OkexStream.of_onStream hr
        exact hstream
      · obtain ⟨hstream, rfl⟩ := OkexStream.of_onStream hr
        exact hstream
    · obtain ⟨hstream, rfl⟩ := OkexStream.of_onStream hr
      exact hstream

/-- Where an operation of the websocket fails, its handler does not return. -/
private theorem isSuccess_of_complete (hclose : ReturnsOnRejection closeReturns)
    (hop : op.isConnection = true) (hstream : s.sslWebStream = true)
    (hr : s.complete parse okexMsTimeToString closeReturns op result = .ok r) :
    result.isSuccess = true := by
  rw [← Bool.not_eq_false]
  intro hfailed
  obtain ⟨severance, hrejected, hexception, hsevered⟩ := complete_failed hop hfailed hr
  rcases rejected_of_severed hclose hstream hsevered with h | h
  · exact hrejected h
  · exact hexception h

/-- What a handler starts has its websocket, and comes after the subscription if the operation
does; only a message sets the flag. -/
private theorem complete_kept (hclose : ReturnsOnRejection closeReturns)
    (hstream : op.isConnection = true → op ≠ .resolve → s.sslWebStream = true)
    (hr : s.complete parse okexMsTimeToString closeReturns op result = .ok r) :
    (r.1.accountsSubscribedTo = s.accountsSubscribedTo ∨
        (op == .read && result.isSuccess) = true) ∧
      ∀ next ∈ r.2, (next.isConnection = true → next ≠ .resolve → r.1.sslWebStream = true) ∧
        (op.isSubscribed = true → next.isSubscribed = true) := by
  cases op with
  | timer =>
    obtain rfl | ⟨rfl, -⟩ := complete_timer hr
    · exact ⟨.inl rfl, nofun⟩
    · exact ⟨.inl rfl, List.forall_mem_singleton.mpr ⟨fun _ h ↦ absurd rfl h, nofun⟩⟩
  | close =>
    obtain rfl := Except.ok.inj hr
    exact ⟨.inl rfl, nofun⟩
  | resolve =>
    cases result with
    | success data =>
      obtain rfl := Except.ok.inj hr
      exact ⟨.inl rfl, List.forall_mem_singleton.mpr ⟨fun _ _ ↦ rfl, nofun⟩⟩
    | _ =>
      obtain ⟨-, rfl⟩ := OkexStream.of_onWsConnectionSevered hr
      exact ⟨.inl rfl, List.forall_mem_singleton.mpr ⟨nofun, nofun⟩⟩
  | connect =>
    have hsuccess := isSuccess_of_complete hclose rfl (hstream rfl nofun) hr
    cases result with
    | success data =>
      obtain ⟨hstream, ⟨-, rfl⟩ | ⟨hsni, -⟩⟩ := OkexStream.of_performSslHandshake hr
      · exact ⟨.inl rfl, List.forall_mem_singleton.mpr ⟨fun _ _ ↦ hstream, nofun⟩⟩
      · cases hsni
    | _ => cases hsuccess
  | sslHandshake | wsHandshake | loginWrite | ordersWrite | accountsWrite =>
    have hsuccess := isSuccess_of_complete hclose rfl (hstream rfl nofun) hr
    cases result with
    | success data =>
      obtain ⟨hstream, rfl⟩ := OkexStream.of_onStream hr
      exact ⟨.inl rfl, List.forall_mem_singleton.mpr ⟨fun _ _ ↦ hstream, by decide⟩⟩
    | _ => cases hsuccess
  | loginRead =>
    have hsuccess := isSuccess_of_complete hclose rfl (hstream rfl nofun) hr
    cases result with
    | success data =>
      obtain ⟨hstream, rfl⟩ | rfl := OkexStream.of_interpretLoginResponse hr
      · exact ⟨.inl rfl, List.forall_mem_singleton.mpr ⟨fun _ _ ↦ hstream, nofun⟩⟩
      · exact ⟨.inl rfl, List.forall_mem_singleton.mpr ⟨nofun, nofun⟩⟩
    | _ => cases hsuccess
  | read =>
    have hsuccess := isSuccess_of_complete hclose rfl (hstream rfl nofun) hr
    cases result with
    | success data =>
      have hkept := stream_of_interpretGenericMessages hr
      refine ⟨.inr rfl, ?_⟩
      obtain hwrite | hread := (interpretGenericMessages_next hr).1
      · rw [hwrite]
        exact List.forall_mem_singleton.mpr ⟨fun _ _ ↦ hkept, fun _ ↦ rfl⟩
      · rw [hread]
        exact List.forall_mem_singleton.mpr ⟨fun _ _ ↦ hkept, fun _ ↦ rfl⟩
    | _ => cases hsuccess

private theorem stream_after (o : SessionStream) : (o.after greets r).1.stream = r.1 := by
  unfold SessionStream.after
  split <;> rfl

/-- A session does not begin after a subscription. -/
private theorem isSubscribed_of_connect (hconnect : .connect ∈ r.2)
    (hr : s.complete parse okexMsTimeToString closeReturns op result = .ok r) :
    op.isSubscribed = false := by
  obtain hnone | ⟨next, hnext, hfollows⟩ := complete_next hr
  · rw [hnone] at hconnect
    cases hconnect
  · rw [hnext] at hconnect
    obtain rfl := List.mem_singleton.mp hconnect
    cases op <;> first | rfl | cases hfollows

/-- What keeps the websocket and the flag, and starts a close at most. -/
private theorem kept_beside (hq : Kept q) {rest : List (Pending Op Completion)}
    (hrest : ∀ p ∈ rest, p ∈ q.pending)
    (hone : rest.countP (fun p ↦ p.op != .close) ≤ 1) (hnext : ∀ op ∈ r.2, op = .close)
    (hstream : r.1.sslWebStream = q.object.stream.sslWebStream)
    (hflag : r.1.accountsSubscribedTo = q.object.stream.accountsSubscribedTo) :
    Kept (rules.put rest (q.object.after false r)) := by
  have hnone : r.2.countP (fun op ↦ op != .close) = 0 := by
    rw [List.countP_eq_zero]
    intro op hop
    rw [hnext op hop]
    decide
  rw [after_of_not_mem fun hmem ↦ nomatch hnext _ hmem]
  refine ⟨chained_put ?_ ?_ ?_, ?_⟩
  · rw [hnone]
    exact hone
  · intro p hp
    unfold Holds
    dsimp only
    rw [op_endBy, hstream, Bool.or_false]
    exact hq.chained.fits p (hrest p hp)
  · intro op hop
    rw [hnext op hop]
    exact ⟨nofun, fun _ ↦ .inl rfl⟩
  · change r.1.accountsSubscribedTo = true → (q.object.greeted || false) = true
    rw [hflag, Bool.or_false]
    exact hq.flag

/-- The handler of an operation that follows another. -/
private theorem kept_handled (hclose : ReturnsOnRejection closeReturns) (hq : Kept q)
    (hp : { op := op, result := some result } ∈ q.pending) (hop : op ≠ .close)
    (hr : q.object.stream.complete parse okexMsTimeToString closeReturns op result = .ok r) :
    Kept (rules.put (q.pending.erase { op := op, result := some result })
      (q.object.after (op == .read && result.isSuccess) r)) := by
  obtain ⟨hstream, hgreeted⟩ := hq.chained.fits _ hp
  obtain ⟨hflag, hnext⟩ := complete_kept hclose hstream hr
  have hchain : (op != .close) = true := bne_iff_ne.mpr hop
  have hlen : r.2.countP (fun op ↦ op != .close) ≤ 1 := by
    obtain hnone | ⟨next, hone, -⟩ := complete_next hr
    · rw [hnone]
      exact Nat.zero_le 1
    · rw [hone]
      exact List.countP_le_length
  have hrest : ∀ p ∈ q.pending.erase { op := op, result := some result }, p.op = .close := by
    intro p hp'
    exact bne_eq_false_iff_eq.mp (hq.chained.not_chain_of_mem_erase hp hchain hp')
  -- what has greeted or greets comes after the subscription
  have hsubscribed : (q.object.greeted || (op == .read && result.isSuccess)) = true →
      op.isSubscribed = true := by
    intro h
    rcases Bool.or_eq_true_iff.mp h with h | h
    · exact (hgreeted h).resolve_left hop
    · rw [eq_of_beq (Bool.and_eq_true_iff.mp h).1]
      rfl
  have hset : r.1.accountsSubscribedTo = true →
      (q.object.greeted || (op == .read && result.isSuccess)) = true := by
    intro h
    rcases hflag with hsame | hgreets
    · rw [hq.flag (hsame.symm.trans h), Bool.true_or]
    · rw [hgreets, Bool.or_true]
  have hafter : (q.object.after (op == .read && result.isSuccess) r).1.greeted =
      (q.object.greeted || (op == .read && result.isSuccess)) := by
    by_cases hconnect : .connect ∈ r.2
    · have hfirst := isSubscribed_of_connect hconnect hr
      rw [after_of_mem hconnect, Bool.eq_false_iff.mpr fun h ↦ nomatch hfirst.symm.trans
        (hsubscribed h)]
      exact Bool.eq_false_iff.mpr fun h ↦ nomatch hfirst.symm.trans
        (hsubscribed (Bool.or_eq_true_iff.mpr (.inr h)))
    · rw [after_of_not_mem hconnect]
  refine ⟨chained_put ?_ ?_ ?_, ?_⟩
  · rw [List.countP_eq_zero.mpr fun p hp' ↦ by rw [hrest p hp']; decide, Nat.zero_add]
    exact hlen
  · intro p hp'
    unfold Holds
    rw [op_endBy, hrest p hp']
    exact ⟨nofun, fun _ ↦ .inl rfl⟩
  · intro next hmem
    obtain ⟨hnextStream, hnextSubscribed⟩ := hnext next hmem
    refine ⟨fun h hresolve ↦ ?_, fun h ↦ .inr (hnextSubscribed (hsubscribed (hafter ▸ h)))⟩
    rw [stream_after]
    exact hnextStream h hresolve
  · change (q.object.after _ r).1.stream.accountsSubscribedTo = true →
      (q.object.after _ r).1.greeted = true
    rw [stream_after, hafter]
    exact hset

/-- One step: connections are made in turn, and the first message of a session finds the flag
unset. -/
private theorem kept_step {e : QueuedEvent} (hclose : ReturnsOnRejection closeReturns)
    (hq : Kept q)
    (hstep : step (SessionStream.handlers parse okexMsTimeToString closeReturns) rules q e =
      some q') :
    InTurn q e ∧ Kept q' ∧ (GreetsFresh parse okexMsTimeToString q.object e ↔
      GreetsWell parse okexMsTimeToString q.object e) := by
  cases e with
  | stop =>
    obtain rfl := Option.some.inj hstep
    refine ⟨True.intro, kept_beside hq (fun _ ↦ id) hq.chained.one ?_ rfl rfl, Iff.rfl⟩
    change ∀ op ∈ (if q.object.stream.sslWebStream then [Op.close] else []), op = .close
    split <;> decide
  | notify frameType =>
    obtain ⟨⟨p, hp, -, hread⟩, t, ht, rfl⟩ := step_notify hstep
    obtain ⟨r, hr, rfl⟩ := Option.map_eq_some_iff.mp ht
    refine ⟨True.intro, ?_, Iff.rfl⟩
    obtain rfl | hsevered := OkexStream.of_controlCallback (toOption_eq_some_iff.mp hr)
    · exact kept_beside hq (fun _ ↦ id) hq.chained.one nofun rfl rfl
    · have hop : p.op = .read ∨ p.op = .loginRead := by
        simpa [SessionStream.handlers] using hread
      have hstream : q.object.stream.sslWebStream = true := by
        refine (hq.chained.fits p hp).1 ?_ ?_ <;> rcases hop with h | h <;> rw [h] <;> decide
      rcases rejected_of_severed hclose hstream hsevered with h | h <;> cases h
  | settle op result =>
    obtain ⟨hobject, hchained⟩ := hq.chained.settle id hstep
    refine ⟨True.intro, ⟨hchained, ?_⟩, Iff.rfl⟩
    rw [hobject]
    exact hq.flag
  | handle op result =>
    obtain ⟨hp, t, ht, rfl⟩ := step_handle hstep
    obtain ⟨r, hr', rfl⟩ := Option.map_eq_some_iff.mp ht
    have hr := toOption_eq_some_iff.mp hr'
    refine ⟨?_, ?_, ?_⟩
    · cases op with
      | timer =>
        intro _ _ p hp'
        by_cases hsame : p = { op := .timer, result := some result }
        · rw [hsame]
          rfl
        · have hother := (List.mem_erase_of_ne hsame).mpr hp'
          rw [bne_eq_false_iff_eq.mp (hq.chained.not_chain_of_mem_erase hp rfl hother)]
          rfl
      | _ => exact True.intro
    · by_cases hop : op = .close
      · subst hop
        obtain rfl := Except.ok.inj hr
        refine kept_beside hq (fun p ↦ List.mem_of_mem_erase) ?_ nofun rfl rfl
        have hone := hq.chained.one
        rw [← countP_erase (fun op ↦ op != .close) hp] at hone
        exact hone
      · exact kept_handled hclose hq hp hop hr
    · unfold GreetsFresh GreetsWell
      split
      · refine forall_congr' fun hgreeted ↦ and_iff_right ?_
        refine Bool.eq_false_iff.mpr fun hset ↦ ?_
        cases hgreeted.symm.trans (hq.flag hset)
      · exact Iff.rfl

private theorem kept_started : Kept started := by
  refine ⟨chained_put (Nat.le_refl 1) nofun ?_, nofun⟩
  intro op hop
  rw [List.mem_singleton.mp hop]
  exact ⟨fun _ h ↦ absurd rfl h, nofun⟩

end Kept

/-- Over every run, where `close` returns after a rejected login only: each session that has
interpreted a message has subscribed to both kinds of channels, if and only if the first message of
each session throws nothing. -/
theorem subscribed_iff_greetsWell (parse : JsonParse) (okexMsTimeToString : Bytes → Option Bytes)
    {closeReturns : Severance → Bool} (hclose : ReturnsOnRejection closeReturns)
    (events : List QueuedEvent) :
    Transition.Along (step (SessionStream.handlers parse okexMsTimeToString closeReturns) rules)
        (fun _ _ s' ↦ Subscribed s'.object) started events ↔
      Transition.Along (step (SessionStream.handlers parse okexMsTimeToString closeReturns) rules)
        (fun s e _ ↦ GreetsWell parse okexMsTimeToString s.object e) started events := by
  refine Transition.along_congr (I := fun s ↦ Inv s ∧ Kept s) ?_ ?_ ⟨inv_started, kept_started⟩
  · rintro s e - s' ⟨hs, hkept⟩ hstep
    obtain ⟨hturn, -, hfresh⟩ := kept_step hclose hkept hstep
    exact (subscribed_step hs hstep hturn).1.trans hfresh
  · rintro s e - s' ⟨hs, hkept⟩ hstep hsubscribed
    obtain ⟨hturn, hkept', -⟩ := kept_step hclose hkept hstep
    obtain ⟨hiff, hinv⟩ := subscribed_step hs hstep hturn
    exact ⟨hinv (hiff.mp hsubscribed), hkept'⟩

/-- A login is rejected, and the next one accepted. -/
def triesAgain : List QueuedEvent :=
  connects ++ finish .loginRead (.success rejectedLogin) ++ finish .timer (.success []) ++
    opensSession ++ finish .read (.success confirmation)

/-- The websocket that is left open can be closed, and the next session subscribes to both. -/
theorem subscribed_triesAgain :
    ReturnsOnRejection (fun severance ↦ severance = .loginRejected) ∧
      Transition.Along (step (SessionStream.handlers parseMessage (fun _ ↦ none)
          fun severance ↦ severance = .loginRejected) rules)
        (fun _ _ s' ↦ Subscribed s'.object) started triesAgain ∧
      (Transition.run (step (SessionStream.handlers parseMessage (fun _ ↦ none)
        fun severance ↦ severance = .loginRejected) rules) started triesAgain).map
          (fun s ↦ s.object.subscribedTo) = some [.orders, .balanceAndPosition] := by
  have hclose : ReturnsOnRejection (fun severance ↦ severance = .loginRejected) :=
    fun _ h ↦ .inl (of_decide_eq_true h)
  exact ⟨hclose, (subscribed_iff_greetsWell parseMessage (fun _ ↦ none) hclose triesAgain).mpr
    (by decide +kernel), by decide +kernel⟩

/-- A message that is cut off throws before the flag is tested, and the session goes on without the
balances. -/
theorem not_subscribed_cutOff :
    ¬Transition.Along
      (step (SessionStream.handlers parseMessage (fun _ ↦ none) fun _ ↦ false) rules)
      (fun _ _ s' ↦ Subscribed s'.object) started
      (opensSession ++ finish .read (.success cutOff)) := by
  decide +kernel

end KeepMyJournal.AccountMonitor.Okex
