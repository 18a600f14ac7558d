import KeepMyJournal.AccountMonitor.KucoinPings
import KeepMyJournal.PriceMonitor.KucoinStream

/-!
# The pings of the KuCoin price streams

`reset_ping_timer`, `on_ping_timer_tick` and `start_ping_timer`,
`price_monitor/src/kucoin_price_stream.cpp:253–292`, over the stream without them. They read as
those of the account stream do, and both are settled here.
-/

namespace KeepMyJournal.PriceMonitor.Kucoin

open KeepMyJournal.Base KeepMyJournal.Base.Queued KeepMyJournal.Common
open KeepMyJournal.AccountMonitor (Completion RestOp restComplete)
open KeepMyJournal.AccountMonitor.Kucoin (InstanceServerData)

/-- `kucoin_price_stream_t` with its ping timer; `pingTimer` tells that `m_pingTimer` holds one. -/
structure PingedStream where
  stream : KucoinStream
  pingTimer : Bool := false

/-- The operations of the stream with those of its pings. -/
inductive PingedOp where
  | stream (op : Op)
  | pingTimer | ping
  deriving DecidableEq, Repr

/-- How an operation ends, and whether `m_tradedInstruments` is empty when its handler asks. -/
abbrev PingedResult := Completion × Bool

namespace PingedStream

/-- `reset_ping_timer`. -/
def resetPingTimer (s : PingedStream) : PingedStream := { s with pingTimer := false }

/-- `start_ping_timer`; the interval is that of the last server. -/
def startPingTimer (s : PingedStream) : Option (PingedStream × List PingedOp) :=
  if s.stream.instanceServers.isEmpty then none
  else some ({ s.resetPingTimer with pingTimer := true }, [.pingTimer])

/-- `on_ping_timer_tick`. -/
def onPingTimerTick (s : PingedStream) (result : Completion) : PingedStream × List PingedOp :=
  (s, if result.isSuccess then [.ping] else [])

/-- The handler of a ping, which does not look at its error. -/
def onPing (s : PingedStream) : Option (PingedStream × List PingedOp) :=
  if s.stream.instanceServers.isEmpty || !s.pingTimer then none else some (s, [.pingTimer])

/-- What a handler of the stream leaves, with what it does to the ping timer: the websocket
handshake starts it, and `report_error_and_retry`, which alone sleeps, resets it. -/
def afterHandler (s : PingedStream) (op : Op) (result : Completion) (r : KucoinStream × List Op) :
    Option (PingedStream × List PingedOp) :=
  let s := { s with stream := r.1 }
  let started := r.2.map .stream
  if .retry ∈ r.2 then some (s.resetPingTimer, started)
  else if op = .wsHandshake ∧ result.isSuccess = true then
    s.startPingTimer.map (fun t ↦ (t.1, t.2 ++ started))
  else some (s, started)

/-- The handlers of the operations. One that throws ends the run. -/
def complete (parse : JsonParse) (stod : Bytes → Except StdException ℚ) (s : PingedStream)
    (op : PingedOp) (result : PingedResult) : Option (PingedStream × List PingedOp) :=
  match op with
  | .stream op =>
    match KucoinStream.complete parse stod s.stream result.2 op result.1 with
    | none => none
    | some (stream, actions, started) =>
      if .throw ∈ actions then none else s.afterHandler op result.1 (stream, started)
  | .pingTimer => some (s.onPingTimerTick result.1)
  | .ping => s.onPing

/-- The stream as an object with operations in flight. It cannot be stopped and receives no
notifications. -/
def handlers (parse : JsonParse) (stod : Bytes → Except StdException ℚ) :
    Async.Handlers PingedStream Empty PingedOp PingedResult where
  stop s := (s, [])
  notify _ n := nomatch n
  complete := complete parse stod
  reads op := op = .stream .read

end PingedStream

/-- The operation uses the websocket stream; the REST client works on its lower layer. -/
def PingedOp.onWebStream : PingedOp → Bool
  | .stream (.rest _ op) => op != .resolve
  | .stream .connect | .stream .sslHandshake | .stream .wsHandshake | .stream .read
  | .stream (.write _) | .ping => true
  | _ => false

/-- The operation uses the resolver. -/
def PingedOp.onResolver : PingedOp → Bool
  | .stream (.rest _ .resolve) | .stream .resolve => true
  | _ => false

/-- The operations in progress that end when this one is started. -/
def endedBy : PingedOp → PingedOp → Bool
  -- `rest_api_initiate_connection` and `rest_api_obtain_token` replace both
  | .stream (.rest _ .resolve), op => op.onWebStream || op.onResolver
  | .stream .resolve, op => op.onResolver
  | .stream .connect, op => op.onWebStream || op.onResolver
  -- `reset_ping_timer` before the sleep, `expires_from_now` before a wait
  | .stream .retry, op | .pingTimer, op => op == .pingTimer
  | _, _ => false

/-- How the operations of a stream end. What ends an operation is no answer of the sink. -/
def rules : Rules PingedOp PingedResult where
  ends := endedBy
  aborted := (.aborted, false)
  posted _ := none

/-- A stream whose `run` is going to be called. -/
def started (tradeType : TradeType) : Queued.State PingedStream PingedOp PingedResult :=
  rules.put [] ({ stream := { tradeType := tradeType } }, [.stream .run])

/-- What an operation is for. -/
def PingedOp.role : PingedOp → Role
  | .stream .run | .stream .retry | .stream (.rest _ _) => .opening
  | .stream .resolve | .stream .connect | .stream .sslHandshake => .connecting
  | .stream .wsHandshake => .handshake
  | .stream .read | .stream (.write _) => .connected
  | .pingTimer => .wait
  | .ping => .ping

/-- The handler runs `report_error_and_retry`. -/
def PingedOp.retries : PingedOp → PingedResult → Bool
  | .stream .resolve, (result, _) | .stream .wsHandshake, (result, _)
  | .stream (.write _), (result, _) => !result.isSuccess
  | .stream .connect, (.aborted, _) | .stream .connect, (.failed, _)
  | .stream .read, (.noServerName, _) | .stream .read, (.failed, _) => true
  | _, _ => false

/-- What the ping handlers see of a stream. -/
def pingView : PingView PingedStream PingedOp PingedResult where
  role := PingedOp.role
  timer s := s.pingTimer
  endpoint s := !s.stream.instanceServers.isEmpty
  ok result := result.1.isSuccess
  retries := PingedOp.retries

/-! ### What the handlers do to the pings -/

section Outcomes

variable {parse : JsonParse} {stod : Bytes → Except StdException ℚ} {s : PingedStream}
  {result : PingedResult} {t : PingedStream × List PingedOp}

/-- A handler of the stream that returns leaves a stream that has not thrown. -/
private theorem complete_stream {op : Op}
    (ht : PingedStream.complete parse stod s (.stream op) result = some t) :
    ∃ r : Result, KucoinStream.complete parse stod s.stream result.2 op result.1 = some r ∧
      s.afterHandler op result.1 (r.1, r.2.2) = some t := by
  unfold PingedStream.complete at ht
  dsimp only at ht
  split at ht
  · cases ht
  · next stream actions started hr =>
    split at ht
    · cases ht
    · exact ⟨_, hr, ht⟩

/-- A handler that neither begins anew nor ends the handshake, and what the pings see of it. -/
private theorem goesOn {op : Op} {r : KucoinStream × List Op}
    (ht : s.afterHandler op result.1 r = some t)
    (hop : (PingedOp.stream op).role.isChain = true)
    (hretries : (PingedOp.stream op).retries result = false) (hhandshake : op ≠ .wsHandshake)
    (hservers : s.pingTimer = true → r.1.instanceServers = s.stream.instanceServers)
    (hlen : r.2.length ≤ 1)
    (hnext : ∀ next ∈ r.2, next ≠ .retry ∧ (PingedOp.stream next).role.isChain = true ∧
      pingView.Fits { s with stream := r.1 } (.stream next)) :
    pingView.Outcome s (.stream op) result t := by
  unfold PingedStream.afterHandler at ht
  dsimp only at ht
  rw [if_neg (fun h ↦ (hnext _ h).1 rfl), if_neg (fun h ↦ hhandshake h.1)] at ht
  obtain rfl := Option.some.inj ht
  refine .goesOn hop hretries rfl ?_ ((List.length_map _).trans_le hlen) ?_
  · intro hon
    change (!r.1.instanceServers.isEmpty) = !s.stream.instanceServers.isEmpty
    rw [hservers hon]
  · intro next hmem
    obtain ⟨op, hop, rfl⟩ := List.mem_map.mp hmem
    exact (hnext op hop).2

/-- `report_error_and_retry`. -/
private theorem beginsAnew {op : Op} {stream : KucoinStream}
    (hop : (PingedOp.stream op).role.isChain = true)
    (hretries : (PingedOp.stream op).retries result = true)
    (ht : s.afterHandler op result.1 (stream, [.retry]) = some t) :
    pingView.Outcome s (.stream op) result t := by
  unfold PingedStream.afterHandler at ht
  dsimp only at ht
  rw [if_pos (List.mem_singleton_self _)] at ht
  obtain rfl := Option.some.inj ht
  refine .beginsAnew hop hretries rfl (Nat.le_refl 1) ?_
  intro next hmem
  rw [List.mem_singleton.mp hmem]
  rfl

private theorem outcome_initiate {op : Op} (hop : op = .run ∨ op = .retry)
    (hfits : pingView.Fits s (.stream op))
    (ht : PingedStream.complete parse stod s (.stream op) result = some t) :
    pingView.Outcome s (.stream op) result t := by
  have htimer : s.pingTimer = false := by
    rcases hop with rfl | rfl <;> exact hfits
  obtain ⟨r, hr, ht⟩ := complete_stream ht
  have hinit : r = s.stream.restApiInitiateConnection result.2 := by
    rcases hop with rfl | rfl <;> exact (Option.some.inj hr).symm
  have hstarted : ∃ request, r.2.2 = [.rest request .resolve] := by
    rw [hinit]
    unfold KucoinStream.restApiInitiateConnection
    split
    · exact ⟨.token, rfl⟩
    · exact ⟨.instruments, rfl⟩
  obtain ⟨request, hstarted⟩ := hstarted
  refine goesOn ht ?_ ?_ ?_ ?_ ?_ ?_
  · rcases hop with rfl | rfl <;> rfl
  · rcases hop with rfl | rfl <;> rfl
  · rcases hop with rfl | rfl <;> nofun
  · intro hon
    cases htimer.symm.trans hon
  · rw [hstarted]
    exact Nat.le_refl 1
  · intro next hmem
    rw [hstarted] at hmem
    rw [List.mem_singleton.mp hmem]
    exact ⟨nofun, rfl, htimer⟩

/-- What a response starts: the token request, or the resolution of the name of a server. -/
private theorem onSuccess_started {stream : KucoinStream} {request : Request} {data : Bytes}
    {r : Result} (hr : stream.onSuccess parse stod request data = some r) :
    r.2.2 = [] ∨ r.2.2 = [.rest .token .resolve] ∨
      r.2.2 = [.resolve] ∧ r.1.instanceServers.isEmpty = false := by
  cases request with
  | instruments =>
    change stream.onInstrumentsReceived parse stod data = some r at hr
    unfold KucoinStream.onInstrumentsReceived at hr
    dsimp only at hr
    split at hr
    · split at hr
      · cases hr
      · obtain rfl := Option.some.inj hr
        exact .inr (.inl rfl)
    · split at hr
      · cases hr
      · obtain rfl := Option.some.inj hr
        exact .inl rfl
      · obtain rfl := Option.some.inj hr
        exact .inr (.inl rfl)
  | token =>
    unfold KucoinStream.onSuccess at hr
    dsimp only at hr
    split at hr
    · cases hr
    · obtain rfl := Option.some.inj hr
      unfold KucoinStream.initiateWebsocketConnection
      dsimp only
      split
      · exact .inl rfl
      · split
        · exact .inl rfl
        · next hsome => exact .inr (.inr ⟨rfl, Bool.eq_false_iff.mpr hsome⟩)

private theorem outcome_rest {request : Request} {op : RestOp}
    (hfits : pingView.Fits s (.stream (.rest request op)))
    (ht : PingedStream.complete parse stod s (.stream (.rest request op)) result = some t) :
    pingView.Outcome s (.stream (.rest request op)) result t := by
  have htimer : s.pingTimer = false := hfits
  have hoff : ∀ {stream : KucoinStream}, s.pingTimer = true →
      stream.instanceServers = s.stream.instanceServers := by
    intro stream hon
    cases htimer.symm.trans hon
  obtain ⟨r, hr, ht⟩ := complete_stream ht
  unfold KucoinStream.complete at hr
  dsimp only at hr
  split at hr
  · obtain rfl := Option.some.inj hr
    refine goesOn ht rfl rfl nofun hoff (Nat.le_refl 1) ?_
    intro next hmem
    rw [List.mem_singleton.mp hmem]
    exact ⟨nofun, rfl, htimer⟩
  · obtain rfl := Option.some.inj hr
    exact goesOn ht rfl rfl nofun hoff (Nat.zero_le 1) nofun
  · obtain hnone | htoken | ⟨hresolve, hservers⟩ := onSuccess_started hr
    · refine goesOn ht rfl rfl nofun hoff ?_ ?_
      · rw [hnone]
        exact Nat.zero_le 1
      · rw [hnone]
        nofun
    · refine goesOn ht rfl rfl nofun hoff ?_ ?_
      · rw [htoken]
        exact Nat.le_refl 1
      · intro next hmem
        rw [htoken] at hmem
        rw [List.mem_singleton.mp hmem]
        exact ⟨nofun, rfl, htimer⟩
    · refine goesOn ht rfl rfl nofun hoff ?_ ?_
      · rw [hresolve]
        exact Nat.le_refl 1
      · intro next hmem
        rw [hresolve] at hmem
        rw [List.mem_singleton.mp hmem]
        refine ⟨nofun, rfl, htimer, ?_⟩
        change (!r.1.instanceServers.isEmpty) = true
        rw [hservers]
        rfl

/-- A handler that keeps the stream and starts the next operation of its chain. -/
private theorem goesOn_next {op next : Op}
    (ht : s.afterHandler op result.1 (s.stream, [next]) = some t)
    (hop : (PingedOp.stream op).role.isChain = true)
    (hretries : (PingedOp.stream op).retries result = false) (hhandshake : op ≠ .wsHandshake)
    (hnext : next ≠ .retry ∧ (PingedOp.stream next).role.isChain = true ∧
      pingView.Fits s (.stream next)) :
    pingView.Outcome s (.stream op) result t := by
  refine goesOn ht hop hretries hhandshake (fun _ ↦ rfl) (Nat.le_refl 1) ?_
  intro other hmem
  rw [List.mem_singleton.mp hmem]
  exact hnext

/-- A handler that keeps the stream and starts nothing. -/
private theorem goesOn_nil {op : Op} (ht : s.afterHandler op result.1 (s.stream, []) = some t)
    (hop : (PingedOp.stream op).role.isChain = true)
    (hretries : (PingedOp.stream op).retries result = false) (hhandshake : op ≠ .wsHandshake) :
    pingView.Outcome s (.stream op) result t :=
  goesOn ht hop hretries hhandshake (fun _ ↦ rfl) (Nat.zero_le 1) nofun

private theorem outcome_resolve (hfits : pingView.Fits s (.stream .resolve))
    (ht : PingedStream.complete parse stod s (.stream .resolve) result = some t) :
    pingView.Outcome s (.stream .resolve) result t := by
  obtain ⟨r, hr, ht⟩ := complete_stream ht
  obtain ⟨result, empty⟩ := result
  cases result with
  | success data =>
    obtain rfl := Option.some.inj hr
    exact goesOn_next ht rfl rfl nofun ⟨nofun, rfl, hfits⟩
  | _ =>
    obtain rfl := Option.some.inj hr
    exact beginsAnew rfl rfl ht

private theorem outcome_connect (hfits : pingView.Fits s (.stream .connect))
    (ht : PingedStream.complete parse stod s (.stream .connect) result = some t) :
    pingView.Outcome s (.stream .connect) result t := by
  obtain ⟨r, hr, ht⟩ := complete_stream ht
  obtain ⟨result, empty⟩ := result
  cases result with
  | success data =>
    obtain rfl := Option.some.inj hr
    exact goesOn_next ht rfl rfl nofun ⟨nofun, rfl, hfits⟩
  | noServerName =>
    obtain rfl := Option.some.inj hr
    exact goesOn_nil ht rfl rfl nofun
  | aborted | failed =>
    obtain rfl := Option.some.inj hr
    exact beginsAnew rfl rfl ht

private theorem outcome_sslHandshake (hfits : pingView.Fits s (.stream .sslHandshake))
    (ht : PingedStream.complete parse stod s (.stream .sslHandshake) result = some t) :
    pingView.Outcome s (.stream .sslHandshake) result t := by
  obtain ⟨r, hr, ht⟩ := complete_stream ht
  obtain ⟨result, empty⟩ := result
  cases result with
  | success data =>
    obtain rfl := Option.some.inj hr
    exact goesOn_next ht rfl rfl nofun ⟨nofun, rfl, hfits⟩
  | _ =>
    obtain rfl := Option.some.inj hr
    exact goesOn_nil ht rfl rfl nofun

private theorem outcome_wsHandshake
    (ht : PingedStream.complete parse stod s (.stream .wsHandshake) result = some t) :
    pingView.Outcome s (.stream .wsHandshake) result t := by
  obtain ⟨r, hr, ht⟩ := complete_stream ht
  obtain ⟨result, empty⟩ := result
  cases result with
  | success data =>
    obtain rfl := Option.some.inj hr
    change s.afterHandler .wsHandshake (.success data) (s.stream, [.read]) = some t at ht
    unfold PingedStream.afterHandler at ht
    dsimp only at ht
    rw [if_neg (by decide), if_pos ⟨rfl, rfl⟩] at ht
    obtain ⟨timed, htimed, rfl⟩ := Option.map_eq_some_iff.mp ht
    unfold PingedStream.startPingTimer at htimed
    split at htimed
    · cases htimed
    · next hservers =>
      obtain rfl := Option.some.inj htimed
      refine .stands rfl rfl rfl ?_ rfl rfl rfl
      change (!s.stream.instanceServers.isEmpty) = true
      rw [Bool.eq_false_iff.mpr hservers]
      rfl
  | _ =>
    obtain rfl := Option.some.inj hr
    exact beginsAnew rfl rfl ht

/-- A subscription changes no server and writes at most once. -/
private theorem sendTickerSubscription_started {stream : KucoinStream} {r : Result}
    (hr : stream.sendTickerSubscription = some r) :
    r.1.instanceServers = stream.instanceServers ∧
      (r.2.2 = [] ∨ ∃ topic, r.2.2 = [.write topic]) := by
  unfold KucoinStream.sendTickerSubscription at hr
  split at hr
  · obtain rfl := Option.some.inj hr
    exact ⟨rfl, .inr ⟨_, rfl⟩⟩
  · split at hr
    · cases hr
    · next subscribed topic hsubscription =>
      have hservers : subscribed.instanceServers = stream.instanceServers := by
        unfold KucoinStream.getSubscriptionJson at hsubscription
        dsimp only at hsubscription
        split at hsubscription
        · split at hsubscription
          · cases hsubscription
          · rw [← (Prod.mk.inj (Option.some.inj hsubscription)).1]
        · rw [← (Prod.mk.inj (Option.some.inj hsubscription)).1]
      split at hr
      · obtain rfl := Option.some.inj hr
        exact ⟨hservers, .inr ⟨topic, rfl⟩⟩
      · obtain rfl := Option.some.inj hr
        exact ⟨hservers, .inl rfl⟩

/-- A message changes no server, and starts one read or write at most. -/
private theorem interpretGenericMessages_started {stream : KucoinStream} {buffer : Bytes}
    {r : Result} (hr : stream.interpretGenericMessages parse stod buffer = some r) :
    r.1.instanceServers = stream.instanceServers ∧
      (r.2.2 = [] ∨ ∃ next, r.2.2 = [next] ∧ (PingedOp.stream next).role = .connected) := by
  unfold KucoinStream.interpretGenericMessages at hr
  split at hr
  · obtain rfl := Option.some.inj hr
    exact ⟨rfl, .inl rfl⟩
  · obtain ⟨sent, hsent, rfl⟩ := Option.map_eq_some_iff.mp hr
    split at hsent
    · obtain ⟨hservers, hstarted⟩ := sendTickerSubscription_started hsent
      refine ⟨hservers, hstarted.imp_right ?_⟩
      rintro ⟨topic, htopic⟩
      exact ⟨.write topic, htopic, rfl⟩
    · obtain rfl := Option.some.inj hsent
      exact ⟨rfl, .inr ⟨.read, rfl, rfl⟩⟩

private theorem outcome_read
    (ht : PingedStream.complete parse stod s (.stream .read) result = some t) :
    pingView.Outcome s (.stream .read) result t := by
  obtain ⟨r, hr, ht⟩ := complete_stream ht
  obtain ⟨result, empty⟩ := result
  cases result with
  | success data =>
    obtain ⟨hservers, hstarted⟩ := interpretGenericMessages_started hr
    rcases hstarted with hnone | ⟨next, hnext, hrole⟩
    · refine goesOn ht rfl rfl nofun (fun _ ↦ hservers) ?_ ?_
      · rw [hnone]
        exact Nat.zero_le 1
      · rw [hnone]
        nofun
    · refine goesOn ht rfl rfl nofun (fun _ ↦ hservers) ?_ ?_
      · rw [hnext]
        exact Nat.le_refl 1
      · intro other hmem
        rw [hnext] at hmem
        rw [List.mem_singleton.mp hmem]
        refine ⟨?_, ?_, PingView.fits_of_connected hrole⟩
        · rintro rfl
          cases hrole
        · rw [hrole]
          rfl
  | aborted =>
    obtain rfl := Option.some.inj hr
    exact goesOn_nil ht rfl rfl nofun
  | noServerName | failed =>
    obtain rfl := Option.some.inj hr
    exact beginsAnew rfl rfl ht

private theorem outcome_write {topic : Bytes}
    (ht : PingedStream.complete parse stod s (.stream (.write topic)) result = some t) :
    pingView.Outcome s (.stream (.write topic)) result t := by
  obtain ⟨r, hr, ht⟩ := complete_stream ht
  obtain ⟨result, empty⟩ := result
  cases result with
  | success data =>
    obtain rfl := Option.some.inj hr
    refine goesOn ht rfl rfl nofun (fun _ ↦ rfl) (Nat.le_refl 1) ?_
    intro next hmem
    rw [List.mem_singleton.mp hmem]
    exact ⟨nofun, rfl, True.intro⟩
  | _ =>
    obtain rfl := Option.some.inj hr
    exact beginsAnew rfl rfl ht

end Outcomes

private theorem complete_ping_ne_none_iff (parse : JsonParse)
    (stod : Bytes → Except StdException ℚ) (s : PingedStream) (result : PingedResult) :
    s.complete parse stod .ping result ≠ none ↔
      s.pingTimer = true ∧ (!s.stream.instanceServers.isEmpty) = true := by
  change s.onPing ≠ none ↔ _
  unfold PingedStream.onPing
  cases s.pingTimer <;> cases s.stream.instanceServers.isEmpty <;> simp

private theorem complete_wsHandshake_ne_none (parse : JsonParse)
    (stod : Bytes → Except StdException ℚ) {s : PingedStream} (result : PingedResult)
    (hservers : pingView.endpoint s = true) :
    s.complete parse stod (.stream .wsHandshake) result ≠ none := by
  obtain ⟨result, empty⟩ := result
  cases result with
  | success data =>
    change s.afterHandler .wsHandshake (.success data) (s.stream, [.read]) ≠ none
    unfold PingedStream.afterHandler PingedStream.startPingTimer
    dsimp only
    have hsome : s.stream.instanceServers.isEmpty = false := by
      rw [← Bool.not_eq_true']
      exact hservers
    rw [if_neg (by decide), if_pos ⟨rfl, rfl⟩, hsome]
    nofun
  | _ => nofun

/-- The ping handlers of the price streams are those of an object that pings. -/
theorem pinging (parse : JsonParse) (stod : Bytes → Except StdException ℚ) :
    Pinging (PingedStream.handlers parse stod) pingView where
  stop _ := rfl
  outcome s op result t hfits ht := by
    change s.complete parse stod op result = some t at ht
    cases op with
    | stream op =>
      cases op with
      | run => exact outcome_initiate (.inl rfl) hfits ht
      | retry => exact outcome_initiate (.inr rfl) hfits ht
      | rest request op => exact outcome_rest hfits ht
      | resolve => exact outcome_resolve hfits ht
      | connect => exact outcome_connect hfits ht
      | sslHandshake => exact outcome_sslHandshake hfits ht
      | wsHandshake => exact outcome_wsHandshake ht
      | read => exact outcome_read ht
      | write topic => exact outcome_write ht
    | pingTimer =>
      obtain rfl := Option.some.inj ht
      exact .ticks rfl rfl rfl (show pingView.role PingedOp.ping = .ping from rfl) rfl
    | ping =>
      change s.onPing = some t at ht
      unfold PingedStream.onPing at ht
      split at ht
      · cases ht
      · obtain rfl := Option.some.inj ht
        refine .waits rfl rfl rfl ?_
        intro next hnext
        rw [List.mem_singleton.mp hnext]
        rfl
  ping s op result hop := by
    cases op with
    | ping => exact complete_ping_ne_none_iff parse stod s result
    | stream op => cases op <;> cases hop
    | pingTimer => cases hop
  handshake s op result hop hservers := by
    cases op with
    | stream op =>
      cases op with
      | wsHandshake => exact complete_wsHandshake_ne_none parse stod result hservers
      | _ => cases hop
    | ping | pingTimer => cases hop

private theorem inv_started (tradeType : TradeType) : pingView.Inv (started tradeType) := by
  refine ⟨chained_put (Nat.le_refl 1) nofun ?_, nofun⟩
  intro op hop
  rw [List.mem_singleton.mp hop]
  rfl

/-- In every run of an account stream and of a price stream of KuCoin, the handlers of the pings
and of the websocket handshake never use an empty timer nor an empty list of servers, if and
only if `report_error_and_retry` never runs while a ping is pending, and no wait that has ended
without an error is handled while there is no timer. -/
theorem pings_defined_iff (parse : JsonParse) (stod : Bytes → Except StdException ℚ)
    (tradeType : TradeType) :
    (∀ events,
      Transition.Along
          (step (AccountMonitor.Kucoin.KucoinStream.handlers parse) AccountMonitor.Kucoin.rules)
          (fun _ _ s' ↦ Defined (AccountMonitor.Kucoin.KucoinStream.handlers parse)
            AccountMonitor.Kucoin.pingView.needs s')
          (AccountMonitor.Kucoin.started tradeType) events ↔
        Transition.Along
          (step (AccountMonitor.Kucoin.KucoinStream.handlers parse) AccountMonitor.Kucoin.rules)
          (fun s e _ ↦ AccountMonitor.Kucoin.pingView.Spares s e)
          (AccountMonitor.Kucoin.started tradeType) events) ∧
    ∀ events,
      Transition.Along (step (PingedStream.handlers parse stod) rules)
          (fun _ _ s' ↦ Defined (PingedStream.handlers parse stod) pingView.needs s')
          (started tradeType) events ↔
        Transition.Along (step (PingedStream.handlers parse stod) rules)
          (fun s e _ ↦ pingView.Spares s e) (started tradeType) events :=
  ⟨(AccountMonitor.Kucoin.pinging parse).along_defined_iff
      (AccountMonitor.Kucoin.inv_started tradeType),
    (pinging parse stod).along_defined_iff (inv_started tradeType)⟩

/-! ### A read that fails -/

/-- The account stream connects and pings, and the read fails before the ping is over. -/
def accountReadFails :
    List (Event Empty AccountMonitor.Kucoin.Op Completion) :=
  ([RestOp.resolve, .connect, .sslHandshake, .write].map AccountMonitor.Kucoin.Op.rest).flatMap
      (fun op ↦ finish op (.success [])) ++
    finish (.rest .read) (.success (bytes "token")) ++
    [AccountMonitor.Kucoin.Op.resolve, .connect, .sslHandshake, .wsHandshake, .pingTimer].flatMap
      (fun op ↦ finish op (.success [])) ++
    [.settle .read .failed]

/-- A price stream does the same. -/
def priceReadFails : List (Event Empty PingedOp PingedResult) :=
  (Op.run :: [RestOp.resolve, .connect, .sslHandshake, .write].map (Op.rest .token)).flatMap
      (fun op ↦ finish (.stream op) (.success [], false)) ++
    finish (.stream (.rest .token .read)) (.success (bytes "token"), false) ++
    ([Op.resolve, .connect, .sslHandshake, .wsHandshake].map PingedOp.stream ++
        [PingedOp.pingTimer]).flatMap
      (fun op ↦ finish op (.success [], false)) ++
    [.settle (.stream .read) (.failed, false)]

/-- The read fails while a ping is in flight: the timer is reset, the ping is ended with the
stream, and its handler uses the timer. -/
theorem not_pings_defined_readFails :
    ¬Transition.Along
        (step (AccountMonitor.Kucoin.KucoinStream.handlers sampleParse)
          AccountMonitor.Kucoin.rules)
        (fun _ _ s' ↦ Defined (AccountMonitor.Kucoin.KucoinStream.handlers sampleParse)
          AccountMonitor.Kucoin.pingView.needs s')
        (AccountMonitor.Kucoin.started .spot) (accountReadFails ++ [.handle .read .failed]) ∧
      ¬Transition.Along (step (PingedStream.handlers sampleParse fun _ ↦ .ok 0) rules)
        (fun _ _ s' ↦ Defined (PingedStream.handlers sampleParse fun _ ↦ .ok 0)
          pingView.needs s')
        (started .spot) (priceReadFails ++ [.handle (.stream .read) (.failed, false)]) := by
  constructor
  · intro h
    have hdefined := Transition.along_iff_prefix.mp h accountReadFails (.handle .read .failed) []
      rfl _ _ rfl rfl
    exact hdefined { op := .ping, result := some .aborted } (by decide +kernel) rfl .aborted
      (.inr rfl) rfl
  · intro h
    have hdefined := Transition.along_iff_prefix.mp h priceReadFails
      (.handle (.stream .read) (.failed, false)) [] rfl _ _ rfl rfl
    exact hdefined { op := .ping } (by decide +kernel) rfl (.aborted, false) (.inl rfl) rfl

end KeepMyJournal.PriceMonitor.Kucoin
