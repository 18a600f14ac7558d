import KeepMyJournal.AccountMonitor.KucoinStream
import KeepMyJournal.Base.Pings

/-!
# The pings of the KuCoin account stream

`reset_ping_timer`, `on_ping_timer_tick` and `start_ping_timer`,
`account_monitor/src/kucoin_user_stream.cpp:184–219`, beside the other handlers of the stream.
The handler of a ping tests neither its error nor the timer nor the servers. A stream that is
replaced ends what is in progress on it, a ping among them.
-/

namespace KeepMyJournal.AccountMonitor.Kucoin

open KeepMyJournal.Base KeepMyJournal.Base.Queued KeepMyJournal.Common

/-- The operation uses the websocket stream; the REST client works on its lower layer. -/
def Op.onWebStream : Op → Bool
  | .rest op => op != .resolve
  | .connect | .sslHandshake | .wsHandshake | .read | .write _ | .ping => true
  | _ => false

/-- The operation uses the resolver. -/
def Op.onResolver : Op → Bool
  | .rest .resolve | .resolve => true
  | _ => false

/-- The operations in progress that end when this one is started. -/
def endedBy : Op → Op → Bool
  -- `rest_api_obtain_token` replaces the stream and the resolver, after an error also the timer
  | .rest .resolve, op => op.onWebStream || op.onResolver || op == .pingTimer
  | .resolve, op => op.onResolver
  | .connect, op => op.onWebStream || op.onResolver
  | .pingTimer, op => op == .pingTimer
  | _, _ => false

/-- How the operations of a stream end. -/
def rules : Rules Op Completion where
  ends := endedBy
  aborted := .aborted
  posted _ := none

/-- The stream right after `run`. -/
def started (tradeType : TradeType) : Queued.State KucoinStream Op Completion :=
  rules.put [] (KucoinStream.run { tradeType := tradeType })

/-- What an operation is for. -/
def Op.role : Op → Role
  | .rest _ => .opening
  | .resolve | .connect | .sslHandshake => .connecting
  | .wsHandshake => .handshake
  | .read | .write _ => .connected
  | .pingTimer => .wait
  | .ping => .ping

/-- The handler runs `report_error_and_retry`. -/
def Op.retries : Op → Completion → Bool
  | .resolve, result | .wsHandshake, result | .write _, result => !result.isSuccess
  | .connect, .aborted | .connect, .failed | .read, .noServerName | .read, .failed => true
  | _, _ => false

/-- What the ping handlers see of a stream. -/
def pingView : PingView KucoinStream Op Completion where
  role := Op.role
  timer s := s.pingTimer
  endpoint s := !s.instanceServers.isEmpty
  ok := Completion.isSuccess
  retries := Op.retries

variable {parse : JsonParse} {s : KucoinStream} {op : Op} {result : Completion}
  {r : KucoinStream × List Op}

private theorem pingTimer_onTokenObtained (parse : JsonParse) (s : KucoinStream) (str : Bytes) :
    (s.onTokenObtained parse str).1.pingTimer = s.pingTimer := by
  unfold KucoinStream.onTokenObtained
  split
  · rfl
  · split
    · split
      · rfl
      · split
        · split
          · dsimp only
            split <;> rfl
          · rfl
        · rfl
    · rfl

/-- The name of a server is resolved only if there is a server. -/
private theorem initiateWebsocketConnection_spec (s : KucoinStream) :
    s.initiateWebsocketConnection.1.pingTimer = s.pingTimer ∧
      (s.initiateWebsocketConnection.2 = [] ∨ s.initiateWebsocketConnection.2 = [.resolve] ∧
        s.initiateWebsocketConnection.1.instanceServers.isEmpty = false) := by
  unfold KucoinStream.initiateWebsocketConnection
  dsimp only
  split
  · exact ⟨rfl, .inl rfl⟩
  · split
    · exact ⟨rfl, .inl rfl⟩
    · next hsome => exact ⟨rfl, .inr ⟨rfl, Bool.eq_false_iff.mpr hsome⟩⟩

/-- A message changes neither the timer nor the servers, and starts one read or write at most. -/
private theorem interpretGenericMessages_spec (s : KucoinStream) :
    s.interpretGenericMessages.1.pingTimer = s.pingTimer ∧
      s.interpretGenericMessages.1.instanceServers = s.instanceServers ∧
      s.interpretGenericMessages.2.length ≤ 1 ∧
      ∀ next ∈ s.interpretGenericMessages.2, next.role = .connected := by
  unfold KucoinStream.interpretGenericMessages KucoinStream.sendNextSubscription
  cases s.stage <;>
    simp [KucoinStream.writeSubscription, KucoinStream.waitForMessages, Op.role]

/-- A handler of the chain that keeps what the pings see and starts one operation at most. -/
private theorem goesOn {t : KucoinStream} {started : List Op}
    (hop : op.role.isChain = true) (hretries : op.retries result = false)
    (htimer : t.pingTimer = s.pingTimer) (hservers : t.instanceServers = s.instanceServers)
    (hlen : started.length ≤ 1)
    (hnext : ∀ next ∈ started, next.role.isChain = true ∧ pingView.Fits t next) :
    pingView.Outcome s op result (t, started) := by
  refine .goesOn hop hretries htimer (fun _ ↦ ?_) hlen hnext
  change (!t.instanceServers.isEmpty) = !s.instanceServers.isEmpty
  rw [hservers]

private theorem beginsAnew (hop : op.role.isChain = true) (hretries : op.retries result = true) :
    pingView.Outcome s op result s.reportErrorAndRetry := by
  refine .beginsAnew hop hretries rfl (Nat.le_refl 1) ?_
  intro next hnext
  rw [List.mem_singleton.mp hnext]
  rfl

private theorem outcome_rest {op : RestOp} (hfits : pingView.Fits s (.rest op))
    (hr : s.complete parse (.rest op) result = some r) :
    pingView.Outcome s (.rest op) result r := by
  have htimer : s.pingTimer = false := hfits
  unfold KucoinStream.complete at hr
  dsimp only at hr
  split at hr
  · obtain rfl := Option.some.inj hr
    refine goesOn rfl rfl rfl rfl (Nat.le_refl 1) ?_
    intro next hnext
    rw [List.mem_singleton.mp hnext]
    exact ⟨rfl, htimer⟩
  · obtain rfl := Option.some.inj hr
    exact goesOn rfl rfl rfl rfl (Nat.zero_le 1) nofun
  · next data _ =>
    unfold KucoinStream.onSuccess at hr
    split at hr
    · cases hr
    · next t fault _ htoken =>
      obtain rfl := Option.some.inj hr
      have ht := pingTimer_onTokenObtained parse s data
      rw [htoken] at ht
      obtain ⟨hkept, hstarted⟩ := initiateWebsocketConnection_spec t
      have hkept' := hkept.trans ht
      refine .goesOn rfl rfl hkept' ?_ ?_ ?_
      · intro hon
        cases htimer.symm.trans hon
      · rcases hstarted with hnone | ⟨hresolve, -⟩
        · rw [hnone]
          exact Nat.zero_le 1
        · rw [hresolve]
          exact Nat.le_refl 1
      · intro next hnext
        rcases hstarted with hnone | ⟨hresolve, hservers⟩
        · rw [hnone] at hnext
          cases hnext
        · rw [hresolve] at hnext
          rw [List.mem_singleton.mp hnext]
          refine ⟨rfl, hkept'.trans htimer, ?_⟩
          change (!t.initiateWebsocketConnection.1.instanceServers.isEmpty) = true
          rw [hservers]
          rfl

private theorem outcome_connecting (hop : op = .resolve ∨ op = .connect ∨ op = .sslHandshake)
    (hfits : pingView.Fits s op) (hr : s.complete parse op result = some r) :
    pingView.Outcome s op result r := by
  have hconnecting : s.pingTimer = false ∧ pingView.endpoint s = true := by
    rcases hop with rfl | rfl | rfl <;> exact hfits
  rcases hop with rfl | rfl | rfl <;> cases result <;> obtain rfl := Option.some.inj hr
  all_goals first
    | exact beginsAnew rfl rfl
    | exact goesOn rfl rfl rfl rfl (Nat.zero_le 1) nofun
    | refine goesOn rfl rfl rfl rfl (Nat.le_refl 1) ?_
      intro next hnext
      rw [List.mem_singleton.mp hnext]
      exact ⟨rfl, hconnecting⟩

private theorem outcome_wsHandshake (hr : s.complete parse .wsHandshake result = some r) :
    pingView.Outcome s .wsHandshake result r := by
  cases result with
  | success data =>
    change s.startPingTimer.map (fun r ↦ (r.1, r.2 ++ r.1.waitForMessages.2)) = some r at hr
    obtain ⟨timed, htimed, rfl⟩ := Option.map_eq_some_iff.mp hr
    unfold KucoinStream.startPingTimer at htimed
    split at htimed
    · cases htimed
    · next hservers =>
      obtain rfl := Option.some.inj htimed
      refine .stands rfl rfl rfl ?_ rfl rfl rfl
      change (!s.instanceServers.isEmpty) = true
      rw [Bool.eq_false_iff.mpr hservers]
      rfl
  | _ =>
    obtain rfl := Option.some.inj hr
    exact beginsAnew rfl rfl

private theorem outcome_read (hr : s.complete parse .read result = some r) :
    pingView.Outcome s .read result r := by
  cases result with
  | success data =>
    obtain rfl := Option.some.inj hr
    obtain ⟨htimer, hservers, hlen, hnext⟩ := interpretGenericMessages_spec s
    refine goesOn rfl rfl htimer hservers hlen ?_
    intro next hmem
    refine ⟨?_, PingView.fits_of_connected (hnext next hmem)⟩
    rw [hnext next hmem]
    rfl
  | aborted =>
    obtain rfl := Option.some.inj hr
    exact goesOn rfl rfl rfl rfl (Nat.zero_le 1) nofun
  | noServerName | failed =>
    obtain rfl := Option.some.inj hr
    exact beginsAnew rfl rfl

private theorem outcome_write {topic : Bytes}
    (hr : s.complete parse (.write topic) result = some r) :
    pingView.Outcome s (.write topic) result r := by
  cases result with
  | success data =>
    obtain rfl := Option.some.inj hr
    refine goesOn rfl rfl rfl rfl (Nat.le_refl 1) ?_
    intro next hnext
    rw [List.mem_singleton.mp hnext]
    exact ⟨rfl, True.intro⟩
  | _ =>
    obtain rfl := Option.some.inj hr
    refine .beginsAnew rfl rfl rfl (Nat.le_refl 1) ?_
    intro next hnext
    rw [List.mem_singleton.mp hnext]
    rfl

private theorem complete_ping_ne_none_iff (parse : JsonParse) (s : KucoinStream)
    (result : Completion) : s.complete parse .ping result ≠ none ↔
      s.pingTimer = true ∧ (!s.instanceServers.isEmpty) = true := by
  unfold KucoinStream.complete
  cases s.pingTimer <;> cases s.instanceServers.isEmpty <;> simp

/-- The ping handlers of the account stream are those of an object that pings. -/
theorem pinging (parse : JsonParse) : Pinging (KucoinStream.handlers parse) pingView where
  stop _ := rfl
  outcome s op result r hfits hr := by
    change s.complete parse op result = some r at hr
    cases op with
    | rest op => exact outcome_rest hfits hr
    | resolve => exact outcome_connecting (.inl rfl) hfits hr
    | connect => exact outcome_connecting (.inr (.inl rfl)) hfits hr
    | sslHandshake => exact outcome_connecting (.inr (.inr rfl)) hfits hr
    | wsHandshake => exact outcome_wsHandshake hr
    | read => exact outcome_read hr
    | write topic => exact outcome_write hr
    | pingTimer =>
      obtain rfl := Option.some.inj hr
      exact .ticks rfl rfl rfl (show pingView.role Op.ping = .ping from rfl) rfl
    | ping =>
      unfold KucoinStream.complete at hr
      dsimp only at hr
      split at hr
      · cases hr
      · obtain rfl := Option.some.inj hr
        refine .waits rfl rfl rfl ?_
        intro next hnext
        rw [List.mem_singleton.mp hnext]
        rfl
  ping s op result hop := by
    cases op with
    | ping => exact complete_ping_ne_none_iff parse s result
    | _ => cases hop
  handshake s op result hop hservers := by
    cases op with
    | wsHandshake =>
      change (if result.isSuccess then s.startPingTimer.map _
        else some s.reportErrorAndRetry) ≠ none
      have hsome : s.instanceServers.isEmpty = false := by
        rw [← Bool.not_eq_true']
        exact hservers
      unfold KucoinStream.startPingTimer
      rw [hsome]
      split <;> nofun
    | _ => cases hop

/-- The stream that has been started fits. -/
theorem inv_started (tradeType : TradeType) : pingView.Inv (started tradeType) := by
  refine ⟨chained_put (Nat.le_refl 1) nofun ?_, nofun⟩
  intro op hop
  rw [List.mem_singleton.mp hop]
  rfl

end KeepMyJournal.AccountMonitor.Kucoin
