import KeepMyJournal.AccountMonitor.Network
import KeepMyJournal.Base.Async
import KeepMyJournal.Common.Enumerations
import KeepMyJournal.Common.Json

/-!
# The KuCoin account stream

`kucoin_user_account_stream_t`, `account_monitor/src/kucoin_user_stream.cpp:16–283`, as an
object with operations in flight. The optional members a handler reads without a test are part
of its state; where one is empty, the handler is undefined. The websocket itself is never
reset once it is there. An operation of a REST client that has been replaced completes as if
the client were still the current one.
-/

namespace KeepMyJournal.AccountMonitor.Kucoin

open KeepMyJournal.Base KeepMyJournal.Common

/-- `instance_server_data_t`. -/
structure InstanceServerData where
  endpoint : Bytes
  pingIntervalMs : Int32 := 0
  encryptProtocol : Bool := false
  deriving DecidableEq, Repr

/-- `subscription_stage_e`. -/
inductive SubscriptionStage where
  | none | privateOrderChangeV2 | accountBalanceChange | stopOrderEvent | nothingLeft
  deriving DecidableEq, Repr

/-- `kucoin_user_account_stream_t`; `tradeType` tells the spot from the futures class, and
`pingTimer` that `m_pingTimer` holds a timer. -/
structure KucoinStream where
  tradeType : TradeType
  requestToken : Bytes := []
  instanceServers : List InstanceServerData := []
  subscription : Option Bytes := none
  pingTimer : Bool := false
  stage : SubscriptionStage := .none
  deriving DecidableEq, Repr

/-- The operations of the stream; a write carries the topic it subscribes to. -/
inductive Op where
  | rest (op : RestOp)
  | resolve | connect | sslHandshake | wsHandshake
  | read
  | write (topic : Bytes)
  | pingTimer | ping
  deriving DecidableEq, Repr

namespace KucoinStream

/-- `get_private_order_change_json`, by its topic. -/
def privateOrderChange (s : KucoinStream) : Bytes :=
  if s.tradeType = .futures then bytes "/contractMarket/tradeOrders"
  else bytes "/spotMarket/tradeOrdersV2"

/-- `get_account_balance_change_json`, by its topic. -/
def accountBalanceChange (s : KucoinStream) : Bytes :=
  if s.tradeType = .futures then bytes "/contractAccount/wallet" else bytes "/account/balance"

/-- `get_stop_order_event_json`, by its topic. -/
def stopOrderEvent (s : KucoinStream) : Bytes :=
  if s.tradeType = .futures then bytes "/contractMarket/advancedOrders"
  else bytes "/spotMarket/advancedOrders"

/-- `rest_api_obtain_token`. -/
def restApiObtainToken (s : KucoinStream) : KucoinStream × List Op := (s, [.rest .resolve])

/-- `run`. -/
def run (s : KucoinStream) : KucoinStream × List Op := s.restApiObtainToken

/-- `stop`, which has an empty body. -/
def stop (s : KucoinStream) : KucoinStream × List Op := (s, [])

/-- What interrupts `on_token_obtained`: an exception, which it catches, or the use of an
iterator that points past the members. -/
inductive Fault where
  | thrown (e : StdException)
  | undefined
  deriving DecidableEq, Repr

/-- `find(key)->second.get<T>()`. -/
def member {α : Type} (o : Json.Object) (key : Bytes) (get : Json → Except StdException α) :
    Except Fault α :=
  match o.find key with
  | none => .error .undefined
  | some value => (get value).mapError .thrown

/-- The server an instance object describes, if its protocol is the websocket's. -/
def readServer (o : Json.Object) : Except Fault (Option InstanceServerData) :=
  match o.find (bytes "protocol") with
  | some (.string protocol) =>
    if protocol = bytes "websocket" then do
      let endpoint ← member o (bytes "endpoint") Json.getString
      let encrypt ← member o (bytes "encrypt") Json.getBoolean
      let pingInterval ← member o (bytes "pingInterval") Json.getNumberInteger
      pure (some { endpoint := endpoint, pingIntervalMs := pingInterval.toInt32,
                   encryptProtocol := encrypt })
    else pure none
  | _ => pure none

/-- The loop over the instances; the servers read before a fault stay. -/
def readServers (servers : List InstanceServerData) :
    List Json → List InstanceServerData × Option Fault
  | [] => (servers, none)
  | instanceJson :: rest =>
    match instanceJson.getObject with
    | .error e => (servers, some (.thrown e))
    | .ok instanceObject =>
      match readServer instanceObject with
      | .error fault => (servers, some fault)
      | .ok server => readServers (servers ++ server.toList) rest

/-- `on_token_obtained`, with what interrupted it. -/
def onTokenObtained (parse : JsonParse) (s : KucoinStream) (str : Bytes) :
    KucoinStream × Option Fault :=
  match parse str >>= Json.getObject with
  | .error e => (s, some (.thrown e))
  | .ok rootObject =>
    match rootObject.find (bytes "code") with
    | some (.string code) =>
      if code ≠ bytes "200000" then (s, none)
      else
        match rootObject.find (bytes "data") with
        | some (.object dataObject) =>
          match Json.Object.find dataObject (bytes "token") with
          | some (.string token) =>
            let s := { s with requestToken := token }
            match member dataObject (bytes "instanceServers") Json.getArray with
            | .error fault => (s, some fault)
            | .ok serverInstances =>
              let (servers, fault) := readServers [] serverInstances
              ({ s with instanceServers := servers }, fault)
          | _ => (s, none)
        | _ => (s, none)
    | _ => (s, none)

/-- `initiate_websocket_connection`. -/
def initiateWebsocketConnection (s : KucoinStream) : KucoinStream × List Op :=
  if s.instanceServers.isEmpty || s.requestToken.isEmpty then (s, [])
  else
    let s := { s with instanceServers := s.instanceServers.filter (fun d ↦ d.encryptProtocol) }
    if s.instanceServers.isEmpty then (s, []) else (s, [.resolve])

/-- The `onSuccess` callback of the token request. -/
def onSuccess (parse : JsonParse) (s : KucoinStream) (data : Bytes) :
    Option (KucoinStream × List Op) :=
  match s.onTokenObtained parse data with
  | (_, some .undefined) => none
  | (s, _) => some s.initiateWebsocketConnection

/-- `report_error_and_retry`. -/
def reportErrorAndRetry (s : KucoinStream) : KucoinStream × List Op :=
  restApiObtainToken { s with pingTimer := false, stage := .none }

/-- `start_ping_timer`; the interval is that of the last server. -/
def startPingTimer (s : KucoinStream) : Option (KucoinStream × List Op) :=
  if s.instanceServers.isEmpty then none else some ({ s with pingTimer := true }, [.pingTimer])

/-- `wait_for_messages`. -/
def waitForMessages (s : KucoinStream) : KucoinStream × List Op := (s, [.read])

/-- The write `send_next_subscription` ends with. -/
def writeSubscription (s : KucoinStream) (topic : Bytes) : KucoinStream × List Op :=
  ({ s with subscription := some topic }, [.write topic])

/-- `send_next_subscription`; it is never called at the last stage. -/
def sendNextSubscription (s : KucoinStream) : KucoinStream × List Op :=
  match s.stage with
  | .none => writeSubscription { s with stage := .privateOrderChangeV2 } s.privateOrderChange
  | .privateOrderChangeV2 =>
    writeSubscription { s with stage := .accountBalanceChange } s.accountBalanceChange
  | .accountBalanceChange => writeSubscription { s with stage := .stopOrderEvent } s.stopOrderEvent
  | .stopOrderEvent => ({ s with stage := .nothingLeft }, [])
  | .nothingLeft => (s, [.write (s.subscription.getD [])])

/-- `interpret_generic_messages`; the message itself is not looked at. -/
def interpretGenericMessages (s : KucoinStream) : KucoinStream × List Op :=
  if s.stage ≠ .nothingLeft then s.sendNextSubscription else s.waitForMessages

/-- The handlers of the operations. -/
def complete (parse : JsonParse) (s : KucoinStream) (op : Op) (result : Completion) :
    Option (KucoinStream × List Op) :=
  match op with
  | .rest op =>
    match restComplete op result with
    | .starts op => some (s, [.rest op])
    -- the error callback only logs
    | .errorCallback => some (s, [])
    | .successCallback data => s.onSuccess parse data
  | .resolve => some (if result.isSuccess then (s, [.connect]) else s.reportErrorAndRetry)
  | .connect =>
    match result with
    | .success _ => some (s, [.sslHandshake])
    | .noServerName => some (s, [])
    | .aborted | .failed => some s.reportErrorAndRetry
  | .sslHandshake => some (s, if result.isSuccess then [.wsHandshake] else [])
  | .wsHandshake =>
    if result.isSuccess then
      s.startPingTimer.map (fun r ↦ (r.1, r.2 ++ r.1.waitForMessages.2))
    else some s.reportErrorAndRetry
  | .read =>
    match result with
    | .success _ => some s.interpretGenericMessages
    | .aborted => some (s, [])
    | .noServerName | .failed => some s.reportErrorAndRetry
  | .write _ =>
    let s := { s with subscription := none }
    some (if result.isSuccess then s.waitForMessages else s.reportErrorAndRetry)
  | .pingTimer => some (s, if result.isSuccess then [.ping] else [])
  | .ping => if s.instanceServers.isEmpty || !s.pingTimer then none else some (s, [.pingTimer])

/-- The stream as an object with operations in flight; it receives no notifications. -/
def handlers (parse : JsonParse) : Async.Handlers KucoinStream Empty Op Completion where
  stop := stop
  notify _ n := nomatch n
  complete := complete parse
  reads op := op = .read

end KucoinStream

/-! ### Reading after the handshake -/

/-- The operation occupies the websocket's read and write chain. -/
def Op.isReadOrWrite : Op → Bool
  | .read | .write _ => true
  | _ => false

/-- The operation belongs to the ping chain. -/
def Op.isPing : Op → Bool
  | .pingTimer | .ping => true
  | _ => false

/-- The state of a stream between two handlers. -/
abbrev State := Async.InFlight KucoinStream Op

/-- What can happen to a stream. -/
abbrev Event := Async.Event Empty Op Completion

/-- The event reports no error of a read or a write. -/
def NoTransportError : Event → Prop
  | .complete op result => op.isReadOrWrite = true → result.isSuccess = true
  | _ => True

/-- Exactly one read or write is in flight. -/
def OneReadOrWrite (s : State) : Prop := s.pending.countP Op.isReadOrWrite = 1

/-- The event is not a message that the stage machine handles at the stop order stage. -/
def HandsOn (s : State) (e : Event) : Prop :=
  ∀ data, e = .complete .read (.success data) → s.object.stage ≠ .stopOrderEvent

/-- Besides pings, only the read and write chain is in flight. -/
private def Chained (s : State) : Prop :=
  OneReadOrWrite s ∧ ∀ op ∈ s.pending, op.isReadOrWrite = true ∨ op.isPing = true

private theorem countP_pending {pending : List Op} {op : Op} (hm : op ∈ pending)
    (started : List Op) :
    (pending.erase op ++ started).countP Op.isReadOrWrite +
        (if op.isReadOrWrite = true then 1 else 0) =
      pending.countP Op.isReadOrWrite + started.countP Op.isReadOrWrite := by
  have hperm := (List.perm_cons_erase hm).countP_eq Op.isReadOrWrite
  rw [List.countP_cons] at hperm
  rw [List.countP_append, hperm]
  omega

private theorem kinds_pending {pending started : List Op} {op : Op}
    (hkinds : ∀ o ∈ pending, o.isReadOrWrite = true ∨ o.isPing = true)
    (hstarted : ∀ o ∈ started, o.isReadOrWrite = true ∨ o.isPing = true) :
    ∀ o ∈ pending.erase op ++ started, o.isReadOrWrite = true ∨ o.isPing = true := by
  intro o ho
  rcases List.mem_append.mp ho with ho | ho
  · exact hkinds o (List.mem_of_mem_erase ho)
  · exact hstarted o ho

/-- What a message starts, by the stage it meets. -/
private theorem started_interpretGenericMessages (s : KucoinStream) :
    (∀ o ∈ s.interpretGenericMessages.2, o.isReadOrWrite = true) ∧
      (s.interpretGenericMessages.2.countP Op.isReadOrWrite = 1 ↔ s.stage ≠ .stopOrderEvent) := by
  unfold KucoinStream.interpretGenericMessages KucoinStream.sendNextSubscription
  cases s.stage <;>
    simp [KucoinStream.writeSubscription, KucoinStream.waitForMessages, Op.isReadOrWrite]

/-- What the handler of a successful read or write starts. -/
private theorem complete_readOrWrite (parse : JsonParse) {s s' : KucoinStream} {op : Op}
    (hop : op.isReadOrWrite = true) {result : Completion} (hok : result.isSuccess = true)
    {started : List Op} (h : s.complete parse op result = some (s', started)) :
    (∀ o ∈ started, o.isReadOrWrite = true) ∧
      (started.countP Op.isReadOrWrite = 1 ↔ (op = .read → s.stage ≠ .stopOrderEvent)) := by
  cases result with
  | success data =>
    cases op with
    | read =>
      have hs : s.interpretGenericMessages = (s', started) := Option.some.inj h
      have hstarted := started_interpretGenericMessages s
      rw [hs] at hstarted
      simpa using hstarted
    | write topic =>
      obtain ⟨-, rfl⟩ := Prod.mk.inj (Option.some.inj h)
      simp [Op.isReadOrWrite]
    | _ => cases hop
  | _ => cases hok

private theorem complete_ping (parse : JsonParse) {s s' : KucoinStream} {op : Op}
    (hop : op.isPing = true) {result : Completion} {started : List Op}
    (h : s.complete parse op result = some (s', started)) : ∀ o ∈ started, o.isPing = true := by
  cases op with
  | pingTimer =>
    obtain ⟨-, rfl⟩ := Prod.mk.inj (Option.some.inj h)
    split <;> simp [Op.isPing]
  | ping =>
    unfold KucoinStream.complete at h
    dsimp only at h
    split at h
    · cases h
    · obtain ⟨-, rfl⟩ := Prod.mk.inj (Option.some.inj h)
      simp [Op.isPing]
  | _ => cases hop

private theorem not_isReadOrWrite_of_isPing {op : Op} (h : op.isPing = true) :
    ¬op.isReadOrWrite = true := by
  cases op <;> simp_all [Op.isPing, Op.isReadOrWrite]

private theorem countP_ping {started : List Op} (h : ∀ o ∈ started, o.isPing = true) :
    started.countP Op.isReadOrWrite = 0 := by
  rw [List.countP_eq_zero]
  exact fun o ho ↦ not_isReadOrWrite_of_isPing (h o ho)

/-- One step from a chained state: the chain is handed on unless the event is the message the
stage machine drops, and no other kind of operation comes in. -/
private theorem chained_step (parse : JsonParse) {s s' : State} {e : Event} (hs : Chained s)
    (hclean : NoTransportError e)
    (hstep : Async.step (KucoinStream.handlers parse) s e = some s') :
    (OneReadOrWrite s' ↔ HandsOn s e) ∧
      ∀ op ∈ s'.pending, op.isReadOrWrite = true ∨ op.isPing = true := by
  obtain ⟨hone, hkinds⟩ := hs
  cases e with
  | stop =>
    obtain rfl := Option.some.inj hstep
    change (OneReadOrWrite { s with pending := s.pending ++ [] } ↔ _) ∧
      ∀ op ∈ s.pending ++ [], _
    rw [List.append_nil]
    refine ⟨iff_of_true hone ?_, hkinds⟩
    intro data he
    cases he
  | notify n => exact nomatch n
  | complete op result =>
    obtain ⟨hm, object, started, hc, rfl⟩ := Async.step_complete hstep
    have hcount := countP_pending hm started
    rw [show s.pending.countP Op.isReadOrWrite = 1 from hone] at hcount
    unfold OneReadOrWrite HandsOn
    dsimp only
    rcases hkinds op hm with hop | hop
    · have hok := hclean hop
      obtain ⟨hstarted, hiff⟩ := complete_readOrWrite parse hop hok hc
      rw [if_pos hop] at hcount
      have hone' : (s.pending.erase op ++ started).countP Op.isReadOrWrite = 1 ↔
          started.countP Op.isReadOrWrite = 1 := by omega
      rw [hone', hiff]
      refine ⟨?_, kinds_pending hkinds fun o ho ↦ .inl (hstarted o ho)⟩
      constructor
      · rintro h data he
        cases he
        exact h rfl
      · intro h hr
        cases result with
        | success data => exact h data (by rw [hr])
        | _ => cases hok
    · have hstarted := complete_ping parse hop hc
      rw [if_neg (not_isReadOrWrite_of_isPing hop), countP_ping hstarted] at hcount
      refine ⟨iff_of_true (by omega) ?_, kinds_pending hkinds fun o ho ↦ .inr (hstarted o ho)⟩
      intro data he
      cases he
      cases hop

private theorem chained_handshake (parse : JsonParse) {s : KucoinStream} {others : List Op}
    (hothers : ∀ op ∈ others, op.isPing = true) {data : Bytes} {start : State}
    (hstart : Async.step (KucoinStream.handlers parse)
      { object := s, pending := .wsHandshake :: others, started := [] }
      (.complete .wsHandshake (.success data)) = some start) : Chained start := by
  obtain ⟨-, object, started, hc, rfl⟩ := Async.step_complete hstart
  have hstarted : started = [.pingTimer, .read] := by
    obtain ⟨r, hr, he⟩ := Option.map_eq_some_iff.mp hc
    unfold KucoinStream.startPingTimer at hr
    split at hr
    · cases hr
    · obtain rfl := Option.some.inj hr
      exact (Prod.mk.inj he).2.symm
  subst hstarted
  rw [Chained, OneReadOrWrite]
  dsimp only
  rw [List.erase_cons_head, List.countP_append, countP_ping hothers]
  refine ⟨rfl, ?_⟩
  intro o ho
  rcases List.mem_append.mp ho with ho | ho
  · exact .inr (hothers o ho)
  · simp only [List.mem_cons, List.not_mem_nil, or_false] at ho
    rcases ho with rfl | rfl
    · exact .inr rfl
    · exact .inl rfl

/-- After a successful handshake one read is in flight. Over every run from there without
transport errors, exactly one read or write stays in flight if and only if no message is
handled at the stop order stage. -/
theorem oneReadOrWrite_iff (parse : JsonParse) {s : KucoinStream} {others : List Op}
    (hothers : ∀ op ∈ others, op.isPing = true) {data : Bytes} {start : State}
    (hstart : Async.step (KucoinStream.handlers parse)
      { object := s, pending := .wsHandshake :: others, started := [] }
      (.complete .wsHandshake (.success data)) = some start)
    {events : List Event} (hclean : ∀ e ∈ events, NoTransportError e) :
    OneReadOrWrite start ∧
      (Transition.Along (Async.step (KucoinStream.handlers parse))
          (fun _ _ s' ↦ OneReadOrWrite s') start events ↔
        Transition.Along (Async.step (KucoinStream.handlers parse))
          (fun s e _ ↦ HandsOn s e) start events) := by
  have hchained := chained_handshake parse hothers hstart
  refine ⟨hchained.1, ?_⟩
  apply Transition.along_congr (I := Chained)
  · intro s e he s' hs hstep
    exact (chained_step parse hs (hclean e he) hstep).1
  · intro s e he s' hs hstep hone
    exact ⟨hone, (chained_step parse hs (hclean e he) hstep).2⟩
  · exact hchained

/-- A spot stream that has a token and a server. -/
private def connected : KucoinStream :=
  { tradeType := .spot
    requestToken := bytes "token"
    instanceServers :=
      [{ endpoint := bytes "wss://ws-api.kucoin.com/endpoint", pingIntervalMs := 18000,
         encryptProtocol := true }] }

/-- The stream right after its handshake. -/
private def afterHandshake : State :=
  { object := { connected with pingTimer := true }
    pending := [.pingTimer, .read]
    started := [.pingTimer, .read] }

/-- A message and the write it triggers. -/
private def messageAndWrite (topic : String) : List Event :=
  [.complete .read (.success []), .complete (.write (bytes topic)) (.success [])]

/-- The welcome message leaves one write in flight, and that write one read. -/
theorem oneReadOrWrite_welcome :
    Transition.Along (Async.step (KucoinStream.handlers (fun _ ↦ .error .parseError)))
      (fun _ _ s' ↦ OneReadOrWrite s') afterHandshake
      (messageAndWrite "/spotMarket/tradeOrdersV2") :=
  (@oneReadOrWrite_iff (fun _ ↦ .error .parseError) connected [] (by decide) []
      afterHandshake rfl _
      (by simp [messageAndWrite, NoTransportError, Op.isReadOrWrite, Completion.isSuccess])).2.mpr
    (by
      intro s' hs'
      obtain rfl := Option.some.inj hs'
      refine ⟨by simp [HandsOn, afterHandshake, connected], ?_⟩
      intro s' hs'
      obtain rfl := Option.some.inj hs'
      exact ⟨by simp [HandsOn], True.intro⟩)

/-- The fourth message leaves nothing in flight but the ping timer. -/
theorem not_oneReadOrWrite_fourth :
    ¬Transition.Along (Async.step (KucoinStream.handlers (fun _ ↦ .error .parseError)))
      (fun _ _ s' ↦ OneReadOrWrite s') afterHandshake
      (messageAndWrite "/spotMarket/tradeOrdersV2" ++ messageAndWrite "/account/balance" ++
        messageAndWrite "/spotMarket/advancedOrders" ++ [.complete .read (.success [])]) := by
  intro h
  have hlast := Transition.along_iff_prefix.mp h _ _ [] rfl
  have hnone := hlast _ _ rfl rfl
  revert hnone
  unfold OneReadOrWrite
  decide

/-! ### After the stop -/

/-- The operations a stopped stream should not start: the token request, name resolutions,
connects, websocket handshakes and reads. -/
def Op.isOutreach : Op → Bool
  | .rest op => op != .sslHandshake
  | .resolve | .connect | .wsHandshake | .read => true
  | _ => false

/-- The stream has what it connects with: a token and an encrypted server. -/
def CanConnect (s : KucoinStream) : Prop :=
  s.requestToken ≠ [] ∧ ∃ d ∈ s.instanceServers, d.encryptProtocol = true

/-- The events after which a stream starts none of these. As `stop` leaves no mark, they are the
same before and after it. -/
def Harmless (parse : JsonParse) (s : KucoinStream) : Event → Prop
  | .complete op result =>
    match op with
    | .rest .connect | .pingTimer | .ping => True
    | .rest .read => ∀ data, result = .success data → ¬CanConnect (s.onTokenObtained parse data).1
    | .rest _ | .sslHandshake => result.isSuccess = false
    | .resolve | .wsHandshake | .write _ => False
    | .connect => result.isSuccess = true ∨ result = .noServerName
    | .read => result.isSuccess = true ∧ s.stage ≠ .nothingLeft ∨ result = .aborted
  | _ => True

private theorem initiateWebsocketConnection_started (s : KucoinStream) :
    (∀ o ∈ s.initiateWebsocketConnection.2, o.isOutreach = false) ↔ ¬CanConnect s := by
  unfold KucoinStream.initiateWebsocketConnection
  dsimp only
  split
  · next h =>
    rw [Bool.or_eq_true, List.isEmpty_iff, List.isEmpty_iff] at h
    refine iff_of_true (by simp) ?_
    rintro ⟨htoken, d, hd, -⟩
    rcases h with h | h
    · rw [h] at hd
      cases hd
    · exact htoken h
  · next h =>
    rw [Bool.or_eq_true, List.isEmpty_iff, List.isEmpty_iff, not_or] at h
    split
    · next hnone =>
      rw [List.isEmpty_iff, List.filter_eq_nil_iff] at hnone
      refine iff_of_true (by simp) ?_
      rintro ⟨-, d, hd, henc⟩
      exact hnone d hd henc
    · next hsome =>
      rw [List.isEmpty_iff, List.filter_eq_nil_iff] at hsome
      push Not at hsome
      exact iff_of_false (by simp [Op.isOutreach]) (not_not_intro ⟨h.2, hsome⟩)

@[simp] private theorem waitForMessages_snd (s : KucoinStream) : s.waitForMessages.2 = [.read] :=
  rfl

private theorem rest_started (parse : JsonParse) {s s' : KucoinStream} {op : RestOp}
    {result : Completion} {started : List Op}
    (h : s.complete parse (.rest op) result = some (s', started)) :
    (∀ o ∈ started, o.isOutreach = false) ↔ Harmless parse s (.complete (.rest op) result) := by
  cases result with
  | success data =>
    cases op with
    | read =>
      have hc : s.onSuccess parse data = some (s', started) := h
      unfold KucoinStream.onSuccess at hc
      have hfst : ∀ t fault, s.onTokenObtained parse data = (t, fault) →
          (s.onTokenObtained parse data).1 = t := fun t fault he ↦ by rw [he]
      have hiff : Harmless parse s (.complete (.rest .read) (.success data)) ↔
          ¬CanConnect (s.onTokenObtained parse data).1 := by simp [Harmless]
      rw [hiff]
      split at hc
      · cases hc
      · next t fault _ he =>
        rw [hfst t fault he, ← initiateWebsocketConnection_started]
        rw [Option.some.inj hc]
    | _ =>
      obtain ⟨-, rfl⟩ := Prod.mk.inj (Option.some.inj h)
      simp [Op.isOutreach, Harmless, Completion.isSuccess]
  | _ =>
    cases op <;>
    · obtain ⟨-, rfl⟩ := Prod.mk.inj (Option.some.inj h)
      simp [Harmless, Completion.isSuccess]

private theorem read_started (parse : JsonParse) {s s' : KucoinStream} {result : Completion}
    {started : List Op} (h : s.complete parse .read result = some (s', started)) :
    (∀ o ∈ started, o.isOutreach = false) ↔ Harmless parse s (.complete .read result) := by
  cases result with
  | success data =>
    have hc : s.interpretGenericMessages = (s', started) := Option.some.inj h
    have hstarted : (∀ o ∈ s.interpretGenericMessages.2, o.isOutreach = false) ↔
        s.stage ≠ .nothingLeft := by
      unfold KucoinStream.interpretGenericMessages KucoinStream.sendNextSubscription
      cases s.stage <;>
        simp [KucoinStream.writeSubscription, KucoinStream.waitForMessages, Op.isOutreach]
    rw [hc] at hstarted
    simpa [Harmless, Completion.isSuccess] using hstarted
  | aborted =>
    obtain ⟨-, rfl⟩ := Prod.mk.inj (Option.some.inj h)
    simp [Harmless]
  | noServerName | failed =>
    obtain ⟨-, rfl⟩ := Prod.mk.inj (Option.some.inj h)
    simp [Op.isOutreach, Harmless, Completion.isSuccess]

/-- What the handler of an operation starts is judged by its result and the object before it. -/
private theorem complete_started (parse : JsonParse) {s s' : KucoinStream} {op : Op}
    {result : Completion} {started : List Op}
    (h : s.complete parse op result = some (s', started)) :
    (∀ o ∈ started, o.isOutreach = false) ↔ Harmless parse s (.complete op result) := by
  cases op with
  | rest op => exact rest_started parse h
  | read => exact read_started parse h
  | pingTimer =>
    obtain ⟨-, rfl⟩ := Prod.mk.inj (Option.some.inj h)
    split <;> simp [Op.isOutreach, Harmless]
  | ping =>
    unfold KucoinStream.complete at h
    dsimp only at h
    split at h
    · cases h
    · obtain ⟨-, rfl⟩ := Prod.mk.inj (Option.some.inj h)
      simp [Op.isOutreach, Harmless]
  | wsHandshake =>
    cases result with
    | success data =>
      obtain ⟨r, hr, he⟩ := Option.map_eq_some_iff.mp (show Option.map _ _ = some _ from h)
      obtain ⟨-, rfl⟩ := Prod.mk.inj he
      simp [Op.isOutreach, Harmless]
    | _ =>
      obtain ⟨-, rfl⟩ := Prod.mk.inj (Option.some.inj h)
      simp [Op.isOutreach, Harmless]
  | resolve | connect | sslHandshake | write =>
    cases result <;>
    · obtain ⟨-, rfl⟩ := Prod.mk.inj (Option.some.inj h)
      simp [Op.isOutreach, Harmless, Completion.isSuccess]

/-- Over every run of a stream, nothing reaches out after the stop if and only if every event
after it is harmless. -/
theorem quiet_iff_harmless (parse : JsonParse) (tradeType : TradeType) (events : List Event) :
    Transition.Along (Async.step (KucoinStream.handlers parse)) (Async.Quiet Op.isOutreach)
        (Async.InFlight.start (KucoinStream.run { tradeType := tradeType })) events ↔
      Transition.Along (Async.step (KucoinStream.handlers parse))
        (fun s e _ ↦ s.stopped = true → Harmless parse s.object e)
        (Async.InFlight.start (KucoinStream.run { tradeType := tradeType })) events := by
  apply Async.along_quiet_iff_of_step
  intro s e s' hstep
  cases e with
  | stop =>
    obtain rfl := Option.some.inj hstep
    simp [KucoinStream.handlers, KucoinStream.stop, Harmless]
  | notify n => exact nomatch n
  | complete op result =>
    obtain ⟨-, object, started, hc, rfl⟩ := Async.step_complete hstep
    exact complete_started parse hc

end KeepMyJournal.AccountMonitor.Kucoin
