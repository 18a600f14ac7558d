import KeepMyJournal.AccountMonitor.BinanceAccounts
import KeepMyJournal.Common.HttpRestClient

/-!
# The way of an account's events

From the streams of an exchange through its sink to `exchangeResultWatcher`
(`account_monitor/src/watches_launcher.cpp:59–82`), over the socket to
`monitor_account_data_stream` and through its container to `http_send_result`
(`account_tasks/main.cpp:21–70`). The socket keeps the order of its messages and may lose any of
them; an exception ends `account_tasks`. Its `main` never runs the `io_context`, so that no
operation of the HTTP client completes. The functions of MessagePack, `dump` and the signature
are parameters.
-/

namespace KeepMyJournal.AccountTasks

open KeepMyJournal.Base KeepMyJournal.Common

universe u v

/-- The client of `http_send_result`. -/
def accountResults : HttpRestClient :=
  { hostApi := bytes "localhost", target := bytes "/account_result/binance" }

/-- The threads of an exchange: its streams, the writer with what it has taken from the sink, the
socket, the receiver, and the sender with its client. The lists behind `ended` are a record: of
what the streams have appended, of what the sender has relayed, and of what the socket has lost. -/
structure Relay (σ : Type u) (β : Type) where
  monitor : σ
  sink : List β := []
  writing : Option β := none
  inTransit : List Bytes := []
  resultContainer : List β := []
  sending : Option β := none
  client : RestClientState.InFlight := { object := { client := accountResults } }
  ended : Bool := false
  appended : List β := []
  relayed : List β := []
  lost : List β := []

/-- The streams take a step; the writer gets an event and sends it; the receiver appends it; the
sender gets it and hands it to the client. -/
inductive RelayEvent (ε : Type v) where
  | monitor (e : ε)
  | get
  | send (reaches : Bool)
  | receive
  | take
  | sendResult

namespace Relay

variable {σ : Type u} {ε : Type v} {β : Type}
variable (monitorStep : σ → ε → Option (σ × List β)) (pack : β → Bytes)
  (unpack : Bytes → Option β) (toJson : β → Json) (dump : Json → Bytes)
  (hmac256Encode : Bytes → Bytes → Bytes)

/-- `monitor_account_data_stream` has received a message; `unpack` or `as` may throw. -/
def received (s : Relay σ β) : Option β → Relay σ β
  | none => { s with ended := true }
  | some data => { s with resultContainer := s.resultContainer ++ [data] }

/-- The visitor of `http_send_result`; `dump` may throw. -/
def sendResult (s : Relay σ β) (data : β) : Option (Relay σ β) :=
  if (toJson data).dumps then
    (Transition.run (Calls.step (RestClientState.methods hmac256Encode)) s.client
      [.call (.addPayload (dump (toJson data))), .call .sendData]).map fun client ↦
        { s with client := client, sending := none, relayed := s.relayed ++ [data] }
  else some { s with ended := true }

/-- One step. When `account_tasks` has ended, only the account monitor goes on. -/
def step (s : Relay σ β) : RelayEvent ε → Option (Relay σ β)
  | .monitor e => (monitorStep s.monitor e).map fun r ↦
      { s with monitor := r.1, sink := s.sink ++ r.2, appended := s.appended ++ r.2 }
  | .get =>
    match s.writing, s.sink with
    | none, data :: rest => some { s with writing := some data, sink := rest }
    | _, _ => none
  | .send reaches => s.writing.map fun data ↦
      if reaches then { s with writing := none, inTransit := s.inTransit ++ [pack data] }
      else { s with writing := none, lost := s.lost ++ [data] }
  | .receive =>
    match s.ended, s.inTransit with
    | false, view :: rest => some (received { s with inTransit := rest } (unpack view))
    | _, _ => none
  | .take =>
    match s.ended, s.sending, s.resultContainer with
    | false, none, data :: rest => some { s with sending := some data, resultContainer := rest }
    | _, _, _ => none
  | .sendResult =>
    match s.ended, s.sending with
    | false, some data => s.sendResult toJson dump hmac256Encode data
    | _, _ => none

variable {monitorStep pack unpack toJson dump hmac256Encode} {s s' : Relay σ β}

/-! ### What is on its way -/

/-- What has been relayed and what is on its way, the furthest first, where `inTransit` is on the
socket. -/
def chain (s : Relay σ β) (inTransit : List β) : List β :=
  s.relayed ++ s.sending.toList ++ s.resultContainer ++ inTransit ++ s.writing.toList ++ s.sink

/-- The messages on their way are packed events. The chain has been appended in this order, and
nothing is missing in it but what the socket has lost. -/
structure Accounted (pack : β → Bytes) (s : Relay σ β) (inTransit : List β) : Prop where
  views : s.inTransit = inTransit.map pack
  order : (s.chain inTransit).Sublist s.appended
  missing : (s.chain inTransit ++ s.lost).Perm s.appended

variable {inTransit : List β}

private theorem Accounted.monitor (hs : Accounted pack s inTransit) (monitor : σ) (out : List β) :
    Accounted pack { s with monitor := monitor, sink := s.sink ++ out,
                            appended := s.appended ++ out } inTransit := by
  have hchain : chain { s with monitor := monitor, sink := s.sink ++ out,
                               appended := s.appended ++ out } inTransit =
      s.chain inTransit ++ out := (List.append_assoc _ _ _).symm
  refine ⟨hs.views, ?_, ?_⟩
  · rw [hchain]
    exact hs.order.append (List.Sublist.refl out)
  · rw [hchain, List.append_assoc]
    refine (List.perm_append_comm.append_left _).trans ?_
    rw [← List.append_assoc]
    exact hs.missing.append_right out

private theorem Accounted.lose (hs : Accounted pack s inTransit) {data : β}
    (hwriting : s.writing = some data) :
    Accounted pack { s with writing := none, lost := s.lost ++ [data] } inTransit := by
  obtain ⟨hviews, horder, hmissing⟩ := hs
  unfold chain at horder hmissing
  rw [hwriting, Option.toList_some] at horder hmissing
  refine ⟨hviews, ?_, ?_⟩
  · unfold chain
    dsimp only
    rw [Option.toList_none, List.append_nil]
    refine List.Sublist.trans ?_ horder
    exact (List.sublist_append_left _ _).append (List.Sublist.refl _)
  · refine List.Perm.trans ?_ hmissing
    unfold chain
    dsimp only
    rw [Option.toList_none, List.append_nil]
    simp only [List.append_assoc]
    refine List.Perm.append_left _ (.append_left _ (.append_left _ (.append_left _ ?_)))
    rw [← List.append_assoc]
    exact List.perm_append_comm

/-- An event that only moves on in the chain stays accounted for. -/
private theorem Accounted.of_chain (hs : Accounted pack s inTransit) {inTransit' : List β}
    (hviews : s'.inTransit = inTransit'.map pack) (hchain : s'.chain inTransit' = s.chain inTransit)
    (happended : s'.appended = s.appended) (hlost : s'.lost = s.lost) :
    Accounted pack s' inTransit' := by
  refine ⟨hviews, ?_, ?_⟩
  · rw [hchain, happended]
    exact hs.order
  · rw [hchain, happended, hlost]
    exact hs.missing

private theorem Accounted.filterMap_unpack (hs : Accounted pack s inTransit)
    (hunpack : ∀ data ∈ s.appended, unpack (pack data) = some data) :
    s.inTransit.filterMap unpack = inTransit := by
  rw [hs.views, List.filterMap_map]
  refine (List.filterMap_congr fun data hdata ↦ ?_).trans List.filterMap_some
  exact hunpack data (hs.order.subset (by simp [chain, hdata]))

/-- The call of the client on an event that can be written. -/
private theorem sendResult_of_dumps {data : β} (hdumps : (toJson data).dumps = true)
    (h : s.sendResult toJson dump hmac256Encode data = some s') :
    ∃ client, Transition.run (Calls.step (RestClientState.methods hmac256Encode)) s.client
        [.call (.addPayload (dump (toJson data))), .call .sendData] = some client ∧
      s' = { s with client := client, sending := none, relayed := s.relayed ++ [data] } := by
  unfold sendResult at h
  rw [if_pos hdumps] at h
  obtain ⟨client, hclient, rfl⟩ := Option.map_eq_some_iff.mp h
  exact ⟨client, hclient, rfl⟩

/-- Where what has been appended can be unpacked and written, `account_tasks` goes on, and a step
keeps the account. -/
private theorem accounted_step {e : RelayEvent ε} (hs : Accounted pack s inTransit)
    (hunpack : ∀ data ∈ s.appended, unpack (pack data) = some data)
    (hdumps : ∀ data ∈ s.appended, (toJson data).dumps = true)
    (h : step monitorStep pack unpack toJson dump hmac256Encode s e = some s') :
    s'.ended = s.ended ∧ ∃ inTransit, Accounted pack s' inTransit := by
  cases e with
  | monitor e =>
    obtain ⟨r, -, rfl⟩ := Option.map_eq_some_iff.mp h
    exact ⟨rfl, inTransit, hs.monitor r.1 r.2⟩
  | get =>
    unfold step at h
    dsimp only at h
    split at h
    · next data rest hwriting hsink =>
      obtain rfl := Option.some.inj h
      refine ⟨rfl, inTransit, hs.of_chain hs.views ?_ rfl rfl⟩
      simp [chain, hwriting, hsink]
    · cases h
  | send reaches =>
    obtain ⟨data, hwriting, rfl⟩ := Option.map_eq_some_iff.mp h
    cases reaches with
    | true =>
      refine ⟨rfl, inTransit ++ [data], hs.of_chain ?_ ?_ rfl rfl⟩
      · simp [hs.views]
      · simp [chain, hwriting]
    | false => exact ⟨rfl, inTransit, hs.lose hwriting⟩
  | receive =>
    unfold step at h
    dsimp only at h
    split at h
    · next view rest hended htransit =>
      obtain rfl := Option.some.inj h
      -- the first message is an event that has been appended
      rw [hs.views] at htransit
      obtain ⟨data, others, rfl, rfl, rfl⟩ := List.map_eq_cons_iff.mp htransit
      have hmem : data ∈ s.appended := hs.order.subset (by simp [chain])
      rw [hunpack data hmem]
      exact ⟨rfl, others, hs.of_chain rfl (by simp [chain, received]) rfl rfl⟩
    · cases h
  | take =>
    unfold step at h
    dsimp only at h
    split at h
    · next data rest hended hsending hcontainer =>
      obtain rfl := Option.some.inj h
      refine ⟨rfl, inTransit, hs.of_chain hs.views ?_ rfl rfl⟩
      simp [chain, hsending, hcontainer]
    · cases h
  | sendResult =>
    unfold step at h
    dsimp only at h
    split at h
    · next data hended hsending =>
      have hmem : data ∈ s.appended := hs.order.subset (by simp [chain, hsending])
      obtain ⟨client, -, rfl⟩ := sendResult_of_dumps (hdumps data hmem) h
      refine ⟨rfl, inTransit, hs.of_chain hs.views ?_ rfl rfl⟩
      simp [chain, hsending]
    · cases h

/-! ### The client -/

/-- The client holds the texts of what has been relayed, and has begun to resolve the host's name
once for each. -/
structure Queued (toJson : β → Json) (dump : Json → Bytes) (s : Relay σ β) : Prop where
  payloads : s.client.object.payloads = s.relayed.map fun data ↦ dump (toJson data)
  stream : s.client.object.stream = false
  pending : s.client.pending = List.replicate s.relayed.length .resolve

/-- Without a stream, a result is queued behind the others, and the host name is resolved again. -/
private theorem Queued.sendResult (hs : Queued toJson dump s) {data : β}
    {client : RestClientState.InFlight}
    (h : Transition.run (Calls.step (RestClientState.methods hmac256Encode)) s.client
      [.call (.addPayload (dump (toJson data))), .call .sendData] = some client) :
    Queued toJson dump
      { s with client := client, sending := none, relayed := s.relayed ++ [data] } := by
  have hclient : client =
      { object := (s.client.object.call (.addPayload (dump (toJson data)))).1
        pending := s.client.pending ++ [.resolve] } := by
    simpa [Transition.run_cons, Calls.step, RestClientState.methods, RestClientState.call,
      RestClientState.initiateConnection, hs.stream] using h.symm
  subst hclient
  refine ⟨?_, hs.stream, ?_⟩
  · change s.client.object.payloads ++ [dump (toJson data)] = _
    rw [hs.payloads, List.map_append]
    rfl
  · dsimp only
    rw [hs.pending, List.length_append, List.length_singleton, List.replicate_succ']

private theorem queued_step {e : RelayEvent ε} (hs : Queued toJson dump s)
    (h : step monitorStep pack unpack toJson dump hmac256Encode s e = some s') :
    Queued toJson dump s' := by
  cases e with
  | monitor e =>
    obtain ⟨r, -, rfl⟩ := Option.map_eq_some_iff.mp h
    exact ⟨hs.payloads, hs.stream, hs.pending⟩
  | get =>
    unfold step at h
    dsimp only at h
    split at h
    · obtain rfl := Option.some.inj h
      exact ⟨hs.payloads, hs.stream, hs.pending⟩
    · cases h
  | send reaches =>
    obtain ⟨data, -, rfl⟩ := Option.map_eq_some_iff.mp h
    cases reaches <;> exact ⟨hs.payloads, hs.stream, hs.pending⟩
  | receive =>
    unfold step at h
    dsimp only at h
    split at h
    · next view rest _ _ =>
      obtain rfl := Option.some.inj h
      cases unpack view <;> exact ⟨hs.payloads, hs.stream, hs.pending⟩
    · cases h
  | take =>
    unfold step at h
    dsimp only at h
    split at h
    · obtain rfl := Option.some.inj h
      exact ⟨hs.payloads, hs.stream, hs.pending⟩
    · cases h
  | sendResult =>
    unfold step at h
    dsimp only at h
    split at h
    · next data _ _ =>
      by_cases hdumps : (toJson data).dumps = true
      · obtain ⟨client, hclient, rfl⟩ := sendResult_of_dumps hdumps h
        exact hs.sendResult hclient
      · unfold Relay.sendResult at h
        rw [if_neg hdumps] at h
        obtain rfl := Option.some.inj h
        exact ⟨hs.payloads, hs.stream, hs.pending⟩
    · cases h

/-! ### Runs -/

/-- The step that the streams take. -/
def ofMonitor : RelayEvent ε → Option ε
  | .monitor e => some e
  | _ => none

/-- No other step touches the streams or what they have appended. -/
private theorem monitor_of_none {e : RelayEvent ε}
    (h : step monitorStep pack unpack toJson dump hmac256Encode s e = some s')
    (he : ofMonitor e = none) : s'.monitor = s.monitor ∧ s'.appended = s.appended := by
  cases e with
  | monitor e => cases he
  | get =>
    unfold step at h
    dsimp only at h
    split at h
    · obtain rfl := Option.some.inj h
      exact ⟨rfl, rfl⟩
    · cases h
  | send reaches =>
    obtain ⟨data, -, rfl⟩ := Option.map_eq_some_iff.mp h
    cases reaches <;> exact ⟨rfl, rfl⟩
  | receive =>
    unfold step at h
    dsimp only at h
    split at h
    · next view rest _ _ =>
      obtain rfl := Option.some.inj h
      cases unpack view <;> exact ⟨rfl, rfl⟩
    · cases h
  | take =>
    unfold step at h
    dsimp only at h
    split at h
    · obtain rfl := Option.some.inj h
      exact ⟨rfl, rfl⟩
    · cases h
  | sendResult =>
    unfold step at h
    dsimp only at h
    split at h
    · unfold Relay.sendResult at h
      split at h
      · obtain ⟨client, -, rfl⟩ := Option.map_eq_some_iff.mp h
        exact ⟨rfl, rfl⟩
      · obtain rfl := Option.some.inj h
        exact ⟨rfl, rfl⟩
    · cases h

/-- A step of the streams with the record of what they append. -/
private theorem logged_of_some {e : RelayEvent ε} {e' : ε}
    (h : step monitorStep pack unpack toJson dump hmac256Encode s e = some s')
    (he : ofMonitor e = some e') : Transition.logged monitorStep (s.monitor, s.appended) e' =
      some (s'.monitor, s'.appended) := by
  cases e with
  | monitor e =>
    obtain rfl := Option.some.inj he
    obtain ⟨r, hr, rfl⟩ := Option.map_eq_some_iff.mp h
    unfold Transition.logged
    dsimp only
    rw [hr]
    rfl
  | get | send reaches | receive | take | sendResult => cases he

private theorem appended_step {e : RelayEvent ε}
    (h : step monitorStep pack unpack toJson dump hmac256Encode s e = some s') :
    s.appended ⊆ s'.appended := by
  cases he : ofMonitor e with
  | none =>
    rw [(monitor_of_none h he).2]
    exact List.Subset.refl _
  | some e' =>
    obtain ⟨out, -, hout⟩ := Transition.of_logged (logged_of_some h he)
    dsimp only at hout
    rw [hout]
    exact List.subset_append_left _ _

/-- Where all that has been appended can be unpacked and written, `account_tasks` goes on. -/
private theorem accounted_run {monitor : σ} {events : List (RelayEvent ε)}
    (hrun : Transition.run (step monitorStep pack unpack toJson dump hmac256Encode)
      { monitor := monitor } events = some s)
    (hunpack : ∀ data ∈ s.appended, unpack (pack data) = some data)
    (hdumps : ∀ data ∈ s.appended, (toJson data).dumps = true) :
    s.ended = false ∧ ∃ inTransit, Accounted pack s inTransit := by
  have hinv := Transition.inv_run (I := fun s : Relay σ β ↦
    (∀ data ∈ s.appended, unpack (pack data) = some data) →
      (∀ data ∈ s.appended, (toJson data).dumps = true) →
        s.ended = false ∧ ∃ inTransit, Accounted pack s inTransit) ?_ ?_ hrun
  · exact hinv hunpack hdumps
  · intro s e s' hs hstep hunpack hdumps
    -- what has been appended before is still there
    have happended := appended_step hstep
    have hunpack' := fun data hdata ↦ hunpack data (happended hdata)
    have hdumps' := fun data hdata ↦ hdumps data (happended hdata)
    obtain ⟨hended, inTransit, hs⟩ := hs hunpack' hdumps'
    obtain ⟨hsame, hs'⟩ := accounted_step hs hunpack' hdumps' hstep
    exact ⟨hsame.trans hended, hs'⟩
  · intro _ _
    exact ⟨rfl, [], ⟨rfl, List.Sublist.refl [], .nil⟩⟩

private theorem queued_run {monitor : σ} {events : List (RelayEvent ε)}
    (hrun : Transition.run (step monitorStep pack unpack toJson dump hmac256Encode)
      { monitor := monitor } events = some s) : Queued toJson dump s :=
  Transition.inv_run (fun _ _ _ hs hstep ↦ queued_step hs hstep) ⟨rfl, rfl, rfl⟩ hrun

/-! ### The accounts of Binance -/

open AccountMonitor AccountMonitor.Binance

variable {parse : JsonParse} {closeReturns : Severance → Bool} {toString : ℚ → Bytes}
  {pack : StreamData → Bytes} {unpack : Bytes → Option StreamData} {s : Relay Accounts StreamData}

/-- In every run of the Binance accounts that are monitored with the threads that relay their
events: `account_tasks` does not end by an exception; what has been relayed and what is on its way
has been appended to the sink in this order, and nothing is missing but what the socket has lost;
the client holds the texts of the relayed events, in their order, and sends none of them; and what
has been appended is what the delivered messages describe. -/
theorem relayed_of_run {events : List (RelayEvent AccountsEvent)}
    (hparse : ∀ text value, parse text = .ok value → value.dumps = true)
    (htoString : ∀ x, Json.isUtf8 (toString x) = true)
    (hrun : Transition.run
      (step (Accounts.step parse closeReturns toString) pack unpack StreamData.toJson dump
        hmac256Encode) { monitor := {} } events = some s)
    (hunpack : ∀ data ∈ s.appended, unpack (pack data) = some data)
    (husers : ∀ task : AccountScheduledTask, .monitor (.task (some task)) ∈ events →
      Json.isUtf8 task.userID = true) :
    s.ended = false ∧
      (s.chain (s.inTransit.filterMap unpack)).Sublist s.appended ∧
      (s.chain (s.inTransit.filterMap unpack) ++ s.lost).Perm s.appended ∧
      s.client.object.payloads = s.relayed.map (fun data ↦ dump data.toJson) ∧
      (∀ op ∈ s.client.pending, op = .resolve) ∧
      ∃ batches, List.Forall₂ (Accounts.Holds parse toString) s.monitor.delivered batches ∧
        s.appended = batches.flatten := by
  have hmonitor : Transition.run (Transition.logged (Accounts.step parse closeReturns toString))
      ({}, []) (events.filterMap ofMonitor) = some (s.monitor, s.appended) := by
    refine Transition.run_of_component (f := fun s : Relay Accounts StreamData ↦
      (s.monitor, s.appended)) ?_ ?_ hrun
    · intro s e s' h he
      obtain ⟨hmonitor, happended⟩ := monitor_of_none h he
      exact Prod.ext hmonitor happended
    · intro s e s' e' h he
      exact logged_of_some h he
  have hfollowed := Accounts.followed_run hmonitor
  have hdumps := hfollowed.dumps hparse htoString (by
    intro task htask
    obtain ⟨e, he, hof⟩ := List.mem_filterMap.mp htask
    cases e with
    | monitor e =>
      obtain rfl := Option.some.inj hof
      exact husers task he
    | get | send reaches | receive | take | sendResult => cases hof)
  obtain ⟨hended, inTransit, hs⟩ := accounted_run hrun hunpack hdumps
  have hqueued := queued_run hrun
  rw [hs.filterMap_unpack hunpack]
  refine ⟨hended, hs.order, hs.missing, hqueued.payloads, ?_, hfollowed.results⟩
  intro op hop
  rw [hqueued.pending] at hop
  exact (List.mem_replicate.mp hop).2

/-- The balance that the sample message reports. -/
private def changedBalance : StreamData :=
  .balance { instrumentID := bytes "BTC", balance := bytes "7", userID := bytes "u1",
             eventTime := 3, clearTime := 4 }

/-- The bytes of such an event: an array of the index of the alternative and of its five members. -/
private def packBalance : StreamData → Bytes
  | .balance info =>
    [0x92, 0x00, 0x95, 0xa3] ++ info.instrumentID ++ [0xa1] ++ info.balance ++
      [info.eventTime.toUInt8, info.clearTime.toUInt8, 0xa2] ++ info.userID
  | _ => []

/-- What is read back of such bytes. -/
private def unpackBalance (view : Bytes) : Option StreamData :=
  if view = packBalance changedBalance then some changedBalance else none

/-- Its text. -/
private def dumpBalance (_ : Json) : Bytes :=
  bytes ("\x7b\"balance\":\"7\",\"clear_time\":4,\"event_time\":3,\"symbol\":\"BTC\"," ++
    "\"user_id\":\"u1\"\x7d")

private theorem dumps_accountParse (text : Bytes) (value : Json)
    (h : Accounts.accountParse text = .ok value) : value.dumps = true := by
  unfold Accounts.accountParse at h
  split at h
  · rw [← Except.ok.inj h]
    decide
  · split at h
    · rw [← Except.ok.inj h]
      decide
    · cases h

/-- A stream reads the message twice; the socket loses the first event. -/
private def firstLost : List (RelayEvent AccountsEvent) :=
  (AccountsEvent.task (some (Accounts.accountTask .add)) :: Accounts.firstMessage ++
      [AccountsEvent.complete 0 .read (.success (bytes "balance"))]).map .monitor ++
    [.get, .send false, .get, .send true, .receive, .take, .sendResult]

/-- The user of a task. -/
private def userOf : RelayEvent AccountsEvent → Option Bytes
  | .monitor (.task (some task)) => some task.userID
  | _ => none

/-- The second event is queued as text, and its sending waits for the host's name. -/
theorem relayed_of_run_firstLost :
    ∃ s, Transition.run (step (Accounts.step Accounts.accountParse (fun _ ↦ true) fun _ ↦ [])
        packBalance unpackBalance StreamData.toJson dumpBalance fun _ _ ↦ []) { monitor := {} }
          firstLost = some s ∧ s.ended = false ∧
      s.appended = [changedBalance, changedBalance] ∧ s.lost = [changedBalance] ∧
      s.client.object.payloads = [dumpBalance changedBalance.toJson] ∧
      ∀ op ∈ s.client.pending, op = .resolve := by
  have hrun : (Transition.run (step (Accounts.step Accounts.accountParse (fun _ ↦ true) fun _ ↦ [])
      packBalance unpackBalance StreamData.toJson dumpBalance fun _ _ ↦ []) { monitor := {} }
      firstLost).map
      (fun s ↦ (s.appended, s.lost, s.relayed)) =
        some ([changedBalance, changedBalance], [changedBalance], [changedBalance]) := by
    decide +kernel
  obtain ⟨s, hs, hlists⟩ := Option.map_eq_some_iff.mp hrun
  obtain ⟨happended, hlists⟩ := Prod.mk.inj hlists
  obtain ⟨hlost, hrelayed⟩ := Prod.mk.inj hlists
  have husers : ∀ e ∈ firstLost, ∀ user ∈ userOf e, Json.isUtf8 user = true := by decide +kernel
  obtain ⟨hended, -, -, hpayloads, hpending, -⟩ := relayed_of_run dumps_accountParse
    (fun _ ↦ rfl) hs (by rw [happended]; decide) fun task htask ↦ husers _ htask _ rfl
  rw [hrelayed] at hpayloads
  exact ⟨s, hs, hended, happended, hlost, hpayloads, hpending⟩

end Relay

end KeepMyJournal.AccountTasks
