import KeepMyJournal.Base.Calls
import KeepMyJournal.Common.RestClients

/-!
# The queue of `http_rest_client_t`

The chain of asynchronous operations of `common/src/http_rest_client.cpp:18–170`, with the calls
its owner makes (`account_tasks/main.cpp:21–40`). A write and the read of its response are known
by the request that is sent. The callbacks are outside: they do not call the client, and of the
success callback nothing else depends.
-/

namespace KeepMyJournal.Common

open KeepMyJournal.Base

/-- `http_rest_client_t` at work: `stream` says that `m_tcpStream` holds a stream,
`errorCallback` that `m_errorCallback` is installed. -/
structure RestClientState where
  client : HttpRestClient
  retries : Nat := 0
  stream : Bool := false
  errorCallback : Bool := false

/-- The public member functions that are called while the client runs. -/
inductive RestClientCall where
  | addPayload (payload : Bytes)
  | sendData
  | setCallbacks (errorCallback : Bool)
  deriving DecidableEq, Repr

/-- The asynchronous operations. -/
inductive RestClientOp where
  | resolve | connect | timer
  | write (request : HttpRequest)
  | read (request : HttpRequest)
  deriving DecidableEq, Repr

/-- How an operation completes: with success or an error, and whether the socket is open then. -/
structure RestCompletion where
  success : Bool
  isOpen : Bool := true
  deriving DecidableEq, Repr

namespace RestClientState

variable (hmac256Encode : Bytes → Bytes → Bytes)

/-- `m_payloads`, the front first. -/
def payloads (c : RestClientState) : List Bytes := c.client.payloads

/-- `rest_api_initiate_connection`. -/
def initiateConnection (c : RestClientState) : RestClientState × List RestClientOp :=
  (c, [.resolve])

/-- `report_error_and_retry`. -/
def reportErrorAndRetry (c : RestClientState) : RestClientState × List RestClientOp :=
  let c := { c with retries := c.retries + 1 }
  if c.retries < 5 then c.initiateConnection else (c, [])

/-- `rest_api_connect_to_resolved_names`. -/
def connectToResolvedNames (c : RestClientState) : RestClientState × List RestClientOp :=
  ({ c with stream := true }, [.connect])

/-- `rest_api_send_request`. -/
def sendRequest (c : RestClientState) (isOpen : Bool) : RestClientState × List RestClientOp :=
  if h : c.client.payloads = [] then (c, [.timer])
  else if !isOpen then c.initiateConnection
  else (c, [.write (c.client.prepareRequest hmac256Encode h)])

/-- `rest_api_receive_response`. -/
def receiveResponse (c : RestClientState) (request : HttpRequest) :
    RestClientState × List RestClientOp :=
  (c, [.read request])

/-- `rest_api_on_data_received`; `pop` of an empty queue is not defined. -/
def onDataReceived (c : RestClientState) (result : RestCompletion) :
    Option (RestClientState × List RestClientOp) :=
  if !result.success && c.errorCallback then some (c, [])
  else
    match c.client.payloads with
    | [] => none
    | _ :: rest =>
      let c := { c with client := { c.client with payloads := rest }, retries := 0 }
      some (c.sendRequest hmac256Encode result.isOpen)

/-- `add_payload`, `send_data` and `set_callbacks`. -/
def call (c : RestClientState) : RestClientCall → RestClientState × List RestClientOp
  | .addPayload payload =>
    ({ c with client := { c.client with payloads := c.client.payloads ++ [payload] } }, [])
  | .sendData => if c.stream then (c, []) else c.initiateConnection
  | .setCallbacks errorCallback => ({ c with errorCallback := errorCallback }, [])

/-- The handler of an operation. The timer's handler does not look at its error. -/
def complete (c : RestClientState) (op : RestClientOp) (result : RestCompletion) :
    Option (RestClientState × List RestClientOp) :=
  match op with
  | .resolve =>
    some (if result.success then c.connectToResolvedNames else c.reportErrorAndRetry)
  | .connect =>
    some (if result.success then c.sendRequest hmac256Encode result.isOpen
      else c.reportErrorAndRetry)
  | .timer => some (c.sendRequest hmac256Encode result.isOpen)
  | .write request =>
    some (if result.success then c.receiveResponse request else c.reportErrorAndRetry)
  | .read _ => c.onDataReceived hmac256Encode result

/-- The client, called and completed. -/
def methods : Calls.Methods RestClientState RestClientCall RestClientOp RestCompletion where
  call c k := some (c.call k)
  complete c op result := c.complete hmac256Encode op result

/-- A client and its operations in flight. -/
abbrev InFlight := Calls.Flight RestClientState RestClientOp

/-- A call or a completion. -/
abbrev Event := Calls.Event RestClientCall RestClientOp RestCompletion

/-- The payloads after the step: one is appended by `add_payload`, and one leaves in the step
that handles the response to the request with that body; nothing else changes. -/
def KeepsPayloads (s : InFlight) : Event → InFlight → Prop
  | .call (.addPayload payload), s' => s'.object.payloads = s.object.payloads ++ [payload]
  | .complete (.read request) ⟨true, _⟩, s' =>
    s.object.payloads = request.body :: s'.object.payloads
  | _, s' => s'.object.payloads = s.object.payloads

/-- If the step handles a read that failed, the error callback is installed. -/
def ReportsFailedRead (s : InFlight) : Event → InFlight → Prop
  | .complete (.read _) ⟨false, _⟩, _ => s.object.errorCallback = true
  | _, _ => True

/-- If the step is a call of `send_data` before there is a stream, no resolve is in flight. -/
def StartsOnce (s : InFlight) : Event → InFlight → Prop
  | .call .sendData, _ => s.object.stream = false → .resolve ∉ s.pending
  | _, _ => True

instance (s : InFlight) (e : Event) (s' : InFlight) : Decidable (ReportsFailedRead s e s') := by
  unfold ReportsFailedRead
  split <;> infer_instance

instance (s : InFlight) (e : Event) (s' : InFlight) : Decidable (StartsOnce s e s') := by
  unfold StartsOnce
  split <;> infer_instance

instance (s : InFlight) (e : Event) (s' : InFlight) : Decidable (KeepsPayloads s e s') := by
  unfold KeepsPayloads
  split <;> infer_instance

/-! ### One chain -/

/-- At most one operation is in flight; before there is a stream it is a resolve, and the
request in flight carries the payload at the front. -/
structure OneChain (s : InFlight) : Prop where
  single : s.pending.length ≤ 1
  stream : ∀ op ∈ s.pending, op ≠ .resolve → s.object.stream = true
  front : ∀ request, .write request ∈ s.pending ∨ .read request ∈ s.pending →
    ∃ rest, s.object.payloads = request.body :: rest

variable {hmac256Encode} {c : RestClientState} {s s' : InFlight}

private theorem oneChain_nil : OneChain { object := c, pending := [] } := by
  constructor
  · exact Nat.zero_le 1
  · intro op hop
    cases hop
  · rintro request (h | h) <;> cases h

/-- An operation that sends no request needs only its stream. -/
private theorem oneChain_singleton {op : RestClientOp} (hstream : op ≠ .resolve → c.stream = true)
    (hop : op = .resolve ∨ op = .connect ∨ op = .timer) :
    OneChain { object := c, pending := [op] } := by
  constructor
  · exact Nat.le_refl 1
  · intro other hother hne
    obtain rfl := List.mem_singleton.mp hother
    exact hstream hne
  · intro request h
    rw [List.mem_singleton, List.mem_singleton] at h
    rcases hop with rfl | rfl | rfl <;> rcases h with h | h <;> cases h

private theorem oneChain_request {request : HttpRequest} {op : RestClientOp}
    (hop : op = .write request ∨ op = .read request) (hstream : c.stream = true)
    (hfront : ∃ rest, c.payloads = request.body :: rest) :
    OneChain { object := c, pending := [op] } := by
  constructor
  · exact Nat.le_refl 1
  · intro _ _ _
    exact hstream
  · intro other h
    rw [List.mem_singleton, List.mem_singleton] at h
    obtain rfl : other = request := by
      rcases hop with rfl | rfl <;> rcases h with h | h <;> cases h <;> rfl
    exact hfront

private theorem reportErrorAndRetry_spec {object : RestClientState} {started : List RestClientOp}
    (h : c.reportErrorAndRetry = (object, started)) :
    object.payloads = c.payloads ∧ OneChain { object := object, pending := started } := by
  unfold reportErrorAndRetry at h
  dsimp only at h
  split at h
  · obtain ⟨rfl, rfl⟩ := Prod.mk.inj h
    exact ⟨rfl, oneChain_singleton (fun h ↦ absurd rfl h) (.inl rfl)⟩
  · obtain ⟨rfl, rfl⟩ := Prod.mk.inj h
    exact ⟨rfl, oneChain_nil⟩

private theorem sendRequest_spec (hstream : c.stream = true) {isOpen : Bool}
    {object : RestClientState} {started : List RestClientOp}
    (h : c.sendRequest hmac256Encode isOpen = (object, started)) :
    object.payloads = c.payloads ∧ OneChain { object := object, pending := started } := by
  unfold sendRequest at h
  split at h
  · obtain ⟨rfl, rfl⟩ := Prod.mk.inj h
    exact ⟨rfl, oneChain_singleton (fun _ ↦ hstream) (.inr (.inr rfl))⟩
  · next hpayloads =>
    split at h
    · obtain ⟨rfl, rfl⟩ := Prod.mk.inj h
      exact ⟨rfl, oneChain_singleton (fun h ↦ absurd rfl h) (.inl rfl)⟩
    · obtain ⟨rfl, rfl⟩ := Prod.mk.inj h
      refine ⟨rfl, oneChain_request (.inl rfl) hstream ⟨c.payloads.tail, ?_⟩⟩
      rw [HttpRestClient.body_prepareRequest]
      exact (List.cons_head_tail hpayloads).symm

/-- The response has been handled: the payload at the front is gone, and the next is sent. -/
private theorem onDataReceived_pops {result : RestCompletion} {payload : Bytes}
    {rest : List Bytes} (hstream : c.stream = true) (hpayloads : c.payloads = payload :: rest)
    (hpop : (!result.success && c.errorCallback) = false) {object : RestClientState}
    {started : List RestClientOp}
    (h : c.onDataReceived hmac256Encode result = some (object, started)) :
    object.payloads = rest ∧ OneChain { object := object, pending := started } := by
  unfold onDataReceived at h
  rw [if_neg (by rw [hpop]; simp), show c.client.payloads = payload :: rest from hpayloads] at h
  exact sendRequest_spec
    (c := { c with client := { c.client with payloads := rest }, retries := 0 }) hstream
    (Option.some.inj h)

/-- A completion of the only operation in flight keeps the chain single, and keeps the payloads
if and only if a failed read is reported. -/
private theorem complete_spec {op : RestClientOp} {result : RestCompletion}
    {object : RestClientState} {started : List RestClientOp}
    (hs : OneChain { object := c, pending := [op] })
    (h : c.complete hmac256Encode op result = some (object, started)) :
    OneChain { object := object, pending := started } ∧
      (KeepsPayloads { object := c, pending := [op] } (.complete op result)
          { object := object, pending := started } ↔
        ReportsFailedRead { object := c, pending := [op] } (.complete op result)
          { object := object, pending := started }) := by
  have hstream : op ≠ .resolve → c.stream = true := hs.stream op List.mem_cons_self
  have hfront : ∀ request, op = .write request ∨ op = .read request →
      ∃ rest, c.payloads = request.body :: rest := by
    rintro request (rfl | rfl)
    · exact hs.front request (.inl List.mem_cons_self)
    · exact hs.front request (.inr List.mem_cons_self)
  obtain ⟨success, isOpen⟩ := result
  cases op with
  | resolve =>
    have h := Option.some.inj h
    cases success with
    | true =>
      obtain ⟨rfl, rfl⟩ := Prod.mk.inj h
      exact ⟨oneChain_singleton (fun _ ↦ rfl) (.inr (.inl rfl)), iff_of_true rfl True.intro⟩
    | false =>
      obtain ⟨hpayloads, hchain⟩ := reportErrorAndRetry_spec h
      exact ⟨hchain, iff_of_true hpayloads True.intro⟩
  | connect =>
    have h := Option.some.inj h
    cases success with
    | true =>
      obtain ⟨hpayloads, hchain⟩ := sendRequest_spec (hstream nofun) h
      exact ⟨hchain, iff_of_true hpayloads True.intro⟩
    | false =>
      obtain ⟨hpayloads, hchain⟩ := reportErrorAndRetry_spec h
      exact ⟨hchain, iff_of_true hpayloads True.intro⟩
  | timer =>
    obtain ⟨hpayloads, hchain⟩ := sendRequest_spec (hstream nofun) (Option.some.inj h)
    exact ⟨hchain, iff_of_true hpayloads True.intro⟩
  | write request =>
    have h := Option.some.inj h
    cases success with
    | true =>
      obtain ⟨rfl, rfl⟩ := Prod.mk.inj h
      refine ⟨oneChain_request (.inr rfl) (hstream nofun) (hfront request (.inl rfl)), ?_⟩
      exact iff_of_true rfl True.intro
    | false =>
      obtain ⟨hpayloads, hchain⟩ := reportErrorAndRetry_spec h
      exact ⟨hchain, iff_of_true hpayloads True.intro⟩
  | read request =>
    obtain ⟨rest, hrest⟩ := hfront request (.inr rfl)
    cases success with
    | true =>
      obtain ⟨hpayloads, hchain⟩ := onDataReceived_pops (hstream nofun) hrest rfl h
      refine ⟨hchain, iff_of_true ?_ True.intro⟩
      change c.payloads = request.body :: object.payloads
      rw [hpayloads, hrest]
    | false =>
      cases hcallback : c.errorCallback with
      | true =>
        change c.onDataReceived hmac256Encode _ = _ at h
        unfold onDataReceived at h
        rw [if_pos (by rw [hcallback]; rfl)] at h
        obtain ⟨rfl, rfl⟩ := Prod.mk.inj (Option.some.inj h)
        exact ⟨oneChain_nil, iff_of_true rfl hcallback⟩
      | false =>
        -- the payload is popped although nothing has answered it
        obtain ⟨hpayloads, hchain⟩ :=
          onDataReceived_pops (hstream nofun) hrest (by rw [hcallback]; rfl) h
        refine ⟨hchain, iff_of_false ?_ ?_⟩
        · intro hkeeps
          have hlen := congrArg List.length (hpayloads.symm.trans (hkeeps.trans hrest))
          rw [List.length_cons] at hlen
          omega
        · change ¬c.errorCallback = true
          rw [hcallback]
          simp

/-- A call keeps the chain single, unless it starts a second one, and keeps the payloads. -/
private theorem call_spec (hs : OneChain s) {k : RestClientCall}
    (hstart : StartsOnce s (.call k) s') :
    OneChain { object := (s.object.call k).1, pending := s.pending ++ (s.object.call k).2 } ∧
      (KeepsPayloads s (.call k)
          { object := (s.object.call k).1, pending := s.pending ++ (s.object.call k).2 } ↔
        ReportsFailedRead s (.call k)
          { object := (s.object.call k).1, pending := s.pending ++ (s.object.call k).2 }) := by
  cases k with
  | addPayload payload =>
    refine ⟨⟨?_, ?_, ?_⟩, iff_of_true rfl True.intro⟩
    · rw [call, List.append_nil]
      exact hs.single
    · rw [call, List.append_nil]
      exact hs.stream
    · intro request hrequest
      rw [call, List.append_nil] at hrequest
      obtain ⟨rest, hrest⟩ := hs.front request hrequest
      refine ⟨rest ++ [payload], ?_⟩
      change s.object.payloads ++ [payload] = _
      rw [hrest, List.cons_append]
  | sendData =>
    unfold call
    dsimp only
    by_cases hstream : s.object.stream = true
    · rw [if_pos hstream, List.append_nil]
      exact ⟨hs, iff_of_true rfl True.intro⟩
    · -- without a stream only a resolve could be in flight, and none is
      have hpending : s.pending = [] := by
        rw [List.eq_nil_iff_forall_not_mem]
        intro op hop
        by_cases hresolve : op = .resolve
        · rw [hresolve] at hop
          exact hstart (by simpa using hstream) hop
        · exact hstream (hs.stream op hop hresolve)
      rw [if_neg hstream, hpending, List.nil_append]
      exact ⟨oneChain_singleton (fun h ↦ absurd rfl h) (.inl rfl), iff_of_true rfl True.intro⟩
  | setCallbacks errorCallback =>
    unfold call
    dsimp only
    rw [List.append_nil]
    exact ⟨⟨hs.single, hs.stream, hs.front⟩, iff_of_true rfl True.intro⟩

private theorem oneChain_step (hs : OneChain s) {e : Event}
    (h : Calls.step (methods hmac256Encode) s e = some s') (hstart : StartsOnce s e s') :
    (KeepsPayloads s e s' ↔ ReportsFailedRead s e s') ∧ OneChain s' := by
  cases e with
  | call k =>
    obtain ⟨object, started, hcall, rfl⟩ := Calls.step_call h
    obtain ⟨rfl, rfl⟩ := Prod.mk.inj (Option.some.inj hcall)
    exact (call_spec hs hstart).symm
  | complete op result =>
    obtain ⟨hm, object, started, hcomplete, rfl⟩ := Calls.step_complete h
    have hpending := Calls.pending_of_length_le_one hs.single hm
    obtain ⟨c, pending⟩ := s
    obtain rfl : pending = [op] := hpending
    rw [List.erase_cons_head, List.nil_append]
    exact (complete_spec hs hcomplete).symm

/-- In every run in which `send_data` is not called while the first connection is being
resolved, the payloads are kept if and only if every failed read finds an error callback. -/
theorem keepsPayloads_iff (hmac256Encode : Bytes → Bytes → Bytes) (client : HttpRestClient)
    (es : List Event)
    (hstart : Transition.Along (Calls.step (methods hmac256Encode)) StartsOnce
      { object := { client := client } } es) :
    Transition.Along (Calls.step (methods hmac256Encode)) KeepsPayloads
        { object := { client := client } } es ↔
      Transition.Along (Calls.step (methods hmac256Encode)) ReportsFailedRead
        { object := { client := client } } es :=
  Transition.along_congr_of_along (fun _ _ _ hs h hΘ ↦ oneChain_step hs h hΘ) oneChain_nil hstart

/-- A client of the class as it is constructed, without callbacks. -/
def localClient : HttpRestClient := { hostApi := bytes "localhost", target := bytes "/results" }

/-- The request it sends for one payload. -/
def localRequest (payload : Bytes) : HttpRequest :=
  HttpRestClient.prepareRequest (fun _ _ ↦ []) { localClient with payloads := [payload] } nofun

/-- The completions of a request up to the failed read of its response. -/
def failedExchange (payload : Bytes) : List Event :=
  [.complete .resolve ⟨true, true⟩, .complete .connect ⟨true, true⟩,
    .complete (.write (localRequest payload)) ⟨true, true⟩,
    .complete (.read (localRequest payload)) ⟨false, true⟩]

/-- A failed read keeps the payload when an error callback is installed. -/
theorem keepsPayloads_withCallback :
    Transition.Along (Calls.step (methods (fun _ _ ↦ []))) KeepsPayloads
      { object := { client := localClient } }
      ([.setCallbacks true, .addPayload (bytes "[]"), .sendData].map .call ++
        failedExchange (bytes "[]")) :=
  (keepsPayloads_iff (fun _ _ ↦ []) localClient _ (by decide +kernel)).mpr (by decide +kernel)

/-- Where no error callback is installed, a failed read discards the payload. -/
theorem not_keepsPayloads_withoutCallback :
    ¬Transition.Along (Calls.step (methods (fun _ _ ↦ []))) KeepsPayloads
      { object := { client := localClient } }
      ([.addPayload (bytes "[]"), .sendData].map .call ++ failedExchange (bytes "[]")) := by
  decide +kernel

-- Two calls of `send_data` during the first resolve send the front payload twice, and the
-- second response discards the payload behind it although nothing failed.
example :
    let s : InFlight := { object := { client := localClient } }
    let es : List Event :=
      [.addPayload (bytes "[]"), .sendData, .addPayload (bytes "{}"), .sendData].map .call ++
        [.resolve, .resolve, .connect, .connect, .write (localRequest (bytes "[]")),
          .write (localRequest (bytes "[]")), .read (localRequest (bytes "[]")),
          .read (localRequest (bytes "[]"))].map (fun op ↦ .complete op ⟨true, true⟩)
    Transition.Along (Calls.step (methods (fun _ _ ↦ []))) ReportsFailedRead s es ∧
      ¬Transition.Along (Calls.step (methods (fun _ _ ↦ []))) KeepsPayloads s es := by
  decide +kernel

end RestClientState

end KeepMyJournal.Common
