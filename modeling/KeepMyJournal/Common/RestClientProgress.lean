import KeepMyJournal.Common.HttpRestClient

/-!
# Whether `http_rest_client_t` goes on

`send_data` (`common/src/http_rest_client.cpp:131–134`) connects only when there is no stream
yet: it takes a stream for a chain that runs. A chain that has ended with the stream in place
(`:40–46`, the fifth failure; `:160–162`, a failed read that is reported) is not started again.
-/

namespace KeepMyJournal.Common.RestClientState

open KeepMyJournal.Base

variable (hmac256Encode : Bytes → Bytes → Bytes)

/-- Nothing is in flight, and no calls change that. -/
def Dead (s : InFlight) : Prop :=
  ∀ calls : List RestClientCall, ∀ t,
    Transition.run (Calls.step (methods hmac256Encode)) s (calls.map .call) = some t →
      t.pending = []

/-- After `send_data` something is in flight if payloads are queued, and the client is not dead. -/
def Serves (_ : InFlight) (e : Event) (s' : InFlight) : Prop :=
  (e = .call .sendData → s'.object.payloads ≠ [] → s'.pending ≠ []) ∧ ¬Dead hmac256Encode s'

/-- The handler of the completion starts nothing: a failure after four others, or a failed read
that goes to the error callback. -/
def GivesUp (c : RestClientState) : RestClientOp → RestCompletion → Prop
  | .read _, result => result.success = false ∧ c.errorCallback = true
  | .timer, _ => False
  | _, result => result.success = false ∧ 4 ≤ c.retries

/-- The step is not the end of the only chain with its stream in place. -/
def KeepsGoing (s : InFlight) : Event → InFlight → Prop
  | .complete op result, _ =>
    s.pending = [op] → s.object.stream = true → ¬GivesUp s.object op result
  | .call _, _ => True

instance (c : RestClientState) (op : RestClientOp) (result : RestCompletion) :
    Decidable (GivesUp c op result) := by
  unfold GivesUp
  split <;> infer_instance

instance (s : InFlight) (e : Event) (s' : InFlight) : Decidable (KeepsGoing s e s') := by
  unfold KeepsGoing
  split <;> infer_instance

variable {hmac256Encode} {c : RestClientState} {s s' : InFlight}

/-! ### The dead client -/

/-- With a stream in place a call starts nothing and leaves it there. -/
private theorem call_of_stream (hstream : c.stream = true) (k : RestClientCall) :
    (c.call k).1.stream = true ∧ (c.call k).2 = [] := by
  cases k with
  | addPayload payload => exact ⟨hstream, rfl⟩
  | sendData =>
    unfold call
    dsimp only
    rw [if_pos hstream]
    exact ⟨hstream, rfl⟩
  | setCallbacks errorCallback => exact ⟨hstream, rfl⟩

private theorem step_call_of_stream {k : RestClientCall} (hstream : s.object.stream = true)
    (h : Calls.step (methods hmac256Encode) s (.call k) = some s') :
    s'.object.stream = true ∧ s'.pending = s.pending := by
  obtain ⟨object, started, hcall, rfl⟩ := Calls.step_call h
  have hcall : s.object.call k = (object, started) := Option.some.inj hcall
  obtain ⟨hstream', hstarted⟩ := call_of_stream hstream k
  rw [hcall] at hstream' hstarted
  obtain rfl : started = [] := hstarted
  exact ⟨hstream', List.append_nil _⟩

/-- Without a stream `send_data` starts a resolve. -/
private theorem step_sendData_of_no_stream (hmac256Encode : Bytes → Bytes → Bytes)
    (hstream : s.object.stream = false) :
    Calls.step (methods hmac256Encode) s (.call .sendData) =
      some { object := s.object, pending := s.pending ++ [.resolve] } := by
  unfold Calls.step methods call initiateConnection
  dsimp only
  rw [hstream]
  rfl

/-- The client is dead when its chain has ended and its stream is in place. -/
theorem dead_iff :
    Dead hmac256Encode s ↔ s.object.stream = true ∧ s.pending = [] := by
  constructor
  · intro h
    refine ⟨?_, h [] s rfl⟩
    by_contra hstream
    have hsend := step_sendData_of_no_stream (s := s) hmac256Encode (by simpa using hstream)
    have := h [.sendData] _ (by rw [List.map_cons, Transition.run_cons, hsend]; rfl)
    simp at this
  · rintro ⟨hstream, hpending⟩ calls t hrun
    -- the stream and the empty list of operations survive every call
    induction calls generalizing s with
    | nil =>
      obtain rfl := Option.some.inj hrun
      exact hpending
    | cons k calls ih =>
      rw [List.map_cons, Transition.run_cons, Option.bind_eq_some_iff] at hrun
      obtain ⟨u, hu, hrun⟩ := hrun
      obtain ⟨hstream', hpending'⟩ := step_call_of_stream hstream hu
      exact ih hstream' (hpending'.trans hpending) hrun

instance (s : InFlight) (e : Event) (s' : InFlight) : Decidable (Serves hmac256Encode s e s') := by
  unfold Serves
  have : Decidable (Dead hmac256Encode s') := decidable_of_iff _ dead_iff.symm
  infer_instance

/-! ### Steps -/

private theorem reportErrorAndRetry_started (c : RestClientState) :
    c.reportErrorAndRetry.1.stream = c.stream ∧
      (c.reportErrorAndRetry.2 = [] ↔ 4 ≤ c.retries) := by
  unfold reportErrorAndRetry initiateConnection
  dsimp only
  split
  · refine ⟨rfl, iff_of_false (List.cons_ne_nil _ _) ?_⟩
    omega
  · refine ⟨rfl, iff_of_true rfl ?_⟩
    omega

private theorem sendRequest_started (hmac256Encode : Bytes → Bytes → Bytes)
    (c : RestClientState) (isOpen : Bool) :
    (c.sendRequest hmac256Encode isOpen).1.stream = c.stream ∧
      (c.sendRequest hmac256Encode isOpen).2 ≠ [] := by
  unfold sendRequest initiateConnection
  split
  · exact ⟨rfl, List.cons_ne_nil _ _⟩
  · split
    · exact ⟨rfl, List.cons_ne_nil _ _⟩
    · exact ⟨rfl, List.cons_ne_nil _ _⟩

/-- A handler leaves a stream and nothing in flight if and only if it gives up with the stream
in place. -/
private theorem complete_started {op : RestClientOp} {result : RestCompletion}
    {object : RestClientState} {started : List RestClientOp}
    (h : c.complete hmac256Encode op result = some (object, started)) :
    object.stream = true ∧ started = [] ↔ c.stream = true ∧ GivesUp c op result := by
  -- a step that ends in `report_error_and_retry` gives up by its counter, others do not
  have retry (h : c.reportErrorAndRetry = (object, started)) :
      object.stream = true ∧ started = [] ↔ c.stream = true ∧ false = false ∧ 4 ≤ c.retries := by
    obtain ⟨hstream, hstarted⟩ := reportErrorAndRetry_started c
    rw [h] at hstream hstarted
    rw [← hstream, ← hstarted, eq_self_iff_true, true_and]
  have send {c' : RestClientState} {P : Prop} (hP : ¬P)
      (h : c'.sendRequest hmac256Encode result.isOpen = (object, started)) :
      object.stream = true ∧ started = [] ↔ c.stream = true ∧ P := by
    refine iff_of_false ?_ (fun hc ↦ hP hc.2)
    rintro ⟨-, hstarted⟩
    have := (sendRequest_started hmac256Encode c' result.isOpen).2
    rw [h] at this
    exact this hstarted
  obtain ⟨success, isOpen⟩ := result
  cases op with
  | resolve =>
    have h := Option.some.inj h
    cases success with
    | true =>
      obtain ⟨rfl, rfl⟩ := Prod.mk.inj h
      exact iff_of_false (fun hc ↦ List.cons_ne_nil _ _ hc.2) (fun hc ↦ nomatch hc.2.1)
    | false => exact retry h
  | connect =>
    have h := Option.some.inj h
    cases success with
    | true => exact send (fun hP ↦ nomatch hP.1) h
    | false => exact retry h
  | timer => exact send id (Option.some.inj h)
  | write request =>
    have h := Option.some.inj h
    cases success with
    | true =>
      obtain ⟨rfl, rfl⟩ := Prod.mk.inj h
      exact iff_of_false (fun hc ↦ List.cons_ne_nil _ _ hc.2) (fun hc ↦ nomatch hc.2.1)
    | false => exact retry h
  | read request =>
    change c.onDataReceived hmac256Encode _ = _ at h
    unfold onDataReceived at h
    split at h
    · next hreported =>
      obtain ⟨rfl, rfl⟩ := Prod.mk.inj (Option.some.inj h)
      have hgivesUp : success = false ∧ c.errorCallback = true := by simpa using hreported
      exact and_congr_right fun _ ↦ iff_of_true rfl hgivesUp
    · next hreported =>
      split at h
      · cases h
      · have hgivesUp : ¬(success = false ∧ c.errorCallback = true) := by
          simpa using hreported
        exact send hgivesUp (Option.some.inj h)

/-- A call does not let a client die, and `send_data` finds or starts an operation. -/
private theorem call_serves (hs : ¬Dead hmac256Encode s) {k : RestClientCall}
    (h : Calls.step (methods hmac256Encode) s (.call k) = some s') :
    Serves hmac256Encode s (.call k) s' := by
  unfold Serves
  rw [dead_iff] at hs ⊢
  by_cases hstream : s.object.stream = true
  · obtain ⟨hstream', hpending'⟩ := step_call_of_stream hstream h
    rw [hpending']
    exact ⟨fun _ _ hpending ↦ hs ⟨hstream, hpending⟩, fun hd ↦ hs ⟨hstream, hd.2⟩⟩
  · cases k with
    | sendData =>
      rw [step_sendData_of_no_stream hmac256Encode (by simpa using hstream)] at h
      obtain rfl := Option.some.inj h
      have hpending : s.pending ++ [RestClientOp.resolve] ≠ [] := by simp
      exact ⟨fun _ _ ↦ hpending, fun hd ↦ hpending hd.2⟩
    | addPayload payload =>
      obtain rfl := Option.some.inj h
      exact ⟨nofun, fun hd ↦ hstream hd.1⟩
    | setCallbacks errorCallback =>
      obtain rfl := Option.some.inj h
      exact ⟨nofun, fun hd ↦ hstream hd.1⟩

/-- A client that is not dead serves its step if and only if the step is not the end of its only
chain. -/
private theorem serves_step (hs : ¬Dead hmac256Encode s) {e : Event}
    (h : Calls.step (methods hmac256Encode) s e = some s') :
    Serves hmac256Encode s e s' ↔ KeepsGoing s e s' := by
  cases e with
  | call k => exact iff_of_true (call_serves hs h) True.intro
  | complete op result =>
    obtain ⟨hm, object, started, hcomplete, rfl⟩ := Calls.step_complete h
    have hpending : s.pending.erase op = [] ↔ s.pending = [op] := by
      rw [List.erase_eq_nil_iff, or_iff_right (List.ne_nil_of_mem hm)]
    unfold Serves KeepsGoing
    rw [and_iff_right nofun, dead_iff]
    dsimp only
    rw [List.append_eq_nil_iff, hpending, and_left_comm, complete_started hcomplete, not_and,
      not_and]

/-- A run serves the queued payloads at every step if and only if it never ends its only chain
with the stream in place. -/
theorem along_serves_iff (hmac256Encode : Bytes → Bytes → Bytes) (client : HttpRestClient)
    (es : List Event) :
    Transition.Along (Calls.step (methods hmac256Encode)) (Serves hmac256Encode)
        { object := { client := client } } es ↔
      Transition.Along (Calls.step (methods hmac256Encode)) KeepsGoing
        { object := { client := client } } es := by
  apply Transition.along_congr (I := fun s ↦ ¬Dead hmac256Encode s)
  · intro s e _ s' hs h
    exact serves_step hs h
  · intro s e _ s' _ _ hserves
    exact hserves.2
  · rw [dead_iff]
    exact fun hd ↦ nomatch hd.1

/-- A connect that is refused, after its resolve. -/
def refusedConnect : List Event :=
  [.complete .resolve ⟨true, true⟩, .complete .connect ⟨false, true⟩]

/-- After five refused connects the payloads of later calls are not sent. -/
theorem not_along_serves_refused :
    ¬Transition.Along (Calls.step (methods (fun _ _ ↦ []))) (Serves (fun _ _ ↦ []))
      { object := { client := localClient } }
      ([.call (.addPayload (bytes "[]")), .call .sendData] ++
        (List.replicate 5 refusedConnect).flatten ++
        [.call (.addPayload (bytes "{}")), .call .sendData]) := by
  decide +kernel

end KeepMyJournal.Common.RestClientState
