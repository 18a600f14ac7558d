import KeepMyJournal.HttpStream.Answering
import KeepMyJournal.Base.Transition

/-!
# The connection of a session

A session between two handlers: `http_read_data`, `on_data_read`, `send_response`,
`error_handler`, `on_data_written` and `shutdown_socket`,
`http_stream/src/session.cpp:206–221, 272–333`. The rest of the process runs between the handlers
of the session and changes what they find. An exception that leaves a handler ends the program. A
run ends in front of a request for which a destroyed string is read, or `back` is called on an empty
one: nothing is said of what comes then.
-/

namespace KeepMyJournal.HttpStream

open KeepMyJournal.Base KeepMyJournal.Common

variable {σ : Type}

/-! ### Every handler answers or throws -/

section Handlers

variable (world : World σ) (request : Request) (query : UrlQuery)

private theorem answers_of_answeredOnce {handling : Handling σ Unit}
    (h : ∀ s, AnsweredOnce handling s) : AnswersOrThrows handling := by
  intro s
  refine ⟨fun _ ↦ (h s).2, ?_⟩
  intro e he
  rw [(h s).1] at he
  cases he

private theorem answers_runHandler (handler : Handler) :
    AnswersOrThrows (runHandler world request query handler) := by
  cases handler with
  | monitorUserAccount =>
    exact answers_of_answeredOnce fun s ↦
      (answeredOnce_runHandler world request query s .monitorUserAccount).mpr True.intro
  | addNewPricingTasks =>
    exact answers_of_answeredOnce fun s ↦
      (answeredOnce_runHandler world request query s .addNewPricingTasks).mpr True.intro
  | stopPricesTask =>
    exact answers_of_answeredOnce fun s ↦
      (answeredOnce_runHandler world request query s .stopPricesTask).mpr True.intro
  | getAllRunningPriceTasks =>
    exact answers_bind (keeps_dbus _) fun tasks ↦ answers_sendSuccess _
  | sendTelegramText =>
    unfold runHandler sendTelegramText
    dsimp only
    split
    · exact answers_errorHandler _
    · split
      · exact answers_errorHandler _
      · exact answers_errorHandler _
      · refine answers_ite (answers_errorHandler _) ?_
        exact answers_bind (keeps_dbus _) fun _ ↦ answers_sendSuccess _
  | newTelegramRegistrationCodeCallback =>
    unfold runHandler newTelegramRegistrationCodeCallback
    dsimp only
    split
    · exact answers_bind (keeps_dbus _) fun _ ↦ answers_sendSuccess _
    · exact answers_errorHandler _
  | newTelegramRegistrationPasswordCallback =>
    unfold runHandler newTelegramRegistrationPasswordCallback
    dsimp only
    split
    · exact answers_bind (keeps_dbus _) fun _ ↦ answers_sendSuccess _
    · exact answers_errorHandler _
  | getPricesTaskStatus =>
    unfold runHandler getPricesTaskStatus
    dsimp only
    split
    · exact answers_errorHandler _
    · exact answers_errorHandler _
    · exact answers_bind (keeps_dbus _) fun tasks ↦ answers_sendSuccess _
  | latestPriceHandler =>
    unfold runHandler latestPriceHandler
    dsimp only
    split
    · refine answers_ite (answers_errorHandler _) ?_
      split
      · exact answers_sendSuccess _
      · exact answers_sendSuccess _
    · exact answers_errorHandler _
  | getTradingPairsHandler =>
    unfold runHandler getTradingPairsHandler
    dsimp only
    split
    · exact answers_errorHandler _
    · exact answers_ite (answers_errorHandler _) (answers_sendSuccess _)

private theorem answers_runOutcome {outcome : Outcome} {handling : Handling σ Unit}
    (h : runOutcome world request outcome = .ok handling) : AnswersOrThrows handling := by
  cases outcome with
  | readsDestroyed => cases h
  | routeCallback callback query =>
    obtain rfl := Except.ok.inj h
    cases callback with
    | route handler => exact answers_runHandler world request query handler
    | jsonRoute handler =>
      exact answers_ite (answers_errorHandler _) (answers_runHandler world request query handler)
  | notFound | methodNotAllowed | allowedOptions verbs =>
    obtain rfl := Except.ok.inj h
    exact answers_errorHandler _

end Handlers

/-! ### The connection -/

/-- The operations of a session on its socket. A write either goes on to the next request or
shuts the socket down. -/
inductive ConnectionOp where
  | read
  | write (closes : Bool)
  deriving DecidableEq, Repr

/-- A session and its operations in flight. With it stand the reads that have completed, each with
the responses that were begun for it. -/
structure Connection (σ : Type) where
  session : Session σ
  pending : List ConnectionOp
  log : List (ReadResult × List Response) := []

/-- An operation completes, or the rest of the process does something. -/
inductive ConnectionEvent (σ : Type) where
  | dataRead (result : ReadResult)
  | dataWritten (closes success : Bool)
  | elsewhere (process : HttpProcess σ)

/-- The response to what has been read is the last: `error_handler` is told to close the socket. -/
def ReadResult.closes : ReadResult → Bool
  | failed _ => true
  | request _ | endOfStream => false

namespace Connection

/-- `run`, on a socket that has just been accepted. -/
def start (process : HttpProcess σ) : Connection σ :=
  { session := { process := process }, pending := [.read] }

/-- `on_data_written`, and the lambda of `error_handler`, which shuts the socket down. -/
def onDataWritten (closes success : Bool) : List ConnectionOp :=
  if !closes && success then [.read] else []

/-- One step. -/
def step (world : World σ) (endpoints : Endpoint Callback) (s : Connection σ) :
    ConnectionEvent σ → Option (Connection σ)
  | .dataRead result =>
    if .read ∈ s.pending then
      match onDataRead world endpoints result with
      | .error _ => none
      | .ok handling =>
        let session := (handling s.session).2
        let begun := session.responses.drop s.session.responses.length
        some
          { session := session
            pending := s.pending.erase .read ++ begun.map fun _ ↦ .write result.closes
            log := s.log ++ [(result, begun)] }
    else none
  | .dataWritten closes success =>
    if .write closes ∈ s.pending then
      some { s with pending := s.pending.erase (.write closes) ++ onDataWritten closes success }
    else none
  | .elsewhere process => some { s with session := { s.session with process := process } }

/-! ### One request after the other -/

/-- The read was answered by one response, after which the session goes on. -/
def Served (entry : ReadResult × List Response) : Prop :=
  (∃ response, entry.2 = [response]) ∧ entry.1.closes = false

/-- Where a connection stands: it waits for a request, or writes the response to the last one, or
does nothing any more. The last read is then the one that may be unanswered, or answered by a
response that closes the socket. -/
inductive Phase (s : Connection σ) : Prop
  | reading (hpending : s.pending = [.read]) (hlog : ∀ entry ∈ s.log, Served entry)
  | writing {front : List (ReadResult × List Response)} {result : ReadResult} {response : Response}
    (hpending : s.pending = [.write result.closes]) (hlog : s.log = front ++ [(result, [response])])
    (hfront : ∀ entry ∈ front, Served entry)
  | ended {front : List (ReadResult × List Response)} {result : ReadResult} {begun : List Response}
    (hpending : s.pending = []) (hlog : s.log = front ++ [(result, begun)])
    (hfront : ∀ entry ∈ front, Served entry) (hbegun : begun.length ≤ 1)

/-- The phase, and that the responses are those of the reads in their order. -/
structure Orderly (s : Connection σ) : Prop where
  phase : Phase s
  responses : s.session.responses = s.log.flatMap Prod.snd

/-- The reads of a run. -/
def readsOf : ConnectionEvent σ → List ReadResult
  | .dataRead result => [result]
  | _ => []

variable {world : World σ} {endpoints : Endpoint Callback} {s s' : Connection σ}

/-- What a completed read begins to write: one response, or nothing if the client has closed its
end or an exception has ended the program. -/
private theorem onDataRead_begun {result : ReadResult} {handling : Handling σ Unit}
    (h : onDataRead world endpoints result = .ok handling) (session : Session σ) :
    ∃ begun, (handling session).2.responses = session.responses ++ begun ∧ begun.length ≤ 1 := by
  cases result with
  | endOfStream =>
    obtain rfl := Except.ok.inj h
    exact ⟨[], (List.append_nil _).symm, Nat.zero_le 1⟩
  | failed message =>
    obtain rfl := Except.ok.inj h
    exact ⟨[_], rfl, Nat.le_refl 1⟩
  | request request =>
    obtain ⟨outcome, -, h⟩ := of_bind_eq_ok h
    obtain ⟨hreturns, hthrows⟩ := answers_runOutcome world request h session
    cases hrun : (handling session).1 with
    | ok _ =>
      obtain ⟨response, hresponse⟩ := hreturns hrun
      exact ⟨[response], hresponse, Nat.le_refl 1⟩
    | error e => exact ⟨[], (hthrows e hrun).trans (List.append_nil _).symm, Nat.zero_le 1⟩

private theorem step_dataRead {result : ReadResult}
    (hstep : step world endpoints s (.dataRead result) = some s') :
    .read ∈ s.pending ∧ ∃ session begun, session.responses = s.session.responses ++ begun ∧
      begun.length ≤ 1 ∧
      s' = { session := session
             pending := s.pending.erase .read ++ begun.map fun _ ↦ .write result.closes
             log := s.log ++ [(result, begun)] } := by
  unfold step at hstep
  dsimp only at hstep
  split at hstep
  · next hread =>
    split at hstep
    · cases hstep
    · next handling hhandling =>
      obtain rfl := Option.some.inj hstep
      obtain ⟨begun, hresponses, hlength⟩ := onDataRead_begun hhandling s.session
      refine ⟨hread, (handling s.session).2, begun, hresponses, hlength, ?_⟩
      rw [hresponses, List.drop_left]
  · cases hstep

private theorem step_dataWritten {closes success : Bool}
    (hstep : step world endpoints s (.dataWritten closes success) = some s') :
    .write closes ∈ s.pending ∧ s' = { s with
      pending := s.pending.erase (.write closes) ++ onDataWritten closes success } := by
  unfold step at hstep
  dsimp only at hstep
  split at hstep
  · next hwrite => exact ⟨hwrite, (Option.some.inj hstep).symm⟩
  · cases hstep

/-- Only a connection that waits for a request reads one. -/
private theorem Phase.of_read (hs : Phase s) (hread : .read ∈ s.pending) :
    s.pending = [.read] ∧ ∀ entry ∈ s.log, Served entry := by
  cases hs with
  | reading hpending hlog => exact ⟨hpending, hlog⟩
  | writing hpending _ _ =>
    rw [hpending] at hread
    cases List.mem_singleton.mp hread
  | ended hpending _ _ _ =>
    rw [hpending] at hread
    cases hread

/-- Only a connection that writes a response ends the write. -/
private theorem Phase.of_write (hs : Phase s) {closes : Bool} (hwrite : .write closes ∈ s.pending) :
    ∃ front result response, s.pending = [.write closes] ∧ closes = ReadResult.closes result ∧
      s.log = front ++ [(result, [response])] ∧ ∀ entry ∈ front, Served entry := by
  cases hs with
  | reading hpending _ =>
    rw [hpending] at hwrite
    cases List.mem_singleton.mp hwrite
  | @writing front result response hpending hlog hfront =>
    rw [hpending] at hwrite ⊢
    obtain ⟨rfl⟩ := List.mem_singleton.mp hwrite
    exact ⟨front, result, response, rfl, rfl, hlog, hfront⟩
  | ended hpending _ _ _ =>
    rw [hpending] at hwrite
    cases hwrite

theorem orderly_step {e : ConnectionEvent σ} (hs : Orderly s)
    (hstep : step world endpoints s e = some s') : Orderly s' := by
  cases e with
  | elsewhere process =>
    obtain rfl := Option.some.inj hstep
    refine ⟨?_, hs.responses⟩
    cases hs.phase with
    | reading hpending hlog => exact .reading hpending hlog
    | writing hpending hlog hfront => exact .writing hpending hlog hfront
    | ended hpending hlog hfront hbegun => exact .ended hpending hlog hfront hbegun
  | dataRead result =>
    obtain ⟨hread, session, begun, hresponses, hlength, rfl⟩ := step_dataRead hstep
    obtain ⟨hpending, hlog⟩ := hs.phase.of_read hread
    constructor
    · rw [hpending, List.erase_cons_head, List.nil_append]
      cases begun with
      | nil => exact .ended rfl rfl hlog (Nat.zero_le 1)
      | cons response more =>
        obtain rfl : more = [] := List.eq_nil_of_length_eq_zero (Nat.le_zero.mp
          (Nat.le_of_succ_le_succ hlength))
        exact .writing rfl rfl hlog
    · dsimp only
      rw [hresponses, hs.responses, List.flatMap_append, List.flatMap_singleton]
  | dataWritten closes success =>
    obtain ⟨hwrite, rfl⟩ := step_dataWritten hstep
    obtain ⟨front, result, response, hpending, rfl, hlog, hfront⟩ := hs.phase.of_write hwrite
    refine ⟨?_, hs.responses⟩
    rw [hpending, List.erase_cons_head, List.nil_append]
    unfold onDataWritten
    split
    · next hgoes =>
      rw [Bool.and_eq_true, Bool.not_eq_true'] at hgoes
      refine .reading rfl ?_
      dsimp only
      rw [hlog]
      intro entry hentry
      rcases List.mem_append.mp hentry with hentry | hentry
      · exact hfront entry hentry
      · rw [List.mem_singleton.mp hentry]
        exact ⟨⟨response, rfl⟩, hgoes.1⟩
    · exact .ended rfl hlog hfront (Nat.le_refl 1)

private theorem log_step {e : ConnectionEvent σ} (hstep : step world endpoints s e = some s') :
    s'.log.map Prod.fst = s.log.map Prod.fst ++ readsOf e := by
  cases e with
  | elsewhere process =>
    obtain rfl := Option.some.inj hstep
    exact (List.append_nil _).symm
  | dataRead result =>
    obtain ⟨-, session, begun, -, -, rfl⟩ := step_dataRead hstep
    exact List.map_append
  | dataWritten closes success =>
    obtain ⟨-, rfl⟩ := step_dataWritten hstep
    exact (List.append_nil _).symm

/-- In every run of a connection, with whatever failures and other activity of the process, and
whatever requests that are handled without a fault: at most one operation is in flight; the
responses are those begun for the completed reads, read after read; every read but the last was
answered by exactly one response that left the connection open, and so was the last one if another
read is in flight; and the last one is without a response only when nothing is in flight any
more. -/
theorem orderly_of_run {process : HttpProcess σ} {events : List (ConnectionEvent σ)}
    (hrun : Transition.run (step world endpoints) (start process) events = some s) :
    s.pending.length ≤ 1 ∧ s.log.map Prod.fst = events.flatMap readsOf ∧
      s.session.responses = s.log.flatMap Prod.snd ∧ (∀ entry ∈ s.log.dropLast, Served entry) ∧
      (.read ∈ s.pending → ∀ entry ∈ s.log, Served entry) ∧
      ∀ entry ∈ s.log, entry.2.length ≤ 1 ∧ (entry.2 = [] → s.pending = []) := by
  have hs : Orderly s := Transition.inv_run (fun _ _ _ hs hstep ↦ orderly_step hs hstep)
    ⟨.reading rfl (List.forall_mem_nil _), rfl⟩ hrun
  have hreads : s.log.map Prod.fst = events.flatMap readsOf :=
    Transition.log_run (fun _ _ _ hstep ↦ log_step hstep) hrun
  have hserved : ∀ entry : ReadResult × List Response, Served entry →
      entry.2.length ≤ 1 ∧ (entry.2 = [] → s.pending = []) := by
    rintro entry ⟨⟨response, hresponse⟩, -⟩
    rw [hresponse]
    exact ⟨Nat.le_refl 1, nofun⟩
  cases hs.phase with
  | reading hpending hlog =>
    refine ⟨?_, hreads, hs.responses, ?_, fun _ ↦ hlog, fun entry hentry ↦
      hserved entry (hlog entry hentry)⟩
    · rw [hpending]
      exact Nat.le_refl 1
    · exact fun entry hentry ↦ hlog entry (List.mem_of_mem_dropLast hentry)
  | writing hpending hlog hfront =>
    refine ⟨?_, hreads, hs.responses, ?_, ?_, ?_⟩
    · rw [hpending]
      exact Nat.le_refl 1
    · rw [hlog, List.dropLast_concat]
      exact hfront
    · rw [hpending]
      intro hread
      cases List.mem_singleton.mp hread
    · rw [hlog]
      intro entry hentry
      rcases List.mem_append.mp hentry with hentry | hentry
      · exact hserved entry (hfront entry hentry)
      · rw [List.mem_singleton.mp hentry]
        exact ⟨Nat.le_refl 1, nofun⟩
  | ended hpending hlog hfront hbegun =>
    refine ⟨?_, hreads, hs.responses, ?_, ?_, ?_⟩
    · rw [hpending]
      exact Nat.zero_le 1
    · rw [hlog, List.dropLast_concat]
      exact hfront
    · rw [hpending]
      exact nofun
    · rw [hlog]
      intro entry hentry
      rcases List.mem_append.mp hentry with hentry | hentry
      · exact hserved entry (hfront entry hentry)
      · rw [List.mem_singleton.mp hentry]
        exact ⟨hbegun, fun _ ↦ hpending⟩

/-- Two requests on one connection, while the services are down. -/
private def twoRequests : List (ConnectionEvent Unit) :=
  [.dataRead (.request { target := bytes "/nothing", method := .get }), .dataWritten false true,
    .elsewhere { services := () },
    .dataRead (.request { target := bytes "/all_price_tasks", method := .get })]

/-- The request for an unknown route is answered, the other one ends the program. -/
theorem orderly_of_run_serviceDown :
    ∃ endpoints s, addEndpointInterfaces = .ok endpoints ∧
      Transition.run (step servicesDown endpoints) (start { services := () }) twoRequests = some s ∧
      (∀ entry ∈ s.log.dropLast, Served entry) ∧ s.log.map (fun entry ↦ entry.2.length) = [1, 0] ∧
      s.pending = [] := by
  have hrun : (addEndpointInterfaces.toOption.bind fun endpoints ↦
      (Transition.run (step servicesDown endpoints) (start { services := () }) twoRequests).map
        fun s ↦ (s.log.map (fun entry ↦ entry.2.length), s.pending)) = some ([1, 0], []) := by
    decide +kernel
  obtain ⟨endpoints, hendpoints, hrun⟩ := Option.bind_eq_some_iff.mp hrun
  obtain ⟨s, hs, heq⟩ := Option.map_eq_some_iff.mp hrun
  obtain ⟨hlog, hpending⟩ := Prod.mk.inj heq
  refine ⟨endpoints, s, ?_, hs, (orderly_of_run hs).2.2.2.1, hlog, hpending⟩
  cases hadd : addEndpointInterfaces with
  | ok e =>
    rw [hadd] at hendpoints
    rw [Option.some.inj hendpoints]
  | error fault =>
    rw [hadd] at hendpoints
    cases hendpoints

end Connection

end KeepMyJournal.HttpStream
