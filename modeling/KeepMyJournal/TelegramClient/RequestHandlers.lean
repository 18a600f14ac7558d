import KeepMyJournal.Base.Transition
import KeepMyJournal.TelegramClient.Client
import Mathlib.Data.List.Nodup

/-!
# The request handlers of the Telegram client

Whether `m_requestHandlers` holds the handlers of the queries that wait for an answer, and how
often a handler runs, where the D-Bus calls and what the login thread does come one at a time.
-/

namespace KeepMyJournal.TelegramClient

open KeepMyJournal.Base KeepMyJournal.Base.Transition

/-- The map holds exactly the handlers of the queries that have been sent since the last restart
and have not been answered. -/
def HoldsWaiting (p : Process) : Prop :=
  ∀ id handler, p.tg.requestHandlers[id]? = some handler ↔
    ∃ query ∈ p.tg.client, query.id = id ∧ query.handler = some handler

/-- The next query does not get an id that the map has a handler for. -/
def NextIdFree (p : Process) : Prop := p.tg.requestHandlers[p.id + 1]? = none

/-- The authorization states in which a query is sent. -/
def AuthorizationState.Sends : AuthorizationState → Prop
  | .waitEncryptionKey | .waitPhoneNumber | .waitTdlibParameters => True
  | .ready | .loggingOut | .closing | .closed | .waitCode | .waitOtherDeviceConfirmation
  | .waitRegistration | .waitPassword | .other => False

/-- The event makes the object send a query. -/
def Sends (p : Process) : Event → Prop
  | .receive (some (.updateAuthorizationState state)) => state.Sends
  | .getContacts => True
  | .sendTextMessage _ _ => p.tg.authorizationGranted = true
  | .onNewAuthorizationCode mobileNumber _ | .onNewAuthorizationPassword mobileNumber _ =>
    mobileNumber = p.tg.phoneNumber
  | .receive _ | .answer _ _ | .restart => False

/-- A query is answered. -/
def Event.IsAnswer : Event → Prop
  | .answer _ _ => True
  | .receive _ | .restart | .getContacts | .sendTextMessage _ _ | .onNewAuthorizationCode _ _
  | .onNewAuthorizationPassword _ _ => False

/-- The event is no answer, and a query it sends gets an id of its own. -/
def Unanswered (p : Process) (e : Event) : Prop :=
  ¬e.IsAnswer ∧ (Sends p e → NextIdFree p)

/-! ### What a step does -/

/-- Nothing is sent, answered or run. -/
structure Idle (p p' : Process) : Prop where
  client : p'.tg.client = p.tg.client
  requestHandlers : p'.tg.requestHandlers = p.tg.requestHandlers
  ran : p'.ran = p.ran
  handlers : p'.handlers = p.handlers
  id : p'.id = p.id

/-- A query is sent with a new handler. -/
structure Sent (query : Query) (handler : Handler) (p p' : Process) : Prop where
  queryId : query.id = p.id + 1
  queryHandler : query.handler = some handler
  serial : handler.serial = p.handlers
  client : p'.tg.client = p.tg.client ++ [query]
  requestHandlers : p'.tg.requestHandlers = p.tg.requestHandlers.insertIfNew query.id handler
  ran : p'.ran = p.ran
  handlers : p'.handlers = p.handlers + 1
  id : p'.id = p.id + 1

/-- A handler runs. -/
structure Ran (handler : Handler) (p p' : Process) : Prop where
  client : p'.tg.client = p.tg.client
  requestHandlers : p'.tg.requestHandlers = p.tg.requestHandlers
  ran : p'.ran = p.ran ++ [handler]
  handlers : p'.handlers = p.handlers
  id : p'.id = p.id

theorem Idle.refl (p : Process) : Idle p p := ⟨rfl, rfl, rfl, rfl, rfl⟩

theorem sent_sendNext (request : Function) (p : Process) :
    ∃ query handler, Sent query handler p (sendNext request p) :=
  ⟨_, _, rfl, rfl, rfl, rfl, rfl, rfl, rfl, rfl⟩

/-- A state is answered with a query or with none. -/
theorem onAuthorizationStateUpdate_cases (state : AuthorizationState) (p : Process) :
    (state.Sends ∧ ∃ query handler, Sent query handler p (onAuthorizationStateUpdate state p)) ∨
      (¬state.Sends ∧ Idle p (onAuthorizationStateUpdate state p)) := by
  cases state with
  | waitEncryptionKey | waitPhoneNumber | waitTdlibParameters =>
    exact .inl ⟨trivial, _, _, rfl, rfl, rfl, rfl, rfl, rfl, rfl, rfl⟩
  | ready | loggingOut | closing | closed | waitCode | waitOtherDeviceConfirmation
  | waitRegistration | waitPassword | other =>
    exact .inr ⟨id, rfl, rfl, rfl, rfl, rfl⟩

theorem processUpdate_cases (object : Object) (p : Process) :
    (∃ query handler, Sent query handler p (processUpdate object p)) ∨
      Idle p (processUpdate object p) := by
  cases object with
  | updateAuthorizationState state =>
    rcases onAuthorizationStateUpdate_cases state
      { p with tg := { p.tg with authorizationState := some state } } with
      ⟨-, query, handler, h⟩ | ⟨-, h⟩
    · exact .inl ⟨query, handler, h.queryId, h.queryHandler, h.serial, h.client,
        h.requestHandlers, h.ran, h.handlers, h.id⟩
    · exact .inr ⟨h.client, h.requestHandlers, h.ran, h.handlers, h.id⟩
  | error text | other => exact .inr (.refl p)

/-- The query is answered: its handler runs if the map has one under its id. An answer under the
id 0 is taken for an update. -/
def Answered (query : Query) (p p' : Process) : Prop :=
  let p := { p with tg := { p.tg with client := p.tg.client.erase query } }
  (∃ query handler, Sent query handler p p') ∨ Idle p p' ∨
    ∃ handler, p.tg.requestHandlers[query.id]? = some handler ∧ Ran handler p p'

theorem answered_processResponse (query : Query) (object : Object) (p : Process) :
    Answered query p (processResponse { id := query.id, object := some object }
      { p with tg := { p.tg with client := p.tg.client.erase query } }) := by
  unfold Answered processResponse
  dsimp only
  split
  · rcases processUpdate_cases object
      { p with tg := { p.tg with client := p.tg.client.erase query } } with h | h
    · exact .inl h
    · exact .inr (.inl h)
  · split
    · next handler hfound =>
      refine .inr (.inr ⟨handler, hfound, ?_⟩)
      unfold Handler.run checkAuthenticationError
      dsimp only
      split
      · cases object <;> exact ⟨rfl, rfl, rfl, rfl, rfl⟩
      · exact ⟨rfl, rfl, rfl, rfl, rfl⟩
    · exact .inr (.inl (.refl _))

/-- What a step can do. -/
inductive Effect (p : Process) : Event → Process → Prop
  | idle {e : Event} {p' : Process} : ¬e.IsAnswer → ¬Sends p e →
      Idle p p' → Effect p e p'
  | sent {e : Event} {p' : Process} {query : Query} {handler : Handler} :
      ¬e.IsAnswer → Sends p e → Sent query handler p p' →
      Effect p e p'
  | restart : Effect p .restart (restart p)
  | answer {query : Query} {object : Object} {p' : Process} : query ∈ p.tg.client →
      Answered query p p' → Effect p (.answer query object) p'

theorem effect_receive (object : Option Object) (p : Process) :
    Effect p (.receive object) (processResponse { id := 0, object := object } p) := by
  cases object with
  | none => exact .idle id id (.refl p)
  | some object =>
    cases object with
    | updateAuthorizationState state =>
      rcases onAuthorizationStateUpdate_cases state
        { p with tg := { p.tg with authorizationState := some state } } with
        ⟨hsends, query, handler, h⟩ | ⟨hsends, h⟩
      · exact .sent id hsends ⟨h.queryId, h.queryHandler, h.serial, h.client,
          h.requestHandlers, h.ran, h.handlers, h.id⟩
      · exact .idle id hsends ⟨h.client, h.requestHandlers, h.ran, h.handlers, h.id⟩
    | error text | other => exact .idle id id (.refl p)

/-- A method that sends under a condition. -/
theorem effect_guarded {p : Process} {e : Event} {guard : Prop} [Decidable guard]
    (he : ¬e.IsAnswer) (hguard : Sends p e ↔ guard)
    (request : Function) : Effect p e (if guard then sendNext request p else p) := by
  split
  · next h =>
    obtain ⟨query, handler, hsent⟩ := sent_sendNext request p
    exact .sent he (hguard.mpr h) hsent
  · next h => exact .idle he (fun hsends ↦ h (hguard.mp hsends)) (.refl p)

theorem step_effect {p p' : Process} {e : Event} (h : step p e = some p') : Effect p e p' := by
  cases e with
  | receive object =>
    obtain rfl := Option.some.inj h
    exact effect_receive object p
  | answer query object =>
    rw [step] at h
    split at h
    · next hquery =>
      obtain rfl := Option.some.inj h
      exact .answer hquery (answered_processResponse query object p)
    · cases h
  | restart =>
    obtain rfl := Option.some.inj h
    exact .restart
  | getContacts =>
    obtain rfl := Option.some.inj h
    obtain ⟨query, handler, hsent⟩ := sent_sendNext .getContacts p
    exact .sent id trivial hsent
  | sendTextMessage chatId content =>
    obtain rfl := Option.some.inj h
    exact effect_guarded id (by rfl) (.sendMessage chatId content)
  | onNewAuthorizationCode mobileNumber code =>
    obtain rfl := Option.some.inj h
    rw [onNewAuthorizationCode, ite_not]
    exact effect_guarded id (by rfl) (.checkAuthenticationCode code)
  | onNewAuthorizationPassword mobileNumber password =>
    obtain rfl := Option.some.inj h
    rw [onNewAuthorizationPassword, ite_not]
    exact effect_guarded id (by rfl) (.checkAuthenticationPassword password)

/-- A query that waits can be answered. -/
theorem step_answer {p : Process} {query : Query} (hquery : query ∈ p.tg.client)
    (object : Object) : ∃ p', step p (.answer query object) = some p' ∧ Answered query p p' := by
  rw [step, if_pos hquery]
  exact ⟨_, rfl, answered_processResponse query object p⟩

/-! ### The handlers of the queries -/

/-- The queries that wait for an answer have handlers of their own, created before. -/
structure Numbered (p : Process) : Prop where
  handled : ∀ query ∈ p.tg.client,
    ∃ handler, query.handler = some handler ∧ handler.serial < p.handlers
  distinct : (p.tg.client.map Query.handler).Nodup

variable {p p' : Process} {query : Query} {handler : Handler}

theorem Numbered.of_idle (hp : Numbered p) (h : Idle p p') : Numbered p' := by
  constructor
  · rw [h.client, h.handlers]
    exact hp.handled
  · rw [h.client]
    exact hp.distinct

theorem Numbered.of_sent (hp : Numbered p) (h : Sent query handler p p') : Numbered p' := by
  constructor
  · rw [h.client, h.handlers]
    intro old hold
    rcases List.mem_append.mp hold with hold | hold
    · obtain ⟨found, hfound, hlt⟩ := hp.handled old hold
      exact ⟨found, hfound, Nat.lt_succ_of_lt hlt⟩
    · obtain rfl := List.mem_singleton.mp hold
      exact ⟨handler, h.queryHandler, by rw [h.serial]; exact Nat.lt_succ_self _⟩
  · rw [h.client, List.map_append, List.nodup_append]
    refine ⟨hp.distinct, List.pairwise_singleton _ _, ?_⟩
    intro a ha b hb hab
    obtain ⟨old, hold, rfl⟩ := List.mem_map.mp ha
    obtain ⟨found, hfound, hlt⟩ := hp.handled old hold
    rw [List.map_singleton, List.mem_singleton] at hb
    rw [hb, h.queryHandler, hfound] at hab
    rw [Option.some.inj hab, h.serial] at hlt
    exact Nat.lt_irrefl _ hlt

theorem Numbered.of_ran (hp : Numbered p) (h : Ran handler p p') : Numbered p' := by
  constructor
  · rw [h.client, h.handlers]
    exact hp.handled
  · rw [h.client]
    exact hp.distinct

/-- An answered query waits no more. -/
theorem Numbered.erase (hp : Numbered p) (query : Query) :
    Numbered { p with tg := { p.tg with client := p.tg.client.erase query } } where
  handled old hold := hp.handled old (List.mem_of_mem_erase hold)
  distinct := hp.distinct.sublist (List.erase_sublist.map Query.handler)

theorem Numbered.restart (p : Process) : Numbered (restart p) :=
  ⟨List.forall_mem_nil _, List.nodup_nil⟩

/-- The others have other handlers. -/
theorem Numbered.handler_ne_of_mem_erase (hp : Numbered p) {other : Query}
    (hquery : query ∈ p.tg.client) (hother : other ∈ p.tg.client.erase query) :
    other.handler ≠ query.handler := by
  intro heq
  have hnodup : p.tg.client.Nodup := List.Nodup.of_map Query.handler hp.distinct
  obtain ⟨hne, hmem⟩ := hnodup.mem_erase_iff.mp hother
  exact hne (List.inj_on_of_nodup_map hp.distinct hmem hquery heq)

theorem numbered_step {e : Event} (hp : Numbered p) (h : Effect p e p') : Numbered p' := by
  cases h with
  | idle _ _ h => exact hp.of_idle h
  | sent _ _ h => exact hp.of_sent h
  | restart => exact .restart p
  | @answer query _ _ hquery h =>
    rcases h with ⟨_, _, h⟩ | h | ⟨_, _, h⟩
    · exact (hp.erase query).of_sent h
    · exact (hp.erase query).of_idle h
    · exact (hp.erase query).of_ran h

/-! ### The map -/

theorem holdsWaiting_of_idle (hp : HoldsWaiting p) (h : Idle p p') : HoldsWaiting p' := by
  unfold HoldsWaiting
  rw [h.client, h.requestHandlers]
  exact hp

/-- What the map holds after a query has been sent. -/
theorem Sent.getElem? (h : Sent query handler p p') (id : UInt64) :
    p'.tg.requestHandlers[id]? =
      if query.id = id ∧ p.tg.requestHandlers[query.id]? = none then some handler
      else p.tg.requestHandlers[id]? := by
  rw [h.requestHandlers, Std.ExtTreeMap.getElem?_insertIfNew]
  simp only [Std.compare_eq_iff_eq, Std.ExtTreeMap.mem_iff_isSome_getElem?,
    Bool.not_eq_true, Option.isSome_eq_false_iff, Option.isNone_iff_eq_none]

/-- A handler that is in the map stays there. -/
theorem Sent.getElem?_of_some (h : Sent query handler p p') {id : UInt64} {found : Handler}
    (hfound : p.tg.requestHandlers[id]? = some found) :
    p'.tg.requestHandlers[id]? = some found := by
  rw [h.getElem?, if_neg, hfound]
  rintro ⟨rfl, hnone⟩
  rw [hnone] at hfound
  cases hfound

/-- A query that is sent finds its place in the map exactly if its id is free. -/
theorem holdsWaiting_sent_iff (hn : Numbered p) (hp : HoldsWaiting p)
    (h : Sent query handler p p') : HoldsWaiting p' ↔ NextIdFree p := by
  rw [NextIdFree, ← h.queryId]
  constructor
  · intro hp'
    cases hfound : p.tg.requestHandlers[query.id]? with
    | none => rfl
    | some found =>
      have hnew : p'.tg.requestHandlers[query.id]? = some handler :=
        (hp' query.id handler).mpr ⟨query, by simp [h.client], rfl, h.queryHandler⟩
      rw [h.getElem?_of_some hfound] at hnew
      obtain ⟨old, hold, -, hhandler⟩ := (hp query.id found).mp hfound
      obtain ⟨stored, hstored, hlt⟩ := hn.handled old hold
      rw [hhandler, Option.some.inj hnew] at hstored
      rw [← Option.some.inj hstored, h.serial] at hlt
      exact absurd hlt (Nat.lt_irrefl _)
  · intro hfree id found
    rw [h.getElem?, h.client]
    constructor
    · intro hfound
      split at hfound
      · next hid =>
        obtain rfl := Option.some.inj hfound
        exact ⟨query, by simp, hid.1, h.queryHandler⟩
      · obtain ⟨old, hold, hid, hhandler⟩ := (hp id found).mp hfound
        exact ⟨old, List.mem_append_left _ hold, hid, hhandler⟩
    · rintro ⟨waiting, hwaiting, rfl, hhandler⟩
      rcases List.mem_append.mp hwaiting with hwaiting | hwaiting
      · have hfound := (hp waiting.id found).mpr ⟨waiting, hwaiting, rfl, hhandler⟩
        rw [if_neg, hfound]
        rintro ⟨hid, -⟩
        rw [hid, hfound] at hfree
        cases hfree
      · obtain rfl := List.mem_singleton.mp hwaiting
        rw [if_pos ⟨rfl, hfree⟩, ← hhandler, h.queryHandler]

/-- What stays in the map when a query is answered. -/
theorem getElem?_of_answered (h : Answered query p p') {id : UInt64} {found : Handler}
    (hfound : p.tg.requestHandlers[id]? = some found) :
    p'.tg.requestHandlers[id]? = some found := by
  rcases h with ⟨_, _, h⟩ | h | ⟨_, _, h⟩
  · exact h.getElem?_of_some hfound
  · rw [h.requestHandlers]
    exact hfound
  · rw [h.requestHandlers]
    exact hfound

/-- No query waits with the handler of one that is answered. -/
theorem handler_ne_of_answered (hn : Numbered p) (hquery : query ∈ p.tg.client)
    (h : Answered query p p') : ∀ waiting ∈ p'.tg.client, waiting.handler ≠ query.handler := by
  rcases h with ⟨new, handler, h⟩ | h | ⟨_, _, h⟩
  · rw [h.client]
    intro waiting hwaiting
    rcases List.mem_append.mp hwaiting with hwaiting | hwaiting
    · exact hn.handler_ne_of_mem_erase hquery hwaiting
    · obtain rfl := List.mem_singleton.mp hwaiting
      obtain ⟨found, hfound, hlt⟩ := hn.handled query hquery
      rw [h.queryHandler, hfound]
      intro heq
      rw [← Option.some.inj heq, h.serial] at hlt
      exact Nat.lt_irrefl _ hlt
  · rw [h.client]
    exact fun waiting hwaiting ↦ hn.handler_ne_of_mem_erase hquery hwaiting
  · rw [h.client]
    exact fun waiting hwaiting ↦ hn.handler_ne_of_mem_erase hquery hwaiting

/-- The handler of a query that is answered stays in the map. -/
theorem not_holdsWaiting_of_answered (hn : Numbered p) (hp : HoldsWaiting p)
    (hquery : query ∈ p.tg.client) (h : Answered query p p') : ¬HoldsWaiting p' := by
  intro hp'
  obtain ⟨found, hfound, -⟩ := hn.handled query hquery
  have hstays := getElem?_of_answered h ((hp query.id found).mpr ⟨query, hquery, rfl, hfound⟩)
  obtain ⟨waiting, hwaiting, -, hhandler⟩ := (hp' query.id found).mp hstays
  exact handler_ne_of_answered hn hquery h waiting hwaiting (hhandler.trans hfound.symm)

theorem holdsWaiting_restart (p : Process) : HoldsWaiting (restart p) := by
  intro id handler
  constructor
  · intro h
    rw [restart, Std.ExtTreeMap.getElem?_empty] at h
    cases h
  · rintro ⟨query, hquery, -⟩
    cases hquery

/-! ### Runs -/

/-- The object as it is constructed. -/
def start (phoneNumber : Bytes) : Process := { tg := { phoneNumber := phoneNumber } }

/-- What the map of handlers is to satisfy after every step, and the handlers with it. -/
def HandlersExact (_p : Process) (_e : Event) (p' : Process) : Prop :=
  HoldsWaiting p' ∧ p'.ran.Nodup

/-- As long as nothing has been answered, no handler has run. -/
private structure NothingRan (p : Process) : Prop where
  numbered : Numbered p
  holds : HoldsWaiting p
  ran : p.ran = []

private theorem nothingRan_start (phoneNumber : Bytes) : NothingRan (start phoneNumber) where
  numbered := .restart (start phoneNumber)
  holds := holdsWaiting_restart (start phoneNumber)
  ran := rfl

private theorem handlersExact_iff {e : Event} (hp : NothingRan p) (h : Effect p e p') :
    (HandlersExact p e p' ↔ Unanswered p e) ∧ (HandlersExact p e p' → NothingRan p') := by
  have hnumbered := numbered_step hp.numbered h
  cases h with
  | idle he hsends h =>
    have hran : p'.ran = [] := h.ran.trans hp.ran
    have hholds := holdsWaiting_of_idle hp.holds h
    refine ⟨iff_of_true ⟨hholds, ?_⟩ ⟨he, fun hs ↦ absurd hs hsends⟩, fun _ ↦ ?_⟩
    · rw [hran]
      exact List.nodup_nil
    · exact ⟨hnumbered, hholds, hran⟩
  | sent he hsends h =>
    have hran : p'.ran = [] := h.ran.trans hp.ran
    have hiff := holdsWaiting_sent_iff hp.numbered hp.holds h
    refine ⟨?_, fun hexact ↦ ⟨hnumbered, hexact.1, hran⟩⟩
    rw [HandlersExact, Unanswered, hiff, hran]
    constructor
    · rintro ⟨hfree, -⟩
      exact ⟨he, fun _ ↦ hfree⟩
    · rintro ⟨-, hfree⟩
      exact ⟨hfree hsends, List.nodup_nil⟩
  | restart =>
    have hran : (restart p).ran = [] := hp.ran
    refine ⟨iff_of_true ⟨holdsWaiting_restart p, ?_⟩ ⟨id, False.elim⟩, fun _ ↦ ?_⟩
    · rw [hran]
      exact List.nodup_nil
    · exact ⟨hnumbered, holdsWaiting_restart p, hran⟩
  | answer hquery h =>
    have hnot := not_holdsWaiting_of_answered hp.numbered hp.holds hquery h
    refine ⟨iff_of_false (fun hexact ↦ hnot hexact.1) (fun hun ↦ hun.1 trivial), ?_⟩
    exact fun hexact ↦ absurd hexact.1 hnot

/-- Over every run, the map holds exactly the handlers of the queries that wait for an answer, and
each handler runs at most once, if and only if no query is answered and every query is sent under
an id that the map does not hold. -/
theorem handlersExact_iff_unanswered (phoneNumber : Bytes) (events : List Event) :
    Along step HandlersExact (start phoneNumber) events ↔
      Along step (fun p e _ ↦ Unanswered p e) (start phoneNumber) events := by
  apply along_congr (I := NothingRan)
  · intro p e _ p' hp hstep
    exact (handlersExact_iff hp (step_effect hstep)).1
  · intro p e _ p' hp hstep hexact
    exact (handlersExact_iff hp (step_effect hstep)).2 hexact
  · exact nothingRan_start phoneNumber

private def firstQuery : Query :=
  { id := 1, request := .getContacts, handler := some { serial := 0, id := 0 } }

/-- A query is answered, and its handler stays in the map. -/
theorem not_handlersExact_answered :
    ¬∀ (phoneNumber : Bytes) (events : List Event),
      Along step HandlersExact (start phoneNumber) events := by
  intro h
  have hsent : step (start []) .getContacts = some (getContacts (start [])) := rfl
  obtain ⟨⟨hholds, -⟩, hrest⟩ := h [] [.getContacts, .answer firstQuery .other] _ hsent
  have hnumbered := numbered_step (nothingRan_start []).numbered (step_effect hsent)
  have hquery : firstQuery ∈ (getContacts (start [])).tg.client := List.mem_singleton_self _
  obtain ⟨after, hstep, hanswered⟩ := step_answer hquery .other
  obtain ⟨⟨hafter, -⟩, -⟩ := hrest after hstep
  exact not_holdsWaiting_of_answered hnumbered hholds hquery hanswered hafter

/-! ### Handlers that run -/

/-- No handler has run twice or waits again, and every query finds its handler under its id, which
the counter has given out. -/
structure RanOnce (p : Process) : Prop where
  numbered : Numbered p
  created : ∀ handler ∈ p.ran, handler.serial < p.handlers
  gone : ∀ handler ∈ p.ran, ∀ query ∈ p.tg.client, query.handler ≠ some handler
  nodup : p.ran.Nodup
  held : ∀ query ∈ p.tg.client, p.tg.requestHandlers[query.id]? = query.handler
  counted : p.id = UInt64.ofNat p.handlers
  given : ∀ id handler, p.tg.requestHandlers[id]? = some handler →
    ∃ n < p.handlers, id = UInt64.ofNat (n + 1)

/-- The counter does not come round before it has given out all ids. -/
theorem RanOnce.nextIdFree (hp : RanOnce p) (hfew : p.handlers + 1 < UInt64.size) :
    NextIdFree p := by
  rw [NextIdFree]
  cases hfound : p.tg.requestHandlers[p.id + 1]? with
  | none => rfl
  | some handler =>
    obtain ⟨n, hn, hid⟩ := hp.given _ handler hfound
    have hsame : UInt64.ofNat (p.handlers + 1) = UInt64.ofNat (n + 1) := by
      rw [← hid, hp.counted]
      exact UInt64.ofNat_add p.handlers 1
    have hnat := congrArg UInt64.toNat hsame
    rw [UInt64.toNat_ofNat_of_lt' hfew, UInt64.toNat_ofNat_of_lt' (by omega)] at hnat
    omega

theorem RanOnce.of_idle (hp : RanOnce p) (h : Idle p p') : RanOnce p' where
  numbered := hp.numbered.of_idle h
  created := by
    rw [h.ran, h.handlers]
    exact hp.created
  gone := by
    rw [h.ran, h.client]
    exact hp.gone
  nodup := by
    rw [h.ran]
    exact hp.nodup
  held := by
    rw [h.client, h.requestHandlers]
    exact hp.held
  counted := by
    rw [h.id, h.handlers]
    exact hp.counted
  given := by
    rw [h.requestHandlers, h.handlers]
    exact hp.given

theorem RanOnce.of_sent (hp : RanOnce p) (h : Sent query handler p p') (hfree : NextIdFree p) :
    RanOnce p' where
  numbered := hp.numbered.of_sent h
  created ran hran := by
    rw [h.ran] at hran
    rw [h.handlers]
    exact Nat.lt_succ_of_lt (hp.created ran hran)
  gone ran hran waiting hwaiting := by
    rw [h.ran] at hran
    rw [h.client] at hwaiting
    rcases List.mem_append.mp hwaiting with hwaiting | hwaiting
    · exact hp.gone ran hran waiting hwaiting
    · obtain rfl := List.mem_singleton.mp hwaiting
      intro heq
      have hlt := hp.created ran hran
      rw [h.queryHandler] at heq
      rw [← Option.some.inj heq, h.serial] at hlt
      exact Nat.lt_irrefl _ hlt
  nodup := by
    rw [h.ran]
    exact hp.nodup
  held waiting hwaiting := by
    rw [h.client] at hwaiting
    rcases List.mem_append.mp hwaiting with hwaiting | hwaiting
    · obtain ⟨found, hfound, -⟩ := hp.numbered.handled waiting hwaiting
      have hheld := hp.held waiting hwaiting
      rw [hfound] at hheld ⊢
      exact h.getElem?_of_some hheld
    · obtain rfl := List.mem_singleton.mp hwaiting
      rw [NextIdFree, ← h.queryId] at hfree
      rw [h.getElem?, if_pos ⟨rfl, hfree⟩, h.queryHandler]
  counted := by
    rw [h.id, h.handlers, hp.counted]
    exact (UInt64.ofNat_add p.handlers 1).symm
  given id found hfound := by
    rw [h.handlers]
    rw [h.getElem?] at hfound
    split at hfound
    · next hid =>
      refine ⟨p.handlers, Nat.lt_succ_self _, ?_⟩
      rw [← hid.1, h.queryId, hp.counted]
      exact (UInt64.ofNat_add p.handlers 1).symm
    · obtain ⟨n, hn, hid⟩ := hp.given id found hfound
      exact ⟨n, Nat.lt_succ_of_lt hn, hid⟩

theorem RanOnce.erase (hp : RanOnce p) (query : Query) :
    RanOnce { p with tg := { p.tg with client := p.tg.client.erase query } } where
  numbered := hp.numbered.erase query
  created := hp.created
  gone ran hran waiting hwaiting := hp.gone ran hran waiting (List.mem_of_mem_erase hwaiting)
  nodup := hp.nodup
  held waiting hwaiting := hp.held waiting (List.mem_of_mem_erase hwaiting)
  counted := hp.counted
  given := hp.given

theorem RanOnce.restart (hp : RanOnce p) : RanOnce (restart p) where
  numbered := .restart p
  created := hp.created
  gone _ _ := List.forall_mem_nil _
  nodup := hp.nodup
  held := List.forall_mem_nil _
  counted := hp.counted
  given id handler h := by
    rw [TelegramClient.restart, Std.ExtTreeMap.getElem?_empty] at h
    cases h

/-- The handler that runs is that of the query, which no other query waits with. -/
theorem RanOnce.of_answered (hp : RanOnce p) (hquery : query ∈ p.tg.client)
    (h : Answered query p p') (hfew : p'.handlers < UInt64.size) : RanOnce p' := by
  have herased := hp.erase query
  rcases h with ⟨_, _, h⟩ | h | ⟨handler, hfound, h⟩
  · have hhandlers : p'.handlers = p.handlers + 1 := h.handlers
    exact herased.of_sent h (herased.nextIdFree (hhandlers ▸ hfew))
  · exact herased.of_idle h
  · have hhandler : query.handler = some handler := (hp.held query hquery).symm.trans hfound
    obtain ⟨created, hcreated, hlt⟩ := hp.numbered.handled query hquery
    obtain rfl : handler = created := Option.some.inj (hhandler.symm.trans hcreated)
    have hother := handler_ne_of_answered hp.numbered hquery (.inr (.inr ⟨_, hfound, h⟩))
    refine ⟨herased.numbered.of_ran h, ?_, ?_, ?_, ?_, ?_, ?_⟩
    · rw [h.ran, h.handlers]
      intro ran hran
      rcases List.mem_append.mp hran with hran | hran
      · exact hp.created ran hran
      · rw [List.mem_singleton.mp hran]
        exact hlt
    · rw [h.ran]
      intro ran hran waiting hwaiting
      rcases List.mem_append.mp hran with hran | hran
      · rw [h.client] at hwaiting
        exact herased.gone ran hran waiting hwaiting
      · rw [List.mem_singleton.mp hran, ← hhandler]
        exact hother waiting hwaiting
    · rw [h.ran, List.nodup_append]
      refine ⟨hp.nodup, List.pairwise_singleton _ _, ?_⟩
      intro ran hran new hnew heq
      obtain rfl := List.mem_singleton.mp hnew
      exact hp.gone ran hran query hquery (heq ▸ hhandler)
    · rw [h.client, h.requestHandlers]
      exact herased.held
    · rw [h.id, h.handlers]
      exact hp.counted
    · rw [h.requestHandlers, h.handlers]
      exact hp.given

theorem handlers_le_of_effect {e : Event} (h : Effect p e p') : p.handlers ≤ p'.handlers := by
  cases h with
  | idle _ _ h => exact Nat.le_of_eq h.handlers.symm
  | sent _ _ h =>
    rw [h.handlers]
    exact Nat.le_succ _
  | restart => exact Nat.le_refl p.handlers
  | answer _ h =>
    rcases h with ⟨_, _, h⟩ | h | ⟨_, _, h⟩
    · rw [h.handlers]
      exact Nat.le_succ p.handlers
    · exact Nat.le_of_eq h.handlers.symm
    · exact Nat.le_of_eq h.handlers.symm

theorem RanOnce.start (phoneNumber : Bytes) : RanOnce (start phoneNumber) where
  numbered := .restart (TelegramClient.start phoneNumber)
  created := List.forall_mem_nil _
  gone _ := by simp [TelegramClient.start]
  nodup := List.nodup_nil
  held := List.forall_mem_nil _
  counted := rfl
  given id handler h := by
    rw [TelegramClient.start, Std.ExtTreeMap.getElem?_empty] at h
    cases h

/-- Until the counter has given out all ids, no handler runs twice, however many queries are
answered one after the other; and the next id is free. -/
theorem ranOnce_of_run {phoneNumber : Bytes} {events : List Event}
    (hrun : run step (start phoneNumber) events = some p) (hfew : p.handlers < UInt64.size) :
    RanOnce p := by
  have hinv : p.handlers < UInt64.size → RanOnce p := by
    apply inv_run (I := fun p ↦ p.handlers < UInt64.size → RanOnce p) ?_ ?_ hrun
    · intro p e p' hp hstep hfew
      have heffect := step_effect hstep
      have hranOnce := hp (Nat.lt_of_le_of_lt (handlers_le_of_effect heffect) hfew)
      cases heffect with
      | idle _ _ h => exact hranOnce.of_idle h
      | sent _ _ h =>
        exact hranOnce.of_sent h (hranOnce.nextIdFree (h.handlers ▸ hfew))
      | restart => exact hranOnce.restart
      | answer hquery h => exact hranOnce.of_answered hquery h hfew
    · exact fun _ ↦ .start phoneNumber
  exact hinv hfew

/-- The client is restarted between two queries, and the second one is answered. -/
theorem ranOnce_of_run_restarted : ∃ p,
    run step (start []) [.getContacts, .restart, .getContacts, .answer
      { id := 2, request := .getContacts, handler := some { serial := 1, id := 0 } } .other] =
        some p ∧ p.ran = [{ serial := 1, id := 0 }] ∧ RanOnce p := by
  have hrun : (run step (start []) [.getContacts, .restart, .getContacts, .answer
      { id := 2, request := .getContacts, handler := some { serial := 1, id := 0 } } .other]).map
      (fun p ↦ (p.ran, p.handlers)) = some ([{ serial := 1, id := 0 }], 2) := by rfl
  obtain ⟨p, hp, hends⟩ := Option.map_eq_some_iff.mp hrun
  refine ⟨p, hp, congrArg Prod.fst hends, ranOnce_of_run hp ?_⟩
  rw [show p.handlers = 2 from congrArg Prod.snd hends]
  decide

end KeepMyJournal.TelegramClient
