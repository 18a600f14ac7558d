import KeepMyJournal.HttpStream.Session

/-!
# Answering a request

When the handling of a request writes exactly one response and lets no exception out. No handler
is reached with a query behind the path, which is read from a destroyed string. The handlers with a
`try` block around their body always answer; the others depend on the D-Bus calls they make outside
one, and on whether the strings they write are UTF-8.
-/

namespace KeepMyJournal.HttpStream

open KeepMyJournal.Base KeepMyJournal.Common

variable {σ α : Type}

/-- The handling returns, having written one response. -/
def AnsweredOnce (handling : Handling σ Unit) (s : Session σ) : Prop :=
  (handling s).1 = .ok () ∧ ∃ response, (handling s).2.responses = s.responses ++ [response]

/-- The call returns. -/
def Returns (call : Dbus (HttpProcess σ) α) (p : HttpProcess σ) : Prop :=
  ∃ a, (call p).1 = .ok a

/-- The call returns tasks whose ids and tokens are UTF-8. -/
def ReturnsUtf8 (call : Dbus (HttpProcess σ) (List ScheduledPriceTask)) (p : HttpProcess σ) :
    Prop :=
  ∃ tasks, (call p).1 = .ok tasks ∧
    ∀ task ∈ tasks, Json.isUtf8 task.taskId = true ∧ task.tokens.all Json.isUtf8 = true

open Throwing

/-! ### Handlers that catch -/

/-- One response if the handling returns, none if it throws. -/
def AnswersOrThrows (handling : Handling σ Unit) : Prop :=
  ∀ s, ((handling s).1 = .ok () →
      ∃ response, (handling s).2.responses = s.responses ++ [response]) ∧
    ∀ e, (handling s).1 = .error e → (handling s).2.responses = s.responses

theorem keeps_dbus (call : Dbus (HttpProcess σ) α) :
    Keeps Session.responses (Handling.dbus call) := fun _ ↦ rfl

theorem keeps_outside (step : StateM σ α) :
    Keeps Session.responses (Handling.outside step) := fun _ ↦ rfl

theorem keeps_std (x : Except StdException α) :
    Keeps Session.responses (Handling.std x : Handling σ α) := fun _ ↦ rfl

theorem answers_errorHandler (response : Response) :
    AnswersOrThrows (Handling.errorHandler response : Handling σ Unit) :=
  fun _ ↦ ⟨fun _ ↦ ⟨response, rfl⟩, fun _ h ↦ nomatch h⟩

theorem answers_throw (e : Exception) :
    AnswersOrThrows (throw e : Handling σ Unit) := fun _ ↦ ⟨nofun, fun _ _ ↦ rfl⟩

theorem answers_bind {x : Handling σ α} {f : α → Handling σ Unit}
    (hx : Keeps Session.responses x) (hf : ∀ a, AnswersOrThrows (f a)) :
    AnswersOrThrows (x >>= f) := by
  intro s
  have hkeep := hx s
  cases h : x s with
  | mk result t =>
    rw [h] at hkeep
    cases result with
    | ok a =>
      rw [bind_ok h, ← hkeep]
      exact hf a t
    | error e =>
      rw [bind_error h]
      exact ⟨nofun, fun _ _ ↦ hkeep⟩

theorem answers_sendSuccess (body : Json) :
    AnswersOrThrows (Handling.sendSuccess body : Handling σ Unit) :=
  answers_bind (keeps_std _) answers_errorHandler

theorem answers_ite {c : Prop} [Decidable c] {x y : Handling σ Unit}
    (hx : AnswersOrThrows x) (hy : AnswersOrThrows y) :
    AnswersOrThrows (if c then x else y) := by
  split
  · exact hx
  · exact hy

/-- What a `try` block throws is answered by its `catch`. -/
private theorem answeredOnce_orBadRequest {body : Handling σ Unit} (h : AnswersOrThrows body)
    (message : String) (s : Session σ) : AnsweredOnce (Handling.orBadRequest message body) s := by
  unfold Handling.orBadRequest AnsweredOnce
  obtain ⟨hreturns, hthrows⟩ := h s
  cases hbody : body s with
  | mk result t =>
    rw [hbody] at hreturns hthrows
    cases result with
    | ok a =>
      rw [tryCatch_ok hbody]
      exact ⟨rfl, hreturns rfl⟩
    | error e =>
      rw [tryCatch_error hbody]
      refine ⟨rfl, badRequest message, ?_⟩
      rw [← hthrows e rfl]
      rfl

section Catching

variable (world : World σ) (request : Request) (s : Session σ)

private theorem answeredOnce_stopPricesTask : AnsweredOnce (stopPricesTask world request) s := by
  apply answeredOnce_orBadRequest
  refine answers_bind (keeps_std _) fun jsonRoot ↦ ?_
  split
  · refine answers_bind (keeps_std _) fun userId ↦ ?_
    refine answers_bind (keeps_std _) fun taskList ↦ ?_
    refine answers_bind (keeps_forM fun temp ↦ ?_) fun _ ↦ answers_sendSuccess _
    exact (keeps_std _).bind fun taskId ↦ keeps_dbus _
  · exact answers_throw _

private theorem answeredOnce_monitorUserAccount :
    AnsweredOnce (monitorUserAccount world request) s := by
  apply answeredOnce_orBadRequest
  refine answers_bind (keeps_std _) fun jsonRoot ↦ ?_
  split
  · refine answers_bind (keeps_std _) fun taskId ↦ ?_
    refine answers_bind (keeps_std _) fun userId ↦ ?_
    refine answers_bind (keeps_std _) fun exchange ↦ ?_
    refine answers_bind (keeps_std _) fun tradeType ↦ ?_
    refine answers_ite (answers_errorHandler _) (answers_ite (answers_errorHandler _) ?_)
    refine answers_bind (keeps_std _) fun passphrase ↦ ?_
    refine answers_bind (keeps_std _) fun secretKey ↦ ?_
    refine answers_bind (keeps_std _) fun apiKey ↦ ?_
    refine answers_ite (answers_errorHandler _) ?_
    refine answers_bind (keeps_outside _) fun result ↦ ?_
    cases result with
    | none => exact answers_errorHandler _
    | some result => exact answers_sendSuccess _
  · exact answers_throw _

private theorem answeredOnce_addNewPricingTasks :
    AnsweredOnce (addNewPricingTasks world request) s := by
  apply answeredOnce_orBadRequest
  refine answers_bind (keeps_std _) fun jsonRoot ↦ ?_
  split
  · refine answers_bind (keeps_std _) fun requestId ↦ ?_
    refine answers_bind (keeps_std _) fun userId ↦ ?_
    refine answers_bind (keeps_std _) fun jobList ↦ ?_
    split
    · exact answers_throw _
    · exact answers_errorHandler _
    · exact answers_bind (keeps_dbus _) fun scheduled ↦ answers_sendSuccess _
  · exact answers_errorHandler _

end Catching

/-! ### Handlers that do not -/

private theorem answeredOnce_errorHandler (response : Response) (s : Session σ) :
    AnsweredOnce (Handling.errorHandler response) s := ⟨rfl, response, rfl⟩

private theorem answeredOnce_sendSuccess (body : Json) (s : Session σ) :
    AnsweredOnce (Handling.sendSuccess body) s ↔ body.dumps = true := by
  unfold AnsweredOnce Handling.sendSuccess
  by_cases h : body.dumps = true
  · have hstd : (Handling.std (jsonSuccess body) : Handling σ Response) s =
        (.ok (.json 200 body), s) := by
      rw [jsonSuccess, if_pos h]
      rfl
    rw [bind_ok hstd]
    exact iff_of_true ⟨rfl, _, rfl⟩ h
  · have hstd : (Handling.std (jsonSuccess body) : Handling σ Response) s =
        (.error (.std .typeError), s) := by
      rw [jsonSuccess, if_neg h]
      rfl
    rw [bind_error hstd]
    exact iff_of_false (fun h ↦ nomatch h.1) h

private theorem answeredOnce_dbus_bind {call : Dbus (HttpProcess σ) α}
    {f : α → Handling σ Unit} {s : Session σ} :
    AnsweredOnce (Handling.dbus call >>= f) s ↔
      ∃ a, (call s.process).1 = .ok a ∧
        AnsweredOnce (f a) { s with process := (call s.process).2 } := by
  unfold AnsweredOnce
  cases hcall : (call s.process).1 with
  | ok a =>
    have hdbus : Handling.dbus call s = (.ok a, { s with process := (call s.process).2 }) := by
      change ((call s.process).1.mapError _, _) = _
      rw [hcall]
      rfl
    rw [bind_ok hdbus]
    simp
  | error e =>
    have hdbus : Handling.dbus call s =
        (.error (.sdbus e), { s with process := (call s.process).2 }) := by
      change ((call s.process).1.mapError _, _) = _
      rw [hcall]
      rfl
    rw [bind_error hdbus]
    simp

private theorem answeredOnce_listing {call : Dbus (HttpProcess σ) (List ScheduledPriceTask)}
    {s : Session σ} :
    AnsweredOnce (Handling.dbus call >>= fun tasks ↦
        Handling.sendSuccess (.array (tasks.map ScheduledPriceTask.toJson))) s ↔
      ReturnsUtf8 call s.process := by
  rw [answeredOnce_dbus_bind]
  simp only [answeredOnce_sendSuccess, Json.dumps, Json.dumpsItems_eq_all, List.all_map,
    List.all_eq_true, Function.comp_apply, ScheduledPriceTask.dumps_toJson, Bool.and_eq_true,
    ReturnsUtf8]

private theorem answeredOnce_ok {call : Dbus (HttpProcess σ) Unit} {s : Session σ} :
    AnsweredOnce (Handling.dbus call >>= fun _ ↦ Handling.sendSuccess (.text "OK")) s ↔
      Returns call s.process := by
  rw [answeredOnce_dbus_bind]
  have hdumps : (Json.text "OK").dumps = true := by decide
  simp only [answeredOnce_sendSuccess, hdumps, and_true, Returns]

/-! ### All handlers -/

/-- What a handler needs to answer: of the D-Bus calls it makes outside a `try` block that they
return, and of the strings it writes outside one that they are UTF-8. -/
def CanAnswer (world : World σ) (p : HttpProcess σ) (request : Request) (query : UrlQuery) :
    Handler → Prop
  | .monitorUserAccount | .addNewPricingTasks | .stopPricesTask => True
  | .getAllRunningPriceTasks => ReturnsUtf8 (getPriceTasksForAll world.proxies) p
  | .getPricesTaskStatus =>
    ∀ userId, query[bytes "user_id"]? = some userId → userId ≠ [] →
      ReturnsUtf8 (getPriceTasksForUser world.proxies userId) p
  | .newTelegramRegistrationCodeCallback =>
    ∀ number, query[bytes "number"]? = some number → ∀ code, query[bytes "code"]? = some code →
      Returns (sendTelegramRegistrationCode world.proxies number code) p
  | .newTelegramRegistrationPasswordCallback =>
    ∀ number, query[bytes "number"]? = some number →
      ∀ password, query[bytes "password"]? = some password →
      Returns (sendTelegramRegistrationPassword world.proxies number password) p
  | .sendTelegramText =>
    ∀ chatId, query[bytes "chat_id"]? = some chatId →
      ∀ text, telegramText world chatId request = .ok (some text) →
      text.1 ≠ [] → text.2 ≠ 0 → Returns (sendNewTelegramText world.proxies text.2 text.1) p
  | .latestPriceHandler =>
    ∀ symbol, query[bytes "symbol"]? = some symbol →
      ∀ exchange, query[bytes "exchange"]? = some exchange →
      ∀ trade, query[bytes "trade"]? = some trade →
      stringToExchange (toLowerCopy exchange) ≠ .total →
      stringToTradeType (toLowerCopy trade) ≠ .total → symbol ≠ [] →
      ∀ result ∈ (world.uniqueInstruments (stringToExchange (toLowerCopy exchange))).findItem
        { name := toUpperCopy symbol, tradeType := stringToTradeType (toLowerCopy trade) },
        Json.isUtf8 result.name = true
  | .getTradingPairsHandler =>
    ∀ exchange, query[bytes "exchange"]? = some exchange →
      stringToExchange (toLowerCopy exchange) ≠ .total →
      ∀ instr ∈ (world.uniqueInstruments (stringToExchange (toLowerCopy exchange))).toList,
        Json.isUtf8 instr.name = true

section Handlers

variable (world : World σ) (request : Request) (query : UrlQuery) (s : Session σ)

private theorem answeredOnce_getPricesTaskStatus :
    AnsweredOnce (getPricesTaskStatus world query) s ↔
      CanAnswer world s.process request query .getPricesTaskStatus := by
  unfold getPricesTaskStatus CanAnswer
  split
  · next h => exact iff_of_true (answeredOnce_errorHandler _ s) (by simp [h])
  · next h => exact iff_of_true (answeredOnce_errorHandler _ s) (by simp [h])
  · next userId hne h =>
    rw [answeredOnce_listing, h]
    constructor
    · rintro hcall _ he -
      exact Option.some.inj he ▸ hcall
    · intro hcall
      exact hcall userId rfl hne

private theorem answeredOnce_latestPriceHandler :
    AnsweredOnce (latestPriceHandler world query) s ↔
      CanAnswer world s.process request query .latestPriceHandler := by
  unfold latestPriceHandler CanAnswer
  split
  · next symbol exchange trade hsymbol hexchange htrade =>
    simp only [hsymbol, hexchange, htrade, Option.some.injEq, forall_eq']
    split
    · next hmalformed =>
      refine iff_of_true (answeredOnce_errorHandler _ s) ?_
      intro hex htr hsym
      simp [trimCopy, toUpperCopy, hex, htr, hsym] at hmalformed
    · next hformed =>
      simp only [trimCopy, toUpperCopy, List.isEmpty_map, List.isEmpty_iff, not_or] at hformed
      obtain ⟨hsym, hex, htr⟩ := hformed
      simp only [trimCopy]
      split
      · next result hfound =>
        rw [answeredOnce_sendSuccess, InstrumentType.dumps_toJson]
        simp [hfound, hsym, hex, htr]
      · next hnone =>
        refine iff_of_true ((answeredOnce_sendSuccess _ s).mpr (by decide)) ?_
        simp [hnone]
  · next hmissing =>
    refine iff_of_true (answeredOnce_errorHandler _ s) ?_
    intro symbol hsymbol exchange hexchange trade htrade
    exact absurd htrade (hmissing symbol exchange trade hsymbol hexchange)

private theorem answeredOnce_getTradingPairsHandler :
    AnsweredOnce (getTradingPairsHandler world query) s ↔
      CanAnswer world s.process request query .getTradingPairsHandler := by
  unfold getTradingPairsHandler CanAnswer
  split
  · next h => exact iff_of_true (answeredOnce_errorHandler _ s) (by simp [h])
  · next exchange h =>
    simp only [h, Option.some.injEq, forall_eq']
    split
    · next htotal =>
      exact iff_of_true (answeredOnce_errorHandler _ s) fun hne ↦ absurd htotal hne
    · next hne =>
      rw [answeredOnce_sendSuccess, Json.dumps, Json.dumpsItems_eq_all]
      simp [hne, InstrumentType.dumps_toJson]

private theorem answeredOnce_registrationCode :
    AnsweredOnce (newTelegramRegistrationCodeCallback world query) s ↔
      CanAnswer world s.process request query .newTelegramRegistrationCodeCallback := by
  unfold newTelegramRegistrationCodeCallback CanAnswer
  split
  · next number code hnumber hcode =>
    simp only [hnumber, hcode, Option.some.injEq, forall_eq']
    exact answeredOnce_ok
  · next hmissing =>
    refine iff_of_true (answeredOnce_errorHandler _ s) ?_
    intro number hnumber code hcode
    exact absurd hcode (hmissing number code hnumber)

private theorem answeredOnce_registrationPassword :
    AnsweredOnce (newTelegramRegistrationPasswordCallback world query) s ↔
      CanAnswer world s.process request query .newTelegramRegistrationPasswordCallback := by
  unfold newTelegramRegistrationPasswordCallback CanAnswer
  split
  · next number password hnumber hpassword =>
    simp only [hnumber, hpassword, Option.some.injEq, forall_eq']
    exact answeredOnce_ok
  · next hmissing =>
    refine iff_of_true (answeredOnce_errorHandler _ s) ?_
    intro number hnumber password hpassword
    exact absurd hpassword (hmissing number password hnumber)

private theorem answeredOnce_sendTelegramText :
    AnsweredOnce (sendTelegramText world query request) s ↔
      CanAnswer world s.process request query .sendTelegramText := by
  unfold sendTelegramText CanAnswer
  split
  · next h => exact iff_of_true (answeredOnce_errorHandler _ s) (by simp [h])
  · next chatId h =>
    simp only [h, Option.some.injEq, forall_eq']
    split
    · next htext => exact iff_of_true (answeredOnce_errorHandler _ s) (by simp [htext])
    · next htext => exact iff_of_true (answeredOnce_errorHandler _ s) (by simp [htext])
    · next content id htext =>
      simp only [htext, Except.ok.injEq, Option.some.injEq, forall_eq', List.isEmpty_iff]
      split
      · next hempty =>
        refine iff_of_true (answeredOnce_errorHandler _ s) fun hcontent hid ↦ ?_
        exact absurd hempty (not_or.mpr ⟨hcontent, hid⟩)
      · next hne =>
        rw [not_or] at hne
        simp only [ne_eq, hne.1, hne.2, not_false_eq_true, forall_true_left]
        exact answeredOnce_ok

/-- A handler answers exactly if what it needs is there. -/
theorem answeredOnce_runHandler (handler : Handler) :
    AnsweredOnce (runHandler world request query handler) s ↔
      CanAnswer world s.process request query handler := by
  cases handler with
  | monitorUserAccount =>
    exact iff_of_true (answeredOnce_monitorUserAccount world request s) True.intro
  | addNewPricingTasks =>
    exact iff_of_true (answeredOnce_addNewPricingTasks world request s) True.intro
  | stopPricesTask => exact iff_of_true (answeredOnce_stopPricesTask world request s) True.intro
  | getAllRunningPriceTasks => exact answeredOnce_listing
  | sendTelegramText => exact answeredOnce_sendTelegramText world request query s
  | newTelegramRegistrationCodeCallback =>
    exact answeredOnce_registrationCode world request query s
  | newTelegramRegistrationPasswordCallback =>
    exact answeredOnce_registrationPassword world request query s
  | getPricesTaskStatus => exact answeredOnce_getPricesTaskStatus world request query s
  | latestPriceHandler => exact answeredOnce_latestPriceHandler world request query s
  | getTradingPairsHandler => exact answeredOnce_getTradingPairsHandler world request query s

end Handlers

/-- A JSON route needs nothing for a request of another content type. -/
def Callback.CanAnswer (world : World σ) (p : HttpProcess σ) (request : Request)
    (query : UrlQuery) : Callback → Prop
  | .jsonRoute handler =>
    request.isJson = true → HttpStream.CanAnswer world p request query handler
  | .route handler => HttpStream.CanAnswer world p request query handler

private theorem answeredOnce_runCallback (world : World σ) (request : Request) (query : UrlQuery)
    (s : Session σ) (callback : Callback) :
    AnsweredOnce (runCallback world request query callback) s ↔
      callback.CanAnswer world s.process request query := by
  cases callback with
  | route handler => exact answeredOnce_runHandler world request query s handler
  | jsonRoute handler =>
    change AnsweredOnce (if (!request.isJson) = true then Handling.errorHandler _
      else runHandler world request query handler) s ↔ (request.isJson = true → _)
    cases request.isJson with
    | false => exact iff_of_true (answeredOnce_errorHandler _ s) nofun
    | true =>
      rw [if_neg (by simp), answeredOnce_runHandler]
      exact ⟨fun h _ ↦ h, fun h ↦ h rfl⟩

/-- A rule that has been found answers a request whose method it does not take; to one whose method
it takes it answers if there is no query and the handler has what it needs. -/
private theorem answeredOnce_selection (world : World σ) (request : Request) (p : HttpProcess σ)
    (selection : Selection) :
    (∃ handling, runOutcome world request
        (if request.method = .options then .allowedOptions selection.rule.verbs
          else if request.method ∉ selection.rule.verbs then .methodNotAllowed
          else if queryStringOf world.past request.target ≠ [] then .readsDestroyed
          else .routeCallback selection.rule.routeCallback
            (fillQuery selection.placeholders ∅)) = .ok handling ∧
        AnsweredOnce handling { process := p }) ↔
      (request.method ∈ selection.rule.verbs → request.method ≠ .options →
        queryStringOf world.past request.target = [] ∧
          selection.rule.routeCallback.CanAnswer world p request
            (fillQuery selection.placeholders ∅)) := by
  split
  · next hoptions =>
    exact iff_of_true ⟨_, rfl, answeredOnce_errorHandler _ _⟩ fun _ h ↦ absurd hoptions h
  · next hoptions =>
    split
    · next hmethod =>
      exact iff_of_true ⟨_, rfl, answeredOnce_errorHandler _ _⟩ fun h ↦ absurd h hmethod
    · next hmethod =>
      rw [not_not] at hmethod
      split
      · next hquery =>
        refine iff_of_false (fun ⟨_, h, _⟩ ↦ by cases h) ?_
        intro h
        exact hquery (h hmethod hoptions).1
      · next hquery =>
        rw [not_not] at hquery
        have hcallback := answeredOnce_runCallback world request
          (fillQuery selection.placeholders ∅) { process := p } selection.rule.routeCallback
        constructor
        · rintro ⟨handling, hrun, hanswered⟩ - -
          obtain rfl := Except.ok.inj hrun
          exact ⟨hquery, hcallback.mp hanswered⟩
        · intro h
          exact ⟨_, rfl, hcallback.mpr (h hmethod hoptions).2⟩

/-- The registration of the routes succeeds. With them, a request that has been read is answered
exactly once, without an escaping exception and without a read of the destroyed query string, if
and only if its decoded target is not a run of slashes before a question mark and, where a rule is
found that takes its method, no query stands behind the path and the handler has what it needs. -/
theorem onDataRead_answeredOnce_iff {σ : Type} (world : World σ) (request : Request)
    (p : HttpProcess σ) :
    ∃ endpoints, addEndpointInterfaces = .ok endpoints ∧
      ((∃ handling, onDataRead world endpoints (.request request) = .ok handling ∧
          AnsweredOnce handling { process := p }) ↔
        (∀ n query, decodeUrl world.past request.target ≠
          List.replicate n slash ++ questionMark :: query) ∧
        ∀ selection, lookUp endpoints (pathOf world.past request.target) = .ok (some selection) →
          request.method ∈ selection.rule.verbs → request.method ≠ .options →
          queryStringOf world.past request.target = [] ∧
            selection.rule.routeCallback.CanAnswer world p request
              (fillQuery selection.placeholders ∅)) := by
  obtain ⟨endpoints, hadd, hroutes⟩ := addEndpointInterfaces_isOk
  refine ⟨endpoints, hadd, ?_⟩
  rw [← handleRequests_isOk_iff_ne hroutes world.past request.target request.method, onDataRead]
  by_cases hslashes : ∀ b ∈ decodeUrl world.past request.target, b = slash
  · rw [handleRequests_slashes world.past endpoints _ _ hslashes]
    refine iff_of_true ⟨_, rfl, answeredOnce_errorHandler _ _⟩ ⟨⟨_, rfl⟩, ?_⟩
    intro selection hselection
    rw [lookUp_pathOf_of_slashes hroutes hslashes] at hselection
    cases hselection
  have hsome : ∃ b ∈ decodeUrl world.past request.target, b ≠ slash := by simpa using hslashes
  cases hfound : lookUp endpoints (pathOf world.past request.target) with
  | error fault =>
    rw [handleRequests_eq world.past endpoints _ _ hsome, hfound]
    exact iff_of_false (fun ⟨_, h, _⟩ ↦ by cases h) (fun ⟨⟨_, h⟩, _⟩ ↦ by cases h)
  | ok found =>
    cases found with
    | none =>
      rw [handleRequests_eq world.past endpoints _ _ hsome, hfound]
      refine iff_of_true ⟨_, rfl, answeredOnce_errorHandler _ _⟩ ⟨⟨_, rfl⟩, ?_⟩
      intro selection hselection
      cases hselection
    | some selection =>
      rw [handleRequests_of_lookUp hsome hfound]
      simp only [Except.ok.injEq, Option.some.injEq, forall_eq', exists_eq', true_and]
      exact answeredOnce_selection world request p selection

/-- A world whose services are all down. -/
def servicesDown : World Unit :=
  let down {α : Type} : Dbus Unit α := throw { message := [] }
  { parse := fun _ ↦ .error .parseError
    past := fun _ ↦ 0x20
    uniqueInstruments := fun _ ↦ .empty
    proxies :=
      { scheduleNewTimeTask := fun _ ↦ down
        removeScheduledTimeTask := fun _ _ ↦ down
        getScheduledTimeTasksForUser := fun _ ↦ down
        getAllScheduledTimeTasks := down
        scheduleNewProgressTask := fun _ ↦ down
        removeScheduledProgressTask := fun _ _ ↦ down
        getScheduledProgressTasksForUser := fun _ ↦ down
        getAllScheduledProgressTasks := down
        onAuthorizationCodeRequested := fun _ _ ↦ down
        onAuthorizationPasswordRequested := fun _ _ ↦ down
        sendNewTelegramText := fun _ _ ↦ down }
    queueAccountStreamTasks := fun _ ↦ pure none }

/-- With the time service down, `GET /all_price_tasks` gets no response, and the error of the
D-Bus call leaves the handler. -/
theorem onDataRead_serviceDown :
    addEndpointInterfaces.bind (fun endpoints ↦
      (onDataRead servicesDown endpoints
          (.request { target := bytes "/all_price_tasks", method := .get })).map (fun handling ↦
        ((handling { process := { services := () } }).1,
          (handling { process := { services := () } }).2.responses.length))) =
      .ok (.error (.sdbus { message := [] }), 0) := by
  decide +kernel

end KeepMyJournal.HttpStream
