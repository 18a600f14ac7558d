import KeepMyJournal.Common.AccountTasks
import KeepMyJournal.Common.JsonUtils
import KeepMyJournal.HttpStream.Routing
import KeepMyJournal.HttpStream.ScheduledPriceTasks

/-!
# The HTTP session

`session_t`, `http_stream/src/session.cpp:24–119, 129–158, 221–677`, from a request that has
been read to the response written for it. The texts of the errors are ASCII, so that `dump`
does not throw on them. `spdlog` calls and the header fields that do not depend on the handler
are left out.
-/

namespace KeepMyJournal.HttpStream

open KeepMyJournal.Base KeepMyJournal.Common

/-! ### Responses -/

/-- `error_type_e`. -/
inductive ErrorType where
  | noError | resourceNotFound | requiresUpdate | badRequest | serverError | methodNotAllowed
  | unauthorized
  deriving DecidableEq, Repr

/-- The integer an enumerator is written as. -/
def ErrorType.toInt64 : ErrorType → Int64
  | noError => 0 | resourceNotFound => 1 | requiresUpdate => 2 | badRequest => 3
  | serverError => 4 | methodNotAllowed => 5 | unauthorized => 6

/-- A response: a status with a JSON body, or the list of allowed methods. -/
inductive Response where
  | json (status : Nat) (body : Json)
  | allowed (verbs : List Verb)

/-- `get_error`. -/
def getError (message : String) (type : ErrorType) (status : Nat) : Response :=
  .json status
    (.object [(bytes "message", .text message), (bytes "status", .numberInteger type.toInt64)])

/-- `not_found`. -/
def notFound : Response := getError "url not found" .resourceNotFound 404

/-- `server_error`. -/
def serverError (message : String) (type : ErrorType) : Response := getError message type 500

/-- `bad_request`. -/
def badRequest (message : String) : Response := getError message .badRequest 400

/-- `method_not_allowed`. -/
def methodNotAllowed : Response := getError "method not allowed" .methodNotAllowed 405

/-- `json_success`; `dump` may throw. -/
def jsonSuccess (body : Json) : Except StdException Response :=
  if body.dumps then .ok (.json 200 body) else .error .typeError

/-! ### Handlers -/

/-- A request as the handlers read it. -/
structure Request where
  target : Bytes
  method : Verb
  contentType : Bytes := []
  body : Bytes := []
  deriving DecidableEq, Repr

/-- What a handler runs against: the JSON parser, the bytes behind a target in memory, the
cached instruments, the D-Bus proxies and the queue of the account monitors, which does not
throw. The last two act on a state `σ` of the world outside the session. -/
structure World (σ : Type) where
  parse : JsonParse
  past : Nat → UInt8
  uniqueInstruments : InstrumentExchangeSet
  proxies : DbusProxies σ
  queueAccountStreamTasks : AccountScheduledTask → StateM σ (Option AccountMonitorTaskResult)

/-- An exception that leaves a handler; both kinds derive from `std::exception`. -/
inductive Exception where
  | std (e : StdException)
  | sdbus (e : SdbusError)
  deriving DecidableEq, Repr

/-- The process, and the responses the session has begun to write. -/
structure Session (σ : Type) where
  process : HttpProcess σ
  responses : List Response := []

/-- A handler, which may throw; what it did before stays done. -/
abbrev Handling (σ α : Type) := Throwing Exception (Session σ) α

namespace Handling

variable {σ α : Type}

/-- A call of a function of `scheduled_price_tasks.cpp`. -/
def dbus (call : Dbus (HttpProcess σ) α) : Handling σ α := fun s ↦
  let (result, process) := call s.process
  (result.mapError .sdbus, { s with process := process })

/-- A step that acts on the world and cannot throw. -/
def outside (step : StateM σ α) : Handling σ α := fun s ↦
  let (a, services) := step s.process.services
  (.ok a, { s with process := { s.process with services := services } })

/-- A computation of the standard or the JSON library. -/
def std (x : Except StdException α) : Handling σ α := fun s ↦ (x.mapError .std, s)

/-- `send_response`, and `error_handler`, which writes a response as well. -/
def sendResponse (response : Response) : Handling σ Unit := fun s ↦
  (.ok (), { s with responses := s.responses ++ [response] })

/-- `error_handler`. -/
def errorHandler (response : Response) : Handling σ Unit := sendResponse response

/-- `send_response(json_success(body))`. -/
def sendSuccess (body : Json) : Handling σ Unit := do
  sendResponse (← std (jsonSuccess body))

/-- `try { … } catch (std::exception const &) { error_handler(bad_request(message)); }`. -/
def orBadRequest (message : String) (body : Handling σ Unit) : Handling σ Unit :=
  tryCatch body fun _ ↦ errorHandler (badRequest message)

variable {s t : Session σ} {a : α}

/-- What a library returns is handed on. -/
@[simp] theorem std_ok_bind {β : Type} (a : α) (f : α → Handling σ β) :
    std (.ok a) >>= f = f a := rfl

/-- What a library throws ends the computation. -/
@[simp] theorem std_error_bind {β : Type} (e : StdException) (f : α → Handling σ β) :
    std (.error e) >>= f = throw (.std e) := rfl

/-- A computation of a library leaves the session alone. -/
theorem of_std {x : Except StdException α} (h : std x s = (.ok a, t)) : x = .ok a ∧ s = t := by
  obtain ⟨hx, rfl⟩ := Prod.mk.inj h
  exact ⟨of_mapError_eq_ok hx, rfl⟩

/-- A call over D-Bus acts on the process only. -/
theorem of_dbus {call : Dbus (HttpProcess σ) α} (h : dbus call s = (.ok a, t)) :
    (call s.process).1 = .ok a ∧ t = { s with process := (call s.process).2 } := by
  obtain ⟨hcall, rfl⟩ := Prod.mk.inj h
  exact ⟨of_mapError_eq_ok hcall, rfl⟩

/-- A body that can be written is sent. -/
theorem sendSuccess_of_dumps {body : Json} (h : body.dumps = true) :
    sendSuccess body s = (.ok (), { s with responses := s.responses ++ [.json 200 body] }) := by
  unfold sendSuccess jsonSuccess
  rw [if_pos h]
  rfl

/-- A success that is sent is one response, with the status 200. -/
theorem of_sendSuccess {body : Json} (h : sendSuccess body s = (.ok (), t)) :
    t = { s with responses := s.responses ++ [.json 200 body] } := by
  obtain ⟨response, u, hresponse, hsend⟩ := Throwing.of_bind h
  obtain ⟨hjson, rfl⟩ := of_std hresponse
  obtain ⟨-, rfl⟩ := Prod.mk.inj hsend
  unfold jsonSuccess at hjson
  split at hjson
  · obtain rfl := Except.ok.inj hjson
    rfl
  · cases hjson

/-- A `try` block that returns has done what it did. -/
theorem orBadRequest_ok {message : String} {body : Handling σ Unit} (h : body s = (.ok (), t)) :
    orBadRequest message body s = (.ok (), t) := Throwing.tryCatch_ok h

/-- A `try` block that throws is answered with a bad request, behind what it did. -/
theorem orBadRequest_error {message : String} {body : Handling σ Unit} {e : Exception}
    (h : body s = (.error e, t)) :
    orBadRequest message body s =
      (.ok (), { t with responses := t.responses ++ [badRequest message] }) :=
  Throwing.tryCatch_error h

/-- A `try` block has returned if the last response is not the bad request that it ends in. -/
theorem of_orBadRequest {message : String} {body : Handling σ Unit} {responses : List Response}
    {response : Response}
    (h : (orBadRequest message body s).2.responses = responses ++ [response])
    (hne : response ≠ badRequest message) : body s = (.ok (), (orBadRequest message body s).2) := by
  cases hbody : body s with
  | mk result t =>
    cases result with
    | ok a => rw [orBadRequest_ok hbody]
    | error e =>
      rw [orBadRequest_error hbody] at h
      have hlast := congrArg List.getLast? h
      rw [List.getLast?_concat, List.getLast?_concat] at hlast
      exact absurd (Option.some.inj hlast).symm hne

end Handling

open Handling

variable {σ : Type} (world : World σ)

/-- `get_trading_pairs_handler`. -/
def getTradingPairsHandler (optionalQuery : UrlQuery) : Handling σ Unit :=
  match optionalQuery[bytes "exchange"]? with
  | none => errorHandler (badRequest "query `exchange` missing")
  | some exchange =>
    let exchange := stringToExchange (toLowerCopy exchange)
    if exchange = .total then errorHandler (badRequest "invalid exchange specified")
    else
      sendSuccess (.array ((world.uniqueInstruments exchange).toList.map InstrumentType.toJson))

/-- `get_prices_task_status`. -/
def getPricesTaskStatus (optionalQuery : UrlQuery) : Handling σ Unit :=
  match optionalQuery[bytes "user_id"]? with
  | none | some [] => errorHandler (badRequest "query `user_id` missing")
  | some userId => do
    let taskList ← dbus (getPriceTasksForUser world.proxies userId)
    sendSuccess (.array (taskList.map ScheduledPriceTask.toJson))

/-- `latest_price_handler`. -/
def latestPriceHandler (optionalQuery : UrlQuery) : Handling σ Unit :=
  match optionalQuery[bytes "symbol"]?, optionalQuery[bytes "exchange"]?,
    optionalQuery[bytes "trade"]? with
  | some symbol, some exchange, some trade =>
    let exchange := stringToExchange (toLowerCopy exchange)
    let instr : InstrumentType :=
      { name := trimCopy (toUpperCopy symbol), tradeType := stringToTradeType (toLowerCopy trade) }
    if instr.name.isEmpty ∨ exchange = .total ∨ instr.tradeType = .total then
      errorHandler (badRequest "malformed query")
    else
      match (world.uniqueInstruments exchange).findItem instr with
      | some result => sendSuccess result.toJson
      | none => sendSuccess (.text "not found")
  | _, _, _ => errorHandler (badRequest "query symbol/exchange/trade missing")

/-- `get_all_running_price_tasks`. -/
def getAllRunningPriceTasks : Handling σ Unit := do
  let taskList ← dbus (getPriceTasksForAll world.proxies)
  sendSuccess (.array (taskList.map ScheduledPriceTask.toJson))

/-- `json::parse(m_thisRequest.body()).get<json::object_t>()`. -/
def parseBody (request : Request) : Except StdException Json.Object :=
  world.parse request.body >>= Json.getObject

/-- `stop_prices_task`. -/
def stopPricesTask (request : Request) : Handling σ Unit :=
  orBadRequest "JSON object is invalid" do
    let jsonRoot ← std (parseBody world request)
    match jsonRoot.find (bytes "task_list"), jsonRoot.find (bytes "user_id") with
    | some taskList, some userId =>
      let userId ← std userId.getString
      let taskList ← std taskList.getArray
      taskList.forM fun temp ↦ do
        let taskId ← std temp.getString
        dbus (stopScheduledPriceTask world.proxies userId taskId)
      sendSuccess (.array taskList)
    | _, _ => throw (.std (.runtimeError (bytes "key data needed to schedule task is missing")))

/-- `monitor_user_account`. -/
def monitorUserAccount (request : Request) : Handling σ Unit :=
  orBadRequest "JSON object is invalid" do
    let jsonRoot ← std (parseBody world request)
    match jsonRoot.find (bytes "exchange"), jsonRoot.find (bytes "secret_key"),
      jsonRoot.find (bytes "pass_phrase"), jsonRoot.find (bytes "api_key"),
      jsonRoot.find (bytes "trade_type"), jsonRoot.find (bytes "task_id"),
      jsonRoot.find (bytes "user_id") with
    | some exchange, some secretKey, some passphrase, some apiKey, some tradeType, some taskId,
        some userId =>
      let taskId ← std taskId.getString
      let userId ← std userId.getString
      let exchange := stringToExchange (← std exchange.getString)
      let tradeType := stringToTradeType (← std tradeType.getString)
      if exchange = .total then errorHandler (badRequest "Invalid exchange specified")
      else if exchange = .kucoin ∧ tradeType = .total then
        errorHandler (badRequest "Invalid trade type specified for kucoin data")
      else
        let passphrase ← std passphrase.getString
        let secretKey ← std secretKey.getString
        let apiKey ← std apiKey.getString
        if taskId.isEmpty then
          errorHandler (badRequest "the task ID supplied is empty, cannot proceed")
        else
          let task : AccountScheduledTask :=
            { userID := userId, taskID := taskId, apiKey := apiKey, secretKey := secretKey,
              passphrase := passphrase, exchange := exchange, tradeType := tradeType,
              operation := .add }
          match ← outside (world.queueAccountStreamTasks task) with
          | none =>
            errorHandler (serverError "there was a problem scheduling this task" .serverError)
          | some result =>
            sendSuccess (.object
              [(bytes "state", .numberInteger result.state.toInt32.toInt64),
                (bytes "task_id", .string taskId)])
    | _, _, _, _, _, _, _ =>
      throw (.std (.runtimeError (bytes "key data needed to schedule task is missing")))

/-- `new_telegram_registration_code_callback`. -/
def newTelegramRegistrationCodeCallback (query : UrlQuery) : Handling σ Unit :=
  match query[bytes "number"]?, query[bytes "code"]? with
  | some mobileNumber, some code => do
    dbus (sendTelegramRegistrationCode world.proxies mobileNumber code)
    sendSuccess (.text "OK")
  | _, _ => errorHandler (badRequest "mobile number or code missing")

/-- `new_telegram_registration_password_callback`. -/
def newTelegramRegistrationPasswordCallback (query : UrlQuery) : Handling σ Unit :=
  match query[bytes "number"]?, query[bytes "password"]? with
  | some mobileNumber, some password => do
    dbus (sendTelegramRegistrationPassword world.proxies mobileNumber password)
    sendSuccess (.text "OK")
  | _, _ => errorHandler (badRequest "mobile number or password missing")

/-- The `try` block of `send_telegram_text`: the content and the chat id, or no content. -/
def telegramText (chatId : Bytes) (request : Request) :
    Except StdException (Option (Bytes × Int64)) := do
  let jsonRoot ← parseBody world request
  match jsonRoot.find (bytes "content") with
  | none => pure none
  | some content => pure (some (← content.getString, ← stoll chatId))

/-- `send_telegram_text`. -/
def sendTelegramText (query : UrlQuery) (request : Request) : Handling σ Unit :=
  match query[bytes "chat_id"]? with
  | none => errorHandler (badRequest "chat id is missing")
  | some chatId =>
    match telegramText world chatId request with
    | .error _ => errorHandler (badRequest "badly formed JSON content")
    | .ok none => errorHandler (badRequest "chat content is missing")
    | .ok (some (content, chatId)) =>
      if content.isEmpty ∨ chatId = 0 then
        errorHandler (badRequest "content or chat id missing")
      else do
        dbus (sendNewTelegramText world.proxies chatId content)
        sendSuccess (.text "OK")

/-! ### New pricing tasks -/

/-- `milliseconds_from_string`; a product that does not fit wraps. -/
def millisecondsFromString (duration : DurationUnit) (t : Int64) : UInt64 :=
  match duration with
  | .minutes => (t * 60000).toUInt64
  | .seconds => (t * 1000).toUInt64
  | .hours => (t * 3600000).toUInt64
  | .days => (t * 24 * 3600000).toUInt64
  | .weeks => (t * 24 * 7 * 3600000).toUInt64
  | .invalid => 0

/-- What ends the reading of the contracts early: an exception or a bad request. -/
inductive Rejection where
  | thrown (e : StdException)
  | badRequest (message : String)

/-- `at(key)` on a contract. -/
def contractMember {α : Type} (o : Json.Object) (key : String)
    (get : Json → Except StdException α) : Except Rejection α :=
  (o.at (bytes key) >>= get).mapError .thrown

/-- The interval of a contract that has one. -/
def readInterval (o : Json.Object) (intervals : Json) : Except Rejection TimedBasedProperty :=
  match o.find (bytes "duration") with
  | none => .error (.badRequest "duration not specified")
  | some duration => do
    let interval ←
      (if intervals.isNumber then intervals.getNumberInteger
        else (intervals.getString >>= stoi).map Int32.toInt64).mapError .thrown
    let duration := stringToDurationUnit (← duration.getString.mapError .thrown)
    let timeMS := millisecondsFromString duration interval
    if timeMS = 0 then .error (.badRequest "something is wrong with the duration")
    else pure { timeMS := timeMS, duration := duration }

/-- The percentage of a contract that has one. -/
def readPercentage (o : Json.Object) (percentage : Json) :
    Except Rejection PercentageBasedProperty :=
  match o.find (bytes "direction") with
  | none => .error (.badRequest "direction not specified")
  | some direction => do
    let percentage := |← percentage.getNumberFloat.mapError .thrown|
    let direction := stringToPriceDirection (toLowerCopy (← direction.getString.mapError .thrown))
    if direction = .invalid then
      .error (.badRequest "something is wrong with the specified direction")
    else
      let percentage := if direction = .down then percentage * -1 else percentage
      if percentage = 0 then .error (.badRequest "invalid percentage specified")
      else pure { percentage := percentage, direction := direction }

/-- The body of the loop over the contracts. -/
def readContract (userId requestId : Bytes) (contract : Json) :
    Except Rejection ScheduledPriceTask := do
  let o ← contract.getObject.mapError .thrown
  let symbols ← contractMember o "symbols" Json.getArray
  let tokens ← symbols.mapM fun symbol ↦ (symbol.getString.map toUpperCopy).mapError .thrown
  let tradeType := stringToTradeType (← contractMember o "trade" Json.getString)
  let exchange := stringToExchange (← contractMember o "exchange" Json.getString)
  let task : ScheduledPriceTask :=
    { userId := userId, taskId := requestId, tokens := tokens, tradeType := tradeType,
      exchange := exchange, status := .initiated }
  match o.find (bytes "intervals"), o.find (bytes "percentage") with
  | some intervals, _ => pure { task with timeProp := some (← readInterval o intervals) }
  | none, some percentage =>
    pure { task with percentProp := some (← readPercentage o percentage) }
  | none, none => pure task

/-- The answer of `add_new_pricing_tasks` once the tasks have been scheduled or not. -/
def pricingResult (scheduled : Bool) (tasks : List ScheduledPriceTask) (requestId : Bytes) :
    Json :=
  .object
    ((if scheduled then [] else [(bytes "failed", .array (tasks.map ScheduledPriceTask.toJson))]) ++
      (if requestId.isEmpty then [] else [(bytes "id", .string requestId)]) ++
      [(bytes "status", .numberInteger
        (if scheduled then ErrorType.noError else .badRequest).toInt64)])

/-- `add_new_pricing_tasks`. -/
def addNewPricingTasks (request : Request) : Handling σ Unit :=
  orBadRequest "JSON object is invalid" do
    let jsonRoot ← std (parseBody world request)
    match jsonRoot.find (bytes "task_id"), jsonRoot.find (bytes "user_id") with
    | some requestId, some userId =>
      let requestId ← std requestId.getString
      let userId ← std userId.getString
      let jobList ← std (jsonRoot.at (bytes "contracts") >>= Json.getArray)
      match jobList.mapM (readContract userId requestId) with
      | .error (.thrown e) => throw (.std e)
      | .error (.badRequest message) => errorHandler (badRequest message)
      | .ok tasks =>
        let scheduled ← dbus (scheduleNewPriceTasks world.proxies tasks)
        sendSuccess (pricingResult scheduled tasks requestId)
    | _, _ => errorHandler (badRequest "request/user ID missing")

/-! ### The session -/

/-- A handler, called on the session's request. -/
def runHandler (request : Request) (query : UrlQuery) : Handler → Handling σ Unit
  | .monitorUserAccount => monitorUserAccount world request
  | .addNewPricingTasks => addNewPricingTasks world request
  | .stopPricesTask => stopPricesTask world request
  | .getAllRunningPriceTasks => getAllRunningPriceTasks world
  | .sendTelegramText => sendTelegramText world query request
  | .newTelegramRegistrationCodeCallback => newTelegramRegistrationCodeCallback world query
  | .newTelegramRegistrationPasswordCallback =>
    newTelegramRegistrationPasswordCallback world query
  | .getPricesTaskStatus => getPricesTaskStatus world query
  | .latestPriceHandler => latestPriceHandler world query
  | .getTradingPairsHandler => getTradingPairsHandler world query

/-- `is_json_request`. -/
def Request.isJson (request : Request) : Bool :=
  toLowerCopy request.contentType == bytes "application/json"

/-- The lambdas `JSON_ROUTE_CALLBACK` and `ROUTE_CALLBACK` make. -/
def runCallback (request : Request) (query : UrlQuery) : Callback → Handling σ Unit
  | .jsonRoute handler =>
    if !request.isJson then errorHandler (badRequest "invalid content-type")
    else runHandler world request query handler
  | .route handler => runHandler world request query handler

/-- The end of `handle_requests`: a response, or the call of the route's callback. -/
def runOutcome (request : Request) : Outcome → Except Fault (Handling σ Unit)
  | .notFound => .ok (errorHandler HttpStream.notFound)
  | .methodNotAllowed => .ok (errorHandler HttpStream.methodNotAllowed)
  | .allowedOptions verbs => .ok (sendResponse (.allowed verbs))
  | .routeCallback callback query => .ok (runCallback world request query callback)
  | .readsDestroyed => .error .readOfDestroyed

/-- What `async_read` completes with. -/
inductive ReadResult where
  | request (request : Request)
  | endOfStream
  | failed (message : String)

/-- `on_data_read`; the failure is that of `handle_requests`. -/
def onDataRead (endpoints : Endpoint Callback) : ReadResult → Except Fault (Handling σ Unit)
  | .endOfStream => .ok (pure ())
  | .failed message => .ok (errorHandler (serverError message .serverError))
  | .request request => do
    runOutcome world request
      (← handleRequests world.past endpoints request.target request.method)

end KeepMyJournal.HttpStream
