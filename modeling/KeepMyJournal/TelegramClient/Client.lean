import KeepMyJournal.Base.Bytes
import Std.Data.ExtTreeMap

/-!
# The Telegram client

`telegram_class_t`, `telegram_client/main.cpp`, from a request that is sent to the response that
is processed. `td::Client` hands out updates, under the id 0, and one answer for each query it
has been sent. What is only logged, and the tables of users and chats, which nothing reads, are
left out.

The D-Bus methods run on the main thread and the login loop on another, and no lock stands between
them (`main.cpp:442–448`). Each call, update, answer and restart is one step here, as if it were
over before the next one begins; what two of them do that overlap is left out.
-/

namespace KeepMyJournal.TelegramClient

open KeepMyJournal.Base

/-! ### Requests and responses -/

/-- `td_api::AuthorizationState`; `other` stands for the states that are only logged. -/
inductive AuthorizationState where
  | ready | loggingOut | closing | closed | waitCode | waitOtherDeviceConfirmation
  | waitRegistration | waitEncryptionKey | waitPassword | waitPhoneNumber | waitTdlibParameters
  | other
  deriving DecidableEq, Repr

/-- `td_api::Object`, as far as a response is told apart: an error is printed by its text. -/
inductive Object where
  | updateAuthorizationState (state : AuthorizationState)
  | error (text : Bytes)
  | other
  deriving DecidableEq, Repr

/-- `td_api::Function`, with what the senders put into it. -/
inductive Function where
  | setDatabaseEncryptionKey (newEncryptionKey : Bytes)
  | getContacts
  | sendMessage (chatId : Int64) (content : Bytes)
  | checkAuthenticationCode (code : Bytes)
  | checkAuthenticationPassword (password : Bytes)
  | setAuthenticationPhoneNumber (phoneNumber : Bytes)
  | setTdlibParameters (databaseDirectory : Bytes)
  deriving DecidableEq

/-- `custom_request_handler_t`: the closure with the id it has captured. The closures are
numbered, so that two of them can be told apart. -/
structure Handler where
  serial : Nat
  id : UInt64
  deriving DecidableEq, Repr

/-- A query as the client has been sent it, and the handler it was sent with. -/
structure Query where
  id : UInt64
  request : Function
  handler : Option Handler
  deriving DecidableEq

/-- `td::Client::Response`; a `receive` that times out returns no object. -/
structure Response where
  id : UInt64
  object : Option Object
  deriving DecidableEq, Repr

/-- `custom_request_handler_map_t`. -/
abbrev RequestHandlers := Std.ExtTreeMap UInt64 Handler

/-- `telegram_class_t`; `client` are the queries that `m_client` has not answered. -/
structure TelegramClass where
  phoneNumber : Bytes
  authorizationGranted : Bool := false
  errorIsSet : Bool := false
  needsRestart : Bool := false
  authenticationQueryID : UInt64 := 0
  client : List Query := []
  requestHandlers : RequestHandlers := ∅
  authorizationState : Option AuthorizationState := none

/-- The object, the static counter of `next_id`, the number of closures created so far, the
handlers that have run, and what has been printed. -/
structure Process where
  tg : TelegramClass
  id : UInt64 := 0
  handlers : Nat := 0
  ran : List Handler := []
  cerr : List Bytes := []

/-! ### Sending -/

/-- `next_id`. -/
def nextId (p : Process) : UInt64 × Process := (p.id + 1, { p with id := p.id + 1 })

/-- `restart`; the answers to the old client's queries are lost with it. -/
def restart (p : Process) : Process :=
  { p with
    tg :=
      { p.tg with
        authorizationGranted := false
        errorIsSet := false
        needsRestart := false
        requestHandlers := ∅
        client := [] } }

/-- `create_authentication_handler`. -/
def createAuthenticationHandler (p : Process) : Handler × Process :=
  ({ serial := p.handlers, id := p.tg.authenticationQueryID },
    { p with handlers := p.handlers + 1 })

/-- `send_request`; `emplace` keeps the handler of a key that is there. -/
def sendRequest (queryId : UInt64) (request : Function) (handler : Option Handler) (p : Process) :
    Process :=
  let requestHandlers :=
    match handler with
    | some handler => p.tg.requestHandlers.insertIfNew queryId handler
    | none => p.tg.requestHandlers
  { p with
    tg :=
      { p.tg with
        requestHandlers := requestHandlers
        client := p.tg.client ++ [{ id := queryId, request := request, handler := handler }] } }

/-- `send_request(next_id(), …, create_authentication_handler())`, which every sender calls. -/
def sendNext (request : Function) (p : Process) : Process :=
  let (id, p) := nextId p
  let (handler, p) := createAuthenticationHandler p
  sendRequest id request (some handler) p

/-- `get_contacts`. -/
def getContacts (p : Process) : Process := sendNext .getContacts p

/-- `send_text_message`. -/
def sendTextMessage (chatId : Int64) (content : Bytes) (p : Process) : Process :=
  if p.tg.authorizationGranted then sendNext (.sendMessage chatId content) p else p

/-- `on_new_authorization_code`. -/
def onNewAuthorizationCode (mobileNumber code : Bytes) (p : Process) : Process :=
  if mobileNumber ≠ p.tg.phoneNumber then p else sendNext (.checkAuthenticationCode code) p

/-- `on_new_authorization_password`. -/
def onNewAuthorizationPassword (mobileNumber password : Bytes) (p : Process) : Process :=
  if mobileNumber ≠ p.tg.phoneNumber then p else sendNext (.checkAuthenticationPassword password) p

/-- `requested_phone_number`. -/
def requestedPhoneNumber (p : Process) : Process :=
  sendNext (.setAuthenticationPhoneNumber p.tg.phoneNumber) p

/-- `requested_app_parameters`; the other parameters are constants. -/
def requestedAppParameters (p : Process) : Process :=
  sendNext (.setTdlibParameters p.tg.phoneNumber) p

/-! ### Receiving -/

/-- `on_authorization_state_update`, in the state that has been stored; the states that only ask
the user for something, and those that are only logged, change nothing but the id. -/
def onAuthorizationStateUpdate (state : AuthorizationState) (p : Process) : Process :=
  let p :=
    { p with tg := { p.tg with authenticationQueryID := p.tg.authenticationQueryID + 1 } }
  match state with
  | .ready => { p with tg := { p.tg with authorizationGranted := true } }
  | .loggingOut | .closing => { p with tg := { p.tg with authorizationGranted := false } }
  | .closed => { p with tg := { p.tg with authorizationGranted := false, needsRestart := true } }
  | .waitEncryptionKey =>
    sendNext (.setDatabaseEncryptionKey (bytes "fodendsfoisdifpsdipkdbfhwerow4r49weQUIDIQWDB!")) p
  | .waitPhoneNumber => requestedPhoneNumber p
  | .waitTdlibParameters => requestedAppParameters p
  | .waitCode | .waitPassword | .waitOtherDeviceConfirmation | .waitRegistration | .other => p

/-- `process_update`. -/
def processUpdate (object : Object) (p : Process) : Process :=
  match object with
  | .updateAuthorizationState state =>
    onAuthorizationStateUpdate state { p with tg := { p.tg with authorizationState := some state } }
  | .error _ | .other => p

/-- `check_authentication_error`. -/
def checkAuthenticationError (object : Object) (p : Process) : Process :=
  match object with
  | .error text => { p with cerr := p.cerr ++ [text] }
  | .updateAuthorizationState _ | .other => p

/-- What a handler does, which is recorded to have run. -/
def Handler.run (handler : Handler) (object : Object) (p : Process) : Process :=
  let p := { p with ran := p.ran ++ [handler] }
  if handler.id = p.tg.authenticationQueryID then checkAuthenticationError object p else p

/-- `process_response`. -/
def processResponse (response : Response) (p : Process) : Process :=
  match response.object with
  | none => p
  | some object =>
    if response.id = 0 then processUpdate object p
    else
      match p.tg.requestHandlers[response.id]? with
      | some handler => handler.run object p
      | none => p

/-! ### The system -/

/-- What happens to the object, in any order: the client hands out an update, or nothing in time,
or the answer to a query; the login loop restarts the client or asks for the contacts; and the
D-Bus methods are called. -/
inductive Event where
  | receive (object : Option Object)
  | answer (query : Query) (object : Object)
  | restart
  | getContacts
  | sendTextMessage (chatId : Int64) (content : Bytes)
  | onNewAuthorizationCode (mobileNumber code : Bytes)
  | onNewAuthorizationPassword (mobileNumber password : Bytes)
  deriving DecidableEq

/-- One step; a query is answered only as long as it has not been. -/
def step (p : Process) : Event → Option Process
  | .receive object => some (processResponse { id := 0, object := object } p)
  | .answer query object =>
    if query ∈ p.tg.client then
      some (processResponse { id := query.id, object := some object }
        { p with tg := { p.tg with client := p.tg.client.erase query } })
    else none
  | .restart => some (TelegramClient.restart p)
  | .getContacts => some (TelegramClient.getContacts p)
  | .sendTextMessage chatId content => some (TelegramClient.sendTextMessage chatId content p)
  | .onNewAuthorizationCode mobileNumber code =>
    some (TelegramClient.onNewAuthorizationCode mobileNumber code p)
  | .onNewAuthorizationPassword mobileNumber password =>
    some (TelegramClient.onNewAuthorizationPassword mobileNumber password p)

end KeepMyJournal.TelegramClient
