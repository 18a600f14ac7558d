import KeepMyJournal.Common.Container
import KeepMyJournal.Common.CryptoUtils

/-!
# Requests of the two REST clients

The request each client class builds and signs, `common/src/https_rest_client.cpp:94–154` and
`common/src/http_rest_client.cpp:66–112`. The HTTP message is Beast's: a method that is never
set is `unknown` and is sent as the empty string, and `set` replaces a field whatever the case
of its name.
-/

namespace KeepMyJournal.Common

open KeepMyJournal.Base

/-- `http_method_e`. -/
inductive HttpMethod where
  | get | post | put
  deriving DecidableEq, Repr

/-- `method_string`. -/
def methodString : HttpMethod → Bytes
  | .get => bytes "GET"
  | .post => bytes "POST"
  | .put => bytes "PUT"

/-- `signed_message_t::header_value_t`. -/
structure HeaderValue where
  key : Bytes := []
  value : Bytes := []
  deriving DecidableEq, Repr

/-- `signed_message_t`. -/
structure SignedMessage where
  timestamp : HeaderValue := {}
  apiKey : HeaderValue := {}
  passPhrase : HeaderValue := {}
  secretKey : HeaderValue := {}
  apiVersion : HeaderValue := {}
  deriving DecidableEq, Repr

/-- The `boost::beast::http::verb` of a request, as far as the clients set it. -/
inductive Verb where
  | unknown | get | post
  deriving DecidableEq, Repr

/-- `method_string()` of a Beast request whose method is the verb. -/
def Verb.methodString : Verb → Bytes
  | unknown => []
  | get => bytes "GET"
  | post => bytes "POST"

/-- `http::request<http::string_body>`. -/
structure HttpRequest where
  version : Nat := 11
  method : Verb := .unknown
  target : Bytes := []
  fields : List (Bytes × Bytes) := []
  body : Bytes := []
  deriving DecidableEq, Repr

namespace HttpRequest

/-- `set`: every field of that name goes, and the new one is added. -/
def set (request : HttpRequest) (name value : Bytes) : HttpRequest :=
  { request with
    fields := request.fields.filter (fun f ↦ toLowerCopy f.1 != toLowerCopy name) ++
      [(name, value)] }

/-- `prepare_payload`: the length of the body is set where one is expected. -/
def preparePayload (request : HttpRequest) : HttpRequest :=
  if request.body ≠ [] ∨ request.method = .post then
    request.set (bytes "Content-Length") (bytes (toString request.body.length))
  else request

/-- The fields both clients start from. -/
def setCommonFields (request : HttpRequest) (hostApi : Bytes) : HttpRequest :=
  (((request.set (bytes "Host") hostApi).set (bytes "User-Agent")
    (bytes "MyCryptoLog/0.0.1")).set (bytes "Accept") (bytes "*/*")).set (bytes "Accept-Language")
      (bytes "en-US,en;q=0.5 --compressed")

/-- `set_header` of both `sign_request` functions. -/
def setHeader (request : HttpRequest) (s : HeaderValue) : HttpRequest :=
  if s.key.isEmpty && s.value.isEmpty then request else request.set s.key s.value

/-- Both `sign_request` functions, with the string they sign. -/
def sign (hmac256Encode : Bytes → Bytes → Bytes) (request : HttpRequest) (auth : SignedMessage)
    (stringToSign : Bytes) : HttpRequest :=
  let request := ((request.setHeader auth.apiKey).setHeader auth.timestamp).setHeader
    auth.apiVersion
  let signature := base64Encode (hmac256Encode stringToSign auth.secretKey.value)
  let passPhrase := base64Encode (hmac256Encode auth.passPhrase.value auth.secretKey.value)
  (request.set auth.passPhrase.key passPhrase).set auth.secretKey.key signature

end HttpRequest

/-- `https_rest_api_t`, as far as the request depends on it. -/
structure HttpsRestApi where
  hostApi : Bytes
  target : Bytes
  payload : Option Bytes := none
  optHeader : LockedMap Bytes Bytes := ∅
  method : HttpMethod := .get
  signedAuth : Option SignedMessage := none

namespace HttpsRestApi

/-- `install_auth`. -/
def installAuth (api : HttpsRestApi) (auth : SignedMessage) : HttpsRestApi :=
  { api with signedAuth := some auth }

/-- The string `sign_request` signs. -/
def stringToSign (api : HttpsRestApi) (auth : SignedMessage) : Bytes :=
  if api.method = .get then auth.timestamp.value ++ methodString api.method ++ api.target
  else
    match api.payload with
    | some payload => auth.timestamp.value ++ methodString api.method ++ api.target ++ payload
    | none => []

/-- `sign_request`. -/
def signRequest (hmac256Encode : Bytes → Bytes → Bytes) (api : HttpsRestApi)
    (auth : SignedMessage) (request : HttpRequest) : HttpRequest :=
  request.sign hmac256Encode auth (api.stringToSign auth)

/-- `rest_api_prepare_request` up to the signature. -/
def unsignedRequest (api : HttpsRestApi) : HttpRequest :=
  let request : HttpRequest := HttpRequest.setCommonFields { target := api.target } api.hostApi
  let request := api.optHeader.toList.foldl (fun request e ↦ request.set e.1 e.2) request
  match api.method with
  | .get => { request with method := .get }
  | .post =>
    match api.payload with
    | some payload => { request with method := .post, body := payload }
    | none => { request with method := .post }
  | .put => request

/-- `rest_api_prepare_request`. -/
def prepareRequest (hmac256Encode : Bytes → Bytes → Bytes) (api : HttpsRestApi) : HttpRequest :=
  let request := api.unsignedRequest
  let request :=
    match api.signedAuth with
    | some auth => api.signRequest hmac256Encode auth request
    | none => request
  request.preparePayload

end HttpsRestApi

/-- `http_rest_client_t`, as far as the request depends on it. -/
structure HttpRestClient where
  hostApi : Bytes
  target : Bytes
  payloads : List Bytes := []
  signedAuth : Option SignedMessage := none

namespace HttpRestClient

/-- The string `sign_request` signs. -/
def stringToSign (client : HttpRestClient) (auth : SignedMessage) : Bytes :=
  auth.timestamp.value ++ bytes "POST" ++ client.target ++ client.payloads.headD []

/-- `sign_request`. -/
def signRequest (hmac256Encode : Bytes → Bytes → Bytes) (client : HttpRestClient)
    (auth : SignedMessage) (request : HttpRequest) : HttpRequest :=
  request.sign hmac256Encode auth (client.stringToSign auth)

/-- `rest_api_prepare_request`; it is called with a payload in the queue only. The optional
headers are not sent. -/
def prepareRequest (hmac256Encode : Bytes → Bytes → Bytes) (client : HttpRestClient)
    (h : client.payloads ≠ []) : HttpRequest :=
  let request : HttpRequest :=
    HttpRequest.setCommonFields { target := client.target } client.hostApi
  let request := { request with method := .post, body := client.payloads.head h }
  let request :=
    match client.signedAuth with
    | some auth => client.signRequest hmac256Encode auth request
    | none => request
  request.preparePayload

end HttpRestClient

/-! ### What a request keeps through its preparation -/

namespace HttpRequest

/-- Two requests that differ in their fields only. -/
structure SameLine (a b : HttpRequest) : Prop where
  method : a.method = b.method
  target : a.target = b.target
  body : a.body = b.body

theorem SameLine.trans {a b c : HttpRequest} (hab : SameLine a b) (hbc : SameLine b c) :
    SameLine a c :=
  ⟨hab.method.trans hbc.method, hab.target.trans hbc.target, hab.body.trans hbc.body⟩

private theorem sameLine_set (request : HttpRequest) (name value : Bytes) :
    SameLine (request.set name value) request := ⟨rfl, rfl, rfl⟩

private theorem sameLine_setHeader (request : HttpRequest) (s : HeaderValue) :
    SameLine (request.setHeader s) request := by
  unfold setHeader
  split
  · exact ⟨rfl, rfl, rfl⟩
  · exact sameLine_set _ _ _

private theorem sameLine_sign (hmac256Encode : Bytes → Bytes → Bytes) (request : HttpRequest)
    (auth : SignedMessage) (s : Bytes) : SameLine (request.sign hmac256Encode auth s) request := by
  unfold sign
  dsimp only
  apply (sameLine_set _ _ _).trans
  apply (sameLine_set _ _ _).trans
  apply (sameLine_setHeader _ _).trans
  apply (sameLine_setHeader _ _).trans
  exact sameLine_setHeader _ _

private theorem sameLine_preparePayload (request : HttpRequest) :
    SameLine request.preparePayload request := by
  unfold preparePayload
  split
  · exact sameLine_set _ _ _
  · exact ⟨rfl, rfl, rfl⟩

end HttpRequest

/-- The body of a request of `http_rest_client_t` is the payload at the front of its queue. -/
theorem HttpRestClient.body_prepareRequest (hmac256Encode : Bytes → Bytes → Bytes)
    (client : HttpRestClient) (h : client.payloads ≠ []) :
    (client.prepareRequest hmac256Encode h).body = client.payloads.head h := by
  unfold prepareRequest
  refine (HttpRequest.sameLine_preparePayload _).body.trans ?_
  cases client.signedAuth with
  | none => rfl
  | some auth => exact (HttpRequest.sameLine_sign _ _ _ _).body

namespace HttpsRestApi

private theorem sameLine_optHeader (headers : List (Bytes × Bytes)) (request : HttpRequest) :
    (headers.foldl (fun request e ↦ request.set e.1 e.2) request).SameLine request := by
  induction headers generalizing request with
  | nil => exact ⟨rfl, rfl, rfl⟩
  | cons e rest ih => exact (ih _).trans (HttpRequest.sameLine_set _ _ _)

/-- Signing and the length of the body leave method, target and body of a request alone. -/
theorem sameLine_prepareRequest (hmac256Encode : Bytes → Bytes → Bytes) (api : HttpsRestApi) :
    (api.prepareRequest hmac256Encode).SameLine api.unsignedRequest := by
  unfold prepareRequest
  apply (HttpRequest.sameLine_preparePayload _).trans
  cases api.signedAuth with
  | none => exact ⟨rfl, rfl, rfl⟩
  | some auth => exact HttpRequest.sameLine_sign _ _ _ _

/-- The line and the body of the request, by method. -/
theorem unsignedRequest_line (api : HttpsRestApi) :
    api.unsignedRequest.target = api.target ∧
      match api.method with
      | .get => api.unsignedRequest.method = .get ∧ api.unsignedRequest.body = []
      | .post => api.unsignedRequest.method = .post ∧
          api.unsignedRequest.body = api.payload.getD []
      | .put => api.unsignedRequest.method = .unknown ∧ api.unsignedRequest.body = [] := by
  have hline := sameLine_optHeader api.optHeader.toList
    (HttpRequest.setCommonFields { target := api.target } api.hostApi)
  have htarget := hline.target
  have hmethod := hline.method
  have hbody := hline.body
  unfold unsignedRequest
  cases api.method with
  | get => exact ⟨htarget, rfl, hbody⟩
  | post =>
    cases api.payload with
    | none => exact ⟨htarget, rfl, hbody⟩
    | some payload => exact ⟨htarget, rfl, rfl⟩
  | put => exact ⟨htarget, hmethod, hbody⟩

/-- The signature covers the timestamp and the request as it is sent. -/
def SignsRequest (hmac256Encode : Bytes → Bytes → Bytes) (api : HttpsRestApi)
    (auth : SignedMessage) : Prop :=
  let request := (api.installAuth auth).prepareRequest hmac256Encode
  api.stringToSign auth =
    auth.timestamp.value ++ request.method.methodString ++ request.target ++ request.body

/-- The http client with the same target, and the payload queued if there is one. -/
def asHttpRestClient (api : HttpsRestApi) (auth : SignedMessage) : HttpRestClient :=
  { hostApi := api.hostApi
    target := api.target
    payloads := api.payload.toList
    signedAuth := some auth }

/-- On a POST the two clients sign the same string. -/
def AgreesOnPost (api : HttpsRestApi) (auth : SignedMessage) : Prop :=
  api.method = .post →
    api.stringToSign auth = (api.asHttpRestClient auth).stringToSign auth

private theorem signsRequest_get (hmac256Encode : Bytes → Bytes → Bytes) {api : HttpsRestApi}
    (h : api.method = .get) (auth : SignedMessage) : api.SignsRequest hmac256Encode auth := by
  have hline := sameLine_prepareRequest hmac256Encode (api.installAuth auth)
  obtain ⟨htarget, hm⟩ := unsignedRequest_line (api.installAuth auth)
  rw [show (api.installAuth auth).method = .get from h] at hm
  rw [SignsRequest, hline.method, hline.target, hline.body, htarget, hm.1, hm.2, stringToSign,
    if_pos h, h, List.append_nil]
  rfl

private theorem signsRequest_post_iff (hmac256Encode : Bytes → Bytes → Bytes)
    {api : HttpsRestApi} (h : api.method = .post) (auth : SignedMessage) :
    (api.SignsRequest hmac256Encode auth ↔ api.payload.isSome) ∧
      (api.payload.isSome → api.AgreesOnPost auth) := by
  have hline := sameLine_prepareRequest hmac256Encode (api.installAuth auth)
  obtain ⟨htarget, hm⟩ := unsignedRequest_line (api.installAuth auth)
  rw [show (api.installAuth auth).method = .post from h] at hm
  rw [SignsRequest, AgreesOnPost, hline.method, hline.target, hline.body, htarget, hm.1, hm.2,
    stringToSign, if_neg (by rw [h]; simp), h, asHttpRestClient, HttpRestClient.stringToSign,
    show (api.installAuth auth).payload = api.payload from rfl]
  cases api.payload with
  | none =>
    -- nothing is signed, while the method alone makes the expected string longer
    refine ⟨iff_of_false ?_ (by simp), by simp⟩
    intro he
    have hlen := congrArg List.length he
    simp only [List.length_nil, List.length_append, Verb.methodString] at hlen
    rw [show (bytes "POST").length = 4 by decide] at hlen
    omega
  | some payload => exact ⟨iff_of_true rfl rfl, fun _ _ ↦ rfl⟩

private theorem signsRequest_put_iff (hmac256Encode : Bytes → Bytes → Bytes)
    {api : HttpsRestApi} (h : api.method = .put) (auth : SignedMessage) :
    api.SignsRequest hmac256Encode auth ↔
      api.payload = none ∧ auth.timestamp.value = [] ∧ api.target = [] := by
  have hline := sameLine_prepareRequest hmac256Encode (api.installAuth auth)
  obtain ⟨htarget, hm⟩ := unsignedRequest_line (api.installAuth auth)
  rw [show (api.installAuth auth).method = .put from h] at hm
  rw [SignsRequest, hline.method, hline.target, hline.body, htarget, hm.1, hm.2,
    stringToSign, if_neg (by rw [h]; simp), h]
  cases api.payload with
  | none => simp [Verb.methodString, installAuth]
  | some payload =>
    refine iff_of_false ?_ (by simp)
    intro he
    have hlen := congrArg List.length he
    simp only [List.length_nil, List.length_append, Verb.methodString, methodString,
      installAuth] at hlen
    rw [show (bytes "PUT").length = 3 by decide] at hlen
    omega

/-- The string signed covers the request sent, and is that of the http client on every POST,
exactly for a GET, for a POST with a payload, and for a PUT that has nothing to cover. -/
theorem signsRequest_iff (hmac256Encode : Bytes → Bytes → Bytes) (api : HttpsRestApi)
    (auth : SignedMessage) :
    (api.SignsRequest hmac256Encode auth ∧ api.AgreesOnPost auth) ↔
      api.method = .get ∨ (api.method = .post ∧ api.payload.isSome) ∨
        (api.method = .put ∧ api.payload = none ∧ auth.timestamp.value = [] ∧
          api.target = []) := by
  cases h : api.method with
  | get =>
    refine iff_of_true ⟨signsRequest_get hmac256Encode h auth, ?_⟩ (.inl rfl)
    intro hp
    rw [h] at hp
    cases hp
  | post =>
    obtain ⟨hsigns, hagrees⟩ := signsRequest_post_iff hmac256Encode h auth
    rw [hsigns, and_iff_left_of_imp hagrees]
    simp
  | put =>
    have hagrees : api.AgreesOnPost auth := by
      intro hp
      rw [h] at hp
      cases hp
    rw [signsRequest_put_iff hmac256Encode h auth, and_iff_left hagrees]
    simp

/-- The token request of the KuCoin account stream: a POST without payload, of which nothing
is signed. -/
theorem not_signsRequest_bulletPrivate :
    ¬({ hostApi := bytes "api.kucoin.com", target := bytes "/api/v1/bullet-private",
        method := .post : HttpsRestApi }).SignsRequest (fun _ _ ↦ [])
      { timestamp := { key := bytes "KC-API-TIMESTAMP", value := bytes "1700000000000" } } := by
  unfold SignsRequest
  decide +kernel

end HttpsRestApi

end KeepMyJournal.Common
