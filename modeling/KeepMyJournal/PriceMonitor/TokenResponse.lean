import KeepMyJournal.Base.Throwing
import KeepMyJournal.PriceMonitor.KucoinStream

/-!
# What a KuCoin stream takes from a token response

`on_token_obtained` of the account stream (`account_monitor/src/kucoin_user_stream.cpp:61–97`)
and of the price streams (`price_monitor/src/kucoin_price_stream.cpp:124–165`). Both assign the
token before they look at the servers, and the servers one by one.
-/

namespace KeepMyJournal.PriceMonitor.Kucoin

open KeepMyJournal.Base KeepMyJournal.Common
open KeepMyJournal.AccountMonitor.Kucoin (InstanceServerData)
open KeepMyJournal.AccountMonitor.Kucoin.KucoinStream (Fault member readServers)

/-! ### What a response states -/

/-- The two classes with an `on_token_obtained`. -/
inductive StreamClass where
  | account | price
  deriving DecidableEq, Repr

/-- The response succeeds and its `data` carries the token. -/
def NamesToken (parse : JsonParse) (str token : Bytes) (dataObject : Json.Object) : Prop :=
  ∃ rootObject : Json.Object, parse str = .ok (.object rootObject) ∧
    rootObject.find (bytes "code") = some (.string (bytes "200000")) ∧
    rootObject.find (bytes "data") = some (.object dataObject) ∧
    dataObject.find (bytes "token") = some (.string token)

/-- The item is an object whose protocol is the websocket's. -/
def isWebsocketServer : Json → Bool
  | .object o =>
    match Json.Object.find o (bytes "protocol") with
    | some (.string protocol) => protocol == bytes "websocket"
    | _ => false
  | _ => false

/-- The item is an object. -/
def isObject : Json → Bool
  | .object _ => true
  | _ => false

/-- The item states this server. The price stream asks for the ping timeout as well. -/
def Describes (streamClass : StreamClass) (item : Json) (server : InstanceServerData) : Prop :=
  ∃ o : Json.Object, item = .object o ∧
    o.find (bytes "endpoint") = some (.string server.endpoint) ∧
    o.find (bytes "encrypt") = some (.boolean server.encryptProtocol) ∧
    (∃ n, o.HasInteger (bytes "pingInterval") n ∧ server.pingIntervalMs = n.toInt32) ∧
    (streamClass = .price → ∃ n, o.HasInteger (bytes "pingTimeout") n)

/-- Every websocket server is stated in full, and none stands behind an item that is not an
object. -/
def Complete (streamClass : StreamClass) (items : List Json) : Prop :=
  (∀ item ∈ items, isWebsocketServer item = true → ∃ server, Describes streamClass item server) ∧
    ∀ before item after, items = before ++ item :: after → isObject item = false →
      ∀ later ∈ after, isWebsocketServer later = false

/-- A response that names a token lists its servers, all of them complete. -/
def WellFormed (parse : JsonParse) (streamClass : StreamClass) (str : Bytes) : Prop :=
  ∀ token dataObject, NamesToken parse str token dataObject →
    ∃ items, dataObject.find (bytes "instanceServers") = some (.array items) ∧
      Complete streamClass items

/-- The token and the servers a stream keeps. -/
abbrev Kept := Bytes × List InstanceServerData

/-- No missing member is dereferenced, and either nothing has changed or the token is that of
the response and the servers are its websocket servers, one by one. -/
def AllOrNothing (parse : JsonParse) (streamClass : StreamClass) (str : Bytes)
    (before after : Kept) (fault : Option Fault) : Prop :=
  fault ≠ some .undefined ∧
    (after = before ∨
      ∃ dataObject items, NamesToken parse str after.1 dataObject ∧
        dataObject.find (bytes "instanceServers") = some (.array items) ∧
        List.Forall₂ (Describes streamClass) (items.filter isWebsocketServer) after.2)

/-! ### One server -/

/-- A server as the loop of the class reads it. -/
def readItem : StreamClass → Json → Except Fault (Option InstanceServerData)
  | .account, item =>
    match item.getObject with
    | .error e => .error (.thrown e)
    | .ok o => AccountMonitor.Kucoin.KucoinStream.readServer o
  | .price, item => readServer none item

variable {parse : JsonParse} {streamClass : StreamClass} {str : Bytes}

private theorem member_eq_ok_iff {α : Type} {o : Json.Object} {key : Bytes}
    {get : Json → Except StdException α} {a : α} :
    member o key get = .ok a ↔ ∃ value, o.find key = some value ∧ get value = .ok a := by
  unfold member
  cases hfind : o.find key with
  | none => simp
  | some value =>
    cases hget : get value <;> simp [Except.mapError, hget]

private theorem isWebsocketServer_object (o : Json.Object) :
    isWebsocketServer (.object o) = true ↔
      o.find (bytes "protocol") = some (.string (bytes "websocket")) := by
  unfold isWebsocketServer
  dsimp only
  split
  · next protocol h =>
    rw [h, beq_iff_eq, Option.some.injEq, Json.string.injEq]
  · next h => exact iff_of_false (Bool.false_ne_true) (h (bytes "websocket"))

private theorem readServer_eq_none_iff (o : Json.Object) :
    AccountMonitor.Kucoin.KucoinStream.readServer o = .ok none ↔
      isWebsocketServer (.object o) = false := by
  rw [← Bool.not_eq_true, isWebsocketServer_object]
  unfold AccountMonitor.Kucoin.KucoinStream.readServer
  split
  · next protocol h =>
    by_cases hprotocol : protocol = bytes "websocket"
    · rw [if_pos hprotocol]
      refine iff_of_false ?_ (not_not.mpr (by rw [h, hprotocol]))
      simp [bind_eq_ok_iff, pure, Except.pure]
    · rw [if_neg hprotocol]
      refine iff_of_true rfl ?_
      rw [h]
      simpa using hprotocol
  · next h => exact iff_of_true rfl (h (bytes "websocket"))

private theorem readServer_eq_some_iff (o : Json.Object) (server : InstanceServerData) :
    AccountMonitor.Kucoin.KucoinStream.readServer o = .ok (some server) ↔
      isWebsocketServer (.object o) = true ∧ Describes .account (.object o) server := by
  rw [isWebsocketServer_object]
  unfold AccountMonitor.Kucoin.KucoinStream.readServer
  split
  · next protocol h =>
    by_cases hprotocol : protocol = bytes "websocket"
    · rw [if_pos hprotocol, h, hprotocol]
      simp only [bind_eq_ok_iff, member_eq_ok_iff, Json.getString_eq_ok_iff,
        Json.getBoolean_eq_ok_iff, pure, Except.pure, Except.ok.injEq, Option.some.injEq, Describes,
        Json.Object.HasInteger]
      constructor
      · rintro ⟨endpoint, ⟨_, hendpoint, rfl⟩, encrypt, ⟨_, hencrypt, rfl⟩, interval, hinterval,
          rfl⟩
        exact ⟨trivial, o, rfl, hendpoint, hencrypt, ⟨interval, hinterval, rfl⟩, nofun⟩
      · rintro ⟨-, o', ho, hendpoint, hencrypt, ⟨interval, hinterval, hms⟩, -⟩
        obtain rfl := Json.object.inj ho
        refine ⟨_, ⟨_, hendpoint, rfl⟩, _, ⟨_, hencrypt, rfl⟩, interval, hinterval, ?_⟩
        rw [← hms]
    · rw [if_neg hprotocol]
      refine iff_of_false nofun ?_
      rintro ⟨hwebsocket, -⟩
      rw [h] at hwebsocket
      exact hprotocol (Json.string.inj (Option.some.inj hwebsocket))
  · next h => exact iff_of_false nofun fun hwebsocket ↦ h _ hwebsocket.1

private theorem describes_price_iff (item : Json) (server : InstanceServerData) :
    Describes .price item server ↔ Describes .account item server ∧
      ∃ o : Json.Object, item = .object o ∧ ∃ n, o.HasInteger (bytes "pingTimeout") n := by
  constructor
  · rintro ⟨o, rfl, hendpoint, hencrypt, hinterval, htimeout⟩
    exact ⟨⟨o, rfl, hendpoint, hencrypt, hinterval, nofun⟩, o, rfl, htimeout rfl⟩
  · rintro ⟨⟨o, rfl, hendpoint, hencrypt, hinterval, -⟩, o', ho, htimeout⟩
    obtain rfl := Json.object.inj ho
    exact ⟨o, rfl, hendpoint, hencrypt, hinterval, fun _ ↦ htimeout⟩

/-- An item that is not an object throws. -/
private theorem readItem_of_not_isObject {item : Json} (h : isObject item = false) :
    ∃ e, readItem streamClass item = .error (.thrown e) := by
  cases item with
  | object o => cases h
  | _ => cases streamClass <;> exact ⟨.typeError, rfl⟩

/-- An object without the websocket's protocol is passed over. -/
private theorem readItem_eq_none_iff {item : Json} (h : isObject item = true) :
    readItem streamClass item = .ok none ↔ isWebsocketServer item = false := by
  cases item with
  | object o =>
    rw [← readServer_eq_none_iff]
    cases streamClass with
    | account => exact Iff.rfl
    | price =>
      change (AccountMonitor.Kucoin.KucoinStream.readServer o >>= _) = _ ↔ _
      rw [bind_eq_ok_iff]
      constructor
      · rintro ⟨server, hserver, hnone⟩
        cases server with
        | none => exact hserver
        | some server =>
          obtain ⟨_, -, h⟩ := of_bind_eq_ok hnone
          cases h
      · intro hserver
        exact ⟨none, hserver, rfl⟩
  | _ => cases h

/-- What is read of an item is the server it describes. -/
private theorem readItem_eq_some_iff {item : Json} {server : InstanceServerData} :
    readItem streamClass item = .ok (some server) ↔
      isWebsocketServer item = true ∧ Describes streamClass item server := by
  cases item with
  | object o =>
    cases streamClass with
    | account => exact readServer_eq_some_iff o server
    | price =>
      change (AccountMonitor.Kucoin.KucoinStream.readServer o >>= _) = _ ↔ _
      rw [bind_eq_ok_iff, describes_price_iff, ← and_assoc, ← readServer_eq_some_iff]
      constructor
      · rintro ⟨server', hserver, hsome⟩
        cases server' with
        | none => cases hsome
        | some server' =>
          obtain ⟨n, htimeout, h⟩ := of_bind_eq_ok hsome
          obtain rfl := Option.some.inj (Except.ok.inj h)
          exact ⟨hserver, o, rfl, n, member_eq_ok_iff.mp htimeout⟩
      · rintro ⟨hserver, o', ho, n, htimeout⟩
        obtain rfl := Json.object.inj ho
        exact ⟨some server, hserver, bind_eq_ok_iff.mpr ⟨n, member_eq_ok_iff.mpr htimeout, rfl⟩⟩
  | _ =>
    refine iff_of_false ?_ (fun h ↦ Bool.false_ne_true h.1)
    cases streamClass <;> exact nofun

/-! ### The loop over the servers -/

/-- The loop of the class. -/
def readAll (streamClass : StreamClass) (items : List Json) :
    List InstanceServerData × Option Fault :=
  readItems (fun _ ↦ readItem streamClass) none items

/-- The loop reads the items in front of the first that it cannot read. -/
private theorem readItems_spec (last : Option InstanceServerData) (items : List Json) :
    ∃ whole rest, items = whole ++ rest ∧ (∀ item ∈ whole, isObject item = true) ∧
      List.Forall₂ (Describes streamClass) (whole.filter isWebsocketServer)
        (readItems (fun _ ↦ readItem streamClass) last items).1 ∧
      ((readItems (fun _ ↦ readItem streamClass) last items).2 = none ∧ rest = [] ∨
        ∃ bad tail fault, rest = bad :: tail ∧ readItem streamClass bad = .error fault ∧
          (readItems (fun _ ↦ readItem streamClass) last items).2 = some fault) := by
  induction items generalizing last with
  | nil => exact ⟨[], [], rfl, List.forall_mem_nil _, .nil, .inl ⟨rfl, rfl⟩⟩
  | cons item items ih =>
    unfold readItems
    cases hread : readItem streamClass item with
    | error fault =>
      exact ⟨[], item :: items, rfl, List.forall_mem_nil _, .nil,
        .inr ⟨item, items, fault, rfl, hread, rfl⟩⟩
    | ok server =>
      have hobject : isObject item = true := by
        by_contra hnot
        obtain ⟨e, he⟩ := @readItem_of_not_isObject streamClass item
          (Bool.eq_false_of_not_eq_true hnot)
        rw [he] at hread
        cases hread
      cases server with
      | none =>
        obtain ⟨whole, rest, rfl, hwhole, hservers, hrest⟩ := ih last
        refine ⟨item :: whole, rest, rfl, List.forall_mem_cons.mpr ⟨hobject, hwhole⟩, ?_, hrest⟩
        rw [List.filter_cons_of_neg (Bool.not_eq_true _ ▸ (readItem_eq_none_iff hobject).mp hread)]
        exact hservers
      | some server =>
        obtain ⟨whole, rest, rfl, hwhole, hservers, hrest⟩ := ih (some server)
        obtain ⟨hwebsocket, hdescribes⟩ := readItem_eq_some_iff.mp hread
        refine ⟨item :: whole, rest, rfl, List.forall_mem_cons.mpr ⟨hobject, hwhole⟩, ?_, hrest⟩
        rw [List.filter_cons_of_pos hwebsocket]
        exact .cons hdescribes hservers

/-- The loop of the account stream is the same one, over an accumulator. -/
private theorem readServers_eq (last : Option InstanceServerData)
    (servers : List InstanceServerData) (items : List Json) :
    readServers servers items =
      (servers ++ (readItems (fun _ ↦ readItem .account) last items).1,
        (readItems (fun _ ↦ readItem .account) last items).2) := by
  induction items generalizing last servers with
  | nil => simp [readServers, readItems]
  | cons item items ih =>
    unfold readServers readItems
    cases hobject : item.getObject with
    | error e =>
      have hitem : readItem .account item = .error (.thrown e) := by simp [readItem, hobject]
      simp [hitem]
    | ok o =>
      have hitem : readItem .account item = AccountMonitor.Kucoin.KucoinStream.readServer o := by
        simp [readItem, hobject]
      rw [hitem]
      dsimp only
      cases AccountMonitor.Kucoin.KucoinStream.readServer o with
      | error fault => simp
      | ok server =>
        cases server with
        | none => simp [ih last]
        | some server => simp [ih (some server)]

/-- Complete items are read to the end, or to one that throws with no server behind it. -/
private theorem readAll_of_complete {items : List Json} (h : Complete streamClass items) :
    (readAll streamClass items).2 ≠ some .undefined ∧
      List.Forall₂ (Describes streamClass) (items.filter isWebsocketServer)
        (readAll streamClass items).1 := by
  obtain ⟨whole, rest, rfl, -, hservers, ⟨hfault, rfl⟩ | ⟨bad, tail, fault, rfl, hbad, hfault⟩⟩ :=
    @readItems_spec streamClass none items
  · rw [List.append_nil] at hfault hservers ⊢
    exact ⟨by rw [readAll, hfault]; exact nofun, hservers⟩
  · have hobject : isObject bad = false := by
      by_contra hobject
      rw [Bool.not_eq_false] at hobject
      by_cases hwebsocket : isWebsocketServer bad = true
      · obtain ⟨server, hserver⟩ := h.1 bad (by simp) hwebsocket
        rw [readItem_eq_some_iff.mpr ⟨hwebsocket, hserver⟩] at hbad
        cases hbad
      · rw [(readItem_eq_none_iff hobject).mpr (Bool.eq_false_of_not_eq_true hwebsocket)] at hbad
        cases hbad
    have htail : (bad :: tail).filter isWebsocketServer = [] := by
      rw [List.filter_eq_nil_iff]
      intro item hitem
      rw [Bool.not_eq_true]
      rcases List.mem_cons.mp hitem with rfl | hitem
      · cases item with
        | object o => cases hobject
        | _ => rfl
      · exact h.2 whole bad tail rfl hobject item hitem
    rw [List.filter_append, htail, List.append_nil]
    refine ⟨?_, hservers⟩
    obtain ⟨e, he⟩ := @readItem_of_not_isObject streamClass bad hobject
    rw [readAll, hfault, Except.error.inj (hbad.symm.trans he)]
    exact nofun

/-- Items that are read one by one, all websocket servers among them, are complete. -/
private theorem complete_of_readAll {items : List Json}
    (h : List.Forall₂ (Describes streamClass) (items.filter isWebsocketServer)
      (readAll streamClass items).1) : Complete streamClass items := by
  obtain ⟨whole, rest, rfl, hwhole, hservers, -⟩ :=
    @readItems_spec streamClass none items
  constructor
  · intro item hitem hwebsocket
    obtain ⟨i, hi, rfl⟩ := List.getElem_of_mem (List.mem_filter.mpr ⟨hitem, hwebsocket⟩)
    exact ⟨_, h.get hi (h.length_eq ▸ hi)⟩
  · intro before item after hsplit hobject later hlater
    have hnone : rest.filter isWebsocketServer = [] := by
      have hlength := h.length_eq.trans hservers.length_eq.symm
      rw [List.filter_append, List.length_append] at hlength
      exact List.length_eq_zero_iff.mp (by omega)
    -- the item is not among those that were read, and so what stands behind it is not either
    have hrest : later ∈ rest := by
      rcases List.append_eq_append_iff.mp hsplit with ⟨front, rfl, hrest⟩ | ⟨back, hwhole', hafter⟩
      · rw [hrest]
        simp [hlater]
      · cases back with
        | nil =>
          rw [List.nil_append] at hafter
          rw [← hafter]
          exact List.mem_cons_of_mem _ hlater
        | cons first back =>
          obtain ⟨rfl, -⟩ := List.cons.inj hafter
          rw [hwhole item (by rw [hwhole']; simp)] at hobject
          cases hobject
    rw [List.filter_eq_nil_iff] at hnone
    exact Bool.eq_false_of_not_eq_true (hnone later hrest)

/-! ### The two functions -/

/-- `on_token_obtained` of the two classes, as far as it concerns what a stream keeps. -/
private def obtain (streamClass : StreamClass) (before : Kept) :
    Except StdException (Option Json) → Kept × Option Fault
  | .error e => (before, some (.thrown e))
  | .ok (some (.object dataObject)) =>
    match Json.Object.find dataObject (bytes "token") with
    | some (.string token) =>
      match member dataObject (bytes "instanceServers") Json.getArray with
      | .error fault => ((token, before.2), some fault)
      | .ok items => ((token, (readAll streamClass items).1), (readAll streamClass items).2)
    | _ => (before, none)
  | .ok _ => (before, none)

/-- The cases of `on_token_obtained`. -/
private inductive Obtained (parse : JsonParse) (streamClass : StreamClass) (str : Bytes)
    (before : Kept) : Kept → Option Fault → Prop
  | refused {fault : Option Fault}
      (hnone : ∀ token dataObject, ¬NamesToken parse str token dataObject)
    (hfault : fault ≠ some .undefined) : Obtained parse streamClass str before before fault
  | missing {token : Bytes} {dataObject : Json.Object}
    (htoken : NamesToken parse str token dataObject)
    (hnone : dataObject.find (bytes "instanceServers") = none) :
    Obtained parse streamClass str before (token, before.2) (some .undefined)
  | thrown {token : Bytes} {dataObject : Json.Object} {fault : Option Fault}
    (htoken : NamesToken parse str token dataObject)
    (hnone : ∀ items, dataObject.find (bytes "instanceServers") ≠ some (.array items)) :
    Obtained parse streamClass str before (token, before.2) fault
  | listed {token : Bytes} {dataObject : Json.Object} {items : List Json}
    (htoken : NamesToken parse str token dataObject)
    (hitems : dataObject.find (bytes "instanceServers") = some (.array items)) :
    Obtained parse streamClass str before (token, (readAll streamClass items).1)
      (readAll streamClass items).2

private theorem NamesToken.unique {token token' : Bytes} {dataObject dataObject' : Json.Object}
    (h : NamesToken parse str token dataObject) (h' : NamesToken parse str token' dataObject') :
    token = token' ∧ dataObject = dataObject' := by
  obtain ⟨rootObject, hparse, -, hdata, htoken⟩ := h
  obtain ⟨rootObject', hparse', -, hdata', htoken'⟩ := h'
  obtain rfl := Json.object.inj (Except.ok.inj (hparse.symm.trans hparse'))
  obtain rfl := Json.object.inj (Option.some.inj (hdata.symm.trans hdata'))
  exact ⟨Json.string.inj (Option.some.inj (htoken.symm.trans htoken')), rfl⟩

private theorem namesToken_iff {token : Bytes} {dataObject : Json.Object} :
    NamesToken parse str token dataObject ↔
      responseData parse str = .ok (some (.object dataObject)) ∧
        dataObject.find (bytes "token") = some (.string token) := by
  have hobject : ∀ rootObject, parse str >>= Json.getObject = .ok rootObject ↔
      parse str = .ok (.object rootObject) := by
    intro rootObject
    rw [bind_eq_ok_iff]
    constructor
    · rintro ⟨value, hvalue, hroot⟩
      rw [hvalue, Json.getObject_eq_ok_iff.mp hroot]
    · intro h
      exact ⟨_, h, rfl⟩
  have hdata : ∀ rootObject : Json.Object, successData rootObject = some (.object dataObject) ↔
      rootObject.find (bytes "code") = some (.string (bytes "200000")) ∧
        rootObject.find (bytes "data") = some (.object dataObject) := by
    intro rootObject
    unfold successData
    split
    · next code h =>
      by_cases hcode : code = bytes "200000"
      · simp [h, hcode]
      · simp [h, hcode]
    · next h => exact iff_of_false nofun fun hcode ↦ h _ hcode.1
  unfold NamesToken responseData
  simp only [bind_eq_ok_iff (x := parse str >>= Json.getObject), hobject, pure, Except.pure,
    Except.ok.injEq, hdata]
  constructor
  · rintro ⟨rootObject, hparse, hcode, hfind, htoken⟩
    exact ⟨⟨rootObject, hparse, hcode, hfind⟩, htoken⟩
  · rintro ⟨⟨rootObject, hparse, hcode, hfind⟩, htoken⟩
    exact ⟨rootObject, hparse, hcode, hfind, htoken⟩

private theorem obtained (before : Kept) :
    Obtained parse streamClass str before (obtain streamClass before (responseData parse str)).1
      (obtain streamClass before (responseData parse str)).2 := by
  unfold obtain
  split
  · next e h =>
    refine .refused ?_ nofun
    intro token dataObject htoken
    rw [(namesToken_iff.mp htoken).1] at h
    cases h
  · next dataObject h =>
    split
    · next token htoken =>
      have hnames := namesToken_iff.mpr ⟨h, htoken⟩
      unfold member
      cases hfind : Json.Object.find dataObject (bytes "instanceServers") with
      | none => exact .missing hnames hfind
      | some value =>
        cases value with
        | array items => exact .listed hnames hfind
        | _ => exact .thrown hnames (by rw [hfind]; exact nofun)
    · next htoken =>
      refine .refused ?_ nofun
      intro token dataObject' hnames
      obtain ⟨hdata, hfind⟩ := namesToken_iff.mp hnames
      obtain rfl := Json.object.inj (Option.some.inj (Except.ok.inj (h.symm.trans hdata)))
      exact htoken token hfind
  · next data hne h =>
    refine .refused ?_ nofun
    intro token dataObject htoken
    exact hne dataObject (Except.ok.inj (h.symm.trans (namesToken_iff.mp htoken).1))

/-- Up to the token the two functions read a response alike. -/
private theorem onTokenObtained_price (s : KucoinStream) :
    (((s.onTokenObtained parse str).1.requestToken,
      (s.onTokenObtained parse str).1.instanceServers), (s.onTokenObtained parse str).2) =
      obtain .price (s.requestToken, s.instanceServers) (responseData parse str) := by
  unfold KucoinStream.onTokenObtained obtain
  rcases responseData parse str with _ | _ | data
  · rfl
  · rfl
  · cases data with
    | object dataObject =>
      dsimp only
      rcases Json.Object.find dataObject (bytes "token") with _ | token
      · rfl
      · cases token with
        | string token =>
          dsimp only
          cases member dataObject (bytes "instanceServers") Json.getArray <;> rfl
        | _ => rfl
    | _ => rfl

private theorem onTokenObtained_account (s : AccountMonitor.Kucoin.KucoinStream) :
    (((s.onTokenObtained parse str).1.requestToken,
      (s.onTokenObtained parse str).1.instanceServers), (s.onTokenObtained parse str).2) =
      obtain .account (s.requestToken, s.instanceServers) (responseData parse str) := by
  unfold AccountMonitor.Kucoin.KucoinStream.onTokenObtained responseData
  cases parse str >>= Json.getObject with
  | error e => rfl
  | ok rootObject =>
    change _ = obtain .account _ (.ok (successData rootObject))
    unfold successData
    dsimp only
    rcases rootObject.find (bytes "code") with _ | code
    · rfl
    · cases code with
      | string code =>
        dsimp only
        by_cases hcode : code = bytes "200000"
        · rw [if_neg (not_not.mpr hcode), if_pos hcode]
          unfold obtain
          rcases rootObject.find (bytes "data") with _ | data
          · rfl
          · cases data with
            | object dataObject =>
              dsimp only
              rcases Json.Object.find dataObject (bytes "token") with _ | token
              · rfl
              · cases token with
                | string token =>
                  dsimp only
                  cases member dataObject (bytes "instanceServers") Json.getArray with
                  | error fault => rfl
                  | ok items =>
                    dsimp only
                    rw [readServers_eq none, List.nil_append]
                    rfl
                | _ => rfl
            | _ => rfl
        · rw [if_pos hcode, if_neg hcode]
          rfl
      | _ => rfl

/-- What a stream of either class keeps after `on_token_obtained` is all or nothing, whatever
it kept before, if and only if the response is well formed. -/
private theorem forall_allOrNothing_iff :
    (∀ before, AllOrNothing parse streamClass str before
        (obtain streamClass before (responseData parse str)).1
        (obtain streamClass before (responseData parse str)).2) ↔
      WellFormed parse streamClass str := by
  constructor
  · intro h token dataObject htoken
    -- a stream that keeps another token before
    have hlaw := h (0 :: token, [])
    have hcases := @obtained parse streamClass str
      (0 :: token, [])
    revert hlaw hcases
    generalize (obtain streamClass (0 :: token, []) (responseData parse str)).1 = after
    generalize (obtain streamClass (0 :: token, []) (responseData parse str)).2 = fault
    rintro ⟨hfault, hafter⟩ hcases
    cases hcases with
    | refused hnone _ => exact absurd htoken (hnone token dataObject)
    | missing _ _ => exact absurd rfl hfault
    | thrown htoken' hnone =>
      obtain ⟨rfl, rfl⟩ := htoken.unique htoken'
      rcases hafter with hafter | ⟨dataObject', items, hnames, hitems, -⟩
      · exact absurd (Prod.mk.inj hafter).1 (by simp)
      · obtain ⟨-, rfl⟩ := htoken'.unique hnames
        exact absurd hitems (hnone items)
    | listed htoken' hitems =>
      obtain ⟨rfl, rfl⟩ := htoken.unique htoken'
      refine ⟨_, hitems, ?_⟩
      rcases hafter with hafter | ⟨dataObject', items, hnames, hitems', hservers⟩
      · exact absurd (Prod.mk.inj hafter).1 (by simp)
      · obtain ⟨-, rfl⟩ := htoken'.unique hnames
        obtain rfl := Json.array.inj (Option.some.inj (hitems.symm.trans hitems'))
        exact complete_of_readAll hservers
  · intro h before
    have hcases := @obtained parse streamClass str before
    revert hcases
    generalize (obtain streamClass before (responseData parse str)).1 = after
    generalize (obtain streamClass before (responseData parse str)).2 = fault
    intro hcases
    cases hcases with
    | refused _ hfault => exact ⟨hfault, .inl rfl⟩
    | missing htoken hnone =>
      obtain ⟨items, hitems, -⟩ := h _ _ htoken
      rw [hnone] at hitems
      cases hitems
    | thrown htoken hnone =>
      obtain ⟨items, hitems, -⟩ := h _ _ htoken
      exact absurd hitems (hnone items)
    | listed htoken hitems =>
      obtain ⟨items, hitems', hcomplete⟩ := h _ _ htoken
      obtain rfl := Json.array.inj (Option.some.inj (hitems.symm.trans hitems'))
      obtain ⟨hfault, hservers⟩ := readAll_of_complete hcomplete
      exact ⟨hfault, .inr ⟨_, _, htoken, hitems, hservers⟩⟩

/-- For every response, in both classes: after `on_token_obtained` either nothing has changed or
the token and the servers are those of the response, with no missing member dereferenced, if and
only if the response names no token or lists its servers, all of them complete. -/
theorem onTokenObtained_allOrNothing_iff (parse : JsonParse) (str : Bytes) :
    ((∀ s : AccountMonitor.Kucoin.KucoinStream,
        AllOrNothing parse .account str (s.requestToken, s.instanceServers)
          ((s.onTokenObtained parse str).1.requestToken,
            (s.onTokenObtained parse str).1.instanceServers)
          (s.onTokenObtained parse str).2) ↔ WellFormed parse .account str) ∧
      ((∀ s : KucoinStream,
        AllOrNothing parse .price str (s.requestToken, s.instanceServers)
          ((s.onTokenObtained parse str).1.requestToken,
            (s.onTokenObtained parse str).1.instanceServers)
          (s.onTokenObtained parse str).2) ↔ WellFormed parse .price str) := by
  rw [← forall_allOrNothing_iff, ← forall_allOrNothing_iff]
  constructor
  · constructor
    · intro h before
      have hs := h { tradeType := .spot, requestToken := before.1, instanceServers := before.2 }
      have heq := @onTokenObtained_account parse str
        { tradeType := .spot, requestToken := before.1, instanceServers := before.2 }
      rw [← heq]
      exact hs
    · intro h s
      have heq := @onTokenObtained_account parse str s
      have hs := h (s.requestToken, s.instanceServers)
      rw [← heq] at hs
      exact hs
  · constructor
    · intro h before
      have hs := h { tradeType := .spot, requestToken := before.1, instanceServers := before.2 }
      have heq := @onTokenObtained_price parse str
        { tradeType := .spot, requestToken := before.1, instanceServers := before.2 }
      rw [← heq]
      exact hs
    · intro h s
      have heq := @onTokenObtained_price parse str s
      have hs := h (s.requestToken, s.instanceServers)
      rw [← heq] at hs
      exact hs

/-- `json::parse` on a response with the token `t2` and these members beside it. -/
def parseToken (members : Json.Object) : JsonParse := fun _ ↦
  .ok (.object [(bytes "code", .string (bytes "200000")),
    (bytes "data", .object ((bytes "token", .string (bytes "t2")) :: members))])

/-- An account stream that has obtained the token `t1`. -/
def oldAccountStream : AccountMonitor.Kucoin.KucoinStream where
  tradeType := .spot
  requestToken := bytes "t1"
  instanceServers := [{ endpoint := bytes "wss://ws-api-spot.kucoin.com/" }]

/-- A price stream that has obtained the token `t1`. -/
def oldPriceStream : KucoinStream where
  tradeType := .spot
  requestToken := bytes "t1"
  instanceServers := [{ endpoint := bytes "wss://ws-api-spot.kucoin.com/" }]

/-- Without servers in the response a missing member is dereferenced; with a null in their place
the stream is left with the new token and the old servers. -/
theorem not_allOrNothing_withoutServers :
    ¬AllOrNothing (parseToken []) .account []
        (oldAccountStream.requestToken, oldAccountStream.instanceServers)
        ((oldAccountStream.onTokenObtained (parseToken []) []).1.requestToken,
          (oldAccountStream.onTokenObtained (parseToken []) []).1.instanceServers)
        (oldAccountStream.onTokenObtained (parseToken []) []).2 ∧
      ¬AllOrNothing (parseToken [(bytes "instanceServers", .null)]) .price []
        (oldPriceStream.requestToken, oldPriceStream.instanceServers)
        ((oldPriceStream.onTokenObtained
            (parseToken [(bytes "instanceServers", .null)]) []).1.requestToken,
          (oldPriceStream.onTokenObtained
            (parseToken [(bytes "instanceServers", .null)]) []).1.instanceServers)
        (oldPriceStream.onTokenObtained (parseToken [(bytes "instanceServers", .null)]) []).2 := by
  constructor
  · rintro ⟨hfault, -⟩
    exact hfault rfl
  · rintro ⟨-, hsame | ⟨dataObject, items, hnames, hitems, -⟩⟩
    · have htoken := (Prod.mk.inj hsame).1
      revert htoken
      decide
    · have hnames' : NamesToken (parseToken [(bytes "instanceServers", .null)]) [] (bytes "t2")
          [(bytes "token", .string (bytes "t2")), (bytes "instanceServers", .null)] :=
        ⟨_, rfl, rfl, rfl, rfl⟩
      obtain ⟨-, rfl⟩ := hnames'.unique hnames
      cases hitems

end KeepMyJournal.PriceMonitor.Kucoin
