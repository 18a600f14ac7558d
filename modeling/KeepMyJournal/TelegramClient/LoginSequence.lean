import KeepMyJournal.TelegramClient.RequestHandlers

/-!
# The login sequence of the Telegram client

`initiate_login_sequence`, the two loops of the thread that receives what `td::Client` hands out,
with the D-Bus methods called between any two of its steps. Every run of them is a run of the
object under the events that `calls` records, and these follow the life of one session: the
client is restarted each time it has been closed, until the authorization is granted; then the
contacts are asked for once; and when the authorization is lost the thread returns for good.
-/

namespace KeepMyJournal.TelegramClient

open KeepMyJournal.Base KeepMyJournal.Base.Transition

/-! ### The two loops -/

/-- What `m_client->receive(10)` returns. -/
inductive Received where
  | nothing
  | update (object : Object)
  | answer (query : Query) (object : Object)
  deriving DecidableEq

/-- What is received, as it happens to the object. -/
def Received.event : Received → Event
  | .nothing => .receive none
  | .update object => .receive (some object)
  | .answer query object => .answer query object

/-- A method that the D-Bus adaptor calls. -/
inductive Method where
  | sendTextMessage (chatId : Int64) (content : Bytes)
  | onNewAuthorizationCode (mobileNumber code : Bytes)
  | onNewAuthorizationPassword (mobileNumber password : Bytes)
  deriving DecidableEq

/-- The call, as it happens to the object. -/
def Method.event : Method → Event
  | .sendTextMessage chatId content => .sendTextMessage chatId content
  | .onNewAuthorizationCode mobileNumber code => .onNewAuthorizationCode mobileNumber code
  | .onNewAuthorizationPassword mobileNumber password =>
    .onNewAuthorizationPassword mobileNumber password

/-- Where the thread is: at the condition of a loop, in `receive`, or past the end. -/
inductive Line where
  | logIn
  | logInReceive
  | contacts (contactsGotten : Bool)
  | contactsReceive (contactsGotten : Bool)
  | returned
  deriving DecidableEq, Repr

/-- The object, the thread, and what has happened to the object so far. -/
structure Login where
  process : Process
  line : Line := .logIn
  calls : List Event := []

/-- Something happens to the object. -/
def Login.happens (l : Login) (e : Event) : Option Login :=
  (TelegramClient.step l.process e).map fun p ↦ { l with process := p, calls := l.calls ++ [e] }

/-- The condition of a loop, up to the call of `receive`. An error that is set ends the first
loop as the authorization does. -/
def Login.turn (l : Login) : Option Login :=
  let tg := l.process.tg
  match l.line with
  | .logIn =>
    if tg.authorizationGranted ∨ tg.errorIsSet then some { l with line := .contacts false }
    else if tg.needsRestart then ({ l with line := .logInReceive } : Login).happens .restart
    else some { l with line := .logInReceive }
  | .contacts contactsGotten =>
    if tg.authorizationGranted ∧ ¬tg.errorIsSet then
      some { l with line := .contactsReceive contactsGotten }
    else some { l with line := .returned }
  | .logInReceive | .contactsReceive _ | .returned => none

/-- The body of a loop, from `receive` on. A response without an object is not processed, and
the contacts are asked for after the first one that is. -/
def Login.receive (received : Received) (l : Login) : Option Login :=
  match l.line with
  | .logInReceive => ({ l with line := .logIn } : Login).happens received.event
  | .contactsReceive contactsGotten =>
    if received = .nothing then
      ({ l with line := .contacts contactsGotten } : Login).happens received.event
    else if contactsGotten then ({ l with line := .contacts true } : Login).happens received.event
    else
      (({ l with line := .contacts true } : Login).happens received.event).bind
        (·.happens .getContacts)
  | .logIn | .contacts _ | .returned => none

/-- What happens to the thread. -/
inductive LoginEvent where
  | turn
  | receive (received : Received)
  | call (method : Method)
  deriving DecidableEq

/-- One step of the thread, or a call. -/
def Login.step (l : Login) : LoginEvent → Option Login
  | .turn => l.turn
  | .receive received => l.receive received
  | .call method => l.happens method.event

/-- The object as it is constructed, and the thread as it is started. -/
def Login.start (phoneNumber : Bytes) : Login :=
  { process := TelegramClient.start phoneNumber }

/-! ### A session -/

/-- What a session of the client goes through. `contacts` says whether they were asked for. -/
inductive Session where
  | loggingIn
  | closed
  | granted (contacts : Bool)
  | lost (contacts : Bool)
  deriving DecidableEq, Repr

/-- The authorization state that an event brings. -/
def Event.state : Event → Option AuthorizationState
  | .receive (some (.updateAuthorizationState state)) => some state
  | .answer query (.updateAuthorizationState state) => if query.id = 0 then some state else none
  | .receive _ | .answer _ _ | .restart | .getContacts | .sendTextMessage _ _
  | .onNewAuthorizationCode _ _ | .onNewAuthorizationPassword _ _ => none

/-- The session after a response that brings an authorization state, or none. One that has been
closed or lost receives nothing. -/
def Session.receives : Session → Option AuthorizationState → Option Session
  | .loggingIn, some .ready => some (.granted false)
  | .loggingIn, some .closed => some .closed
  | .loggingIn, _ => some .loggingIn
  | .granted contacts, some .loggingOut | .granted contacts, some .closing
  | .granted contacts, some .closed => some (.lost contacts)
  | .granted contacts, _ => some (.granted contacts)
  | .closed, _ | .lost _, _ => none

/-- The session after an event, if the event may happen in it: it is restarted only where it has
been closed, and the contacts are asked for once, after it has been granted. -/
def Session.next (session : Session) (e : Event) : Option Session :=
  match e, session with
  | .receive _, _ | .answer _ _, _ => session.receives e.state
  | .restart, .closed => some .loggingIn
  | .getContacts, .granted false => some (.granted true)
  | .getContacts, .lost false => some (.lost true)
  | .restart, _ | .getContacts, _ => none
  | .sendTextMessage _ _, _ | .onNewAuthorizationCode _ _, _
  | .onNewAuthorizationPassword _ _, _ => some session

/-- What the flags of the object say about the session. -/
def Session.Shows (session : Session) (tg : TelegramClass) : Prop :=
  tg.errorIsSet = false ∧
    match session with
    | .loggingIn => tg.authorizationGranted = false ∧ tg.needsRestart = false
    | .closed => tg.authorizationGranted = false ∧ tg.needsRestart = true
    | .granted _ => tg.authorizationGranted = true
    | .lost _ => tg.authorizationGranted = false

/-- Where the thread may be in a session. -/
def Line.Fits : Line → Session → Prop
  | .logIn, session => session = .loggingIn ∨ session = .closed ∨ session = .granted false
  | .logInReceive, session => session = .loggingIn
  | .contacts gotten, session => session = .granted gotten ∨ session = .lost gotten
  | .contactsReceive gotten, session => session = .granted gotten
  | .returned, session => ∃ gotten, session = .lost gotten

/-! ### What an event does to the flags -/

variable {p p' : Process} {session session' : Session}

/-- The flags after an authorization state. -/
private theorem shows_onAuthorizationStateUpdate (state : AuthorizationState)
    (hshows : session.Shows p.tg) (hnext : session.receives (some state) = some session') :
    session'.Shows (onAuthorizationStateUpdate state p).tg := by
  obtain ⟨herror, hflags⟩ := hshows
  cases session with
  | closed | lost => cases hnext
  | loggingIn =>
    obtain ⟨hgranted, hrestart⟩ := hflags
    cases state with
    | ready =>
      obtain rfl := Option.some.inj hnext
      exact ⟨herror, rfl⟩
    | loggingOut | closing =>
      obtain rfl := Option.some.inj hnext
      exact ⟨herror, rfl, hrestart⟩
    | closed =>
      obtain rfl := Option.some.inj hnext
      exact ⟨herror, rfl, rfl⟩
    | waitCode | waitOtherDeviceConfirmation | waitRegistration | waitEncryptionKey
    | waitPassword | waitPhoneNumber | waitTdlibParameters | other =>
      obtain rfl := Option.some.inj hnext
      exact ⟨herror, hgranted, hrestart⟩
  | granted contacts =>
    cases state with
    | ready | loggingOut | closing | closed =>
      obtain rfl := Option.some.inj hnext
      exact ⟨herror, rfl⟩
    | waitCode | waitOtherDeviceConfirmation | waitRegistration | waitEncryptionKey
    | waitPassword | waitPhoneNumber | waitTdlibParameters | other =>
      obtain rfl := Option.some.inj hnext
      exact ⟨herror, hflags⟩

/-- A response that brings no authorization state leaves the session as it is. -/
private theorem eq_of_receives_none (hnext : session.receives none = some session') :
    session' = session := by
  cases session with
  | loggingIn | granted => exact (Option.some.inj hnext).symm
  | closed | lost => cases hnext

private theorem shows_processUpdate (object : Object) (hshows : session.Shows p.tg)
    (hnext : session.receives (Event.receive (some object)).state = some session') :
    session'.Shows (processUpdate object p).tg := by
  cases object with
  | updateAuthorizationState state =>
    let stored : Process := { p with tg := { p.tg with authorizationState := some state } }
    have hstored : session.Shows stored.tg := hshows
    exact shows_onAuthorizationStateUpdate state hstored hnext
  | error text | other =>
    rw [eq_of_receives_none hnext]
    exact hshows

/-- A handler leaves the object as it is. -/
private theorem tg_run (handler : Handler) (object : Object) (p : Process) :
    (handler.run object p).tg = p.tg := by
  unfold Handler.run checkAuthenticationError
  dsimp only
  split
  · cases object <;> rfl
  · rfl

private theorem shows_answer (query : Query) (object : Object) (hshows : session.Shows p.tg)
    (hnext : session.receives (Event.answer query object).state = some session') :
    session'.Shows (processResponse { id := query.id, object := some object } p).tg := by
  unfold processResponse
  dsimp only
  split
  · next hid =>
    refine shows_processUpdate object hshows ?_
    cases object with
    | updateAuthorizationState state =>
      rw [Event.state, if_pos hid] at hnext
      exact hnext
    | error text | other => exact hnext
  · next hid =>
    have hstate : (Event.answer query object).state = none := by
      cases object with
      | updateAuthorizationState state => exact if_neg hid
      | error text | other => rfl
    rw [hstate] at hnext
    rw [eq_of_receives_none hnext]
    split
    · rw [tg_run]
      exact hshows
    · exact hshows

/-- A session that an event moves on is the one that the flags show after it. -/
private theorem shows_step {e : Event} (hshows : session.Shows p.tg) (h : step p e = some p')
    (hnext : session.next e = some session') : session'.Shows p'.tg := by
  cases e with
  | receive object =>
    obtain rfl := Option.some.inj h
    cases object with
    | none =>
      rw [eq_of_receives_none hnext]
      exact hshows
    | some object => exact shows_processUpdate object hshows hnext
  | answer query object =>
    rw [step] at h
    split at h
    · obtain rfl := Option.some.inj h
      refine shows_answer query object ?_ hnext
      exact hshows
    · cases h
  | restart =>
    obtain rfl := Option.some.inj h
    cases session with
    | closed =>
      obtain rfl := Option.some.inj hnext
      exact ⟨rfl, rfl, rfl⟩
    | loggingIn | granted | lost => cases hnext
  | getContacts =>
    obtain rfl := Option.some.inj h
    cases session with
    | loggingIn | closed => cases hnext
    | granted contacts =>
      cases contacts with
      | true => cases hnext
      | false =>
        obtain rfl := Option.some.inj hnext
        exact hshows
    | lost contacts =>
      cases contacts with
      | true => cases hnext
      | false =>
        obtain rfl := Option.some.inj hnext
        exact hshows
  | sendTextMessage chatId content =>
    obtain rfl := Option.some.inj h
    obtain rfl := Option.some.inj hnext
    unfold sendTextMessage
    split <;> exact hshows
  | onNewAuthorizationCode mobileNumber code =>
    obtain rfl := Option.some.inj h
    obtain rfl := Option.some.inj hnext
    unfold onNewAuthorizationCode
    split <;> exact hshows
  | onNewAuthorizationPassword mobileNumber password =>
    obtain rfl := Option.some.inj h
    obtain rfl := Option.some.inj hnext
    unfold onNewAuthorizationPassword
    split <;> exact hshows

/-! ### The texts that are sent -/

/-- The texts among the queries that wait for an answer were handed over in a session that had
been granted. -/
def TextsGranted (p : Process) (calls : List Event) : Prop :=
  ∀ query ∈ p.tg.client, ∀ chatId content, query.request = .sendMessage chatId content →
    ∃ before after contacts, calls = before ++ .sendTextMessage chatId content :: after ∧
      run Session.next .loggingIn before = some (.granted contacts)

/-- A query that was not there before asks for what has just been sent. -/
private theorem mem_client_sendNext {request : Function} {query : Query}
    (h : query ∈ (sendNext request p).tg.client) :
    query ∈ p.tg.client ∨ query.request = request := by
  rcases List.mem_append.mp h with h | h
  · exact .inl h
  · rw [List.mem_singleton.mp h]
    exact .inr rfl

variable {query : Query} {chatId : Int64} {content : Bytes}

private theorem text_of_sendNext (request : Function) (hne : request ≠ .sendMessage chatId content)
    (h : query ∈ (sendNext request p).tg.client)
    (htext : query.request = .sendMessage chatId content) : query ∈ p.tg.client := by
  rcases mem_client_sendNext h with h | hrequest
  · exact h
  · exact absurd (hrequest.symm.trans htext) hne

/-- An update sends no text. -/
private theorem text_of_processUpdate {object : Object}
    (h : query ∈ (processUpdate object p).tg.client)
    (htext : query.request = .sendMessage chatId content) : query ∈ p.tg.client := by
  cases object with
  | error text | other => exact h
  | updateAuthorizationState state =>
    cases state with
    | waitEncryptionKey | waitPhoneNumber | waitTdlibParameters =>
      rcases mem_client_sendNext h with h | hrequest
      · exact h
      · rw [hrequest] at htext
        cases htext
    | ready | loggingOut | closing | closed | waitCode | waitOtherDeviceConfirmation
    | waitRegistration | waitPassword | other => exact h

/-- A text that waits was there before, or is sent once the authorization is granted. -/
theorem text_of_step {e : Event} (hstep : step p e = some p') (h : query ∈ p'.tg.client)
    (htext : query.request = .sendMessage chatId content) :
    query ∈ p.tg.client ∨
      e = .sendTextMessage chatId content ∧ p.tg.authorizationGranted = true := by
  cases e with
  | receive object =>
    obtain rfl := Option.some.inj hstep
    cases object with
    | none => exact .inl h
    | some object => exact .inl (text_of_processUpdate h htext)
  | answer answered object =>
    rw [step] at hstep
    split at hstep
    · obtain rfl := Option.some.inj hstep
      refine .inl (List.mem_of_mem_erase (b := answered) ?_)
      unfold processResponse at h
      dsimp only at h
      split at h
      · exact text_of_processUpdate h htext
      · split at h
        · rw [tg_run] at h
          exact h
        · exact h
    · cases hstep
  | restart =>
    obtain rfl := Option.some.inj hstep
    cases h
  | getContacts =>
    obtain rfl := Option.some.inj hstep
    exact .inl (text_of_sendNext .getContacts (by simp) h htext)
  | sendTextMessage toId text =>
    obtain rfl := Option.some.inj hstep
    unfold sendTextMessage at h
    split at h
    · next hgranted =>
      rcases mem_client_sendNext h with h | hrequest
      · exact .inl h
      · obtain ⟨rfl, rfl⟩ := Function.sendMessage.inj (hrequest.symm.trans htext)
        exact .inr ⟨rfl, hgranted⟩
    · exact .inl h
  | onNewAuthorizationCode mobileNumber code =>
    obtain rfl := Option.some.inj hstep
    unfold onNewAuthorizationCode at h
    split at h
    · exact .inl h
    · exact .inl (text_of_sendNext (.checkAuthenticationCode code) (by simp) h htext)
  | onNewAuthorizationPassword mobileNumber password =>
    obtain rfl := Option.some.inj hstep
    unfold onNewAuthorizationPassword at h
    split at h
    · exact .inl h
    · exact .inl (text_of_sendNext (.checkAuthenticationPassword password) (by simp) h htext)

/-! ### Runs -/

/-- The calls are a run of the object and follow a session, which the flags show. -/
structure Follows (phoneNumber : Bytes) (l : Login) (session : Session) : Prop where
  object : run step (start phoneNumber) l.calls = some l.process
  life : run Session.next .loggingIn l.calls = some session
  shows : session.Shows l.process.tg
  texts : TextsGranted l.process l.calls

variable {phoneNumber : Bytes} {l l' : Login}

/-- Only a session that has been granted shows it. -/
private theorem granted_of_shows {tg : TelegramClass} (hshows : session.Shows tg)
    (h : tg.authorizationGranted = true) : ∃ contacts, session = .granted contacts := by
  obtain ⟨-, hflags⟩ := hshows
  cases session with
  | granted contacts => exact ⟨contacts, rfl⟩
  | loggingIn | closed =>
    rw [hflags.1] at h
    cases h
  | lost contacts =>
    rw [hflags] at h
    cases h

private theorem follows_start (phoneNumber : Bytes) :
    Follows phoneNumber (Login.start phoneNumber) .loggingIn where
  object := rfl
  life := rfl
  shows := ⟨rfl, rfl, rfl⟩
  texts := List.forall_mem_nil _

/-- Where the thread is does not matter to it. -/
private theorem Follows.atLine (h : Follows phoneNumber l session) (line : Line) :
    Follows phoneNumber { l with line := line } session :=
  ⟨h.object, h.life, h.shows, h.texts⟩

private theorem follows_happens {e : Event} (h : Follows phoneNumber l session)
    (hhappens : l.happens e = some l') (hnext : session.next e = some session') :
    Follows phoneNumber l' session' ∧ l'.line = l.line := by
  obtain ⟨p', hstep, rfl⟩ := Option.map_eq_some_iff.mp hhappens
  refine ⟨⟨?_, ?_, shows_step h.shows hstep hnext, ?_⟩, rfl⟩
  · dsimp only
    rw [run_concat, h.object]
    exact hstep
  · dsimp only
    rw [run_concat, h.life]
    exact hnext
  · intro query hquery chatId content htext
    rcases text_of_step hstep hquery htext with hquery | ⟨rfl, hgranted⟩
    · obtain ⟨before, after, contacts, hcalls, hrun⟩ := h.texts query hquery _ _ htext
      refine ⟨before, after ++ [e], contacts, ?_, hrun⟩
      dsimp only
      rw [hcalls, List.append_assoc, List.cons_append]
    · obtain ⟨contacts, rfl⟩ := granted_of_shows h.shows hgranted
      exact ⟨l.calls, [], contacts, rfl, h.life⟩

private theorem next_received (session : Session) (received : Received) :
    session.next received.event = session.receives received.event.state := by
  cases received <;> rfl

private theorem next_method (session : Session) (method : Method) :
    session.next method.event = some session := by
  cases method <;> rfl

/-- Before the authorization, everything may be received. -/
private theorem receives_loggingIn (state : Option AuthorizationState) :
    ∃ session, Session.receives .loggingIn state = some session ∧ Line.logIn.Fits session := by
  cases state with
  | none => exact ⟨_, rfl, .inl rfl⟩
  | some state =>
    cases state with
    | ready => exact ⟨_, rfl, .inr (.inr rfl)⟩
    | closed => exact ⟨_, rfl, .inr (.inl rfl)⟩
    | loggingOut | closing | waitCode | waitOtherDeviceConfirmation | waitRegistration
    | waitEncryptionKey | waitPassword | waitPhoneNumber | waitTdlibParameters | other =>
      exact ⟨_, rfl, .inl rfl⟩

/-- As long as the authorization holds, too. -/
private theorem receives_granted (contacts : Bool) (state : Option AuthorizationState) :
    ∃ session, Session.receives (.granted contacts) state = some session ∧
      (Line.contacts contacts).Fits session := by
  cases state with
  | none => exact ⟨_, rfl, .inl rfl⟩
  | some state =>
    cases state with
    | loggingOut | closing | closed => exact ⟨_, rfl, .inr rfl⟩
    | ready | waitCode | waitOtherDeviceConfirmation | waitRegistration | waitEncryptionKey
    | waitPassword | waitPhoneNumber | waitTdlibParameters | other => exact ⟨_, rfl, .inl rfl⟩

/-- The thread follows a session and is where it may be. -/
private def OnCourse (phoneNumber : Bytes) (l : Login) : Prop :=
  ∃ session, Follows phoneNumber l session ∧ l.line.Fits session

private theorem onCourse_turn (h : Follows phoneNumber l session) (hline : l.line.Fits session)
    (hturn : l.turn = some l') : OnCourse phoneNumber l' := by
  obtain ⟨process, line, calls⟩ := l
  obtain ⟨herror, hflags⟩ := h.shows
  unfold Login.turn at hturn
  dsimp only at hturn hline herror hflags
  cases line with
  | logIn =>
    dsimp only at hturn
    split at hturn
    · next hends =>
      obtain rfl := Option.some.inj hturn
      have hgranted : process.tg.authorizationGranted = true :=
        hends.resolve_right (by simp [herror])
      obtain ⟨contacts, rfl⟩ := granted_of_shows h.shows hgranted
      rcases hline with heq | heq | heq
      · cases heq
      · cases heq
      · exact ⟨_, h.atLine (.contacts false), .inl heq⟩
    · next hends =>
      split at hturn
      · next hrestart =>
        rcases hline with rfl | rfl | rfl
        · rw [hflags.2] at hrestart
          cases hrestart
        · obtain ⟨hfollows, hat⟩ := follows_happens (h.atLine .logInReceive) hturn rfl
          exact ⟨_, hfollows, hat ▸ rfl⟩
        · exact absurd (.inl hflags) hends
      · next hrestart =>
        obtain rfl := Option.some.inj hturn
        rcases hline with rfl | rfl | rfl
        · exact ⟨_, h.atLine .logInReceive, rfl⟩
        · exact absurd hflags.2 hrestart
        · exact absurd (.inl hflags) hends
  | contacts gotten =>
    dsimp only at hturn
    split at hturn
    · next hgoes =>
      obtain rfl := Option.some.inj hturn
      obtain ⟨contacts, rfl⟩ := granted_of_shows h.shows hgoes.1
      rcases hline with heq | heq
      · exact ⟨_, h.atLine (.contactsReceive gotten), heq⟩
      · cases heq
    · next hgoes =>
      obtain rfl := Option.some.inj hturn
      rcases hline with rfl | rfl
      · exact absurd ⟨hflags, by simp [herror]⟩ hgoes
      · exact ⟨_, h.atLine .returned, gotten, rfl⟩
  | logInReceive | contactsReceive gotten | returned => cases hturn

private theorem onCourse_receive {received : Received} (h : Follows phoneNumber l session)
    (hline : l.line.Fits session) (hreceive : l.receive received = some l') :
    OnCourse phoneNumber l' := by
  obtain ⟨process, line, calls⟩ := l
  unfold Login.receive at hreceive
  dsimp only at hline
  cases line with
  | logInReceive =>
    obtain rfl : session = .loggingIn := hline
    obtain ⟨session', hnext, hfits⟩ := receives_loggingIn received.event.state
    rw [← next_received] at hnext
    obtain ⟨hfollows, hat⟩ := follows_happens (h.atLine .logIn) hreceive hnext
    exact ⟨_, hfollows, hat ▸ hfits⟩
  | contactsReceive gotten =>
    obtain rfl : session = .granted gotten := hline
    obtain ⟨session', hnext, hfits⟩ := receives_granted gotten received.event.state
    rw [← next_received] at hnext
    dsimp only at hreceive
    split at hreceive
    · obtain ⟨hfollows, hat⟩ := follows_happens (h.atLine (.contacts gotten)) hreceive hnext
      exact ⟨_, hfollows, hat ▸ hfits⟩
    · cases gotten with
      | true =>
        obtain ⟨hfollows, hat⟩ := follows_happens (h.atLine (.contacts true)) hreceive hnext
        exact ⟨_, hfollows, hat ▸ hfits⟩
      | false =>
        obtain ⟨processed, hprocessed, hasked⟩ := Option.bind_eq_some_iff.mp hreceive
        obtain ⟨hfollows, hat⟩ :=
          follows_happens (h.atLine (.contacts true)) hprocessed hnext
        rcases hfits with rfl | rfl
        · obtain ⟨hfollows, hat'⟩ := follows_happens hfollows hasked rfl
          exact ⟨_, hfollows, (hat'.trans hat) ▸ .inl rfl⟩
        · obtain ⟨hfollows, hat'⟩ := follows_happens hfollows hasked rfl
          exact ⟨_, hfollows, (hat'.trans hat) ▸ .inr rfl⟩
  | logIn | contacts gotten | returned => cases hreceive

private theorem onCourse_step {e : LoginEvent} (h : OnCourse phoneNumber l)
    (hstep : l.step e = some l') : OnCourse phoneNumber l' := by
  obtain ⟨session, h, hline⟩ := h
  cases e with
  | turn => exact onCourse_turn h hline hstep
  | receive received => exact onCourse_receive h hline hstep
  | call method =>
    obtain ⟨hfollows, hat⟩ := follows_happens h hstep (next_method session method)
    exact ⟨session, hfollows, hat ▸ hline⟩

/-- Over every run of the thread, whichever methods are called in between, what happens to the
object is a run of it and the life of one session: it is restarted only where it has been closed,
never once it has been granted, the contacts are asked for at most once, and after the
authorization is lost nothing is received. The texts that are sent were handed over while it was
granted; and once the thread has returned, it has been lost. -/
theorem session_of_run {events : List LoginEvent}
    (hrun : run Login.step (Login.start phoneNumber) events = some l) :
    ∃ session, Follows phoneNumber l session ∧ l.line.Fits session := by
  have hinv : OnCourse phoneNumber l := by
    apply inv_run (I := OnCourse phoneNumber) ?_ ?_ hrun
    · exact fun _ _ _ h hstep ↦ onCourse_step h hstep
    · exact ⟨.loggingIn, follows_start phoneNumber, .inl rfl⟩
  exact hinv

/-- A client that is closed, restarted, granted and logged out; the first text is handed over
before the authorization and the last one after it. -/
private def closedThenGranted : List LoginEvent :=
  [.call (.sendTextMessage 1 []), .turn, .receive (.update (.updateAuthorizationState .closed)),
    .turn, .receive (.update (.updateAuthorizationState .ready)), .turn, .turn,
    .receive (.update .other), .call (.sendTextMessage 2 []), .turn,
    .receive (.update (.updateAuthorizationState .loggingOut)), .turn,
    .call (.sendTextMessage 3 [])]

theorem session_of_run_closedThenGranted : ∃ l session,
    run Login.step (Login.start []) closedThenGranted = some l ∧ l.line = .returned ∧
      l.process.tg.client.map Query.request = [.getContacts, .sendMessage 2 []] ∧
      Follows [] l session ∧ l.line.Fits session := by
  have hrun : (run Login.step (Login.start []) closedThenGranted).map
      (fun l ↦ (l.line, l.process.tg.client.map Query.request)) =
      some (.returned, [.getContacts, .sendMessage 2 []]) := by decide
  obtain ⟨l, hl, hends⟩ := Option.map_eq_some_iff.mp hrun
  obtain ⟨session, hfollows, hfits⟩ := session_of_run hl
  exact ⟨l, session, hl, congrArg Prod.fst hends, congrArg Prod.snd hends, hfollows, hfits⟩

end KeepMyJournal.TelegramClient
