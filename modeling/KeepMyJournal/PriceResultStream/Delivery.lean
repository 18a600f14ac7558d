import KeepMyJournal.Base.RemoteCalls
import KeepMyJournal.Common.StringUtils
import KeepMyJournal.ProgressTasks.Watch
import KeepMyJournal.TelegramClient.LoginSequence
import KeepMyJournal.TimeTasks.Watch

/-!
# The delivery of results

From `scheduled_task_results` of the time and of the progress service
(`time_tasks/src/time_based_watch.cpp:204–212`,
`progress_tasks/src/progress_based_task.cpp:251–259`) over D-Bus to `price_result_stream_t`
(`price_result_stream/src/dbus/price_result_adaptor.cpp:15–46`), and over D-Bus again to the
Telegram client (`telegram_client/main.cpp:316–332, 434–437`). A failed call leaves the sender
thread of a service as an exception, which ends its process; `price_result_stream_t` hands it on.
-/

namespace KeepMyJournal.PriceResultStream

open KeepMyJournal.Base KeepMyJournal.Common
open KeepMyJournal.ProgressTasks (ScheduledProgressTaskResult)
open KeepMyJournal.TimeTasks (ScheduledTimeTaskResult)

/-! ### Texts -/

/-- The services that send results. -/
inductive Service where
  | time | progress
  deriving DecidableEq, Repr

/-- A result of either. -/
inductive TaskResult where
  | time (result : ScheduledTimeTaskResult)
  | progress (result : ScheduledProgressTaskResult)
  deriving DecidableEq, Repr

/-- The service whose result it is. -/
def TaskResult.service : TaskResult → Service
  | time _ => .time
  | progress _ => .progress

variable (printDouble : ℚ → Bytes)

/-- What the loops print of an instrument. -/
def instrumentText (instrument : DbusInstrumentType) : Bytes :=
  bytes "Name: " ++ instrument.name ++ bytes "\nPrice: " ++ printDouble instrument.price ++
    bytes "\n24hrChange: " ++ printDouble instrument.open24h ++ bytes "\n\n"

/-- What both methods print. -/
def updateText (heading : String) (tradeType : TradeType)
    (instruments : List DbusInstrumentType) : Bytes :=
  bytes heading ++ bytes "Trade: " ++ tradeTypeToString tradeType ++ bytes "\n\n" ++
    instruments.flatMap (instrumentText printDouble)

/-- `broadcast_progress_price_result`, up to its call. -/
def broadcastProgressPriceResult (res : ScheduledProgressTaskResult) : Bytes :=
  updateText printDouble "PROGRESS UPDATE\n==============\n"
    (dbusProgressToScheduledTask res.task).tradeType res.tokens

/-- `broadcast_time_price_result`, up to its call. -/
def broadcastTimePriceResult (res : ScheduledTimeTaskResult) : Bytes :=
  updateText printDouble "TIME UPDATE\n==========\n"
    (dbusTimeToScheduledTask res.task).tradeType res.tokens

/-- The text of a result. -/
def TaskResult.text : TaskResult → Bytes
  | time result => broadcastTimePriceResult printDouble result
  | progress result => broadcastProgressPriceResult printDouble result

/-- The chat of all results. -/
def chatId : Int64 := 5935771643

/-! ### Calls -/

/-- A call of `send_text_message`: the result that it is for, if it comes from
`price_result_stream_t`, and whether the authorization was granted. -/
structure TextCall where
  source : Option (Service × TaskResult)
  chatId : Int64
  content : Bytes
  granted : Bool
  deriving DecidableEq, Repr

/-- The processes: the services with their senders and `price_result_stream_t`, the Telegram client,
and the calls of its method so far. -/
structure Delivery where
  dbus : RemoteCalls Service TaskResult := {}
  telegram : TelegramClient.Process
  texts : List TextCall := []

namespace Delivery

/-- A watch sends a result, the D-Bus calls of the senders and of `price_result_stream_t` go on, or
something else happens to the Telegram client. -/
inductive Event where
  | sendPriceTaskResult (result : TaskResult)
  | dbus (e : RemoteCalls.Event Service TaskResult)
  | telegram (e : TelegramClient.Event)

/-- What a step of the client adds to the calls of its method. -/
def textCalls (telegram : TelegramClient.Process) (source : Option (Service × TaskResult)) :
    TelegramClient.Event → List TextCall
  | .sendTextMessage chatId content =>
    [{ source, chatId, content, granted := telegram.tg.authorizationGranted }]
  | _ => []

/-- What the Telegram client is asked for when it serves the next call. -/
def nextText (s : Delivery) : Option (Service × TaskResult) := s.dbus.onward.head?.map Prod.snd

/-- A step of the client, for a result or for somebody else. -/
def happens (s : Delivery) (source : Option (Service × TaskResult)) (e : TelegramClient.Event) :
    Option Delivery :=
  (TelegramClient.step s.telegram e).map fun p ↦
    { s with telegram := p, texts := s.texts ++ textCalls s.telegram source e }

/-- One step. -/
def step (s : Delivery) : Event → Option Delivery
  | .sendPriceTaskResult result =>
    (s.dbus.step (.give result.service result)).map fun d ↦ { s with dbus := d }
  | .dbus .serve =>
    s.nextText.bind fun call ↦
      (s.dbus.step .serve).bind fun d ↦
        { s with dbus := d }.happens (some call)
          (.sendTextMessage chatId (call.2.text printDouble))
  | .dbus (.give _ _) => none
  | .dbus e => (s.dbus.step e).map fun d ↦ { s with dbus := d }
  | .telegram e => s.happens none e

/-- Before the first steps. -/
def start (phoneNumber : Bytes) : Delivery := { telegram := TelegramClient.start phoneNumber }

/-- The results that the watches of a service send in a step. -/
def Event.sentBy (service : Service) : Event → List TaskResult
  | .sendPriceTaskResult result => if result.service = service then [result] else []
  | _ => []

/-- The results of a service for which the client has been called. -/
def textsOf (s : Delivery) (service : Service) : List TaskResult :=
  RemoteCalls.own service (s.texts.filterMap TextCall.source)

/-- What waits in the client has been asked for while the authorization was granted. -/
def Waiting (s : Delivery) : Prop :=
  ∀ query ∈ s.telegram.tg.client, ∀ chatId content, query.request = .sendMessage chatId content →
    ∃ text ∈ s.texts, text.chatId = chatId ∧ text.content = content ∧ text.granted = true

/-- The calls for results are those that have been served, and ask for their texts. -/
structure Inv (s : Delivery) : Prop where
  served : s.dbus.served = s.texts.filterMap TextCall.source
  texts : ∀ text ∈ s.texts, ∀ call ∈ text.source,
    text.chatId = chatId ∧ text.content = call.2.text printDouble
  waiting : s.Waiting

variable {printDouble} {s s' : Delivery}

/-- Whatever happens to the client, what waits in it has been asked for. -/
private theorem waiting_happens {source : Option (Service × TaskResult)} {e : TelegramClient.Event}
    (hs : s.Waiting) (hstep : s.happens source e = some s') : s'.Waiting := by
  obtain ⟨p, hp, rfl⟩ := Option.map_eq_some_iff.mp hstep
  intro query hquery chatId content htext
  rcases TelegramClient.text_of_step hp hquery htext with hold | ⟨rfl, hgranted⟩
  · obtain ⟨text, hmem, hcall⟩ := hs query hold chatId content htext
    exact ⟨text, List.mem_append_left _ hmem, hcall⟩
  · exact ⟨_, List.mem_append_right _ (List.mem_singleton.mpr rfl), rfl, rfl, hgranted⟩

/-- Somebody else's call is not for a result. -/
private theorem source_textCalls (telegram : TelegramClient.Process) (e : TelegramClient.Event) :
    ∀ text ∈ textCalls telegram none e, text.source = none := by
  unfold textCalls
  split
  · exact List.forall_mem_singleton.mpr rfl
  · exact List.forall_mem_nil _

/-- What a step does. -/
private inductive Stepped (printDouble : ℚ → Bytes) (s : Delivery) : Event → Delivery → Prop where
  | calls {e : Event} {e' : RemoteCalls.Event Service TaskResult}
      {d : RemoteCalls Service TaskResult} (hd : s.dbus.step e' = some d) (hserve : e' ≠ .serve)
      (hgiven : ∀ service, e'.givenTo service = e.sentBy service) :
      Stepped printDouble s e { s with dbus := d }
  | serves {call : Service × TaskResult} {d : RemoteCalls Service TaskResult} {s' : Delivery}
      (hcall : s.nextText = some call) (hd : s.dbus.step .serve = some d)
      (h : { s with dbus := d }.happens (some call)
        (.sendTextMessage chatId (call.2.text printDouble)) = some s') :
      Stepped printDouble s (.dbus .serve) s'
  | telegram {e : TelegramClient.Event} {s' : Delivery} (h : s.happens none e = some s') :
      Stepped printDouble s (.telegram e) s'

private theorem step_cases {e : Event} (hstep : step printDouble s e = some s') :
    Stepped printDouble s e s' := by
  cases e with
  | sendPriceTaskResult result =>
    obtain ⟨d, hd, rfl⟩ := Option.map_eq_some_iff.mp hstep
    exact .calls hd (by simp) fun _ ↦ rfl
  | dbus e =>
    cases e with
    | give service result => cases hstep
    | serve =>
      obtain ⟨call, hcall, hstep⟩ := Option.bind_eq_some_iff.mp hstep
      obtain ⟨d, hd, h⟩ := Option.bind_eq_some_iff.mp hstep
      exact .serves hcall hd h
    | loseCall i =>
      obtain rfl := Option.some.inj hstep
      exact .calls (show s.dbus.step (.loseCall i) = some _ from rfl) (by simp) fun _ ↦ rfl
    | loseOnward i =>
      obtain rfl := Option.some.inj hstep
      exact .calls (show s.dbus.step (.loseOnward i) = some _ from rfl) (by simp) fun _ ↦ rfl
    | _ =>
      obtain ⟨d, hd, rfl⟩ := Option.map_eq_some_iff.mp hstep
      exact .calls hd (by simp) fun _ ↦ rfl
  | telegram e => exact .telegram hstep

/-- The D-Bus calls go on as they do by themselves. -/
private theorem dbus_step {e : Event} (hstep : step printDouble s e = some s') :
    s'.dbus = s.dbus ∨ ∃ e', s.dbus.step e' = some s'.dbus := by
  cases step_cases hstep with
  | calls hd hserve hgiven => exact .inr ⟨_, hd⟩
  | serves hcall hd h =>
    obtain ⟨p, -, rfl⟩ := Option.map_eq_some_iff.mp h
    exact .inr ⟨_, hd⟩
  | telegram h =>
    obtain ⟨p, -, rfl⟩ := Option.map_eq_some_iff.mp h
    exact .inl rfl

/-- A service has put into its container what its watches have sent. -/
private theorem given_step {e : Event} (hstep : step printDouble s e = some s')
    (service : Service) :
    (s'.dbus.client service).given = (s.dbus.client service).given ++ e.sentBy service := by
  cases step_cases hstep with
  | calls hd hserve hgiven => exact hgiven service ▸ RemoteCalls.given_step hd service
  | serves hcall hd h =>
    obtain ⟨p, -, rfl⟩ := Option.map_eq_some_iff.mp h
    exact RemoteCalls.given_step hd service
  | telegram h =>
    obtain ⟨p, -, rfl⟩ := Option.map_eq_some_iff.mp h
    exact (List.append_nil _).symm

private theorem inv_step {e : Event} (hs : s.Inv printDouble)
    (hstep : step printDouble s e = some s') : s'.Inv printDouble := by
  cases step_cases hstep with
  | calls hd hserve hgiven =>
    refine ⟨?_, hs.texts, hs.waiting⟩
    exact (RemoteCalls.served_step_of_ne hserve hd).trans hs.served
  | @serves call d _ hcall hd h =>
    have hwaiting := waiting_happens (s := { s with dbus := d }) hs.waiting h
    obtain ⟨p, -, rfl⟩ := Option.map_eq_some_iff.mp h
    refine ⟨?_, ?_, hwaiting⟩
    · obtain ⟨awaited, call', onward, honward, hserved⟩ := RemoteCalls.served_serve hd
      rw [nextText, honward] at hcall
      obtain rfl := Option.some.inj hcall
      dsimp only [textCalls]
      rw [hserved, hs.served, List.filterMap_append]
      rfl
    · intro text htext result hresult
      rcases List.mem_append.mp htext with htext | htext
      · exact hs.texts text htext result hresult
      · obtain rfl := List.mem_singleton.mp htext
        obtain rfl := Option.some.inj hresult
        exact ⟨rfl, rfl⟩
  | @telegram e _ h =>
    have hwaiting := waiting_happens hs.waiting h
    obtain ⟨p, -, rfl⟩ := Option.map_eq_some_iff.mp h
    have hsource := source_textCalls s.telegram e
    refine ⟨?_, fun text htext call hcall ↦ ?_, hwaiting⟩
    · dsimp only
      rw [List.filterMap_append, hs.served, List.filterMap_eq_nil_iff.mpr hsource, List.append_nil]
    · rcases List.mem_append.mp htext with htext | htext
      · exact hs.texts text htext call hcall
      · rw [hsource text htext] at hcall
        cases hcall

/-- In every run of both services with their senders, `price_result_stream_t` and the Telegram
client, whatever D-Bus calls are lost or given up: the results of a service are handed over in
their order, one after the other. For those whose calls have returned, and perhaps for the one
that its sender waits for, the Telegram client has been called, once each and in this order, with
the texts that they are printed as; all others are still in the container. A text waits in
the Telegram client only if it has been called with it while the authorization was granted. -/
theorem delivered_of_run {phoneNumber : Bytes} {events : List Event}
    (hrun : Transition.run (step printDouble) (start phoneNumber) events = some s) :
    (∀ service,
      events.flatMap (Event.sentBy service) = (s.dbus.client service).done ++
          (s.dbus.client service).calling.toList ++ (s.dbus.client service).outbox ∧
        (s.textsOf service = (s.dbus.client service).done ∨
          s.textsOf service =
            (s.dbus.client service).done ++ (s.dbus.client service).calling.toList)) ∧
    (∀ text ∈ s.texts, ∀ call ∈ text.source,
      text.chatId = chatId ∧ text.content = call.2.text printDouble) ∧
    s.Waiting := by
  have hinv : s.Inv printDouble := by
    refine Transition.inv_run (fun _ _ _ ↦ inv_step) ?_ hrun
    exact ⟨rfl, List.forall_mem_nil _, List.forall_mem_nil _⟩
  refine ⟨fun service ↦ ?_, hinv.texts, hinv.waiting⟩
  obtain ⟨es, hes⟩ := Transition.exists_run_of_component (f := Delivery.dbus)
    (fun _ _ _ ↦ dbus_step) hrun
  have horderly := RemoteCalls.orderly_run hes service
  have hgiven := Transition.log_run (f := fun s ↦ (s.dbus.client service).given)
    (fun _ _ _ h ↦ given_step h service) hrun
  constructor
  · rw [← horderly.given]
    exact hgiven.symm
  · rw [textsOf, ← hinv.served]
    exact horderly.served

/-- A price of the time service. -/
private def quotedPrice : TaskResult :=
  .time { task := { processAssignedId := 1, time := 60000, durationEnum := 1, tradeTypeEnum := 1,
                    exchangeEnum := 0, taskStatusEnum := 0, taskId := [1], userId := [117],
                    tokens := [bytes "BTC"] }
          tokens := [{ name := bytes "BTC", price := 2, open24h := 1 }] }

/-- A price that the progress service reports. -/
private def reportedPrice : TaskResult :=
  .progress { task := { processAssignedId := 2, percentage := 10, directionEnum := 0,
                        tradeTypeEnum := 1, exchangeEnum := 0, taskStatusEnum := 0,
                        taskId := [2], userId := [117], tokens := [bytes "BTC"] }
              tokens := [{ name := bytes "BTC", price := 3, open24h := 1 }] }

/-- The first result reaches a client that is not authorized yet. The second reaches it after its
sender has given up. -/
private def servedLate : List Event :=
  [.sendPriceTaskResult quotedPrice, .dbus (.call .time), .dbus .relay, .dbus .serve,
    .dbus .relayReturns, .dbus (.returns .time),
    .telegram (.receive (some (.updateAuthorizationState .ready))),
    .sendPriceTaskResult reportedPrice, .dbus (.call .progress), .dbus .relay,
    .dbus .relayGivesUp, .dbus (.fails .progress), .dbus .serve]

/-- Every number is printed as a one. -/
private def printOne : ℚ → Bytes := fun _ ↦ bytes "1"

/-- The client has been called for both, and only the second waits in it. -/
theorem delivered_of_run_servedLate :
    ∃ s, Transition.run (step printOne) (start []) servedLate = some s ∧
      s.textsOf .time = [quotedPrice] ∧ (s.dbus.client .time).done = [quotedPrice] ∧
      s.textsOf .progress = [reportedPrice] ∧ (s.dbus.client .progress).done = [] ∧
      s.telegram.tg.client.map TelegramClient.Query.request =
        [.sendMessage chatId (reportedPrice.text printOne)] ∧
      (∀ text ∈ s.texts, ∀ call ∈ text.source,
        text.chatId = chatId ∧ text.content = call.2.text printOne) ∧ s.Waiting := by
  have hrun : (Transition.run (step printOne) (start []) servedLate).map (fun s ↦
      (s.textsOf .time, (s.dbus.client .time).done, s.textsOf .progress,
        (s.dbus.client .progress).done,
        s.telegram.tg.client.map TelegramClient.Query.request)) =
      some ([quotedPrice], [quotedPrice], [reportedPrice], [],
        [.sendMessage chatId (reportedPrice.text printOne)]) := by
    decide +kernel
  obtain ⟨s, hs, hends⟩ := Option.map_eq_some_iff.mp hrun
  obtain ⟨htime, hends⟩ := Prod.mk.inj hends
  obtain ⟨htimeDone, hends⟩ := Prod.mk.inj hends
  obtain ⟨hprogress, hends⟩ := Prod.mk.inj hends
  obtain ⟨hprogressDone, hclient⟩ := Prod.mk.inj hends
  exact ⟨s, hs, htime, htimeDone, hprogress, hprogressDone, hclient, (delivered_of_run hs).2⟩

end Delivery

end KeepMyJournal.PriceResultStream
