import KeepMyJournal.PriceMonitor.ExternalMessaging
import KeepMyJournal.PriceMonitor.Feeding

/-!
# The way of a price

From the streams of an exchange through its sink to the sender
(`store_exchanges_price_into_storage`,
`price_monitor/src/external_messaging_stream.cpp:19–53`), and over the socket to the caches of the
processes that watch its prices (`exchangesPriceWatcher` of `http_stream`, `time_tasks` and
`progress_tasks`). All of them run interleaved. The socket keeps the order of its messages and may
lose any of them for any watcher.
-/

namespace KeepMyJournal.PriceMonitor

open KeepMyJournal.Base KeepMyJournal.Base.Shared KeepMyJournal.Common

universe u v

/-- The streams `ι` of one exchange with its sink, the sender, and the watchers `ν`. With a watcher
stands what it has inserted so far. -/
structure Distribution (ι : Type u) (ν : Type v) (σ ω : Type) where
  streams : System ι σ ω InstrumentType
  serialBuffer : Bytes := []
  sending : Option InstrumentType := none
  inTransit : ν → List Bytes := fun _ ↦ []
  instruments : ν → InstrumentSet := fun _ ↦ UniqueElements.empty
  inserted : ν → List InstrumentType := fun _ ↦ []

namespace Distribution

variable {ι : Type u} {ν : Type v} {σ ω ρ : Type}

/-- A stream moves; the sender takes an instrument, sends its message to the watchers it reaches,
or fails to send it; a watcher receives a message. -/
inductive Event (ι : Type u) (ν : Type v) (ω ρ : Type) where
  | stream (i : ι) (m : Move ω ρ InstrumentType)
  | get
  | send (reaches : ν → Bool)
  | sendFails
  | receive (watcher : ν)

variable (pack : InstrumentType → Bytes) (unpack : Bytes → Option InstrumentType)

/-- What the socket is handed for an instrument: the message of one iteration of the loop. -/
def view (s : Distribution ι ν σ ω) (instrument : InstrumentType) : List Bytes :=
  (storeExchangesPrice pack s.serialBuffer [{ instrument := instrument, sent := true }]).map
    Message.view

variable [DecidableEq ι] [DecidableEq ν] [DecidableEq ω]

/-- A watcher has received a message; what cannot be converted is only logged. -/
def received (s : Distribution ι ν σ ω) (watcher : ν) :
    Option InstrumentType → Distribution ι ν σ ω
  | none => s
  | some instrument =>
    { s with
      instruments := Function.update s.instruments watcher
        ((s.instruments watcher).insert instrument)
      inserted := Function.update s.inserted watcher (s.inserted watcher ++ [instrument]) }

/-- One step. -/
def step (h : Handler σ ω ρ InstrumentType) (s : Distribution ι ν σ ω) :
    Event ι ν ω ρ → Option (Distribution ι ν σ ω)
  | .stream i m => (Shared.step h s.streams (.move i m)).map fun streams ↦
      { s with streams := streams }
  | .get =>
    match s.sending, s.streams.queue with
    | none, instrument :: _ => (Shared.step h s.streams .take).map fun streams ↦
        { s with streams := streams, sending := some instrument }
    | _, _ => none
  | .send reaches => s.sending.map fun instrument ↦
      { s with
        serialBuffer := []
        sending := none
        inTransit := fun watcher ↦
          s.inTransit watcher ++ if reaches watcher then s.view pack instrument else [] }
  | .sendFails => s.sending.map fun instrument ↦
      { s with serialBuffer := s.serialBuffer ++ pack instrument, sending := none }
  | .receive watcher =>
    match s.inTransit watcher with
    | [] => none
    | view :: rest =>
      some (received { s with inTransit := Function.update s.inTransit watcher rest } watcher
        (unpack view))

/-- Before the first steps, with empty caches. -/
def start (process : ι → Process σ ω InstrumentType) : Distribution ι ν σ ω :=
  { streams := { process := process } }

variable {pack unpack} {h : Handler σ ω ρ InstrumentType} {s s' : Distribution ι ν σ ω}

private theorem step_get (hstep : step pack unpack h s .get = some s') :
    ∃ instrument rest, s.sending = none ∧ s.streams.queue = instrument :: rest ∧
      s' = { s with
        streams :=
          { s.streams with queue := rest, taken := s.streams.taken ++ [instrument] }
        sending := some instrument } := by
  unfold step at hstep
  dsimp only at hstep
  split at hstep
  · next instrument rest hsending hqueue =>
    obtain ⟨streams, hstreams, rfl⟩ := Option.map_eq_some_iff.mp hstep
    obtain ⟨a, others, hq, rfl⟩ := step_take hstreams
    obtain ⟨rfl, rfl⟩ := List.cons.inj (hqueue.symm.trans hq)
    exact ⟨instrument, rest, hsending, hqueue, rfl⟩
  · cases hstep

private theorem step_receive {watcher : ν}
    (hstep : step pack unpack h s (.receive watcher) = some s') :
    ∃ view rest, s.inTransit watcher = view :: rest ∧
      s' = received { s with inTransit := Function.update s.inTransit watcher rest } watcher
        (unpack view) := by
  unfold step at hstep
  dsimp only at hstep
  split at hstep
  · cases hstep
  · next view rest htransit => exact ⟨view, rest, htransit, (Option.some.inj hstep).symm⟩

/-- A step leaves a watcher as it is, or has it insert one instrument. -/
theorem watched_step {e : Event ι ν ω ρ} (hstep : step pack unpack h s e = some s')
    (watcher : ν) :
    s'.inserted watcher = s.inserted watcher ∧ s'.instruments watcher = s.instruments watcher ∨
      ∃ instrument, s'.inserted watcher = s.inserted watcher ++ [instrument] ∧
        s'.instruments watcher = (s.instruments watcher).insert instrument := by
  cases e with
  | stream i m =>
    obtain ⟨streams, -, rfl⟩ := Option.map_eq_some_iff.mp hstep
    exact .inl ⟨rfl, rfl⟩
  | get =>
    obtain ⟨instrument, rest, -, -, rfl⟩ := step_get hstep
    exact .inl ⟨rfl, rfl⟩
  | send reaches =>
    obtain ⟨instrument, -, rfl⟩ := Option.map_eq_some_iff.mp hstep
    exact .inl ⟨rfl, rfl⟩
  | sendFails =>
    obtain ⟨instrument, -, rfl⟩ := Option.map_eq_some_iff.mp hstep
    exact .inl ⟨rfl, rfl⟩
  | receive receiver =>
    obtain ⟨view, rest, -, rfl⟩ := step_receive hstep
    cases unpack view with
    | none => exact .inl ⟨rfl, rfl⟩
    | some instrument =>
      unfold received
      dsimp only
      by_cases hwatcher : watcher = receiver
      · subst hwatcher
        refine .inr ⟨instrument, ?_, ?_⟩
        · rw [Function.update_self]
        · rw [Function.update_self]
      · refine .inl ⟨?_, ?_⟩
        · rw [Function.update_of_ne hwatcher]
        · rw [Function.update_of_ne hwatcher]

/-- The cache of the watcher is what its insertions make of an empty one. -/
def Cached (s : Distribution ι ν σ ω) (watcher : ν) : Prop :=
  s.instruments watcher = UniqueElements.empty.run ((s.inserted watcher).map .insert)

/-- A watcher only ever inserts more. -/
theorem cached_step {e : Event ι ν ω ρ} {watcher : ν} (hs : s.Cached watcher)
    (hstep : step pack unpack h s e = some s') :
    s.inserted watcher <+: s'.inserted watcher ∧ s'.Cached watcher := by
  unfold Cached at hs ⊢
  rcases watched_step hstep watcher with ⟨hins, hcache⟩ | ⟨instrument, hins, hcache⟩
  · rw [hins, hcache]
    exact ⟨List.prefix_rfl, hs⟩
  · rw [hins, hcache, hs]
    refine ⟨List.prefix_append _ _, ?_⟩
    unfold UniqueElements.run
    rw [List.map_append, List.foldl_append]
    rfl

/-! ### The order of the instruments -/

/-- What has been taken or is queued has been appended in this order. -/
def Taken (s : System ι σ ω InstrumentType) : Prop := (s.taken ++ s.queue).Sublist s.appended

omit [DecidableEq ι] [DecidableEq ω] in
private theorem taken_effect {streams : System ι σ ω InstrumentType} (hs : Taken streams)
    (m : Move ω ρ InstrumentType) :
    Taken (m.effect streams) ∧ (m.effect streams).taken = streams.taken ∧
      streams.appended <+: (m.effect streams).appended := by
  cases m with
  | complete op result empty => exact ⟨hs, rfl, List.prefix_refl _⟩
  | act action rest started =>
    cases action with
    | append a =>
      refine ⟨?_, rfl, List.prefix_append _ _⟩
      change (streams.taken ++ (streams.queue ++ [a])).Sublist (streams.appended ++ [a])
      rw [← List.append_assoc]
      exact hs.append (List.Sublist.refl [a])
    | clear =>
      refine ⟨?_, rfl, List.prefix_refl _⟩
      change (streams.taken ++ []).Sublist streams.appended
      rw [List.append_nil]
      exact (List.sublist_append_left _ _).trans hs
    | throw => exact ⟨hs, rfl, List.prefix_refl _⟩

/-- A step of any thread keeps the order in the sink, and only adds to what has been appended. -/
private theorem taken_step {e : Event ι ν ω ρ} (hs : Taken s.streams)
    (hstep : step pack unpack h s e = some s') :
    Taken s'.streams ∧ s.streams.appended <+: s'.streams.appended := by
  cases e with
  | stream i m =>
    obtain ⟨streams, hstreams, rfl⟩ := Option.map_eq_some_iff.mp hstep
    obtain ⟨-, p, -, rfl⟩ := step_move hstreams
    obtain ⟨htaken, -, happended⟩ := taken_effect hs m
    exact ⟨htaken, happended⟩
  | get =>
    obtain ⟨instrument, rest, -, hqueue, rfl⟩ := step_get hstep
    refine ⟨?_, List.prefix_refl _⟩
    unfold Taken at hs ⊢
    rw [hqueue] at hs
    dsimp only
    rw [List.append_assoc]
    exact hs
  | send reaches =>
    obtain ⟨instrument, -, rfl⟩ := Option.map_eq_some_iff.mp hstep
    exact ⟨hs, List.prefix_refl _⟩
  | sendFails =>
    obtain ⟨instrument, -, rfl⟩ := Option.map_eq_some_iff.mp hstep
    exact ⟨hs, List.prefix_refl _⟩
  | receive watcher =>
    obtain ⟨view, rest, -, rfl⟩ := step_receive hstep
    cases unpack view with
    | none => exact ⟨hs, List.prefix_refl _⟩
    | some instrument => exact ⟨hs, List.prefix_refl _⟩

/-- The messages on their way to a watcher are packed instruments, perhaps with others behind
them; what it has inserted, what is on its way, what is left over in the buffer and what is being
sent has been taken from the sink in this order. -/
structure InOrder (pack : InstrumentType → Bytes) (s : Distribution ι ν σ ω) (watcher : ν)
    (inTransit unsent : List InstrumentType) : Prop where
  views : List.Forall₂ (fun view instrument ↦ ∃ rest, view = pack instrument ++ rest)
    (s.inTransit watcher) inTransit
  buffer : s.serialBuffer = unsent.flatMap pack
  taken : (s.inserted watcher ++ inTransit ++ unsent ++ s.sending.toList).Sublist s.streams.taken
  cached : s.instruments watcher =
    UniqueElements.empty.run ((s.inserted watcher).map .insert)

variable {watcher : ν} {inTransit unsent : List InstrumentType}

omit [DecidableEq ι] [DecidableEq ν] [DecidableEq ω] in
/-- A message begins with the first instrument that has not been sent. -/
private theorem view_eq (instrument : InstrumentType)
    (hbuffer : s.serialBuffer = unsent.flatMap pack) :
    ∃ first rest, [first].Sublist (unsent ++ [instrument]) ∧
      s.view pack instrument = [pack first ++ rest] := by
  change ∃ first rest, _ ∧ [s.serialBuffer ++ pack instrument] = _
  rw [hbuffer]
  cases unsent with
  | nil => exact ⟨instrument, [], List.Sublist.refl _, by simp⟩
  | cons first others =>
    refine ⟨first, others.flatMap pack ++ pack instrument, ?_, by simp⟩
    exact (List.nil_sublist _).cons_cons first

omit [DecidableEq ι] [DecidableEq ν] [DecidableEq ω] in
/-- A message that is sent ends what was left over, whether it reaches the watcher or not. -/
private theorem InOrder.send (hs : InOrder pack s watcher inTransit unsent)
    {instrument : InstrumentType} (hsending : s.sending = some instrument) (reaches : ν → Bool) :
    ∃ inTransit unsent, InOrder pack
      { s with
        serialBuffer := []
        sending := none
        inTransit := fun watcher ↦
          s.inTransit watcher ++ if reaches watcher then s.view pack instrument else [] }
      watcher inTransit unsent := by
  obtain ⟨first, rest, hfirst, hview⟩ := view_eq instrument hs.buffer
  have htaken := hs.taken
  rw [hsending, Option.toList_some, List.append_assoc] at htaken
  by_cases hreaches : reaches watcher = true
  · refine ⟨inTransit ++ [first], [], ⟨?_, rfl, ?_, hs.cached⟩⟩
    · dsimp only
      rw [if_pos hreaches, hview]
      exact List.rel_append hs.views (.cons ⟨rest, rfl⟩ .nil)
    · simp only [Option.toList_none, List.append_nil]
      rw [← List.append_assoc]
      exact (hfirst.append_left _).trans htaken
  · refine ⟨inTransit, [], ⟨?_, rfl, ?_, hs.cached⟩⟩
    · dsimp only
      rw [if_neg hreaches, List.append_nil]
      exact hs.views
    · simp only [Option.toList_none, List.append_nil]
      exact (List.sublist_append_left _ _).trans htaken

omit [DecidableEq ι] [DecidableEq ω] in
/-- A watcher inserts the instrument its first message begins with, and no other one notices. -/
private theorem InOrder.receive (hs : InOrder pack s watcher inTransit unsent)
    (hunpack : ∀ instrument ∈ s.streams.taken, ∀ rest,
      unpack (pack instrument ++ rest) = some instrument)
    {receiver : ν} {view : Bytes} {rest : List Bytes}
    (htransit : s.inTransit receiver = view :: rest) :
    ∃ inTransit, InOrder pack
      (received { s with inTransit := Function.update s.inTransit receiver rest } receiver
        (unpack view)) watcher inTransit unsent := by
  by_cases hwatcher : watcher = receiver
  · subst hwatcher
    have hviews := hs.views
    rw [htransit] at hviews
    obtain ⟨first, others, ⟨more, rfl⟩, hothers, rfl⟩ := List.forall₂_cons_left_iff.mp hviews
    have hmem : first ∈ s.streams.taken := hs.taken.subset (by simp)
    rw [hunpack first hmem more]
    refine ⟨others, ⟨?_, hs.buffer, ?_, ?_⟩⟩
    · unfold received
      dsimp only
      rw [Function.update_self]
      exact hothers
    · unfold received
      dsimp only
      have htaken := hs.taken
      rw [List.append_cons] at htaken
      rw [Function.update_self]
      exact htaken
    · unfold received
      dsimp only
      rw [Function.update_self, Function.update_self, hs.cached, List.map_append,
        UniqueElements.run, UniqueElements.run, List.foldl_append]
      rfl
  · refine ⟨inTransit, ?_⟩
    have hviews : List.Forall₂ (fun view instrument ↦ ∃ rest, view = pack instrument ++ rest)
        (Function.update s.inTransit receiver rest watcher) inTransit := by
      rw [Function.update_of_ne hwatcher]
      exact hs.views
    cases unpack view with
    | none => exact ⟨hviews, hs.buffer, hs.taken, hs.cached⟩
    | some instrument =>
      refine ⟨hviews, hs.buffer, ?_, ?_⟩
      · unfold received
        dsimp only
        rw [Function.update_of_ne hwatcher]
        exact hs.taken
      · unfold received
        dsimp only
        rw [Function.update_of_ne hwatcher, Function.update_of_ne hwatcher]
        exact hs.cached

/-- A step of any thread keeps the order, as long as what has been taken can be unpacked. -/
private theorem inOrder_step {e : Event ι ν ω ρ} (hs : InOrder pack s watcher inTransit unsent)
    (hunpack : ∀ instrument ∈ s.streams.taken, ∀ rest,
      unpack (pack instrument ++ rest) = some instrument)
    (hstep : step pack unpack h s e = some s') :
    ∃ inTransit unsent, InOrder pack s' watcher inTransit unsent := by
  cases e with
  | stream i m =>
    obtain ⟨streams, hstreams, rfl⟩ := Option.map_eq_some_iff.mp hstep
    obtain ⟨-, p, -, rfl⟩ := step_move hstreams
    refine ⟨inTransit, unsent, ⟨hs.views, hs.buffer, ?_, hs.cached⟩⟩
    have htaken : (m.effect s.streams).taken = s.streams.taken := by
      cases m with
      | complete op result empty => rfl
      | act action rest started => cases action <;> rfl
    dsimp only
    rw [htaken]
    exact hs.taken
  | get =>
    obtain ⟨instrument, rest, hsending, -, rfl⟩ := step_get hstep
    refine ⟨inTransit, unsent, ⟨hs.views, hs.buffer, ?_, hs.cached⟩⟩
    have htaken := hs.taken
    rw [hsending, Option.toList_none, List.append_nil] at htaken
    exact htaken.append (List.Sublist.refl [instrument])
  | send reaches =>
    obtain ⟨instrument, hsending, rfl⟩ := Option.map_eq_some_iff.mp hstep
    exact hs.send hsending reaches
  | sendFails =>
    obtain ⟨instrument, hsending, rfl⟩ := Option.map_eq_some_iff.mp hstep
    refine ⟨inTransit, unsent ++ [instrument], ⟨hs.views, ?_, ?_, hs.cached⟩⟩
    · dsimp only
      rw [hs.buffer, List.flatMap_append, List.flatMap_singleton]
    · have htaken := hs.taken
      rw [hsending] at htaken
      rw [Option.toList_none, List.append_nil, ← List.append_assoc]
      exact htaken
  | receive receiver =>
    obtain ⟨view, rest, htransit, rfl⟩ := step_receive hstep
    obtain ⟨inTransit, hs'⟩ := hs.receive hunpack htransit
    exact ⟨inTransit, unsent, hs'⟩

private theorem inOrder_run {process : ι → Process σ ω InstrumentType}
    {events : List (Event ι ν ω ρ)}
    (hrun : Transition.run (step pack unpack h) (start process) events = some s)
    (hunpack : ∀ instrument ∈ s.streams.appended, ∀ rest,
      unpack (pack instrument ++ rest) = some instrument) (watcher : ν) :
    Taken s.streams ∧ ∃ inTransit unsent, InOrder pack s watcher inTransit unsent := by
  have hinv := Transition.inv_run (I := fun s ↦ Taken s.streams ∧
    ((∀ instrument ∈ s.streams.appended, ∀ rest,
      unpack (pack instrument ++ rest) = some instrument) →
        ∃ inTransit unsent, InOrder pack s watcher inTransit unsent)) ?_ ?_ hrun
  · exact ⟨hinv.1, hinv.2 hunpack⟩
  · rintro s e s' ⟨htaken, hs⟩ hstep
    obtain ⟨htaken', happended⟩ := taken_step htaken hstep
    refine ⟨htaken', fun hunpack ↦ ?_⟩
    -- what has been appended before can be unpacked as well
    have hbefore := fun instrument hmem ↦ hunpack instrument (happended.subset hmem)
    obtain ⟨inTransit, unsent, hs⟩ := hs hbefore
    refine inOrder_step hs (fun instrument hmem ↦ hbefore instrument ?_) hstep
    exact htaken.subset (List.mem_append_left _ hmem)
  · exact ⟨List.Sublist.refl [], fun _ ↦ ⟨[], [], ⟨.nil, rfl, List.Sublist.refl [], rfl⟩⟩⟩

omit [DecidableEq ι] [DecidableEq ω] [DecidableEq ν] in
/-- The cache lists the last of each name and trade type that has been inserted. -/
private theorem InOrder.mem_toList_iff (hs : InOrder pack s watcher inTransit unsent)
    (instrument : InstrumentType) : instrument ∈ (s.instruments watcher).toList ↔
      UniqueElements.IsLast InstrumentType.key (s.inserted watcher) instrument := by
  rw [hs.cached, UniqueElements.mem_toList_run_iff, UniqueElements.sinceClear_map_insert]

/-- What a watcher has inserted has been appended by the streams, in this order. -/
theorem inserted_sublist {process : ι → Process σ ω InstrumentType}
    {events : List (Event ι ν ω ρ)}
    (hrun : Transition.run (step pack unpack h) (start process) events = some s)
    (hunpack : ∀ instrument ∈ s.streams.appended, ∀ rest,
      unpack (pack instrument ++ rest) = some instrument) (watcher : ν) :
    (s.inserted watcher).Sublist s.streams.appended := by
  obtain ⟨hqueue, inTransit, unsent, hs⟩ := inOrder_run hrun hunpack watcher
  have htaken := hs.taken
  rw [List.append_assoc, List.append_assoc] at htaken
  exact ((List.sublist_append_left _ _).trans htaken).trans
    ((List.sublist_append_left _ _).trans hqueue)

/-- In every run of all threads of an exchange, whatever messages are lost or cannot be sent: each
watcher has inserted instruments that the streams have appended, in the order in which they have
appended them, and its cache lists of each name and trade type the last that it has inserted. -/
theorem inserted_of_run {process : ι → Process σ ω InstrumentType} {events : List (Event ι ν ω ρ)}
    (hrun : Transition.run (step pack unpack h) (start process) events = some s)
    (hunpack : ∀ instrument ∈ s.streams.appended, ∀ rest,
      unpack (pack instrument ++ rest) = some instrument) (watcher : ν) :
    (s.inserted watcher).Sublist s.streams.appended ∧
      ∀ instrument, instrument ∈ (s.instruments watcher).toList ↔
        UniqueElements.IsLast InstrumentType.key (s.inserted watcher) instrument := by
  obtain ⟨-, inTransit, unsent, hs⟩ := inOrder_run hrun hunpack watcher
  exact ⟨inserted_sublist hrun hunpack watcher, hs.mem_toList_iff⟩

/-- The processes that watch the prices. -/
inductive PriceWatcher where
  | httpStream | timeTasks | progressTasks
  deriving DecidableEq, Repr

/-- A message with the tickers of two instruments, each at a half. -/
private def twoTickers : JsonParse := fun _ ↦
  .ok (.array (["BTC", "ETH"].map fun name ↦ .object [(bytes "s", .string (bytes name)),
    (bytes "c", .string (bytes "0.5")), (bytes "o", .string (bytes "0.25"))]))

/-- `std::stod` on the texts of these tickers. -/
private def readHalf : Bytes → Except StdException ℚ := fun text ↦
  if text = bytes "0.5" then .ok (1 / 2) else .ok (1 / 4)

/-- The streams of Binance with their websockets connected. -/
private def connected (i : BinanceWatcher) :
    Process Binance.BinanceStream Binance.StreamOp InstrumentType :=
  { object := { tradeType := i.tradeType }, tasks := [.op .read] }

/-- The spot stream receives the message and appends the first ticker. -/
private def firstTicker :
    List (Event BinanceWatcher PriceWatcher Binance.StreamOp Okex.Delivery) :=
  [.stream .spot (.complete .read (.completed (.success [])) true),
    .stream .spot (.act (.append (halfPriced (bytes "BTC")))
      [.append (halfPriced (bytes "ETH"))] [.read])]

/-- The spot stream appends the second ticker. -/
private def secondTicker : Event BinanceWatcher PriceWatcher Binance.StreamOp Okex.Delivery :=
  .stream .spot (.act (.append (halfPriced (bytes "ETH"))) [] [.read])

/-- The two instruments of the message. -/
private def halves : List InstrumentType := [halfPriced (bytes "BTC"), halfPriced (bytes "ETH")]

private theorem unpack_halves {instrument : InstrumentType} (h : instrument ∈ halves)
    (rest : Bytes) : unpackHalfPriced (packHalfPriced instrument ++ rest) = some instrument := by
  rcases List.mem_pair.mp h with rfl | rfl
  · rfl
  · rfl

/-- The first message cannot be sent. -/
private def firstFails : List (Event BinanceWatcher PriceWatcher Binance.StreamOp Okex.Delivery) :=
  firstTicker ++ [.get, .sendFails, secondTicker, .get,
    .send (fun watcher ↦ watcher == .timeTasks), .receive .timeTasks]

/-- The watcher that the second message reaches inserts the first instrument, and never learns of
the second. -/
theorem inserted_of_run_firstFails :
    ∃ s, Transition.run (step packHalfPriced unpackHalfPriced
        (Binance.BinanceStream.complete twoTickers readHalf)) (start connected) firstFails =
          some s ∧
      (s.inserted .timeTasks).Sublist s.streams.appended ∧
      s.streams.appended = halves ∧ s.inserted .timeTasks = [halfPriced (bytes "BTC")] := by
  have hrun : (Transition.run (step packHalfPriced unpackHalfPriced
      (Binance.BinanceStream.complete twoTickers readHalf)) (start connected) firstFails).map
      (fun s ↦ (s.streams.appended, s.inserted .timeTasks)) =
        some (halves, [halfPriced (bytes "BTC")]) := by decide +kernel
  obtain ⟨s, hs, hlists⟩ := Option.map_eq_some_iff.mp hrun
  obtain ⟨happended, hinserted⟩ := Prod.mk.inj hlists
  refine ⟨s, hs, (inserted_of_run hs ?_ .timeTasks).1, happended, hinserted⟩
  intro instrument hmem
  exact unpack_halves (happended ▸ hmem)

/-! ### When nothing is lost -/

omit [DecidableEq ι] [DecidableEq ν] [DecidableEq ω] in
/-- At the step nothing is lost on the way to the watcher: no stream clears a sink that holds
something, and every message is sent and reaches it. -/
def Lossless (watcher : ν) (s : Distribution ι ν σ ω) : Event ι ν ω ρ → Distribution ι ν σ ω → Prop
  | .stream _ (.act .clear _ _), _ => s.streams.queue = []
  | .send reaches, _ => reaches watcher = true
  | .sendFails, _ => False
  | _, _ => True

instance (watcher : ν) (s : Distribution ι ν σ ω) (e : Event ι ν ω ρ)
    (s' : Distribution ι ν σ ω) : Decidable (Lossless watcher s e s') := by
  unfold Lossless
  split <;> infer_instance

/-- Every instrument that has been appended has been inserted, or is on its way. -/
structure Accounted (pack : InstrumentType → Bytes) (s : Distribution ι ν σ ω) (watcher : ν)
    (inTransit : List InstrumentType) : Prop where
  buffer : s.serialBuffer = []
  views : s.inTransit watcher = inTransit.map pack
  appended : s.inserted watcher ++ inTransit ++ s.sending.toList ++ s.streams.queue =
    s.streams.appended

omit [DecidableEq ι] [DecidableEq ν] [DecidableEq ω] in
private theorem Accounted.effect (hs : Accounted pack s watcher inTransit)
    (m : Move ω ρ InstrumentType)
    (hlossless : ∀ rest started, m = .act .clear rest started → s.streams.queue = []) :
    s.inserted watcher ++ inTransit ++ s.sending.toList ++ (m.effect s.streams).queue =
      (m.effect s.streams).appended := by
  cases m with
  | complete op result empty => exact hs.appended
  | act action rest started =>
    cases action with
    | append a =>
      change _ ++ (s.streams.queue ++ [a]) = s.streams.appended ++ [a]
      rw [← hs.appended, List.append_assoc _ s.streams.queue]
    | clear =>
      have happended := hs.appended
      rw [hlossless rest started rfl] at happended
      exact happended
    | throw => exact hs.appended

private theorem accounted_step {e : Event ι ν ω ρ} (hs : Accounted pack s watcher inTransit)
    (hunpack : ∀ instrument ∈ s.streams.appended, ∀ rest,
      unpack (pack instrument ++ rest) = some instrument)
    (hstep : step pack unpack h s e = some s') (hlossless : Lossless watcher s e s') :
    ∃ inTransit, Accounted pack s' watcher inTransit := by
  cases e with
  | stream i m =>
    obtain ⟨streams, hstreams, rfl⟩ := Option.map_eq_some_iff.mp hstep
    obtain ⟨-, p, -, rfl⟩ := step_move hstreams
    refine ⟨inTransit, ⟨hs.buffer, hs.views, hs.effect m ?_⟩⟩
    rintro rest started rfl
    exact hlossless
  | get =>
    obtain ⟨instrument, rest, hsending, hqueue, rfl⟩ := step_get hstep
    refine ⟨inTransit, ⟨hs.buffer, hs.views, ?_⟩⟩
    have happended := hs.appended
    rw [hsending, hqueue, Option.toList_none, List.append_nil] at happended
    rw [Option.toList_some, List.append_assoc _ [instrument]]
    exact happended
  | send reaches =>
    obtain ⟨instrument, hsending, rfl⟩ := Option.map_eq_some_iff.mp hstep
    refine ⟨inTransit ++ [instrument], ⟨rfl, ?_, ?_⟩⟩
    · have hview : s.view pack instrument = [s.serialBuffer ++ pack instrument] := rfl
      have hreaches : reaches watcher = true := hlossless
      dsimp only
      rw [if_pos hreaches, hview, hs.buffer, hs.views, List.map_append]
      rfl
    · have happended := hs.appended
      rw [hsending] at happended
      rw [Option.toList_none, List.append_nil, ← List.append_assoc]
      exact happended
  | sendFails => cases hlossless
  | receive receiver =>
    obtain ⟨view, rest, htransit, rfl⟩ := step_receive hstep
    by_cases hwatcher : watcher = receiver
    · subst hwatcher
      rw [hs.views] at htransit
      obtain ⟨first, others, rfl, rfl, rfl⟩ := List.map_eq_cons_iff.mp htransit
      have hmem : first ∈ s.streams.appended := by
        rw [← hs.appended]
        simp
      have hread := hunpack first hmem []
      rw [List.append_nil] at hread
      rw [hread]
      refine ⟨others, ⟨hs.buffer, ?_, ?_⟩⟩
      · unfold received
        dsimp only
        rw [Function.update_self]
      · have happended := hs.appended
        rw [List.append_cons] at happended
        unfold received
        dsimp only
        rw [Function.update_self]
        exact happended
    · have hviews : Function.update s.inTransit receiver rest watcher = inTransit.map pack := by
        rw [Function.update_of_ne hwatcher]
        exact hs.views
      cases unpack view with
      | none => exact ⟨inTransit, ⟨hs.buffer, hviews, hs.appended⟩⟩
      | some instrument =>
        refine ⟨inTransit, ⟨hs.buffer, hviews, ?_⟩⟩
        unfold received
        dsimp only
        rw [Function.update_of_ne hwatcher]
        exact hs.appended

private theorem accounted_run {process : ι → Process σ ω InstrumentType}
    {events : List (Event ι ν ω ρ)}
    (hrun : Transition.run (step pack unpack h) (start process) events = some s)
    (hunpack : ∀ instrument ∈ s.streams.appended, ∀ rest,
      unpack (pack instrument ++ rest) = some instrument)
    (hlossless : Transition.Along (step pack unpack h) (Lossless watcher) (start process) events) :
    ∃ inTransit, Accounted pack s watcher inTransit := by
  have hinv := Transition.inv_run_of_along (I := fun s ↦ Taken s.streams ∧
    ((∀ instrument ∈ s.streams.appended, ∀ rest,
      unpack (pack instrument ++ rest) = some instrument) →
        ∃ inTransit, Accounted pack s watcher inTransit)) ?_ ?_ hlossless hrun
  · exact hinv.2 hunpack
  · rintro s e s' ⟨htaken, hs⟩ hstep hlossless
    obtain ⟨htaken', happended⟩ := taken_step htaken hstep
    refine ⟨htaken', fun hunpack ↦ ?_⟩
    have hbefore := fun instrument hmem ↦ hunpack instrument (happended.subset hmem)
    obtain ⟨inTransit, hs⟩ := hs hbefore
    exact accounted_step hs hbefore hstep hlossless
  · exact ⟨List.Sublist.refl [], fun _ ↦ ⟨[], ⟨rfl, rfl, rfl⟩⟩⟩

/-- In every run of all threads of an exchange in which nothing is lost on the way to a watcher:
what the streams have appended is what the watcher has inserted, then the messages on their way to
it, the instrument that is being sent and those in the sink; and once nothing is under way, its
cache lists the last of each name and trade type that any stream has appended. -/
theorem current_of_run {process : ι → Process σ ω InstrumentType} {events : List (Event ι ν ω ρ)}
    (hrun : Transition.run (step pack unpack h) (start process) events = some s)
    (hunpack : ∀ instrument ∈ s.streams.appended, ∀ rest,
      unpack (pack instrument ++ rest) = some instrument) (watcher : ν)
    (hlossless : Transition.Along (step pack unpack h) (Lossless watcher) (start process) events) :
    s.inserted watcher ++ (s.inTransit watcher).filterMap unpack ++ s.sending.toList ++
        s.streams.queue = s.streams.appended ∧
      (s.inTransit watcher = [] → s.sending = none → s.streams.queue = [] →
        ∀ instrument, instrument ∈ (s.instruments watcher).toList ↔
          UniqueElements.IsLast InstrumentType.key s.streams.appended instrument) := by
  obtain ⟨inTransit, hs⟩ := accounted_run hrun hunpack hlossless
  have hread : (s.inTransit watcher).filterMap unpack = inTransit := by
    rw [hs.views, List.filterMap_map]
    refine (List.filterMap_congr fun instrument hmem ↦ ?_).trans List.filterMap_some
    have hunpacked := hunpack instrument (hs.appended ▸ by simp [hmem]) []
    rw [List.append_nil] at hunpacked
    exact hunpacked
  constructor
  · rw [hread]
    exact hs.appended
  · intro htransit hsending hqueue instrument
    have happended := hs.appended
    rw [← hread, htransit, hsending, hqueue, List.filterMap_nil, Option.toList_none,
      List.append_nil, List.append_nil, List.append_nil] at happended
    obtain ⟨-, others, unsent, horder⟩ := inOrder_run hrun hunpack watcher
    rw [← happended]
    exact horder.mem_toList_iff instrument

/-- Both messages are sent to all. -/
private def bothSent : List (Event BinanceWatcher PriceWatcher Binance.StreamOp Okex.Delivery) :=
  firstTicker ++ [secondTicker, .get, .send (fun _ ↦ true), .get, .receive .httpStream,
    .send (fun _ ↦ true), .receive .httpStream]

/-- The watcher that has received both lists both. -/
theorem current_of_run_bothSent :
    ∃ s, Transition.run (step packHalfPriced unpackHalfPriced
        (Binance.BinanceStream.complete twoTickers readHalf)) (start connected) bothSent = some s ∧
      s.streams.appended = halves ∧
      ∀ instrument, instrument ∈ (s.instruments .httpStream).toList ↔
        UniqueElements.IsLast InstrumentType.key halves instrument := by
  have hrun : (Transition.run (step packHalfPriced unpackHalfPriced
      (Binance.BinanceStream.complete twoTickers readHalf)) (start connected) bothSent).map
      (fun s ↦ (s.streams.appended, s.inTransit .httpStream, s.sending, s.streams.queue)) =
        some (halves, [], none, []) := by decide +kernel
  obtain ⟨s, hs, hlists⟩ := Option.map_eq_some_iff.mp hrun
  obtain ⟨happended, hlists⟩ := Prod.mk.inj hlists
  obtain ⟨htransit, hlists⟩ := Prod.mk.inj hlists
  obtain ⟨hsending, hqueue⟩ := Prod.mk.inj hlists
  refine ⟨s, hs, happended, happended ▸ (current_of_run hs ?_ .httpStream
    (by decide +kernel)).2 htransit hsending hqueue⟩
  intro instrument hmem
  exact unpack_halves (happended ▸ hmem)

end Distribution

end KeepMyJournal.PriceMonitor
