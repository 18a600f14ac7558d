import KeepMyJournal.Base.Readings
import KeepMyJournal.PriceMonitor.Markets
import KeepMyJournal.PriceTasks.LivePrices
import KeepMyJournal.ProgressTasks.Alert

/-!
# From the exchanges to the notifications

The price streams of all exchanges, the caches of the time and of the progress service
(`exchangesPriceWatcher` of their `lastest_prices.cpp`), and the two services themselves, run
interleaved. `fetch_prices` copies the cache of its exchange at once; `check_prices` looks up each
snapshot by itself, and prices may arrive in between.
-/

namespace KeepMyJournal.PriceTasks

open KeepMyJournal.Base KeepMyJournal.Common KeepMyJournal.PriceMonitor
open KeepMyJournal.PriceMonitor.Distribution (PriceWatcher)

/-- The processes behind the price tasks. While `check_prices` runs, `checking` names its handler
and how many prices the cache of its exchange had taken when it began. -/
structure PriceSystem (ι σ ω : Exchange → Type) where
  distribution : ∀ exchange, Distribution (ι exchange) PriceWatcher (σ exchange) (ω exchange)
  timeTasks : WatchService TimeTasks.TimeWatch TimeTasks.ScheduledTimeTaskResult := {}
  progressTasks :
    WatchService ProgressTasks.ProgressWatch ProgressTasks.ScheduledProgressTaskResult := {}
  checking : Option (Handler Nat × Nat) := none

/-- An event of a service with what the constructor and the handler read. -/
def reading {δ κ ι : Type} (construct : δ → κ) (instruments : Handler Nat → ι → InstrumentSet) :
    WatchEvent δ ι → WatchEvent κ InstrumentSet
  | .schedule task => .schedule (construct task)
  | .expire watch => .expire watch
  | .runHandler handler i => .runHandler handler (instruments handler i)
  | .removeCall userId taskId => .removeCall userId taskId
  | .removeRound => .removeRound
  | .removeReturn => .removeReturn

namespace PriceSystem

variable {ι σ ω ρ : Exchange → Type}

/-- A step of the price streams or caches of an exchange, a step of the time service, the begin of
a handler of the progress service, or a step of the progress service: a handler ends, given what
its look-ups have found. -/
inductive Event (ι ω ρ : Exchange → Type) where
  | prices (exchange : Exchange)
    (e : Distribution.Event (ι exchange) PriceWatcher (ω exchange) (ρ exchange))
  | timeTasks (e : WatchEvent DbusTimeTask Unit)
  | checkPrices (handler : Handler Nat)
  | progressTasks (e : WatchEvent DbusProgressStruct InstrumentSet)

/-- What the streams of an exchange have appended. -/
def appended (s : PriceSystem ι σ ω) (exchange : Exchange) : List InstrumentType :=
  (s.distribution exchange).streams.appended

/-- What a process has inserted into its cache of an exchange. -/
def inserted (s : PriceSystem ι σ ω) (watcher : PriceWatcher) (exchange : Exchange) :
    List InstrumentType :=
  (s.distribution exchange).inserted watcher

/-- `uniqueInstruments` of a process. -/
def uniqueInstruments (s : PriceSystem ι σ ω) (watcher : PriceWatcher) : InstrumentExchangeSet :=
  fun exchange ↦ (s.distribution exchange).instruments watcher

/-- The cache into which these instruments have been inserted. -/
def cacheOf (items : List InstrumentType) : InstrumentSet :=
  UniqueElements.empty.run (items.map .insert)

/-- The look-up of a snapshot finds what the cache held at some moment from `since` on. -/
def FoundSince (items : List InstrumentType) (since : Nat) (instruments : InstrumentSet)
    (snapshot : InstrumentType) : Prop :=
  ∃ moment ∈ List.range (items.length + 1), since ≤ moment ∧
    instruments.findItem snapshot = (cacheOf (items.take moment)).findItem snapshot

instance (items : List InstrumentType) (since : Nat) (instruments : InstrumentSet)
    (snapshot : InstrumentType) : Decidable (FoundSince items since instruments snapshot) :=
  inferInstanceAs (Decidable (∃ moment ∈ List.range (items.length + 1), since ≤ moment ∧
    instruments.findItem snapshot = (cacheOf (items.take moment)).findItem snapshot))

/-- A handler of the progress service that ends has begun, and has looked its snapshots up since
then. -/
def Looked (s : PriceSystem ι σ ω) : WatchEvent DbusProgressStruct InstrumentSet → Prop
  | .runHandler handler instruments =>
    ∃ c ∈ s.checking, c.1 = handler ∧ ∀ w ∈ s.progressTasks.watches[handler.owner]?,
      ∀ snapshot ∈ w.snapshots,
        FoundSince (s.inserted .progressTasks w.task.exchange) c.2 instruments snapshot
  | _ => True

instance (s : PriceSystem ι σ ω) (e : WatchEvent DbusProgressStruct InstrumentSet) :
    Decidable (s.Looked e) := by
  unfold Looked
  split <;> infer_instance

/-- The handler that is running goes on unless the step is its end. -/
def checkingAfter (s : PriceSystem ι σ ω) :
    WatchEvent DbusProgressStruct InstrumentSet → Option (Handler Nat × Nat)
  | .runHandler _ _ => none
  | _ => s.checking

variable (pack : InstrumentType → Bytes) (unpack : Bytes → Option InstrumentType)
  [∀ exchange, DecidableEq (ι exchange)] [∀ exchange, DecidableEq (ω exchange)]

/-- One step. -/
def step (h : ∀ exchange, Shared.Handler (σ exchange) (ω exchange) (ρ exchange) InstrumentType)
    (s : PriceSystem ι σ ω) : Event ι ω ρ → Option (PriceSystem ι σ ω)
  | .prices exchange e =>
    (Distribution.step pack unpack (h exchange) (s.distribution exchange) e).map fun d ↦
      { s with distribution := Function.update s.distribution exchange d }
  | .timeTasks e =>
    (s.timeTasks.step TimeTasks.watchClass (reading id (fun handler _ ↦
      s.uniqueInstruments .timeTasks
        (s.timeTasks.taskData TimeTasks.watchClass handler.owner).exchange) e)).map fun t ↦
      { s with timeTasks := t }
  | .checkPrices handler =>
    if s.checking = none ∧ handler ∈ s.progressTasks.timers.queue then
      (s.progressTasks.watches[handler.owner]?).map fun w ↦
        { s with
          checking := some (handler, (s.inserted .progressTasks w.task.exchange).length) }
    else none
  | .progressTasks e =>
    if s.Looked e then
      (s.progressTasks.step ProgressTasks.watchClass
        (reading (Prod.mk (s.uniqueInstruments .progressTasks)) (fun _ instruments ↦ instruments)
          e)).map fun p ↦
        { s with progressTasks := p, checking := s.checkingAfter e }
    else none

/-- Before the first steps. -/
def start (process : ∀ exchange, ι exchange →
    Shared.Process (σ exchange) (ω exchange) InstrumentType) : PriceSystem ι σ ω :=
  { distribution := fun exchange ↦ Distribution.start (process exchange) }

/-! ### What a handler reads -/

omit [∀ exchange, DecidableEq (ι exchange)] [∀ exchange, DecidableEq (ω exchange)] in
/-- A cached instrument has been inserted last of its name and trade type. -/
private theorem exists_place_of_cached {items : List InstrumentType} {instrument : InstrumentType}
    (h : instrument ∈ (cacheOf items).toList) :
    ∃ last : Nat, items[last]? = some instrument ∧
      ∀ (place : Nat) other, items[place]? = some other → other.key = instrument.key →
        place ≤ last := by
  unfold cacheOf at h
  rw [UniqueElements.mem_toList_run_iff, UniqueElements.sinceClear_map_insert] at h
  exact h.exists_place

/-- The instrument of a name and trade type that a time watch quotes. -/
def Quotes (tradeType : TradeType) (name : Bytes) (live : InstrumentType)
    (token : DbusInstrumentType) : Prop :=
  live.tradeType = tradeType ∧ live.name = name ∧ token = quote live

/-- What the results of the time service say of an instrument, one after the other. -/
def quotesOf (results : List (Nat × TimeTasks.ScheduledTimeTaskResult)) (exchange : Exchange)
    (tradeType : TradeType) (name : Bytes) : List DbusInstrumentType :=
  ((results.map Prod.snd).filter fun r ↦
    (dbusTimeToScheduledTask r.task).exchange == exchange &&
      (dbusTimeToScheduledTask r.task).tradeType == tradeType).flatMap fun r ↦
    r.tokens.filter fun token ↦ token.name == name

/-- A watched token has been reported: at the price that a move by the percentage up from a price
of the exchange leads to, with a price no older than that one which the comparator accepts. -/
def Alerted (prices : List InstrumentType) (task : ScheduledPriceTask)
    (token : DbusInstrumentType) : Prop :=
  ∃ before live, Forward Eq prices [before, live] ∧ before.name = token.name ∧
    before.tradeType = task.tradeType ∧ live.key = before.key ∧ token.open24h = before.open24h ∧
    ∃ percent ∈ task.percentProp,
      token.price = ProgressTasks.requestedPrice before.currentPrice |percent.percentage| ∧
        if percent.percentage < 0 then token.price ≤ live.currentPrice
        else live.currentPrice ≤ token.price

omit [∀ exchange, DecidableEq (ι exchange)] [∀ exchange, DecidableEq (ω exchange)] in
private theorem forward_quotes_tick {inserted : Exchange → List InstrumentType}
    {results : List (Nat × TimeTasks.ScheduledTimeTaskResult)} {w : TimeTasks.TimeWatch}
    {watch : Nat} {r : TimeTasks.ScheduledTimeTaskResult}
    (hr : (w.fetchPrices (cacheOf (inserted w.task.exchange))).1 = some r) {exchange : Exchange}
    {tradeType : TradeType} {name : Bytes}
    (h : Forward (Quotes tradeType name) (inserted exchange)
      (quotesOf results exchange tradeType name)) :
    Forward (Quotes tradeType name) (inserted exchange)
      (quotesOf (results ++ [(watch, r)]) exchange tradeType name) := by
  have hresult : r =
      { task := w.dbusTask, tokens := w.fetchTokens (cacheOf (inserted w.task.exchange)) } := by
    unfold TimeTasks.TimeWatch.fetchPrices at hr
    dsimp only at hr
    split at hr
    · cases hr
    · exact (Option.some.inj hr).symm
  unfold quotesOf
  rw [List.map_append, List.filter_append, List.flatMap_append]
  refine h.append fun token htoken ↦ ?_
  obtain ⟨r', hr', hquoted⟩ := List.mem_flatMap.mp htoken
  obtain ⟨hmem, htask⟩ := List.mem_filter.mp hr'
  obtain rfl : r' = r := List.mem_singleton.mp hmem
  subst hresult
  obtain ⟨hfetched, hname⟩ := List.mem_filter.mp hquoted
  rw [TimeTasks.TimeWatch.dbusTask, dbusTimeToScheduledTask_scheduledTaskToDbusTime,
    Bool.and_eq_true, beq_iff_eq, beq_iff_eq] at htask
  obtain ⟨hexchange, htrade⟩ := htask
  obtain ⟨live, hlive, hsame, rfl⟩ := quoted_fetchTokens hfetched
  obtain ⟨last, hlast, hbehind⟩ := exists_place_of_cached hlive
  have hread : Quotes tradeType name live (quote live) :=
    ⟨hsame.trans htrade, beq_iff_eq.mp hname, rfl⟩
  refine ⟨last, live, hexchange ▸ hlast, hread, ?_⟩
  intro place other value hother hquotes
  refine hbehind place other (hexchange ▸ hother) ?_
  exact Prod.ext (hquotes.2.1.trans hread.2.1.symm) (hquotes.1.trans hread.1.symm)

/-- The watch tests its snapshots as its percentage asks, and each is the target of an instrument
that its exchange has had in its cache. -/
def Snapshotted (items : Exchange → List InstrumentType) (w : ProgressTasks.ProgressWatch) : Prop :=
  ∃ percent ∈ w.task.percentProp,
    w.comparator = (if percent.percentage < 0 then ProgressTasks.isLesserOrEquals
      else ProgressTasks.isGreaterOrEquals) ∧
    ∀ snapshot ∈ w.snapshots, ∃ (i : Nat) (before : InstrumentType),
      (items w.task.exchange)[i]? = some before ∧ before.tradeType = w.task.tradeType ∧
        snapshot = ProgressTasks.ProgressWatch.target percent.percentage before

theorem Snapshotted.mono {items items' : Exchange → List InstrumentType}
    {w : ProgressTasks.ProgressWatch} (h : Snapshotted items w)
    (hgrow : items w.task.exchange <+: items' w.task.exchange) : Snapshotted items' w := by
  obtain ⟨percent, hpercent, hcomparator, hsnapshots⟩ := h
  refine ⟨percent, hpercent, hcomparator, fun snapshot hs ↦ ?_⟩
  obtain ⟨i, before, hi, hbefore⟩ := hsnapshots snapshot hs
  obtain ⟨more, hmore⟩ := hgrow
  obtain ⟨hlt, -⟩ := List.getElem?_eq_some_iff.mp hi
  rw [← hmore]
  exact ⟨i, before, (List.getElem?_append_left hlt).trans hi, hbefore⟩

private theorem snapshotted_construct {items : Exchange → List InstrumentType}
    {task : ScheduledPriceTask} (h : task.percentProp.isSome) {instruments : InstrumentSet}
    (hcached : instruments = cacheOf (items task.exchange)) :
    Snapshotted items (ProgressTasks.ProgressWatch.construct instruments task h) := by
  refine ⟨task.percentProp.get h, Option.get_mem h, rfl, fun snapshot hs ↦ ?_⟩
  obtain ⟨token, -, hs⟩ := List.mem_filterMap.mp hs
  obtain ⟨before, hfind, rfl⟩ := Option.map_eq_some_iff.mp hs
  have hlisted := List.mem_of_find?_eq_some hfind
  rw [hcached] at hlisted
  obtain ⟨place, hplace, -⟩ := exists_place_of_cached hlisted
  exact ⟨place, before, hplace, (ProgressTasks.ProgressWatch.name_of_find_eq_some hfind).2, rfl⟩

private theorem Snapshotted.call {items : Exchange → List InstrumentType}
    {w : ProgressTasks.ProgressWatch} (h : Snapshotted items w) : Snapshotted items w.call.1 := by
  unfold ProgressTasks.ProgressWatch.call
  split
  · exact h
  · exact h

private theorem Snapshotted.checkPrices {items : Exchange → List InstrumentType}
    {w : ProgressTasks.ProgressWatch} (h : Snapshotted items w) (instruments : InstrumentSet) :
    Snapshotted items (w.checkPrices instruments).watch := by
  obtain ⟨percent, hpercent, hcomparator, hsnapshots⟩ := h
  have htask : (w.checkPrices instruments).watch.task = w.task :=
    ProgressTasks.watchClass.task_tick w instruments
  unfold Snapshotted
  rw [htask, ProgressTasks.ProgressWatch.comparator_checkPrices]
  refine ⟨percent, hpercent, hcomparator, fun snapshot hs ↦ ?_⟩
  exact hsnapshots snapshot (ProgressTasks.ProgressWatch.mem_snapshots_checkPrices.mp hs).1

/-- A handler that looks up its snapshots after they have been taken reports them rightly. -/
private theorem alerted_tick {items : Exchange → List InstrumentType} {since : Nat}
    {w : ProgressTasks.ProgressWatch}
    (hw : Snapshotted (fun exchange ↦ (items exchange).take since) w) {instruments : InstrumentSet}
    (hfound : ∀ snapshot ∈ w.snapshots,
      FoundSince (items w.task.exchange) since instruments snapshot)
    {token : DbusInstrumentType} (htoken : token ∈ w.resultTokens instruments) :
    Alerted (items w.task.exchange) (dbusProgressToScheduledTask w.dbusTask) token := by
  obtain ⟨percent, hpercent, hcomparator, hsnapshots⟩ := hw
  obtain ⟨snapshot, hs, rfl⟩ := List.mem_map.mp htoken
  obtain ⟨hs, hreported⟩ := List.mem_filter.mp hs
  obtain ⟨i, before, hi, htrade, rfl⟩ := hsnapshots snapshot hs
  obtain ⟨moment, -, hsince, hlook⟩ := hfound _ hs
  unfold ProgressTasks.ProgressWatch.isReported at hreported
  split at hreported
  · cases hreported
  · next live hlive =>
    rw [hlook, UniqueElements.findItem_eq_some_iff] at hlive
    obtain ⟨hcached, hkey⟩ := hlive
    have hkey : live.key = before.key := by
      rw [hkey, InstrumentType.key, ProgressTasks.ProgressWatch.target_name,
        ProgressTasks.ProgressWatch.target_tradeType, InstrumentType.key]
    obtain ⟨j, hj, hbehind⟩ := exists_place_of_cached hcached
    -- the snapshot was taken of an instrument that the look-up has passed
    have hi' : ((items w.task.exchange).take moment)[i]? = some before := by
      obtain ⟨more, hmore⟩ := List.take_prefix_take_left (l := items w.task.exchange) hsince
      obtain ⟨hlt, -⟩ := List.getElem?_eq_some_iff.mp hi
      rw [← hmore, List.getElem?_append_left hlt]
      exact hi
    have hread : Forward Eq (items w.task.exchange) [before, live] :=
      (forward_pair (hbehind i before hi' hkey.symm) hi' hj).of_sublist (List.take_sublist _ _)
    refine ⟨before, live, hread,
      (ProgressTasks.ProgressWatch.target_name _ _).symm, ?_, hkey, ?_, ?_⟩
    · rw [ProgressTasks.ProgressWatch.dbusTask,
        dbusProgressToScheduledTask_scheduledTaskToDbusProgress]
      exact htrade
    · unfold ProgressTasks.ProgressWatch.target
      dsimp only
      split <;> rfl
    · refine ⟨percent, ?_, ProgressTasks.ProgressWatch.target_currentPrice _ _, ?_⟩
      · rw [ProgressTasks.ProgressWatch.dbusTask,
          dbusProgressToScheduledTask_scheduledTaskToDbusProgress]
        exact hpercent
      · rw [hcomparator] at hreported
        dsimp only
        split
        · next hneg =>
          rw [if_pos hneg] at hreported
          exact of_decide_eq_true hreported
        · next hneg =>
          rw [if_neg hneg] at hreported
          exact of_decide_eq_true hreported

theorem Alerted.of_sublist {prices prices' : List InstrumentType} {task : ScheduledPriceTask}
    {token : DbusInstrumentType} (h : Alerted prices task token)
    (hsub : prices.Sublist prices') : Alerted prices' task token := by
  obtain ⟨before, live, hread, halerted⟩ := h
  exact ⟨before, live, hread.of_sublist hsub, halerted⟩

/-! ### Runs of the whole system -/

/-- The caches hold what has been inserted; what has been sent of an instrument has been read
forward from that, and what is watched has been taken from it. -/
structure Inv (s : PriceSystem ι σ ω) : Prop where
  cached : ∀ watcher exchange,
    s.uniqueInstruments watcher exchange = cacheOf (s.inserted watcher exchange)
  quotes : ∀ exchange tradeType name,
    Forward (Quotes tradeType name) (s.inserted .timeTasks exchange)
      (quotesOf s.timeTasks.scheduledTaskResults exchange tradeType name)
  watches : ∀ (i : Nat) w, s.progressTasks.watches[i]? = some w →
    Snapshotted (s.inserted .progressTasks) w
  checking : ∀ c ∈ s.checking, ∀ w, s.progressTasks.watches[c.1.owner]? = some w →
    Snapshotted (fun exchange ↦ (s.inserted .progressTasks exchange).take c.2) w
  owner : ∀ c ∈ s.checking, c.1.owner < s.progressTasks.watches.length
  alerts : ∀ entry ∈ s.progressTasks.scheduledTaskResults, ∀ token ∈ entry.2.tokens,
    Alerted
      (s.inserted .progressTasks (dbusProgressToScheduledTask entry.2.task).exchange)
      (dbusProgressToScheduledTask entry.2.task) token

variable {pack unpack}
  {h : ∀ exchange, Shared.Handler (σ exchange) (ω exchange) (ρ exchange) InstrumentType}
  {s s' : PriceSystem ι σ ω}

private theorem inserted_prices {exchange : Exchange}
    {e : Distribution.Event (ι exchange) PriceWatcher (ω exchange) (ρ exchange)}
    {d : Distribution (ι exchange) PriceWatcher (σ exchange) (ω exchange)}
    (hd : Distribution.step pack unpack (h exchange) (s.distribution exchange) e = some d)
    (hcached : ∀ watcher exchange,
      s.uniqueInstruments watcher exchange = cacheOf (s.inserted watcher exchange))
    (watcher : PriceWatcher) (other : Exchange) :
    let s' := { s with distribution := Function.update s.distribution exchange d }
    s.inserted watcher other <+: s'.inserted watcher other ∧
      s'.uniqueInstruments watcher other = cacheOf (s'.inserted watcher other) := by
  unfold inserted uniqueInstruments at hcached ⊢
  dsimp only
  by_cases hother : other = exchange
  · subst hother
    rw [Function.update_self]
    exact Distribution.cached_step (hcached watcher other) hd
  · rw [Function.update_of_ne hother]
    exact ⟨List.prefix_refl _, hcached watcher other⟩

private theorem inv_prices {exchange : Exchange}
    {e : Distribution.Event (ι exchange) PriceWatcher (ω exchange) (ρ exchange)} (hs : s.Inv)
    (hstep : step pack unpack h s (.prices exchange e) = some s') : s'.Inv := by
  obtain ⟨d, hd, rfl⟩ := Option.map_eq_some_iff.mp hstep
  have hins := inserted_prices hd hs.cached
  constructor
  · exact fun watcher other ↦ (hins watcher other).2
  · intro other tradeType name
    exact (hs.quotes other tradeType name).of_sublist (hins .timeTasks other).1.sublist
  · intro i w hw
    exact (hs.watches i w hw).mono (hins .progressTasks w.task.exchange).1
  · intro c hc w hw
    obtain ⟨more, hmore⟩ := (hins .progressTasks w.task.exchange).1
    refine (hs.checking c hc w hw).mono ?_
    rw [← hmore, List.take_append]
    exact List.prefix_append _ _
  · exact hs.owner
  · intro entry hentry token htoken
    exact (hs.alerts entry hentry token htoken).of_sublist (hins .progressTasks _).1.sublist

private theorem inv_timeTasks {e : WatchEvent DbusTimeTask Unit} (hs : s.Inv)
    (hstep : step pack unpack h s (.timeTasks e) = some s') : s'.Inv := by
  obtain ⟨t, ht, rfl⟩ := Option.map_eq_some_iff.mp hstep
  refine { hs with quotes := fun exchange tradeType name ↦ ?_ }
  have hbefore := hs.quotes exchange tradeType name
  rcases WatchService.results_step _ ht with hsame | ⟨handler, instruments, w, r, he, hw, hr, hres⟩
  · change Forward _ _ (quotesOf t.scheduledTaskResults _ _ _)
    rw [hsame]
    exact hbefore
  · change Forward _ _ (quotesOf t.scheduledTaskResults _ _ _)
    rw [hres]
    refine @forward_quotes_tick (s.inserted .timeTasks) _ w _ r ?_ _ _ _ hbefore
    cases e with
    | runHandler handler' i =>
      obtain ⟨rfl, rfl⟩ := WatchEvent.runHandler.inj he
      have htask : s.timeTasks.taskData TimeTasks.watchClass handler'.owner = w.task := by
        rw [WatchService.taskData, hw]
        rfl
      dsimp only at hr
      rw [htask, hs.cached] at hr
      exact hr
    | schedule | expire | removeCall | removeRound | removeReturn => cases he

private theorem inv_checkPrices {handler : Handler Nat} (hs : s.Inv)
    (hstep : step pack unpack h s (.checkPrices handler) = some s') : s'.Inv := by
  rw [step] at hstep
  split at hstep
  · obtain ⟨w, hw, rfl⟩ := Option.map_eq_some_iff.mp hstep
    refine { hs with checking := ?_, owner := ?_ }
    · intro c hc w' hw'
      obtain rfl := Option.some.inj hc
      obtain rfl := Option.some.inj (hw.symm.trans hw')
      refine (hs.watches _ w hw).mono ?_
      change _ <+: (s.inserted .progressTasks w.task.exchange).take
        (s.inserted .progressTasks w.task.exchange).length
      simp
    · intro c hc
      obtain rfl := Option.some.inj hc
      exact (List.getElem?_eq_some_iff.mp hw).1
  · cases hstep

omit [∀ exchange, DecidableEq (ι exchange)] [∀ exchange, DecidableEq (ω exchange)] in
/-- A watch keeps its snapshots in a step, whatever it is: they are those of a cache at which the
watch was scheduled. -/
private theorem snapshotted_progressTasks {p : WatchService ProgressTasks.ProgressWatch
    ProgressTasks.ScheduledProgressTaskResult} {e : WatchEvent DbusProgressStruct InstrumentSet}
    {items : Exchange → List InstrumentType} {i : Nat}
    (hstep : s.progressTasks.step ProgressTasks.watchClass
      (reading (Prod.mk (s.uniqueInstruments .progressTasks)) (fun _ instruments ↦ instruments)
        e) = some p)
    (hold : ∀ w, s.progressTasks.watches[i]? = some w → Snapshotted items w)
    (hnew : i = s.progressTasks.watches.length → ∀ exchange,
      s.uniqueInstruments .progressTasks exchange = cacheOf (items exchange))
    {v : ProgressTasks.ProgressWatch} (hv : p.watches[i]? = some v) : Snapshotted items v := by
  rcases WatchService.watches_step _ hstep hv with hsame | ⟨k, he, hi, rfl⟩ | ⟨w, hw, hother⟩
  · exact hold v hsame
  · cases e with
    | schedule task =>
      obtain rfl := WatchEvent.schedule.inj he
      exact (snapshotted_construct rfl (hnew hi _)).call
    | expire | runHandler | removeCall | removeRound | removeReturn => cases he
  · rcases hother with rfl | ⟨handler, instruments, -, rfl⟩
    · exact hold w hw
    · exact (hold w hw).checkPrices instruments

omit [∀ exchange, DecidableEq (ι exchange)] [∀ exchange, DecidableEq (ω exchange)] in
/-- The check of a watch that has looked its snapshots up reports them rightly. -/
private theorem alerted_progressTasks {p : WatchService ProgressTasks.ProgressWatch
    ProgressTasks.ScheduledProgressTaskResult} {e : WatchEvent DbusProgressStruct InstrumentSet}
    (hs : s.Inv) (hlooked : s.Looked e)
    (hstep : s.progressTasks.step ProgressTasks.watchClass
      (reading (Prod.mk (s.uniqueInstruments .progressTasks)) (fun _ instruments ↦ instruments)
        e) = some p) :
    ∀ entry ∈ p.scheduledTaskResults, ∀ token ∈ entry.2.tokens,
      Alerted
        (s.inserted .progressTasks (dbusProgressToScheduledTask entry.2.task).exchange)
        (dbusProgressToScheduledTask entry.2.task) token := by
  intro entry hentry token htoken
  rcases WatchService.results_step _ hstep with
    hsame | ⟨handler, instruments, w, r, he, hw, hr, hres⟩
  · rw [hsame] at hentry
    exact hs.alerts entry hentry token htoken
  · rw [hres, List.mem_append, List.mem_singleton] at hentry
    rcases hentry with hentry | rfl
    · exact hs.alerts entry hentry token htoken
    · cases e with
      | runHandler handler' found =>
        obtain ⟨rfl, rfl⟩ := WatchEvent.runHandler.inj he
        obtain ⟨c, hc, rfl, hfound⟩ := hlooked
        have hresult : (w.checkPrices found).result = some r := hr
        rw [ProgressTasks.ProgressWatch.result_checkPrices] at hresult
        split at hresult
        · cases hresult
        · obtain rfl := Option.some.inj hresult
          have halerted := alerted_tick (hs.checking c hc w hw) (hfound w hw) htoken
          rw [ProgressTasks.ProgressWatch.dbusTask,
            dbusProgressToScheduledTask_scheduledTaskToDbusProgress] at halerted ⊢
          exact halerted
      | schedule | expire | removeCall | removeRound | removeReturn => cases he

private theorem inv_progressTasks {e : WatchEvent DbusProgressStruct InstrumentSet} (hs : s.Inv)
    (hstep : step pack unpack h s (.progressTasks e) = some s') : s'.Inv := by
  rw [step] at hstep
  split at hstep
  · next hlooked =>
    obtain ⟨p, hp, rfl⟩ := Option.map_eq_some_iff.mp hstep
    have hchecking : ∀ c ∈ s.checkingAfter e, c ∈ s.checking := by
      intro c hc
      cases e with
      | runHandler => cases hc
      | schedule | expire | removeCall | removeRound | removeReturn => exact hc
    have halerts := alerted_progressTasks hs hlooked hp
    refine ⟨hs.cached, hs.quotes, ?_, ?_, ?_, halerts⟩
    · intro i w hw
      exact snapshotted_progressTasks hp (hs.watches i) (fun _ ↦ hs.cached .progressTasks) hw
    · intro c hc w hw
      have howner := hs.owner c (hchecking c hc)
      refine snapshotted_progressTasks hp (hs.checking c (hchecking c hc)) (fun hnew ↦ ?_) hw
      omega
    · intro c hc
      exact (hs.owner c (hchecking c hc)).trans_le (WatchService.length_watches_step _ hp)
  · cases hstep

/-- A step of any process keeps the invariant. -/
private theorem inv_step {e : Event ι ω ρ} (hs : s.Inv) (hstep : step pack unpack h s e = some s') :
    s'.Inv := by
  cases e with
  | prices exchange e => exact inv_prices hs hstep
  | timeTasks e => exact inv_timeTasks hs hstep
  | checkPrices handler => exact inv_checkPrices hs hstep
  | progressTasks e => exact inv_progressTasks hs hstep

omit [∀ exchange, DecidableEq (ι exchange)] [∀ exchange, DecidableEq (ω exchange)] in
private theorem inv_start (process : ∀ exchange, ι exchange →
    Shared.Process (σ exchange) (ω exchange) InstrumentType) : (start process).Inv where
  cached _ _ := rfl
  quotes _ _ _ := forward_nil _ _
  watches _ _ hw := by simp [start] at hw
  checking _ hc := by simp [start] at hc
  owner _ hc := by simp [start] at hc
  alerts _ hentry := by simp [start] at hentry

/-- A step moves the streams and caches of one exchange at most. -/
private theorem distribution_step {e : Event ι ω ρ} (hstep : step pack unpack h s e = some s') :
    s'.distribution = s.distribution ∨ ∃ exchange e' d,
      Distribution.step pack unpack (h exchange) (s.distribution exchange) e' = some d ∧
        s'.distribution = Function.update s.distribution exchange d := by
  cases e with
  | prices exchange e =>
    obtain ⟨d, hd, rfl⟩ := Option.map_eq_some_iff.mp hstep
    exact .inr ⟨exchange, e, d, hd, rfl⟩
  | timeTasks e =>
    obtain ⟨t, -, rfl⟩ := Option.map_eq_some_iff.mp hstep
    exact .inl rfl
  | checkPrices handler =>
    rw [step] at hstep
    split at hstep
    · obtain ⟨w, -, rfl⟩ := Option.map_eq_some_iff.mp hstep
      exact .inl rfl
    · cases hstep
  | progressTasks e =>
    rw [step] at hstep
    split at hstep
    · obtain ⟨p, -, rfl⟩ := Option.map_eq_some_iff.mp hstep
      exact .inl rfl
    · cases hstep

/-- In every run of the streams of all exchanges, the caches and both services: what the time
service sends of an instrument is read, always forward, from what the streams of its exchange have
appended; and every token that the progress service reports has been moved, up by the percentage
of its task, from a price that these streams have appended, and its comparator has accepted the
result against a price of theirs that is no older. -/
theorem notified_of_run {process : ∀ exchange, ι exchange →
      Shared.Process (σ exchange) (ω exchange) InstrumentType} {events : List (Event ι ω ρ)}
    (hrun : Transition.run (step pack unpack h) (start process) events = some s)
    (hunpack : ∀ exchange, ∀ instrument ∈ s.appended exchange, ∀ rest,
      unpack (pack instrument ++ rest) = some instrument) :
    (∀ exchange tradeType name, Forward (Quotes tradeType name) (s.appended exchange)
        (quotesOf s.timeTasks.scheduledTaskResults exchange tradeType name)) ∧
      ∀ entry ∈ s.progressTasks.scheduledTaskResults, ∀ token ∈ entry.2.tokens,
        Alerted (s.appended (dbusProgressToScheduledTask entry.2.task).exchange)
          (dbusProgressToScheduledTask entry.2.task) token := by
  have hs := Transition.inv_run (fun _ _ _ ↦ inv_step) (inv_start process) hrun
  have hsub : ∀ watcher exchange, (s.inserted watcher exchange).Sublist (s.appended exchange) := by
    intro watcher exchange
    obtain ⟨es, hes⟩ := Transition.exists_run_of_family (f := fun s ↦ s.distribution)
      (fun _ _ _ ↦ distribution_step) hrun exchange
    exact Distribution.inserted_sublist hes (hunpack exchange) watcher
  constructor
  · intro exchange tradeType name
    exact (hs.quotes exchange tradeType name).of_sublist (hsub .timeTasks exchange)
  · intro entry hentry token htoken
    exact (hs.alerts entry hentry token htoken).of_sublist (hsub .progressTasks _)

/-! ### Two prices -/

open PriceMonitor.Market

/-- The spot stream of Binance receives a ticker, and the sender sends it to all. -/
private def streamed (text : String) (instrument : InstrumentType) :
    List (Event Watcher StreamOp StreamResult) :=
  [.prices .binance (.stream .spot (.complete .read (.completed (.success (bytes text))) true)),
    .prices .binance (.stream .spot (.act (.append instrument) [] [.read])),
    .prices .binance .get, .prices .binance (.send fun _ ↦ true)]

/-- A rise by ten percent. -/
private def riseByTen : DbusProgressStruct :=
  { processAssignedId := 1, percentage := 10, directionEnum := 0, tradeTypeEnum := 1,
    exchangeEnum := 0, taskStatusEnum := 0, taskId := [1], userId := [117],
    tokens := [bytes "BTC"] }

/-- The price every minute. -/
private def everyMinuteBtc : DbusTimeTask :=
  { processAssignedId := 2, time := 60000, durationEnum := 1, tradeTypeEnum := 1,
    exchangeEnum := 0, taskStatusEnum := 0, taskId := [2], userId := [117],
    tokens := [bytes "BTC"] }

/-- Both tasks are scheduled at the first price. The second reaches the progress service while its
check runs, and the time service between two of its handlers. -/
private def twoPrices : List (Event Watcher StreamOp StreamResult) :=
  streamed "0.5" (btcAt (1 / 2)) ++
  [.prices .binance (.receive .progressTasks), .prices .binance (.receive .timeTasks),
    .progressTasks (.schedule riseByTen), .timeTasks (.schedule everyMinuteBtc)] ++
  streamed "0.25" (btcAt (1 / 4)) ++
  [.progressTasks (.expire 0), .checkPrices { owner := 0, aborted := false },
    .prices .binance (.receive .progressTasks),
    .progressTasks (.runHandler { owner := 0, aborted := false }
      (cacheOf [btcAt (1 / 2), btcAt (1 / 4)])),
    .timeTasks (.expire 0), .timeTasks (.runHandler { owner := 0, aborted := false } ()),
    .prices .binance (.receive .timeTasks),
    .timeTasks (.expire 0), .timeTasks (.runHandler { owner := 0, aborted := false } ())]

/-- The time service sends both prices in their order, and the progress service reports the target
of the first. -/
theorem notified_of_run_twoPrices :
    ∃ s, Transition.run (step packBtc unpackBtc (handlers oneTicker readPrice)) (start connected)
        twoPrices = some s ∧
      quotesOf s.timeTasks.scheduledTaskResults .binance .spot (bytes "BTC") =
        [quote (btcAt (1 / 2)), quote (btcAt (1 / 4))] ∧
      Forward (Quotes .spot (bytes "BTC")) (s.appended .binance)
        [quote (btcAt (1 / 2)), quote (btcAt (1 / 4))] ∧
      ∃ entry ∈ s.progressTasks.scheduledTaskResults,
        entry.2.tokens = [{ name := bytes "BTC", price := 11 / 20, open24h := 1 / 4 }] ∧
        ∀ token ∈ entry.2.tokens, Alerted
          (s.appended (dbusProgressToScheduledTask entry.2.task).exchange)
          (dbusProgressToScheduledTask entry.2.task) token := by
  have hrun : (Transition.run (step packBtc unpackBtc (handlers oneTicker readPrice))
      (start connected) twoPrices).map (fun s ↦
        ((s.appended .binance, s.appended .kucoin, s.appended .okex, s.appended .total),
          quotesOf s.timeTasks.scheduledTaskResults .binance .spot (bytes "BTC"),
          s.progressTasks.scheduledTaskResults.map fun entry ↦ entry.2.tokens)) =
      some (([btcAt (1 / 2), btcAt (1 / 4)], [], [], []),
        [quote (btcAt (1 / 2)), quote (btcAt (1 / 4))],
        [[{ name := bytes "BTC", price := 11 / 20, open24h := 1 / 4 }]]) := by
    decide +kernel
  obtain ⟨s, hs, hends⟩ := Option.map_eq_some_iff.mp hrun
  obtain ⟨happended, hends⟩ := Prod.mk.inj hends
  obtain ⟨hquotes, htokens⟩ := Prod.mk.inj hends
  obtain ⟨hbinance, happended⟩ := Prod.mk.inj happended
  obtain ⟨hkucoin, happended⟩ := Prod.mk.inj happended
  obtain ⟨hokex, htotal⟩ := Prod.mk.inj happended
  have hnotified := notified_of_run hs (fun exchange instrument hmem rest ↦ by
    cases exchange with
    | binance =>
      rw [hbinance, List.mem_pair] at hmem
      exact unpackBtc_pack hmem rest
    | kucoin => simp [hkucoin] at hmem
    | okex => simp [hokex] at hmem
    | total => simp [htotal] at hmem)
  refine ⟨s, hs, hquotes, hquotes ▸ hnotified.1 .binance .spot (bytes "BTC"), ?_⟩
  obtain ⟨entry, hentry, htoken⟩ : ∃ entry ∈ s.progressTasks.scheduledTaskResults,
      entry.2.tokens = [{ name := bytes "BTC", price := 11 / 20, open24h := 1 / 4 }] :=
    List.mem_map.mp (htokens ▸ List.mem_cons_self)
  exact ⟨entry, hentry, htoken, hnotified.2 entry hentry⟩

end PriceSystem

end KeepMyJournal.PriceTasks
