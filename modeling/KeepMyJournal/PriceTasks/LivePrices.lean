import KeepMyJournal.ProgressTasks.Conservation
import KeepMyJournal.TimeTasks.Watch

/-!
# The prices a price task sends

The receiver shows each number as the instrument's current price. `fetch_prices` of the time
watch reads the live cache; `check_prices` of the progress watch looks the live price up for
its test, and sends what the snapshot holds.
-/

namespace KeepMyJournal.PriceTasks

open KeepMyJournal.Base KeepMyJournal.Common

/-- An instrument as a notification should show it. -/
def quote (instr : InstrumentType) : DbusInstrumentType :=
  { name := instr.name, price := instr.currentPrice, open24h := instr.open24h }

/-- The instrument is cached under the task's trade type with these very numbers. -/
def Quoted (instruments : InstrumentSet) (tradeType : TradeType) (token : DbusInstrumentType) :
    Prop :=
  ∃ instr ∈ instruments.toList, instr.tradeType = tradeType ∧ token = quote instr

/-- Every tuple that a tick sends is quoted from the cache of that tick. -/
def SendsLive {κ ω ρ : Type} (C : WatchClass κ ω InstrumentSet ρ)
    (tokens : ρ → List DbusInstrumentType) (s : WatchRun ω ρ) :
    WatchRunEvent InstrumentSet → WatchRun ω ρ → Prop
  | .tick instruments, s' =>
    ∀ r ∈ s'.results.drop s.results.length, ∀ token ∈ tokens r,
      Quoted instruments (C.task s.watch).tradeType token
  | .stop _, _ => True

/-- At a tick, every snapshot the comparator accepts against its live instrument has that
instrument's price as its target, and its price a day ago. -/
def AtTarget {ρ : Type} (s : WatchRun ProgressTasks.ProgressWatch ρ) :
    WatchRunEvent InstrumentSet → WatchRun ProgressTasks.ProgressWatch ρ → Prop
  | .tick instruments, _ =>
    ∀ snapshot ∈ s.watch.snapshots, ∀ live ∈ instruments.findItem snapshot,
      s.watch.comparator snapshot.currentPrice live.currentPrice = true →
        live.currentPrice = snapshot.currentPrice ∧ live.open24h = snapshot.open24h
  | .stop _, _ => True

instance (instruments : InstrumentSet) (tradeType : TradeType) (token : DbusInstrumentType) :
    Decidable (Quoted instruments tradeType token) :=
  inferInstanceAs
    (Decidable (∃ instr ∈ instruments.toList, instr.tradeType = tradeType ∧ token = quote instr))

instance {κ ω ρ : Type} (C : WatchClass κ ω InstrumentSet ρ)
    (tokens : ρ → List DbusInstrumentType) (s : WatchRun ω ρ) (e : WatchRunEvent InstrumentSet)
    (s' : WatchRun ω ρ) : Decidable (SendsLive C tokens s e s') :=
  match e with
  | .tick instruments =>
    inferInstanceAs (Decidable (∀ r ∈ s'.results.drop s.results.length, ∀ token ∈ tokens r,
      Quoted instruments (C.task s.watch).tradeType token))
  | .stop _ => inferInstanceAs (Decidable True)

instance {ρ : Type} (s : WatchRun ProgressTasks.ProgressWatch ρ) (e : WatchRunEvent InstrumentSet)
    (s' : WatchRun ProgressTasks.ProgressWatch ρ) : Decidable (AtTarget s e s') :=
  match e with
  | .tick instruments =>
    inferInstanceAs (Decidable (∀ snapshot ∈ s.watch.snapshots,
      ∀ live ∈ instruments.findItem snapshot,
        s.watch.comparator snapshot.currentPrice live.currentPrice = true →
          live.currentPrice = snapshot.currentPrice ∧ live.open24h = snapshot.open24h))
  | .stop _ => inferInstanceAs (Decidable True)

/-! ### The time watch -/

/-- Whatever its tokens and the cache, the time watch sends quotes. -/
theorem quoted_fetchTokens {w : TimeTasks.TimeWatch} {instruments : InstrumentSet}
    {token : DbusInstrumentType} (h : token ∈ w.fetchTokens instruments) :
    Quoted instruments w.task.tradeType token := by
  unfold TimeTasks.TimeWatch.fetchTokens at h
  obtain ⟨name, -, h⟩ := List.mem_filterMap.mp h
  obtain ⟨instr, hfind, rfl⟩ := Option.map_eq_some_iff.mp h
  have htrade := List.find?_some hfind
  rw [Bool.and_eq_true, beq_iff_eq] at htrade
  exact ⟨instr, List.mem_of_find?_eq_some hfind, htrade.1, rfl⟩

private theorem sendsLive_time {s s' : WatchRun TimeTasks.TimeWatch
    TimeTasks.ScheduledTimeTaskResult} {e : WatchRunEvent InstrumentSet}
    (hstep : WatchRun.step TimeTasks.watchClass s e = some s') :
    SendsLive TimeTasks.watchClass TimeTasks.ScheduledTimeTaskResult.tokens s e s' := by
  cases e with
  | stop expired => exact True.intro
  | tick instruments =>
    obtain ⟨-, rfl⟩ := WatchRun.step_tick hstep
    intro r hr token ht
    rw [List.drop_left, Option.mem_toList] at hr
    change (s.watch.fetchPrices instruments).1 = some r at hr
    unfold TimeTasks.TimeWatch.fetchPrices at hr
    dsimp only at hr
    split at hr
    · cases hr
    · obtain rfl := Option.some.inj hr
      exact quoted_fetchTokens ht

/-! ### The progress watch -/

/-- A reported snapshot is a quote exactly if the live instrument has its target price and its
price a day ago; no other instrument of the cache has its name and trade type. -/
private theorem quoted_snapshot_iff {instruments : InstrumentSet} {snapshot live : InstrumentType}
    (hlive : instruments.findItem snapshot = some live) :
    Quoted instruments snapshot.tradeType (quote snapshot) ↔
      live.currentPrice = snapshot.currentPrice ∧ live.open24h = snapshot.open24h := by
  obtain ⟨hmem, hkey⟩ := (instruments.findItem_eq_some_iff snapshot live).mp hlive
  obtain ⟨hname, htrade⟩ := Prod.mk.inj hkey
  constructor
  · rintro ⟨instr, hinstr, hsame, hquote⟩
    obtain ⟨hn, hp, ho⟩ := DbusInstrumentType.mk.inj hquote
    have hfound := (instruments.findItem_eq_some_iff snapshot instr).mpr
      ⟨hinstr, Prod.ext hn.symm hsame⟩
    obtain rfl := Option.some.inj (hlive.symm.trans hfound)
    exact ⟨hp.symm, ho.symm⟩
  · rintro ⟨hp, ho⟩
    refine ⟨live, hmem, htrade, ?_⟩
    rw [quote, quote, hname, hp, ho]

/-- The tuples of a tick are quotes exactly if the watch is at target for every snapshot. -/
private theorem quoted_resultTokens_iff {w : ProgressTasks.ProgressWatch}
    (htrade : ∀ snapshot ∈ w.snapshots, snapshot.tradeType = w.task.tradeType)
    (instruments : InstrumentSet) :
    (∀ token ∈ w.resultTokens instruments, Quoted instruments w.task.tradeType token) ↔
      ∀ snapshot ∈ w.snapshots, ∀ live ∈ instruments.findItem snapshot,
        w.comparator snapshot.currentPrice live.currentPrice = true →
          live.currentPrice = snapshot.currentPrice ∧ live.open24h = snapshot.open24h := by
  unfold ProgressTasks.ProgressWatch.resultTokens
  simp only [List.forall_mem_map, List.mem_filter, and_imp]
  apply forall_congr'
  intro snapshot
  apply imp_congr_right
  intro hs
  rw [← htrade snapshot hs]
  unfold ProgressTasks.ProgressWatch.isReported
  cases hlive : instruments.findItem snapshot with
  | none => simp
  | some live =>
    simp only [Option.mem_some_iff, forall_eq']
    exact imp_congr_right fun _ ↦ quoted_snapshot_iff hlive

/-- The constructor keeps to the task's trade type, and so does every step. -/
private def SameTrade (s : WatchRun ProgressTasks.ProgressWatch
    ProgressTasks.ScheduledProgressTaskResult) : Prop :=
  ∀ snapshot ∈ s.watch.snapshots, snapshot.tradeType = s.watch.task.tradeType

private theorem sameTrade_start (cache₀ : InstrumentSet) {task : ScheduledPriceTask}
    (h : task.percentProp.isSome) :
    SameTrade (WatchRun.start ProgressTasks.watchClass
      (ProgressTasks.ProgressWatch.construct cache₀ task h)) := by
  intro snapshot hs
  change snapshot ∈ (ProgressTasks.ProgressWatch.construct cache₀ task h).snapshots at hs
  obtain ⟨token, -, hs⟩ := List.mem_filterMap.mp hs
  obtain ⟨instr, hfind, rfl⟩ := Option.map_eq_some_iff.mp hs
  rw [ProgressTasks.ProgressWatch.target_tradeType]
  exact (ProgressTasks.ProgressWatch.name_of_find_eq_some hfind).2

private theorem sameTrade_step {s s' : WatchRun ProgressTasks.ProgressWatch
    ProgressTasks.ScheduledProgressTaskResult} {e : WatchRunEvent InstrumentSet}
    (hs : SameTrade s) (hstep : WatchRun.step ProgressTasks.watchClass s e = some s') :
    SameTrade s' := by
  cases e with
  | stop expired =>
    rw [WatchRun.step_stop hstep]
    exact hs
  | tick instruments =>
    obtain ⟨-, rfl⟩ := WatchRun.step_tick hstep
    intro snapshot hm
    have htask := ProgressTasks.watchClass.task_tick s.watch instruments
    have hm' := ProgressTasks.ProgressWatch.mem_snapshots_checkPrices.mp hm
    exact (hs snapshot hm'.1).trans (congrArg ScheduledPriceTask.tradeType htask).symm

private theorem sendsLive_progress_iff {s s' : WatchRun ProgressTasks.ProgressWatch
    ProgressTasks.ScheduledProgressTaskResult} {e : WatchRunEvent InstrumentSet}
    (hs : SameTrade s) (hstep : WatchRun.step ProgressTasks.watchClass s e = some s') :
    SendsLive ProgressTasks.watchClass ProgressTasks.ScheduledProgressTaskResult.tokens s e s' ↔
      AtTarget s e s' := by
  cases e with
  | stop expired => exact Iff.rfl
  | tick instruments =>
    obtain ⟨-, rfl⟩ := WatchRun.step_tick hstep
    refine Iff.trans ?_ (quoted_resultTokens_iff hs instruments)
    unfold SendsLive
    dsimp only
    rw [List.drop_left]
    change (∀ r ∈ (s.watch.checkPrices instruments).result.toList, _) ↔ _
    rw [ProgressTasks.ProgressWatch.result_checkPrices]
    by_cases he : (s.watch.resultTokens instruments).isEmpty
    · rw [if_pos he, List.isEmpty_iff.mp he]
      simp
    · rw [if_neg he]
      simp only [Option.toList_some, List.forall_mem_singleton]
      exact Iff.rfl

/-- In every run: the time watch sends only quotes of the cache of the tick, and the progress
watch does so if and only if each snapshot it reports is at its target with the price a day
ago unchanged. -/
theorem sendsLive_iff (cache₀ : InstrumentSet) {progressTask timeTask : ScheduledPriceTask}
    (hp : progressTask.percentProp.isSome) (ht : timeTask.timeProp.isSome)
    (es : List (WatchRunEvent InstrumentSet)) :
    Transition.Along (WatchRun.step TimeTasks.watchClass)
        (SendsLive TimeTasks.watchClass TimeTasks.ScheduledTimeTaskResult.tokens)
        (WatchRun.start TimeTasks.watchClass (TimeTasks.TimeWatch.construct timeTask ht)) es ∧
      (Transition.Along (WatchRun.step ProgressTasks.watchClass)
          (SendsLive ProgressTasks.watchClass ProgressTasks.ScheduledProgressTaskResult.tokens)
          (WatchRun.start ProgressTasks.watchClass
            (ProgressTasks.ProgressWatch.construct cache₀ progressTask hp)) es ↔
        Transition.Along (WatchRun.step ProgressTasks.watchClass) AtTarget
          (WatchRun.start ProgressTasks.watchClass
            (ProgressTasks.ProgressWatch.construct cache₀ progressTask hp)) es) := by
  constructor
  · apply Transition.along_of_step
    intro s e s' hstep
    exact sendsLive_time hstep
  · apply Transition.along_congr (I := SameTrade)
    · intro s e _ s' hs hstep
      exact sendsLive_progress_iff hs hstep
    · intro s e _ s' hs hstep _
      exact sameTrade_step hs hstep
    · exact sameTrade_start cache₀ hp

/-- One spot instrument at a price. -/
private def spotAt (price : ℚ) : InstrumentSet :=
  UniqueElements.empty.insert
    { name := bytes "BTC-USDT", currentPrice := price, open24h := 90, tradeType := .spot }

/-- A task that watches it for a rise of ten percent and fetches its price every minute. -/
private def bothProps : ScheduledPriceTask :=
  { tokens := [bytes "BTC-USDT"]
    tradeType := .spot
    exchange := .binance
    percentProp := some { percentage := 10, direction := .up }
    timeProp := some { timeMS := 60000, duration := .minutes } }

/-- Reported at the target price itself, the token is quoted with its live price. -/
theorem sendsLive_atTarget :
    Transition.Along (WatchRun.step ProgressTasks.watchClass)
      (SendsLive ProgressTasks.watchClass ProgressTasks.ScheduledProgressTaskResult.tokens)
      (WatchRun.start ProgressTasks.watchClass
        (ProgressTasks.ProgressWatch.construct (spotAt 100) bothProps rfl))
      [.tick (spotAt 120), .tick (spotAt 110)] :=
  (@sendsLive_iff (spotAt 100) bothProps bothProps rfl rfl _).2.mpr (by decide +kernel)

/-- With the live price at 105, a task for a rise from 100 by ten percent sends 110. -/
theorem not_sendsLive_belowTarget :
    ¬Transition.Along (WatchRun.step ProgressTasks.watchClass)
      (SendsLive ProgressTasks.watchClass ProgressTasks.ScheduledProgressTaskResult.tokens)
      (WatchRun.start ProgressTasks.watchClass
        (ProgressTasks.ProgressWatch.construct (spotAt 100) bothProps rfl))
      [.tick (spotAt 105)] := by
  decide +kernel

end KeepMyJournal.PriceTasks
