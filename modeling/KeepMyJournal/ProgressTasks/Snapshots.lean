import KeepMyJournal.HttpStream.TaskCheck
import KeepMyJournal.ProgressTasks.Service

/-!
# The snapshots a progress watch starts with

The constructor of `progress_based_watch_price_impl_t` takes a snapshot of each token it finds
among the cached instruments, and asserts that it has found them all
(`progress_tasks/src/progress_based_task.cpp:47–77`). `passed_valid_task_check` judged the task
in another process, without looking at the cache.
-/

namespace KeepMyJournal.ProgressTasks

open KeepMyJournal.Base KeepMyJournal.Common KeepMyJournal.HttpStream

/-- The watch that the progress service builds of a task that is pushed to it under the number
`id`, from the instruments it has cached then. -/
def progressWatchOf (cache : InstrumentExchangeSet) (task : ScheduledPriceTask) (id : UInt64)
    (h : task.percentProp.isSome) : ProgressWatch :=
  watchClass.construct
    (cache, scheduledTaskToDbusProgress { task with processAssignedId := id } h)

/-- The assertion of the constructor holds, and every token of the task is watched. -/
def WatchesAll (w : ProgressWatch) (task : ScheduledPriceTask) : Prop :=
  w.snapshots.length = w.task.tokens.length ∧
    ∀ token ∈ task.tokens, ∃ s ∈ w.snapshots, s.name = token ∧ s.tradeType = task.tradeType

/-- The exchange's cache has the token under the trade type. -/
def Cached (instruments : InstrumentSet) (tradeType : TradeType) (token : Bytes) : Prop :=
  ∃ instr ∈ instruments.toList, instr.tradeType = tradeType ∧ instr.name = token

instance (instruments : InstrumentSet) (tradeType : TradeType) (token : Bytes) :
    Decidable (Cached instruments tradeType token) :=
  inferInstanceAs
    (Decidable (∃ instr ∈ instruments.toList, instr.tradeType = tradeType ∧ instr.name = token))

private theorem isSome_find_iff (instruments : InstrumentSet) (tradeType : TradeType)
    (token : Bytes) :
    (instruments.toList.find?
      (fun instr ↦ instr.tradeType == tradeType && instr.name == token)).isSome ↔
        Cached instruments tradeType token := by
  rw [List.find?_isSome]
  simp [Cached]

/-- The snapshots are as many as the tokens if and only if each token is cached. -/
theorem length_snapshots_iff (instruments : InstrumentSet) (task : ScheduledPriceTask)
    (h : task.percentProp.isSome) :
    (ProgressWatch.construct instruments task h).snapshots.length = task.tokens.length ↔
      ∀ token ∈ task.tokens, Cached instruments task.tradeType token := by
  unfold ProgressWatch.construct
  rw [List.filterMap_length_eq_length]
  refine forall₂_congr fun token _ ↦ ?_
  rw [Option.isSome_map, isSome_find_iff]

/-- A cached token is among the snapshots. -/
theorem mem_snapshots_of_cached {instruments : InstrumentSet} {task : ScheduledPriceTask}
    (h : task.percentProp.isSome) {token : Bytes} (hm : token ∈ task.tokens)
    (hcached : Cached instruments task.tradeType token) :
    ∃ s ∈ (ProgressWatch.construct instruments task h).snapshots,
      s.name = token ∧ s.tradeType = task.tradeType := by
  obtain ⟨instr, hfind⟩ := Option.isSome_iff_exists.mp ((isSome_find_iff _ _ _).mpr hcached)
  obtain ⟨hname, htrade⟩ := ProgressWatch.name_of_find_eq_some hfind
  refine ⟨ProgressWatch.target (task.percentProp.get h).percentage instr, ?_, ?_, ?_⟩
  · refine List.mem_filterMap.mpr ⟨token, hm, ?_⟩
    rw [hfind]
    rfl
  · rw [ProgressWatch.target_name, hname]
  · rw [ProgressWatch.target_tradeType, htrade]

/-- The watch of an accepted task watches all its tokens if and only if its exchange has cached
each of them under the task's trade type. -/
theorem watchesAll_iff (cache : InstrumentExchangeSet) (id : UInt64)
    {task task' : ScheduledPriceTask} (hcheck : passedValidTaskCheck task = (true, task'))
    (h : task'.percentProp.isSome) :
    WatchesAll (progressWatchOf cache task' id h) task ↔
      ∀ token ∈ task.tokens, Cached (cache task.exchange) task.tradeType token := by
  obtain ⟨rfl, -⟩ := passedValidTaskCheck_of_true hcheck
  -- the task as it arrives: the struct carries all that the constructor reads
  let arrived := dbusProgressToScheduledTask
    (scheduledTaskToDbusProgress { normalised task with processAssignedId := id } h)
  have hexchange : arrived.exchange = task.exchange := Exchange.ofInt32_toInt32 task.exchange
  have htrade : arrived.tradeType = task.tradeType := TradeType.ofInt32_toInt32 task.tradeType
  have htokens (token : Bytes) : token ∈ arrived.tokens ↔ token ∈ task.tokens :=
    (perm_sortTokens task.tokens).mem_iff
  have hlength : (progressWatchOf cache (normalised task) id h).snapshots.length =
      (progressWatchOf cache (normalised task) id h).task.tokens.length ↔
        ∀ token ∈ task.tokens, Cached (cache task.exchange) task.tradeType token := by
    refine (length_snapshots_iff (cache arrived.exchange) arrived rfl).trans ?_
    simp only [htokens, hexchange, htrade]
  unfold WatchesAll
  rw [hlength, and_iff_left_iff_imp]
  intro hcached token hm
  rw [← htrade]
  refine mem_snapshots_of_cached rfl ((htokens token).mpr hm) ?_
  rw [hexchange, htrade]
  exact hcached token hm

/-- A task for a rise of ten percent of one spot token. -/
private def riseOf (token : Bytes) : ScheduledPriceTask :=
  { taskId := bytes "t1"
    userId := bytes "u1"
    tokens := [token]
    tradeType := .spot
    exchange := .binance
    percentProp := some { percentage := 10, direction := .up } }

/-- Every exchange has cached one spot token. -/
private def oneCached : InstrumentExchangeSet := fun _ ↦
  UniqueElements.empty.insert
    { name := bytes "BTC-USDT", currentPrice := 100, open24h := 90, tradeType := .spot }

/-- A cached token is watched. -/
theorem watchesAll_cached :
    WatchesAll (progressWatchOf oneCached (riseOf (bytes "BTC-USDT")) 1 rfl)
      (riseOf (bytes "BTC-USDT")) :=
  (watchesAll_iff oneCached 1 (by decide +kernel) rfl).mpr
    (by decide +kernel)

/-- A token that is not cached passes the check, and is not watched. -/
theorem not_watchesAll_uncached :
    passedValidTaskCheck (riseOf (bytes "ETH-USDT")) = (true, riseOf (bytes "ETH-USDT")) ∧
      ¬WatchesAll (progressWatchOf oneCached (riseOf (bytes "ETH-USDT")) 1 rfl)
        (riseOf (bytes "ETH-USDT")) := by
  refine ⟨by decide +kernel, ?_⟩
  rintro ⟨hlength, -⟩
  revert hlength
  decide +kernel

end KeepMyJournal.ProgressTasks
