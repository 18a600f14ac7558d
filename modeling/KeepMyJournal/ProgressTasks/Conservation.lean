import KeepMyJournal.Common.WatchRun
import KeepMyJournal.HttpStream.TaskCheck
import KeepMyJournal.ProgressTasks.Service

/-!
# What a progress watch has notified and what it still watches

The purpose of `m_snapshots` is to hold the tokens that have not been notified yet. Every
token the constructor takes up is either there or in exactly one notification, once.
-/

namespace KeepMyJournal.ProgressTasks

open KeepMyJournal.Base KeepMyJournal.Common

namespace ProgressWatch

/-- The tokens that are still watched. -/
def pendingTokens (w : ProgressWatch) : List Bytes := w.snapshots.map InstrumentType.name

/-- The tokens of a list of notifications, in the order in which they were sent. -/
def notifiedTokens (results : List ScheduledProgressTaskResult) : List Bytes :=
  results.flatMap (fun r ↦ r.tokens.map DbusInstrumentType.name)

/-- The two lists share no token, and every token taken up is in one of them, once. -/
structure Accounted (taken notified pending : List Bytes) : Prop where
  once : notified.Nodup
  disjoint : ∀ token ∈ notified, token ∉ pending
  complete : ∀ token, token ∈ taken ↔ token ∈ notified ∨ token ∈ pending

/-- It is enough that the two lists together are a permutation of distinct tokens. -/
theorem accounted_of_perm {taken notified pending : List Bytes} (hn : taken.Nodup)
    (h : (notified ++ pending).Perm taken) : Accounted taken notified pending := by
  obtain ⟨honce, -, hdisj⟩ := List.nodup_append.mp (h.nodup_iff.mpr hn)
  constructor
  · exact honce
  · intro token ht hp
    exact hdisj token ht token hp rfl
  · intro token
    rw [← h.mem_iff, List.mem_append]

/-- The constructor takes up the tokens it finds under the task's trade type. -/
theorem pendingTokens_construct (cache₀ : InstrumentSet) {task : ScheduledPriceTask}
    (h : task.percentProp.isSome) :
    (construct cache₀ task h).pendingTokens = task.tokens.filter (fun token ↦
      (cache₀.toList.find?
        (fun instr ↦ instr.tradeType == task.tradeType && instr.name == token)).isSome) := by
  unfold pendingTokens construct
  dsimp only
  rw [List.map_filterMap, ← List.filterMap_eq_filter]
  apply List.filterMap_congr
  intro token _
  cases hf : cache₀.toList.find?
      (fun instr ↦ instr.tradeType == task.tradeType && instr.name == token) with
  | none =>
    simp only [Option.guard, hf]
    rfl
  | some instr =>
    simp only [Option.guard, hf, Option.map_some, target_name, (name_of_find_eq_some hf).1]
    rfl

private theorem nodup_pendingTokens_construct (cache₀ : InstrumentSet) {task : ScheduledPriceTask}
    (h : task.percentProp.isSome) (hn : task.tokens.Nodup) :
    (construct cache₀ task h).pendingTokens.Nodup := by
  rw [pendingTokens_construct]
  exact hn.filter _

private theorem names_resultTokens (w : ProgressWatch) (instruments : InstrumentSet) :
    (w.resultTokens instruments).map DbusInstrumentType.name =
      (w.snapshots.filter (w.isReported instruments)).map InstrumentType.name := by
  rw [resultTokens, List.map_map]
  rfl

/-- With distinct tokens, the erase loop takes out the reported snapshots and no others. -/
theorem snapshots_checkPrices_of_nodup {w : ProgressWatch} (hn : w.pendingTokens.Nodup)
    (instruments : InstrumentSet) :
    (w.checkPrices instruments).watch.snapshots =
      w.snapshots.filter (fun s ↦ !w.isReported instruments s) := by
  rw [snapshots_checkPrices, eraseTokens_eq_filter]
  apply List.filter_congr
  intro s hs
  rw [Bool.eq_iff_iff, Bool.not_eq_true', Bool.not_eq_true', ← Bool.not_eq_true,
    ← Bool.not_eq_true, List.contains_iff_mem, mem_resultTokens]
  apply not_congr
  constructor
  · rintro ⟨r, hr, hname, hrep⟩
    rwa [List.inj_on_of_nodup_map hn hr hs hname] at hrep
  · intro hrep
    exact ⟨s, hs, rfl, hrep⟩

/-- The tokens of a tick and the tokens it leaves are the ones watched before. -/
theorem perm_checkPrices {w : ProgressWatch} (hn : w.pendingTokens.Nodup)
    (instruments : InstrumentSet) :
    ((w.resultTokens instruments).map DbusInstrumentType.name ++
      (w.checkPrices instruments).watch.pendingTokens).Perm w.pendingTokens := by
  rw [names_resultTokens, pendingTokens, snapshots_checkPrices_of_nodup hn, ← List.map_append]
  exact (List.filter_append_perm _ _).map _

/-- A watch between two ticks: it has accounted for the tokens taken up, and unless it has been
removed it waits on its timer whenever it holds one. -/
private structure Conserves (taken : List Bytes) (s : WatchRun ProgressWatch
    ScheduledProgressTaskResult) : Prop where
  perm : (notifiedTokens s.results ++ s.watch.pendingTokens).Perm taken
  timer : s.removed = false → s.waits = true → s.watch.periodicTimer = true

private theorem notifiedTokens_append (results : List ScheduledProgressTaskResult)
    (w : ProgressWatch) (instruments : InstrumentSet) :
    notifiedTokens (results ++ (w.checkPrices instruments).result.toList) =
      notifiedTokens results ++ (w.resultTokens instruments).map DbusInstrumentType.name := by
  unfold notifiedTokens
  rw [List.flatMap_append, result_checkPrices]
  by_cases he : (w.resultTokens instruments).isEmpty
  · rw [if_pos he, List.isEmpty_iff.mp he]
    rfl
  · rw [if_neg he]
    simp

/-- After a tick of a watch that holds its timer, it waits again exactly while tokens are
pending, and what waits holds the timer. -/
theorem rearmed_checkPrices {w : ProgressWatch} (ht : w.periodicTimer = true)
    (instruments : InstrumentSet) :
    ((w.checkPrices instruments).waits = true ↔
        (w.checkPrices instruments).watch.snapshots ≠ []) ∧
      ((w.checkPrices instruments).waits = true →
        (w.checkPrices instruments).watch.periodicTimer = true) := by
  by_cases he : (w.checkPrices instruments).watch.snapshots = []
  · have hw : (w.checkPrices instruments).waits = false := by
      rw [snapshots_checkPrices] at he
      rw [checkPrices_eq]
      dsimp only
      rw [if_pos (List.isEmpty_iff.mpr he)]
    simp [hw, he]
  · obtain ⟨htimer, hwaits⟩ := checkPrices_waits he
    rw [htimer, hwaits, ht]
    exact ⟨⟨fun _ ↦ he, fun _ ↦ rfl⟩, id⟩

private theorem conserves_start (w : ProgressWatch) :
    Conserves w.pendingTokens (WatchRun.start watchClass w) := by
  constructor
  · change ([] ++ w.call.1.pendingTokens).Perm w.pendingTokens
    have hsame : w.call.1.pendingTokens = w.pendingTokens := by
      unfold call
      split <;> rfl
    rw [List.nil_append, hsame]
  · intro _
    exact watchClass.timer_call w

private theorem conserves_step {taken : List Bytes} (hn : taken.Nodup)
    {s s' : WatchRun ProgressWatch ScheduledProgressTaskResult}
    {e : WatchRunEvent InstrumentSet} (hs : Conserves taken s)
    (hstep : WatchRun.step watchClass s e = some s') : Conserves taken s' := by
  cases e with
  | stop expired =>
    rw [WatchRun.step_stop hstep]
    constructor
    · exact hs.perm
    · intro hr
      cases hr
  | tick instruments =>
    obtain ⟨hw, rfl⟩ := WatchRun.step_tick hstep
    have hpending : s.watch.pendingTokens.Nodup :=
      (List.nodup_append.mp (hs.perm.nodup_iff.mpr hn)).2.1
    constructor
    · change (notifiedTokens (s.results ++ (s.watch.checkPrices instruments).result.toList) ++
        (s.watch.checkPrices instruments).watch.pendingTokens).Perm taken
      rw [notifiedTokens_append, List.append_assoc]
      exact ((perm_checkPrices hpending instruments).append_left _).trans hs.perm
    · intro hr
      exact (rearmed_checkPrices (hs.timer hr hw) instruments).2

end ProgressWatch

/-- In every run of the watch of a task with distinct tokens: the notified and the watched
tokens are disjoint and together the tokens the constructor took up, each notified once; and
until a removal, each tick starts a new wait exactly if it leaves tokens to watch. -/
theorem tokens_accounted (cache₀ : InstrumentSet) {task : ScheduledPriceTask}
    (h : task.percentProp.isSome) (hn : task.tokens.Nodup)
    {es : List (WatchRunEvent InstrumentSet)} {s : WatchRun ProgressWatch
      ScheduledProgressTaskResult}
    (hrun : Transition.run (WatchRun.step watchClass)
      (WatchRun.start watchClass (ProgressWatch.construct cache₀ task h)) es = some s) :
    ProgressWatch.Accounted (ProgressWatch.construct cache₀ task h).pendingTokens
        (ProgressWatch.notifiedTokens s.results) s.watch.pendingTokens ∧
      ∀ instruments s', WatchRun.step watchClass s (.tick instruments) = some s' →
        s.removed = false → (s'.waits = true ↔ s'.watch.snapshots ≠ []) := by
  have htaken := ProgressWatch.nodup_pendingTokens_construct cache₀ h hn
  have hs := Transition.inv_run (fun _ _ _ hs ↦ ProgressWatch.conserves_step htaken hs)
    (ProgressWatch.conserves_start _) hrun
  constructor
  · exact ProgressWatch.accounted_of_perm htaken hs.perm
  · intro instruments s' hstep hr
    obtain ⟨hw, rfl⟩ := WatchRun.step_tick hstep
    exact (ProgressWatch.rearmed_checkPrices (hs.timer hr hw) instruments).1

/-- Two spot instruments at a price each. -/
private def twoAt (btc eth : ℚ) : InstrumentSet :=
  (UniqueElements.empty.insert
    { name := bytes "BTC-USDT", currentPrice := btc, tradeType := .spot }).insert
    { name := bytes "ETH-USDT", currentPrice := eth, tradeType := .spot }

/-- A task that watches both, and a third token that is not listed. -/
private def threeTokens : ScheduledPriceTask :=
  { tokens := [bytes "BTC-USDT", bytes "ETH-USDT", bytes "XRP-USDT"]
    tradeType := .spot
    exchange := .binance
    percentProp := some { percentage := 10, direction := .up } }

/-- The watch after three ticks: nothing is reported, then one token, then the other. -/
private def afterThreeTicks : WatchRun ProgressWatch ScheduledProgressTaskResult :=
  (Transition.run (WatchRun.step watchClass)
    (WatchRun.start watchClass (ProgressWatch.construct (twoAt 100 100) threeTokens rfl))
    [.tick (twoAt 200 200), .tick (twoAt 100 200), .tick (twoAt 200 100)]).get (by decide +kernel)

/-- Both listed tokens are notified, one after the other, and no wait is left. -/
theorem tokens_accounted_twoOfThree :
    ProgressWatch.notifiedTokens afterThreeTicks.results =
        [bytes "BTC-USDT", bytes "ETH-USDT"] ∧
      afterThreeTicks.waits = false ∧
      ProgressWatch.Accounted
        (ProgressWatch.construct (twoAt 100 100) threeTokens rfl).pendingTokens
        (ProgressWatch.notifiedTokens afterThreeTicks.results)
        afterThreeTicks.watch.pendingTokens := by
  refine ⟨by decide +kernel, by decide +kernel, ?_⟩
  have hvalid : HttpStream.passedValidTaskCheck threeTokens = (true, threeTokens) := by
    decide +kernel
  exact (tokens_accounted (twoAt 100 100) rfl (HttpStream.nodup_of_passedValidTaskCheck hvalid)
    (Option.some_get _).symm).1

end KeepMyJournal.ProgressTasks
