import KeepMyJournal.Base.First
import KeepMyJournal.HttpStream.TaskCheck
import KeepMyJournal.ProgressTasks.Watch
import Mathlib.Tactic.Ring

/-!
# When a progress task alerts

The purpose of a progress task is to report a token once its price has moved by the requested
percentage. The watch notifies a token once, at the first tick its comparator accepts; this
module compares that tick with the first one at which the requested price is reached.
-/

namespace KeepMyJournal.ProgressTasks

open KeepMyJournal.Base KeepMyJournal.Common KeepMyJournal.HttpStream

/-- The price a move of `percentage` percent leads to. -/
def requestedPrice (price percentage : ℚ) : ℚ := price * (1 + percentage / 100)

/-- A live price has made the requested move: up to the requested price, or down to it. -/
def Reached (price percentage live : ℚ) : Prop :=
  if 0 < percentage then requestedPrice price percentage ≤ live
  else live ≤ requestedPrice price percentage

/-- The live prices the comparator accepts: the target lies above the cached price in both
directions, and the comparator has it on the left. -/
def Accepted (price percentage live : ℚ) : Prop :=
  if 0 < percentage then live ≤ requestedPrice price |percentage|
  else requestedPrice price |percentage| ≤ live

/-- The live prices for which the watch alerts at the right tick, if at all. -/
def AlertsInTime (price percentage : ℚ) (prices : List ℚ) : Prop :=
  if 0 < percentage then ∀ live ∈ prices.head?, live = requestedPrice price percentage
  else ∀ live ∈ prices,
    requestedPrice price percentage < live ∧ live < requestedPrice price (-percentage)

/-- For a rise every price is accepted or has reached the requested one, and only the
requested price itself is both. -/
private theorem forall_firstAt_rise {price percentage : ℚ} (hp : 0 < percentage)
    {prices : List ℚ} :
    (∀ k, FirstAt (Accepted price percentage) prices k ↔
        FirstAt (Reached price percentage) prices k) ↔
      ∀ live ∈ prices.head?, live = requestedPrice price percentage := by
  rw [forall_firstAt_iff]
  have hacc : ∀ live, Accepted price percentage live ↔ live ≤ requestedPrice price percentage := by
    intro live
    rw [Accepted, if_pos hp, abs_of_pos hp]
  have hrea : ∀ live, Reached price percentage live ↔ requestedPrice price percentage ≤ live := by
    intro live
    rw [Reached, if_pos hp]
  simp only [hacc, hrea]
  cases prices with
  | nil => simp [not_firstAt_nil]
  | cons live rest =>
    have htotal := le_total live (requestedPrice price percentage)
    constructor
    · intro h l hl
      obtain ⟨hle, hge⟩ := h 0 ((firstAt_cons_zero live).mpr htotal) l hl
      exact le_antisymm hle hge
    · intro h k hk l hl
      cases k with
      | zero => exact le_antisymm_iff.mp (h l hl)
      | succ k => exact absurd htotal ((firstAt_cons_succ live k).mp hk).1

/-- For a fall no price is both accepted and at or below the requested one, so the watch is
right only while neither happens. -/
private theorem forall_firstAt_fall {price percentage : ℚ} (hprice : 0 < price)
    (hp : percentage < 0) {prices : List ℚ} :
    (∀ k, FirstAt (Accepted price percentage) prices k ↔
        FirstAt (Reached price percentage) prices k) ↔
      ∀ live ∈ prices,
        requestedPrice price percentage < live ∧ live < requestedPrice price (-percentage) := by
  rw [forall_firstAt_iff]
  have hacc : ∀ live, Accepted price percentage live ↔
      requestedPrice price (-percentage) ≤ live := by
    intro live
    rw [Accepted, if_neg (not_lt.mpr hp.le), abs_of_neg hp]
  have hrea : ∀ live, Reached price percentage live ↔ live ≤ requestedPrice price percentage := by
    intro live
    rw [Reached, if_neg (not_lt.mpr hp.le)]
  have hgap : requestedPrice price percentage < requestedPrice price (-percentage) := by
    have hmul : price * percentage < 0 := mul_neg_of_pos_of_neg hprice hp
    unfold requestedPrice
    linarith
  simp only [hacc, hrea]
  constructor
  · intro h live hl
    by_contra hout
    have hm : ∃ x ∈ prices,
        requestedPrice price (-percentage) ≤ x ∨ x ≤ requestedPrice price percentage := by
      refine ⟨live, hl, ?_⟩
      rw [not_and_or, not_lt, not_lt] at hout
      exact hout.symm
    obtain ⟨k, hk⟩ := exists_firstAt hm
    obtain ⟨⟨x, hx, -⟩, -⟩ := id hk
    obtain ⟨hhigh, hlow⟩ := h k hk x hx
    linarith
  · rintro h k ⟨⟨x, hx, hor⟩, -⟩
    obtain ⟨hlow, hhigh⟩ := h x (List.mem_of_getElem? hx)
    rcases hor with hor | hor
    · exact absurd hor (not_le.mpr hhigh)
    · exact absurd hor (not_le.mpr hlow)

/-- The tick the comparator accepts first is the one that reaches the price first exactly
when the watch is in time. -/
theorem forall_firstAt_accepted_iff {price percentage : ℚ} (hprice : 0 < price)
    (hp : percentage ≠ 0) {prices : List ℚ} :
    (∀ k, FirstAt (Accepted price percentage) prices k ↔
        FirstAt (Reached price percentage) prices k) ↔
      AlertsInTime price percentage prices := by
  unfold AlertsInTime
  split
  · next h => exact forall_firstAt_rise h
  · next h => exact forall_firstAt_fall hprice (lt_of_le_of_ne (not_lt.mp h) hp)

namespace ProgressWatch

/-- The tick numbered `k` puts the token into a notification. -/
def NotifiedAt (w : ProgressWatch) (caches : List InstrumentSet) (token : Bytes) (k : Nat) : Prop :=
  ∃ r, (w.notifications caches)[k]? = some (some r) ∧
    token ∈ r.tokens.map DbusInstrumentType.name

/-- The snapshots of the target's name are copies of the target, and there is one. -/
private def Pending (w : ProgressWatch) (s₀ : InstrumentType) : Prop :=
  s₀ ∈ w.snapshots ∧ ∀ s ∈ w.snapshots, s.name = s₀.name → s = s₀

private theorem not_named_of_gone {w : ProgressWatch} {waits : Bool} {caches : List InstrumentSet}
    {token : Bytes} (hgone : ∀ s ∈ w.snapshots, s.name ≠ token) {k : Nat}
    {r : ScheduledProgressTaskResult} (hr : (ticks w waits caches)[k]? = some (some r)) :
    token ∉ r.tokens.map DbusInstrumentType.name := by
  induction caches generalizing w waits k with
  | nil => simp [ticks] at hr
  | cons cache rest ih =>
    cases waits with
    | false =>
      cases k with
      | zero => simp [ticks] at hr
      | succ k => exact ih hgone hr
    | true =>
      cases k with
      | zero =>
        have hres : (w.checkPrices cache).result = some r := Option.some.inj hr
        intro htoken
        obtain ⟨s, hs, hname, -⟩ :=
          mem_resultTokens.mp (result_checkPrices_names.mp ⟨r, hres, htoken⟩)
        exact hgone s hs hname
      | succ k =>
        refine ih ?_ hr
        intro s hs
        exact hgone s (mem_snapshots_checkPrices.mp hs).1

private theorem named_iff_reported {w : ProgressWatch} {s₀ : InstrumentType} (hp : w.Pending s₀)
    (cache : InstrumentSet) :
    s₀.name ∈ (w.resultTokens cache).map DbusInstrumentType.name ↔
      w.isReported cache s₀ = true := by
  rw [mem_resultTokens]
  constructor
  · rintro ⟨s, hs, hname, hr⟩
    rwa [hp.2 s hs hname] at hr
  · intro hr
    exact ⟨s₀, hp.1, rfl, hr⟩

private theorem pending_checkPrices {w : ProgressWatch} {s₀ : InstrumentType} (hp : w.Pending s₀)
    {cache : InstrumentSet} (hr : ¬w.isReported cache s₀ = true) :
    (w.checkPrices cache).watch.Pending s₀ := by
  constructor
  · apply mem_snapshots_checkPrices.mpr
    exact ⟨hp.1, fun hn ↦ hr ((named_iff_reported hp cache).mp hn)⟩
  · intro s hs hname
    exact hp.2 s (mem_snapshots_checkPrices.mp hs).1 hname

private theorem isReported_eq {w : ProgressWatch} {cache : InstrumentSet} {s₀ : InstrumentType}
    {live : ℚ} (hl : (cache.findItem s₀).map InstrumentType.currentPrice = some live) :
    w.isReported cache s₀ = w.comparator s₀.currentPrice live := by
  obtain ⟨found, hf, rfl⟩ := Option.map_eq_some_iff.mp hl
  rw [isReported, hf]

/-- While its snapshot is pending, a token is notified at the first tick whose live price the
comparator accepts. -/
private theorem ticks_of_pending {w : ProgressWatch} {s₀ : InstrumentType} (hp : w.Pending s₀)
    (htimer : w.periodicTimer = true) {caches : List InstrumentSet} {prices : List ℚ}
    (hlive : caches.map (fun cache ↦ (cache.findItem s₀).map InstrumentType.currentPrice) =
      prices.map some) (k : Nat) :
    (∃ r, (ticks w true caches)[k]? = some (some r) ∧
        s₀.name ∈ r.tokens.map DbusInstrumentType.name) ↔
      FirstAt (fun live ↦ w.comparator s₀.currentPrice live = true) prices k := by
  induction caches generalizing w prices k with
  | nil =>
    obtain rfl : prices = [] := by simpa using hlive.symm
    simp [ticks, not_firstAt_nil]
  | cons cache rest ih =>
    cases prices with
    | nil => simp at hlive
    | cons live prices =>
      rw [List.map_cons, List.map_cons, List.cons.injEq] at hlive
      obtain ⟨hnow, hrest⟩ := hlive
      have hrep := isReported_eq (w := w) hnow
      cases k with
      | zero =>
        rw [firstAt_cons_zero, ← hrep, ← named_iff_reported hp, ← result_checkPrices_names]
        constructor
        · rintro ⟨r, hr, hname⟩
          exact ⟨r, Option.some.inj hr, hname⟩
        · rintro ⟨r, hr, hname⟩
          exact ⟨r, congrArg some hr, hname⟩
      | succ k =>
        rw [firstAt_cons_succ, ← hrep]
        by_cases hr : w.isReported cache s₀ = true
        · -- the token is notified now and never again
          constructor
          · rintro ⟨r, hk, hname⟩
            change (ticks (w.checkPrices cache).watch _ rest)[k]? = _ at hk
            refine absurd hname (not_named_of_gone ?_ hk)
            intro s hs hs₀
            obtain ⟨hsw, hsn⟩ := mem_snapshots_checkPrices.mp hs
            exact hsn (hs₀ ▸ (named_iff_reported hp cache).mpr hr)
          · rintro ⟨hn, -⟩
            exact absurd hr hn
        · have hp' := pending_checkPrices hp hr
          obtain ⟨ht, hw⟩ := checkPrices_waits (List.ne_nil_of_mem hp'.1)
          have hi := ih hp' (ht.trans htimer) hrest k
          rw [comparator_checkPrices] at hi
          rw [and_iff_right hr, ← hi]
          change (∃ r, (ticks _ (w.checkPrices cache).waits rest)[k]? = some (some r) ∧ _) ↔ _
          rw [hw, htimer]

/-- The target price lies above the cached one whatever the sign of the percentage. -/
theorem target_currentPrice (percentage : ℚ) (instr : InstrumentType) :
    (target percentage instr).currentPrice = requestedPrice instr.currentPrice |percentage| := by
  unfold target requestedPrice
  dsimp only
  split
  · next h =>
    rw [abs_of_neg h]
    ring
  · next h =>
    rw [abs_of_nonneg (not_lt.mp h)]
    ring

private theorem pending_construct {cache₀ : InstrumentSet} {task : ScheduledPriceTask}
    (h : task.percentProp.isSome) {instr : InstrumentType} (hinstr : instr ∈ cache₀.toList)
    (htoken : instr.name ∈ task.tokens) (htrade : instr.tradeType = task.tradeType) :
    (construct cache₀ task h).Pending (target (task.percentProp.get h).percentage instr) := by
  have hfound : cache₀.toList.find?
      (fun i ↦ i.tradeType == task.tradeType && i.name == instr.name) = some instr := by
    cases hf : cache₀.toList.find?
      (fun i ↦ i.tradeType == task.tradeType && i.name == instr.name) with
    | none =>
      rw [List.find?_eq_none] at hf
      exact absurd (by simp [htrade]) (hf instr hinstr)
    | some found =>
      have hkey := List.find?_some hf
      rw [Bool.and_eq_true, beq_iff_eq, beq_iff_eq] at hkey
      refine congrArg some ?_
      refine List.inj_on_of_nodup_map cache₀.nodup_keys (List.mem_of_find?_eq_some hf) hinstr ?_
      exact Prod.ext hkey.2 (hkey.1.trans htrade.symm)
  constructor
  · refine List.mem_filterMap.mpr ⟨instr.name, htoken, ?_⟩
    rw [hfound, Option.map_some]
  · intro s hs hname
    obtain ⟨token, -, hs⟩ := List.mem_filterMap.mp hs
    obtain ⟨i, hi, rfl⟩ := Option.map_eq_some_iff.mp hs
    have hkey := List.find?_some hi
    rw [Bool.and_eq_true, beq_iff_eq, beq_iff_eq] at hkey
    rw [target_name, target_name] at hname
    rw [← hkey.2, hname, hfound] at hi
    rw [Option.some.inj hi]

private theorem comparator_construct (cache₀ : InstrumentSet) {task : ScheduledPriceTask}
    (h : task.percentProp.isSome) (hp : (task.percentProp.get h).percentage ≠ 0)
    (instr : InstrumentType) (live : ℚ) :
    (construct cache₀ task h).comparator
        (target (task.percentProp.get h).percentage instr).currentPrice live = true ↔
      Accepted instr.currentPrice (task.percentProp.get h).percentage live := by
  rw [target_currentPrice]
  unfold construct Accepted
  dsimp only
  split
  · next hneg =>
    rw [if_neg (not_lt.mpr hneg.le)]
    exact decide_eq_true_iff
  · next hneg =>
    rw [if_pos (lt_of_le_of_ne (not_lt.mp hneg) (Ne.symm hp))]
    exact decide_eq_true_iff

/-- A watched token is notified at the first tick whose live price the comparator accepts, and
at no other. -/
theorem notifiedAt_iff_firstAt_accepted {cache₀ : InstrumentSet} {task : ScheduledPriceTask}
    (h : task.percentProp.isSome) (hp : (task.percentProp.get h).percentage ≠ 0)
    {instr : InstrumentType} (hinstr : instr ∈ cache₀.toList)
    (htoken : instr.name ∈ task.tokens) (htrade : instr.tradeType = task.tradeType)
    {caches : List InstrumentSet} {prices : List ℚ}
    (hlive : caches.map (fun cache ↦ (cache.findItem instr).map InstrumentType.currentPrice) =
      prices.map some) (k : Nat) :
    (construct cache₀ task h).NotifiedAt caches instr.name k ↔
      FirstAt (Accepted instr.currentPrice (task.percentProp.get h).percentage) prices k := by
  have hpend := pending_construct h hinstr htoken htrade
  have hkey : ∀ cache : InstrumentSet,
      cache.findItem (target (task.percentProp.get h).percentage instr) = cache.findItem instr := by
    intro cache
    apply UniqueElements.findItem_congr
    rw [InstrumentType.key, target_name, target_tradeType, InstrumentType.key]
  simp only [← hkey] at hlive
  have hticks := ticks_of_pending (w := (construct cache₀ task h).call.1) hpend rfl hlive k
  simp only [target_name] at hticks
  have hcomp : (fun live ↦ (construct cache₀ task h).call.1.comparator
      (target (task.percentProp.get h).percentage instr).currentPrice live = true) =
      Accepted instr.currentPrice (task.percentProp.get h).percentage := by
    funext live
    exact propext (comparator_construct cache₀ h hp instr live)
  rw [hcomp] at hticks
  exact hticks

end ProgressWatch

/-- Every token of an accepted progress task that is cached with a positive price is notified
exactly at the first tick that reaches the requested price, if and only if the live prices
are of the kind for which the watch alerts in time. -/
theorem notifiedAt_first_reached_iff {submitted task : ScheduledPriceTask}
    (hvalid : passedValidTaskCheck submitted = (true, task)) (h : task.percentProp.isSome)
    {cache₀ : InstrumentSet} {instr : InstrumentType} (hinstr : instr ∈ cache₀.toList)
    (htoken : instr.name ∈ task.tokens) (htrade : instr.tradeType = task.tradeType)
    (hprice : 0 < instr.currentPrice) {caches : List InstrumentSet} {prices : List ℚ}
    (hlive : caches.map (fun cache ↦ (cache.findItem instr).map InstrumentType.currentPrice) =
      prices.map some) :
    (∀ k, (ProgressWatch.construct cache₀ task h).NotifiedAt caches instr.name k ↔
        FirstAt (Reached instr.currentPrice (task.percentProp.get h).percentage) prices k) ↔
      AlertsInTime instr.currentPrice (task.percentProp.get h).percentage prices := by
  have hp : (task.percentProp.get h).percentage ≠ 0 :=
    (passedValidTaskCheck_of_true hvalid).2.2 _ (Option.get_mem h)
  rw [← forall_firstAt_accepted_iff hprice hp]
  simp only [ProgressWatch.notifiedAt_iff_firstAt_accepted h hp hinstr htoken htrade hlive]

/-- A cache that holds one spot instrument at a price. -/
private def cacheAt (price : ℚ) : InstrumentSet :=
  UniqueElements.empty.insert
    { name := bytes "BTC-USDT", currentPrice := price, tradeType := .spot }

/-- A task that waits for a rise of one spot token by ten percent. -/
private def riseTask : ScheduledPriceTask :=
  { taskId := bytes "t1"
    userId := bytes "u1"
    tokens := [bytes "BTC-USDT"]
    tradeType := .spot
    exchange := .binance
    percentProp := some { percentage := 10, direction := .up } }

/-- Where the first live price is the requested one, the alert comes at that tick. -/
theorem notifiedAt_first_reached_exact :
    passedValidTaskCheck riseTask = (true, riseTask) ∧
      ∀ k, (ProgressWatch.construct (cacheAt 100) riseTask rfl).NotifiedAt
          [cacheAt 110, cacheAt 130] (bytes "BTC-USDT") k ↔
        FirstAt (Reached 100 10) [110, 130] k := by
  have hvalid : passedValidTaskCheck riseTask = (true, riseTask) := by decide +kernel
  refine ⟨hvalid, (notifiedAt_first_reached_iff hvalid rfl
    (show (⟨bytes "BTC-USDT", 100, 0, .spot⟩ : InstrumentType) ∈ (cacheAt 100).toList by
      decide +kernel)
    (by decide +kernel) rfl (by norm_num) (by decide +kernel)).mpr ?_⟩
  simp [AlertsInTime, requestedPrice, riseTask]
  norm_num

/-- A task for a rise by ten percent alerts although the price has risen by five. -/
theorem notifiedAt_below_requested :
    passedValidTaskCheck riseTask = (true, riseTask) ∧
      ¬∀ k, (ProgressWatch.construct (cacheAt 100) riseTask rfl).NotifiedAt [cacheAt 105]
          (bytes "BTC-USDT") k ↔ FirstAt (Reached 100 10) [105] k := by
  refine ⟨by decide +kernel, ?_⟩
  intro h
  have hnotified : (ProgressWatch.construct (cacheAt 100) riseTask rfl).NotifiedAt [cacheAt 105]
      (bytes "BTC-USDT") 0 := by
    refine ⟨_, show (ProgressWatch.notifications _ _)[0]? =
      some (some ⟨scheduledTaskToDbusProgress riseTask rfl, [⟨bytes "BTC-USDT", 110, 0⟩]⟩) by
        decide +kernel, ?_⟩
    decide +kernel
  have hreached := (firstAt_cons_zero _).mp ((h 0).mp hnotified)
  rw [Reached, if_pos (by norm_num), requestedPrice] at hreached
  norm_num at hreached

end KeepMyJournal.ProgressTasks
