import KeepMyJournal.Common.WatchService

/-!
# The timers of a price service

Which watches wait on their timers. A watch that holds its timer waits on it once, or has its
handler queued; one that has let it go waits no more; and the watches that are listed are those that
hold their timers and those that have come to their end.
-/

namespace KeepMyJournal.Common

open KeepMyJournal.Base KeepMyJournal.Base.Transition

variable {κ ω ι ρ : Type}

/-- A watch starts to wait when it is scheduled, and waits again after every tick, until one ends
it for good. -/
structure WatchClass.Rearms (C : WatchClass κ ω ι ρ) (Ended : ω → Prop) : Prop where
  schedule : ∀ k, (C.call (C.construct k)).2 = true
  tick : ∀ w i, C.timer w = true →
    (C.tick w i).2.2 = true ∨ C.timer (C.tick w i).1 = false ∧ Ended (C.tick w i).1

namespace WatchService

variable (C : WatchClass κ ω ι ρ) (Ended : ω → Prop)

/-- What the timers and the lists say of the watches. -/
structure Checked (s : WatchService ω ρ) : Prop where
  known : ∀ watch, s.watches[watch]? = none → s.timers.outstanding watch = 0
  running : ∀ watch w, s.watches[watch]? = some w → C.timer w = true →
    s.timers.outstanding watch = 1 ∧ watch ∈ s.globalTaskList.tasksOf (C.task w).userId
  stopped : ∀ watch w, s.watches[watch]? = some w → C.timer w = false →
    watch ∉ s.timers.waits ∧ s.timers.outstanding watch ≤ 1
  listed : ∀ userId, ∀ watch ∈ s.globalTaskList.tasksOf userId, ∃ w,
    s.watches[watch]? = some w ∧ (C.task w).userId = userId ∧
      (C.timer w = true ∨ Ended w ∧ s.timers.outstanding watch = 0)
  once : ∀ userId, (s.globalTaskList.tasksOf userId).Nodup

variable {C Ended} {s s' : WatchService ω ρ} {timers : Timers Nat} {watch : Nat} {w : ω}

private theorem checked_empty : Checked C Ended ({} : WatchService ω ρ) where
  known _ _ := rfl
  running := by simp
  stopped := by simp
  listed _ _ h := by cases h
  once _ := List.nodup_nil

/-- What is outstanding for a watch whose timer is cancelled, if it holds one. -/
private theorem outstanding_cancelTimer (timers : Timers Nat) (watch : Nat) (w : ω) (i : Nat) :
    (cancelTimer C timers watch w).outstanding i =
      if C.timer w = true ∧ watch = i then timers.queue.count { owner := i, aborted := false }
      else timers.outstanding i := by
  unfold cancelTimer
  split
  · next h =>
    rw [Timers.outstanding_cancel]
    simp only [h, true_and]
  · next h => rw [if_neg fun hh ↦ h hh.1]

/-! ### The steps -/

private theorem checked_schedule (hC : C.Rearms Ended) (hs : Checked C Ended s) (k : κ) :
    Checked C Ended (s.schedule C k) := by
  have hwaits := hC.schedule k
  have htimer := C.timer_call _ hwaits
  have hlast : (s.schedule C k).watches[s.watches.length]? = some (C.call (C.construct k)).1 :=
    List.getElem?_concat_length
  have hnew : s.watches[s.watches.length]? = none := List.getElem?_eq_none (Nat.le_refl _)
  have hold : ∀ i, i ≠ s.watches.length → (s.schedule C k).watches[i]? = s.watches[i]? := by
    intro i hi
    rw [schedule]
    dsimp only
    rw [List.getElem?_append]
    split
    · rfl
    · next hlt =>
      rw [List.getElem?_eq_none (by simp; omega), List.getElem?_eq_none (by omega)]
  have hout : ∀ i, (s.schedule C k).timers.outstanding i =
      s.timers.outstanding i + if s.watches.length = i then 1 else 0 := by
    intro i
    rw [schedule]
    dsimp only
    rw [if_pos hwaits, Timers.outstanding_asyncWait]
  have hlist : ∀ u, (s.schedule C k).globalTaskList.tasksOf u = _ := fun u ↦
    TaskList.tasksOf_pushBack s.globalTaskList (C.task (C.construct k)).userId u s.watches.length
  constructor
  · intro i hi
    by_cases heq : i = s.watches.length
    · rw [heq, hlast] at hi
      cases hi
    · rw [hout, if_neg (Ne.symm heq), hs.known i ((hold i heq).symm.trans hi)]
  · intro i v hv hrunning
    by_cases heq : i = s.watches.length
    · subst heq
      obtain rfl := Option.some.inj (hlast.symm.trans hv)
      rw [hout, if_pos rfl, hs.known _ hnew, hlist, C.task_call, if_pos rfl]
      exact ⟨rfl, List.mem_append_right _ List.mem_cons_self⟩
    · obtain ⟨hone, hmem⟩ := hs.running i v ((hold i heq).symm.trans hv) hrunning
      rw [hout, if_neg (Ne.symm heq), hone, hlist]
      refine ⟨rfl, ?_⟩
      split
      · exact List.mem_append_left _ hmem
      · exact hmem
  · intro i v hv hstopped
    by_cases heq : i = s.watches.length
    · subst heq
      obtain rfl := Option.some.inj (hlast.symm.trans hv)
      rw [htimer] at hstopped
      cases hstopped
    · obtain ⟨hnone, hle⟩ := hs.stopped i v ((hold i heq).symm.trans hv) hstopped
      rw [hout, if_neg (Ne.symm heq)]
      refine ⟨?_, hle⟩
      rw [schedule]
      dsimp only
      rw [if_pos hwaits, Timers.mem_waits_asyncWait]
      rintro (hmem | rfl)
      · exact hnone hmem
      · exact heq rfl
  · intro u i hi
    have hin : i ∈ s.globalTaskList.tasksOf u ∨
        i = s.watches.length ∧ u = (C.task (C.construct k)).userId := by
      rw [hlist] at hi
      split at hi
      · next hu => exact (List.mem_append.mp hi).imp_right fun h ↦ ⟨List.mem_singleton.mp h, hu⟩
      · exact .inl hi
    rcases hin with hin | ⟨rfl, rfl⟩
    · obtain ⟨v, hv, huser, hstate⟩ := hs.listed u i hin
      have hne : i ≠ s.watches.length := by
        rintro rfl
        rw [hnew] at hv
        cases hv
      refine ⟨v, (hold i hne).trans hv, huser, hstate.imp_right ?_⟩
      rw [hout, if_neg (Ne.symm hne)]
      exact id
    · exact ⟨_, hlast, by rw [C.task_call], .inl htimer⟩
  · intro u
    rw [hlist]
    split
    · refine List.nodup_append.mpr ⟨hs.once u, List.pairwise_singleton _ _, ?_⟩
      intro i hi j hj heq
      rw [List.mem_singleton.mp hj] at heq
      subst heq
      obtain ⟨v, hv, -⟩ := hs.listed u _ hi
      rw [hnew] at hv
      cases hv
    · exact hs.once u

/-- The timers move on without a watch. -/
private theorem checked_timers (hs : Checked C Ended s)
    (hwaits : ∀ i ∈ timers.waits, i ∈ s.timers.waits)
    (hout : ∀ i, timers.outstanding i = s.timers.outstanding i) :
    Checked C Ended { s with timers := timers } where
  known i hi := (hout i).trans (hs.known i hi)
  running i v hv hrunning := by
    rw [hout]
    exact hs.running i v hv hrunning
  stopped i v hv hstopped := by
    rw [hout]
    obtain ⟨hnone, hle⟩ := hs.stopped i v hv hstopped
    exact ⟨fun hi ↦ hnone (hwaits i hi), hle⟩
  listed u i hi := by
    obtain ⟨v, hv, huser, hstate⟩ := hs.listed u i hi
    exact ⟨v, hv, huser, hstate.imp_right (And.imp_right (hout i).trans)⟩
  once := hs.once

/-- The handler of a watch leaves nothing outstanding for it but the wait it starts. -/
private theorem outstanding_ticked (hs : Checked C Ended s) {h : Handler Nat}
    (ht : s.timers.take h = some timers) (hok : h.aborted = false)
    (hw : s.watches[h.owner]? = some w) (instruments : ι) (i : Nat) :
    s.timers.outstanding h.owner = 1 ∧
      (s.ticked C timers h.owner w instruments).timers.outstanding i =
        if h.owner = i then if (C.tick w instruments).2.2 then 1 else 0
        else s.timers.outstanding i := by
  have hone : s.timers.outstanding h.owner = 1 := by
    have htake := Timers.outstanding_take ht h.owner
    rw [if_pos ⟨rfl, hok⟩] at htake
    cases htimer : C.timer w with
    | true => exact (hs.running _ w hw htimer).1
    | false =>
      have hle := (hs.stopped _ w hw htimer).2
      omega
  refine ⟨hone, ?_⟩
  have hcancel : (cancelTimer C timers h.owner w).outstanding i =
      if h.owner = i then 0 else s.timers.outstanding i := by
    have htake := Timers.outstanding_take ht i
    rw [outstanding_cancelTimer]
    by_cases heq : h.owner = i
    · subst heq
      rw [if_pos ⟨rfl, hok⟩, hone] at htake
      have hnone : timers.waits.count h.owner +
          timers.queue.count { owner := h.owner, aborted := false } = 0 := by
        rw [Timers.outstanding] at htake
        omega
      rw [if_pos rfl]
      split
      · omega
      · exact hnone
    · rw [if_neg (fun hh ↦ heq hh.1), Nat.add_zero] at htake
      rw [if_neg (fun hh ↦ heq hh.2), if_neg heq, htake]
  rw [ticked]
  dsimp only
  split
  · rw [Timers.outstanding_asyncWait, hcancel]
    split
    · rfl
    · rfl
  · rw [hcancel]

/-- Of the other watches none starts to wait. -/
private theorem waits_ticked {h : Handler Nat} (ht : s.timers.take h = some timers) {i : Nat}
    (hne : h.owner ≠ i) {instruments : ι}
    (hi : i ∈ (s.ticked C timers h.owner w instruments).timers.waits) : i ∈ s.timers.waits := by
  rw [← (Timers.take_spec ht).2.1]
  rw [ticked] at hi
  dsimp only at hi
  have hcancel : i ∈ (cancelTimer C timers h.owner w).waits := by
    split at hi
    · exact (Timers.mem_waits_asyncWait.mp hi).resolve_right (Ne.symm hne)
    · exact hi
  unfold cancelTimer at hcancel
  split at hcancel
  · exact (Timers.mem_waits_cancel.mp hcancel).1
  · exact hcancel

private theorem checked_ticked (hC : C.Rearms Ended) (hs : Checked C Ended s) {h : Handler Nat}
    (ht : s.timers.take h = some timers) (hok : h.aborted = false)
    (hw : s.watches[h.owner]? = some w) (instruments : ι) :
    Checked C Ended (s.ticked C timers h.owner w instruments) := by
  have hout := fun i ↦ (outstanding_ticked hs ht hok hw instruments i).2
  have hone := (outstanding_ticked hs ht hok hw instruments h.owner).1
  -- a tick waits again exactly if it keeps the timer
  have hagain : C.timer (C.tick w instruments).1 = true → (C.tick w instruments).2.2 = true := by
    intro hrunning
    have htimer : C.timer w = true := by
      cases hstopped : C.timer w with
      | true => rfl
      | false => rw [← hrunning, C.tick_stopped w instruments hstopped]
    refine (hC.tick w instruments htimer).resolve_right fun hends ↦ ?_
    rw [hends.1] at hrunning
    cases hrunning
  constructor
  · intro i hi
    have hnone : s.watches[i]? = none := by
      rw [ticked] at hi
      dsimp only at hi
      rwa [List.getElem?_eq_none_iff, List.length_set, ← List.getElem?_eq_none_iff] at hi
    rw [hout, if_neg, hs.known i hnone]
    rintro rfl
    rw [hw] at hnone
    cases hnone
  · intro i v hv hrunning
    rcases getElem?_set_cases hv with ⟨rfl, rfl⟩ | ⟨hne, hv⟩
    · have htimer : C.timer w = true := by
        cases hstopped : C.timer w with
        | true => rfl
        | false => rw [← hrunning, C.tick_stopped w instruments hstopped]
      rw [hout, if_pos rfl, if_pos (hagain hrunning), C.task_tick]
      exact ⟨rfl, (hs.running _ w hw htimer).2⟩
    · rw [hout, if_neg hne]
      exact hs.running i v hv hrunning
  · intro i v hv hstopped
    rcases getElem?_set_cases hv with ⟨rfl, rfl⟩ | ⟨hne, hv⟩
    · have hnone : (s.ticked C timers h.owner w instruments).timers.outstanding h.owner = 0 := by
        rw [hout, if_pos rfl, if_neg]
        intro hwaits
        rw [C.timer_tick w instruments hwaits] at hstopped
        cases hstopped
      exact ⟨Timers.not_mem_waits_of_outstanding hnone, by omega⟩
    · obtain ⟨hnone, hle⟩ := hs.stopped i v hv hstopped
      refine ⟨fun hi ↦ hnone (waits_ticked ht hne hi), ?_⟩
      rw [hout, if_neg hne]
      exact hle
  · intro u i hi
    obtain ⟨v, hv, huser, hstate⟩ := hs.listed u i hi
    by_cases hne : h.owner = i
    · subst hne
      obtain rfl := Option.some.inj (hw.symm.trans hv)
      have htimer := hstate.resolve_right fun hended ↦ by omega
      refine ⟨(C.tick w instruments).1, ?_,
        (congrArg _ (C.task_tick w instruments)).trans huser, ?_⟩
      · rw [ticked]
        dsimp only
        rw [List.getElem?_set_self', hw]
        rfl
      · rcases hC.tick w instruments htimer with hwaits | ⟨hstopped, hended⟩
        · exact .inl (C.timer_tick w instruments hwaits)
        · refine .inr ⟨hended, ?_⟩
          rw [hout, if_pos rfl, if_neg]
          intro hwaits
          rw [C.timer_tick w instruments hwaits] at hstopped
          cases hstopped
    · refine ⟨v, (List.getElem?_set_ne hne).trans hv, huser, hstate.imp_right ?_⟩
      rw [hout, if_neg hne]
      exact id
  · exact hs.once

/-- The watch that is erased stands in one list, at one place. -/
private theorem mem_erased_iff (hs : Checked C Ended s) {r : Removal} {iter : Nat}
    (hiter : (s.globalTaskList.tasksOf r.userId)[iter]? = some watch) (u : Bytes) (i : Nat) :
    i ∈ (s.erased C r iter watch w).globalTaskList.tasksOf u ↔
      i ∈ s.globalTaskList.tasksOf u ∧ i ≠ watch := by
  rw [erased, TaskList.tasksOf_updateAt]
  split
  · next hu =>
    subst hu
    obtain ⟨hlt, heq⟩ := List.getElem?_eq_some_iff.mp hiter
    rw [← heq, ← (hs.once r.userId).erase_getElem iter hlt, (hs.once r.userId).mem_erase_iff]
    exact and_comm
  · next hu =>
    refine (and_iff_left_of_imp ?_).symm
    rintro hi rfl
    obtain ⟨v, hv, huser, -⟩ := hs.listed u i hi
    obtain ⟨v', hv', huser', -⟩ := hs.listed r.userId i (List.mem_of_getElem? hiter)
    obtain rfl := Option.some.inj (hv.symm.trans hv')
    exact hu (huser.symm.trans huser')

private theorem checked_erased (hs : Checked C Ended s) {r : Removal} {iter : Nat}
    (hiter : (s.globalTaskList.tasksOf r.userId)[iter]? = some watch)
    (hw : s.watches[watch]? = some w) : Checked C Ended (s.erased C r iter watch w) := by
  have hlist := mem_erased_iff (w := w) hs hiter
  have hother : ∀ i, watch ≠ i →
      (s.erased C r iter watch w).timers.outstanding i = s.timers.outstanding i := by
    intro i hne
    rw [erased, outstanding_cancelTimer, if_neg fun hh ↦ hne hh.2]
  have hwaits : ∀ i ∈ (s.erased C r iter watch w).timers.waits, i ∈ s.timers.waits := by
    intro i hi
    rw [erased] at hi
    dsimp only at hi
    unfold cancelTimer at hi
    split at hi
    · exact (Timers.mem_waits_cancel.mp hi).1
    · exact hi
  constructor
  · intro i hi
    have hnone : s.watches[i]? = none := by
      rw [erased] at hi
      dsimp only at hi
      rwa [List.getElem?_eq_none_iff, List.length_set, ← List.getElem?_eq_none_iff] at hi
    rw [hother, hs.known i hnone]
    rintro rfl
    rw [hw] at hnone
    cases hnone
  · intro i v hv hrunning
    rcases getElem?_set_cases hv with ⟨rfl, rfl⟩ | ⟨hne, hv⟩
    · rw [C.timer_stop] at hrunning
      cases hrunning
    · obtain ⟨hone, hmem⟩ := hs.running i v hv hrunning
      rw [hother i hne, hlist]
      exact ⟨hone, hmem, Ne.symm hne⟩
  · intro i v hv hstopped
    rcases getElem?_set_cases hv with ⟨rfl, rfl⟩ | ⟨hne, hv⟩
    · rw [erased, outstanding_cancelTimer]
      cases htimer : C.timer w with
      | true =>
        obtain ⟨hone, -⟩ := hs.running watch w hw htimer
        refine ⟨?_, ?_⟩
        · dsimp only
          rw [cancelTimer, if_pos htimer]
          exact fun hi ↦ (Timers.mem_waits_cancel.mp hi).2 rfl
        · rw [if_pos ⟨rfl, rfl⟩]
          rw [Timers.outstanding] at hone
          omega
      | false =>
        obtain ⟨hnone, hle⟩ := hs.stopped watch w hw htimer
        refine ⟨?_, ?_⟩
        · dsimp only
          rw [cancelTimer, if_neg (by rw [htimer]; decide)]
          exact hnone
        · rw [if_neg fun hh ↦ by cases hh.1]
          exact hle
    · obtain ⟨hnone, hle⟩ := hs.stopped i v hv hstopped
      rw [hother i hne]
      exact ⟨fun hi ↦ hnone (hwaits i hi), hle⟩
  · intro u i hi
    obtain ⟨hi, hne⟩ := (hlist u i).mp hi
    obtain ⟨v, hv, huser, hstate⟩ := hs.listed u i hi
    rw [hother i (Ne.symm hne)]
    exact ⟨v, (List.getElem?_set_ne (Ne.symm hne)).trans hv, huser, hstate⟩
  · intro u
    rw [erased, TaskList.tasksOf_updateAt]
    split
    · exact (hs.once u).sublist (List.eraseIdx_sublist _ _)
    · exact hs.once u

/-! ### Runs -/

private theorem checked_runHandler (hC : C.Rearms Ended) (hs : Checked C Ended s)
    {h : Handler Nat} {instruments : ι} (hrun : s.runHandler C h instruments = some s') :
    Checked C Ended s' := by
  obtain ⟨timers, ht, hrun⟩ := Option.bind_eq_some_iff.mp hrun
  split at hrun
  · next haborted =>
    obtain rfl := Option.some.inj hrun
    refine checked_timers hs ?_ fun i ↦ ?_
    · rw [(Timers.take_spec ht).2.1]
      exact fun i hi ↦ hi
    · rw [Timers.outstanding_take ht i, if_neg, Nat.add_zero]
      rintro ⟨-, hok⟩
      rw [haborted] at hok
      cases hok
  · next hok =>
    obtain ⟨w, hw, rfl⟩ := Option.map_eq_some_iff.mp hrun
    exact checked_ticked hC hs ht (Bool.eq_false_iff.mpr hok) hw instruments

/-- A call enters its user and leaves the lists as they are. -/
private theorem checked_removeCall (hs : Checked C Ended s) (userId : Bytes)
    (removal : Option Removal) :
    Checked C Ended
      { s with globalTaskList := s.globalTaskList.updateAt userId id, removal := removal } := by
  have hlist : ∀ u, TaskList.tasksOf (s.globalTaskList.updateAt userId id) u =
      s.globalTaskList.tasksOf u := by
    intro u
    rw [TaskList.tasksOf_updateAt, id_eq, ite_self]
  refine ⟨hs.known, ?_, hs.stopped, ?_, ?_⟩
  · intro i v hv hrunning
    dsimp only
    rw [hlist]
    exact hs.running i v hv hrunning
  · intro u i hi
    dsimp only at hi
    rw [hlist] at hi
    exact hs.listed u i hi
  · intro u
    dsimp only
    rw [hlist]
    exact hs.once u

private theorem checked_step (hC : C.Rearms Ended) {e : WatchEvent κ ι} (hs : Checked C Ended s)
    (hstep : s.step C e = some s') : Checked C Ended s' := by
  cases e with
  | runHandler h instruments => exact checked_runHandler hC hs hstep
  | schedule k =>
    cases step_cases C hstep
    exact checked_schedule hC hs k
  | expire watch =>
    cases step_cases C hstep with
    | expire ht =>
      exact checked_timers hs (Timers.expire_spec ht).2.1 (Timers.outstanding_expire ht)
  | removeCall userId taskId =>
    cases step_cases C hstep
    exact checked_removeCall hs userId _
  | removeRound =>
    cases step_cases C hstep with
    | removeRound hiter hw => exact checked_erased hs hiter hw
  | removeReturn =>
    cases step_cases C hstep
    exact ⟨hs.known, hs.running, hs.stopped, hs.listed, hs.once⟩

/-- In every run of a service, a watch that holds its timer is listed and has one wait or one queued
handler; one that does not waits no more; and a watch that is listed holds its timer or has come to
its end. -/
theorem checked_run (hC : C.Rearms Ended) {events : List (WatchEvent κ ι)}
    (hrun : run (step C) {} events = some s) : Checked C Ended s :=
  inv_run (fun _ _ _ hs hstep ↦ checked_step hC hs hstep) checked_empty hrun

end WatchService

end KeepMyJournal.Common
