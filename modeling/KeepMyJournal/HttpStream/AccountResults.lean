import KeepMyJournal.HttpStream.AccountTaskQueue
import Mathlib.Data.List.Perm.Subperm

/-!
# Every account request is answered once

What holds of the requests and their results whatever task ids they come with: no request returns
twice, and no result is returned twice. Which request a result goes to is decided by the task id
alone, or by the place that an old `end()` points at.
-/

namespace KeepMyJournal.HttpStream.AccountTasks

open KeepMyJournal.Base KeepMyJournal.Base.Transition KeepMyJournal.Common
open KeepMyJournal.AccountMonitor

/-- The requests whose task is on its way, or whose result is, is stored or has been returned. -/
def carried (s : AccountTasks) : List Nat :=
  s.tasks ++ (s.replies ++ s.monitoredTaskResults ++ s.returned.map Prod.snd).map
    ProducedResult.request

/-- The requests that wait for a result, and those that have returned one. -/
def asking (s : AccountTasks) : List Nat := s.waiting ++ s.returned.map Prod.fst

/-- Each request is carried once and asks once; the results that are kept are no more than the
limit; and a result that has been returned carries the ids of the request it was produced for. -/
structure AnsweredOnce (s : AccountTasks) : Prop where
  carried : s.carried.Nodup
  asking : s.asking.Nodup
  bounded : s.monitoredTaskResults.length ≤ resultBufferLimit
  returned : ∀ answer ∈ s.returned, s.Own answer.2.request answer.2

/-- Each result that has been returned has the task id that was asked for. -/
def Named (s : AccountTasks) : Prop :=
  ∀ answer ∈ s.returned, ∃ task, s.requests[answer.1]? = some task ∧
    answer.2.result.taskID = task.taskID

/-! ### What a step moves -/

variable {s s' : AccountTasks}

/-- A result that is found and erased is taken out of the list. -/
private theorem perm_cons_eraseP {α : Type} {p : α → Bool} {l : List α} {a : α}
    (h : l.find? p = some a) : l.Perm (a :: l.eraseP p) := by
  induction l with
  | nil => cases h
  | cons b l ih =>
    cases hb : p b with
    | true =>
      rw [List.find?_cons_of_pos hb] at h
      obtain rfl := Option.some.inj h
      rw [List.eraseP_cons_of_pos hb]
    | false =>
      rw [List.find?_cons_of_neg (by rw [hb]; decide)] at h
      rw [List.eraseP_cons_of_neg (by rw [hb]; decide)]
      exact ((ih h).cons b).trans (List.Perm.swap a b _)

private theorem subperm_map {α β : Type} (f : α → β) {l l' : List α} (h : l.Subperm l') :
    (l.map f).Subperm (l'.map f) := by
  obtain ⟨m, hperm, hsub⟩ := h
  exact ⟨m.map f, hperm.map f, hsub.map f⟩

/-- A step that is no request carries nothing more than before, and nothing more asks. -/
private structure Moves (s s' : AccountTasks) : Prop where
  carried : s'.carried.Subperm s.carried
  asking : s'.asking.Subperm s.asking
  bounded : s.monitoredTaskResults.length ≤ resultBufferLimit →
    s'.monitoredTaskResults.length ≤ resultBufferLimit

private theorem moves_monitored {request : Nat} (hm : request ∈ s.tasks)
    (task : AccountScheduledTask) : Moves s (s.monitored request task) := by
  refine ⟨?_, List.Subperm.refl _, id⟩
  -- at most one result is produced
  have hone : (((s.monitors.iterate task).2.toList.map fun r ↦
      ({ request := request, result := r } : ProducedResult)).map ProducedResult.request).Sublist
        [request] := by
    cases (s.monitors.iterate task).2 with
    | none => exact List.nil_sublist _
    | some result => exact List.Sublist.refl _
  have htasks : s.tasks.Perm (request :: s.tasks.erase request) := List.perm_cons_erase hm
  unfold carried monitored
  simp only [List.map_append, List.append_assoc]
  refine List.Subperm.trans ?_ (htasks.append_right _).symm.subperm
  refine List.Subperm.trans ?_ List.perm_middle.subperm
  refine List.Subperm.append (List.Subperm.refl _) ?_
  refine List.Subperm.trans ?_ List.perm_middle.subperm
  exact List.Subperm.append (List.Subperm.refl _) (hone.append_right _).subperm

private theorem moves_received {reply : ProducedResult} (hm : reply ∈ s.replies) :
    Moves s (s.received reply) := by
  refine ⟨?_, List.Subperm.refl _, ?_⟩
  · have hreplies : s.replies.Perm (reply :: s.replies.erase reply) := List.perm_cons_erase hm
    have hkept : (if s.monitoredTaskResults.length = resultBufferLimit then
        s.monitoredTaskResults.drop 1
        else s.monitoredTaskResults).Sublist s.monitoredTaskResults := by
      split
      · exact List.drop_sublist _ _
      · exact List.Sublist.refl _
    unfold carried received
    refine List.Subperm.append (List.Subperm.refl _) (subperm_map _ ?_)
    refine List.Subperm.append ?_ (List.Subperm.refl _)
    refine List.Subperm.trans ?_ (hreplies.append_right _).symm.subperm
    refine List.Subperm.trans ?_ List.perm_middle.subperm
    refine List.Subperm.append (List.Subperm.refl _) ?_
    exact (List.perm_append_singleton _ _).subperm.trans (hkept.cons_cons reply).subperm
  · intro hbounded
    unfold received
    dsimp only
    rw [List.length_append, List.length_singleton]
    split
    · next hfull =>
      rw [List.length_drop, hfull]
      decide
    · next hfull => omega

private theorem moves_handedOut {request : Nat} {found : ProducedResult}
    {left : List ProducedResult} (hm : request ∈ s.waiting)
    (hstored : s.monitoredTaskResults.Perm (found :: left)) :
    Moves s (s.handedOut request found left) := by
  refine ⟨?_, ?_, ?_⟩
  · refine List.Subperm.append (List.Subperm.refl _) (subperm_map _ ?_)
    unfold handedOut
    simp only [List.map_append, List.append_assoc, List.map_singleton]
    refine List.Subperm.append (List.Subperm.refl _) ?_
    refine List.Subperm.trans ?_ (hstored.append_right _).symm.subperm
    rw [← List.append_assoc]
    exact (List.perm_append_singleton _ _).subperm
  · have hwaiting : s.waiting.Perm (request :: s.waiting.erase request) :=
      List.perm_cons_erase hm
    unfold asking handedOut
    simp only [List.map_append, List.map_singleton]
    refine List.Subperm.trans ?_ (hwaiting.append_right _).symm.subperm
    rw [← List.append_assoc]
    exact (List.perm_append_singleton _ _).subperm
  · intro hbounded
    refine Nat.le_trans (Nat.le_succ left.length) ?_
    rwa [hstored.length_eq] at hbounded

private theorem moves_searched {request : Nat} (hm : request ∈ s.waiting)
    (task : AccountScheduledTask) : Moves s (s.searched request task) := by
  unfold searched
  split
  · exact ⟨List.Subperm.refl _, List.Subperm.refl _, id⟩
  · next found hfound => exact moves_handedOut hm (perm_cons_eraseP hfound)

private theorem moves_lost (s : AccountTasks) (request : Nat) : Moves s (s.lost request) := by
  refine ⟨?_, List.Subperm.refl _, id⟩
  refine List.Subperm.append List.erase_sublist.subperm (subperm_map _ ?_)
  refine List.Subperm.append ?_ (List.Subperm.refl _)
  exact List.Subperm.append List.eraseP_sublist.subperm (List.Subperm.refl _)

/-- Every event but a request moves what is there. -/
private theorem moves_step {e : AccountTaskEvent} (hstep : step s e = some s')
    (he : ∀ task, e ≠ .request task) : Moves s s' := by
  cases effect_of_step hstep with
  | request => exact absurd rfl (he _)
  | monitor hm ht => exact moves_monitored hm _
  | receive hm => exact moves_received hm
  | lose => exact moves_lost s _
  | search hm ht => exact moves_searched hm _
  | awake | undefined => exact ⟨List.Subperm.refl _, List.Subperm.refl _, id⟩
  | found hm hfound =>
    obtain ⟨hlt, rfl⟩ := List.getElem?_eq_some_iff.mp hfound
    exact moves_handedOut hm (List.getElem_cons_eraseIdx_perm hlt).symm
  | timeOut hm =>
    refine ⟨List.Subperm.refl _, ?_, id⟩
    exact List.Subperm.append List.erase_sublist.subperm (List.Subperm.refl _)

/-! ### Runs -/

/-- Together with it, what is carried and what asks has been requested, and the results that are
on their way belong to the requests they were produced for. -/
private structure Accounted (s : AccountTasks) : Prop where
  sound : Sound s
  known : ∀ request ∈ s.carried ++ s.asking, request < s.requests.length
  once : AnsweredOnce s

private theorem nodup_of_subperm {l l' : List Nat} (h : l.Subperm l') (hn : l'.Nodup) :
    l.Nodup := by
  obtain ⟨m, hperm, hsub⟩ := h
  exact hperm.nodup_iff.mp (hn.sublist hsub)

/-- What is carried, or asks, after a request. -/
private theorem perm_queued (s : AccountTasks) (task : AccountScheduledTask) :
    (s.queued task).carried.Perm (s.requests.length :: s.carried) ∧
      (s.queued task).asking.Perm (s.requests.length :: s.asking) := by
  unfold carried asking queued
  simp only [List.append_assoc]
  exact ⟨List.perm_middle, List.perm_middle⟩

private theorem accounted_queued (hs : Accounted s) {task : AccountScheduledTask}
    (hstep : step s (.request task) = some (s.queued task)) : Accounted (s.queued task) := by
  obtain ⟨hcarried, hasking⟩ := perm_queued s task
  have hlen : (s.queued task).requests.length = s.requests.length + 1 := List.length_append
  refine ⟨sound_step hs.sound hstep, ?_, ?_, ?_, hs.once.bounded, ?_⟩
  · intro request hrequest
    rw [hlen]
    rw [List.mem_append, hcarried.mem_iff, hasking.mem_iff, List.mem_cons, List.mem_cons]
      at hrequest
    rcases hrequest with (rfl | hold) | (rfl | hold)
    · exact Nat.lt_succ_self _
    · exact Nat.lt_succ_of_lt (hs.known request (List.mem_append_left _ hold))
    · exact Nat.lt_succ_self _
    · exact Nat.lt_succ_of_lt (hs.known request (List.mem_append_right _ hold))
  · refine hcarried.nodup_iff.mpr (List.nodup_cons.mpr ⟨fun hmem ↦ ?_, hs.once.carried⟩)
    exact Nat.lt_irrefl _ (hs.known _ (List.mem_append_left _ hmem))
  · refine hasking.nodup_iff.mpr (List.nodup_cons.mpr ⟨fun hmem ↦ ?_, hs.once.asking⟩)
    exact Nat.lt_irrefl _ (hs.known _ (List.mem_append_right _ hmem))
  · intro answer hanswer
    exact own_queued (hs.once.returned answer hanswer) task

private theorem accounted_step {e : AccountTaskEvent} (hs : Accounted s)
    (hstep : step s e = some s') : Accounted s' := by
  rcases step_cases hs.sound.exchange hstep with ⟨task, rfl, -, rfl⟩ | hshrinks
  · exact accounted_queued hs hstep
  · have hrequest : ∀ task, e ≠ .request task := by
      rintro task rfl
      cases effect_of_step hstep
      have hlen := congrArg List.length hshrinks.requests
      rw [queued, List.length_append, List.length_singleton] at hlen
      omega
    have hmoves := moves_step hstep hrequest
    refine ⟨sound_step hs.sound hstep, ?_, nodup_of_subperm hmoves.carried hs.once.carried,
      nodup_of_subperm hmoves.asking hs.once.asking, hmoves.bounded hs.once.bounded, ?_⟩
    · rw [hshrinks.requests]
      intro request hrequest
      refine hs.known request ?_
      exact (List.Subperm.append hmoves.carried hmoves.asking).subset hrequest
    · intro answer hanswer
      rw [own_of_requests hshrinks.requests]
      rcases hshrinks.returned answer hanswer with hanswer | ⟨-, hstored⟩
      · exact hs.once.returned answer hanswer
      · exact hs.sound.produced _ (List.mem_append_right _ hstored)

private theorem named_step {e : AccountTaskEvent} (hs : Sound s) (hn : Named s)
    (hstep : step s e = some s') (hapt : AptTest s e s') : Named s' := by
  intro answer hanswer
  have hnamed : ∃ task, s.requests[answer.1]? = some task ∧
      answer.2.result.taskID = task.taskID := by
    rcases taskID_of_step hs hstep hapt answer hanswer with hold | hnew
    · exact hn answer hold
    · exact hnew
  rcases step_cases hs.exchange hstep with ⟨task, -, -, rfl⟩ | hshrinks
  · obtain ⟨asked, hasked, hid⟩ := hnamed
    refine ⟨asked, ?_, hid⟩
    rw [getElem?_queued (List.getElem?_eq_some_iff.mp hasked).choose]
    exact hasked
  · rwa [hshrinks.requests]

/-- Over every run, whatever the task ids are: no request returns more than one result, no result
is returned to more than one request, at most 5000 results are kept, and what a request returns
carries the ids of the request it was produced for. Where each test that finds an old `end()` at a
place finds a result with the task id there, it is one with the task id that was asked for. -/
theorem answeredOnce_of_run {events : List AccountTaskEvent}
    (hrun : run step {} events = some s) :
    AnsweredOnce s ∧ (Along step AptTest {} events → Named s) := by
  constructor
  · have hinv : Accounted s := by
      apply inv_run (I := Accounted) (fun _ _ _ hs hstep ↦ accounted_step hs hstep) ?_ hrun
      exact ⟨sound_start, List.forall_mem_nil _, List.nodup_nil, List.nodup_nil, Nat.zero_le _,
        List.forall_mem_nil _⟩
    exact hinv.once
  · intro hapt
    refine (inv_run_of_along (I := fun s ↦ Sound s ∧ Named s) ?_ ?_ hapt hrun).2
    · rintro s e s' ⟨hs, hn⟩ hstep hapt
      exact ⟨sound_step hs hstep, named_step hs hn hstep hapt⟩
    · exact ⟨sound_start, List.forall_mem_nil _⟩

/-- Two requests under one task id: the first is answered with the result of the second, which
arrives while it sleeps, and the second then finds no result. -/
private def sameTaskID : List AccountTaskEvent :=
  [.request { exchange := .okex, tradeType := .spot, operation := .add },
    .request { exchange := .okex, tradeType := .spot, operation := .remove }, .search 0,
    .monitor 1,
    .receive { request := 1, result := { state := .running, userID := [], taskID := [] } },
    .test 0 (some 0), .search 1, .lose 0, .timeOut 1]

theorem answeredOnce_of_run_sameTaskID : ∃ s, run step {} sameTaskID = some s ∧
    s.returned.map (fun answer ↦ (answer.1, answer.2.request)) = [(0, 1)] ∧ AnsweredOnce s ∧
    Named s := by
  have hrun : (run step {} sameTaskID).map
      (fun s ↦ s.returned.map fun answer ↦ (answer.1, answer.2.request)) = some [(0, 1)] := by
    decide +kernel
  obtain ⟨s, hs, hends⟩ := Option.map_eq_some_iff.mp hrun
  obtain ⟨honce, hnamed⟩ := answeredOnce_of_run hs
  exact ⟨s, hs, hends, honce, hnamed (by decide +kernel)⟩

end KeepMyJournal.HttpStream.AccountTasks
