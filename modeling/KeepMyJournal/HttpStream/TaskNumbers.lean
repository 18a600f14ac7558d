import KeepMyJournal.HttpStream.TaskBatch
import KeepMyJournal.HttpStream.TaskTable

/-!
# The numbers of the price tasks

`process_assigned_id`, which `schedule_new_price_tasks` counts up, over every run of requests and
whatever becomes of their pushes. The two services keep one table of tasks, split by service and
user, in the order of the numbers.

The requests are handled one at a time. The server runs its sessions on several threads
(`http_stream/main.cpp:74–81`) and nothing locks the counter, so that two requests that overlap can
draw the same number, or push in another order than they have drawn.
-/

namespace KeepMyJournal.HttpStream

open KeepMyJournal.Base KeepMyJournal.Common

/-! ### The push loop -/

/-- The numbers that a push loop gives out to the tasks it schedules come after all that were
given out before it, in order. -/
private structure Numbers (p p' : HttpProcess Services) (scheduled : List ScheduledPriceTask)
    (n : Nat) : Prop where
  mono : p.taskId ≤ p'.taskId
  few : p'.taskId.toNat ≤ p.taskId.toNat + n
  above : ∀ task ∈ scheduled, p.taskId < task.processAssignedId
  below : ∀ task ∈ scheduled, task.processAssignedId ≤ p'.taskId
  increasing : scheduled.Pairwise fun a b ↦ a.processAssignedId < b.processAssignedId

/-- The counter does not come round. -/
private theorem toNat_succ {counter : UInt64} {n : Nat}
    (h : counter.toNat + (n + 1) < UInt64.size) :
    (counter + 1).toNat = counter.toNat + 1 := by
  rw [UInt64.toNat_add, Nat.mod_eq_of_lt]
  · rfl
  · exact Nat.lt_of_le_of_lt (by simp) h

/-- What follows the first number of a loop comes after it. -/
private theorem Numbers.cons {p p₁ p' : HttpProcess Services} {scheduled : List ScheduledPriceTask}
    {n : Nat} (h : Numbers p₁ p' scheduled n) (hnext : p₁.taskId = p.taskId + 1)
    (hsucc : (p.taskId + 1).toNat = p.taskId.toNat + 1) : Numbers p p' scheduled (n + 1) := by
  have hlt : p.taskId < p₁.taskId := by
    rw [hnext, UInt64.lt_iff_toNat_lt, hsucc]
    exact Nat.lt_succ_self _
  refine ⟨UInt64.le_trans (UInt64.le_of_lt hlt) h.mono, ?_, ?_, h.below, h.increasing⟩
  · have hfew := h.few
    rw [hnext, hsucc] at hfew
    omega
  · exact fun task ht ↦ UInt64.lt_trans hlt (h.above task ht)

private theorem numbers_pushTasks (env : Environment) (result : Bool)
    (erredList : List ScheduledPriceTask) {tasks : List ScheduledPriceTask}
    (hset : ∀ task ∈ tasks, task.percentProp.isSome ∨ task.timeProp.isSome)
    (p : HttpProcess Services) (hfew : p.taskId.toNat + tasks.length < UInt64.size) :
    Numbers p (pushTasks (Services.proxies env) result erredList tasks p).2
      (scheduledOf (attempts env p.taskId p.services.pushes tasks)) tasks.length := by
  induction tasks generalizing result erredList p with
  | nil =>
    exact ⟨UInt64.le_refl _, Nat.le_refl _, List.forall_mem_nil _, List.forall_mem_nil _,
      List.Pairwise.nil⟩
  | cons task tasks ih =>
    have hset' := fun t ht ↦ hset t (List.mem_cons_of_mem _ ht)
    have hsucc := toNat_succ hfew
    let p₁ : HttpProcess Services := { p with taskId := p.taskId + 1 }
    let task₁ : ScheduledPriceTask := { task with processAssignedId := p.taskId + 1 }
    obtain ⟨s', hpush, hcalls, -⟩ :=
      pushTask_outcome env result task₁ (hset task List.mem_cons_self) p₁
    have hnext : HttpProcess.nextTaskId p = (.ok (p.taskId + 1), p₁) := rfl
    have hp₁ : p₁.services = p.services := rfl
    have hrest : p₁.taskId.toNat + tasks.length < UInt64.size := by
      rw [show p₁.taskId = p.taskId + 1 from rfl, hsucc]
      rw [List.length_cons] at hfew
      omega
    have hless : p.taskId < p.taskId + 1 := by
      rw [UInt64.lt_iff_toNat_lt, hsucc]
      exact Nat.lt_succ_self _
    rw [attempts, pushTasks, Throwing.bind_ok hnext, List.length_cons]
    cases ho : env.outcome p.services.pushes with
    | scheduled =>
      rw [hp₁, ho] at hpush
      have hnumbers := ih true erredList hset' { p₁ with services := s' } hrest
      rw [hcalls] at hnumbers
      rw [Throwing.bind_ok hpush, if_pos rfl, scheduledOf]
      have hcons := hnumbers.cons (p := p) rfl hsucc
      refine ⟨hcons.mono, hcons.few, ?_, ?_, List.pairwise_cons.mpr ⟨?_, hcons.increasing⟩⟩
      · exact List.forall_mem_cons.mpr ⟨hless, hcons.above⟩
      · exact List.forall_mem_cons.mpr ⟨hnumbers.mono, hcons.below⟩
      · exact hnumbers.above
    | refused =>
      rw [hp₁, ho] at hpush
      have hnumbers := ih false (erredList ++ [task₁]) hset' { p₁ with services := s' } hrest
      rw [hcalls] at hnumbers
      rw [Throwing.bind_ok hpush, if_neg (by simp), scheduledOf]
      exact hnumbers.cons rfl hsucc
    | thrown error =>
      rw [hp₁, ho] at hpush
      rw [Throwing.bind_error hpush, scheduledOf]
      refine ⟨UInt64.le_of_lt hless, ?_, List.forall_mem_nil _, List.forall_mem_nil _,
        List.Pairwise.nil⟩
      dsimp only
      rw [show p₁.taskId = p.taskId + 1 from rfl, hsucc]
      omega

/-- The clean-up gives out no numbers. -/
private theorem taskId_stopErred (env : Environment) (erredList : List ScheduledPriceTask)
    (p : HttpProcess Services) :
    (stopErred (Services.proxies env) erredList p).2.taskId = p.taskId := by
  induction erredList generalizing p with
  | nil => rfl
  | cons task rest ih =>
    obtain ⟨s', hstop, -⟩ := stopScheduledPriceTask_spec env task.userId task.taskId p
    rw [stopErred, Throwing.bind_ok hstop, ih]

/-- The tasks that are erred are tasks that were pushed. -/
private theorem mem_erredOf {erredList erred : List ScheduledPriceTask}
    {pushed : List (ScheduledPriceTask × PushOutcome)} (h : erredOf erredList pushed = .ok erred) :
    ∀ task ∈ erred, task ∈ erredList ∨ ∃ a ∈ pushed, a.1 = task := by
  induction pushed generalizing erredList with
  | nil =>
    obtain rfl := Except.ok.inj h
    exact fun task ht ↦ .inl ht
  | cons a rest ih =>
    obtain ⟨t, o⟩ := a
    intro task ht
    cases o with
    | scheduled =>
      refine (ih h task ht).imp_right ?_
      rintro ⟨b, hb, heq⟩
      exact ⟨b, List.mem_cons_of_mem _ hb, heq⟩
    | refused =>
      rcases ih h task ht with hmem | ⟨b, hb, heq⟩
      · rcases List.mem_append.mp hmem with hmem | hmem
        · exact .inl hmem
        · exact .inr ⟨_, List.mem_cons_self, (List.mem_singleton.mp hmem).symm⟩
      · exact .inr ⟨b, List.mem_cons_of_mem _ hb, heq⟩
    | thrown error => cases h

/-! ### The table -/

/-- The services keep the tasks of a table, each in its service under its user, in the order of
the numbers, which have all been given out. -/
structure Keeps (p : HttpProcess Services) (table : List ScheduledPriceTask) : Prop where
  owned : p.services.Owned
  exact : ∀ svc u, p.services.tasks svc u = addedTo svc u table
  increasing : table.Pairwise fun a b ↦ a.processAssignedId < b.processAssignedId
  given : ∀ task ∈ table, task.processAssignedId ≤ p.taskId

/-- A user's part of a table without the tasks a stop names. -/
private theorem addedTo_filter (svc : PriceService) (userId taskId u : Bytes)
    (table : List ScheduledPriceTask) :
    addedTo svc u (table.filter fun t ↦ !named userId taskId t) =
      if u = userId then (addedTo svc u table).filter fun t ↦ !named userId taskId t
      else addedTo svc u table := by
  unfold addedTo
  split
  · rw [List.filter_map, List.filter_filter, List.filter_filter]
    refine congrArg (List.map received) (List.filter_congr fun t _ ↦ ?_)
    rw [Bool.and_comm, Function.comp_apply, named, named, received_userId, received_taskId]
  · next hu =>
    rw [List.filter_filter]
    refine congrArg (List.map received) (List.filter_congr fun t _ ↦ ?_)
    by_cases ht : t.userId = u
    · have hne : ¬t.userId = userId := fun heq ↦ hu (ht.symm.trans heq)
      simp [named, ht, hu]
    · simp [ht]

variable {p p' : HttpProcess Services} {table : List ScheduledPriceTask}

/-- A stop takes out the tasks it names. -/
private theorem Keeps.stop (h : Keeps p table) {userId taskId : Bytes}
    (howned : p'.services.Owned) (hid : p'.taskId = p.taskId)
    (htasks : ∀ svc u, p'.services.tasks svc u =
      if u = userId then (p.services.tasks svc u).filter fun t ↦ !named userId taskId t
      else p.services.tasks svc u) :
    Keeps p' (table.filter fun t ↦ !named userId taskId t) where
  owned := howned
  exact svc u := by rw [htasks, addedTo_filter, h.exact]
  increasing := h.increasing.filter _
  given task ht := by
    rw [hid]
    exact h.given task (List.mem_filter.mp ht).1

/-- A push loop adds the tasks it schedules at the end. -/
private theorem Keeps.push (h : Keeps p table) {scheduled : List ScheduledPriceTask} {n : Nat}
    (hnumbers : Numbers p p' scheduled n) (howned : p'.services.Owned)
    (htasks : ∀ svc u, p'.services.tasks svc u =
      p.services.tasks svc u ++ addedTo svc u scheduled) : Keeps p' (table ++ scheduled) where
  owned := howned
  exact svc u := by
    rw [htasks, h.exact, addedTo, addedTo, addedTo, List.filter_append, List.map_append]
  increasing := by
    refine List.pairwise_append.mpr ⟨h.increasing, hnumbers.increasing, ?_⟩
    intro a ha b hb
    exact UInt64.lt_of_le_of_lt (h.given a ha) (hnumbers.above b hb)
  given task ht := by
    rcases List.mem_append.mp ht with ht | ht
    · exact UInt64.le_trans (h.given task ht) hnumbers.mono
    · exact hnumbers.below task ht

/-! ### Runs -/

/-- The numbers that a request may use up. -/
def TaskRequest.numbers : TaskRequest → Nat
  | .add r => r.tasks.length
  | .stop _ _ => 0

private theorem keeps_add (env : Environment) (h : Keeps p table) (r : AddRequest)
    (hfew : p.taskId.toNat + r.tasks.length < UInt64.size) :
    let q := (scheduleNewPriceTasks (Services.proxies env) r.tasks p).2
    q.taskId.toNat ≤ p.taskId.toNat + r.tasks.length ∧ ∃ table', Keeps q table' := by
  unfold scheduleNewPriceTasks
  cases ha : r.accepted with
  | false =>
    have hcheck := checkTasks_addRequest r
    rw [ha, if_neg (by simp)] at hcheck
    rw [hcheck]
    exact ⟨Nat.le_add_right _ _, table, h⟩
  | true =>
    obtain ⟨hcheck, hr, htasks, howned⟩ := pushTasks_accepted env p ha
    have hset : ∀ task ∈ r.tasks.map normalised,
        task.percentProp.isSome ∨ task.timeProp.isSome := by
      intro task ht
      obtain ⟨t, hm, rfl⟩ := List.mem_map.mp ht
      simpa [normalised] using (checkTasks_eq_some hcheck).2 t hm
    have hnumbers := numbers_pushTasks env true [] hset p (by rwa [List.length_map])
    rw [List.length_map] at hnumbers
    have hpushed := h.push hnumbers (howned h.owned) htasks
    rw [hcheck]
    dsimp only
    cases he : erredOf [] (pushedOf env r p) with
    | error error =>
      have hpush : pushTasks (Services.proxies env) true [] (r.tasks.map normalised) p =
          (.error error, _) := Prod.ext (hr.trans he) rfl
      rw [Throwing.bind_error hpush]
      exact ⟨hnumbers.few, _, hpushed⟩
    | ok erred =>
      have hpush : pushTasks (Services.proxies env) true [] (r.tasks.map normalised) p =
          (.ok erred, _) := Prod.ext (hr.trans he) rfl
      have hall : ∀ task ∈ erred, task.userId = r.userId ∧ task.taskId = r.taskId := by
        intro task ht
        rcases mem_erredOf he task ht with hnil | ⟨a, hpushed, rfl⟩
        · cases hnil
        · exact pushedOf_owned hpushed
      obtain ⟨hs, hstop, hown⟩ := stopErred_spec env r.userId r.taskId hall
        (pushTasks (Services.proxies env) true [] (r.tasks.map normalised) p).2
      have herred : stopErred (Services.proxies env) erred _ = (.ok (), _) := Prod.ext hs rfl
      rw [Throwing.bind_ok hpush, Throwing.bind_ok herred]
      have hid := taskId_stopErred env erred
        (pushTasks (Services.proxies env) true [] (r.tasks.map normalised) p).2
      refine ⟨hid ▸ hnumbers.few, ?_⟩
      by_cases hnil : erred = []
      · exact ⟨_, by subst hnil; exact hpushed⟩
      · simp only [ne_eq, hnil, not_false_eq_true, true_and] at hstop
        exact ⟨_, hpushed.stop (hown hpushed.owned) hid hstop⟩

private theorem keeps_serve (env : Environment) (h : Keeps p table) (request : TaskRequest)
    (hfew : p.taskId.toNat + request.numbers < UInt64.size) :
    (serve env p request).taskId.toNat ≤ p.taskId.toNat + request.numbers ∧
      ∃ table', Keeps (serve env p request) table' := by
  cases request with
  | add r => exact keeps_add env h r hfew
  | stop userId taskId =>
    obtain ⟨s', hstop, htasks, howned, -⟩ := stopScheduledPriceTask_spec env userId taskId p
    rw [serve, hstop]
    exact ⟨Nat.le_refl _, _, h.stop (howned h.owned) rfl htasks⟩

private theorem keeps_foldl (env : Environment) (h : Keeps p table) (requests : List TaskRequest)
    (hfew : p.taskId.toNat + (requests.map TaskRequest.numbers).sum < UInt64.size) :
    ∃ table', Keeps (requests.foldl (serve env) p) table' := by
  induction requests generalizing p table with
  | nil => exact ⟨table, h⟩
  | cons request rest ih =>
    rw [List.map_cons, List.sum_cons] at hfew
    obtain ⟨hle, table', h'⟩ := keeps_serve env h request (by omega)
    exact ih h' (by omega)

private theorem keeps_start : Keeps { services := { time := ∅, progress := ∅ } } [] where
  owned := by
    constructor
    · intro u t ht
      simp [TaskList.tasksOf, LockedMap.findValue] at ht
    · intro u t ht
      simp [TaskList.tasksOf, LockedMap.findValue] at ht
  exact svc u := by
    cases svc <;> simp [Services.tasks, TaskList.tasksOf, LockedMap.findValue, addedTo]
  increasing := List.Pairwise.nil
  given _ ht := by cases ht

/-- A task's user and number, which no service changes. -/
private def numberOf (task : ScheduledPriceTask) : Bytes × UInt64 :=
  (task.userId, task.processAssignedId)

private theorem numberOf_received (task : ScheduledPriceTask) :
    numberOf (received task) = numberOf task := by
  unfold received
  split <;> rfl

/-- What is listed for a user: his part of the table, by service. -/
private theorem perm_listed (h : Keeps p table) (u : Bytes) :
    ((p.services.listed u).map numberOf).Perm
      ((table.filter fun t ↦ t.userId = u).map numberOf) := by
  have hpart : ∀ svc (part : ScheduledPriceTask → ScheduledPriceTask),
      (∀ t, numberOf (part t) = numberOf t) →
      ((p.services.tasks svc u).map part).map numberOf =
        ((table.filter fun t ↦ t.userId = u).filter fun t ↦ serviceOf t = svc).map numberOf := by
    intro svc part hpart
    rw [h.exact, addedTo, List.map_map, List.map_map, List.filter_filter]
    simp only [Bool.decide_and]
    refine List.map_congr_left fun t _ ↦ ?_
    rw [Function.comp_apply, Function.comp_apply, hpart, numberOf_received]
  have hother : ∀ t : ScheduledPriceTask,
      decide (serviceOf t = .progress) = !decide (serviceOf t = .time) := by
    intro t
    cases serviceOf t <;> rfl
  rw [Services.listed, List.map_append, hpart .time timePart fun _ ↦ rfl,
    hpart .progress progressPart fun _ ↦ rfl, ← List.map_append]
  simp only [hother]
  exact (List.filter_append_perm _ _).map numberOf

/-- What is listed for all users, up to the order. -/
private theorem perm_listedAll (h : Keeps p table) :
    (p.services.listedAll.map numberOf).Perm (table.map numberOf) := by
  apply perm_of_forall_owner Prod.fst
  intro u
  have hfilter : ∀ tasks : List ScheduledPriceTask,
      (tasks.map numberOf).filter (fun a ↦ a.1 = u) =
        (tasks.filter fun t ↦ t.userId = u).map numberOf := fun tasks ↦ List.filter_map
  rw [hfilter, hfilter, Services.filter_listedAll h.owned]
  exact perm_listed h u

/-- Over requests handled one at a time, whatever becomes of their pushes, refused ones and those
that throw included: as long as the counter does not come round, no two tasks that are listed, for
any users, have the same number, and what a service keeps for a user is in the order of the
numbers. -/
theorem numbered_of_run (env : Environment) (requests : List TaskRequest)
    (hfew : (requests.map TaskRequest.numbers).sum < UInt64.size) :
    let s := (serveAll env requests).services
    (s.listedAll.map ScheduledPriceTask.processAssignedId).Nodup ∧
      ∀ svc u, (s.tasks svc u).Pairwise fun a b ↦ a.processAssignedId < b.processAssignedId := by
  obtain ⟨table, h⟩ := keeps_foldl env keeps_start requests (by simpa using hfew)
  refine ⟨?_, fun svc u ↦ ?_⟩
  · have hids := (perm_listedAll h).map Prod.snd
    rw [List.map_map, List.map_map] at hids
    refine hids.nodup_iff.mpr ?_
    rw [List.nodup_iff_pairwise_ne, List.pairwise_map]
    exact h.increasing.imp fun hlt heq ↦ UInt64.ne_of_lt hlt heq
  · unfold serveAll
    have hreceived : ∀ t : ScheduledPriceTask,
        (received t).processAssignedId = t.processAssignedId := fun t ↦
      congrArg Prod.snd (numberOf_received t)
    rw [h.exact, addedTo, List.pairwise_map]
    simp only [hreceived]
    exact h.increasing.filter _

/-- A request of a user for the prices of two tokens. -/
private def twoTokens (userId : Bytes) : AddRequest where
  userId := userId
  taskId := [116]
  tasks := [[66], [69]].map fun token ↦
    { userId := userId, taskId := [116], tokens := [token], tradeType := .spot
      exchange := .binance, timeProp := some { timeMS := 60000, duration := .minutes } }
  owned task ht := by
    obtain ⟨token, -, rfl⟩ := List.mem_map.mp ht
    exact ⟨rfl, rfl⟩
  oneKind task ht := by
    obtain ⟨token, -, rfl⟩ := List.mem_map.mp ht
    exact .inl rfl

/-- The second push throws; the number it had is not given out again. -/
private def secondLost : Environment where
  outcome n := if n = 1 then .thrown ⟨[]⟩ else .scheduled
  cache _ _ := default

theorem numbered_of_run_secondLost :
    let s := (serveAll secondLost [.add (twoTokens [117]), .add (twoTokens [118])]).services
    s.listedAll.map ScheduledPriceTask.processAssignedId = [1, 3, 4] ∧
      (s.listedAll.map ScheduledPriceTask.processAssignedId).Nodup ∧
      ∀ svc u, (s.tasks svc u).Pairwise fun a b ↦ a.processAssignedId < b.processAssignedId :=
  ⟨by decide +kernel, numbered_of_run secondLost _ (by decide)⟩

end KeepMyJournal.HttpStream
