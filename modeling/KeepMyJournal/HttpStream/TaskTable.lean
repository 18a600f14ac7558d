import KeepMyJournal.HttpStream.PriceServices

/-!
# The price tasks as one table

What the two services and the functions of the http server are for: a table of contracts, each
under the user and task id of the request that added it. The listings of the server refine it
over every run of add and stop requests that are handled one at a time.
-/

namespace KeepMyJournal.HttpStream

open KeepMyJournal.Base KeepMyJournal.Common

/-- A request of one of the users. -/
inductive TaskRequest where
  | add (r : AddRequest)
  | stop (userId taskId : Bytes)

/-! ### The table -/

/-- One request at the table: an accepted batch is entered in normal form, a stop takes out
the contracts of its user and task id. -/
def book (table : List ScheduledPriceTask) : TaskRequest → List ScheduledPriceTask
  | .add r => if r.accepted then table ++ r.tasks.map (fun t ↦ contract (normalised t)) else table
  | .stop userId taskId => table.filter (fun t ↦ !named userId taskId t)

/-- The contracts of the accepted adds that have not been stopped since. -/
def bookings (requests : List TaskRequest) : List ScheduledPriceTask := requests.foldl book []

/-! ### The code -/

/-- An environment in which every schedule call succeeds. -/
def Environment.reliable (cache : Nat → InstrumentExchangeSet) : Environment where
  outcome _ := .scheduled
  cache := cache

/-- One request at the server. -/
def serve (env : Environment) (p : HttpProcess Services) : TaskRequest → HttpProcess Services
  | .add r => (scheduleNewPriceTasks (Services.proxies env) r.tasks p).2
  | .stop userId taskId => (stopScheduledPriceTask (Services.proxies env) userId taskId p).2

/-- The server after a run of requests, all processes freshly started. -/
def serveAll (env : Environment) (requests : List TaskRequest) : HttpProcess Services :=
  requests.foldl (serve env) { services := { time := ∅, progress := ∅ } }

/-- The services keep the table: each user's listing holds his contracts. -/
private structure Refines (s : Services) (table : List ScheduledPriceTask) : Prop where
  owned : s.Owned
  perm : ∀ userId, ((s.listed userId).map contract).Perm
    (table.filter (fun t ↦ t.userId = userId))

/-! ### One request -/

private theorem erredOf_reliable (cache : Nat → InstrumentExchangeSet)
    (counter : UInt64) (calls : Nat) (erredList tasks : List ScheduledPriceTask) :
    erredOf erredList (attempts (.reliable cache) counter calls tasks) = .ok erredList := by
  induction tasks generalizing counter calls with
  | nil => rfl
  | cons task tasks ih => exact ih (counter + 1) (calls + 1)

private theorem scheduledOf_reliable (cache : Nat → InstrumentExchangeSet)
    (counter : UInt64) (calls : Nat) (tasks : List ScheduledPriceTask) :
    (scheduledOf (attempts (.reliable cache) counter calls tasks)).map contract =
      tasks.map contract := by
  induction tasks generalizing counter calls with
  | nil => rfl
  | cons task tasks ih =>
    change contract _ :: (scheduledOf _).map contract = _
    rw [ih (counter + 1) (calls + 1)]
    rfl

/-- A task with one property is listed as it was pushed. -/
private theorem listed_added {tasks : List ScheduledPriceTask}
    (hone : ∀ task ∈ tasks, task.percentProp = none ∨ task.timeProp = none) (u : Bytes) :
    ((addedTo .time u tasks).map timePart ++ (addedTo .progress u tasks).map progressPart).Perm
      (tasks.filter (fun t ↦ t.userId = u)) := by
  have hlisted : ∀ svc (part : ScheduledPriceTask → ScheduledPriceTask),
      (∀ t ∈ tasks, serviceOf t = svc → part (received t) = t) →
      (addedTo svc u tasks).map part =
        (tasks.filter (fun t ↦ t.userId = u)).filter (fun t ↦ serviceOf t = svc) := by
    intro svc part hpart
    rw [addedTo, List.map_map, List.filter_filter]
    simp only [Bool.decide_and]
    conv_rhs => rw [← List.map_id (List.filter _ tasks)]
    apply List.map_congr_left
    intro t ht
    obtain ⟨hm, hd⟩ := List.mem_filter.mp ht
    rw [Bool.and_eq_true, decide_eq_true_iff] at hd
    exact hpart t hm hd.1
  rw [hlisted .time timePart (fun t _ h ↦ timePart_received h),
    hlisted .progress progressPart (fun t ht h ↦ progressPart_received h (hone t ht))]
  have hother : ∀ t : ScheduledPriceTask,
      decide (serviceOf t = .progress) = !decide (serviceOf t = .time) := by
    intro t
    cases serviceOf t <;> rfl
  simp only [hother]
  exact List.filter_append_perm _ _

private theorem filter_map_contract (p : ScheduledPriceTask → Bool)
    (hp : ∀ t, p (contract t) = p t) (tasks : List ScheduledPriceTask) :
    (tasks.map contract).filter p = (tasks.filter p).map contract := by
  rw [List.filter_map]
  congr 1
  exact List.filter_congr (fun t _ ↦ hp t)

private theorem Refines.add {s s' : Services} {table : List ScheduledPriceTask}
    (h : Refines s table) {tasks : List ScheduledPriceTask}
    (hone : ∀ task ∈ tasks, task.percentProp = none ∨ task.timeProp = none)
    (ho : s'.Owned) (htasks : ∀ svc u, s'.tasks svc u = s.tasks svc u ++ addedTo svc u tasks) :
    Refines s' (table ++ tasks.map contract) := by
  refine ⟨ho, ?_⟩
  intro u
  have hadded := (listed_added hone u).map contract
  rw [← filter_map_contract (fun t ↦ t.userId = u) (fun _ ↦ rfl)] at hadded
  have hall := (h.perm u).append hadded
  rw [← List.filter_append] at hall
  refine List.Perm.trans ?_ hall
  simp only [Services.listed, htasks, List.map_append, List.append_assoc]
  apply List.Perm.append_left
  rw [← List.append_assoc, ← List.append_assoc]
  exact List.perm_append_comm.append_right _

private theorem listed_stop {s s' : Services} {userId taskId : Bytes}
    (htasks : ∀ svc u, s'.tasks svc u =
      if u = userId then (s.tasks svc u).filter (fun t ↦ !named userId taskId t)
      else s.tasks svc u) (u : Bytes) :
    s'.listed u =
      if u = userId then (s.listed u).filter (fun t ↦ !named userId taskId t)
      else s.listed u := by
  rw [Services.listed, htasks, htasks]
  split
  · rw [Services.listed, List.filter_append, List.filter_map, List.filter_map]
    rfl
  · rfl

private theorem Refines.stop {s s' : Services} {table : List ScheduledPriceTask}
    (h : Refines s table) {userId taskId : Bytes} (ho : s'.Owned)
    (htasks : ∀ svc u, s'.tasks svc u =
      if u = userId then (s.tasks svc u).filter (fun t ↦ !named userId taskId t)
      else s.tasks svc u) :
    Refines s' (table.filter (fun t ↦ !named userId taskId t)) := by
  refine ⟨ho, ?_⟩
  intro u
  rw [listed_stop htasks, List.filter_filter]
  split
  · have hf := (h.perm u).filter (fun t ↦ !named userId taskId t)
    rw [filter_map_contract _ (fun _ ↦ rfl), List.filter_filter] at hf
    simpa only [Bool.and_comm] using hf
  · next hu =>
    have hsame : table.filter (fun t ↦ decide (t.userId = u) && !named userId taskId t) =
        table.filter (fun t ↦ t.userId = u) := by
      apply List.filter_congr
      intro t _
      by_cases ht : t.userId = u
      · simp [named, ht, hu]
      · simp [ht]
    rw [hsame]
    exact h.perm u

/-- An add over a reliable bus is answered by its check; accepted, it enters its tasks. -/
private theorem schedule_reliable (cache : Nat → InstrumentExchangeSet)
    (r : AddRequest) (p : HttpProcess Services) :
    let q := scheduleNewPriceTasks (Services.proxies (.reliable cache)) r.tasks p
    q.1 = .ok r.accepted ∧
      if r.accepted then
        ∃ tasks, tasks.map contract = r.tasks.map (fun t ↦ contract (normalised t)) ∧
          (∀ svc u, q.2.services.tasks svc u = p.services.tasks svc u ++ addedTo svc u tasks) ∧
          (p.services.Owned → q.2.services.Owned)
      else q.2 = p := by
  unfold scheduleNewPriceTasks
  cases ha : r.accepted with
  | false =>
    have hcheck := checkTasks_addRequest r
    rw [ha, if_neg (by simp)] at hcheck
    rw [hcheck]
    exact ⟨rfl, rfl⟩
  | true =>
    obtain ⟨hcheck, hr, htasks, howned⟩ := pushTasks_accepted (.reliable cache) p ha
    rw [pushedOf, erredOf_reliable] at hr
    rw [hcheck]
    have hpush : pushTasks (Services.proxies (.reliable cache)) true [] (r.tasks.map normalised) p =
        (.ok [], (pushTasks (Services.proxies (.reliable cache)) true []
          (r.tasks.map normalised) p).2) := Prod.ext hr rfl
    dsimp only
    rw [Throwing.bind_ok hpush]
    refine ⟨rfl, _, ?_, htasks, howned⟩
    rw [pushedOf, scheduledOf_reliable, List.map_map]
    rfl

private theorem oneKind_of_contracts {tasks : List ScheduledPriceTask} {r : AddRequest}
    (h : tasks.map contract = r.tasks.map (fun t ↦ contract (normalised t))) :
    ∀ task ∈ tasks, task.percentProp = none ∨ task.timeProp = none := by
  intro task ht
  have hm : contract task ∈ r.tasks.map (fun t ↦ contract (normalised t)) :=
    h ▸ List.mem_map_of_mem ht
  obtain ⟨t, hmem, he⟩ := List.mem_map.mp hm
  have hp : task.percentProp = (normalised t).percentProp :=
    (congrArg ScheduledPriceTask.percentProp he).symm
  have htime : task.timeProp = t.timeProp := (congrArg ScheduledPriceTask.timeProp he).symm
  rw [hp, htime]
  refine (r.oneKind t hmem).imp_left ?_
  intro hn
  rw [normalised, hn]
  rfl

private theorem Refines.serve {p : HttpProcess Services} {table : List ScheduledPriceTask}
    (cache : Nat → InstrumentExchangeSet) (h : Refines p.services table)
    (request : TaskRequest) :
    Refines (serve (.reliable cache) p request).services (book table request) := by
  cases request with
  | add r =>
    obtain ⟨-, hstate⟩ := schedule_reliable cache r p
    rw [HttpStream.serve, book]
    cases ha : r.accepted with
    | false =>
      rw [ha, if_neg (by simp)] at hstate
      rw [hstate, if_neg (by simp)]
      exact h
    | true =>
      rw [ha, if_pos rfl] at hstate
      obtain ⟨tasks, hcontracts, htasks, howned⟩ := hstate
      rw [if_pos rfl, ← hcontracts]
      exact h.add (oneKind_of_contracts hcontracts) (howned h.owned) htasks
  | stop userId taskId =>
    obtain ⟨s', hstop, htasks, howned, -⟩ :=
      stopScheduledPriceTask_spec (.reliable cache) userId taskId p
    rw [HttpStream.serve, hstop, book]
    exact h.stop (howned h.owned) htasks

private theorem refines_serveAll (cache : Nat → InstrumentExchangeSet)
    (requests : List TaskRequest) :
    Refines (serveAll (.reliable cache) requests).services (bookings requests) := by
  unfold serveAll bookings
  have hinit : Refines { time := ∅, progress := ∅ } [] := by
    constructor
    · constructor
      · intro u t ht
        simp [TaskList.tasksOf, LockedMap.findValue] at ht
      · intro u t ht
        simp [TaskList.tasksOf, LockedMap.findValue] at ht
    · intro u
      simp [Services.listed, Services.tasks, TaskList.tasksOf, LockedMap.findValue]
  exact List.foldl_rel
    (r := fun (p : HttpProcess Services) table ↦ Refines p.services table) hinit
    (fun request _ p table h ↦ h.serve cache request)

/-- Two lists that agree on the elements of every owner are permutations of each other. -/
theorem perm_of_forall_owner {α : Type} [DecidableEq α] (owner : α → Bytes)
    {l l' : List α}
    (h : ∀ u, (l.filter (fun a ↦ owner a = u)).Perm (l'.filter (fun a ↦ owner a = u))) :
    l.Perm l' := by
  rw [List.perm_iff_count]
  intro a
  have hcount := (h (owner a)).count_eq a
  rwa [List.count_filter (by simp), List.count_filter (by simp)] at hcount

private theorem listed_owner {s : Services} (ho : s.Owned) {u : Bytes} {t : ScheduledPriceTask}
    (ht : t ∈ s.listed u) : t.userId = u := by
  rw [← Services.filter_listedAll ho u] at ht
  exact of_decide_eq_true (List.mem_filter.mp ht).2

/-- Over every run of add and stop requests on a bus whose calls succeed: an add is answered by
the check of its tasks; a user's listing is a permutation of his contracts in the table; the
listing for all users is one of the whole table, and holds every user's own listing; and a
stop takes its task id out of its user's listing, keeping the order of the rest, and changes
no other listing. -/
theorem listings_refine_bookings (cache : Nat → InstrumentExchangeSet)
    (requests : List TaskRequest) :
    let dbus := Services.proxies (.reliable cache)
    let p := serveAll (.reliable cache) requests
    (∀ r : AddRequest, (scheduleNewPriceTasks dbus r.tasks p).1 = .ok r.accepted) ∧
    (∀ u, ∃ tasks, getPriceTasksForUser dbus u p = (.ok tasks, p) ∧
      (tasks.map contract).Perm ((bookings requests).filter (fun t ↦ t.userId = u))) ∧
    (∃ all, getPriceTasksForAll dbus p = (.ok all, p) ∧
      (all.map contract).Perm (bookings requests) ∧
      ∀ u, (getPriceTasksForUser dbus u p).1 = .ok (all.filter (fun t ↦ t.userId = u))) ∧
    ∀ u t, ∃ p', stopScheduledPriceTask dbus u t p = (.ok (), p') ∧
      (∀ v, v ≠ u → (getPriceTasksForUser dbus v p').1 = (getPriceTasksForUser dbus v p).1) ∧
      ∀ tasks, (getPriceTasksForUser dbus u p).1 = .ok tasks →
        (getPriceTasksForUser dbus u p').1 = .ok (tasks.filter (fun task ↦ task.taskId ≠ t)) := by
  intro dbus p
  obtain ⟨ho, hperm⟩ := refines_serveAll cache requests
  simp only [dbus, Services.getPriceTasksForUser_proxies, Services.getPriceTasksForAll_proxies]
  refine ⟨fun r ↦ (schedule_reliable cache r p).1, fun u ↦ ⟨_, rfl, hperm u⟩, ?_, ?_⟩
  · refine ⟨_, rfl, ?_, fun u ↦ by rw [Services.filter_listedAll ho]⟩
    apply perm_of_forall_owner ScheduledPriceTask.userId
    intro u
    rw [filter_map_contract _ (fun _ ↦ rfl), Services.filter_listedAll ho]
    exact hperm u
  · intro u t
    obtain ⟨s', hstop, htasks, -, -⟩ := stopScheduledPriceTask_spec (.reliable cache) u t p
    refine ⟨_, hstop, ?_, ?_⟩
    · intro v hv
      rw [listed_stop htasks, if_neg hv]
    · intro tasks hl
      obtain rfl := Except.ok.inj hl
      rw [listed_stop htasks, if_pos rfl]
      congr 1
      apply List.filter_congr
      intro task ht
      rw [named, listed_owner ho ht, beq_self_eq_true, Bool.true_and, decide_not, beq_eq_decide]

end KeepMyJournal.HttpStream
