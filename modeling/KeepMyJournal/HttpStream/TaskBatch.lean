import KeepMyJournal.HttpStream.PriceServices

/-!
# When a batch is scheduled as a whole or not at all

`schedule_new_price_tasks` stops the tasks of a batch that were refused, by their user and task
id, and lets what a push throws out. This module says for which outcomes of the pushes, and
for which earlier contents of the services, that leaves the whole batch or none of it.
-/

namespace KeepMyJournal.HttpStream

open KeepMyJournal.Base KeepMyJournal.Common

/-- Every task of the batch stands once, at the end of its user's list in its service, and
nothing else has changed. -/
def ScheduledOnce (r : AddRequest) (s s' : Services) : Prop :=
  ∃ batch, batch.map contract = r.tasks.map (fun t ↦ contract (normalised t)) ∧
    ∀ svc u, s'.tasks svc u = s.tasks svc u ++ addedTo svc u batch

/-- The request is answered with true and scheduled, or it leaves the task lists alone. -/
def AllOrNothing (env : Environment) (r : AddRequest) (p : HttpProcess Services) : Prop :=
  let q := scheduleNewPriceTasks (Services.proxies env) r.tasks p
  (q.1 = .ok true ∧ ScheduledOnce r p.services q.2.services) ∨
    (q.1 ≠ .ok true ∧ ∀ svc u, q.2.services.tasks svc u = p.services.tasks svc u)

/-- Neither service has a task under the ids of the request. -/
def FreshIds (r : AddRequest) (s : Services) : Prop :=
  ∀ svc, ∀ t ∈ s.tasks svc r.userId, named r.userId r.taskId t = false

/-- The outcomes that do no harm: all pushes are scheduled; or none throws, some are refused,
and the ids are fresh; or all pushes before the first that throws are refused. -/
def Harmless (outcomes : List PushOutcome) (fresh : Prop) : Prop :=
  (∀ o ∈ outcomes, o = .scheduled) ∨
    ((∀ o ∈ outcomes, ∀ error, o ≠ .thrown error) ∧ .refused ∈ outcomes ∧ fresh) ∨
    ∃ refusals error later, outcomes = refusals ++ .thrown error :: later ∧
      ∀ o ∈ refusals, o = .refused

/-! ### The three ways a push loop goes -/

private abbrev Pushed := List (ScheduledPriceTask × PushOutcome)

private def NoThrow (pushed : Pushed) : Prop := ∀ a ∈ pushed, ∀ error, a.2 ≠ .thrown error

private theorem noThrow_or_split (pushed : Pushed) :
    NoThrow pushed ∨ ∃ before task error later,
      pushed = before ++ (task, .thrown error) :: later ∧ NoThrow before := by
  induction pushed with
  | nil => exact .inl (fun a ha ↦ absurd ha List.not_mem_nil)
  | cons a rest ih =>
    obtain ⟨task, o⟩ := a
    cases ho : o with
    | thrown error =>
      exact .inr ⟨[], task, error, rest, rfl, fun a ha ↦ absurd ha List.not_mem_nil⟩
    | scheduled | refused =>
      rcases ih with h | ⟨before, t, error, later, rfl, h⟩
      · left
        intro b hb error
        rcases List.mem_cons.mp hb with rfl | hb
        · simp
        · exact h b hb error
      · right
        refine ⟨_ :: before, t, error, later, rfl, ?_⟩
        intro b hb error
        rcases List.mem_cons.mp hb with rfl | hb
        · simp
        · exact h b hb error

private theorem erredOf_noThrow (erredList : List ScheduledPriceTask) {pushed : Pushed}
    (h : NoThrow pushed) :
    erredOf erredList pushed =
      .ok (erredList ++ (pushed.filter (fun a ↦ a.2 = .refused)).map Prod.fst) := by
  induction pushed generalizing erredList with
  | nil => simp [erredOf]
  | cons a rest ih =>
    obtain ⟨task, o⟩ := a
    have hrest : NoThrow rest := fun b hb ↦ h b (List.mem_cons_of_mem _ hb)
    cases o with
    | scheduled => simpa [erredOf] using ih erredList hrest
    | refused => simpa [erredOf] using ih (erredList ++ [task]) hrest
    | thrown error => exact absurd rfl (h (task, .thrown error) List.mem_cons_self error)

private theorem erredOf_throw (erredList : List ScheduledPriceTask) {before : Pushed}
    (h : NoThrow before) (task : ScheduledPriceTask) (error : SdbusError) (later : Pushed) :
    erredOf erredList (before ++ (task, .thrown error) :: later) = .error error := by
  induction before generalizing erredList with
  | nil => rfl
  | cons a rest ih =>
    obtain ⟨t, o⟩ := a
    have hrest : NoThrow rest := fun b hb ↦ h b (List.mem_cons_of_mem _ hb)
    cases o with
    | scheduled => exact ih erredList hrest
    | refused => exact ih (erredList ++ [t]) hrest
    | thrown e => exact absurd rfl (h (t, .thrown e) List.mem_cons_self e)

private theorem scheduledOf_eq_nil_iff {before : Pushed} (h : NoThrow before)
    (task : ScheduledPriceTask) (error : SdbusError) (later : Pushed) :
    scheduledOf (before ++ (task, .thrown error) :: later) = [] ↔
      ∀ o ∈ before.map Prod.snd, o = .refused := by
  induction before with
  | nil => simp [scheduledOf]
  | cons a rest ih =>
    obtain ⟨t, o⟩ := a
    have hi := ih (fun b hb ↦ h b (List.mem_cons_of_mem _ hb))
    cases o with
    | scheduled => simp [scheduledOf]
    | refused =>
      rw [List.cons_append, scheduledOf, hi]
      simp
    | thrown e => exact absurd rfl (h (t, .thrown e) List.mem_cons_self e)

private theorem scheduledOf_all {pushed : Pushed}
    (h : ∀ o ∈ pushed.map Prod.snd, o = .scheduled) :
    scheduledOf pushed = pushed.map Prod.fst := by
  induction pushed with
  | nil => rfl
  | cons a rest ih =>
    obtain ⟨t, o⟩ := a
    obtain rfl : o = .scheduled := h o List.mem_cons_self
    rw [scheduledOf, ih (fun o ho ↦ h o (List.mem_cons_of_mem _ ho))]
    rfl

private theorem mem_scheduledOf {pushed : Pushed} {task : ScheduledPriceTask}
    (h : task ∈ scheduledOf pushed) : ∃ a ∈ pushed, a.1 = task := by
  induction pushed with
  | nil => cases h
  | cons a rest ih =>
    obtain ⟨t, o⟩ := a
    cases o with
    | scheduled =>
      rcases List.mem_cons.mp h with rfl | h
      · exact ⟨_, List.mem_cons_self, rfl⟩
      · obtain ⟨b, hb, hbt⟩ := ih h
        exact ⟨b, List.mem_cons_of_mem _ hb, hbt⟩
    | refused =>
      obtain ⟨b, hb, hbt⟩ := ih h
      exact ⟨b, List.mem_cons_of_mem _ hb, hbt⟩
    | thrown error => cases h

/-- The first push that throws is the same however the outcomes are split. -/
private theorem split_refusals_iff {before : List PushOutcome}
    (h : ∀ o ∈ before, ∀ error, o ≠ .thrown error) (error : SdbusError) (later : List PushOutcome) :
    (∃ refusals e rest, before ++ .thrown error :: later = refusals ++ .thrown e :: rest ∧
        ∀ o ∈ refusals, o = .refused) ↔ ∀ o ∈ before, o = .refused := by
  constructor
  · rintro ⟨refusals, e, rest, he, hall⟩
    induction before generalizing refusals with
    | nil => simp
    | cons b before ih =>
      cases refusals with
      | nil =>
        rw [List.cons_append, List.nil_append, List.cons.injEq] at he
        exact absurd he.1 (h b List.mem_cons_self e)
      | cons r refusals =>
        rw [List.cons_append, List.cons_append, List.cons.injEq] at he
        intro o ho
        rcases List.mem_cons.mp ho with rfl | ho
        · exact he.1 ▸ hall r List.mem_cons_self
        · exact ih (fun o ho ↦ h o (List.mem_cons_of_mem _ ho)) refusals he.2
            (fun o ho ↦ hall o (List.mem_cons_of_mem _ ho)) o ho
  · intro hall
    exact ⟨before, error, later, rfl, hall⟩

/-! ### One request -/

section Accepted

variable {env : Environment} {r : AddRequest} {p : HttpProcess Services}

private theorem map_snd_pushedOf :
    (pushedOf env r p).map Prod.snd = env.outcomes p.services.pushes r.tasks.length := by
  rw [pushedOf, map_snd_attempts, List.length_map]

theorem pushedOf_owned {a : ScheduledPriceTask × PushOutcome} (h : a ∈ pushedOf env r p) :
    a.1.userId = r.userId ∧ a.1.taskId = r.taskId := by
  have hm : contract a.1 ∈ (r.tasks.map normalised).map contract := by
    rw [← map_fst_attempts env p.taskId p.services.pushes]
    exact List.mem_map_of_mem h
  obtain ⟨t', ht', he⟩ := List.mem_map.mp hm
  obtain ⟨t, ht, rfl⟩ := List.mem_map.mp ht'
  obtain ⟨hu, hi⟩ := r.owned t ht
  exact ⟨(congrArg ScheduledPriceTask.userId he).symm.trans hu,
    (congrArg ScheduledPriceTask.taskId he).symm.trans hi⟩

private theorem refused_owned :
    ∀ task ∈ ((pushedOf env r p).filter (fun a ↦ a.2 = .refused)).map Prod.fst,
      task.userId = r.userId ∧ task.taskId = r.taskId := by
  intro task ht
  obtain ⟨a, hm, rfl⟩ := List.mem_map.mp ht
  exact pushedOf_owned (List.mem_filter.mp hm).1

private theorem schedule_throws (ha : r.accepted = true) {error : SdbusError}
    (he : erredOf [] (pushedOf env r p) = .error error) :
    (scheduleNewPriceTasks (Services.proxies env) r.tasks p).1 = .error error ∧
      ∀ svc u, (scheduleNewPriceTasks (Services.proxies env) r.tasks p).2.services.tasks svc u =
        p.services.tasks svc u ++ addedTo svc u (scheduledOf (pushedOf env r p)) := by
  obtain ⟨hcheck, hr, htasks, -⟩ := pushTasks_accepted env p ha
  rw [he] at hr
  have hpush : pushTasks (Services.proxies env) true [] (r.tasks.map normalised) p =
      (.error error, (pushTasks (Services.proxies env) true [] (r.tasks.map normalised) p).2) :=
    Prod.ext hr rfl
  unfold scheduleNewPriceTasks
  rw [hcheck]
  dsimp only
  rw [Throwing.bind_error hpush]
  exact ⟨rfl, htasks⟩

private theorem schedule_returns (ha : r.accepted = true) {erredList : List ScheduledPriceTask}
    (he : erredOf [] (pushedOf env r p) = .ok erredList)
    (hall : ∀ task ∈ erredList, task.userId = r.userId ∧ task.taskId = r.taskId) :
    (scheduleNewPriceTasks (Services.proxies env) r.tasks p).1 = .ok erredList.isEmpty ∧
      ∀ svc u, (scheduleNewPriceTasks (Services.proxies env) r.tasks p).2.services.tasks svc u =
        let kept := p.services.tasks svc u ++ addedTo svc u (scheduledOf (pushedOf env r p))
        if erredList ≠ [] ∧ u = r.userId then kept.filter (fun t ↦ !named r.userId r.taskId t)
        else kept := by
  obtain ⟨hcheck, hr, htasks, -⟩ := pushTasks_accepted env p ha
  rw [he] at hr
  have hpush : pushTasks (Services.proxies env) true [] (r.tasks.map normalised) p =
      (.ok erredList, (pushTasks (Services.proxies env) true [] (r.tasks.map normalised) p).2) :=
    Prod.ext hr rfl
  obtain ⟨hs, hstop, -⟩ := stopErred_spec env r.userId r.taskId hall
    (pushTasks (Services.proxies env) true [] (r.tasks.map normalised) p).2
  have herred : stopErred (Services.proxies env) erredList _ = (.ok (), _) := Prod.ext hs rfl
  unfold scheduleNewPriceTasks
  rw [hcheck]
  dsimp only
  rw [Throwing.bind_ok hpush, Throwing.bind_ok herred]
  refine ⟨rfl, ?_⟩
  intro svc u
  rw [← htasks]
  exact hstop svc u

/-- The batch's own tasks are all named by its request. -/
private theorem filter_addedTo (svc : PriceService) (u : Bytes) :
    (addedTo svc u (scheduledOf (pushedOf env r p))).filter
      (fun t ↦ !named r.userId r.taskId t) = [] := by
  rw [List.filter_eq_nil_iff]
  intro t ht
  obtain ⟨task, hm, rfl⟩ := List.mem_map.mp ht
  obtain ⟨a, ha, rfl⟩ := mem_scheduledOf (List.mem_filter.mp hm).1
  obtain ⟨hu, hi⟩ := pushedOf_owned ha
  simp [named, hu, hi]

private theorem addedTo_other (svc : PriceService) {u : Bytes} (hu : u ≠ r.userId) :
    addedTo svc u (scheduledOf (pushedOf env r p)) = [] := by
  rw [addedTo, List.map_eq_nil_iff, List.filter_eq_nil_iff]
  intro task hm hd
  obtain ⟨a, ha, rfl⟩ := mem_scheduledOf hm
  exact hu ((of_decide_eq_true hd).2.symm.trans (pushedOf_owned ha).1)

/-- A scheduled task shows in some list. -/
private theorem forall_addedTo_eq_nil_iff (tasks : List ScheduledPriceTask) :
    (∀ svc u, addedTo svc u tasks = []) ↔ tasks = [] := by
  constructor
  · intro h
    cases tasks with
    | nil => rfl
    | cons task rest =>
      have hnil := h (serviceOf task) task.userId
      rw [addedTo, List.filter_cons_of_pos (by simp)] at hnil
      cases hnil
  · rintro rfl svc u
    rfl

private theorem allOrNothing_of_throw (ha : r.accepted = true) {before : Pushed}
    {task : ScheduledPriceTask} {error : SdbusError} {later : Pushed}
    (hsplit : pushedOf env r p = before ++ (task, .thrown error) :: later)
    (hbefore : NoThrow before) :
    AllOrNothing env r p ↔
      Harmless (env.outcomes p.services.pushes r.tasks.length) (FreshIds r p.services) := by
  have he : erredOf [] (pushedOf env r p) = .error error := by
    rw [hsplit, erredOf_throw [] hbefore]
  obtain ⟨hr, htasks⟩ := schedule_throws ha he
  have hthrown : .thrown error ∈ env.outcomes p.services.pushes r.tasks.length := by
    rw [← map_snd_pushedOf, hsplit]
    simp
  have hleft : AllOrNothing env r p ↔ ∀ o ∈ before.map Prod.snd, o = .refused := by
    rw [← scheduledOf_eq_nil_iff hbefore task error later, ← hsplit, ← forall_addedTo_eq_nil_iff]
    simp [AllOrNothing, hr, htasks]
  have hbefore' : ∀ o ∈ before.map Prod.snd, ∀ e, o ≠ .thrown e := by
    intro o ho e
    obtain ⟨a, hm, rfl⟩ := List.mem_map.mp ho
    exact hbefore a hm e
  rw [hleft, ← split_refusals_iff hbefore' error (later.map Prod.snd)]
  have houts : env.outcomes p.services.pushes r.tasks.length =
      before.map Prod.snd ++ .thrown error :: later.map Prod.snd := by
    rw [← map_snd_pushedOf, hsplit, List.map_append, List.map_cons]
  rw [houts] at hthrown ⊢
  constructor
  · intro h
    exact .inr (.inr h)
  · rintro (h | ⟨h, -⟩ | h)
    · cases h _ hthrown
    · exact absurd rfl (h _ hthrown error)
    · exact h

private theorem allOrNothing_of_scheduled (ha : r.accepted = true)
    (hall : ∀ o ∈ (pushedOf env r p).map Prod.snd, o = .scheduled) : AllOrNothing env r p := by
  have hno : NoThrow (pushedOf env r p) := by
    intro a hm error ho
    have hs := hall a.2 (List.mem_map_of_mem hm)
    rw [ho] at hs
    cases hs
  have hnil : (pushedOf env r p).filter (fun a ↦ a.2 = .refused) = [] := by
    rw [List.filter_eq_nil_iff]
    intro a hm ho
    have hs := hall a.2 (List.mem_map_of_mem hm)
    rw [of_decide_eq_true ho] at hs
    cases hs
  have he : erredOf [] (pushedOf env r p) = .ok [] := by
    rw [erredOf_noThrow [] hno, hnil]
    rfl
  obtain ⟨hr, htasks⟩ := schedule_returns ha he (by simp)
  refine .inl ⟨hr, (pushedOf env r p).map Prod.fst, ?_, ?_⟩
  · rw [List.map_map, pushedOf]
    change (attempts env _ _ _).map (fun a ↦ contract a.1) = _
    rw [map_fst_attempts, List.map_map]
    rfl
  · intro svc u
    rw [htasks, scheduledOf_all hall]
    exact if_neg (fun h ↦ h.1 rfl)

private theorem allOrNothing_of_refused (ha : r.accepted = true)
    (hno : NoThrow (pushedOf env r p))
    (hrefused : .refused ∈ (pushedOf env r p).map Prod.snd) :
    AllOrNothing env r p ↔ FreshIds r p.services := by
  have herred : ((pushedOf env r p).filter (fun a ↦ a.2 = .refused)).map Prod.fst ≠ [] := by
    obtain ⟨a, hm, ho⟩ := List.mem_map.mp hrefused
    rw [ne_eq, List.map_eq_nil_iff]
    exact List.ne_nil_of_mem (List.mem_filter.mpr ⟨hm, decide_eq_true ho⟩)
  have he := erredOf_noThrow [] hno
  rw [List.nil_append] at he
  obtain ⟨hr, htasks⟩ := schedule_returns ha he refused_owned
  have hfalse : (scheduleNewPriceTasks (Services.proxies env) r.tasks p).1 ≠ .ok true := by
    rw [hr, List.isEmpty_eq_false_iff.mpr herred]
    simp
  -- what is left under the ids is what was there under other ids
  have hleft : ∀ svc u,
      (scheduleNewPriceTasks (Services.proxies env) r.tasks p).2.services.tasks svc u =
        if u = r.userId then (p.services.tasks svc u).filter (fun t ↦ !named r.userId r.taskId t)
        else p.services.tasks svc u := by
    intro svc u
    rw [htasks]
    dsimp only
    by_cases hu : u = r.userId
    · rw [if_pos ⟨herred, hu⟩, if_pos hu, List.filter_append, filter_addedTo, List.append_nil]
    · rw [if_neg (fun h ↦ hu h.2), if_neg hu, addedTo_other svc hu, List.append_nil]
  constructor
  · rintro (⟨h, -⟩ | ⟨-, h⟩) svc t ht
    · exact absurd h hfalse
    · have hsame := h svc r.userId
      rw [hleft, if_pos rfl, List.filter_eq_self] at hsame
      simpa using hsame t ht
  · intro hfresh
    refine .inr ⟨hfalse, ?_⟩
    intro svc u
    rw [hleft]
    split
    · next hu =>
      subst hu
      rw [List.filter_eq_self]
      intro t ht
      rw [hfresh svc t ht]
      rfl
    · rfl

end Accepted

/-- A request that is answered with true has been scheduled. -/
theorem scheduledOnce_of_true {env : Environment} {r : AddRequest} {p : HttpProcess Services}
    (h : (scheduleNewPriceTasks (Services.proxies env) r.tasks p).1 = .ok true) :
    r.accepted = true ∧
      ScheduledOnce r p.services
        (scheduleNewPriceTasks (Services.proxies env) r.tasks p).2.services := by
  cases ha : r.accepted with
  | false =>
    have hcheck := checkTasks_addRequest r
    rw [ha, if_neg (by simp)] at hcheck
    unfold scheduleNewPriceTasks at h
    rw [hcheck] at h
    cases Except.ok.inj h
  | true =>
    refine ⟨rfl, ?_⟩
    rcases noThrow_or_split (pushedOf env r p) with hno | ⟨before, task, error, later, hsplit, hb⟩
    · have he := erredOf_noThrow [] hno
      rw [List.nil_append] at he
      have hempty := Except.ok.inj ((schedule_returns ha he refused_owned).1.symm.trans h)
      rw [List.isEmpty_iff, List.map_eq_nil_iff, List.filter_eq_nil_iff] at hempty
      -- nothing is refused or thrown, so every push is scheduled
      have hscheduled : ∀ o ∈ (pushedOf env r p).map Prod.snd, o = .scheduled := by
        intro o ho
        obtain ⟨a, hm, rfl⟩ := List.mem_map.mp ho
        cases hoa : a.2 with
        | scheduled => rfl
        | refused => exact absurd (decide_eq_true hoa) (hempty a hm)
        | thrown error => exact absurd hoa (hno a hm error)
      rcases allOrNothing_of_scheduled ha hscheduled with ⟨-, honce⟩ | ⟨hfalse, -⟩
      · exact honce
      · exact absurd h hfalse
    · have he : erredOf [] (pushedOf env r p) = .error error := by
        rw [hsplit, erredOf_throw [] hb]
      exact absurd ((schedule_throws ha he).1.symm.trans h) nofun

/-- A request is scheduled as a whole or not at all exactly when its tasks fail the check or
the outcomes of its pushes are harmless. -/
theorem allOrNothing_iff (env : Environment) (r : AddRequest) (p : HttpProcess Services) :
    AllOrNothing env r p ↔ r.accepted = false ∨
      Harmless (env.outcomes p.services.pushes r.tasks.length) (FreshIds r p.services) := by
  cases ha : r.accepted with
  | false =>
    have hcheck := checkTasks_addRequest r
    rw [ha, if_neg (by simp)] at hcheck
    refine iff_of_true (.inr ?_) (.inl rfl)
    unfold scheduleNewPriceTasks
    rw [hcheck]
    refine ⟨?_, fun _ _ ↦ rfl⟩
    intro h
    cases Except.ok.inj h
  | true =>
    rw [or_iff_right (by simp)]
    rcases noThrow_or_split (pushedOf env r p) with hno | ⟨before, task, error, later, hsplit, hb⟩
    · have hno' : ∀ o ∈ env.outcomes p.services.pushes r.tasks.length, ∀ e, o ≠ .thrown e := by
        rw [← map_snd_pushedOf]
        intro o ho e
        obtain ⟨a, hm, rfl⟩ := List.mem_map.mp ho
        exact hno a hm e
      by_cases hrefused : .refused ∈ env.outcomes p.services.pushes r.tasks.length
      · rw [allOrNothing_of_refused ha hno (map_snd_pushedOf ▸ hrefused)]
        constructor
        · intro hfresh
          exact .inr (.inl ⟨hno', hrefused, hfresh⟩)
        · rintro (h | ⟨-, -, h⟩ | ⟨refusals, e, later, h, -⟩)
          · cases h _ hrefused
          · exact h
          · exact absurd rfl (hno' (.thrown e) (by rw [h]; simp) e)
      · have hall : ∀ o ∈ env.outcomes p.services.pushes r.tasks.length, o = .scheduled := by
          intro o ho
          cases o with
          | scheduled => rfl
          | refused => exact absurd ho hrefused
          | thrown e => exact absurd rfl (hno' _ ho e)
        refine iff_of_true ?_ (.inl hall)
        rw [← map_snd_pushedOf] at hall
        exact allOrNothing_of_scheduled ha hall
    · exact allOrNothing_of_throw ha hsplit hb

/-- A contract of one spot token, reported at an interval. -/
private def intervalTask (token : Bytes) : ScheduledPriceTask :=
  { taskId := bytes "t1"
    userId := bytes "u1"
    tokens := [token]
    tradeType := .spot
    exchange := .binance
    timeProp := some { timeMS := 60000, duration := .minutes } }

/-- A request with two such contracts. -/
private def twoIntervals : AddRequest where
  userId := bytes "u1"
  taskId := bytes "t1"
  tasks := [intervalTask (bytes "BTC-USDT"), intervalTask (bytes "ETH-USDT")]
  owned := by decide
  oneKind := by decide

/-- The bus loses the second schedule call. -/
private def secondThrows : Environment where
  outcome n := if n = 1 then .thrown ⟨bytes "timeout"⟩ else .scheduled
  cache _ _ := default

/-- The second push throws, and the first task stays scheduled. -/
theorem not_allOrNothing_secondThrows :
    ¬AllOrNothing secondThrows twoIntervals { services := { time := ∅, progress := ∅ } } := by
  intro h
  have hthrows : (scheduleNewPriceTasks (Services.proxies secondThrows) twoIntervals.tasks
      { services := { time := ∅, progress := ∅ } }).1 = .error ⟨bytes "timeout"⟩ := by
    decide +kernel
  have hkept : ((scheduleNewPriceTasks (Services.proxies secondThrows) twoIntervals.tasks
      { services := { time := ∅, progress := ∅ } }).2.services.tasks .time
        (bytes "u1")).length = 1 := by
    decide +kernel
  rcases h with ⟨h, -⟩ | ⟨-, h⟩
  · rw [hthrows] at h
    cases h
  · rw [h] at hkept
    revert hkept
    decide +kernel

end KeepMyJournal.HttpStream
