import KeepMyJournal.HttpStream.PathValues
import KeepMyJournal.HttpStream.QueryString

/-!
# One path, spelled in several ways

`handle_requests`, `http_stream/src/session.cpp:221–271`, on a path and on the same path with
slashes and a query behind it. Slashes are stripped from the end of the whole target. Those that
stand before a query are left: the table is searched with them, the special routes without them.
The query is read from a destroyed string, unless nothing is left of it.
-/

namespace KeepMyJournal.HttpStream

open KeepMyJournal.Base KeepMyJournal.Common

/-! ### The rule that is selected -/

/-- The part of `handle_requests` that looks at the target only. -/
def selectRule (past : Nat → UInt8) (endpoints : Endpoint Callback) (requestTarget : Bytes) :
    Except Fault (Option Selection) := do
  let requestTarget ← stripSlashes (decodeUrl past requestTarget)
  if requestTarget.isEmpty then return none
  let target ← index (splitStringView requestTarget [questionMark]) 0
  match endpoints.getRules target with
  | some rule => return some (.table rule)
  | none => return (← endpoints.getSpecialRules target).map .special

private theorem selectRule_of_stripped {past : Nat → UInt8} {requestTarget stripped : Bytes}
    (endpoints : Endpoint Callback)
    (hstripped : (decodeUrl past requestTarget).rdropWhile (· == slash) = stripped) :
    selectRule past endpoints requestTarget =
      if stripped = [] then .ok none
      else lookUp endpoints (stripped.takeWhile (· != questionMark)) := by
  have hindex : index (splitStringView stripped [questionMark]) 0 =
      .ok (stripped.takeWhile (· != questionMark)) := by
    rw [index, splitStringView_singleton_head]
  rw [selectRule, stripSlashes_eq, hstripped]
  dsimp only [Bind.bind, Except.bind]
  rw [hindex]
  by_cases hempty : stripped = []
  · rw [if_pos hempty, if_pos (List.isEmpty_iff.mpr hempty)]
    rfl
  · rw [if_neg hempty, if_neg (fun h ↦ hempty (List.isEmpty_iff.mp h))]
    dsimp only [lookUp]
    cases endpoints.getRules (stripped.takeWhile (· != questionMark)) with
    | some rule => rfl
    | none => cases endpoints.getSpecialRules (stripped.takeWhile (· != questionMark)) <;> rfl

/-- A target with a byte besides slashes is looked up by its path. -/
theorem selectRule_eq (past : Nat → UInt8) (endpoints : Endpoint Callback) {requestTarget : Bytes}
    (hsome : ∃ b ∈ decodeUrl past requestTarget, b ≠ slash) :
    selectRule past endpoints requestTarget = lookUp endpoints (pathOf past requestTarget) := by
  rw [selectRule_of_stripped endpoints rfl, if_neg, pathOf]
  rw [List.rdropWhile_eq_nil_iff]
  simpa using hsome

/-- The rule decides what is done with the request. -/
theorem handleRequests_eq_selectRule (past : Nat → UInt8) (endpoints : Endpoint Callback)
    (requestTarget : Bytes) (method : Verb) :
    handleRequests past endpoints requestTarget method =
      (selectRule past endpoints requestTarget).bind fun selected ↦
        match selected with
        | none => .ok .notFound
        | some selection =>
          applyRule selection.rule selection.placeholders (splitStringView
            ((decodeUrl past requestTarget).rdropWhile (· == slash)) [questionMark]) method := by
  by_cases hslashes : ∀ b ∈ decodeUrl past requestTarget, b = slash
  · have hnil : (decodeUrl past requestTarget).rdropWhile (· == slash) = [] := by
      rw [List.rdropWhile_eq_nil_iff]
      simpa using hslashes
    rw [handleRequests_slashes past endpoints requestTarget method hslashes,
      selectRule_of_stripped endpoints hnil, if_pos rfl]
    rfl
  · have hsome : ∃ b ∈ decodeUrl past requestTarget, b ≠ slash := by simpa using hslashes
    rw [selectRule_eq past endpoints hsome]
    exact handleRequests_eq past endpoints requestTarget method hsome

/-! ### Slashes behind the path -/

section Path

variable {e : Endpoint Callback} {p : Bytes}

/-- A path that does not end in a slash is all that is left of it with slashes behind it. -/
private theorem rdropWhile_slashes (hend : p.getLast? ≠ some slash) (k : Nat) :
    (p ++ List.replicate k slash).rdropWhile (· == slash) = p := by
  induction k with
  | zero => rw [List.replicate_zero, List.append_nil, rdropWhile_eq_self hend]
  | succ k ih =>
    rw [List.replicate_succ', ← List.append_assoc,
      List.rdropWhile_concat_pos _ _ _ (by simp), ih]

/-- What the unguarded loop leaves ends in another byte. -/
private theorem getLast?_of_popSlashes {s stripped : Bytes} (h : popSlashes s = .ok stripped) :
    stripped ≠ [] ∧ stripped.getLast? ≠ some slash := by
  rw [popSlashes_eq] at h
  split at h
  · cases h
  · next hsome =>
    obtain rfl := Except.ok.inj h
    refine ⟨?_, getLast?_rdropWhile s⟩
    rw [ne_eq, List.rdropWhile_eq_nil_iff]
    simpa using hsome

/-- No route of the table is empty or ends in a slash. -/
theorem getLast?_of_getRules (he : e.Made) {route : Bytes} {rule : Rule Callback}
    (h : e.getRules route = some rule) : route ≠ [] ∧ route.getLast? ≠ some slash := by
  induction he with
  | empty => simp [Endpoint.getRules] at h
  | addEndpoint _ hadd ih =>
    unfold Endpoint.addEndpoint at hadd
    dsimp only at hadd
    split at hadd
    · cases hadd
    · obtain ⟨stripped, hstripped, hadd⟩ := of_bind_eq_ok hadd
      obtain rfl := Except.ok.inj hadd
      rw [Endpoint.getRules, Std.ExtTreeMap.getElem?_insertIfNew] at h
      split at h
      · next hnew =>
        obtain rfl := Std.compare_eq_iff_eq.mp hnew.1
        exact getLast?_of_popSlashes hstripped
      · exact ih h
  | addSpecialEndpoint _ hadd ih =>
    obtain ⟨pre, placeholder, -, rfl⟩ := Endpoint.addSpecialEndpoint_ok hadd
    exact ih h

/-- The special routes are searched without the slashes. -/
theorem getSpecialRules_slashes (hp : p ≠ []) (hend : p.getLast? ≠ some slash) (k : Nat) :
    e.getSpecialRules (p ++ List.replicate k slash) = e.getSpecialRules p := by
  have hpop : ∀ k, popSlashes (p ++ List.replicate k slash) = .ok p := by
    intro k
    rw [popSlashes_eq, rdropWhile_slashes hend, if_neg]
    intro hall
    have hlast := List.all_eq_true.mp hall _ (List.mem_append_left _ (List.getLast_mem hp))
    exact hend (by rw [List.getLast?_eq_some_getLast hp, beq_iff_eq.mp hlast])
  rw [Endpoint.getSpecialRules, Endpoint.getSpecialRules, hpop k]
  have hpop₀ := hpop 0
  rw [List.replicate_zero, List.append_nil] at hpop₀
  rw [hpop₀]

/-- The path is found with slashes behind it, unless it is a route of the table. -/
theorem lookUp_slashes_iff (he : e.Made) (hend : p.getLast? ≠ some slash) (hp : p ≠ [])
    (k : Nat) :
    lookUp e (p ++ List.replicate k slash) = lookUp e p ↔ k = 0 ∨ e.getRules p = none := by
  cases k with
  | zero =>
    rw [List.replicate_zero, List.append_nil]
    exact iff_of_true rfl (.inl rfl)
  | succ k =>
    have hnone : e.getRules (p ++ List.replicate (k + 1) slash) = none := by
      rw [Option.eq_none_iff_forall_ne_some]
      intro rule hrule
      apply (getLast?_of_getRules he hrule).2
      rw [List.replicate_succ', ← List.append_assoc, List.getLast?_concat]
    rw [lookUp, lookUp, hnone, getSpecialRules_slashes hp hend]
    dsimp only
    rw [or_iff_right (Nat.succ_ne_zero k)]
    cases hrule : e.getRules p with
    | none => exact iff_of_true rfl rfl
    | some rule =>
      refine iff_of_false ?_ (by simp)
      cases e.getSpecialRules p with
      | error fault => exact fun h ↦ by cases h
      | ok found =>
        cases found with
        | none => exact fun h ↦ by cases h
        | some placeholder => exact fun h ↦ by cases h

/-- Without a path, the search among the special routes fails. -/
theorem lookUp_slashes_isError (he : e.Made) (k : Nat) :
    ∃ fault, lookUp e (List.replicate k slash) = .error fault := by
  have hnone : e.getRules (List.replicate k slash) = none := by
    rw [Option.eq_none_iff_forall_ne_some]
    intro rule hrule
    obtain ⟨hne, hlast⟩ := getLast?_of_getRules he hrule
    cases k with
    | zero => exact hne rfl
    | succ k => exact hlast (by rw [List.replicate_succ', List.getLast?_concat])
  have hpop : popSlashes (List.replicate k slash) = .error .backOfEmpty := by
    rw [popSlashes_eq, if_pos (by simp)]
  rw [lookUp, hnone, Endpoint.getSpecialRules, hpop]
  exact ⟨_, rfl⟩

end Path

/-! ### The query behind the path -/

/-- Every value of the query has been delivered under its key. -/
def AllDelivered (query : UrlQuery) (q : Bytes) : Prop :=
  ∀ key value, equalsSign ∉ key → key ++ equalsSign :: value ∈ q.splitOn ampersand →
    query[key]? = some value

/-- No value of the query is lost: no destroyed string is read for it, and the callback, if one is
called, gets every value. -/
def Delivers (q : Bytes) : Outcome → Prop
  | .readsDestroyed => False
  | .routeCallback _ query => AllDelivered query q
  | .notFound | .methodNotAllowed | .allowedOptions _ => True

/-- Where a rule takes the method, no value is lost exactly if no byte of the query is read and the
path gives every value. -/
private theorem delivers_iff (q : Bytes) (selection : Selection) (method : Verb) (query : Bytes) :
    Delivers q (if method = .options then .allowedOptions selection.rule.verbs
        else if method ∉ selection.rule.verbs then .methodNotAllowed
        else if query ≠ [] then .readsDestroyed
        else .routeCallback selection.rule.routeCallback (fillQuery selection.placeholders ∅)) ↔
      (method ∈ selection.rule.verbs → method ≠ .options →
        query = [] ∧ AllDelivered (fillQuery selection.placeholders ∅) q) := by
  split
  · next hoptions => exact iff_of_true True.intro fun _ h ↦ absurd hoptions h
  · next hoptions =>
    split
    · next hmethod => exact iff_of_true True.intro fun h ↦ absurd h hmethod
    · next hmethod =>
      rw [not_not] at hmethod
      split
      · next hquery => exact iff_of_false id fun h ↦ hquery (h hmethod hoptions).1
      · next hquery =>
        rw [not_not] at hquery
        constructor
        · intro h _ _
          exact ⟨hquery, h⟩
        · intro h
          exact (h hmethod hoptions).2

/-- Nothing is left of a query of slashes alone, nor of one that begins with a question mark. -/
private theorem takeWhile_rdropWhile_eq_nil_iff (q : Bytes) :
    (q.rdropWhile (· == slash)).takeWhile (· != questionMark) = [] ↔
      (∀ b ∈ q, b = slash) ∨ q.head? = some questionMark := by
  by_cases hslashes : ∀ b ∈ q, b = slash
  · rw [List.rdropWhile_eq_nil_iff.mpr (by simpa using hslashes), List.takeWhile_nil]
    exact iff_of_true rfl (.inl hslashes)
  · rw [or_iff_right hslashes]
    have hne : q.rdropWhile (· == slash) ≠ [] := by
      rw [ne_eq, List.rdropWhile_eq_nil_iff]
      simpa using hslashes
    obtain ⟨b, rest, hrest⟩ := List.exists_cons_of_ne_nil hne
    obtain ⟨slashes, hq⟩ := List.rdropWhile_prefix (· == slash) (l := q)
    have hhead : (q.rdropWhile (· == slash) ++ slashes).head? = some b := by
      rw [hrest]
      rfl
    rw [hq] at hhead
    rw [hrest, hhead, Option.some.injEq]
    by_cases hb : b = questionMark
    · subst hb
      rw [List.takeWhile_cons_of_neg (by simp)]
      exact iff_of_true rfl rfl
    · rw [List.takeWhile_cons_of_pos (by simpa using hb)]
      exact iff_of_false (List.cons_ne_nil _ _) hb

/-! ### The two spellings -/

section Spellings

variable {e : Endpoint Callback} {p q target path : Bytes} {past : Nat → UInt8} {k : Nat}

/-- Behind a path, slashes are stripped from the query only. -/
private theorem stripped_target (htarget : decodeUrl past target =
      p ++ List.replicate k slash ++ questionMark :: q) :
    (decodeUrl past target).rdropWhile (· == slash) =
      p ++ List.replicate k slash ++ questionMark :: q.rdropWhile (· == slash) := by
  rw [htarget, rdropWhile_append_cons (by decide)]

private theorem questionMark_notMem (hmark : questionMark ∉ p) (k : Nat) :
    questionMark ∉ p ++ List.replicate k slash := by
  rw [List.mem_append, not_or]
  refine ⟨hmark, ?_⟩
  intro hmem
  exact absurd (List.eq_of_mem_replicate hmem) (by decide)

/-- The query of the target is what is left of the one that was sent. -/
private theorem queryStringOf_target (hmark : questionMark ∉ p) (htarget : decodeUrl past target =
      p ++ List.replicate k slash ++ questionMark :: q) :
    queryStringOf past target = (q.rdropWhile (· == slash)).takeWhile (· != questionMark) := by
  rw [queryStringOf, stripped_target htarget,
    dropWhile_bne_append_cons (questionMark_notMem hmark k), List.tail_cons]

/-- The two spellings select one rule, unless the path is empty, or it is a route of the table and
slashes stand behind it. -/
theorem selectRule_spellings_iff (he : e.Made) (hmark : questionMark ∉ p)
    (hend : p.getLast? ≠ some slash)
    (htarget : decodeUrl past target = p ++ List.replicate k slash ++ questionMark :: q)
    (hpath : decodeUrl past path = p) :
    selectRule past e target = selectRule past e path ↔
      p ≠ [] ∧ (k = 0 ∨ e.getRules p = none) := by
  have hstripped : (decodeUrl past path).rdropWhile (· == slash) = p := by
    rw [hpath, rdropWhile_eq_self hend]
  rw [selectRule_of_stripped e (stripped_target htarget), selectRule_of_stripped e hstripped,
    if_neg (by simp), takeWhile_bne_append_cons (questionMark_notMem hmark k)]
  by_cases hp : p = []
  · obtain ⟨fault, hfault⟩ := lookUp_slashes_isError he k
    rw [if_pos hp, hp, List.nil_append, hfault]
    exact iff_of_false (fun h ↦ by cases h) (fun h ↦ h.1 rfl)
  · rw [if_neg hp, takeWhile_bne_eq_self_iff.mpr hmark, and_iff_right hp]
    exact lookUp_slashes_iff he hend hp k

/-- For every path that has no question mark and does not end in a slash, every number of slashes
behind it and every query string: the target selects the rule that the path selects, and no value
of the query is lost, if and only if the path is not empty, no slashes stand behind a route of the
table, and, where the rule takes the method, nothing of the query is read and the path gives every
value of it. -/
theorem spellings_agree_iff (he : e.Made) (hmark : questionMark ∉ p)
    (hend : p.getLast? ≠ some slash)
    (htarget : decodeUrl past target = p ++ List.replicate k slash ++ questionMark :: q)
    (hpath : decodeUrl past path = p) (method : Verb) :
    (selectRule past e target = selectRule past e path ∧
      ∀ outcome, handleRequests past e target method = .ok outcome → Delivers q outcome) ↔
      (p ≠ [] ∧ (k = 0 ∨ e.getRules p = none)) ∧
        ∀ selection, lookUp e p = .ok (some selection) → method ∈ selection.rule.verbs →
          method ≠ .options →
          ((∀ b ∈ q, b = slash) ∨ q.head? = some questionMark) ∧
            AllDelivered (fillQuery selection.placeholders ∅) q := by
  rw [selectRule_spellings_iff he hmark hend htarget hpath]
  refine and_congr_right ?_
  rintro ⟨hp, hk⟩
  have hlookUp : lookUp e (pathOf past target) = lookUp e p := by
    rw [pathOf, stripped_target htarget, takeWhile_bne_append_cons (questionMark_notMem hmark k)]
    exact (lookUp_slashes_iff he hend hp k).mpr hk
  have hsome : ∃ b ∈ decodeUrl past target, b ≠ slash := by
    rw [htarget]
    exact ⟨questionMark, by simp, by decide⟩
  rw [← takeWhile_rdropWhile_eq_nil_iff, ← queryStringOf_target hmark htarget]
  cases hfound : lookUp e p with
  | error fault =>
    rw [handleRequests_eq past e target method hsome, hlookUp, hfound]
    exact iff_of_true (fun _ h ↦ by cases h) (fun _ h ↦ by cases h)
  | ok found =>
    cases found with
    | none =>
      rw [handleRequests_eq past e target method hsome, hlookUp, hfound]
      refine iff_of_true ?_ (fun _ h ↦ by cases h)
      intro outcome h
      obtain rfl := Except.ok.inj h
      exact True.intro
    | some selection =>
      rw [handleRequests_of_lookUp hsome (hlookUp.trans hfound)]
      simp only [Except.ok.injEq, Option.some.injEq, forall_eq']
      exact delivers_iff q selection method (queryStringOf past target)

end Spellings

/-- The two spellings `/list_price_tasks/7/??&user_id=7` and `/list_price_tasks/7`: nothing of the
query is read, and the path gives the user id. -/
theorem spellings_agree_iff_listPriceTasks :
    ∃ e : Endpoint Callback, addEndpointInterfaces = .ok e ∧
      ((selectRule (fun _ ↦ 0) e (bytes "/list_price_tasks/7/??&user_id=7") =
            selectRule (fun _ ↦ 0) e (bytes "/list_price_tasks/7") ∧
          ∀ outcome, handleRequests (fun _ ↦ 0) e (bytes "/list_price_tasks/7/??&user_id=7") .get =
              .ok outcome → Delivers (bytes "?&user_id=7") outcome) ↔
        (bytes "/list_price_tasks/7" ≠ [] ∧
            (1 = 0 ∨ e.getRules (bytes "/list_price_tasks/7") = none)) ∧
          ∀ selection, lookUp e (bytes "/list_price_tasks/7") = .ok (some selection) →
            .get ∈ selection.rule.verbs → Verb.get ≠ .options →
            ((∀ b ∈ bytes "?&user_id=7", b = slash) ∨
                (bytes "?&user_id=7").head? = some questionMark) ∧
              AllDelivered (fillQuery selection.placeholders ∅) (bytes "?&user_id=7")) := by
  obtain ⟨e, hadd, -⟩ := addEndpointInterfaces_isOk
  exact ⟨e, hadd, spellings_agree_iff (Endpoint.made_addEndpointInterfaces hadd)
    (by decide +kernel) (by decide +kernel) (by decide +kernel) (by decide +kernel) .get⟩

/-- `/all_price_tasks/?limit=20` is not found, and for `/all_price_tasks?limit=20` a destroyed
string is read. -/
theorem not_spellings_agree_allPriceTasks :
    ∃ e : Endpoint Callback, addEndpointInterfaces = .ok e ∧
      selectRule (fun _ ↦ 0) e (bytes "/all_price_tasks/?limit=20") ≠
        selectRule (fun _ ↦ 0) e (bytes "/all_price_tasks") ∧
      ∃ outcome, handleRequests (fun _ ↦ 0) e (bytes "/all_price_tasks?limit=20") .get =
          .ok outcome ∧ ¬Delivers (bytes "limit=20") outcome := by
  have hroute : addEndpointInterfaces.toOption.any (fun e ↦
      (e.getRules (bytes "/all_price_tasks")).any fun rule ↦ decide (Verb.get ∈ rule.verbs)) =
      true := by decide +kernel
  obtain ⟨e, hadd, -⟩ := addEndpointInterfaces_isOk
  rw [hadd, Except.toOption, Option.any_some] at hroute
  obtain ⟨rule, hrule, hverb⟩ := (Option.any_eq_true _ _).mp hroute
  refine ⟨e, hadd, ?_, ?_⟩
  · have htarget : decodeUrl (fun _ ↦ 0) (bytes "/all_price_tasks/?limit=20") =
        bytes "/all_price_tasks" ++ List.replicate 1 slash ++ questionMark :: bytes "limit=20" := by
      decide +kernel
    have hpath : decodeUrl (fun _ ↦ 0) (bytes "/all_price_tasks") = bytes "/all_price_tasks" := by
      decide +kernel
    rw [ne_eq, selectRule_spellings_iff (Endpoint.made_addEndpointInterfaces hadd)
      (by decide +kernel) (by decide +kernel) htarget hpath, hrule]
    simp
  · have hpath : pathOf (fun _ ↦ 0) (bytes "/all_price_tasks?limit=20") =
        bytes "/all_price_tasks" := by decide +kernel
    have hquery : queryStringOf (fun _ ↦ 0) (bytes "/all_price_tasks?limit=20") ≠ [] := by
      decide +kernel
    have hsome : ∃ b ∈ decodeUrl (fun _ ↦ 0) (bytes "/all_price_tasks?limit=20"), b ≠ slash := by
      decide +kernel
    have hselection : lookUp e (pathOf (fun _ ↦ 0) (bytes "/all_price_tasks?limit=20")) =
        .ok (some (.table rule)) := by
      rw [hpath, lookUp, hrule]
    have hmethod : Verb.get ∈ (Selection.table rule).rule.verbs := of_decide_eq_true hverb
    refine ⟨.readsDestroyed, ?_, id⟩
    rw [handleRequests_of_lookUp hsome hselection, if_neg (by decide),
      if_neg (not_not.mpr hmethod), if_pos hquery]

end KeepMyJournal.HttpStream
