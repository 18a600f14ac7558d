import KeepMyJournal.Common.Splitting
import KeepMyJournal.HttpStream.Endpoint

/-!
# Routing

`session_t::add_endpoint_interfaces` and `session_t::handle_requests`,
`http_stream/src/session.cpp:105–119, 166–271`, up to the response or the callback that a
request ends in. `split.size() > 1 ? split[1] : ""` is a temporary `std::string`, since
`splitStringView` returns strings; `query_string` is a view of it, and is read when it has been
destroyed.
-/

namespace KeepMyJournal.HttpStream

open KeepMyJournal.Base KeepMyJournal.Common

/-- The handlers of `session_t`. -/
inductive Handler where
  | monitorUserAccount | addNewPricingTasks | stopPricesTask | getAllRunningPriceTasks
  | sendTelegramText | newTelegramRegistrationCodeCallback
  | newTelegramRegistrationPasswordCallback
  | getPricesTaskStatus | latestPriceHandler | getTradingPairsHandler
  deriving DecidableEq, Repr

/-- `JSON_ROUTE_CALLBACK` and `ROUTE_CALLBACK`. -/
inductive Callback where
  | jsonRoute (handler : Handler)
  | route (handler : Handler)
  deriving DecidableEq, Repr

/-- `add_endpoint_interfaces`. -/
def addEndpointInterfaces : Except Fault (Endpoint Callback) := do
  let e : Endpoint Callback := {}
  let e ← e.addEndpoint (bytes "/add_account_monitoring") (.jsonRoute .monitorUserAccount) [.post]
  let e ← e.addEndpoint (bytes "/add_pricing_tasks") (.jsonRoute .addNewPricingTasks) [.post]
  let e ← e.addEndpoint (bytes "/stop_price_tasks") (.jsonRoute .stopPricesTask) [.post]
  let e ← e.addEndpoint (bytes "/all_price_tasks") (.route .getAllRunningPriceTasks) [.get]
  let e ← e.addSpecialEndpoint (bytes "/new_telegram_message/\x7bchat_id\x7d")
    (.jsonRoute .sendTelegramText) [.post]
  let e ← e.addSpecialEndpoint
    (bytes "/new_telegram_registration_code/\x7bnumber\x7d/\x7bcode\x7d")
    (.jsonRoute .newTelegramRegistrationCodeCallback) [.put]
  let e ← e.addSpecialEndpoint
    (bytes "/new_telegram_registration_password/\x7bnumber\x7d/\x7bpassword\x7d")
    (.jsonRoute .newTelegramRegistrationPasswordCallback) [.put]
  let e ← e.addSpecialEndpoint (bytes "/list_price_tasks/\x7buser_id\x7d")
    (.route .getPricesTaskStatus) [.get]
  let e ← e.addSpecialEndpoint
    (bytes "/latest_price/\x7bexchange\x7d/\x7btrade\x7d/\x7bsymbol\x7d")
    (.route .latestPriceHandler) [.get]
  e.addSpecialEndpoint (bytes "/trading_pairs/\x7bexchange\x7d")
    (.route .getTradingPairsHandler) [.get]

/-- `split_optional_queries`; `emplace` keeps the first value of a key. -/
def splitOptionalQueries (optionalQuery : Bytes) : Except Fault UrlQuery :=
  if optionalQuery.isEmpty then pure ∅
  else
    (splitStringView optionalQuery (bytes "&")).foldlM (fun result q ↦ do
      let split := splitStringView q (bytes "=")
      if split.length < 2 then pure result
      else pure (result.insertIfNew (← index split 0) (← index split 1))) ∅

/-- What `handle_requests` ends a request with. The standard says nothing of one whose query is
read from the destroyed string. -/
inductive Outcome where
  | notFound
  | methodNotAllowed
  | allowedOptions (verbs : List Verb)
  | routeCallback (callback : Callback) (query : UrlQuery)
  | readsDestroyed

/-- The temporary that `query_string` is a view of: the second piece, if there is one. -/
def queryString (split : List Bytes) : Except Fault Bytes :=
  if split.length > 1 then index split 1 else pure []

/-- `url_query[key] = value` for each placeholder. -/
def fillQuery (placeholders : List KeyValuePair) (query : UrlQuery) : UrlQuery :=
  placeholders.foldl (fun query p ↦ query.insert p.key p.value) query

/-- What both branches of `handle_requests` do with the rule they have found; a rule of the
table has no placeholders. -/
def applyRule (rule : Rule Callback) (placeholders : List KeyValuePair) (split : List Bytes)
    (method : Verb) : Except Fault Outcome := do
  if method = .options then return .allowedOptions rule.verbs
  if !rule.verbs.contains method then return .methodNotAllowed
  let queryString ← queryString split
  -- of an empty view no byte is read
  if !queryString.isEmpty then return .readsDestroyed
  let urlQuery ← splitOptionalQueries queryString
  return .routeCallback rule.routeCallback (fillQuery placeholders urlQuery)

/-- `handle_requests`, up to the response or the call of the route's callback. -/
def handleRequests (past : Nat → UInt8) (endpoints : Endpoint Callback) (requestTarget : Bytes)
    (method : Verb) : Except Fault Outcome := do
  let requestTarget ← stripSlashes (decodeUrl past requestTarget)
  if requestTarget.isEmpty then return .notFound
  let split := splitStringView requestTarget [questionMark]
  let target ← index split 0
  match endpoints.getRules target with
  | some rule => applyRule rule [] split method
  | none =>
    match ← endpoints.getSpecialRules target with
    | none => return .notFound
    | some placeholder => applyRule placeholder.rule placeholder.placeholders split method

/-! ### The rule -/

private theorem ok_bind {α β : Type} (a : α) (f : α → Except Fault β) :
    ((Except.ok a : Except Fault α) >>= f) = f a := rfl

/-- The second piece stands between the first question mark and the next. -/
theorem queryString_eq (s : Bytes) :
    queryString (splitStringView s [questionMark]) =
      .ok ((s.dropWhile (· != questionMark)).tail.takeWhile (· != questionMark)) := by
  by_cases hmark : questionMark ∈ s
  · obtain ⟨front, rest, rfl, hfront⟩ := List.eq_append_cons_of_mem hmark
    rw [splitStringView_append_cons hfront, dropWhile_bne_append_cons hfront, List.tail_cons]
    by_cases hrest : rest = []
    · subst hrest
      rfl
    · obtain ⟨others, hothers⟩ := keptPieces_splitOn_head questionMark hrest
      rw [hothers]
      rfl
  · rw [splitStringView_singleton, if_neg hmark, List.dropWhile_eq_nil_iff.mpr]
    · rfl
    · intro b hb
      rw [bne_iff_ne]
      rintro rfl
      exact hmark hb

/-- What a rule does with a method. -/
theorem applyRule_eq (rule : Rule Callback) (placeholders : List KeyValuePair)
    {split : List Bytes} {query : Bytes} (hquery : queryString split = .ok query)
    (method : Verb) :
    applyRule rule placeholders split method =
      .ok (if method = .options then .allowedOptions rule.verbs
        else if method ∉ rule.verbs then .methodNotAllowed
        else if query ≠ [] then .readsDestroyed
        else .routeCallback rule.routeCallback (fillQuery placeholders ∅)) := by
  unfold applyRule
  rw [hquery]
  by_cases hoptions : method = .options
  · rw [if_pos hoptions, if_pos hoptions]
    rfl
  · rw [if_neg hoptions, if_neg hoptions]
    by_cases hmethod : method ∈ rule.verbs
    · rw [if_neg (by simpa using hmethod), if_neg (not_not.mpr hmethod)]
      cases query with
      | nil => rfl
      | cons b query => rfl
    · rw [if_pos (by simpa using hmethod), if_pos hmethod]
      rfl

/-! ### The path -/

/-- The path `handle_requests` looks a target up by: what is left of the decoded target without
its trailing slashes, up to the first question mark. -/
def pathOf (past : Nat → UInt8) (requestTarget : Bytes) : Bytes :=
  ((decodeUrl past requestTarget).rdropWhile (· == slash)).takeWhile (· != questionMark)

/-- The query of a target: what stands between its first question mark and the next. -/
def queryStringOf (past : Nat → UInt8) (requestTarget : Bytes) : Bytes :=
  (((decodeUrl past requestTarget).rdropWhile (· == slash)).dropWhile
    (· != questionMark)).tail.takeWhile (· != questionMark)

/-- What `handle_requests` has found: an entry of the table, or a special route with its values. -/
inductive Selection where
  | table (rule : Rule Callback)
  | special (placeholder : SpecialPlaceholders Callback)

def Selection.rule : Selection → Rule Callback
  | table rule => rule
  | special placeholder => placeholder.rule

def Selection.placeholders : Selection → List KeyValuePair
  | table _ => []
  | special placeholder => placeholder.placeholders

/-- What `get_rules` and `get_special_rules` find for a path. -/
def lookUp (endpoints : Endpoint Callback) (path : Bytes) : Except Fault (Option Selection) :=
  match endpoints.getRules path with
  | some rule => .ok (some (.table rule))
  | none => (endpoints.getSpecialRules path).map (Option.map .special)

/-- What is found is an entry of the table, or else a special route. -/
theorem of_lookUp {endpoints : Endpoint Callback} {path : Bytes} {selection : Selection}
    (h : lookUp endpoints path = .ok (some selection)) :
    (∃ rule, selection = .table rule ∧ endpoints.getRules path = some rule) ∨
      ∃ placeholder, selection = .special placeholder ∧
        endpoints.getSpecialRules path = .ok (some placeholder) := by
  unfold lookUp at h
  split at h
  · next rule hrule => exact .inl ⟨rule, (Option.some.inj (Except.ok.inj h)).symm, hrule⟩
  · right
    cases hspecial : endpoints.getSpecialRules path with
    | error fault =>
      rw [hspecial] at h
      cases h
    | ok found =>
      cases found with
      | none =>
        rw [hspecial] at h
        cases h
      | some placeholder =>
        rw [hspecial] at h
        exact ⟨placeholder, (Option.some.inj (Except.ok.inj h)).symm, rfl⟩

/-- A target of slashes alone is not found. -/
theorem handleRequests_slashes (past : Nat → UInt8) (endpoints : Endpoint Callback)
    (requestTarget : Bytes) (method : Verb)
    (hslashes : ∀ b ∈ decodeUrl past requestTarget, b = slash) :
    handleRequests past endpoints requestTarget method = .ok .notFound := by
  have hnil : (decodeUrl past requestTarget).rdropWhile (· == slash) = [] := by
    rw [List.rdropWhile_eq_nil_iff]
    simpa using hslashes
  unfold handleRequests
  simp only [stripSlashes_eq, ok_bind, hnil]
  rfl

/-- What `handle_requests` does with what it finds for a path. -/
theorem handleRequests_eq (past : Nat → UInt8) (endpoints : Endpoint Callback)
    (requestTarget : Bytes) (method : Verb)
    (hsome : ∃ b ∈ decodeUrl past requestTarget, b ≠ slash) :
    handleRequests past endpoints requestTarget method =
      (lookUp endpoints (pathOf past requestTarget)).bind fun
        | none => .ok .notFound
        | some selection =>
          applyRule selection.rule selection.placeholders (splitStringView
            ((decodeUrl past requestTarget).rdropWhile (· == slash)) [questionMark]) method := by
  have hindex : index (splitStringView
      ((decodeUrl past requestTarget).rdropWhile (· == slash)) [questionMark]) 0 =
      .ok (pathOf past requestTarget) := by
    rw [index, splitStringView_singleton_head]
    rfl
  have hne : ¬((decodeUrl past requestTarget).rdropWhile (· == slash)).isEmpty := by
    rw [List.isEmpty_iff, List.rdropWhile_eq_nil_iff]
    simpa using hsome
  unfold handleRequests lookUp
  simp only [stripSlashes_eq, ok_bind, hindex]
  rw [if_neg hne]
  cases endpoints.getRules (pathOf past requestTarget) with
  | some rule => rfl
  | none =>
    cases endpoints.getSpecialRules (pathOf past requestTarget) with
    | error fault => rfl
    | ok found =>
      cases found with
      | none => rfl
      | some placeholder => rfl

/-- What `handle_requests` does with a rule it finds. -/
theorem handleRequests_of_lookUp {past : Nat → UInt8} {endpoints : Endpoint Callback}
    {requestTarget : Bytes} (hsome : ∃ b ∈ decodeUrl past requestTarget, b ≠ slash)
    {selection : Selection}
    (hselection : lookUp endpoints (pathOf past requestTarget) = .ok (some selection))
    (method : Verb) :
    handleRequests past endpoints requestTarget method =
      .ok (if method = .options then .allowedOptions selection.rule.verbs
        else if method ∉ selection.rule.verbs then .methodNotAllowed
        else if queryStringOf past requestTarget ≠ [] then .readsDestroyed
        else .routeCallback selection.rule.routeCallback
          (fillQuery selection.placeholders ∅)) := by
  rw [handleRequests_eq past endpoints requestTarget method hsome, hselection]
  exact applyRule_eq selection.rule selection.placeholders (queryString_eq _) method

/-- The callback of the rule that is found is called only for a method of the rule and without a
query, with the values of the path. -/
theorem of_handleRequests {past : Nat → UInt8} {endpoints : Endpoint Callback}
    {requestTarget : Bytes} {method : Verb} {callback : Callback} {query : UrlQuery}
    (h : handleRequests past endpoints requestTarget method = .ok (.routeCallback callback query)) :
    ∃ selection, lookUp endpoints (pathOf past requestTarget) = .ok (some selection) ∧
      method ∈ selection.rule.verbs ∧ queryStringOf past requestTarget = [] ∧
      callback = selection.rule.routeCallback ∧ query = fillQuery selection.placeholders ∅ := by
  by_cases hslashes : ∀ b ∈ decodeUrl past requestTarget, b = slash
  · rw [handleRequests_slashes past endpoints requestTarget method hslashes] at h
    cases h
  · have hsome : ∃ b ∈ decodeUrl past requestTarget, b ≠ slash := by simpa using hslashes
    cases hfound : lookUp endpoints (pathOf past requestTarget) with
    | error fault =>
      rw [handleRequests_eq past endpoints requestTarget method hsome, hfound] at h
      cases h
    | ok found =>
      cases found with
      | none =>
        rw [handleRequests_eq past endpoints requestTarget method hsome, hfound] at h
        cases h
      | some selection =>
        rw [handleRequests_of_lookUp hsome hfound, Except.ok.injEq] at h
        refine ⟨selection, rfl, ?_⟩
        split at h
        · cases h
        · split at h
          · cases h
          · next hmethod =>
            split at h
            · cases h
            · next hquery =>
              obtain ⟨rfl, rfl⟩ := Outcome.routeCallback.inj h
              exact ⟨not_not.mp hmethod, not_not.mp hquery, rfl, rfl⟩

/-- The look-up fails in the unguarded loop of `get_special_rules` only. -/
private theorem lookUp_isOk_iff (endpoints : Endpoint Callback) (path : Bytes) :
    (∃ found, lookUp endpoints path = .ok found) ↔
      (endpoints.getRules path).isSome ∨ ∃ b ∈ path, b ≠ slash := by
  unfold lookUp
  cases endpoints.getRules path with
  | some rule => exact iff_of_true ⟨_, rfl⟩ (.inl rfl)
  | none =>
    rw [Option.isSome_none, or_iff_right (by simp), ← endpoints.getSpecialRules_isOk_iff]
    cases endpoints.getSpecialRules path with
    | error fault => exact iff_of_false (fun ⟨_, h⟩ ↦ by cases h) (fun ⟨_, h⟩ ↦ by cases h)
    | ok found => exact iff_of_true ⟨_, rfl⟩ ⟨_, rfl⟩

/-- Of a target of slashes alone, nothing is left to be found, unless the table has a route without
any other byte. -/
theorem lookUp_pathOf_of_slashes {endpoints : Endpoint Callback}
    (hroutes : ∀ target, (endpoints.getRules target).isSome → ∃ b ∈ target, b ≠ slash)
    {past : Nat → UInt8} {requestTarget : Bytes}
    (hslashes : ∀ b ∈ decodeUrl past requestTarget, b = slash) :
    lookUp endpoints (pathOf past requestTarget) = .error .backOfEmpty := by
  have hpath : pathOf past requestTarget = [] := by
    rw [pathOf, List.rdropWhile_eq_nil_iff.mpr (by simpa using hslashes), List.takeWhile_nil]
  have hnone : endpoints.getRules [] = none := by
    rw [Option.eq_none_iff_forall_ne_some]
    intro rule hrule
    obtain ⟨b, hb, -⟩ := hroutes [] (by rw [hrule]; rfl)
    cases hb
  rw [hpath, lookUp, hnone]
  rfl

/-- Apart from the unguarded loop of `get_special_rules`, nothing fails. -/
theorem handleRequests_isOk_iff (past : Nat → UInt8) (endpoints : Endpoint Callback)
    (requestTarget : Bytes) (method : Verb) :
    (∃ outcome, handleRequests past endpoints requestTarget method = .ok outcome) ↔
      (∀ b ∈ decodeUrl past requestTarget, b = slash) ∨
        (endpoints.getRules (pathOf past requestTarget)).isSome ∨
        ∃ b ∈ pathOf past requestTarget, b ≠ slash := by
  by_cases hempty : ∀ b ∈ decodeUrl past requestTarget, b = slash
  · refine iff_of_true ⟨.notFound, ?_⟩ (.inl hempty)
    exact handleRequests_slashes past endpoints requestTarget method hempty
  · rw [handleRequests_eq past endpoints requestTarget method (by simpa using hempty),
      or_iff_right hempty, ← lookUp_isOk_iff]
    cases lookUp endpoints (pathOf past requestTarget) with
    | error fault => exact iff_of_false (fun ⟨_, h⟩ ↦ by cases h) (fun ⟨_, h⟩ ↦ by cases h)
    | ok found =>
      refine iff_of_true ?_ ⟨found, rfl⟩
      cases found with
      | none => exact ⟨_, rfl⟩
      | some selection =>
        exact ⟨_, applyRule_eq selection.rule selection.placeholders (queryString_eq _) method⟩

/-- What does not end in a slash is not shortened. -/
theorem rdropWhile_eq_self {s : Bytes} (h : s.getLast? ≠ some slash) :
    s.rdropWhile (· == slash) = s := by
  rw [List.rdropWhile_eq_self_iff]
  intro hne hlast
  exact h (by rw [List.getLast?_eq_some_getLast hne, beq_iff_eq.mp hlast])

/-- What is left does not end in a slash. -/
theorem getLast?_rdropWhile (s : Bytes) :
    (s.rdropWhile (· == slash)).getLast? ≠ some slash := by
  intro hlast
  have hne : s.rdropWhile (· == slash) ≠ [] := by
    intro hnil
    rw [hnil] at hlast
    cases hlast
  rw [List.getLast?_eq_some_getLast hne] at hlast
  have hnot := List.rdropWhile_last_not (· == slash) s hne
  rw [Option.some.inj hlast] at hnot
  exact hnot (beq_self_eq_true slash)

/-- Trailing slashes are stripped behind the last other byte only. -/
theorem rdropWhile_append_cons {c : UInt8} (hc : c ≠ slash) (front l : Bytes) :
    (front ++ c :: l).rdropWhile (· == slash) = front ++ c :: l.rdropWhile (· == slash) := by
  induction l using List.reverseRecOn with
  | nil =>
    rw [List.rdropWhile_concat_neg _ _ _ (by simpa using hc)]
    rfl
  | append_singleton l b ih =>
    rw [← List.cons_append, ← List.append_assoc]
    by_cases hb : b = slash
    · rw [List.rdropWhile_concat_pos _ _ _ (by simpa using hb),
        List.rdropWhile_concat_pos _ _ _ (by simpa using hb)]
      exact ih
    · rw [List.rdropWhile_concat_neg _ _ _ (by simpa using hb),
        List.rdropWhile_concat_neg _ _ _ (by simpa using hb), List.append_assoc]
      rfl

/-- Slashes, and then nothing, a question mark or another byte. -/
private theorem slashes_cases (s : Bytes) :
    (∀ b ∈ s, b = slash) ∨ ∃ n c l, s = List.replicate n slash ++ c :: l ∧ c ≠ slash := by
  induction s with
  | nil => exact .inl (by simp)
  | cons b s ih =>
    by_cases hb : b = slash
    · rcases ih with h | ⟨n, c, l, rfl, hc⟩
      · exact .inl (by simpa [hb] using h)
      · exact .inr ⟨n + 1, c, l, by rw [hb]; rfl, hc⟩
    · exact .inr ⟨0, b, s, rfl, hb⟩

private theorem takeWhile_slashes (n : Nat) (c : UInt8) (l : Bytes) :
    (List.replicate n slash ++ c :: l).takeWhile (· != questionMark) =
      List.replicate n slash ++ (c :: l).takeWhile (· != questionMark) := by
  rw [List.takeWhile_append_of_pos]
  intro b hb
  rw [List.eq_of_mem_replicate hb]
  rfl

/-- A path without any byte but slashes comes from a target of slashes, or of slashes before a
question mark. -/
private theorem pathOf_ne_slash_iff (past : Nat → UInt8) (requestTarget : Bytes) :
    ((∀ b ∈ decodeUrl past requestTarget, b = slash) ∨
        ∃ b ∈ pathOf past requestTarget, b ≠ slash) ↔
      ∀ n query, decodeUrl past requestTarget ≠
        List.replicate n slash ++ questionMark :: query := by
  rw [pathOf]
  generalize decodeUrl past requestTarget = decoded
  rcases slashes_cases decoded with h | ⟨n, c, l, rfl, hc⟩
  · refine iff_of_true (.inl h) ?_
    rintro n query rfl
    have hmark := h questionMark (by simp)
    revert hmark
    decide
  · have hsome : ¬∀ b ∈ List.replicate n slash ++ c :: l, b = slash := fun h ↦ hc (h c (by simp))
    rw [or_iff_right hsome, rdropWhile_append_cons hc, takeWhile_slashes]
    by_cases hmark : c = questionMark
    · subst hmark
      rw [List.takeWhile_cons_of_neg (by simp), List.append_nil]
      refine iff_of_false ?_ (fun h ↦ h n l rfl)
      rintro ⟨b, hb, hne⟩
      exact hne (List.eq_of_mem_replicate hb)
    · rw [List.takeWhile_cons_of_pos (by simpa using hmark)]
      refine iff_of_true ⟨c, by simp, hc⟩ ?_
      intro m query heq
      have hpath := congrArg (fun s ↦ s.find? (· != slash)) heq
      simp [List.find?_append, hc, show questionMark ≠ slash by decide] at hpath
      exact hmark hpath

/-- The registration succeeds, and every table route has a byte besides slashes. -/
theorem addEndpointInterfaces_isOk :
    ∃ endpoints, addEndpointInterfaces = .ok endpoints ∧
      ∀ target, (endpoints.getRules target).isSome → ∃ b ∈ target, b ≠ slash := by
  have hkeys : addEndpointInterfaces.toOption.any
      (fun e ↦ e.endpoints.keys.all (·.any (· != slash))) = true := by decide +kernel
  obtain ⟨endpoints, hok, hall⟩ := (Option.any_eq_true _ _).mp hkeys
  refine ⟨endpoints, ?_, ?_⟩
  · cases hadd : addEndpointInterfaces with
    | error fault => rw [hadd] at hok; cases hok
    | ok e => rw [hadd] at hok; exact congrArg _ (Option.some.inj hok)
  · intro target htarget
    have hmem : target ∈ endpoints.endpoints.keys :=
      Std.ExtTreeMap.mem_keys.mpr (Std.ExtTreeMap.isSome_getElem?_iff_mem.mp htarget)
    have hany := List.all_eq_true.mp hall target hmem
    simpa using hany

/-- With such table routes, a target fails exactly if its decoded form is a run of slashes before
a question mark. -/
theorem handleRequests_isOk_iff_ne {endpoints : Endpoint Callback}
    (hroutes : ∀ target, (endpoints.getRules target).isSome → ∃ b ∈ target, b ≠ slash)
    (past : Nat → UInt8) (requestTarget : Bytes) (method : Verb) :
    (∃ outcome, handleRequests past endpoints requestTarget method = .ok outcome) ↔
      ∀ n query, decodeUrl past requestTarget ≠
        List.replicate n slash ++ questionMark :: query := by
  rw [handleRequests_isOk_iff, ← pathOf_ne_slash_iff]
  refine or_congr_right (or_iff_right_of_imp ?_)
  exact hroutes (pathOf past requestTarget)

/-- The registration succeeds. With the routes it has made, a request is routed without a call
of `back` or `pop_back` on an empty string and without an index past the pieces of the target
if and only if the decoded target is not a run of slashes before a question mark. -/
theorem handleRequests_defined_iff (past : Nat → UInt8) (requestTarget : Bytes)
    (method : Verb) :
    ∃ endpoints, addEndpointInterfaces = .ok endpoints ∧
      ((∃ outcome, handleRequests past endpoints requestTarget method = .ok outcome) ↔
        ∀ n query, decodeUrl past requestTarget ≠
          List.replicate n slash ++ questionMark :: query) := by
  obtain ⟨endpoints, hadd, hroutes⟩ := addEndpointInterfaces_isOk
  exact ⟨endpoints, hadd, handleRequests_isOk_iff_ne hroutes past requestTarget method⟩

/-- The target `/?x` makes `get_special_rules` look at the last byte of an empty string. -/
theorem handleRequests_queryOnly :
    addEndpointInterfaces.bind (fun endpoints ↦
      (handleRequests (fun _ ↦ 0x20) endpoints (bytes "/?x") .get).map (fun _ ↦ ())) =
      .error .backOfEmpty := by
  decide +kernel

end KeepMyJournal.HttpStream
