import KeepMyJournal.Common.UrlDecoding
import KeepMyJournal.HttpStream.SpecialRules

/-!
# Values in the path of a special route

A client puts a value for each placeholder behind the prefix of a special route, percent-encoded
and joined by `/`. `handle_requests` (`http_stream/src/session.cpp:221–271`) decodes the target
first, and cuts the query, strips slashes and splits at `/` afterwards.
-/

namespace KeepMyJournal.HttpStream

open KeepMyJournal.Base KeepMyJournal.Common

/-! ### The client's encoding -/

/-- The byte `%`. -/
def percent : UInt8 := 0x25

/-- `%`, and the reserved bytes of a URL: `: / ? # [ ] @` and `! $ & ' ( ) * + , ; =`. -/
def reservedBytes : Bytes :=
  [percent, 0x3a, slash, questionMark, 0x23, 0x5b, 0x5d, 0x40,
    0x21, 0x24, 0x26, 0x27, 0x28, 0x29, 0x2a, 0x2b, 0x2c, 0x3b, 0x3d]

/-- A client's choice of the bytes it sends as they are, none of them reserved. -/
structure Escaping where
  keep : UInt8 → Bool
  reserved : ∀ b ∈ reservedBytes, keep b = false

/-- A hexadecimal digit. -/
def hexDigit (n : UInt8) : UInt8 := if n < 10 then 0x30 + n else 0x41 + (n - 10)

/-- A byte as the client sends it. -/
def Escaping.encodeByte (escaping : Escaping) (b : UInt8) : Bytes :=
  if escaping.keep b then [b] else [percent, hexDigit (b / 16), hexDigit (b % 16)]

/-- A value as the client sends it. -/
def Escaping.encode (escaping : Escaping) (value : Bytes) : Bytes :=
  value.flatMap escaping.encodeByte

private theorem isHexDigit_hexDigit (b : UInt8) :
    IsHexDigit (b.toNat / 16) (hexDigit (b / 16)) ∧
      IsHexDigit (b.toNat % 16) (hexDigit (b % 16)) := by
  have hall : ∀ n : Fin 256,
      (bytes "0123456789ABCDEF")[(UInt8.ofFin n).toNat / 16]? =
          some (hexDigit (UInt8.ofFin n / 16)) ∧
        (bytes "0123456789ABCDEF")[(UInt8.ofFin n).toNat % 16]? =
          some (hexDigit (UInt8.ofFin n % 16)) := by decide +kernel
  obtain ⟨hhigh, hlow⟩ := hall b.toFin
  exact ⟨.inl hhigh, .inl hlow⟩

/-- A value is sent in one of its encodings. -/
theorem Escaping.percentEncodes (escaping : Escaping) (value : Bytes) :
    PercentEncodes value (escaping.encode value) := by
  induction value with
  | nil => exact .nil
  | cons b value ih =>
    rw [Escaping.encode, List.flatMap_cons, Escaping.encodeByte]
    by_cases hkeep : escaping.keep b = true
    · have hb : b ≠ 0x25 := by
        rintro rfl
        rw [escaping.reserved 0x25 List.mem_cons_self] at hkeep
        cases hkeep
      rw [if_pos hkeep]
      exact .byte hb ih
    · rw [if_neg hkeep]
      exact .escape (isHexDigit_hexDigit b).1 (isHexDigit_hexDigit b).2 ih

/-- The values joined by `/` are sent in an encoding of the joined values. -/
theorem Escaping.percentEncodes_joinSlash (escaping : Escaping) (values : List Bytes) :
    PercentEncodes (joinSlash values) (joinSlash (values.map escaping.encode)) := by
  unfold joinSlash
  induction values with
  | nil => exact .nil
  | cons value rest ih =>
    cases rest with
    | nil =>
      rw [List.map_cons, List.map_nil, List.intercalate_singleton, List.intercalate_singleton]
      exact escaping.percentEncodes value
    | cons value' rest =>
      rw [List.map_cons, List.map_cons, List.intercalate_cons_cons, List.intercalate_cons_cons]
      exact ((escaping.percentEncodes value).append (percentEncodes_self (by decide))).append ih

/-! ### The special routes of the server -/

/-- What tells the registered routes apart. -/
structure Separated (e : Endpoint Callback) : Prop where
  table : ∀ route ∈ e.endpoints.toList, ∀ entry ∈ e.specialEndpoints.toList,
    entry.1.isPrefixOf route.1 = false ∧ route.2.routeCallback ≠ entry.2.rule.routeCallback
  prefixes : ∀ a ∈ e.specialEndpoints.toList, ∀ b ∈ e.specialEndpoints.toList,
    a.1.isPrefixOf b.1 = true → a = b
  callbacks : ∀ a ∈ e.specialEndpoints.toList, ∀ b ∈ e.specialEndpoints.toList,
    a.2.rule.routeCallback = b.2.rule.routeCallback → a = b

/-- What the special routes have in common. -/
structure Plain (entry : Bytes × SpecialPlaceholders Callback) : Prop where
  suffix : entry.2.suffix = []
  percent : percent ∉ entry.1
  questionMark : questionMark ∉ entry.1
  keys : (entry.2.placeholders.map KeyValuePair.key).Nodup
  verbs : Verb.options ∉ entry.2.rule.verbs

private theorem separated_plain_of_ok {e : Endpoint Callback}
    (hadd : addEndpointInterfaces = .ok e) :
    Separated e ∧ ∀ entry ∈ e.specialEndpoints.toList, Plain entry := by
  have hall : addEndpointInterfaces.toOption.any (fun e ↦ decide (
      ((∀ route ∈ e.endpoints.toList, ∀ entry ∈ e.specialEndpoints.toList,
          entry.1.isPrefixOf route.1 = false ∧
            route.2.routeCallback ≠ entry.2.rule.routeCallback) ∧
        (∀ a ∈ e.specialEndpoints.toList, ∀ b ∈ e.specialEndpoints.toList,
          a.1.isPrefixOf b.1 = true → a = b) ∧
        (∀ a ∈ e.specialEndpoints.toList, ∀ b ∈ e.specialEndpoints.toList,
          a.2.rule.routeCallback = b.2.rule.routeCallback → a = b)) ∧
      (∀ entry ∈ e.specialEndpoints.toList, entry.2.suffix = [] ∧ percent ∉ entry.1 ∧
        questionMark ∉ entry.1 ∧ (entry.2.placeholders.map KeyValuePair.key).Nodup ∧
        Verb.options ∉ entry.2.rule.verbs))) = true := by decide +kernel
  rw [hadd] at hall
  obtain ⟨⟨htable, hprefixes, hcallbacks⟩, hplain⟩ := of_decide_eq_true hall
  refine ⟨⟨htable, hprefixes, hcallbacks⟩, ?_⟩
  intro entry hentry
  obtain ⟨hsuffix, hpercent, hmark, hkeys, hverbs⟩ := hplain entry hentry
  exact ⟨hsuffix, hpercent, hmark, hkeys, hverbs⟩

/-! ### The values in the query -/

theorem getElem?_fillQuery_of_notMem {placeholders : List KeyValuePair} {key : Bytes}
    (h : key ∉ placeholders.map KeyValuePair.key) (query : UrlQuery) :
    (fillQuery placeholders query)[key]? = query[key]? := by
  induction placeholders generalizing query with
  | nil => rfl
  | cons p rest ih =>
    rw [List.map_cons, List.mem_cons, not_or] at h
    rw [fillQuery, List.foldl_cons]
    refine (ih h.2 _).trans ?_
    rw [Std.ExtTreeMap.getElem?_insert, if_neg]
    rw [Std.compare_eq_iff_eq]
    exact Ne.symm h.1

/-- Under distinct keys, each placeholder finds its value in the query. -/
theorem map_getElem?_fillQuery {placeholders : List KeyValuePair}
    (h : (placeholders.map KeyValuePair.key).Nodup) (query : UrlQuery) :
    placeholders.map (fun p ↦ (fillQuery placeholders query)[p.key]?) =
      placeholders.map (fun p ↦ some p.value) := by
  induction placeholders generalizing query with
  | nil => rfl
  | cons p rest ih =>
    rw [List.map_cons, List.nodup_cons] at h
    rw [List.map_cons, List.map_cons]
    congr 1
    · rw [fillQuery, List.foldl_cons]
      refine (getElem?_fillQuery_of_notMem h.1 _).trans ?_
      rw [Std.ExtTreeMap.getElem?_insert_self]
    · exact ih h.2 _

/-! ### The dispatch -/

/-- The request ends in the callback of the entry, with the values under the names of its
placeholders. -/
def Dispatched (past : Nat → UInt8) (e : Endpoint Callback) (p : SpecialPlaceholders Callback)
    (requestTarget : Bytes) (method : Verb) (values : List Bytes) : Prop :=
  ∃ query, handleRequests past e requestTarget method =
      .ok (.routeCallback p.rule.routeCallback query) ∧
    (p.placeholders.map KeyValuePair.key).map (fun key ↦ query[key]?) = values.map some

private theorem of_mem_joinSlash {b : UInt8} {values : List Bytes} (hb : b ∈ joinSlash values) :
    b = slash ∨ ∃ value ∈ values, b ∈ value := by
  unfold joinSlash at hb
  induction values with
  | nil => cases hb
  | cons first rest ih =>
    cases rest with
    | nil =>
      rw [List.intercalate_singleton] at hb
      exact .inr ⟨first, List.mem_cons_self, hb⟩
    | cons second rest =>
      rw [List.intercalate_cons_cons, List.mem_append, List.mem_append] at hb
      rcases hb with (hb | hb) | hb
      · exact .inr ⟨first, List.mem_cons_self, hb⟩
      · exact .inl (List.mem_singleton.mp hb)
      · rcases ih hb with hb | ⟨value, hvalue, hb⟩
        · exact .inl hb
        · exact .inr ⟨value, List.mem_cons_of_mem _ hvalue, hb⟩

/-- Values that are not empty and do not contain `/` end in another byte. -/
private theorem rdropWhile_joinSlash {values : List Bytes} (hvalues : values ≠ [])
    (hne : ∀ value ∈ values, value ≠ [] ∧ slash ∉ value) (pre : Bytes) :
    (pre ++ joinSlash values).rdropWhile (· == slash) = pre ++ joinSlash values := by
  rcases List.eq_nil_or_concat' values with rfl | ⟨init, last, rfl⟩
  · exact absurd rfl hvalues
  · obtain ⟨hlast, hslash⟩ := hne last (List.mem_append_right _ List.mem_cons_self)
    obtain ⟨front, hfront⟩ : last <:+ joinSlash (init ++ [last]) :=
      suffix_intercalate [slash] init last
    apply rdropWhile_eq_self
    rw [← hfront, List.getLast?_append, List.getLast?_append,
      List.getLast?_eq_some_getLast hlast, Option.some_or, Option.some_or]
    intro hend
    rw [← Option.some.inj hend] at hslash
    exact hslash (List.getLast_mem hlast)

variable {e : Endpoint Callback} {pre : Bytes} {p : SpecialPlaceholders Callback}
  {values : List Bytes} {method : Verb}

/-- No other entry matches a target behind the prefix. -/
private theorem entry_of_matches (hsep : Separated e) (hp : e.specialEndpoints[pre]? = some p)
    {pre' : Bytes} {p' : SpecialPlaceholders Callback}
    (hp' : e.specialEndpoints[pre']? = some p') {target rest : Bytes}
    (htarget : target = pre ++ rest)
    {values' : List Bytes} (hm : Matches target pre' p' values') : (pre, p) = (pre', p') := by
  have hmem := Std.ExtTreeMap.mem_toList_iff_getElem?_eq_some.mpr hp
  have hmem' := Std.ExtTreeMap.mem_toList_iff_getElem?_eq_some.mpr hp'
  have hpre : pre <+: target := by
    rw [htarget]
    exact List.prefix_append pre rest
  have hpre' : pre' <+: target := by
    rw [hm.1, List.append_assoc]
    exact List.prefix_append pre' _
  rcases List.prefix_or_prefix_of_prefix hpre hpre' with h | h
  · exact hsep.prefixes _ hmem _ hmem' (List.isPrefixOf_iff_prefix.mpr h)
  · exact (hsep.prefixes _ hmem' _ hmem (List.isPrefixOf_iff_prefix.mpr h)).symm

/-- The target of a special route is no route of the table. -/
private theorem getRules_eq_none (hsep : Separated e) (hp : e.specialEndpoints[pre]? = some p)
    (rest : Bytes) : e.getRules (pre ++ rest) = none := by
  rw [Option.eq_none_iff_forall_ne_some]
  intro rule hrule
  have hroute := Std.ExtTreeMap.mem_toList_iff_getElem?_eq_some.mpr hrule
  have hentry := Std.ExtTreeMap.mem_toList_iff_getElem?_eq_some.mpr hp
  have hno := (hsep.table _ hroute _ hentry).1
  rw [List.isPrefixOf_iff_prefix.mpr (List.prefix_append pre rest)] at hno
  cases hno

/-- Values without `/` and `?` arrive. -/
private theorem dispatched_of_plain (he : e.Made) (hsep : Separated e)
    (hp : e.specialEndpoints[pre]? = some p) (hplain : Plain (pre, p))
    (hmethod : method ∈ p.rule.verbs) (hlen : values.length = p.placeholders.length)
    (hvalues : ∀ value ∈ values, value ≠ [] ∧ slash ∉ value ∧ questionMark ∉ value)
    {past : Nat → UInt8} {requestTarget : Bytes}
    (hdecoded : decodeUrl past requestTarget = pre ++ joinSlash values) :
    Dispatched past e p requestTarget method values := by
  have hne : values ≠ [] := by
    rintro rfl
    exact Endpoint.placeholders_ne_nil he hp (List.length_eq_zero_iff.mp hlen.symm)
  have hstrip : (pre ++ joinSlash values).rdropWhile (· == slash) = pre ++ joinSlash values :=
    rdropWhile_joinSlash hne (fun value hv ↦ ⟨(hvalues value hv).1, (hvalues value hv).2.1⟩) pre
  have hmark : questionMark ∉ pre ++ joinSlash values := by
    intro hb
    rcases List.mem_append.mp hb with hb | hb
    · exact hplain.questionMark hb
    · rcases of_mem_joinSlash hb with hb | ⟨value, hv, hb⟩
      · revert hb
        decide
      · exact (hvalues value hv).2.2 hb
  have hpath : pathOf past requestTarget = pre ++ joinSlash values := by
    rw [pathOf, hdecoded, hstrip, takeWhile_bne_eq_self_iff.mpr hmark]
  have hsome : ∃ b ∈ pre ++ joinSlash values, b ≠ slash := by
    obtain ⟨value, hv⟩ := List.exists_mem_of_ne_nil values hne
    obtain ⟨b, hb⟩ := List.exists_mem_of_ne_nil value (hvalues value hv).1
    refine ⟨b, List.mem_append_right _ (mem_intercalate hb hv), ?_⟩
    rintro rfl
    exact (hvalues value hv).2.1 hb
  obtain ⟨found, hfound, hfirst, -⟩ := Endpoint.getSpecialRules_first_match he hsome
  obtain rfl : found = some (p.withValues values) := by
    refine (hfirst _).mpr ⟨pre, p, values, hp, ?_, rfl, ?_⟩
    · refine ⟨?_, hlen, fun value hv ↦ (hvalues value hv).2.1⟩
      rw [hstrip, hplain.suffix, List.append_nil]
    · intro pre' p' hp' hlt values' hm
      obtain rfl := (Prod.mk.inj (entry_of_matches hsep hp hp' hstrip hm)).1
      rw [Std.compare_self] at hlt
      cases hlt
  have hselection : lookUp e (pathOf past requestTarget) =
      .ok (some (.special (p.withValues values))) := by
    rw [hpath, lookUp, getRules_eq_none hsep hp, hfound]
    rfl
  have hquery : queryStringOf past requestTarget = [] := by
    rw [queryStringOf, hdecoded, hstrip, List.dropWhile_eq_nil_iff.mpr]
    · rfl
    · exact List.takeWhile_eq_self_iff.mp (takeWhile_bne_eq_self_iff.mpr hmark)
  have hoptions : method ≠ .options := by
    rintro rfl
    exact hplain.verbs hmethod
  have hverb : method ∈ (Selection.special (p.withValues values)).rule.verbs := hmethod
  refine ⟨fillQuery (p.withValues values).placeholders ∅, ?_, ?_⟩
  · rw [handleRequests_of_lookUp (by rwa [hdecoded]) hselection, if_neg hoptions,
      if_neg (not_not.mpr hverb), if_neg (not_not.mpr hquery)]
    rfl
  · have hkeys : ((p.withValues values).placeholders.map KeyValuePair.key).Nodup := by
      rw [SpecialPlaceholders.keys_withValues hlen]
      exact hplain.keys
    have hget := map_getElem?_fillQuery hkeys ∅
    rw [← SpecialPlaceholders.keys_withValues hlen, List.map_map]
    refine hget.trans ?_
    conv_rhs => rw [← SpecialPlaceholders.values_withValues hlen]
    rw [List.map_map]
    rfl

/-- Where values arrive, they contain neither `/` nor `?`. -/
private theorem plain_of_dispatched (he : e.Made) (hsep : Separated e)
    (hp : e.specialEndpoints[pre]? = some p) (hplain : Plain (pre, p))
    {past : Nat → UInt8} {requestTarget : Bytes}
    (h : Dispatched past e p requestTarget method values) :
    ∀ value ∈ values, slash ∉ value ∧ questionMark ∉ value := by
  obtain ⟨query, hrequest, hquery⟩ := h
  have hentry := Std.ExtTreeMap.mem_toList_iff_getElem?_eq_some.mpr hp
  obtain ⟨selection, hselection, -, -, hcallback, rfl⟩ := of_handleRequests hrequest
  rcases of_lookUp hselection with ⟨rule, rfl, hrule⟩ | ⟨res, rfl, hfound⟩
  · have hroute := Std.ExtTreeMap.mem_toList_iff_getElem?_eq_some.mpr hrule
    exact absurd hcallback.symm (hsep.table _ hroute _ hentry).2
  · have hpath := (e.getSpecialRules_isOk_iff _).mp ⟨_, hfound⟩
    obtain ⟨found, hfound', hfirst, -⟩ := Endpoint.getSpecialRules_first_match he hpath
    obtain rfl : found = some res := Except.ok.inj (hfound'.symm.trans hfound)
    obtain ⟨pre', p', values', hp', hm, rfl, -⟩ := (hfirst res).mp rfl
    have hentry' := Std.ExtTreeMap.mem_toList_iff_getElem?_eq_some.mpr hp'
    obtain ⟨rfl, rfl⟩ := Prod.mk.inj (hsep.callbacks _ hentry _ hentry' hcallback)
    have hkeys : ((p.withValues values').placeholders.map KeyValuePair.key).Nodup := by
      rw [SpecialPlaceholders.keys_withValues hm.2.1]
      exact hplain.keys
    have hget := map_getElem?_fillQuery hkeys ∅
    rw [← SpecialPlaceholders.keys_withValues hm.2.1, List.map_map] at hquery
    obtain rfl : values = values' := by
      apply List.map_injective_iff.mpr (Option.some_injective Bytes)
      refine (hquery.symm.trans hget).trans ?_
      conv_rhs => rw [← SpecialPlaceholders.values_withValues hm.2.1]
      rw [List.map_map]
      rfl
    intro value hv
    refine ⟨hm.2.2 value hv, ?_⟩
    intro hb
    have htarget : questionMark ∈ (pathOf past requestTarget).rdropWhile (· == slash) := by
      rw [hm.1]
      exact List.mem_append_left _ (List.mem_append_right _ (mem_intercalate hb hv))
    have hcut := List.mem_takeWhile_imp (((List.rdropWhile_prefix _ _).subset htarget))
    revert hcut
    decide

/-- The registration succeeds. For every special route, every method it allows and every list
of non-empty values, one for each placeholder, the request whose target is the prefix and the
encoded values is dispatched to the route's callback with these values if and only if none of
them contains a slash or a question mark. -/
theorem dispatched_iff_no_separator (past : Nat → UInt8) (escaping : Escaping) :
    ∃ e, addEndpointInterfaces = .ok e ∧
      ∀ pre p, e.specialEndpoints[pre]? = some p → ∀ method ∈ p.rule.verbs, ∀ values : List Bytes,
        values.length = p.placeholders.length → (∀ value ∈ values, value ≠ []) →
        (Dispatched past e p (pre ++ joinSlash (values.map escaping.encode)) method values ↔
          ∀ value ∈ values, slash ∉ value ∧ questionMark ∉ value) := by
  obtain ⟨e, hadd, -⟩ := addEndpointInterfaces_isOk
  have he := Endpoint.made_addEndpointInterfaces hadd
  obtain ⟨hsep, hall⟩ := separated_plain_of_ok hadd
  refine ⟨e, hadd, ?_⟩
  intro pre p hp method hmethod values hlen hne
  have hplain := hall _ (Std.ExtTreeMap.mem_toList_iff_getElem?_eq_some.mpr hp)
  have hencoded : PercentEncodes (pre ++ joinSlash values)
      (pre ++ joinSlash (values.map escaping.encode)) :=
    (percentEncodes_self hplain.percent).append (escaping.percentEncodes_joinSlash values)
  have hdecoded := hencoded.decodeUrl_eq past
  constructor
  · exact plain_of_dispatched he hsep hp hplain
  · intro hvalues
    refine dispatched_of_plain he hsep hp hplain hmethod hlen ?_ hdecoded
    intro value hv
    exact ⟨hne value hv, hvalues value hv⟩

/-- A client that sends digits and letters as they are. -/
private def alphanumeric : Escaping where
  keep b := (0x30 ≤ b && b ≤ 0x39) || (0x41 ≤ b && b ≤ 0x5a) || (0x61 ≤ b && b ≤ 0x7a)
  reserved := by decide +kernel

/-- The prefix of the route that takes a number and a password. -/
private def passwordPrefix : Bytes := bytes "/new_telegram_registration_password/"

private theorem password_route {e : Endpoint Callback} (hadd : addEndpointInterfaces = .ok e) :
    ∃ p, e.specialEndpoints[passwordPrefix]? = some p ∧ Verb.put ∈ p.rule.verbs ∧
      p.placeholders.length = 2 := by
  have hroute : addEndpointInterfaces.toOption.any (fun e ↦
      (e.specialEndpoints[passwordPrefix]?).any (fun p ↦
        decide (Verb.put ∈ p.rule.verbs ∧ p.placeholders.length = 2))) = true := by
    decide +kernel
  rw [hadd] at hroute
  simp only [Except.toOption, Option.any_some] at hroute
  obtain ⟨p, hp, hverb⟩ := (Option.any_eq_true _ _).mp hroute
  exact ⟨p, hp, of_decide_eq_true hverb⟩

/-- The password `p%w d` arrives. -/
theorem dispatched_passwordWithPercent :
    ∃ (e : Endpoint Callback) (p : SpecialPlaceholders Callback),
      addEndpointInterfaces = .ok e ∧ e.specialEndpoints[passwordPrefix]? = some p ∧
      Dispatched (fun _ ↦ 0x20) e p
        (passwordPrefix ++ joinSlash ([bytes "44", bytes "p%w d"].map alphanumeric.encode))
        .put [bytes "44", bytes "p%w d"] := by
  obtain ⟨e, hadd, hiff⟩ := dispatched_iff_no_separator (fun _ ↦ 0x20) alphanumeric
  obtain ⟨p, hp, hverb, hlen⟩ := password_route hadd
  exact ⟨e, p, hadd, hp, (hiff passwordPrefix p hp .put hverb [bytes "44", bytes "p%w d"]
    hlen.symm (by decide +kernel)).mpr (by decide +kernel)⟩

/-- The password `p/w` does not arrive. -/
theorem not_dispatched_passwordWithSlash :
    ∃ (e : Endpoint Callback) (p : SpecialPlaceholders Callback),
      addEndpointInterfaces = .ok e ∧ e.specialEndpoints[passwordPrefix]? = some p ∧
      Verb.put ∈ p.rule.verbs ∧ p.placeholders.length = 2 ∧
      ¬Dispatched (fun _ ↦ 0x20) e p
        (passwordPrefix ++ joinSlash ([bytes "44", bytes "p/w"].map alphanumeric.encode))
        .put [bytes "44", bytes "p/w"] := by
  obtain ⟨e, hadd, -⟩ := addEndpointInterfaces_isOk
  obtain ⟨hsep, hall⟩ := separated_plain_of_ok hadd
  obtain ⟨p, hp, hverb, hlen⟩ := password_route hadd
  refine ⟨e, p, hadd, hp, hverb, hlen, ?_⟩
  intro h
  have hplain := hall _ (Std.ExtTreeMap.mem_toList_iff_getElem?_eq_some.mpr hp)
  have hvalues := plain_of_dispatched (Endpoint.made_addEndpointInterfaces hadd) hsep hp hplain h
  have hslash := (hvalues (bytes "p/w") (by simp)).1
  revert hslash
  decide +kernel

end KeepMyJournal.HttpStream
