import KeepMyJournal.Base.Lists
import KeepMyJournal.HttpStream.Routing

/-!
# What the search among the special endpoints finds

`get_special_rules`, `http_stream/src/endpoint.cpp:66–98`. An entry describes the targets that
are its prefix, one value for each placeholder joined by `/`, and its suffix; the search
returns the first entry that describes the target, with the values.
-/

namespace KeepMyJournal.HttpStream

open KeepMyJournal.Base KeepMyJournal.Common

variable {γ : Type}

/-- The values written into the placeholders, in their order. -/
def SpecialPlaceholders.withValues (p : SpecialPlaceholders γ) (values : List Bytes) :
    SpecialPlaceholders γ :=
  { p with
    placeholders := List.zipWith (fun p value ↦ { p with value := value }) p.placeholders values }

private theorem zipWith_value {placeholders : List KeyValuePair} {values : List Bytes}
    (h : values.length = placeholders.length) :
    (List.zipWith (fun p value ↦ ({ p with value := value } : KeyValuePair)) placeholders
        values).map (fun p ↦ (p.key, p.value)) =
      (placeholders.map KeyValuePair.key).zip values := by
  induction placeholders generalizing values with
  | nil => rfl
  | cons p rest ih =>
    cases values with
    | nil => cases h
    | cons value values =>
      rw [List.zipWith_cons_cons, List.map_cons, ih (Nat.succ.inj h)]
      rfl

/-- One value for each placeholder is what the placeholders hold afterwards, each under its
key. -/
theorem SpecialPlaceholders.withValues_spec {p : SpecialPlaceholders γ} {values : List Bytes}
    (h : values.length = p.placeholders.length) :
    (p.withValues values).placeholders.map (fun p ↦ (p.key, p.value)) =
      (p.placeholders.map KeyValuePair.key).zip values := zipWith_value h

theorem SpecialPlaceholders.keys_withValues {p : SpecialPlaceholders γ} {values : List Bytes}
    (h : values.length = p.placeholders.length) :
    (p.withValues values).placeholders.map KeyValuePair.key =
      p.placeholders.map KeyValuePair.key := by
  have hfst := congrArg (List.map Prod.fst) (withValues_spec h)
  rw [List.map_map, List.map_fst_zip (by rw [List.length_map]; omega)] at hfst
  exact hfst

theorem SpecialPlaceholders.values_withValues {p : SpecialPlaceholders γ} {values : List Bytes}
    (h : values.length = p.placeholders.length) :
    (p.withValues values).placeholders.map KeyValuePair.value = values := by
  have hsnd := congrArg (List.map Prod.snd) (withValues_spec h)
  rw [List.map_map, List.map_snd_zip (by rw [List.length_map]; omega)] at hsnd
  exact hsnd

/-- `join('/', values)`. -/
def joinSlash (values : List Bytes) : Bytes := [slash].intercalate values

/-- An entry matches a target with the values. -/
def Matches (target pre : Bytes) (p : SpecialPlaceholders γ) (values : List Bytes) : Prop :=
  target = pre ++ joinSlash values ++ p.suffix ∧
    values.length = p.placeholders.length ∧ ∀ value ∈ values, slash ∉ value

/-- The endpoints that a sequence of registrations makes. -/
inductive Endpoint.Made : Endpoint γ → Prop
  | empty : Made {}
  | addEndpoint {e e' : Endpoint γ} (h : e.Made) {route : Bytes} {callback : γ}
    {verbs : List Verb} (hadd : e.addEndpoint route callback verbs = .ok e') : Made e'
  | addSpecialEndpoint {e e' : Endpoint γ} (h : e.Made) {route : Bytes} {callback : γ}
    {verbs : List Verb} (hadd : e.addSpecialEndpoint route callback verbs = .ok e') : Made e'

namespace Endpoint

/-! ### One entry -/

/-- Either no text stands before the suffix, and the test skips the entry, or the erasing
leaves the text that does. -/
private theorem suffix_cases (rest suffix : Bytes) :
    ((!suffix.isEmpty && !suffix.isSuffixOf rest) = true ∧ ∀ mid, rest ≠ mid ++ suffix) ∨
      ∃ mid, rest = mid ++ suffix ∧ (!suffix.isEmpty && !suffix.isSuffixOf rest) = false ∧
        (if suffix.isEmpty then rest else eraseLast rest suffix) = mid := by
  by_cases hs : suffix.isSuffixOf rest = true
  · right
    obtain ⟨mid, rfl⟩ := List.isSuffixOf_iff_suffix.mp hs
    refine ⟨mid, rfl, ?_, ?_⟩
    · rw [hs, Bool.not_true, Bool.and_false]
    · by_cases hempty : suffix.isEmpty
      · rw [if_pos hempty, List.isEmpty_iff.mp hempty, List.append_nil]
      · rw [if_neg hempty, eraseLast_append]
  · left
    constructor
    · have hne : suffix.isEmpty = false := by
        cases suffix with
        | nil => exact absurd (List.isSuffixOf_iff_suffix.mpr List.nil_suffix) hs
        | cons b suffix => rfl
      rw [hne, Bool.eq_false_of_not_eq_true hs]
      rfl
    · rintro mid rfl
      exact hs (List.isSuffixOf_iff_suffix.mpr (List.suffix_append mid suffix))

/-- Behind the prefix and before the suffix, the pieces are the values, if there are as many
of them as placeholders. -/
private theorem matches_append_iff {pre mid : Bytes} {p : SpecialPlaceholders γ}
    {values : List Bytes} (hne : p.placeholders ≠ []) :
    Matches (pre ++ (mid ++ p.suffix)) pre p values ↔
      mid.splitOn slash = values ∧ values.length = p.placeholders.length := by
  unfold Matches joinSlash
  rw [splitOn_eq_iff, List.append_assoc, List.append_cancel_left_eq, List.append_cancel_right_eq]
  constructor
  · rintro ⟨hmid, hlen, hslash⟩
    refine ⟨⟨?_, hslash, hmid.symm⟩, hlen⟩
    rintro rfl
    exact hne (List.length_eq_zero_iff.mp hlen.symm)
  · rintro ⟨⟨-, hslash, hmid⟩, hlen⟩
    exact ⟨hmid.symm, hlen, hslash⟩

/-- An entry with placeholders is taken exactly for the targets it matches. -/
theorem matchSpecial_eq_some_iff {target pre : Bytes} {p res : SpecialPlaceholders γ}
    (hne : p.placeholders ≠ []) :
    matchSpecial target pre p = some res ↔
      ∃ values, Matches target pre p values ∧ res = p.withValues values := by
  unfold matchSpecial
  by_cases hpre : pre.isPrefixOf target = true
  · obtain ⟨rest, rfl⟩ := List.isPrefixOf_iff_prefix.mp hpre
    rw [if_neg (by rw [hpre]; simp)]
    dsimp only
    rw [eraseFirst_append]
    rcases suffix_cases rest p.suffix with ⟨htest, hnone⟩ | ⟨mid, rfl, htest, hcopy⟩
    · rw [if_pos htest]
      refine iff_of_false nofun ?_
      rintro ⟨values, ⟨htarget, -, -⟩, -⟩
      rw [List.append_assoc, List.append_cancel_left_eq] at htarget
      exact hnone _ htarget
    · rw [if_neg (by rw [htest]; simp), hcopy]
      simp only [matches_append_iff hne]
      by_cases hlen : (mid.splitOn slash).length = p.placeholders.length
      · rw [if_neg (not_not.mpr hlen), Option.some.injEq]
        constructor
        · intro hres
          exact ⟨_, ⟨rfl, hlen⟩, hres.symm⟩
        · rintro ⟨values, ⟨rfl, -⟩, rfl⟩
          rfl
      · rw [if_pos hlen]
        refine iff_of_false nofun ?_
        rintro ⟨values, ⟨rfl, hvalues⟩, -⟩
        exact hlen hvalues
  · rw [if_pos (by rw [Bool.eq_false_of_not_eq_true hpre]; rfl)]
    refine iff_of_false nofun ?_
    rintro ⟨values, ⟨rfl, -, -⟩, -⟩
    rw [List.append_assoc] at hpre
    exact hpre (List.isPrefixOf_iff_prefix.mpr (List.prefix_append _ _))

/-! ### The registry -/

private theorem findFirstOf_nil (b : UInt8) (pos : Nat) : findFirstOf [] b pos = none := by
  unfold findFirstOf find
  split
  · rfl
  · rw [List.drop_nil]
    rfl

private theorem readPlaceholders_ne_nil {route : Bytes} {rounds index : Nat}
    {placeholders : List KeyValuePair} {read : List KeyValuePair × Nat}
    (h : readPlaceholders route rounds index placeholders = .ok read)
    (hr : rounds ≠ 0 ∨ placeholders ≠ []) : read.1 ≠ [] := by
  induction rounds generalizing index placeholders with
  | zero =>
    obtain rfl := Except.ok.inj h
    exact hr.resolve_left (fun hz ↦ hz rfl)
  | succ rounds ih =>
    have hadded : ∀ key, placeholders ++ [{ key := key }] ≠ [] :=
      fun key ↦ List.append_ne_nil_of_right_ne_nil _ (List.cons_ne_nil _ _)
    unfold readPlaceholders at h
    split at h
    · cases h
    · dsimp only at h
      split at h
      · cases h
      · split at h
        · obtain rfl := Except.ok.inj h
          exact hadded _
        · split at h
          · obtain rfl := Except.ok.inj h
            exact hadded _
          · split at h
            · cases h
            · exact ih h (.inr (hadded _))

/-- A special route that is accepted adds one entry, which has a placeholder, and leaves the table
as it is. -/
theorem addSpecialEndpoint_ok {e e' : Endpoint γ} {route : Bytes} {callback : γ}
    {verbs : List Verb} (h : e.addSpecialEndpoint route callback verbs = .ok e') :
    ∃ pre p, p.placeholders ≠ [] ∧
      e' = { e with specialEndpoints := e.specialEndpoints.insert pre p } := by
  unfold addSpecialEndpoint at h
  dsimp only at h
  split at h
  · cases h
  · unfold constructSpecialPlaceholder at h
    split at h
    · cases h
    · cases h
    · next index _ hindex =>
      dsimp only at h
      split at h
      · cases h
      · obtain ⟨read, hread, h⟩ := of_bind_eq_ok h
        have hroute : route.length ≠ 0 := by
          intro hz
          rw [List.length_eq_zero_iff.mp hz, findFirstOf_nil] at hindex
          cases hindex
        have hne := readPlaceholders_ne_nil hread (.inl hroute)
        -- with a suffix and without one, what is left is the test of the prefix
        split at h
        all_goals
          obtain ⟨suffix, -, h⟩ := of_bind_eq_ok h
          split at h
          · cases h
          · obtain rfl := Except.ok.inj h
            exact ⟨_, _, hne, rfl⟩

/-- Every entry of a registry has a placeholder. -/
theorem placeholders_ne_nil {e : Endpoint γ} (he : e.Made) {pre : Bytes}
    {p : SpecialPlaceholders γ} (hp : e.specialEndpoints[pre]? = some p) :
    p.placeholders ≠ [] := by
  induction he with
  | empty => simp at hp
  | addEndpoint _ hadd ih =>
    unfold addEndpoint at hadd
    dsimp only at hadd
    split at hadd
    · cases hadd
    · obtain ⟨route, -, hadd⟩ := of_bind_eq_ok hadd
      obtain rfl := Except.ok.inj hadd
      exact ih hp
  | addSpecialEndpoint _ hadd ih =>
    obtain ⟨pre', p', hne, rfl⟩ := addSpecialEndpoint_ok hadd
    rw [Std.ExtTreeMap.getElem?_insert] at hp
    split at hp
    · obtain rfl := Option.some.inj hp
      exact hne
    · exact ih hp

/-- The registration of the server's routes makes a registry. -/
theorem made_addEndpointInterfaces {e : Endpoint Callback} (h : addEndpointInterfaces = .ok e) :
    e.Made := by
  unfold addEndpointInterfaces at h
  obtain ⟨e₁, h₁, h⟩ := of_bind_eq_ok h
  obtain ⟨e₂, h₂, h⟩ := of_bind_eq_ok h
  obtain ⟨e₃, h₃, h⟩ := of_bind_eq_ok h
  obtain ⟨e₄, h₄, h⟩ := of_bind_eq_ok h
  obtain ⟨e₅, h₅, h⟩ := of_bind_eq_ok h
  obtain ⟨e₆, h₆, h⟩ := of_bind_eq_ok h
  obtain ⟨e₇, h₇, h⟩ := of_bind_eq_ok h
  obtain ⟨e₈, h₈, h⟩ := of_bind_eq_ok h
  obtain ⟨e₉, h₉, h⟩ := of_bind_eq_ok h
  have made₄ : e₄.Made := (((Made.empty.addEndpoint h₁).addEndpoint h₂).addEndpoint
    h₃).addEndpoint h₄
  have made₇ : e₇.Made := ((made₄.addSpecialEndpoint h₅).addSpecialEndpoint
    h₆).addSpecialEndpoint h₇
  exact ((made₇.addSpecialEndpoint h₈).addSpecialEndpoint h₉).addSpecialEndpoint h

/-! ### The search -/

/-- For every registry and every target with a byte besides slashes: the search returns the
entry of the least prefix that matches the target without its trailing slashes, with the
values, and nothing when no entry matches. -/
theorem getSpecialRules_first_match {e : Endpoint γ} (he : e.Made) {target : Bytes}
    (htarget : ∃ b ∈ target, b ≠ slash) :
    ∃ found, e.getSpecialRules target = .ok found ∧
      (∀ res, found = some res ↔
        ∃ pre p values, e.specialEndpoints[pre]? = some p ∧
          Matches (target.rdropWhile (· == slash)) pre p values ∧ res = p.withValues values ∧
          ∀ pre' p', e.specialEndpoints[pre']? = some p' → compare pre' pre = .lt →
            ∀ values', ¬Matches (target.rdropWhile (· == slash)) pre' p' values') ∧
      (found = none ↔
        ∀ pre p, e.specialEndpoints[pre]? = some p →
          ∀ values, ¬Matches (target.rdropWhile (· == slash)) pre p values) := by
  have hnone : ∀ pre p, e.specialEndpoints[pre]? = some p →
      (matchSpecial (target.rdropWhile (· == slash)) pre p = none ↔
        ∀ values, ¬Matches (target.rdropWhile (· == slash)) pre p values) := by
    intro pre p hp
    rw [Option.eq_none_iff_forall_ne_some]
    constructor
    · intro h values hm
      exact h _ ((matchSpecial_eq_some_iff (placeholders_ne_nil he hp)).mpr ⟨values, hm, rfl⟩)
    · intro h res hres
      obtain ⟨values, hm, -⟩ := (matchSpecial_eq_some_iff (placeholders_ne_nil he hp)).mp hres
      exact h values hm
  have hpop : popSlashes target = .ok (target.rdropWhile (· == slash)) := by
    rw [popSlashes_eq, if_neg]
    simpa using htarget
  refine ⟨_, by rw [getSpecialRules, hpop]; rfl, ?_, ?_⟩
  · intro res
    rw [findSome?_toList_eq_some_iff]
    constructor
    · rintro ⟨pre, p, hp, hres, hleast⟩
      obtain ⟨values, hm, hvalues⟩ := (matchSpecial_eq_some_iff (placeholders_ne_nil he hp)).mp hres
      refine ⟨pre, p, values, hp, hm, hvalues, ?_⟩
      intro pre' p' hp' hlt
      exact (hnone pre' p' hp').mp (hleast pre' p' hp' hlt)
    · rintro ⟨pre, p, values, hp, hm, hvalues, hleast⟩
      refine ⟨pre, p, hp, ?_, ?_⟩
      · exact (matchSpecial_eq_some_iff (placeholders_ne_nil he hp)).mpr ⟨values, hm, hvalues⟩
      · intro pre' p' hp' hlt
        exact (hnone pre' p' hp').mpr (hleast pre' p' hp' hlt)
  · rw [findSome?_toList_eq_none_iff]
    exact forall₃_congr hnone

/-- A target of the server's routes with an empty value and two trailing slashes. -/
theorem getSpecialRules_latestPrice :
    ∃ e, addEndpointInterfaces = .ok e ∧ ∃ res,
      e.getSpecialRules (bytes "/latest_price/okex//BTC-USDT//") = .ok (some res) ∧
      res.placeholders.map KeyValuePair.value = [bytes "okex", [], bytes "BTC-USDT"] ∧
      ∃ pre p values, e.specialEndpoints[pre]? = some p ∧
        Matches ((bytes "/latest_price/okex//BTC-USDT//").rdropWhile (· == slash)) pre p values ∧
        res = p.withValues values := by
  have hfound : addEndpointInterfaces.toOption.any (fun e ↦
      (e.getSpecialRules (bytes "/latest_price/okex//BTC-USDT//")).toOption.any (fun found ↦
        found.any (fun res ↦
          res.placeholders.map KeyValuePair.value == [bytes "okex", [], bytes "BTC-USDT"]))) =
      true := by decide +kernel
  obtain ⟨e, hadd, -⟩ := addEndpointInterfaces_isOk
  obtain ⟨found, hrules, hsome, -⟩ := getSpecialRules_first_match (made_addEndpointInterfaces hadd)
    (show ∃ b ∈ bytes "/latest_price/okex//BTC-USDT//", b ≠ slash by decide +kernel)
  rw [hadd] at hfound
  simp only [Except.toOption, Option.any_some, hrules] at hfound
  obtain ⟨res, rfl, hvalues⟩ := (Option.any_eq_true _ _).mp hfound
  obtain ⟨pre, p, values, hp, hm, hres, -⟩ := (hsome res).mp rfl
  exact ⟨e, hadd, res, hrules, beq_iff_eq.mp hvalues, pre, p, values, hp, hm, hres⟩

end Endpoint

end KeepMyJournal.HttpStream
