import KeepMyJournal.HttpStream.Routing

/-!
# The query string

`split_optional_queries`, `http_stream/src/session.cpp:107–119`. Of every piece between `&` the
parser keeps what stands before the first `=`, and what stands between it and the next one; a piece
without a value is dropped, because the splitter drops an empty last piece.
-/

namespace KeepMyJournal.HttpStream

open KeepMyJournal.Base KeepMyJournal.Common

/-- The byte `=`. -/
def equalsSign : UInt8 := 0x3d

/-- The byte `&`. -/
def ampersand : UInt8 := 0x26

/-- What a piece of the query string is read as. -/
def parameterOf (piece : Bytes) : Option (Bytes × Bytes) :=
  match splitStringView piece [equalsSign] with
  | key :: value :: _ => some (key, value)
  | _ => none

/-- What the query string is read as, in its order. -/
def parametersOf (optionalQuery : Bytes) : List (Bytes × Bytes) :=
  (splitStringView optionalQuery [ampersand]).filterMap parameterOf

/-- The first value of every key. -/
def queryOf (parameters : List (Bytes × Bytes)) : UrlQuery :=
  parameters.foldl (fun query p ↦ query.insertIfNew p.1 p.2) ∅

/-- A key without a value is no parameter, and a value ends at the next `=`. -/
theorem parameterOf_append {key : Bytes} (h : equalsSign ∉ key) (value : Bytes) :
    parameterOf (key ++ equalsSign :: value) =
      if value = [] then none else some (key, value.takeWhile (· != equalsSign)) := by
  rw [parameterOf, splitStringView_append_cons h]
  by_cases hvalue : value = []
  · subst hvalue
    rfl
  · obtain ⟨others, hothers⟩ := keptPieces_splitOn_head equalsSign hvalue
    rw [hothers, if_neg hvalue]

/-- One round of the parser. -/
private theorem read_piece (query : UrlQuery) (piece : Bytes) :
    (if (splitStringView piece [equalsSign]).length < 2 then pure query
      else do
        let key ← index (splitStringView piece [equalsSign]) 0
        let value ← index (splitStringView piece [equalsSign]) 1
        pure (query.insertIfNew key value) : Except Fault UrlQuery) =
      .ok ((parameterOf piece).elim query fun p ↦ query.insertIfNew p.1 p.2) := by
  rw [parameterOf]
  match splitStringView piece [equalsSign] with
  | [] => rfl
  | [key] => rfl
  | key :: value :: others =>
    rw [if_neg (by simp)]
    rfl

/-- The parser reads the parameters, and keeps the first value of a key. -/
theorem splitOptionalQueries_eq (optionalQuery : Bytes) :
    splitOptionalQueries optionalQuery = .ok (queryOf (parametersOf optionalQuery)) := by
  have hloop : ∀ (pieces : List Bytes) (query : UrlQuery),
      (pieces.foldlM (fun result q ↦ do
        let split := splitStringView q (bytes "=")
        if split.length < 2 then pure result
        else pure (result.insertIfNew (← index split 0) (← index split 1))) query :
          Except Fault UrlQuery) =
      .ok ((pieces.filterMap parameterOf).foldl
        (fun query p ↦ query.insertIfNew p.1 p.2) query) := by
    intro pieces
    induction pieces with
    | nil =>
      intro query
      rfl
    | cons piece pieces ih =>
      intro query
      rw [List.foldlM_cons, List.filterMap_cons]
      refine (congrArg (· >>= _) (read_piece query piece)).trans ?_
      refine (ih _).trans ?_
      cases parameterOf piece with
      | none => rfl
      | some p => rfl
  unfold splitOptionalQueries
  split
  · next hempty =>
    rw [List.isEmpty_iff.mp hempty]
    rfl
  · exact hloop _ ∅

/-! ### What is found under a key -/

private theorem getElem?_foldl_insertIfNew (parameters : List (Bytes × Bytes)) (query : UrlQuery)
    (key : Bytes) :
    (parameters.foldl (fun query p ↦ query.insertIfNew p.1 p.2) query)[key]? =
      (query[key]?).or (parameters.lookup key) := by
  induction parameters generalizing query with
  | nil => simp
  | cons p parameters ih =>
    rw [List.foldl_cons, ih, Std.ExtTreeMap.getElem?_insertIfNew, List.lookup_cons]
    by_cases hkey : key = p.1
    · subst hkey
      by_cases hmem : p.1 ∈ query
      · rw [if_neg (by simp [hmem])]
        have hsome := Std.ExtTreeMap.isSome_getElem?_iff_mem.mpr hmem
        rw [Option.or_of_isSome hsome, Option.or_of_isSome hsome]
      · rw [if_pos ⟨Std.compare_self, hmem⟩, Std.ExtTreeMap.getElem?_eq_none hmem]
        simp
    · rw [if_neg, beq_eq_false_iff_ne.mpr hkey]
      rintro ⟨hcompare, -⟩
      exact hkey (Std.compare_eq_iff_eq.mp hcompare).symm

theorem mem_of_lookup {parameters : List (Bytes × Bytes)} {key value : Bytes}
    (h : parameters.lookup key = some value) : (key, value) ∈ parameters := by
  obtain ⟨before, after, rfl, -⟩ := List.lookup_eq_some_iff.mp h
  simp

/-- Under a key, the query has the first value of the parameters. -/
theorem getElem?_queryOf (parameters : List (Bytes × Bytes)) (key : Bytes) :
    (queryOf parameters)[key]? = parameters.lookup key := by
  rw [queryOf, getElem?_foldl_insertIfNew]
  simp

/-! ### Encoding and parsing -/

/-- The pairs `key=value` joined by `&`. -/
def encodeQuery (entries : List (Bytes × Bytes)) : Bytes :=
  [ampersand].intercalate (entries.map fun p ↦ p.1 ++ equalsSign :: p.2)

/-- What is read of pairs whose keys and values do not contain what separates them. -/
theorem parametersOf_encodeQuery {entries : List (Bytes × Bytes)}
    (hkeys : ∀ p ∈ entries, ampersand ∉ p.1 ∧ equalsSign ∉ p.1)
    (hvalues : ∀ p ∈ entries, ampersand ∉ p.2) :
    parametersOf (encodeQuery entries) = entries.filterMap fun p ↦
      if p.2 = [] then none else some (p.1, p.2.takeWhile (· != equalsSign)) := by
  by_cases hne : entries = []
  · subst hne
    rfl
  · have hpieces : splitStringView (encodeQuery entries) [ampersand] =
        entries.map fun p ↦ p.1 ++ equalsSign :: p.2 := by
      apply splitStringView_intercalate
      · simpa using hne
      · intro piece hpiece
        obtain ⟨p, hp, rfl⟩ := List.mem_map.mp hpiece
        rw [List.mem_append, List.mem_cons, not_or, not_or]
        exact ⟨(hkeys p hp).1, by decide, hvalues p hp⟩
      · simp
    rw [parametersOf, hpieces, List.filterMap_map]
    apply List.filterMap_congr
    intro p hp
    exact parameterOf_append (hkeys p hp).2 p.2

/-- The parser gives a map back from its pairs, in any order, exactly if none of its values is
empty or contains `=`. -/
theorem splitOptionalQueries_encodeQuery_iff (m : UrlQuery) (entries : List (Bytes × Bytes))
    (hentries : entries.Perm m.toList)
    (hkeys : ∀ p ∈ m.toList, ampersand ∉ p.1 ∧ equalsSign ∉ p.1)
    (hvalues : ∀ p ∈ m.toList, ampersand ∉ p.2) :
    splitOptionalQueries (encodeQuery entries) = .ok m ↔
      ∀ p ∈ m.toList, p.2 ≠ [] ∧ equalsSign ∉ p.2 := by
  have hmem : ∀ p, p ∈ entries ↔ m[p.1]? = some p.2 := by
    intro p
    rw [hentries.mem_iff]
    exact Std.ExtTreeMap.mem_toList_iff_getElem?_eq_some
  have hread : parametersOf (encodeQuery entries) = entries.filterMap fun p ↦
      if p.2 = [] then none else some (p.1, p.2.takeWhile (· != equalsSign)) :=
    parametersOf_encodeQuery (fun p hp ↦ hkeys p (hentries.mem_iff.mp hp))
      (fun p hp ↦ hvalues p (hentries.mem_iff.mp hp))
  rw [splitOptionalQueries_eq, hread, Except.ok.injEq]
  constructor
  · intro hm p hp
    have hget := Std.ExtTreeMap.mem_toList_iff_getElem?_eq_some.mp hp
    rw [← hm, getElem?_queryOf] at hget
    obtain ⟨p', hp', hkept⟩ := List.mem_filterMap.mp (mem_of_lookup hget)
    split at hkept
    · cases hkept
    · next hvalue =>
      obtain ⟨hkey, hcut⟩ := Prod.mk.inj (Option.some.inj hkept)
      have hsame := (hmem p').mp hp'
      rw [hkey, Std.ExtTreeMap.mem_toList_iff_getElem?_eq_some.mp hp] at hsame
      rw [← Option.some.inj hsame] at hcut hvalue
      exact ⟨hvalue, takeWhile_bne_eq_self_iff.mp hcut⟩
  · intro hall
    have hkept : entries.filterMap (fun p ↦
        if p.2 = [] then none else some (p.1, p.2.takeWhile (· != equalsSign))) = entries := by
      have hself : ∀ p ∈ entries, (if p.2 = [] then none
          else some (p.1, p.2.takeWhile (· != equalsSign))) = some p := by
        intro p hp
        obtain ⟨hvalue, hsign⟩ := hall p (hentries.mem_iff.mp hp)
        rw [if_neg hvalue, takeWhile_bne_eq_self_iff.mpr hsign]
      rw [List.filterMap_congr hself, List.filterMap_some]
    rw [hkept]
    apply Std.ExtTreeMap.ext_getElem?
    intro key
    rw [getElem?_queryOf]
    cases hlookup : entries.lookup key with
    | some value => exact ((hmem (key, value)).mp (mem_of_lookup hlookup)).symm
    | none =>
      rw [List.lookup_eq_none_iff] at hlookup
      cases hget : m[key]? with
      | none => rfl
      | some value =>
        have hne := hlookup (key, value) ((hmem (key, value)).mpr hget)
        rw [bne_self_eq_false] at hne
        cases hne

/-- Two parameters with values. -/
private def chatParameters : List (Bytes × Bytes) :=
  [(bytes "limit", bytes "20"), (bytes "chat", bytes "7")]

theorem splitOptionalQueries_encodeQuery_chat :
    let m : UrlQuery := .ofList chatParameters
    splitOptionalQueries (encodeQuery chatParameters) = .ok m ↔
      ∀ p ∈ m.toList, p.2 ≠ [] ∧ equalsSign ∉ p.2 :=
  splitOptionalQueries_encodeQuery_iff (.ofList chatParameters) chatParameters
    (by decide +kernel) (by decide +kernel) (by decide +kernel)

/-- `token=YQ==` is read as `token=YQ`, and `token=` as nothing. -/
theorem splitOptionalQueries_encodeQuery_ne :
    splitOptionalQueries (encodeQuery [(bytes "token", bytes "YQ==")]) ≠
        .ok (.ofList [(bytes "token", bytes "YQ==")]) ∧
      splitOptionalQueries (encodeQuery [(bytes "token", [])]) ≠
        .ok (.ofList [(bytes "token", [])]) := by
  have hread : ∀ value : Bytes,
      splitOptionalQueries (encodeQuery [(bytes "token", value)]) =
        .ok (.ofList [(bytes "token", value)]) →
      (parametersOf (encodeQuery [(bytes "token", value)])).lookup (bytes "token") =
        some value := by
    intro value h
    rw [splitOptionalQueries_eq] at h
    rw [← getElem?_queryOf, Except.ok.inj h]
    simp
  constructor
  · intro h
    exact absurd (hread _ h) (by decide +kernel)
  · intro h
    exact absurd (hread _ h) (by decide +kernel)

end KeepMyJournal.HttpStream
