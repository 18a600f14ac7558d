import KeepMyJournal.Base.Throwing
import KeepMyJournal.Common.StringUtils
import Mathlib.Data.List.DropRight
import Std.Data.ExtTreeMap

/-!
# Endpoints

`endpoint_t`, `http_stream/include/endpoint.hpp` and `http_stream/src/endpoint.cpp`. The calls
of `back`, `pop_back` and `operator[]` that a caller does not guard are modelled with the
failure they end in when their precondition does not hold.
-/

namespace KeepMyJournal.HttpStream

open KeepMyJournal.Base KeepMyJournal.Common

/-- What ends a computation: an exception, a call whose precondition does not hold, or the read of
a string that has been destroyed. -/
inductive Fault where
  | runtimeError (what : Bytes)
  | backOfEmpty
  | popBackOfEmpty
  | indexOutOfRange
  | readOfDestroyed
  deriving DecidableEq, Repr

/-- `s.back()`. -/
def back (s : Bytes) : Except Fault UInt8 :=
  match s.getLast? with
  | none => .error .backOfEmpty
  | some b => .ok b

/-- `s.pop_back()`. -/
def popBack (s : Bytes) : Except Fault Bytes :=
  if s.isEmpty then .error .popBackOfEmpty else .ok s.dropLast

/-- `v[i]`. -/
def index {α : Type} (v : List α) (i : Nat) : Except Fault α :=
  match v[i]? with
  | none => .error .indexOutOfRange
  | some a => .ok a

/-- The byte `/`. -/
def slash : UInt8 := 0x2f

/-- The byte `?`. -/
def questionMark : UInt8 := 0x3f

/-- `while (s.back() == '/') s.pop_back();`; every round takes a byte. -/
def popSlashes (s : Bytes) : Except Fault Bytes := loop (s.length + 1) s
where
  loop : Nat → Bytes → Except Fault Bytes
    | 0, s => .ok s
    | rounds + 1, s => do
      if (← back s) = slash then loop rounds (← popBack s) else pure s

/-- `while (boost::ends_with(s, "/")) s.pop_back();`; every round takes a byte. -/
def stripSlashes (s : Bytes) : Except Fault Bytes := loop (s.length + 1) s
where
  loop : Nat → Bytes → Except Fault Bytes
    | 0, s => .ok s
    | rounds + 1, s => do
      if [slash].isSuffixOf s then loop rounds (← popBack s) else pure s

/-- `http::verb`, as far as routes name it. -/
inductive Verb where
  | get | post | put | options
  | other (value : Nat)
  deriving DecidableEq, Repr

/-- `url_query_t`. -/
abbrev UrlQuery := Std.ExtTreeMap Bytes Bytes

/-- `rule_t`, over the type its callback is named by. -/
structure Rule (γ : Type) where
  verbs : List Verb
  routeCallback : γ
  deriving DecidableEq, Repr

/-- `endpoint_t::special_placeholders_t::key_value_pair_t`. -/
structure KeyValuePair where
  key : Bytes := []
  value : Bytes := []
  deriving DecidableEq, Repr

/-- `endpoint_t::special_placeholders_t`, as its constructor with a callback makes it. -/
structure SpecialPlaceholders (γ : Type) where
  placeholders : List KeyValuePair := []
  rule : Rule γ
  suffix : Bytes := []
  deriving DecidableEq, Repr

/-- `endpoint_t`. -/
structure Endpoint (γ : Type) where
  endpoints : Std.ExtTreeMap Bytes (Rule γ) := ∅
  specialEndpoints : Std.ExtTreeMap Bytes (SpecialPlaceholders γ) := ∅

namespace Endpoint

variable {γ : Type}

/-- `add_endpoint`; `emplace` keeps a rule that is already there. -/
def addEndpoint (e : Endpoint γ) (route : Bytes) (callback : γ) (verbs : List Verb) :
    Except Fault (Endpoint γ) := do
  if route.head? ≠ some slash then
    throw (.runtimeError (bytes "A valid route starts with a /"))
  let route ← popSlashes route
  pure { e with endpoints := e.endpoints.insertIfNew route ⟨verbs, callback⟩ }

/-- The loop of `construct_special_placeholder`, from the `{` at `index`: the placeholders and
the position of the last `}`. Every round begins at a later `{`. -/
def readPlaceholders (route : Bytes) :
    Nat → Nat → List KeyValuePair → Except Fault (List KeyValuePair × Nat)
  | 0, index, placeholders => .ok (placeholders, index)
  | rounds + 1, index, placeholders => do
    match findFirstOf route 0x7d index with
    | none => throw (.runtimeError (bytes "end of placeholder not found"))
    | some endOfPlaceholder =>
      let name := trimCopy ((route.drop (index + 1)).take (endOfPlaceholder - index - 1))
      if name.isEmpty then
        throw (.runtimeError (bytes "empty placeholder name is not allowed"))
      let placeholders := placeholders ++ [{ key := name }]
      let fromPos := endOfPlaceholder + 1
      if fromPos ≥ route.length then pure (placeholders, endOfPlaceholder)
      else
        match findFirstOf route 0x7b fromPos with
        | none => pure (placeholders, endOfPlaceholder)
        | some index =>
          if route[index - 1]? ≠ some slash then
            throw (.runtimeError (bytes "special placeholders should be separated by '/'"))
          readPlaceholders route rounds index placeholders

/-- `construct_special_placeholder`. -/
def constructSpecialPlaceholder (e : Endpoint γ) (placeholder : SpecialPlaceholders γ)
    (route : Bytes) : Except Fault (Endpoint γ) := do
  match findFirstOf route 0x7b 0 with
  | none | some 0 =>
    throw (.runtimeError (bytes "A special route must have a placeholder"))
  | some index =>
    let pre := route.take index
    if (trimCopy pre).isEmpty ∨ trimCopy pre = bytes "/" then
      throw (.runtimeError (bytes "A special placeholder must have a valid prefix"))
    let (placeholders, endOfPlaceholder) ← readPlaceholders route route.length index []
    let rest := route.drop (endOfPlaceholder + 1)
    let suffix ← if rest.isEmpty then pure placeholder.suffix else popSlashes rest
    if e.specialEndpoints.contains pre then
      throw (.runtimeError (bytes "the prefix '" ++ pre ++ bytes "' already exist"))
    let placeholder := { placeholder with placeholders := placeholders, suffix := suffix }
    pure { e with specialEndpoints := e.specialEndpoints.insert pre placeholder }

/-- `add_special_endpoint`. -/
def addSpecialEndpoint (e : Endpoint γ) (route : Bytes) (callback : γ) (verbs : List Verb) :
    Except Fault (Endpoint γ) := do
  if route.head? ≠ some slash then
    throw (.runtimeError (bytes "A valid route starts with a /"))
  e.constructSpecialPlaceholder { rule := ⟨verbs, callback⟩ } route

/-- `get_rules`. -/
def getRules (e : Endpoint γ) (target : Bytes) : Option (Rule γ) := e.endpoints[target]?

/-- The body of the loop of `get_special_rules`; `none` goes on to the next entry. -/
def matchSpecial (target pre : Bytes) (placeholder : SpecialPlaceholders γ) :
    Option (SpecialPlaceholders γ) :=
  if !pre.isPrefixOf target then none
  else
    let targetCopy := eraseFirst target pre
    if !placeholder.suffix.isEmpty && !placeholder.suffix.isSuffixOf targetCopy then none
    else
      let targetCopy :=
        if placeholder.suffix.isEmpty then targetCopy else eraseLast targetCopy placeholder.suffix
      let splitResult := targetCopy.splitOn slash
      if splitResult.length ≠ placeholder.placeholders.length then none
      else
        some { placeholder with
          placeholders := List.zipWith (fun p value ↦ { p with value := value })
            placeholder.placeholders splitResult }

/-- `get_special_rules`; the entries come in the order of their prefixes. -/
def getSpecialRules (e : Endpoint γ) (thisTarget : Bytes) :
    Except Fault (Option (SpecialPlaceholders γ)) := do
  let target ← popSlashes thisTarget
  pure (e.specialEndpoints.toList.findSome? (fun entry ↦ matchSpecial target entry.1 entry.2))

end Endpoint

/-! ### The slash loops -/

private theorem popSlashes_loop (rounds : Nat) (s : Bytes) (h : s.length < rounds) :
    popSlashes.loop rounds s =
      if s.all (· == slash) then .error .backOfEmpty else .ok (s.rdropWhile (· == slash)) := by
  induction rounds generalizing s with
  | zero => omega
  | succ rounds ih =>
    rcases List.eq_nil_or_concat' s with rfl | ⟨s, b, rfl⟩
    · rfl
    · rw [List.length_append, List.length_singleton] at h
      have hback : back (s ++ [b]) = .ok b := by simp [back]
      have hpop : popBack (s ++ [b]) = .ok s := by simp [popBack]
      rw [popSlashes.loop, hback, hpop]
      change (if b = slash then popSlashes.loop rounds s else .ok (s ++ [b])) = _
      by_cases hb : b = slash
      · rw [if_pos hb, ih s (by omega), List.rdropWhile_concat_pos _ _ _ (by simpa using hb)]
        have hall : (s ++ [b]).all (· == slash) = s.all (· == slash) := by
          rw [List.all_append, List.all_cons, List.all_nil, hb]
          simp
        rw [hall]
      · rw [if_neg hb, List.rdropWhile_concat_neg _ _ _ (by simpa using hb), if_neg]
        simp [hb]

/-- The unguarded loop ends in `back` on an empty string if there are only slashes. -/
theorem popSlashes_eq (s : Bytes) :
    popSlashes s =
      if s.all (· == slash) then .error .backOfEmpty else .ok (s.rdropWhile (· == slash)) :=
  popSlashes_loop (s.length + 1) s (Nat.lt_succ_self _)

private theorem stripSlashes_loop (rounds : Nat) (s : Bytes) (h : s.length < rounds) :
    stripSlashes.loop rounds s = .ok (s.rdropWhile (· == slash)) := by
  induction rounds generalizing s with
  | zero => omega
  | succ rounds ih =>
    rcases List.eq_nil_or_concat' s with rfl | ⟨s, b, rfl⟩
    · rfl
    · rw [List.length_append, List.length_singleton] at h
      have hpop : popBack (s ++ [b]) = .ok s := by simp [popBack]
      rw [stripSlashes.loop, hpop]
      by_cases hb : b = slash
      · rw [if_pos (by simp [hb]), List.rdropWhile_concat_pos _ _ _ (by simpa using hb)]
        exact ih s (by omega)
      · rw [List.rdropWhile_concat_neg _ _ _ (by simpa using hb), if_neg]
        · rfl
        · rw [List.isSuffixOf_iff_suffix]
          rintro ⟨l, hl⟩
          exact hb (List.singleton_inj.mp (List.append_inj' hl rfl).2).symm

/-- The guarded loop never fails. -/
theorem stripSlashes_eq (s : Bytes) : stripSlashes s = .ok (s.rdropWhile (· == slash)) :=
  stripSlashes_loop (s.length + 1) s (Nat.lt_succ_self _)

/-- `get_special_rules` fails only on a target without any byte but slashes. -/
theorem Endpoint.getSpecialRules_isOk_iff {γ : Type} (e : Endpoint γ) (target : Bytes) :
    (∃ rules, e.getSpecialRules target = .ok rules) ↔ ∃ b ∈ target, b ≠ slash := by
  rw [getSpecialRules, popSlashes_eq]
  by_cases h : target.all (· == slash) = true
  · rw [if_pos h]
    refine iff_of_false (fun ⟨_, he⟩ ↦ nomatch he) ?_
    rintro ⟨b, hb, hne⟩
    exact hne (eq_of_beq (List.all_eq_true.mp h b hb))
  · rw [if_neg h]
    refine iff_of_true ⟨_, rfl⟩ ?_
    simpa using h

end KeepMyJournal.HttpStream
