import KeepMyJournal.HttpStream.SpecialRules

/-!
# Which special routes are stored in full

`endpoint_t::construct_special_placeholder`, `http_stream/src/endpoint.cpp:18–64`, against the
layout of a route: a prefix, placeholders with text between them, and text behind the last one.
The scanner looks only at the last byte of the text between two placeholders and keeps none of it,
and it strips slashes from the text behind the last one without a test that any other byte is left.
-/

namespace KeepMyJournal.HttpStream

open KeepMyJournal.Base KeepMyJournal.Common

variable {γ : Type}

/-- The bytes that enclose the name of a placeholder. -/
def openBrace : UInt8 := 0x7b

def closeBrace : UInt8 := 0x7d

/-- A placeholder as it stands in a route. -/
def braced (name : Bytes) : Bytes := openBrace :: (name ++ [closeBrace])

/-- The layout of a route behind its first `{`: the names, the texts between the placeholders
without the slash that each of them ends in, and the text behind the last placeholder. -/
inductive Layout : Bytes → List Bytes → List Bytes → Bytes → Prop
  | last {name rest : Bytes} (hname : name ≠ []) (hclose : closeBrace ∉ name)
      (hrest : openBrace ∉ rest) : Layout (name ++ closeBrace :: rest) [name] [] rest
  | next {name gap tail rest : Bytes} {names gaps : List Bytes} (hname : name ≠ [])
      (hclose : closeBrace ∉ name) (hgap : openBrace ∉ gap) (htail : Layout tail names gaps rest) :
      Layout (name ++ closeBrace :: (gap ++ slash :: openBrace :: tail)) (name :: names)
        (gap :: gaps) rest

/-- A route that the scanner gets through: it has a prefix besides `/` and such a layout. -/
structure RouteLayout (route pre : Bytes) (names gaps : List Bytes) (rest : Bytes) : Prop where
  route_eq : ∃ tail, route = pre ++ openBrace :: tail ∧ Layout tail names gaps rest
  pre_notMem : openBrace ∉ pre
  pre_ne : pre ≠ [] ∧ pre ≠ bytes "/"

/-- What an accepted registration is to do, and a refused one not: the route without its trailing
slashes is stored under a new prefix, in full. -/
def Represented (e : Endpoint γ) (route : Bytes) (callback : γ) (verbs : List Verb) : Prop :=
  (∃ what, e.addSpecialEndpoint route callback verbs = .error (.runtimeError what)) ∨
    ∃ pre p, e.addSpecialEndpoint route callback verbs =
        .ok { e with specialEndpoints := e.specialEndpoints.insert pre p } ∧
      e.specialEndpoints[pre]? = none ∧ p.rule = ⟨verbs, callback⟩ ∧
      (∀ placeholder ∈ p.placeholders, placeholder.value = []) ∧
      pre ++ joinSlash (p.placeholders.map fun placeholder ↦ braced placeholder.key) ++ p.suffix =
        route.rdropWhile (· == slash)

/-! ### The scanner -/

/-- A placeholder in a route, from its `{` on: its name is kept, and the next `{` is looked for. -/
private theorem readPlaceholders_name {name : Bytes} (hname : name ≠ [])
    (hclose : closeBrace ∉ name) (done after : Bytes) (rounds : Nat)
    (placeholders : List KeyValuePair) :
    Endpoint.readPlaceholders (done ++ openBrace :: (name ++ closeBrace :: after)) (rounds + 1)
        done.length placeholders =
      let route := done ++ openBrace :: (name ++ closeBrace :: after)
      let placeholders := placeholders ++ [{ key := name }]
      let endOfPlaceholder := done.length + (name.length + 1)
      if endOfPlaceholder + 1 ≥ route.length then .ok (placeholders, endOfPlaceholder)
      else
        match findFirstOf route openBrace (endOfPlaceholder + 1) with
        | none => .ok (placeholders, endOfPlaceholder)
        | some index =>
          if route[index - 1]? ≠ some slash then
            .error (.runtimeError (bytes "special placeholders should be separated by '/'"))
          else Endpoint.readPlaceholders route rounds index placeholders := by
  have hend : findFirstOf (done ++ openBrace :: (name ++ closeBrace :: after)) 0x7d done.length =
      some (done.length + (name.length + 1)) := by
    have hpiece : closeBrace ∉ openBrace :: name := by
      rw [List.mem_cons, not_or]
      exact ⟨by decide, hclose⟩
    exact findFirstOf_append_cons hpiece done after
  have htake : ((done ++ openBrace :: (name ++ closeBrace :: after)).drop (done.length + 1)).take
      (done.length + (name.length + 1) - done.length - 1) = name := by
    have hlength : done.length + (name.length + 1) - done.length - 1 = name.length := by omega
    rw [hlength, ← List.drop_drop, List.drop_left, List.drop_one, List.tail_cons,
      List.take_left]
  rw [Endpoint.readPlaceholders, hend]
  dsimp only [trimCopy]
  rw [htake, if_neg (by simpa using hname)]
  rfl

/-- The last placeholder. -/
private theorem readPlaceholders_last {name : Bytes} (hname : name ≠ [])
    (hclose : closeBrace ∉ name) {after : Bytes} (hopen : openBrace ∉ after) (done : Bytes)
    (rounds : Nat) (placeholders : List KeyValuePair) :
    Endpoint.readPlaceholders (done ++ openBrace :: (name ++ closeBrace :: after)) (rounds + 1)
        done.length placeholders =
      .ok (placeholders ++ [{ key := name }], done.length + (name.length + 1)) := by
  let read := done ++ openBrace :: (name ++ [closeBrace])
  have hread : done.length + (name.length + 1) + 1 = read.length := by
    simp [read, Nat.add_assoc]
  have hroute : done ++ openBrace :: (name ++ closeBrace :: after) = read ++ after := by
    simp [read]
  rw [readPlaceholders_name hname hclose]
  dsimp only
  rw [hread, hroute, findFirstOf_append_of_notMem hopen]
  exact ite_self _

/-- A placeholder with another one behind it. -/
private theorem readPlaceholders_next {name : Bytes} (hname : name ≠ [])
    (hclose : closeBrace ∉ name) {gap : Bytes} (hgap : openBrace ∉ gap) (done tail : Bytes)
    (rounds : Nat) (placeholders : List KeyValuePair) :
    Endpoint.readPlaceholders
        (done ++ openBrace :: (name ++ closeBrace :: (gap ++ openBrace :: tail))) (rounds + 1)
        done.length placeholders =
      if (closeBrace :: gap).getLast? ≠ some slash then
        .error (.runtimeError (bytes "special placeholders should be separated by '/'"))
      else
        Endpoint.readPlaceholders
          ((done ++ openBrace :: (name ++ closeBrace :: gap)) ++ openBrace :: tail) rounds
          (done ++ openBrace :: (name ++ closeBrace :: gap)).length
          (placeholders ++ [{ key := name }]) := by
  obtain ⟨read, hdone⟩ : ∃ read, read = done ++ openBrace :: (name ++ [closeBrace]) := ⟨_, rfl⟩
  have hread : done.length + (name.length + 1) + 1 = read.length := by
    simp [hdone, Nat.add_assoc]
  have hroute : ∀ rest, done ++ openBrace :: (name ++ closeBrace :: rest) = read ++ rest := by
    simp [hdone]
  have hlast : (read ++ (gap ++ openBrace :: tail))[read.length + gap.length - 1]? =
      (closeBrace :: gap).getLast? := by
    rw [← List.append_assoc, List.getElem?_append_left (by simp [hdone]; omega),
      ← List.length_append, ← List.getLast?_eq_getElem?,
      show read ++ gap = (done ++ openBrace :: name) ++ closeBrace :: gap by simp [hdone],
      List.getLast?_append, List.getLast?_cons, Option.some_or]
  rw [readPlaceholders_name hname hclose]
  dsimp only
  rw [hread, hroute, hroute, findFirstOf_append_cons hgap,
    if_neg (by rw [List.length_append, List.length_append, List.length_cons]; omega)]
  dsimp only
  rw [hlast, List.length_append, List.append_assoc]

/-- The scanner gets through a layout, and keeps the names. -/
theorem readPlaceholders_of_layout {tail rest : Bytes} {names gaps : List Bytes}
    (h : Layout tail names gaps rest) (done : Bytes) (rounds : Nat) (hrounds : tail.length < rounds)
    (placeholders : List KeyValuePair) :
    ∃ endOfPlaceholder,
      Endpoint.readPlaceholders (done ++ openBrace :: tail) rounds done.length placeholders =
        .ok (placeholders ++ names.map (fun name ↦ { key := name }), endOfPlaceholder) ∧
      (done ++ openBrace :: tail).drop (endOfPlaceholder + 1) = rest := by
  induction h generalizing done rounds placeholders with
  | @last name rest hname hclose hrest =>
    cases rounds with
    | zero => omega
    | succ rounds =>
      have hroute : done ++ openBrace :: (name ++ closeBrace :: rest) =
          (done ++ openBrace :: (name ++ [closeBrace])) ++ rest := by simp
      have hread : done.length + (name.length + 1) + 1 =
          (done ++ openBrace :: (name ++ [closeBrace])).length := by
        simp [Nat.add_assoc]
      refine ⟨_, readPlaceholders_last hname hclose hrest done rounds placeholders, ?_⟩
      rw [hroute, hread, List.drop_left]
  | @next name gap tail rest names gaps hname hclose hgap _ ih =>
    cases rounds with
    | zero => omega
    | succ rounds =>
      have hgap' : openBrace ∉ gap ++ [slash] := by
        rw [List.mem_append, not_or]
        exact ⟨hgap, by decide⟩
      have hstep := readPlaceholders_next hname hclose hgap' done tail rounds placeholders
      have hroute : done ++ openBrace :: (name ++ closeBrace :: (gap ++ [slash])) ++
          openBrace :: tail =
          done ++ openBrace :: (name ++ closeBrace :: (gap ++ slash :: openBrace :: tail)) := by
        simp
      have hlast : (closeBrace :: (gap ++ [slash])).getLast? = some slash := by
        rw [List.getLast?_cons, List.getLast?_concat]
        rfl
      have hfuel : tail.length < rounds := by
        simp only [List.length_append, List.length_cons] at hrounds
        omega
      obtain ⟨endOfPlaceholder, hrest, hdrop⟩ :=
        ih (done ++ openBrace :: (name ++ closeBrace :: (gap ++ [slash]))) rounds hfuel
          (placeholders ++ [{ key := name }])
      rw [hroute] at hrest hdrop
      rw [List.append_assoc, List.singleton_append, if_neg (not_not.mpr hlast), hroute, hrest]
        at hstep
      refine ⟨endOfPlaceholder, ?_, hdrop⟩
      rw [hstep, List.append_assoc]
      rfl

/-- A name that is missing or empty is refused. -/
private theorem readPlaceholders_noName {tail : Bytes}
    (h : closeBrace ∉ tail ∨ tail.head? = some closeBrace) (done : Bytes) (rounds : Nat)
    (placeholders : List KeyValuePair) :
    ∃ what, Endpoint.readPlaceholders (done ++ openBrace :: tail) (rounds + 1) done.length
      placeholders = .error (.runtimeError what) := by
  rcases h with h | h
  · have hpiece : closeBrace ∉ openBrace :: tail := by
      rw [List.mem_cons, not_or]
      exact ⟨by decide, h⟩
    have hend : findFirstOf (done ++ openBrace :: tail) 0x7d done.length = none :=
      findFirstOf_append_of_notMem hpiece done
    rw [Endpoint.readPlaceholders, hend]
    exact ⟨_, rfl⟩
  · obtain ⟨after, rfl⟩ : ∃ after, tail = closeBrace :: after := by
      cases tail with
      | nil => cases h
      | cons b after => exact ⟨after, by rw [Option.some.inj h]⟩
    have hpiece : closeBrace ∉ [openBrace] := by decide
    have hend : findFirstOf (done ++ openBrace :: closeBrace :: after) 0x7d done.length =
        some (done.length + 1) := findFirstOf_append_cons hpiece done after
    have htake : ((done ++ openBrace :: closeBrace :: after).drop (done.length + 1)).take
        (done.length + 1 - done.length - 1) = [] := by
      rw [Nat.add_sub_cancel_left, Nat.sub_self, List.take_zero]
    rw [Endpoint.readPlaceholders, hend]
    dsimp only [trimCopy]
    rw [htake, List.isEmpty_nil, if_pos rfl]
    exact ⟨_, rfl⟩

/-- A text behind a `}` that ends in a slash. -/
private theorem exists_concat_slash {gap : Bytes}
    (h : (closeBrace :: gap).getLast? = some slash) : ∃ front, gap = front ++ [slash] := by
  rcases List.eq_nil_or_concat' gap with rfl | ⟨front, b, rfl⟩
  · exact absurd h (by decide)
  · rw [List.getLast?_cons, List.getLast?_concat] at h
    exact ⟨front, by rw [← Option.some.inj h]; rfl⟩

/-- The scanner throws where there is no layout. -/
theorem layout_or_throws (tail done : Bytes) (rounds : Nat) (hrounds : tail.length < rounds)
    (placeholders : List KeyValuePair) :
    (∃ names gaps rest, Layout tail names gaps rest) ∨
      ∃ what, Endpoint.readPlaceholders (done ++ openBrace :: tail) rounds done.length
        placeholders = .error (.runtimeError what) := by
  induction rounds generalizing tail done placeholders with
  | zero => omega
  | succ rounds ih =>
    by_cases hclose : closeBrace ∈ tail
    · obtain ⟨name, after, rfl, hname⟩ := List.eq_append_cons_of_mem hclose
      by_cases hempty : name = []
      · subst hempty
        exact .inr (readPlaceholders_noName (.inr rfl) done rounds placeholders)
      · by_cases hopen : openBrace ∈ after
        · obtain ⟨gap, tail, rfl, hgap⟩ := List.eq_append_cons_of_mem hopen
          have hstep := readPlaceholders_next hempty hname hgap done tail rounds placeholders
          by_cases hslash : (closeBrace :: gap).getLast? = some slash
          · rw [if_neg (not_not.mpr hslash)] at hstep
            have hfuel : tail.length < rounds := by
              simp only [List.length_append, List.length_cons] at hrounds
              omega
            rw [hstep]
            rcases ih tail (done ++ openBrace :: (name ++ closeBrace :: gap)) hfuel
              (placeholders ++ [{ key := name }]) with ⟨names, gaps, rest, hlayout⟩ | hthrows
            · obtain ⟨gap, rfl⟩ := exists_concat_slash hslash
              rw [List.mem_append, not_or] at hgap
              rw [List.append_assoc, List.singleton_append]
              exact .inl ⟨_, _, _, .next hempty hname hgap.1 hlayout⟩
            · exact .inr hthrows
          · rw [if_pos hslash] at hstep
            exact .inr ⟨_, hstep⟩
        · exact .inl ⟨_, _, _, .last hempty hname hopen⟩
    · exact .inr (readPlaceholders_noName (.inl hclose) done rounds placeholders)

/-! ### The registration -/

/-- The entry that a layout is stored as. -/
def entryOf (names : List Bytes) (rest : Bytes) (callback : γ) (verbs : List Verb) :
    SpecialPlaceholders γ where
  placeholders := names.map fun name ↦ { key := name }
  rule := ⟨verbs, callback⟩
  suffix := rest.rdropWhile (· == slash)

/-- A route that the scanner gets through: its suffix is taken, and its prefix has to be new. -/
theorem addSpecialEndpoint_of_layout (e : Endpoint γ) {route pre rest : Bytes}
    {names gaps : List Bytes} (hstart : route.head? = some slash)
    (h : RouteLayout route pre names gaps rest) (callback : γ) (verbs : List Verb) :
    e.addSpecialEndpoint route callback verbs =
      if rest ≠ [] ∧ rest.all (· == slash) = true then .error .backOfEmpty
      else if pre ∈ e.specialEndpoints then
        .error (.runtimeError (bytes "the prefix '" ++ pre ++ bytes "' already exist"))
      else .ok { e with
        specialEndpoints :=
          e.specialEndpoints.insert pre (entryOf names rest callback verbs) } := by
  obtain ⟨⟨tail, hroute, hlayout⟩, hpre, hne, hslash⟩ := h
  have hindex : findFirstOf route 0x7b 0 = some pre.length := by
    have hfind := findFirstOf_append_cons hpre [] tail
    rw [List.nil_append, List.length_nil, Nat.zero_add] at hfind
    rw [hroute]
    exact hfind
  obtain ⟨endOfPlaceholder, hread, hdrop⟩ :=
    readPlaceholders_of_layout hlayout pre route.length
      (by rw [hroute, List.length_append, List.length_cons]; omega) []
  rw [← hroute] at hread hdrop
  have htake : route.take pre.length = pre := by rw [hroute, List.take_left]
  have hvalid : ¬ ((trimCopy pre).isEmpty ∨ trimCopy pre = bytes "/") := by
    rw [not_or, trimCopy, List.isEmpty_iff]
    exact ⟨hne, hslash⟩
  rw [Endpoint.addSpecialEndpoint, if_neg (not_not.mpr hstart),
    Endpoint.constructSpecialPlaceholder, hindex]
  split
  · next h => cases h
  · next h => exact absurd (List.length_eq_zero_iff.mp (Option.some.inj h)) hne
  · next index _ h =>
    obtain rfl := Option.some.inj h
    dsimp only
    rw [htake, if_neg hvalid, hread]
    dsimp only [Bind.bind, Except.bind]
    rw [hdrop]
    have hstored : ∀ entry : SpecialPlaceholders γ, entry = entryOf names rest callback verbs →
        (if e.specialEndpoints.contains pre = true then
          .error (.runtimeError (bytes "the prefix '" ++ pre ++ bytes "' already exist"))
        else .ok { e with specialEndpoints := e.specialEndpoints.insert pre entry } :
          Except Fault (Endpoint γ)) =
        if pre ∈ e.specialEndpoints then
          .error (.runtimeError (bytes "the prefix '" ++ pre ++ bytes "' already exist"))
        else .ok { e with
          specialEndpoints :=
            e.specialEndpoints.insert pre (entryOf names rest callback verbs) } := by
      rintro entry rfl
      rfl
    by_cases hrest : rest = []
    · rw [if_pos (List.isEmpty_iff.mpr hrest), if_neg (fun h ↦ h.1 hrest)]
      exact hstored _ (by rw [hrest]; rfl)
    · rw [if_neg (by simpa using hrest), popSlashes_eq]
      by_cases hslashes : rest.all (· == slash) = true
      · rw [if_pos hslashes, if_pos ⟨hrest, hslashes⟩]
      · rw [if_neg hslashes, if_neg (fun h ↦ hslashes h.2)]
        exact hstored _ rfl

/-- A route without such a layout is refused. -/
theorem addSpecialEndpoint_throws (e : Endpoint γ) {route : Bytes}
    (h : ∀ pre names gaps rest, ¬ RouteLayout route pre names gaps rest) (callback : γ)
    (verbs : List Verb) :
    ∃ what, e.addSpecialEndpoint route callback verbs = .error (.runtimeError what) := by
  rw [Endpoint.addSpecialEndpoint]
  split
  · exact ⟨_, rfl⟩
  · rw [Endpoint.constructSpecialPlaceholder]
    by_cases hopen : openBrace ∈ route
    · obtain ⟨pre, tail, rfl, hpre⟩ := List.eq_append_cons_of_mem hopen
      have hindex : findFirstOf (pre ++ openBrace :: tail) 0x7b 0 = some pre.length := by
        have hfind := findFirstOf_append_cons hpre [] tail
        rw [List.nil_append, List.length_nil, Nat.zero_add] at hfind
        exact hfind
      rw [hindex]
      split
      · exact ⟨_, rfl⟩
      · exact ⟨_, rfl⟩
      · next index _ hsome =>
        obtain rfl := Option.some.inj hsome
        dsimp only
        rw [List.take_left]
        split
        · exact ⟨_, rfl⟩
        · next hvalid =>
          rw [not_or, trimCopy, List.isEmpty_iff] at hvalid
          have hfuel : tail.length < (pre ++ openBrace :: tail).length := by
            rw [List.length_append, List.length_cons]
            omega
          rcases layout_or_throws tail pre _ hfuel [] with ⟨names, gaps, rest, hlayout⟩ | hthrows
          · exact absurd ⟨⟨tail, rfl, hlayout⟩, hpre, hvalid⟩ (h pre names gaps rest)
          · obtain ⟨what, hread⟩ := hthrows
            rw [hread]
            exact ⟨what, rfl⟩
    · have hindex : findFirstOf route 0x7b 0 = none := findFirstOf_append_of_notMem hopen []
      rw [hindex]
      exact ⟨_, rfl⟩

/-- The names in braces, joined by slashes, are what stands behind the prefix exactly if nothing
else stands between them. -/
theorem Layout.joinSlash_eq_iff {tail rest : Bytes} {names gaps : List Bytes}
    (h : Layout tail names gaps rest) :
    ∃ body, openBrace :: tail = body ++ closeBrace :: rest ∧
      (joinSlash (names.map braced)).length ≤ (body ++ [closeBrace]).length ∧
      (joinSlash (names.map braced) = body ++ [closeBrace] ↔ ∀ gap ∈ gaps, gap = []) := by
  induction h with
  | @last name rest hname hclose hrest =>
    have hjoin : joinSlash ([name].map braced) = openBrace :: name ++ [closeBrace] :=
      List.intercalate_singleton
    refine ⟨openBrace :: name, rfl, ?_, ?_⟩
    · rw [hjoin]
    · exact iff_of_true hjoin (by simp)
  | @next name gap tail rest names gaps hname hclose hgap htail ih =>
    obtain ⟨body, hbody, hlength, hiff⟩ := ih
    have hjoin : joinSlash ((name :: names).map braced) =
        braced name ++ slash :: joinSlash (names.map braced) := by
      have hne : names.map braced ≠ [] := by
        cases htail with
        | last _ _ _ => simp
        | next _ _ _ _ => simp
      rw [joinSlash, List.map_cons, List.intercalate_cons_of_ne_nil hne, List.append_assoc]
      rfl
    refine ⟨braced name ++ gap ++ slash :: body, ?_, ?_, ?_⟩
    · simp [braced, hbody]
    · rw [hjoin]
      simp at hlength ⊢
      omega
    · rw [hjoin, List.forall_mem_cons, ← hiff, List.append_assoc, List.append_assoc,
        List.append_cancel_left_eq, List.cons_append]
      constructor
      · intro h
        have hsame := congrArg List.length h
        rw [List.length_append, List.length_cons, List.length_cons] at hsame
        obtain rfl : gap = [] := List.length_eq_zero_iff.mp (by omega)
        exact ⟨rfl, List.cons.inj h |>.2⟩
      · rintro ⟨rfl, h⟩
        rw [h, List.nil_append]

/-- What is stored of a layout is the route without its trailing slashes exactly if nothing else
stands between its placeholders. -/
private theorem stored_eq_iff {route pre rest : Bytes} {names gaps : List Bytes}
    (h : RouteLayout route pre names gaps rest) (callback : γ) (verbs : List Verb) :
    pre ++ joinSlash ((entryOf names rest callback verbs).placeholders.map
        fun placeholder ↦ braced placeholder.key) ++ (entryOf names rest callback verbs).suffix =
      route.rdropWhile (· == slash) ↔ ∀ gap ∈ gaps, gap = [] := by
  obtain ⟨tail, rfl, hlayout⟩ := h.route_eq
  obtain ⟨body, hbody, -, hiff⟩ := hlayout.joinSlash_eq_iff
  have hclose : closeBrace ≠ slash := by decide
  have hkeys : (entryOf names rest callback verbs).placeholders.map
      (fun placeholder ↦ braced placeholder.key) = names.map braced := by
    rw [entryOf, List.map_map]
    rfl
  have hsplit : body ++ closeBrace :: rest.rdropWhile (· == slash) =
      body ++ [closeBrace] ++ rest.rdropWhile (· == slash) := by
    rw [List.append_assoc, List.singleton_append]
  rw [hkeys, ← hiff, hbody, ← List.append_assoc, rdropWhile_append_cons hclose, List.append_assoc,
    List.append_assoc, List.append_cancel_left_eq, hsplit]
  exact List.append_left_inj _

/-- The map tells what has been inserted under a new key. -/
private theorem insert_inj {m : Std.ExtTreeMap Bytes (SpecialPlaceholders γ)} {k k' : Bytes}
    {p p' : SpecialPlaceholders γ} (h : m.insert k p = m.insert k' p') (hnew : m[k']? = none) :
    k = k' ∧ p = p' := by
  have hget := congrArg (fun m : Std.ExtTreeMap Bytes (SpecialPlaceholders γ) ↦ m[k']?) h
  rw [Std.ExtTreeMap.getElem?_insert_self, Std.ExtTreeMap.getElem?_insert] at hget
  split at hget
  · next hcompare => exact ⟨Std.compare_eq_iff_eq.mp hcompare, Option.some.inj hget⟩
  · rw [hnew] at hget
    cases hget

/-- With a layout, the registration is refused or stored in full in two cases. -/
private theorem represented_of_layout_iff (e : Endpoint γ) {route pre rest : Bytes}
    {names gaps : List Bytes} (hstart : route.head? = some slash)
    (hroute : RouteLayout route pre names gaps rest) (callback : γ) (verbs : List Verb) :
    Represented e route callback verbs ↔
      ¬ (rest ≠ [] ∧ ∀ b ∈ rest, b = slash) ∧
        (pre ∈ e.specialEndpoints ∨ ∀ gap ∈ gaps, gap = []) := by
  have hadd := addSpecialEndpoint_of_layout e hstart hroute callback verbs
  have hall : (∀ b ∈ rest, b = slash) ↔ rest.all (· == slash) = true := by simp
  rw [hall]
  by_cases hslashes : rest ≠ [] ∧ rest.all (· == slash) = true
  · rw [if_pos hslashes] at hadd
    refine iff_of_false ?_ (fun h ↦ h.1 hslashes)
    rintro (⟨what, h⟩ | ⟨pre', p, h, -⟩)
    · rw [hadd] at h
      cases h
    · rw [hadd] at h
      cases h
  · rw [if_neg hslashes] at hadd
    rw [and_iff_right hslashes]
    by_cases hpre : pre ∈ e.specialEndpoints
    · rw [if_pos hpre] at hadd
      exact iff_of_true (.inl ⟨_, hadd⟩) (.inl hpre)
    · rw [if_neg hpre] at hadd
      rw [or_iff_right hpre, ← stored_eq_iff hroute callback verbs]
      constructor
      · rintro (⟨what, h⟩ | ⟨pre', p, h, hnew, -, -, hstored⟩)
        · rw [hadd] at h
          cases h
        · rw [hadd, Except.ok.injEq, Endpoint.mk.injEq] at h
          obtain ⟨rfl, rfl⟩ := insert_inj h.2 hnew
          exact hstored
      · intro hstored
        refine .inr ⟨pre, _, hadd, Std.ExtTreeMap.getElem?_eq_none hpre, rfl, ?_, hstored⟩
        intro placeholder hplaceholder
        obtain ⟨name, -, rfl⟩ := List.mem_map.mp hplaceholder
        rfl

/-- A registration is refused or stored in full exactly if the route has no layout, or the text
behind its last placeholder is not a run of slashes, and its prefix is taken or a single slash is
all that stands between two placeholders. -/
theorem represented_iff (e : Endpoint γ) (route : Bytes) (hstart : route.head? = some slash)
    (callback : γ) (verbs : List Verb) :
    Represented e route callback verbs ↔
      ∀ pre names gaps rest, RouteLayout route pre names gaps rest →
        ¬ (rest ≠ [] ∧ ∀ b ∈ rest, b = slash) ∧
          (pre ∈ e.specialEndpoints ∨ ∀ gap ∈ gaps, gap = []) := by
  constructor
  · intro h pre names gaps rest hroute
    exact (represented_of_layout_iff e hstart hroute callback verbs).mp h
  · intro hall
    by_cases hlayout : ∃ pre names gaps rest, RouteLayout route pre names gaps rest
    · obtain ⟨pre, names, gaps, rest, hroute⟩ := hlayout
      exact (represented_of_layout_iff e hstart hroute callback verbs).mpr
        (hall pre names gaps rest hroute)
    · left
      apply addSpecialEndpoint_throws
      intro pre names gaps rest hroute
      exact hlayout ⟨pre, names, gaps, rest, hroute⟩

theorem represented_iff_tradingPairs :
    Represented ({} : Endpoint Callback) (bytes "/trading_pairs/\x7bexchange\x7d")
        (.route .getTradingPairsHandler) [.get] ↔
      ∀ pre names gaps rest,
        RouteLayout (bytes "/trading_pairs/\x7bexchange\x7d") pre names gaps rest →
        ¬ (rest ≠ [] ∧ ∀ b ∈ rest, b = slash) ∧
          (pre ∈ ({} : Endpoint Callback).specialEndpoints ∨ ∀ gap ∈ gaps, gap = []) := by
  have hstart : (bytes "/trading_pairs/\x7bexchange\x7d").head? = some slash := by
    decide +kernel
  exact represented_iff ({} : Endpoint Callback) _ hstart _ _

/-- Of `/pairs/{exchange}/` the suffix is stripped until nothing is left to look at; of
`/pairs/{exchange}/of/{symbol}` the word between the placeholders is not kept. -/
theorem not_represented_pairs :
    ¬ Represented ({} : Endpoint Callback) (bytes "/pairs/\x7bexchange\x7d/")
        (.route .getTradingPairsHandler) [.get] ∧
      ¬ Represented ({} : Endpoint Callback) (bytes "/pairs/\x7bexchange\x7d/of/\x7bsymbol\x7d")
        (.route .getTradingPairsHandler) [.get] := by
  constructor
  · have hroute : RouteLayout (bytes "/pairs/\x7bexchange\x7d/") (bytes "/pairs/")
        [bytes "exchange"] [] [slash] := by
      have hlast : Layout (bytes "exchange" ++ closeBrace :: [slash]) [bytes "exchange"] []
          [slash] := .last (by decide +kernel) (by decide +kernel) (by decide +kernel)
      exact ⟨⟨_, by decide +kernel, hlast⟩, by decide +kernel, by decide +kernel⟩
    rw [represented_of_layout_iff {} (by decide +kernel) hroute]
    intro h
    exact h.1 (by decide +kernel)
  · have hroute : RouteLayout (bytes "/pairs/\x7bexchange\x7d/of/\x7bsymbol\x7d") (bytes "/pairs/")
        [bytes "exchange", bytes "symbol"] [bytes "/of"] [] := by
      have hlast : Layout (bytes "symbol" ++ closeBrace :: []) [bytes "symbol"] [] [] :=
        .last (by decide +kernel) (by decide +kernel) (by decide +kernel)
      have hnext : Layout (bytes "exchange" ++ closeBrace :: (bytes "/of" ++ slash :: openBrace ::
          (bytes "symbol" ++ closeBrace :: []))) [bytes "exchange", bytes "symbol"] [bytes "/of"]
          [] := .next (by decide +kernel) (by decide +kernel) (by decide +kernel) hlast
      exact ⟨⟨_, by decide +kernel, hnext⟩, by decide +kernel, by decide +kernel⟩
    rw [represented_of_layout_iff {} (by decide +kernel) hroute]
    rintro ⟨-, htaken | hgaps⟩
    · simp at htaken
    · exact absurd (hgaps (bytes "/of") List.mem_cons_self) (by decide +kernel)

end KeepMyJournal.HttpStream
