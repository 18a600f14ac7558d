import KeepMyJournal.Base.Cuts
import KeepMyJournal.Common.StringUtils

/-!
# Splitting at a delimiter

`splitStringView` and `splitStringInto`, `common/src/string_utils.cpp:179–213`, for delimiters of
any length and for one byte. The rounds of their loops are counted, so that a loop that does not
end has no result.
-/

namespace KeepMyJournal.Common

open KeepMyJournal.Base

variable {s delim : Bytes}

/-! ### The search -/

private theorem findFrom_eq_none_iff (s str : Bytes) (pos : Nat) :
    findFrom s str pos = none ↔ ¬s <:+: str := by
  induction str generalizing pos with
  | nil =>
    rw [findFrom, List.infix_nil]
    by_cases hs : s = []
    · simp [hs]
    · simp [hs]
  | cons b str ih =>
    rw [findFrom, List.infix_cons_iff, not_or, ← ih (pos + 1), ← List.isPrefixOf_iff_prefix]
    by_cases hs : s.isPrefixOf (b :: str) = true
    · simp [hs]
    · simp [hs]

private theorem findFrom_of_firstCut {str piece rest : Bytes} (h : FirstCut s str piece rest)
    (pos : Nat) : findFrom s str pos = some (pos + piece.length) := by
  induction str generalizing piece pos with
  | nil =>
    obtain ⟨rfl, rfl, rfl⟩ : piece = [] ∧ s = [] ∧ rest = [] := by simpa using h.text_eq
    rfl
  | cons b str ih =>
    rw [findFrom]
    cases piece with
    | nil =>
      have hs : s <+: b :: str := ⟨rest, h.text_eq.symm⟩
      rw [if_pos (List.isPrefixOf_iff_prefix.mpr hs)]
      rfl
    | cons c piece =>
      obtain ⟨hhead, htail⟩ := h.of_cons
      rw [if_neg (fun hs ↦ hhead (List.isPrefixOf_iff_prefix.mp hs)), ih htail, List.length_cons]
      congr 1
      omega

/-- Behind what has been read, the search fails exactly if the rest does not contain the string. -/
theorem find_append_eq_none_iff (done rest : Bytes) :
    find (done ++ rest) s done.length = none ↔ ¬s <:+: rest := by
  rw [find, if_neg (by simp), List.drop_left, findFrom_eq_none_iff]

/-- Behind what has been read, the first occurrence is found. -/
theorem find_of_firstCut (done : Bytes) {rest piece after : Bytes}
    (h : FirstCut s rest piece after) :
    find (done ++ rest) s done.length = some (done.length + piece.length) := by
  rw [find, if_neg (by simp), List.drop_left, findFrom_of_firstCut h]

theorem find_eq_none_iff (str : Bytes) : find str s 0 = none ↔ ¬s <:+: str :=
  find_append_eq_none_iff [] str

/-- A byte is found behind a piece without it. -/
theorem findFirstOf_append_cons {b : UInt8} {piece : Bytes} (h : b ∉ piece) (done rest : Bytes) :
    findFirstOf (done ++ (piece ++ b :: rest)) b done.length =
      some (done.length + piece.length) := by
  have hcut := FirstCut.of_not_mem h [] rest
  rw [List.append_assoc] at hcut
  exact find_of_firstCut done hcut

theorem findFirstOf_append_of_notMem {b : UInt8} {rest : Bytes} (h : b ∉ rest) (done : Bytes) :
    findFirstOf (done ++ rest) b done.length = none :=
  (find_append_eq_none_iff done rest).mpr fun hin ↦ h ((List.singleton_infix_iff b rest).mp hin)

/-! ### Pieces -/

/-- The pieces without an empty one at the end. -/
def keptPieces : List Bytes → List Bytes
  | [] => []
  | [piece] => if piece.isEmpty then [] else [piece]
  | piece :: next :: rest => piece :: keptPieces (next :: rest)

theorem keptPieces_cons {pieces : List Bytes} (piece : Bytes) (h : pieces ≠ []) :
    keptPieces (piece :: pieces) = piece :: keptPieces pieces := by
  cases pieces with
  | nil => exact absurd rfl h
  | cons next rest => rfl

/-- Pieces that are not empty are all kept. -/
theorem keptPieces_eq_self {pieces : List Bytes} (h : [] ∉ pieces) :
    keptPieces pieces = pieces := by
  induction pieces with
  | nil => rfl
  | cons piece rest ih =>
    rw [List.mem_cons, not_or] at h
    by_cases hrest : rest = []
    · subst hrest
      rw [keptPieces, if_neg]
      rw [List.isEmpty_iff]
      exact Ne.symm h.1
    · rw [keptPieces_cons piece hrest, ih h.2]

/-- Pieces and a rest are kept, but for an empty rest. -/
theorem keptPieces_concat (pieces : List Bytes) (last : Bytes) :
    keptPieces (pieces ++ [last]) = if last = [] then pieces else pieces ++ [last] := by
  induction pieces with
  | nil =>
    by_cases hlast : last = []
    · simp [keptPieces, hlast]
    · simp [keptPieces, hlast]
  | cons piece pieces ih =>
    rw [List.cons_append, keptPieces_cons _ (by simp), ih]
    split
    · rfl
    · rfl

/-! ### The loop -/

/-- The loop of `splitStringView`, if it ends within the rounds. -/
def splitRounds (str delim : Bytes) : Nat → Nat → Option (List Bytes)
  | 0, _ => none
  | rounds + 1, fromPos =>
    match find str delim fromPos with
    | none => some (if fromPos < str.length then [str.drop fromPos] else [])
    | some index =>
      (splitRounds str delim rounds (index + delim.length)).map
        ((str.drop fromPos).take (index - fromPos) :: ·)

/-- `splitStringView`, if it ends within the rounds. -/
def splitStringViewWithin (rounds : Nat) (str delim : Bytes) : Option (List Bytes) :=
  match find str delim 0 with
  | none => some [str]
  | some _ => splitRounds str delim rounds 0

/-- Behind what has been read, the loop ends after at most one round for each byte, with the
pieces that the rest is cut into. -/
theorem splitRounds_of_cut (hdelim : delim ≠ []) {rest last : Bytes} {pieces : List Bytes}
    (h : Cut delim rest pieces last) (done : Bytes) {rounds : Nat}
    (hrounds : rest.length < rounds) :
    splitRounds (done ++ rest) delim rounds done.length =
      some (keptPieces (pieces ++ [last])) := by
  obtain ⟨rounds, rfl⟩ := Nat.exists_eq_succ_of_ne_zero (by omega : rounds ≠ 0)
  induction h generalizing done rounds with
  | @rest rest hnot =>
    rw [splitRounds, (find_append_eq_none_iff done rest).mpr hnot, List.nil_append]
    cases rest with
    | nil => simp [keptPieces]
    | cons b rest => simp [keptPieces]
  | @next rest piece after last pieces hfirst hcut ih =>
    have hlength := hfirst.length_lt hdelim
    obtain ⟨rounds, rfl⟩ := Nat.exists_eq_succ_of_ne_zero (by omega : rounds ≠ 0)
    have htext : done ++ rest = done ++ piece ++ delim ++ after := by
      rw [hfirst.text_eq]
      simp only [List.append_assoc]
    have hpos : done.length + piece.length + delim.length = (done ++ piece ++ delim).length := by
      simp only [List.length_append]
    have hpiece : (done ++ rest).drop done.length = piece ++ (delim ++ after) := by
      rw [List.drop_left, hfirst.text_eq, List.append_assoc]
    have hrest := ih (done ++ piece ++ delim) rounds (by omega)
    rw [splitRounds, find_of_firstCut done hfirst]
    dsimp only
    rw [hpiece, Nat.add_sub_cancel_left, List.take_left, hpos, htext, hrest, Option.map_some,
      List.cons_append, keptPieces_cons _ (by simp)]

/-- Where the loop ends, its result is that of the bounded loop. -/
theorem splitLoop_of_splitRounds {str : Bytes} {rounds fromPos : Nat} {pieces : List Bytes}
    (h : splitRounds str delim rounds fromPos = some pieces) :
    splitLoop str delim rounds fromPos = pieces := by
  induction rounds generalizing fromPos pieces with
  | zero => cases h
  | succ rounds ih =>
    rw [splitRounds] at h
    rw [splitLoop]
    cases hfind : find str delim fromPos with
    | none =>
      rw [hfind] at h
      exact Option.some.inj h
    | some index =>
      rw [hfind] at h
      obtain ⟨rest, hrest, rfl⟩ := Option.map_eq_some_iff.mp h
      dsimp only
      rw [ih hrest]

/-- A string with the delimiter is split into the pieces that it is cut into, without an empty last
one. -/
theorem splitStringView_of_cut (hdelim : delim ≠ []) {str last : Bytes} {pieces : List Bytes}
    (h : Cut delim str pieces last) (hin : delim <:+: str) :
    splitStringView str delim = keptPieces (pieces ++ [last]) := by
  rw [splitStringView]
  cases hfind : find str delim 0 with
  | none => exact absurd hin ((find_eq_none_iff str).mp hfind)
  | some index =>
    exact splitLoop_of_splitRounds (splitRounds_of_cut hdelim h [] (Nat.lt_succ_self _))

/-- Any other string is one piece, even if it is empty. -/
theorem splitStringView_of_not_contains {str : Bytes} (hin : ¬delim <:+: str) :
    splitStringView str delim = [str] := by
  rw [splitStringView, (find_eq_none_iff str).mpr hin]

/-- The loop ends after at most one round for each byte. -/
theorem splitStringViewWithin_eq (hdelim : delim ≠ []) (str : Bytes) {rounds : Nat}
    (h : str.length < rounds) :
    splitStringViewWithin rounds str delim = some (splitStringView str delim) := by
  obtain ⟨pieces, last, hcut⟩ := exists_cut hdelim str
  rw [splitStringViewWithin]
  cases hfind : find str delim 0 with
  | none =>
    dsimp only
    rw [splitStringView, hfind]
  | some index =>
    have hin : delim <:+: str := by
      by_contra hnot
      rw [(find_eq_none_iff str).mpr hnot] at hfind
      cases hfind
    rw [splitStringView_of_cut hdelim hcut hin]
    exact splitRounds_of_cut hdelim hcut [] h

/-- For every string and every non-empty delimiter: the loop ends; no piece contains the delimiter;
and the pieces joined by it are the string, or the string without a delimiter at its end. -/
theorem splitStringView_pieces (str delim : Bytes) (hdelim : delim ≠ []) :
    (∀ rounds, str.length < rounds →
        splitStringViewWithin rounds str delim = some (splitStringView str delim)) ∧
      (∀ piece ∈ splitStringView str delim, ¬delim <:+: piece) ∧
      (delim.intercalate (splitStringView str delim) = str ∨
        delim.intercalate (splitStringView str delim) ++ delim = str) := by
  obtain ⟨pieces, last, hcut⟩ := exists_cut hdelim str
  refine ⟨fun rounds ↦ splitStringViewWithin_eq hdelim str, ?_⟩
  by_cases hin : delim <:+: str
  · have hmem := hcut.not_contains_of_mem hdelim
    rw [splitStringView_of_cut hdelim hcut hin, keptPieces_concat]
    by_cases hlast : last = []
    · subst hlast
      rw [if_pos rfl]
      exact ⟨hmem, .inr (hcut.intercalate_append (hcut.ne_nil_iff.mpr hin))⟩
    · rw [if_neg hlast]
      refine ⟨?_, .inl hcut.intercalate_concat⟩
      intro piece hpiece
      rcases List.mem_append.mp hpiece with hpiece | hpiece
      · exact hmem piece hpiece
      · rw [List.mem_singleton.mp hpiece]
        exact hcut.not_contains_last
  · rw [splitStringView_of_not_contains hin]
    refine ⟨?_, .inl List.intercalate_singleton⟩
    intro piece hpiece
    rwa [List.mem_singleton.mp hpiece]

theorem splitStringView_pieces_overlapping :
    (∀ rounds, (bytes "aaa").length < rounds →
        splitStringViewWithin rounds (bytes "aaa") (bytes "aa") =
          some (splitStringView (bytes "aaa") (bytes "aa"))) ∧
      (∀ piece ∈ splitStringView (bytes "aaa") (bytes "aa"), ¬bytes "aa" <:+: piece) ∧
      ((bytes "aa").intercalate (splitStringView (bytes "aaa") (bytes "aa")) = bytes "aaa" ∨
        (bytes "aa").intercalate (splitStringView (bytes "aaa") (bytes "aa")) ++ bytes "aa" =
          bytes "aaa") :=
  splitStringView_pieces (bytes "aaa") (bytes "aa") (List.cons_ne_nil _ _)

/-- An empty delimiter is found where the search begins, and the loop does not end. -/
theorem splitStringViewWithin_nil (rounds : Nat) (str : Bytes) :
    splitStringViewWithin rounds str [] = none := by
  have hfind : ∀ pos, pos ≤ str.length → find str [] pos = some pos := by
    intro pos hpos
    rw [find, if_neg (Nat.not_lt.mpr hpos)]
    cases str.drop pos <;> rfl
  have hrounds : splitRounds str [] rounds 0 = none := by
    induction rounds with
    | zero => rfl
    | succ rounds ih =>
      rw [splitRounds, hfind 0 (Nat.zero_le _)]
      dsimp only
      rw [List.length_nil, ih]
      rfl
  rw [splitStringViewWithin, hfind 0 (Nat.zero_le _)]
  exact hrounds

/-! ### At one byte -/

/-- Split at one byte: all pieces but an empty last one; a string without the byte is one piece,
even if it is empty. -/
theorem splitStringView_singleton (str : Bytes) (b : UInt8) :
    splitStringView str [b] = if b ∈ str then keptPieces (str.splitOn b) else [str] := by
  have hdelim := List.cons_ne_nil b []
  split
  · next hb =>
    obtain ⟨pieces, last, hcut⟩ := exists_cut hdelim str
    rw [splitStringView_of_cut hdelim hcut ((List.singleton_infix_iff b str).mpr hb),
      hcut.splitOn_eq]
  · next hb =>
    exact splitStringView_of_not_contains fun hin ↦ hb ((List.singleton_infix_iff b str).mp hin)

/-- Joined pieces are split again, if none of them is empty. -/
theorem splitStringView_intercalate {b : UInt8} {pieces : List Bytes} (hne : pieces ≠ [])
    (hb : ∀ piece ∈ pieces, b ∉ piece) (hempty : [] ∉ pieces) :
    splitStringView ([b].intercalate pieces) [b] = pieces := by
  have hsplit := List.splitOn_intercalate b hb hne
  rw [splitStringView_singleton]
  by_cases hmem : b ∈ [b].intercalate pieces
  · rw [if_pos hmem, hsplit, keptPieces_eq_self hempty]
  · rw [if_neg hmem, ← List.splitOn_eq_singleton hmem, hsplit]

/-- A string is cut at a byte only if it has one. -/
theorem takeWhile_bne_eq_self_iff {b : UInt8} {str : Bytes} :
    str.takeWhile (· != b) = str ↔ b ∉ str := by
  rw [List.takeWhile_eq_self_iff]
  constructor
  · intro h hb
    have hne := h b hb
    rw [bne_self_eq_false] at hne
    cases hne
  · intro h c hc
    rw [bne_iff_ne]
    rintro rfl
    exact h hc

theorem takeWhile_bne_append_cons {b : UInt8} {piece : Bytes} (h : b ∉ piece) (rest : Bytes) :
    (piece ++ b :: rest).takeWhile (· != b) = piece := by
  have hall : ∀ c ∈ piece, (c != b) = true :=
    List.takeWhile_eq_self_iff.mp (takeWhile_bne_eq_self_iff.mpr h)
  rw [List.takeWhile_append_of_pos hall, List.takeWhile_cons_of_neg (by simp), List.append_nil]

theorem dropWhile_bne_append_cons {b : UInt8} {piece : Bytes} (h : b ∉ piece) (rest : Bytes) :
    (piece ++ b :: rest).dropWhile (· != b) = b :: rest := by
  have hall : ∀ c ∈ piece, (c != b) = true :=
    List.takeWhile_eq_self_iff.mp (takeWhile_bne_eq_self_iff.mpr h)
  rw [List.dropWhile_append_of_pos hall, List.dropWhile_cons_of_neg (by simp)]

/-- Behind the first piece, an empty rest is no piece. -/
theorem splitStringView_append_cons {b : UInt8} {piece : Bytes} (h : b ∉ piece) (rest : Bytes) :
    splitStringView (piece ++ b :: rest) [b] = piece :: keptPieces (rest.splitOn b) := by
  rw [splitStringView_singleton, if_pos (by simp), List.splitOn_append_cons_self_of_not_mem h,
    keptPieces_cons _ (List.splitOn_ne_nil b rest)]

/-- A string that is not empty has a first piece, which may be. -/
theorem keptPieces_splitOn_head (b : UInt8) {rest : Bytes} (h : rest ≠ []) :
    ∃ others, keptPieces (rest.splitOn b) = rest.takeWhile (· != b) :: others := by
  by_cases hb : b ∈ rest
  · obtain ⟨piece, rest, rfl, hpiece⟩ := List.eq_append_cons_of_mem hb
    rw [List.splitOn_append_cons_self_of_not_mem hpiece,
      keptPieces_cons _ (List.splitOn_ne_nil b rest), takeWhile_bne_append_cons hpiece]
    exact ⟨_, rfl⟩
  · rw [List.splitOn_eq_singleton hb, takeWhile_bne_eq_self_iff.mpr hb, keptPieces,
      if_neg (by simpa using h)]
    exact ⟨[], rfl⟩

/-- Split at one byte, the first piece is what stands before the byte, or the whole string. -/
theorem splitStringView_singleton_head (str : Bytes) (b : UInt8) :
    (splitStringView str [b])[0]? = some (str.takeWhile (· != b)) := by
  by_cases hb : b ∈ str
  · obtain ⟨piece, rest, rfl, hpiece⟩ := List.eq_append_cons_of_mem hb
    rw [splitStringView_append_cons hpiece, takeWhile_bne_append_cons hpiece]
    rfl
  · rw [splitStringView_singleton, if_neg hb, takeWhile_bne_eq_self_iff.mpr hb]
    rfl

/-! ### Into a vector -/

/-- The loop of `splitStringInto`. -/
def splitIntoLoop (str delim : Bytes) : Nat → Nat → List Bytes → List Bytes
  | 0, _, result => result
  | rounds + 1, fromPos, result =>
    match find str delim fromPos with
    | none => if fromPos < str.length then result ++ [str.drop fromPos] else result
    | some index =>
      splitIntoLoop str delim rounds (index + delim.length)
        (result ++ [(str.drop fromPos).take (index - fromPos)])

/-- `splitStringInto`, for a non-empty delimiter. -/
def splitStringInto (result : List Bytes) (str delim : Bytes) : List Bytes :=
  match find str delim 0 with
  | none => result
  | some _ => splitIntoLoop str delim (str.length + 1) 0 result

/-- The loop appends what the other loop returns. -/
theorem splitIntoLoop_eq (str delim : Bytes) (rounds fromPos : Nat) (result : List Bytes) :
    splitIntoLoop str delim rounds fromPos result =
      result ++ splitLoop str delim rounds fromPos := by
  induction rounds generalizing fromPos result with
  | zero => rw [splitIntoLoop, splitLoop, List.append_nil]
  | succ rounds ih =>
    rw [splitIntoLoop, splitLoop]
    cases find str delim fromPos with
    | none =>
      dsimp only
      split
      · rfl
      · rw [List.append_nil]
    | some index =>
      dsimp only
      rw [ih, List.append_assoc, List.singleton_append]

/-- The loop has ended after one round for each byte and one more. -/
theorem splitIntoLoop_rounds (hdelim : delim ≠ []) (str : Bytes) (result : List Bytes)
    {rounds : Nat} (h : str.length < rounds) :
    splitIntoLoop str delim rounds 0 result =
      splitIntoLoop str delim (str.length + 1) 0 result := by
  obtain ⟨pieces, last, hcut⟩ := exists_cut hdelim str
  have hrounds : ∀ rounds, str.length < rounds →
      splitLoop str delim rounds 0 = keptPieces (pieces ++ [last]) := fun rounds hlt ↦
    splitLoop_of_splitRounds (splitRounds_of_cut hdelim hcut [] hlt)
  rw [splitIntoLoop_eq, splitIntoLoop_eq, hrounds rounds h, hrounds _ (Nat.lt_succ_self _)]

/-- The pieces are appended exactly if the delimiter occurs in the string. -/
theorem splitStringInto_eq_append_iff (result : List Bytes) (str delim : Bytes) :
    splitStringInto result str delim = result ++ splitStringView str delim ↔ delim <:+: str := by
  rw [splitStringInto, splitStringView]
  cases hfind : find str delim 0 with
  | none =>
    refine iff_of_false ?_ ((find_eq_none_iff str).mp hfind)
    intro h
    simpa using congrArg List.length h
  | some index =>
    refine iff_of_true (splitIntoLoop_eq str delim _ 0 result) ?_
    by_contra hnot
    rw [(find_eq_none_iff str).mpr hnot] at hfind
    cases hfind

/-- A string without the delimiter is one piece, but nothing is appended. -/
theorem splitStringInto_ne_append :
    ¬∀ (result : List Bytes) (str delim : Bytes), delim ≠ [] →
      splitStringInto result str delim = result ++ splitStringView str delim := by
  intro h
  exact absurd (h [] (bytes "BTC-USDT") (bytes ",") (List.cons_ne_nil _ _)) (by decide +kernel)

end KeepMyJournal.Common
