import KeepMyJournal.Common.Splitting

/-!
# URIs

`uri_t`, `common/src/uri.cpp`. An iterator into the text is the number of bytes in front of it.
-/

namespace KeepMyJournal.Common

open KeepMyJournal.Base

/-- `uri_t`. -/
structure Uri where
  host : Bytes := []
  path : Bytes := []
  protocol : Bytes := []
  query : Bytes := []
  deriving DecidableEq, Repr

/-- `std::search` and, for one byte, `std::find`, from an iterator to the end of the text. -/
def searchFrom (urlS s : Bytes) (first : Nat) : Nat := (find urlS s first).getD urlS.length

/-- The bytes between two iterators. -/
def between (urlS : Bytes) (first last : Nat) : Bytes := (urlS.take last).drop first

/-- `uri_t::parse`, of a new object. -/
def Uri.parse (urlS : Bytes) : Uri :=
  let protEnd := bytes "://"
  let protI := searchFrom urlS protEnd 0
  let protocol := toLowerCopy (between urlS 0 protI)
  let protI := if protI = urlS.length then 0 else protI + protEnd.length
  let pathI := searchFrom urlS (bytes "/") protI
  let host := toLowerCopy (between urlS protI pathI)
  let queryI := searchFrom urlS (bytes "?") pathI
  let path := between urlS pathI queryI
  let queryI := if queryI ≠ urlS.length then queryI + 1 else queryI
  { host, path, protocol, query := between urlS queryI urlS.length }

/-- `uri_t::target`. -/
def Uri.target (uri : Uri) : Bytes := uri.path ++ bytes "?" ++ uri.query

/-! ### Searches and ranges -/

variable {s : Bytes}

theorem searchFrom_of_firstCut (done : Bytes) {rest piece after : Bytes}
    (h : FirstCut s rest piece after) :
    searchFrom (done ++ rest) s done.length = (done ++ piece).length := by
  rw [searchFrom, find_of_firstCut done h, Option.getD_some, List.length_append]

/-- A byte is found behind the bytes that differ from it. -/
theorem searchFrom_byte (done rest : Bytes) (b : UInt8) :
    searchFrom (done ++ rest) [b] done.length =
      (done ++ rest.takeWhile (· != b)).length := by
  by_cases hb : b ∈ rest
  · obtain ⟨piece, after, rfl, hpiece⟩ := List.eq_append_cons_of_mem hb
    have hcut := FirstCut.of_not_mem hpiece [] after
    rw [List.append_assoc] at hcut
    rw [takeWhile_bne_append_cons hpiece]
    exact searchFrom_of_firstCut done hcut
  · have hfind := (find_append_eq_none_iff done rest).mpr
      (fun hin ↦ hb ((List.singleton_infix_iff b rest).mp hin))
    rw [searchFrom, hfind, Option.getD_none, takeWhile_bne_eq_self_iff.mpr hb]

theorem between_append (done piece rest : Bytes) :
    between (done ++ piece ++ rest) done.length (done ++ piece).length = piece := by
  rw [between, List.take_left, List.drop_left]

/-- What follows an iterator, without the byte under it. -/
theorem between_next (done rest : Bytes) :
    between (done ++ rest)
      (if done.length ≠ (done ++ rest).length then done.length + 1 else done.length)
      (done ++ rest).length = rest.tail := by
  rw [between, List.take_length]
  cases rest with
  | nil => rw [if_neg (by simp), List.drop_left, List.tail_nil]
  | cons b rest =>
    rw [if_pos (by simp), ← List.drop_drop, List.drop_left, List.drop_one]

/-- Behind a scheme without a colon, the host ends at the first slash, and the path at the first
question mark behind it. -/
theorem Uri.parse_append {scheme : Bytes} (hscheme : 0x3a ∉ scheme) (rest : Bytes) :
    Uri.parse (scheme ++ bytes "://" ++ rest) =
      { host := toLowerCopy (rest.takeWhile (· != 0x2f))
        path := (rest.dropWhile (· != 0x2f)).takeWhile (· != 0x3f)
        protocol := toLowerCopy scheme
        query := ((rest.dropWhile (· != 0x2f)).dropWhile (· != 0x3f)).tail } := by
  have hprotI : searchFrom (scheme ++ bytes "://" ++ rest) (bytes "://") 0 = scheme.length :=
    searchFrom_of_firstCut [] (FirstCut.of_not_mem hscheme (bytes "//") rest)
  have hprotocol : between (scheme ++ bytes "://" ++ rest) 0 scheme.length = scheme := by
    rw [List.append_assoc]
    exact between_append [] scheme _
  have hpathI : searchFrom (scheme ++ bytes "://" ++ rest) (bytes "/")
      (scheme ++ bytes "://").length =
        (scheme ++ bytes "://" ++ rest.takeWhile (· != 0x2f)).length :=
    searchFrom_byte (scheme ++ bytes "://") rest 0x2f
  -- the text is the scheme, the host, the path and what is left
  generalize hhost : rest.takeWhile (· != 0x2f) = host at hpathI ⊢
  generalize hbehind : rest.dropWhile (· != 0x2f) = behind
  obtain rfl : rest = host ++ behind := by
    rw [← hhost, ← hbehind, List.takeWhile_append_dropWhile]
  have hqueryI : searchFrom (scheme ++ bytes "://" ++ host ++ behind) (bytes "?")
      (scheme ++ bytes "://" ++ host).length =
        (scheme ++ bytes "://" ++ host ++ behind.takeWhile (· != 0x3f)).length :=
    searchFrom_byte (scheme ++ bytes "://" ++ host) behind 0x3f
  generalize hpath : behind.takeWhile (· != 0x3f) = path at hqueryI ⊢
  generalize hleft : behind.dropWhile (· != 0x3f) = left
  obtain rfl : behind = path ++ left := by
    rw [← hpath, ← hleft, List.takeWhile_append_dropWhile]
  have hbegin : (if scheme.length = (scheme ++ bytes "://" ++ (host ++ (path ++ left))).length
      then 0 else scheme.length + (bytes "://").length) = (scheme ++ bytes "://").length := by
    have hlength : (bytes "://").length = 3 := rfl
    rw [List.length_append, List.length_append, hlength, if_neg (by omega)]
  rw [Uri.parse, hprotI, hprotocol, hbegin, hpathI]
  simp only [← List.append_assoc] at hqueryI ⊢
  rw [hqueryI, between_next]
  have hhostText := between_append (scheme ++ bytes "://") host (path ++ left)
  have hpathText := between_append (scheme ++ bytes "://" ++ host) path left
  rw [← List.append_assoc] at hhostText
  rw [hhostText, hpathText]

/-! ### The parts of a URL -/

/-- The parts that a URL is written from: no colon in the scheme, neither a slash nor a question
mark in the authority, and a path that is empty or begins with a slash, without a question mark. -/
structure UrlParts where
  scheme : Bytes
  authority : Bytes
  path : Bytes
  query : Option Bytes
  scheme_colon : 0x3a ∉ scheme
  authority_slash : 0x2f ∉ authority
  authority_mark : 0x3f ∉ authority
  path_head : path = [] ∨ path.head? = some 0x2f
  path_mark : 0x3f ∉ path

namespace UrlParts

/-- The query with its question mark. -/
def queryText (parts : UrlParts) : Bytes :=
  match parts.query with
  | none => []
  | some query => bytes "?" ++ query

/-- The URL. -/
def text (parts : UrlParts) : Bytes :=
  parts.scheme ++ bytes "://" ++ (parts.authority ++ parts.path ++ parts.queryText)

/-- What the URL is to be read as. -/
def uri (parts : UrlParts) : Uri where
  host := toLowerCopy parts.authority
  path := parts.path
  protocol := toLowerCopy parts.scheme
  query := parts.query.getD []

/-- From a path on, the query is what follows the first question mark. -/
private theorem queryText_cut (parts : UrlParts) :
    (parts.path ++ parts.queryText).takeWhile (· != 0x3f) = parts.path ∧
      ((parts.path ++ parts.queryText).dropWhile (· != 0x3f)).tail = parts.query.getD [] := by
  have htake := takeWhile_bne_eq_self_iff.mpr parts.path_mark
  have hall := List.takeWhile_eq_self_iff.mp htake
  rw [queryText, List.takeWhile_append_of_pos hall, List.dropWhile_append_of_pos hall]
  cases parts.query with
  | none => exact ⟨List.append_nil _, rfl⟩
  | some query => exact ⟨List.append_nil _, rfl⟩

/-- A URL is read back if it has a path or no query. -/
theorem parse_text_iff (parts : UrlParts) :
    Uri.parse parts.text = parts.uri ↔ parts.path ≠ [] ∨ parts.query = none := by
  have hall := List.takeWhile_eq_self_iff.mp (takeWhile_bne_eq_self_iff.mpr parts.authority_slash)
  obtain ⟨hpath, hquery⟩ := parts.queryText_cut
  rw [text, Uri.parse_append parts.scheme_colon, List.append_assoc,
    List.takeWhile_append_of_pos hall, List.dropWhile_append_of_pos hall, uri]
  rcases parts.path_head with hempty | hhead
  · cases hoption : parts.query with
    | none =>
      refine iff_of_true ?_ (.inr rfl)
      rw [hempty, queryText, hoption, List.append_nil, List.takeWhile_nil, List.append_nil]
      rfl
    | some query =>
      -- the search for a slash passes the question mark, so that the host is too long
      refine iff_of_false ?_ (by simp [hempty])
      intro h
      have hlength := congrArg (fun uri ↦ uri.host.length) h
      have hlonger : (bytes "?" ++ query).takeWhile (· != 0x2f) =
          0x3f :: query.takeWhile (· != 0x2f) := rfl
      rw [hempty, queryText, hoption, List.nil_append, hlonger] at hlength
      simp only [toLowerCopy, List.length_map, List.length_append, List.length_cons] at hlength
      omega
  · obtain ⟨path, hslash⟩ := List.head?_eq_some_iff.mp hhead
    have htake : (parts.path ++ parts.queryText).takeWhile (· != 0x2f) = [] := by
      rw [hslash]
      rfl
    have hdrop : (parts.path ++ parts.queryText).dropWhile (· != 0x2f) =
        parts.path ++ parts.queryText := by
      rw [hslash]
      rfl
    refine iff_of_true ?_ (.inl (by simp [hslash]))
    rw [htake, hdrop, hpath, hquery, List.append_nil]

/-- An endpoint that is a host with a token. -/
private def tokenUrl : UrlParts where
  scheme := bytes "wss"
  authority := bytes "ws-api.kucoin.com"
  path := []
  query := some (bytes "token=a")
  scheme_colon := by decide +kernel
  authority_slash := by decide +kernel
  authority_mark := by decide +kernel
  path_head := .inl rfl
  path_mark := by decide

/-- Without a path, the token stays in the host. -/
theorem not_parse_text :
    ¬∀ parts : UrlParts, Uri.parse parts.text = parts.uri := by
  intro h
  exact absurd (h tokenUrl) (by decide +kernel)

end UrlParts

end KeepMyJournal.Common
