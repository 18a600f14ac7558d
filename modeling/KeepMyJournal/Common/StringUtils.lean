import KeepMyJournal.Base.Bytes
import KeepMyJournal.Common.Enumerations
import KeepMyJournal.Common.Json
import Mathlib.Data.List.DropRight
import Mathlib.Data.List.TakeWhile

/-!
# String utilities

`common/src/string_utils.cpp`, with the members of `boost::string_view` and the Boost string
algorithms that it and the HTTP server use.
-/

namespace KeepMyJournal.Common

open KeepMyJournal.Base

/-! ### Searching -/

/-- The position of the first occurrence of `s` in `str`, counted from `pos`. -/
def findFrom (s : Bytes) : Bytes → Nat → Option Nat
  | [], pos => if s.isEmpty then some pos else none
  | b :: str, pos => if s.isPrefixOf (b :: str) then some pos else findFrom s str (pos + 1)

/-- `str.find(s, pos)`; `none` is `npos`. -/
def find (str s : Bytes) (pos : Nat) : Option Nat :=
  if str.length < pos then none else findFrom s (str.drop pos) pos

/-- `str.find_first_of(b, pos)` for one byte. -/
def findFirstOf (str : Bytes) (b : UInt8) (pos : Nat) : Option Nat := find str [b] pos

/-- `boost::erase_first`. -/
def eraseFirst (str s : Bytes) : Bytes :=
  match find str s 0 with
  | none => str
  | some index => str.take index ++ str.drop (index + s.length)

/-- `boost::erase_last`: the last occurrence is the first one from the other end. -/
def eraseLast (str s : Bytes) : Bytes := (eraseFirst str.reverse s.reverse).reverse

/-! ### Splitting -/

/-- The loop of `splitStringView`; a non-empty delimiter is found at most once for each byte,
so the first argument bounds the rounds. -/
def splitLoop (str delim : Bytes) : Nat → Nat → List Bytes
  | 0, _ => []
  | rounds + 1, fromPos =>
    match find str delim fromPos with
    | none => if fromPos < str.length then [str.drop fromPos] else []
    | some index =>
      (str.drop fromPos).take (index - fromPos) ::
        splitLoop str delim rounds (index + delim.length)

/-- `splitStringView`, for a non-empty delimiter. -/
def splitStringView (str delim : Bytes) : List Bytes :=
  match find str delim 0 with
  | none => [str]
  | some _ => splitLoop str delim (str.length + 1) 0

/-! ### Conversions -/

/-- `trimCopy`, which trims a copy and returns its argument. -/
def trimCopy (s : Bytes) : Bytes := s

/-- The value `decodeUrl` gives to a hexadecimal digit; any other byte counts as zero. -/
def hexValue (c : UInt8) : UInt8 :=
  if 0x30 ≤ c ∧ c ≤ 0x39 then c - 0x30
  else if 0x41 ≤ c ∧ c ≤ 0x46 then c - 0x41 + 10
  else if 0x61 ≤ c ∧ c ≤ 0x66 then c - 0x61 + 10
  else 0

/-- `decodeUrl`. It reads the two bytes after every `%` without a test; `past` are the bytes
that follow the string in memory. -/
def decodeUrl (past : Nat → UInt8) : Bytes → Bytes
  | [] => []
  | ch :: rest =>
    if ch ≠ 0x25 then ch :: decodeUrl past rest
    else
      match rest with
      | c1 :: c2 :: rest => (hexValue c1 * 16 + hexValue c2) :: decodeUrl past rest
      | [c1] => [hexValue c1 * 16 + hexValue (past 0)]
      | [] => [hexValue (past 0) * 16 + hexValue (past 1)]

/-- Any other byte is read as it is. -/
theorem decodeUrl_cons (past : Nat → UInt8) {ch : UInt8} (h : ch ≠ 0x25) (rest : Bytes) :
    decodeUrl past (ch :: rest) = ch :: decodeUrl past rest := by
  rw [decodeUrl.eq_def]
  dsimp only
  rw [if_pos h]

/-- `%` and two bytes are read as one byte. -/
theorem decodeUrl_escape (past : Nat → UInt8) (c1 c2 : UInt8) (rest : Bytes) :
    decodeUrl past (0x25 :: c1 :: c2 :: rest) =
      (hexValue c1 * 16 + hexValue c2) :: decodeUrl past rest := by
  rw [decodeUrl.eq_def]
  dsimp only
  rw [if_neg (by simp)]

/-- `std::isspace` under the "C" locale. -/
def isSpace (b : UInt8) : Bool := b == 0x20 || (0x09 ≤ b && b ≤ 0x0d)

/-- `ltrim`. -/
def ltrim (s : Bytes) : Bytes := s.dropWhile isSpace

/-- `rtrim`. -/
def rtrim (s : Bytes) : Bytes := s.rdropWhile isSpace

/-- `trim`. -/
def trim (s : Bytes) : Bytes := rtrim (ltrim s)

/-- `std::isdigit`. -/
def isDigit (b : UInt8) : Bool := 0x30 ≤ b && b ≤ 0x39

/-- What `std::stoi` and `std::stoll` read: space, a sign, digits; the rest is ignored. -/
def stringToInteger (str : Bytes) : Except StdException Int :=
  let str := str.dropWhile isSpace
  let (negative, str) :=
    match str with
    | 0x2d :: rest => (true, rest)
    | 0x2b :: rest => (false, rest)
    | _ => (false, str)
  let digits := str.takeWhile isDigit
  if digits.isEmpty then .error .invalidArgument
  else
    let value : Int := digits.foldl (fun n b ↦ n * 10 + (b - 0x30).toNat) 0
    .ok (if negative then -value else value)

/-- `std::stoll`. -/
def stoll (str : Bytes) : Except StdException Int64 := do
  let value ← stringToInteger str
  if -2 ^ 63 ≤ value ∧ value < 2 ^ 63 then pure (Int64.ofInt value) else throw .outOfRange

/-- `std::stoi`. -/
def stoi (str : Bytes) : Except StdException Int32 := do
  let value ← stringToInteger str
  if -2 ^ 31 ≤ value ∧ value < 2 ^ 31 then pure (Int32.ofInt value) else throw .outOfRange

/-- `exchangesToString`. -/
def exchangesToString : Exchange → Bytes
  | .binance => bytes "binance"
  | .kucoin => bytes "kucoin"
  | .okex => bytes "okex"
  | .total => bytes "unknown"

/-- `stringToExchange`. -/
def stringToExchange (exchangeName : Bytes) : Exchange :=
  if exchangeName = bytes "binance" then .binance
  else if exchangeName = bytes "kucoin" then .kucoin
  else if exchangeName = bytes "okex" then .okex
  else .total

/-- `tradeTypeToString`. -/
def tradeTypeToString : TradeType → Bytes
  | .futures => bytes "futures"
  | .spot => bytes "spot"
  | .swap => bytes "swap"
  | .total => []

/-- `stringToTradeType`. -/
def stringToTradeType (str : Bytes) : TradeType :=
  if str = bytes "futures" ∨ str = bytes "future" then .futures
  else if str = bytes "spot" then .spot
  else if str = bytes "swap" then .swap
  else .total

/-- `stringToPriceDirection`. -/
def stringToPriceDirection (str : Bytes) : PriceDirection :=
  if str = bytes "up" then .up else if str = bytes "down" then .down else .invalid

/-- `stringToDurationUnit`. -/
def stringToDurationUnit (str : Bytes) : DurationUnit :=
  let durationStr := toLowerCopy str
  if durationStr = bytes "minutes" ∨ durationStr = bytes "minute" then .minutes
  else if durationStr = bytes "seconds" ∨ durationStr = bytes "second" then .seconds
  else if durationStr = bytes "hours" ∨ durationStr = bytes "hour" then .hours
  else if durationStr = bytes "days" ∨ durationStr = bytes "day" then .days
  else if durationStr = bytes "weeks" ∨ durationStr = bytes "week" then .weeks
  else .invalid

/-! ### Erasing at either end -/

private theorem findFrom_append (s rest : Bytes) (pos : Nat) :
    findFrom s (s ++ rest) pos = some pos := by
  have hpre : s.isPrefixOf (s ++ rest) = true :=
    List.isPrefixOf_iff_prefix.mpr (List.prefix_append s rest)
  cases h : s ++ rest with
  | nil =>
    rw [findFrom, (List.append_eq_nil_iff.mp h).1]
    rfl
  | cons b str =>
    rw [h] at hpre
    rw [findFrom, if_pos hpre]

/-- Erasing the first occurrence of what a string starts with leaves the rest. -/
theorem eraseFirst_append (s rest : Bytes) : eraseFirst (s ++ rest) s = rest := by
  rw [eraseFirst, find, if_neg (Nat.not_lt_zero _), List.drop_zero, findFrom_append]
  simp

/-- Erasing the last occurrence of what a string ends with leaves what stands before. -/
theorem eraseLast_append (s rest : Bytes) : eraseLast (rest ++ s) s = rest := by
  rw [eraseLast, List.reverse_append, eraseFirst_append, List.reverse_reverse]

end KeepMyJournal.Common
