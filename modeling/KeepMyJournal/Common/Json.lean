import KeepMyJournal.Base.Bytes
import Mathlib.Algebra.Order.Ring.Rat

/-!
# JSON values

The part of `nlohmann::json` the repository uses. `json::parse` is a parameter of the functions
that call it; what it yields is a value of the type below, whose accessors throw as the
library's do. Floating-point numbers are exact rationals. The text `dump` writes is left to the
library, but not the condition under which it throws: a string that is not UTF-8.
-/

namespace KeepMyJournal.Common

open KeepMyJournal.Base

/-- The classes derived from `std::exception` that the modelled code throws. -/
inductive StdException where
  | parseError
  | typeError
  | outOfRange
  | invalidArgument
  | runtimeError (what : Bytes)
  deriving DecidableEq, Repr

/-- `nlohmann::json`; an object lists its members by key. -/
inductive Json where
  | null
  | boolean (b : Bool)
  | numberInteger (n : Int64)
  | numberUnsigned (n : UInt64)
  | numberFloat (x : ℚ)
  | string (s : Bytes)
  | array (items : List Json)
  | object (members : List (Bytes × Json))

/-- `json::parse` on the bytes of a text. -/
abbrev JsonParse := Bytes → Except StdException Json

namespace Json

/-- `json::object_t`. -/
abbrev Object := List (Bytes × Json)

/-- `find` on an object. -/
def Object.find (o : Object) (key : Bytes) : Option Json := o.lookup key

/-- `at` on an object. -/
def Object.at (o : Object) (key : Bytes) : Except StdException Json :=
  match o.find key with
  | some value => .ok value
  | none => .error .outOfRange

/-- `get<json::object_t>()`. -/
def getObject : Json → Except StdException Object
  | object members => .ok members
  | _ => .error .typeError

/-- `get<json::array_t>()`. -/
def getArray : Json → Except StdException (List Json)
  | array items => .ok items
  | _ => .error .typeError

/-- `get<json::string_t>()`. -/
def getString : Json → Except StdException Bytes
  | string s => .ok s
  | _ => .error .typeError

/-- `get<json::boolean_t>()`. -/
def getBoolean : Json → Except StdException Bool
  | boolean b => .ok b
  | _ => .error .typeError

/-- The cast of a `double` to `json::number_integer_t`, towards zero. -/
def truncate (x : ℚ) : Int64 := Int64.ofInt (x.num.tdiv x.den)

/-- `get<json::number_integer_t>()`. -/
def getNumberInteger : Json → Except StdException Int64
  | numberInteger n => .ok n
  | numberUnsigned n => .ok n.toInt64
  | numberFloat x => .ok (truncate x)
  | _ => .error .typeError

/-- `get<json::number_float_t>()`. -/
def getNumberFloat : Json → Except StdException ℚ
  | numberInteger n => .ok n.toInt
  | numberUnsigned n => .ok n.toNat
  | numberFloat x => .ok x
  | _ => .error .typeError

/-- `is_number`. -/
def isNumber : Json → Bool
  | numberInteger _ | numberUnsigned _ | numberFloat _ => true
  | _ => false

/-- Only a string is read as text. -/
theorem getString_eq_ok_iff {value : Json} {s : Bytes} :
    value.getString = .ok s ↔ value = .string s := by
  cases value <;> simp [getString]

/-- Only a boolean is read as one. -/
theorem getBoolean_eq_ok_iff {value : Json} {b : Bool} :
    value.getBoolean = .ok b ↔ value = .boolean b := by
  cases value <;> simp [getBoolean]

/-- Only an array is read as one. -/
theorem getArray_eq_ok_iff {value : Json} {items : List Json} :
    value.getArray = .ok items ↔ value = .array items := by
  cases value <;> simp [getArray]

/-- Only an object is read as one. -/
theorem getObject_eq_ok_iff {value : Json} {o : Object} :
    value.getObject = .ok o ↔ value = .object o := by
  cases value <;> simp [getObject]

/-- `at` returns what `find` finds. -/
theorem Object.at_eq_ok_iff {o : Object} {key : Bytes} {value : Json} :
    o.at key = .ok value ↔ o.find key = some value := by
  unfold Object.at
  cases o.find key <;> simp

/-- The member is this text. -/
def Object.HasText (o : Object) (key text : Bytes) : Prop := o.find key = some (.string text)

/-- The member is a number, which is read as the integer `n`. -/
def Object.HasInteger (o : Object) (key : Bytes) (n : Int64) : Prop :=
  ∃ value, o.find key = some value ∧ value.getNumberInteger = .ok n

/-! ### dump -/

/-- A continuation byte of UTF-8. -/
def isTail (b : UInt8) : Bool := 0x80 ≤ b && b ≤ 0xbf

/-- The strings `dump` accepts: well-formed UTF-8. -/
def isUtf8 : Bytes → Bool
  | [] => true
  | a :: rest =>
    if a ≤ 0x7f then isUtf8 rest
    else
      match rest with
      | [] => false
      | b :: rest =>
        if 0xc2 ≤ a && a ≤ 0xdf then isTail b && isUtf8 rest
        else
          match rest with
          | [] => false
          | c :: rest =>
            if 0xe0 ≤ a && a ≤ 0xef then
              isTail b && isTail c && (a != 0xe0 || 0xa0 ≤ b) && (a != 0xed || b ≤ 0x9f) &&
                isUtf8 rest
            else
              match rest with
              | [] => false
              | d :: rest =>
                0xf0 ≤ a && a ≤ 0xf4 && isTail b && isTail c && isTail d &&
                  (a != 0xf0 || 0x90 ≤ b) && (a != 0xf4 || b ≤ 0x8f) && isUtf8 rest

mutual

/-- `dump` returns on the value; otherwise it throws a type error. -/
def dumps : Json → Bool
  | string s => isUtf8 s
  | array items => dumpsItems items
  | object members => dumpsMembers members
  | _ => true

/-- `dump` returns on every item of an array. -/
def dumpsItems : List Json → Bool
  | [] => true
  | item :: items => dumps item && dumpsItems items

/-- `dump` returns on every key and value of an object. -/
def dumpsMembers : List (Bytes × Json) → Bool
  | [] => true
  | (key, value) :: members => isUtf8 key && dumps value && dumpsMembers members

end

/-- The items of an array are written if each of them is. -/
theorem dumpsItems_eq_all (items : List Json) : dumpsItems items = items.all dumps := by
  induction items with
  | nil => rfl
  | cons item items ih => rw [dumpsItems, List.all_cons, ih]

/-- A member of an object that is written is itself written. -/
theorem dumps_of_find {o : Object} {key : Bytes} {value : Json} (ho : (object o).dumps = true)
    (h : Object.find o key = some value) : value.dumps = true := by
  change dumpsMembers o = true at ho
  change List.lookup key o = some value at h
  induction o with
  | nil => cases h
  | cons member rest ih =>
    obtain ⟨k, v⟩ := member
    simp only [dumpsMembers, Bool.and_eq_true] at ho
    rw [List.lookup_cons] at h
    split at h
    · rw [← Option.some.inj h]
      exact ho.1.2
    · exact ih ho.2 h

/-- ASCII is well-formed UTF-8. -/
theorem isUtf8_of_forall_le {s : Bytes} (h : ∀ b ∈ s, b ≤ 0x7f) : isUtf8 s = true := by
  induction s with
  | nil => rfl
  | cons b rest ih =>
    rw [List.forall_mem_cons] at h
    rw [isUtf8.eq_def]
    dsimp only
    rw [if_pos h.1]
    exact ih h.2

/-- Well-formed UTF-8 can be joined. -/
theorem isUtf8_append {a b : Bytes} (ha : isUtf8 a = true) (hb : isUtf8 b = true) :
    isUtf8 (a ++ b) = true := by
  fun_induction isUtf8 a with
  | case1 => exact hb
  | case2 a rest hascii ih =>
    rw [List.cons_append, isUtf8.eq_def]
    dsimp only
    rw [if_pos hascii]
    exact ih ha
  | case3 | case5 | case7 => cases ha
  | case4 a hascii c rest htwo ih =>
    rw [Bool.and_eq_true] at ha
    rw [List.cons_append, List.cons_append, isUtf8.eq_def]
    dsimp only
    rw [if_neg hascii, if_pos htwo, ha.1, ih ha.2]
    rfl
  | case6 a hascii c htwo d rest hthree ih =>
    rw [Bool.and_eq_true] at ha
    rw [List.cons_append, List.cons_append, List.cons_append, isUtf8.eq_def]
    dsimp only
    rw [if_neg hascii, if_neg htwo, if_pos hthree, ha.1, ih ha.2]
    rfl
  | case8 a hascii c htwo d hthree e rest ih =>
    rw [Bool.and_eq_true] at ha
    rw [List.cons_append, List.cons_append, List.cons_append, List.cons_append,
      isUtf8.eq_def]
    dsimp only
    rw [if_neg hascii, if_neg htwo, if_neg hthree, ha.1, ih ha.2]
    rfl

/-- Pieces of UTF-8 can be joined by a separator. -/
theorem isUtf8_intersperse {separator : Bytes} (hseparator : isUtf8 separator = true)
    {pieces : List Bytes} (h : ∀ piece ∈ pieces, isUtf8 piece = true) :
    isUtf8 (pieces.intersperse separator).flatten = true := by
  induction pieces with
  | nil => rfl
  | cons piece rest ih =>
    have hpiece := h piece List.mem_cons_self
    have hrest := ih fun other hother ↦ h other (List.mem_cons_of_mem _ hother)
    cases rest with
    | nil =>
      rw [List.intersperse_singleton, List.flatten_singleton]
      exact hpiece
    | cons next rest =>
      rw [List.intersperse_cons_cons, List.flatten_cons, List.flatten_cons]
      exact isUtf8_append hpiece (isUtf8_append hseparator hrest)

end Json

end KeepMyJournal.Common
