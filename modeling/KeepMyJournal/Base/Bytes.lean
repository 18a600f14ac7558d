import Mathlib.Init

/-!
# Byte strings

The contents of a `std::string` as the list of its bytes, and the ASCII case functions the
repository takes from `<cctype>` and Boost under the "C" locale.
-/

namespace KeepMyJournal.Base

/-- A byte string of any length; no encoding is implied. -/
abbrev Bytes := List UInt8

/-- The bytes of a string literal. -/
def bytes (s : String) : Bytes := s.toByteArray.data.toList

/-- The bytes of a string are those of its characters. -/
theorem bytes_eq_flatMap (s : String) : bytes s = s.toList.flatMap String.utf8EncodeChar := by
  have hs : s.toByteArray = (s.toList.flatMap String.utf8EncodeChar).toByteArray := by
    rw [← List.utf8Encode, ← String.toByteArray_ofList, String.ofList_toList]
  rw [bytes, hs]
  simp

/-- The bytes of ASCII characters are ASCII. -/
theorem forall_mem_bytes_le {s : String} (h : ∀ c ∈ s.toList, c.toNat ≤ 0x7f) :
    ∀ b ∈ bytes s, b ≤ 0x7f := by
  intro b hb
  rw [bytes_eq_flatMap] at hb
  obtain ⟨c, hc, hb⟩ := List.mem_flatMap.mp hb
  have hascii : c.val.toNat ≤ 0x7f := h c hc
  rw [String.utf8EncodeChar, if_pos hascii, List.mem_singleton] at hb
  rw [hb, UInt8.le_iff_toNat_le, UInt8.toNat_ofNat_of_lt' (Nat.lt_of_le_of_lt hascii (by decide))]
  exact hascii

/-- `std::tolower` on one byte. -/
def toLower (b : UInt8) : UInt8 := if 65 ≤ b ∧ b ≤ 90 then b + 32 else b

/-- `std::toupper` on one byte. -/
def toUpper (b : UInt8) : UInt8 := if 97 ≤ b ∧ b ≤ 122 then b - 32 else b

/-- `boost::to_lower_copy`. -/
def toLowerCopy (s : Bytes) : Bytes := s.map toLower

/-- `boost::to_upper_copy`. -/
def toUpperCopy (s : Bytes) : Bytes := s.map toUpper

end KeepMyJournal.Base
