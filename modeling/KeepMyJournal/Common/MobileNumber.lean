import KeepMyJournal.Common.StringUtils

/-!
# Mobile numbers

`isValidMobileNumber`, `common/src/string_utils.cpp:110–138`, against the numbers it is meant to
accept.
-/

namespace KeepMyJournal.Common

open KeepMyJournal.Base

/-- The loop over the digits; a byte that is none clears the buffer. -/
def checkDigits (digits buffer : Bytes) : Bool × Bytes :=
  if digits.all isDigit then (true, buffer) else (false, [])

/-- `isValidMobileNumber`, with the buffer it leaves. -/
def isValidMobileNumber (number buffer : Bytes) : Bool × Bytes :=
  if number.length < 12 ∨ number.length > 13 then (false, buffer)
  else if number[0]? = some 0x2b then
    if number.length ≠ 13 then (false, buffer)
    else if number[1]? ≠ some 0x36 ∧ number[2]? ≠ some 0x33 then (false, buffer)
    else checkDigits (number.drop 3) number
  else if number[0]? = some 0x36 then
    if number.length ≠ 12 then (false, buffer)
    else if number[1]? ≠ some 0x33 then (false, buffer)
    else checkDigits (number.drop 2) (bytes "+" ++ number)
  else (false, buffer)

/-! ### What is accepted -/

/-- Ten decimal digits. -/
def TenDigits (digits : Bytes) : Prop := digits.length = 10 ∧ digits.all isDigit = true

/-- The number is written with the digits behind its country code. -/
def IsMobileNumber (number digits : Bytes) : Prop :=
  TenDigits digits ∧ (number = bytes "+63" ++ digits ∨ number = bytes "63" ++ digits)

/-- A plus, ten digits, and one of the two bytes of the country code between them. -/
def HalfCountryCode (number : Bytes) : Prop :=
  ∃ c d digits, number = 0x2b :: c :: d :: digits ∧ TenDigits digits ∧ ¬(c = 0x36 ↔ d = 0x33)

variable (buffer : Bytes)

theorem checkDigits_fst (digits : Bytes) :
    (checkDigits digits buffer).1 = digits.all isDigit := by
  rw [checkDigits]
  split
  · next h => exact h.symm
  · next h => exact (Bool.not_eq_true _ ▸ h).symm

theorem checkDigits_snd {digits : Bytes} (h : digits.all isDigit = true) :
    (checkDigits digits buffer).2 = buffer := by
  rw [checkDigits, if_pos h]

/-- With a plus, one byte of the country code is enough. -/
theorem isValidMobileNumber_plus (c d : UInt8) (digits : Bytes) :
    isValidMobileNumber (0x2b :: c :: d :: digits) buffer =
      if digits.length = 10 ∧ (c = 0x36 ∨ d = 0x33)
      then checkDigits digits (0x2b :: c :: d :: digits) else (false, buffer) := by
  unfold isValidMobileNumber
  simp only [List.length_cons, List.getElem?_cons_zero, List.getElem?_cons_succ, ne_eq,
    Option.some.injEq, List.drop_succ_cons, List.drop_zero, if_true]
  by_cases hlength : digits.length = 10
  · rw [if_neg (by omega), if_neg (by omega)]
    by_cases hcode : c = 0x36 ∨ d = 0x33
    · rw [if_neg (by tauto), if_pos ⟨hlength, hcode⟩]
    · rw [if_pos (by tauto), if_neg (by tauto)]
  · have hlong : ¬(digits.length = 10 ∧ (c = 0x36 ∨ d = 0x33)) := fun h ↦ hlength h.1
    rw [if_neg hlong]
    split
    · rfl
    · rw [if_pos (by omega)]

/-- Without a plus, the country code is compared. -/
theorem isValidMobileNumber_six (d : UInt8) (digits : Bytes) :
    isValidMobileNumber (0x36 :: d :: digits) buffer =
      if digits.length = 10 ∧ d = 0x33
      then checkDigits digits (bytes "+" ++ 0x36 :: d :: digits) else (false, buffer) := by
  have hplus : ¬(0x36 : UInt8) = 0x2b := by decide
  unfold isValidMobileNumber
  simp only [List.length_cons, List.getElem?_cons_zero, List.getElem?_cons_succ, ne_eq,
    Option.some.injEq, List.drop_succ_cons, List.drop_zero, if_true, if_neg hplus]
  by_cases hlength : digits.length = 10
  · rw [if_neg (by omega), if_neg (by omega)]
    by_cases hcode : d = 0x33
    · rw [if_neg (by tauto), if_pos ⟨hlength, hcode⟩]
    · rw [if_pos hcode, if_neg (by tauto)]
  · have hlong : ¬(digits.length = 10 ∧ d = 0x33) := fun h ↦ hlength h.1
    rw [if_neg hlong]
    split
    · rfl
    · rw [if_pos (by omega)]

/-- Any other number is refused. -/
theorem isValidMobileNumber_other {number : Bytes} (hplus : number[0]? ≠ some 0x2b)
    (hsix : number[0]? ≠ some 0x36) : isValidMobileNumber number buffer = (false, buffer) := by
  rw [isValidMobileNumber, if_neg hplus, if_neg hsix, ite_self]

theorem isValidMobileNumber_short {number : Bytes} (h : number.length < 12) :
    isValidMobileNumber number buffer = (false, buffer) := by
  rw [isValidMobileNumber, if_pos (.inl h)]

/-- The answer is right, and so is the buffer of a number that is accepted. -/
def MeetsNumberFormat (number buffer : Bytes) : Prop :=
  ((isValidMobileNumber number buffer).1 = true ↔ ∃ digits, IsMobileNumber number digits) ∧
    ∀ digits, IsMobileNumber number digits →
      (isValidMobileNumber number buffer).2 = bytes "+63" ++ digits

private theorem isMobileNumber_plus {c d : UInt8} {digits found : Bytes} :
    IsMobileNumber (0x2b :: c :: d :: digits) found ↔
      TenDigits digits ∧ c = 0x36 ∧ d = 0x33 ∧ found = digits := by
  have hplus : bytes "+63" = [0x2b, 0x36, 0x33] := rfl
  have hsix : bytes "63" = [0x36, 0x33] := rfl
  rw [IsMobileNumber, hplus, hsix]
  simp only [List.cons_append, List.nil_append, List.cons.injEq, true_and]
  constructor
  · rintro ⟨hten, ⟨rfl, rfl, rfl⟩ | ⟨h, -⟩⟩
    · exact ⟨hten, rfl, rfl, rfl⟩
    · exact absurd h (by decide)
  · rintro ⟨hten, rfl, rfl, rfl⟩
    exact ⟨hten, .inl ⟨rfl, rfl, rfl⟩⟩

private theorem isMobileNumber_six {d : UInt8} {digits found : Bytes} :
    IsMobileNumber (0x36 :: d :: digits) found ↔ TenDigits digits ∧ d = 0x33 ∧ found = digits := by
  have hplus : bytes "+63" = [0x2b, 0x36, 0x33] := rfl
  have hsix : bytes "63" = [0x36, 0x33] := rfl
  rw [IsMobileNumber, hplus, hsix]
  simp only [List.cons_append, List.nil_append, List.cons.injEq, true_and]
  constructor
  · rintro ⟨hten, ⟨h, -⟩ | ⟨rfl, rfl⟩⟩
    · exact absurd h (by decide)
    · exact ⟨hten, rfl, rfl⟩
  · rintro ⟨hten, rfl, rfl⟩
    exact ⟨hten, .inr ⟨rfl, rfl⟩⟩

/-- Three bytes behind a plus are read: the code asks for one byte of the country code, where the
format has both. -/
private theorem meetsNumberFormat_plus (c d : UInt8) (digits buffer : Bytes) :
    MeetsNumberFormat (0x2b :: c :: d :: digits) buffer ↔
      ¬(TenDigits digits ∧ ¬(c = 0x36 ↔ d = 0x33)) := by
  have hplus : bytes "+63" = [0x2b, 0x36, 0x33] := rfl
  have hverdict : (isValidMobileNumber (0x2b :: c :: d :: digits) buffer).1 = true ↔
      TenDigits digits ∧ (c = 0x36 ∨ d = 0x33) := by
    rw [isValidMobileNumber_plus, TenDigits]
    split
    · next h => rw [checkDigits_fst]; tauto
    · next h => simp; tauto
  have hbuffer : ∀ found, IsMobileNumber (0x2b :: c :: d :: digits) found →
      (isValidMobileNumber (0x2b :: c :: d :: digits) buffer).2 = bytes "+63" ++ found := by
    intro found hfound
    obtain ⟨⟨hlength, hall⟩, rfl, rfl, rfl⟩ := isMobileNumber_plus.mp hfound
    rw [isValidMobileNumber_plus, if_pos ⟨hlength, .inl rfl⟩, checkDigits_snd _ hall, hplus]
    rfl
  rw [MeetsNumberFormat, and_iff_left hbuffer, hverdict]
  simp only [isMobileNumber_plus, exists_and_left, exists_eq, and_true]
  tauto

private theorem meetsNumberFormat_six (d : UInt8) (digits buffer : Bytes) :
    MeetsNumberFormat (0x36 :: d :: digits) buffer := by
  have hverdict : (isValidMobileNumber (0x36 :: d :: digits) buffer).1 = true ↔
      TenDigits digits ∧ d = 0x33 := by
    rw [isValidMobileNumber_six, TenDigits]
    split
    · next h => rw [checkDigits_fst]; tauto
    · next h => simp; tauto
  refine ⟨?_, ?_⟩
  · rw [hverdict]
    simp only [isMobileNumber_six, exists_and_left, exists_eq, and_true]
  · intro found hfound
    obtain ⟨⟨hlength, hall⟩, rfl, rfl⟩ := isMobileNumber_six.mp hfound
    rw [isValidMobileNumber_six, if_pos ⟨hlength, rfl⟩, checkDigits_snd _ hall]
    rfl

private theorem isValidMobileNumber_of_ne {number : Bytes} (buffer : Bytes)
    (hplus : ∀ c d digits, number ≠ 0x2b :: c :: d :: digits)
    (hsix : ∀ d digits, number ≠ 0x36 :: d :: digits) :
    isValidMobileNumber number buffer = (false, buffer) := by
  match number with
  | [] | [_] | [_, _] => exact isValidMobileNumber_short buffer (by simp)
  | b :: c :: d :: digits =>
    apply isValidMobileNumber_other
    · rintro h
      exact hplus c d digits (by rw [Option.some.inj h])
    · rintro h
      exact hsix c (d :: digits) (by rw [Option.some.inj h])

/-- A number is answered correctly if and only if it is not a plus with ten digits behind one byte
of the country code and another byte. -/
theorem meetsNumberFormat_iff (number buffer : Bytes) :
    MeetsNumberFormat number buffer ↔ ¬HalfCountryCode number := by
  by_cases hplus : ∃ c d digits, number = 0x2b :: c :: d :: digits
  · obtain ⟨c, d, digits, rfl⟩ := hplus
    rw [meetsNumberFormat_plus, HalfCountryCode]
    apply not_congr
    constructor
    · intro h
      exact ⟨c, d, digits, rfl, h⟩
    · rintro ⟨c, d, digits, hnumber, h⟩
      cases hnumber
      exact h
  have hhalf : ¬HalfCountryCode number := fun ⟨c, d, digits, h, _⟩ ↦ hplus ⟨c, d, digits, h⟩
  refine iff_of_true ?_ hhalf
  by_cases hsix : ∃ d digits, number = 0x36 :: d :: digits
  · obtain ⟨d, digits, rfl⟩ := hsix
    exact meetsNumberFormat_six d digits buffer
  · have hnone : ∀ digits, ¬IsMobileNumber number digits := by
      rintro digits ⟨-, h | h⟩
      · exact hplus ⟨0x36, 0x33, digits, h⟩
      · exact hsix ⟨0x33, digits, h⟩
    have hverdict := isValidMobileNumber_of_ne buffer
      (fun c d digits h ↦ hplus ⟨c, d, digits, h⟩) (fun d digits h ↦ hsix ⟨d, digits, h⟩)
    refine ⟨?_, fun digits h ↦ absurd h (hnone digits)⟩
    rw [hverdict]
    exact iff_of_false Bool.false_ne_true fun ⟨digits, h⟩ ↦ hnone digits h

/-- A plus, the first byte of the country code, a wrong one and ten digits: the number is
accepted. -/
theorem not_meetsNumberFormat_half : ¬∀ number buffer, MeetsNumberFormat number buffer := by
  intro h
  have hnumber : bytes "+691234567890" = 0x2b :: 0x36 :: 0x39 :: bytes "1234567890" := rfl
  obtain ⟨digits, hdigits⟩ := (h (bytes "+691234567890") []).1.mp rfl
  rw [hnumber, isMobileNumber_plus] at hdigits
  exact absurd hdigits.2.2.1 (by decide)

end KeepMyJournal.Common
