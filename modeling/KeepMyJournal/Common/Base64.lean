import KeepMyJournal.Base.BitGroups
import KeepMyJournal.Base.Lists
import KeepMyJournal.Common.CryptoUtils
import KeepMyJournal.Common.StringUtils
import Mathlib.Data.List.Nodup

/-!
# Base64 against its specification

`base64Decode` and the other overload of `base64Encode`, `common/src/crypto_utils.cpp:48–88`, and
the text of RFC 4648 by groups of three bytes. The 32-bit accumulators of both directions overflow
on long inputs; what is read out of them are the bits that have not come out yet.
-/

namespace KeepMyJournal.Common

open KeepMyJournal.Base

/-! ### The code -/

/-- `base64Encode` of a `std::string`, which is copied under an `int` index; to step that index
past `2 ^ 31 - 1` is undefined. -/
def base64EncodeString (bindata : Bytes) : Option Bytes := do
  let temp ← (List.range bindata.length).mapM fun i ↦
    if i + 1 < 2 ^ 31 then bindata[i]? else none
  pure (base64Encode temp)

/-- `reverse_table`. -/
def reverseTable : List UInt8 :=
  [64, 64, 64, 64, 64, 64, 64, 64, 64, 64, 64, 64, 64, 64, 64, 64,
    64, 64, 64, 64, 64, 64, 64, 64, 64, 64, 64, 64, 64, 64, 64, 64,
    64, 64, 64, 64, 64, 64, 64, 64, 64, 64, 64, 62, 64, 64, 64, 63,
    52, 53, 54, 55, 56, 57, 58, 59, 60, 61, 64, 64, 64, 64, 64, 64,
    64, 0, 1, 2, 3, 4, 5, 6, 7, 8, 9, 10, 11, 12, 13, 14,
    15, 16, 17, 18, 19, 20, 21, 22, 23, 24, 25, 64, 64, 64, 64, 64,
    64, 26, 27, 28, 29, 30, 31, 32, 33, 34, 35, 36, 37, 38, 39, 40,
    41, 42, 43, 44, 45, 46, 47, 48, 49, 50, 51, 64, 64, 64, 64, 64]

/-- What the decoder passes over: white space and padding. -/
def isSkipped (c : UInt8) : Bool := isSpace c || c == 0x3d

/-- The loop of `base64Decode`. A byte above 127 is negative as a `char`; `std::isspace` is not
defined on it, and where that returns the byte is refused. -/
def decodeLoop (accumulator : UInt32) (bitsCollected : Nat) (retVal : Bytes) :
    Bytes → Except StdException Bytes
  | [] => .ok retVal
  | c :: rest =>
    if isSkipped c then decodeLoop accumulator bitsCollected retVal rest
    else if 127 < c || 63 < reverseTable.getD c.toNat 64 then .error .invalidArgument
    else
      let accumulator := (accumulator <<< 6) ||| (reverseTable.getD c.toNat 64).toUInt32
      let bitsCollected := bitsCollected + 6
      if 8 ≤ bitsCollected then
        let bitsCollected := bitsCollected - 8
        decodeLoop accumulator bitsCollected
          (retVal ++ [((accumulator >>> bitsCollected.toUInt32) &&& 0xff).toUInt8]) rest
      else decodeLoop accumulator bitsCollected retVal rest

/-- `base64Decode`. -/
def base64Decode (ascData : Bytes) : Except StdException Bytes := decodeLoop 0 0 [] ascData

/-! ### The specification -/

/-- The letter of a number below 64. -/
def letter (n : Nat) : UInt8 := b64Table.getD n 0

/-- The text of RFC 4648, §4: a group of 24 bits is four letters, and a last group that is shorter
is filled with zero bits and its text with `=`. -/
def rfc4648 : Bytes → Bytes
  | [] => []
  | [a] =>
    let group := a.toNat * 2 ^ 16
    [letter (group / 2 ^ 18), letter (group / 2 ^ 12 % 64), 0x3d, 0x3d]
  | [a, b] =>
    let group := a.toNat * 2 ^ 16 + b.toNat * 2 ^ 8
    [letter (group / 2 ^ 18), letter (group / 2 ^ 12 % 64), letter (group / 2 ^ 6 % 64), 0x3d]
  | a :: b :: c :: rest =>
    let group := a.toNat * 2 ^ 16 + b.toNat * 2 ^ 8 + c.toNat
    [letter (group / 2 ^ 18), letter (group / 2 ^ 12 % 64), letter (group / 2 ^ 6 % 64),
      letter (group % 64)] ++ rfc4648 rest

/-- The bits of a byte string. -/
def byteBits (data : Bytes) : List Bool := bitsOfAll 8 (data.map UInt8.toNat)

/-- The text spells the bytes: its letters carry the bits of the bytes and fewer than six zero
bits behind them, and it is filled up to a multiple of four. -/
def Spells (data text : Bytes) : Prop :=
  ∃ digits fill, text = digits.map letter ++ List.replicate ((4 - digits.length % 4) % 4) 0x3d ∧
    bitsOfAll 6 digits = byteBits data ++ List.replicate fill false ∧ fill < 6 ∧
    ∀ digit ∈ digits, digit < 2 ^ 6

/-- No bytes are spelled in two ways. -/
theorem Spells.unique {data text text' : Bytes} (h : Spells data text) (h' : Spells data text') :
    text = text' := by
  obtain ⟨digits, fill, rfl, hbits, hfill, hdigits⟩ := h
  obtain ⟨digits', fill', rfl, hbits', hfill', hdigits'⟩ := h'
  have hlength := congrArg List.length hbits
  have hlength' := congrArg List.length hbits'
  rw [length_bitsOfAll, List.length_append, List.length_replicate] at hlength hlength'
  have hsame : digits.length = digits'.length := by omega
  obtain rfl : fill = fill' := by omega
  rw [bitsOfAll_inj hdigits hdigits' hsame (hbits.trans hbits'.symm)]

@[simp] theorem byteBits_nil : byteBits [] = [] := rfl

theorem byteBits_cons (a : UInt8) (data : Bytes) :
    byteBits (a :: data) = bitsOf 8 a.toNat ++ byteBits data := rfl

@[simp] theorem length_byteBits (data : Bytes) : (byteBits data).length = 8 * data.length := by
  rw [byteBits, length_bitsOfAll, List.length_map]

/-- A byte string has the bits of its own only. -/
theorem toNat_lt_of_mem {data : Bytes} : ∀ n ∈ data.map UInt8.toNat, n < 2 ^ 8 := by
  intro n hn
  obtain ⟨b, -, rfl⟩ := List.mem_map.mp hn
  exact b.toNat_lt

theorem Spells.length {data text : Bytes} (h : Spells data text) :
    text.length = 4 * ((data.length + 2) / 3) := by
  obtain ⟨digits, fill, rfl, hbits, hfill, -⟩ := h
  have hlength := congrArg List.length hbits
  rw [length_bitsOfAll, List.length_append, List.length_replicate, length_byteBits] at hlength
  rw [List.length_append, List.length_map, List.length_replicate]
  omega

/-- Four letters carry the bits of three bytes. -/
private theorem bitsOfAll_group (a b c : UInt8) :
    let group := a.toNat * 2 ^ 16 + b.toNat * 2 ^ 8 + c.toNat
    bitsOfAll 6 [group / 2 ^ 18, group / 2 ^ 12 % 64, group / 2 ^ 6 % 64, group % 64] =
      byteBits [a, b, c] := by
  intro group
  have hb := b.toNat_lt
  have hc := c.toNat_lt
  calc
    _ = ((bitsOf 6 (group / 2 ^ 18) ++ bitsOf 6 (group / 2 ^ 12 % 64)) ++
        bitsOf 6 (group / 2 ^ 6 % 64)) ++ bitsOf 6 (group % 64) := by
      simp only [bitsOfAll_cons, bitsOfAll_nil, List.append_nil, List.append_assoc]
    _ = bitsOf (6 + 6 + 6 + 6) (((group / 2 ^ 18 * 2 ^ 6 + group / 2 ^ 12 % 64) * 2 ^ 6 +
        group / 2 ^ 6 % 64) * 2 ^ 6 + group % 64) := by
      rw [bitsOf_mul_add (6 + 6 + 6) 6 _ (by omega), bitsOf_mul_add (6 + 6) 6 _ (by omega),
        bitsOf_mul_add 6 6 _ (by omega)]
    _ = bitsOf (8 + 8 + 8) ((a.toNat * 2 ^ 8 + b.toNat) * 2 ^ 8 + c.toNat) := by
      congr 1
      omega
    _ = (bitsOf 8 a.toNat ++ bitsOf 8 b.toNat) ++ bitsOf 8 c.toNat := by
      rw [bitsOf_mul_add (8 + 8) 8 _ hc, bitsOf_mul_add 8 8 _ hb]
    _ = byteBits [a, b, c] := by
      simp only [byteBits_cons, byteBits_nil, List.append_nil, List.append_assoc]

/-- The text by groups of three spells its bytes. -/
theorem spells_rfc4648 (data : Bytes) : Spells data (rfc4648 data) := by
  induction data using rfc4648.induct with
  | case1 => exact ⟨[], 0, rfl, rfl, by omega, by simp⟩
  | case2 a =>
    have ha := a.toNat_lt
    let group := a.toNat * 2 ^ 16
    refine ⟨[group / 2 ^ 18, group / 2 ^ 12 % 64], 4, rfl, ?_, by omega, ?_⟩
    · calc
        _ = bitsOf 6 (group / 2 ^ 18) ++ bitsOf 6 (group / 2 ^ 12 % 64) := by
          simp only [bitsOfAll_cons, bitsOfAll_nil, List.append_nil]
        _ = bitsOf (6 + 6) (group / 2 ^ 18 * 2 ^ 6 + group / 2 ^ 12 % 64) :=
          (bitsOf_mul_add 6 6 _ (by omega)).symm
        _ = bitsOf (8 + 4) (a.toNat * 2 ^ 4 + 0) := by
          congr 1
          omega
        _ = bitsOf 8 a.toNat ++ bitsOf 4 0 := bitsOf_mul_add 8 4 _ (by omega)
        _ = byteBits [a] ++ List.replicate 4 false := by
          rw [byteBits_cons, byteBits_nil, List.append_nil, bitsOf_zero]
    · intro digit hdigit
      simp only [List.mem_cons, List.not_mem_nil, or_false] at hdigit
      omega
  | case3 a b =>
    have ha := a.toNat_lt
    have hb := b.toNat_lt
    let group := a.toNat * 2 ^ 16 + b.toNat * 2 ^ 8
    refine ⟨[group / 2 ^ 18, group / 2 ^ 12 % 64, group / 2 ^ 6 % 64], 2, rfl, ?_, by omega, ?_⟩
    · calc
        _ = (bitsOf 6 (group / 2 ^ 18) ++ bitsOf 6 (group / 2 ^ 12 % 64)) ++
            bitsOf 6 (group / 2 ^ 6 % 64) := by
          simp only [bitsOfAll_cons, bitsOfAll_nil, List.append_nil, List.append_assoc]
        _ = bitsOf (6 + 6 + 6) ((group / 2 ^ 18 * 2 ^ 6 + group / 2 ^ 12 % 64) * 2 ^ 6 +
            group / 2 ^ 6 % 64) := by
          rw [bitsOf_mul_add (6 + 6) 6 _ (by omega), bitsOf_mul_add 6 6 _ (by omega)]
        _ = bitsOf (8 + 8 + 2) ((a.toNat * 2 ^ 8 + b.toNat) * 2 ^ 2 + 0) := by
          congr 1
          omega
        _ = (bitsOf 8 a.toNat ++ bitsOf 8 b.toNat) ++ bitsOf 2 0 := by
          rw [bitsOf_mul_add (8 + 8) 2 _ (by omega), bitsOf_mul_add 8 8 _ hb]
        _ = byteBits [a, b] ++ List.replicate 2 false := by
          rw [byteBits_cons, byteBits_cons, byteBits_nil, List.append_nil, bitsOf_zero]
    · intro digit hdigit
      simp only [List.mem_cons, List.not_mem_nil, or_false] at hdigit
      omega
  | case4 a b c rest ih =>
    have ha := a.toNat_lt
    have hb := b.toNat_lt
    have hc := c.toNat_lt
    let group := a.toNat * 2 ^ 16 + b.toNat * 2 ^ 8 + c.toNat
    obtain ⟨digits, fill, htext, hbits, hfill, hdigits⟩ := ih
    refine ⟨[group / 2 ^ 18, group / 2 ^ 12 % 64, group / 2 ^ 6 % 64, group % 64] ++ digits, fill,
      ?_, ?_, hfill, ?_⟩
    · rw [rfc4648, htext, List.map_append, List.length_append, List.append_assoc]
      simp [group]
    · have hgroup : bitsOfAll 6 [group / 2 ^ 18, group / 2 ^ 12 % 64, group / 2 ^ 6 % 64,
          group % 64] = byteBits [a, b, c] := bitsOfAll_group a b c
      rw [bitsOfAll_append, hgroup, hbits]
      simp only [byteBits_cons, byteBits_nil, List.append_nil, List.append_assoc]
    · rw [List.forall_mem_append]
      refine ⟨?_, hdigits⟩
      intro digit hdigit
      simp only [List.mem_cons, List.not_mem_nil, or_false] at hdigit
      omega

/-! ### Encoding -/

/-- A letter that is written is that of six bits of the accumulator. -/
theorem b64Digit_eq_letter {accumulator : UInt32} {bits : Nat} (h : bits < 32) :
    b64Digit accumulator bits = letter (accumulator.toNat / 2 ^ bits % 2 ^ 6) := by
  rw [b64Digit, letter, UInt32.toNat_and, toNat_shiftRight_toUInt32 h]
  congr 1
  exact Nat.and_two_pow_sub_one_eq_mod _ 6

/-- The inner loop writes the letters of the full groups. -/
theorem drainBits_regroups (accumulator : UInt32) (retval : Bytes) (bits : Nat) (h : bits ≤ 32) :
    ∃ digits left, drainBits accumulator retval bits = (left, retval ++ digits.map letter) ∧
      Regrouped 6 (bitsOf bits accumulator.toNat) digits (bitsOf left accumulator.toNat) := by
  induction retval, bits using drainBits.induct accumulator with
  | case1 retval bits ih =>
    obtain ⟨digits, left, hdrain, hgroups⟩ := ih (by omega)
    refine ⟨accumulator.toNat / 2 ^ bits % 2 ^ 6 :: digits, left, ?_, ?_⟩
    · rw [drainBits, hdrain, b64Digit_eq_letter (by omega), List.map_cons, List.append_assoc]
      rfl
    · rw [bitsOf_take 6 bits]
      exact hgroups.cons (Nat.mod_lt _ (by omega))
  | case2 retval bits hbits =>
    have hlt : bits < 6 := by
      by_contra hge
      exact hbits (bits - 6) (by omega)
    refine ⟨[], bits, ?_, ?_⟩
    · rw [drainBits, List.map_nil, List.append_nil]
      exact hbits
    · apply Regrouped.of_lt
      rw [length_bitsOf]
      exact hlt

/-- The loop writes the letters of the full groups of all bits, and keeps the others. -/
theorem base64Loop_regroups (data : Bytes) (accumulator : UInt32) (bits : Nat) (retval : Bytes)
    (h : bits < 6) :
    ∃ digits accumulator' left,
      base64Loop accumulator bits retval data =
        (accumulator', left, retval ++ digits.map letter) ∧
      Regrouped 6 (bitsOf bits accumulator.toNat ++ byteBits data) digits
        (bitsOf left accumulator'.toNat) := by
  induction data generalizing accumulator bits retval with
  | nil =>
    refine ⟨[], accumulator, bits, ?_, ?_⟩
    · rw [base64Loop, List.map_nil, List.append_nil]
    · rw [byteBits_nil, List.append_nil]
      apply Regrouped.of_lt
      rw [length_bitsOf]
      exact h
  | cons i rest ih =>
    have hi : (i.toUInt32 &&& 0xff).toNat = i.toNat := by
      rw [UInt32.toNat_and, UInt8.toNat_toUInt32]
      exact (Nat.and_two_pow_sub_one_eq_mod _ 8).trans (Nat.mod_eq_of_lt i.toNat_lt)
    let pushed := (accumulator <<< 8) ||| (i.toUInt32 &&& 0xff)
    have hpush : bitsOf (bits + 8) pushed.toNat =
        bitsOf bits accumulator.toNat ++ bitsOf 8 i.toNat := by
      rw [← hi]
      exact bitsOf_shiftLeft_or (m := 8) (by omega) (by rw [hi]; exact i.toNat_lt) (by omega)
    obtain ⟨digits, left, hdrain, hgroups⟩ :=
      drainBits_regroups pushed retval (bits + 8) (by omega)
    have hleft : left < 6 := by
      have hrest := hgroups.rest_lt
      rwa [length_bitsOf] at hrest
    obtain ⟨digits', accumulator', left', hloop, hgroups'⟩ :=
      ih pushed left (retval ++ digits.map letter) hleft
    refine ⟨digits ++ digits', accumulator', left', ?_, ?_⟩
    · rw [base64Loop, hdrain, hloop, List.map_append, List.append_assoc]
    · rw [byteBits_cons, ← List.append_assoc, ← hpush]
      exact hgroups.append hgroups'

/-- What is written is filled up, whether it is empty or not. -/
private theorem padded_eq {data : Bytes} {digits : List Nat} (fill : Nat)
    (hlength : 6 * digits.length = 8 * data.length + fill) (hfill : fill < 6) :
    let size := (data.length + 2) / 3 * 4
    let written := digits.map letter
    (if size ≤ written.length + 2 ∧ 2 ≤ size ∧ written.length ≤ size then
      written ++ List.replicate (size - written.length) 61 else []) =
      written ++ List.replicate ((4 - digits.length % 4) % 4) 0x3d := by
  intro size written
  have hwritten : written.length = digits.length := List.length_map letter
  by_cases hdata : data.length = 0
  · have hdigits : digits = [] := List.length_eq_zero_iff.mp (by omega)
    rw [if_neg (by omega), show written = [] by rw [← List.map_nil, ← hdigits], hdigits]
    rfl
  · rw [if_pos (by omega), hwritten]
    congr 2
    omega

/-- The encoder spells its input. -/
theorem spells_base64Encode (data : Bytes) : Spells data (base64Encode data) := by
  obtain ⟨digits, accumulator, left, hloop, hgroups⟩ := base64Loop_regroups data 0 0 [] (by omega)
  have hbits : byteBits data = bitsOfAll 6 digits ++ bitsOf left accumulator.toNat :=
    hgroups.bits_eq
  have hlength := congrArg List.length hbits
  have hleft := hgroups.rest_lt
  rw [length_byteBits, List.length_append, length_bitsOfAll, length_bitsOf] at hlength
  rw [length_bitsOf] at hleft
  rw [base64Encode, hloop]
  by_cases hzero : left = 0
  · refine ⟨digits, 0, ?_, ?_, by omega, hgroups.out_lt⟩
    · dsimp only
      rw [if_pos hzero]
      exact padded_eq 0 (by omega) (by omega)
    · rw [hbits, hzero, List.replicate_zero, List.append_nil]
      exact (List.append_nil _).symm
  · -- the bits that are left are moved up to make one more group
    let moved := accumulator <<< (6 - left).toUInt32
    have hmoved : bitsOf (left + (6 - left)) moved.toNat =
        bitsOf left accumulator.toNat ++ List.replicate (6 - left) false := by
      have hpush := @bitsOf_shiftLeft_or accumulator 0 left (6 - left)
        (by omega) (Nat.two_pow_pos _) (by omega)
      rwa [UInt32.or_zero, UInt32.toNat_zero, bitsOf_zero] at hpush
    rw [Nat.add_sub_cancel' (by omega)] at hmoved
    refine ⟨digits ++ [moved.toNat % 2 ^ 6], 6 - left, ?_, ?_, by omega, ?_⟩
    · dsimp only
      have hwritten : [] ++ digits.map letter ++ [b64Digit moved 0] =
          (digits ++ [moved.toNat % 2 ^ 6]).map letter := by
        rw [b64Digit_eq_letter (by omega), Nat.pow_zero, Nat.div_one, List.nil_append,
          List.map_append, List.map_singleton]
      rw [if_neg hzero, if_neg (by omega), hwritten]
      apply padded_eq (6 - left) _ (by omega)
      rw [List.length_append, List.length_singleton]
      omega
    · rw [bitsOfAll_append, bitsOfAll_cons, bitsOfAll_nil, bitsOf_mod, hmoved, hbits]
      simp only [List.append_assoc, List.append_nil]
    · rw [List.forall_mem_append]
      refine ⟨hgroups.out_lt, ?_⟩
      simp only [List.mem_singleton, forall_eq]
      exact Nat.mod_lt _ (Nat.two_pow_pos 6)

/-- The copy of a `std::string` is the string, if the `int` index counts that far. -/
theorem base64EncodeString_eq {bindata : Bytes} (h : bindata.length < 2 ^ 31) :
    base64EncodeString bindata = some (base64Encode bindata) := by
  have hcopy : (List.range bindata.length).mapM
      (fun i ↦ if i + 1 < 2 ^ 31 then bindata[i]? else none) =
      (List.range bindata.length).mapM fun i ↦ bindata[i + 0]? := by
    apply mapM_congr
    intro i hi
    rw [List.mem_range] at hi
    rw [if_pos (by omega), Nat.add_zero]
  rw [base64EncodeString, hcopy, mapM_getElem?_range (by omega), List.drop_zero, List.take_length]
  rfl

/-! ### Decoding -/

/-- The numbers of the letters of a text, which stand for six bits each. -/
def lettersOf (text : Bytes) : List Nat :=
  (text.filter fun c ↦ b64Table.contains c).map fun c ↦ b64Table.idxOf c

/-- The table of the decoder numbers the letters in their order. -/
theorem numbers_b64Table :
    b64Table.map (fun c ↦ (reverseTable.getD c.toNat 64).toNat) = List.range 64 := by
  decide +kernel

theorem length_b64Table : b64Table.length = 64 := by
  simpa using congrArg List.length numbers_b64Table

/-- No letter has two numbers. -/
theorem nodup_b64Table : b64Table.Nodup := by
  apply List.Nodup.of_map fun c ↦ (reverseTable.getD c.toNat 64).toNat
  rw [numbers_b64Table]
  exact List.nodup_range

private theorem letter_checks : ∀ c ∈ b64Table, isSkipped c = false ∧ c < 128 := by
  decide +kernel

/-- No letter is passed over. -/
theorem isSkipped_letter {c : UInt8} (h : b64Table.contains c) : isSkipped c = false :=
  (letter_checks c (List.contains_iff_mem.mp h)).1

theorem letter_eq_getElem {n : Nat} (h : n < b64Table.length) : letter n = b64Table[n] := by
  rw [letter, List.getD_eq_getElem?_getD, List.getElem?_eq_getElem h, Option.getD_some]

/-- The table has a letter for each number of six bits, and no letter twice. -/
theorem letter_spec {n : Nat} (h : n < 2 ^ 6) :
    b64Table.contains (letter n) ∧ b64Table.idxOf (letter n) = n ∧ letter n < 128 := by
  have hn : n < b64Table.length := by
    rw [length_b64Table]
    exact h
  have hmem : letter n ∈ b64Table := by
    rw [letter_eq_getElem hn]
    exact List.getElem_mem hn
  refine ⟨List.contains_iff_mem.mpr hmem, ?_, (letter_checks _ hmem).2⟩
  rw [letter_eq_getElem hn, nodup_b64Table.idxOf_getElem]

/-- The table of the decoder is the inverse of that of the encoder. -/
theorem reverseTable_eq {c : UInt8} (h : c < 128) :
    reverseTable.getD c.toNat 64 =
      if b64Table.contains c then (b64Table.idxOf c).toUInt8 else 64 := by
  have hback : ∀ n : Fin 128, reverseTable.getD n 64 = 64 ∨
      reverseTable.getD n 64 < 64 ∧ letter (reverseTable.getD n 64).toNat = UInt8.ofNat n := by
    decide +kernel
  have hc := hback ⟨c.toNat, UInt8.lt_iff_toNat_lt.mp h⟩
  rw [UInt8.ofNat_toNat] at hc
  by_cases hmem : c ∈ b64Table
  · have hindex := List.idxOf_lt_length_of_mem hmem
    have hnumber : (reverseTable.getD c.toNat 64).toNat = b64Table.idxOf c := by
      have hget := congrArg (fun numbers ↦ numbers[b64Table.idxOf c]?) numbers_b64Table
      have hsmall : b64Table.idxOf c < 64 := length_b64Table ▸ hindex
      rw [List.getElem?_map, List.getElem?_eq_getElem hindex, List.getElem_idxOf hindex,
        List.getElem?_range hsmall] at hget
      exact Option.some.inj hget
    rw [if_pos (List.contains_iff_mem.mpr hmem), ← hnumber]
    exact UInt8.ofNat_toNat.symm
  · rw [if_neg fun hcontains ↦ hmem (List.contains_iff_mem.mp hcontains)]
    rcases hc with hc | ⟨hlt, hletter⟩
    · exact hc
    · have hcontains := (letter_spec (UInt8.lt_iff_toNat_lt.mp hlt)).1
      rw [hletter] at hcontains
      exact absurd (List.contains_iff_mem.mp hcontains) hmem

theorem decodeLoop_of_skipped {c : UInt8} (h : isSkipped c) (accumulator : UInt32) (bits : Nat)
    (retVal rest : Bytes) :
    decodeLoop accumulator bits retVal (c :: rest) = decodeLoop accumulator bits retVal rest := by
  rw [decodeLoop, if_pos h]

/-- What is passed over may as well be left out. -/
theorem decodeLoop_filter (accumulator : UInt32) (bits : Nat) (retVal text : Bytes) :
    decodeLoop accumulator bits retVal (text.filter fun c ↦ !isSkipped c) =
      decodeLoop accumulator bits retVal text := by
  induction text generalizing accumulator bits retVal with
  | nil => rfl
  | cons c rest ih =>
    by_cases hc : isSkipped c
    · rw [List.filter_cons_of_neg (by simp [hc]), ih, decodeLoop_of_skipped hc]
    · rw [List.filter_cons_of_pos (by simp [hc])]
      simp only [decodeLoop, ih]

/-- A character that is no letter is refused. -/
theorem decodeLoop_of_not_letter {c : UInt8} (hskipped : isSkipped c = false) (hc : c < 128)
    (h : ¬ b64Table.contains c) (accumulator : UInt32) (bits : Nat) (retVal rest : Bytes) :
    decodeLoop accumulator bits retVal (c :: rest) = .error .invalidArgument := by
  have htable : 63 < reverseTable.getD c.toNat 64 := by
    rw [reverseTable_eq hc, if_neg h]
    decide
  rw [decodeLoop, if_neg (Bool.eq_false_iff.mp hskipped), decide_eq_true htable, Bool.or_true,
    if_pos rfl]

/-- A letter adds its six bits, and a byte comes out when there are eight. -/
theorem decodeLoop_of_letter {c : UInt8} (hc : c < 128) (h : b64Table.contains c)
    (accumulator : UInt32) (bits : Nat) (hbits : bits < 8) (retVal rest : Bytes) :
    ∃ data accumulator' left,
      decodeLoop accumulator bits retVal (c :: rest) =
        decodeLoop accumulator' left (retVal ++ data) rest ∧
      Regrouped 8 (bitsOf bits accumulator.toNat ++ bitsOf 6 (b64Table.idxOf c))
        (data.map UInt8.toNat) (bitsOf left accumulator'.toNat) := by
  have hindex : b64Table.idxOf c < 64 := List.idxOf_lt_length_of_mem (List.contains_iff_mem.mp h)
  have hvalue : reverseTable.getD c.toNat 64 = (b64Table.idxOf c).toUInt8 := by
    rw [reverseTable_eq hc, if_pos h]
  have hsmall : (b64Table.idxOf c).toUInt8.toNat = b64Table.idxOf c :=
    Nat.mod_eq_of_lt (by omega)
  have haccepted : ¬ ((127 < c || 63 < (b64Table.idxOf c).toUInt8) = true) := by
    rw [Bool.or_eq_true, decide_eq_true_iff, decide_eq_true_iff, UInt8.lt_iff_toNat_lt,
      UInt8.lt_iff_toNat_lt, hsmall]
    have hascii : c.toNat < 128 := UInt8.lt_iff_toNat_lt.mp hc
    change ¬ (127 < c.toNat ∨ 63 < b64Table.idxOf c)
    omega
  let pushed := (accumulator <<< 6) ||| (b64Table.idxOf c).toUInt8.toUInt32
  have hpush : bitsOf (bits + 6) pushed.toNat =
      bitsOf bits accumulator.toNat ++ bitsOf 6 (b64Table.idxOf c) := by
    have hwide : (b64Table.idxOf c).toUInt8.toUInt32.toNat = b64Table.idxOf c := by
      rw [UInt8.toNat_toUInt32, hsmall]
    rw [← hwide]
    exact bitsOf_shiftLeft_or (m := 6) (by omega) (by rw [hwide]; exact hindex) (by omega)
  have hstep : decodeLoop accumulator bits retVal (c :: rest) =
      if 8 ≤ bits + 6 then
        decodeLoop pushed (bits + 6 - 8)
          (retVal ++ [((pushed >>> (bits + 6 - 8).toUInt32) &&& 0xff).toUInt8]) rest
      else decodeLoop pushed (bits + 6) retVal rest := by
    rw [decodeLoop, if_neg (Bool.eq_false_iff.mp (isSkipped_letter h)), hvalue, if_neg haccepted]
  by_cases hbyte : 8 ≤ bits + 6
  · let byte := ((pushed >>> (bits + 6 - 8).toUInt32) &&& 0xff).toUInt8
    have hout : byte.toNat = pushed.toNat / 2 ^ (bits + 6 - 8) % 2 ^ 8 := by
      rw [UInt32.toNat_toUInt8, UInt32.toNat_and, toNat_shiftRight_toUInt32 (by omega)]
      exact (congrArg (· % 2 ^ 8) (Nat.and_two_pow_sub_one_eq_mod _ 8)).trans (Nat.mod_mod _ _)
    refine ⟨[byte], pushed, bits + 6 - 8, ?_, ?_⟩
    · rw [hstep, if_pos hbyte]
    · rw [← hpush, show bits + 6 = bits + 6 - 8 + 8 by omega, bitsOf_take 8, List.map_singleton,
        hout]
      apply Regrouped.cons (Nat.mod_lt _ (Nat.two_pow_pos 8))
      apply Regrouped.of_lt
      rw [length_bitsOf]
      omega
  · refine ⟨[], pushed, bits + 6, ?_, ?_⟩
    · rw [hstep, if_neg hbyte, List.append_nil]
    · rw [← hpush]
      apply Regrouped.of_lt
      rw [length_bitsOf]
      omega

theorem lettersOf_cons (c : UInt8) (text : Bytes) :
    lettersOf (c :: text) =
      if b64Table.contains c then b64Table.idxOf c :: lettersOf text else lettersOf text := by
  by_cases h : b64Table.contains c
  · rw [if_pos h, lettersOf, List.filter_cons_of_pos h, List.map_cons]
    rfl
  · rw [if_neg h, lettersOf, List.filter_cons_of_neg h]
    rfl

/-- The bytes that come out are the full groups of eight of the bits of the letters. -/
theorem decodeLoop_regroups {text : Bytes} (hascii : ∀ c ∈ text, c < 128)
    (hletters : ∀ c ∈ text, isSkipped c = false → b64Table.contains c)
    (accumulator : UInt32) (bits : Nat) (hbits : bits < 8) (retVal : Bytes) :
    ∃ data, ∃ accumulator' : UInt32, ∃ left,
      decodeLoop accumulator bits retVal text = .ok (retVal ++ data) ∧
      Regrouped 8 (bitsOf bits accumulator.toNat ++ bitsOfAll 6 (lettersOf text))
        (data.map UInt8.toNat) (bitsOf left accumulator'.toNat) := by
  induction text generalizing accumulator bits retVal with
  | nil =>
    refine ⟨[], accumulator, bits, ?_, ?_⟩
    · rw [decodeLoop, List.append_nil]
    · change Regrouped 8 (bitsOf bits accumulator.toNat ++ []) [] _
      rw [List.append_nil]
      apply Regrouped.of_lt
      rw [length_bitsOf]
      exact hbits
  | cons c rest ih =>
    rw [List.forall_mem_cons] at hascii hletters
    by_cases hskipped : isSkipped c
    · have hnot : ¬ b64Table.contains c := by
        intro hc
        rw [isSkipped_letter hc] at hskipped
        cases hskipped
      rw [decodeLoop_of_skipped hskipped, lettersOf_cons, if_neg hnot]
      exact ih hascii.2 hletters.2 accumulator bits hbits retVal
    · have hc := hletters.1 (Bool.eq_false_iff.mpr hskipped)
      obtain ⟨data, accumulator', left, hstep, hgroups⟩ :=
        decodeLoop_of_letter hascii.1 hc accumulator bits hbits retVal rest
      have hleft : left < 8 := by
        have hrest := hgroups.rest_lt
        rwa [length_bitsOf] at hrest
      obtain ⟨data', accumulator'', left', hloop, hgroups'⟩ :=
        ih hascii.2 hletters.2 accumulator' left hleft (retVal ++ data)
      refine ⟨data ++ data', accumulator'', left', ?_, ?_⟩
      · rw [hstep, hloop, List.append_assoc]
      · rw [lettersOf_cons, if_pos hc, bitsOfAll_cons, ← List.append_assoc, List.map_append]
        exact hgroups.append hgroups'

/-- One character that is neither passed over nor a letter refuses the whole text. -/
theorem decodeLoop_refuses {text : Bytes} (hascii : ∀ c ∈ text, c < 128)
    (h : ∃ c ∈ text, isSkipped c = false ∧ ¬ b64Table.contains c)
    (accumulator : UInt32) (bits : Nat) (hbits : bits < 8) (retVal : Bytes) :
    decodeLoop accumulator bits retVal text = .error .invalidArgument := by
  induction text generalizing accumulator bits retVal with
  | nil =>
    obtain ⟨c, hmem, -⟩ := h
    cases hmem
  | cons c rest ih =>
    rw [List.forall_mem_cons] at hascii
    simp only [List.mem_cons, exists_eq_or_imp] at h
    by_cases hskipped : isSkipped c
    · have hrest := h.resolve_left fun hc ↦ Bool.eq_false_iff.mp hc.1 hskipped
      rw [decodeLoop_of_skipped hskipped]
      exact ih hascii.2 hrest accumulator bits hbits retVal
    · by_cases hc : b64Table.contains c
      · obtain ⟨data, accumulator', left, hstep, hgroups⟩ :=
          decodeLoop_of_letter hascii.1 hc accumulator bits hbits retVal rest
        have hleft : left < 8 := by
          have hrest := hgroups.rest_lt
          rwa [length_bitsOf] at hrest
        rw [hstep]
        exact ih hascii.2 (h.resolve_left fun hbad ↦ hbad.2 hc) accumulator' left hleft _
      · exact decodeLoop_of_not_letter (Bool.eq_false_iff.mpr hskipped) hascii.1 hc accumulator
          bits retVal rest

/-- The letters of digits are those digits, and padding has none. -/
theorem lettersOf_spelled {digits : List Nat} (hdigits : ∀ digit ∈ digits, digit < 2 ^ 6)
    (k : Nat) : lettersOf (digits.map letter ++ List.replicate k 0x3d) = digits := by
  induction digits with
  | nil =>
    have hpadding : (List.replicate k 0x3d).filter (fun c ↦ b64Table.contains c) = [] :=
      List.filter_replicate_of_neg (by decide)
    rw [List.map_nil, List.nil_append, lettersOf, hpadding, List.map_nil]
  | cons digit digits ih =>
    rw [List.forall_mem_cons] at hdigits
    obtain ⟨hcontains, hindex, -⟩ := letter_spec hdigits.1
    rw [List.map_cons, List.cons_append, lettersOf_cons, if_pos hcontains, hindex, ih hdigits.2]

/-- A text is decoded to the bytes that it spells. -/
theorem Spells.base64Decode_eq {data text : Bytes} (h : Spells data text) :
    base64Decode text = .ok data := by
  obtain ⟨digits, fill, rfl, hbits, hfill, hdigits⟩ := h
  have hmem : ∀ c ∈ digits.map letter ++ List.replicate ((4 - digits.length % 4) % 4) 0x3d,
      c < 128 ∧ (isSkipped c = false → b64Table.contains c) := by
    intro c hc
    rcases List.mem_append.mp hc with hc | hc
    · obtain ⟨digit, hdigit, rfl⟩ := List.mem_map.mp hc
      obtain ⟨hcontains, -, hascii⟩ := letter_spec (hdigits digit hdigit)
      exact ⟨hascii, fun _ ↦ hcontains⟩
    · rw [List.eq_of_mem_replicate hc]
      decide
  obtain ⟨out, accumulator, left, hdecode, hgroups⟩ := decodeLoop_regroups
    (fun c hc ↦ (hmem c hc).1) (fun c hc ↦ (hmem c hc).2) 0 0 (by omega) []
  rw [lettersOf_spelled hdigits, hbits] at hgroups
  have hwhole : Regrouped 8 (byteBits data ++ List.replicate fill false)
      (data.map UInt8.toNat) (List.replicate fill false) := by
    refine ⟨rfl, ?_, toNat_lt_of_mem⟩
    rw [List.length_replicate]
    omega
  have hout : out = data :=
    (List.map_inj_right fun _ _ ↦ UInt8.toNat_inj.mp).mp (hgroups.out_unique hwhole)
  rw [base64Decode, hdecode, hout, List.nil_append]

/-! ### Both directions -/

/-- The encoder writes the text of the specification on inputs of every length, and the decoder
reads it back. -/
theorem base64_correct {bindata : Bytes} (h : bindata.length < 2 ^ 31) :
    base64Encode bindata = rfc4648 bindata ∧
      base64EncodeString bindata = some (rfc4648 bindata) ∧
      (rfc4648 bindata).length = 4 * ((bindata.length + 2) / 3) ∧
      (rfc4648 bindata = [] ↔ bindata = []) ∧
      base64Decode (rfc4648 bindata) = .ok bindata := by
  have hencode : base64Encode bindata = rfc4648 bindata :=
    (spells_base64Encode bindata).unique (spells_rfc4648 bindata)
  have hlength := (spells_rfc4648 bindata).length
  refine ⟨hencode, ?_, hlength, ?_, (spells_rfc4648 bindata).base64Decode_eq⟩
  · rw [base64EncodeString_eq h, hencode]
  · rw [← List.length_eq_zero_iff, ← List.length_eq_zero_iff, hlength]
    omega

theorem base64_correct_foobar :
    base64Encode (bytes "foobar!") = rfc4648 (bytes "foobar!") ∧
      base64EncodeString (bytes "foobar!") = some (rfc4648 (bytes "foobar!")) ∧
      (rfc4648 (bytes "foobar!")).length = 4 * (((bytes "foobar!").length + 2) / 3) ∧
      (rfc4648 (bytes "foobar!") = [] ↔ bytes "foobar!" = []) ∧
      base64Decode (rfc4648 (bytes "foobar!")) = .ok (bytes "foobar!") :=
  base64_correct (by decide)

/-- Text of seven bits is refused for a character that does not belong in it, and for nothing
else; what is decoded are the first bits of the letters, whatever is passed over. -/
theorem base64Decode_of_ascii {s : Bytes} (hs : ∀ c ∈ s, c < 128) :
    ((∃ e, base64Decode s = .error e) ↔
        ∃ c ∈ s, isSpace c = false ∧ c ≠ 0x3d ∧ c ∉ b64Table) ∧
      (∀ data, base64Decode s = .ok data →
        data.length = 6 * (s.filter fun c ↦ b64Table.contains c).length / 8 ∧
        byteBits data = (bitsOfAll 6 (lettersOf s)).take (8 * data.length)) ∧
      ∀ s', s'.filter (fun c ↦ !(isSpace c || c == 0x3d)) =
          s.filter (fun c ↦ !(isSpace c || c == 0x3d)) →
        base64Decode s' = base64Decode s := by
  have hfilter : ∀ s', s'.filter (fun c ↦ !(isSpace c || c == 0x3d)) =
      s.filter (fun c ↦ !(isSpace c || c == 0x3d)) → base64Decode s' = base64Decode s := by
    intro s' hs'
    rw [base64Decode, base64Decode, ← decodeLoop_filter 0 0 [] s, ← decodeLoop_filter 0 0 [] s']
    exact congrArg _ hs'
  have hbad : (∃ c ∈ s, isSpace c = false ∧ c ≠ 0x3d ∧ c ∉ b64Table) ↔
      ∃ c ∈ s, isSkipped c = false ∧ ¬ b64Table.contains c := by
    simp [isSkipped, and_assoc]
  rw [hbad, ← and_assoc]
  refine ⟨?_, hfilter⟩
  by_cases hrefused : ∃ c ∈ s, isSkipped c = false ∧ ¬ b64Table.contains c
  · have hdecode : base64Decode s = .error .invalidArgument :=
      decodeLoop_refuses hs hrefused 0 0 (by omega) []
    rw [hdecode]
    refine ⟨⟨fun _ ↦ hrefused, fun _ ↦ ⟨_, rfl⟩⟩, ?_⟩
    intro data hdata
    cases hdata
  · have hletters : ∀ c ∈ s, isSkipped c = false → b64Table.contains c := by
      intro c hc hskipped
      by_contra hnot
      exact hrefused ⟨c, hc, hskipped, hnot⟩
    obtain ⟨out, accumulator, left, hdecode, hgroups⟩ :=
      decodeLoop_regroups hs hletters 0 0 (by omega) []
    have hlength := hgroups.length_out
    have hbits := hgroups.bitsOfAll_out
    rw [base64Decode, hdecode]
    refine ⟨⟨?_, fun h ↦ absurd h hrefused⟩, ?_⟩
    · rintro ⟨e, he⟩
      cases he
    · rintro data hdata
      cases hdata
      rw [List.length_map] at hlength hbits
      rw [bitsOf, List.nil_append, length_bitsOfAll, lettersOf, List.length_map] at hlength
      exact ⟨hlength, hbits⟩

theorem base64Decode_of_ascii_unpadded :
    ((∃ e, base64Decode (bytes "Zm9 v=YmFyIQ") = .error e) ↔
        ∃ c ∈ bytes "Zm9 v=YmFyIQ", isSpace c = false ∧ c ≠ 0x3d ∧ c ∉ b64Table) ∧
      (∀ data, base64Decode (bytes "Zm9 v=YmFyIQ") = .ok data →
        data.length =
          6 * ((bytes "Zm9 v=YmFyIQ").filter fun c ↦ b64Table.contains c).length / 8 ∧
        byteBits data =
          (bitsOfAll 6 (lettersOf (bytes "Zm9 v=YmFyIQ"))).take (8 * data.length)) ∧
      ∀ s', s'.filter (fun c ↦ !(isSpace c || c == 0x3d)) =
          (bytes "Zm9 v=YmFyIQ").filter (fun c ↦ !(isSpace c || c == 0x3d)) →
        base64Decode s' = base64Decode (bytes "Zm9 v=YmFyIQ") :=
  base64Decode_of_ascii (by decide +kernel)

end KeepMyJournal.Common
