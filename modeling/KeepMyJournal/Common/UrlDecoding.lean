import KeepMyJournal.Common.StringUtils

/-!
# What the URL decoder reads

The loop of `decodeUrl`, `common/src/string_utils.cpp:41–77`, over the index of the source, with
every index that it reads. The decoder by cases on the string has the same result; it reads inside
the string exactly if every `%` has its two digits, or two other bytes in their place.
-/

namespace KeepMyJournal.Common

open KeepMyJournal.Base

/-- `encoded_string[i]`, which is not checked; `past` are the bytes that follow the string in
memory. -/
def readAt (encoded : Bytes) (past : Nat → UInt8) (i : Nat) : UInt8 :=
  encoded[i]?.getD (past (i - encoded.length))

/-- The loop of `decodeUrl`: the bytes it writes, and the indices it reads, in order. A round
moves the index on by one or by three, so the first argument bounds the rounds. -/
def decodeUrlLoop (encoded : Bytes) (past : Nat → UInt8) : Nat → Nat → Bytes × List Nat
  | 0, _ => ([], [])
  | rounds + 1, i =>
    if encoded.length ≤ i then ([], [])
    else
      let ch := readAt encoded past i
      if ch ≠ 0x25 then
        let (src, indices) := decodeUrlLoop encoded past rounds (i + 1)
        (ch :: src, i :: indices)
      else
        let c1 := readAt encoded past (i + 1)
        let c2 := readAt encoded past (i + 2)
        let (src, indices) := decodeUrlLoop encoded past rounds (i + 3)
        ((hexValue c1 * 16 + hexValue c2) :: src, i :: (i + 1) :: (i + 2) :: indices)

/-- The indices that `decodeUrl` reads. -/
def decodeUrlIndices (past : Nat → UInt8) (encoded : Bytes) : List Nat :=
  (decodeUrlLoop encoded past encoded.length 0).2

/-- Every `%` that introduces an escape has two bytes behind it. -/
inductive WholeEscapes : Bytes → Prop
  | nil : WholeEscapes []
  | byte {b : UInt8} {rest : Bytes} : b ≠ 0x25 → WholeEscapes rest → WholeEscapes (b :: rest)
  | escape (c1 c2 : UInt8) {rest : Bytes} : WholeEscapes rest →
      WholeEscapes (0x25 :: c1 :: c2 :: rest)

theorem wholeEscapes_cons_iff {b : UInt8} {rest : Bytes} (h : b ≠ 0x25) :
    WholeEscapes (b :: rest) ↔ WholeEscapes rest := by
  constructor
  · intro hwhole
    cases hwhole with
    | byte _ hrest => exact hrest
    | escape c1 c2 hrest => exact absurd rfl h
  · exact .byte h

theorem wholeEscapes_escape_iff {c1 c2 : UInt8} {rest : Bytes} :
    WholeEscapes (0x25 :: c1 :: c2 :: rest) ↔ WholeEscapes rest := by
  constructor
  · intro hwhole
    cases hwhole with
    | byte hb _ => exact absurd rfl hb
    | escape _ _ hrest => exact hrest
  · exact .escape c1 c2

/-- An escape at the end of the string is cut short. -/
theorem not_wholeEscapes_of_length {rest : Bytes} (h : rest.length < 2) :
    ¬ WholeEscapes (0x25 :: rest) := by
  intro hwhole
  cases hwhole with
  | byte hb _ => exact hb rfl
  | escape c1 c2 hrest =>
    rw [List.length_cons, List.length_cons] at h
    omega

/-- A hexadecimal digit of a number below 16, of either case. -/
def IsHexDigit (v : Nat) (c : UInt8) : Prop :=
  (bytes "0123456789ABCDEF")[v]? = some c ∨ (bytes "0123456789abcdef")[v]? = some c

/-- The percent-encodings of a byte string; any byte may be escaped, and `%` has to be. -/
inductive PercentEncodes : Bytes → Bytes → Prop
  | nil : PercentEncodes [] []
  | byte {b : UInt8} {s e : Bytes} : b ≠ 0x25 → PercentEncodes s e →
      PercentEncodes (b :: s) (b :: e)
  | escape {b c1 c2 : UInt8} {s e : Bytes} : IsHexDigit (b.toNat / 16) c1 →
      IsHexDigit (b.toNat % 16) c2 → PercentEncodes s e →
      PercentEncodes (b :: s) (0x25 :: c1 :: c2 :: e)

/-! ### The loop -/

theorem readAt_append (done rest : Bytes) (past : Nat → UInt8) (i : Nat) :
    readAt (done ++ rest) past (done.length + i) = readAt rest past i := by
  rw [readAt, readAt, List.length_append, Nat.add_sub_add_left,
    List.getElem?_append_right (Nat.le_add_right _ _), Nat.add_sub_cancel_left]

theorem decodeUrlLoop_of_le {encoded : Bytes} {i : Nat} (past : Nat → UInt8) (rounds : Nat)
    (h : encoded.length ≤ i) : decodeUrlLoop encoded past rounds i = ([], []) := by
  cases rounds with
  | zero => rfl
  | succ rounds => rw [decodeUrlLoop, if_pos h]

/-- From any index on, the loop decodes the rest of the string, and stays inside the string
exactly if the rest is whole. -/
theorem decodeUrlLoop_spec (past : Nat → UInt8) (done rest : Bytes) (rounds : Nat)
    (h : rest.length ≤ rounds) :
    (decodeUrlLoop (done ++ rest) past rounds done.length).1 = decodeUrl past rest ∧
      ((∀ i ∈ (decodeUrlLoop (done ++ rest) past rounds done.length).2,
        i < (done ++ rest).length) ↔ WholeEscapes rest) := by
  induction rounds generalizing done rest with
  | zero =>
    obtain rfl := List.length_eq_zero_iff.mp (Nat.le_zero.mp h)
    refine ⟨rfl, ?_⟩
    simp [decodeUrlLoop, WholeEscapes.nil]
  | succ rounds ih =>
    cases rest with
    | nil =>
      rw [decodeUrlLoop_of_le past _ (by simp)]
      refine ⟨rfl, ?_⟩
      simp [WholeEscapes.nil]
    | cons ch rest =>
      have hin : ¬ (done ++ ch :: rest).length ≤ done.length := by simp
      have hread : ∀ i, readAt (done ++ ch :: rest) past (done.length + i) =
          readAt (ch :: rest) past i := readAt_append done (ch :: rest) past
      have hch : readAt (done ++ ch :: rest) past done.length = ch := hread 0
      rw [decodeUrlLoop, if_neg hin, hch]
      by_cases hpercent : ch = 0x25
      · subst hpercent
        rw [if_neg (not_not.mpr rfl)]
        match rest with
        | [] =>
          rw [decodeUrlLoop_of_le past rounds (by simp)]
          refine ⟨by rw [hread 1, hread 2]; rfl, ?_⟩
          refine iff_of_false ?_ (not_wholeEscapes_of_length (by simp))
          intro hall
          have hlt := hall (done.length + 1) (by simp)
          simp at hlt
        | [c1] =>
          rw [decodeUrlLoop_of_le past rounds (by simp)]
          refine ⟨by rw [hread 1, hread 2]; rfl, ?_⟩
          refine iff_of_false ?_ (not_wholeEscapes_of_length (by simp))
          intro hall
          have hlt := hall (done.length + 2) (by simp)
          simp at hlt
        | c1 :: c2 :: rest =>
          obtain ⟨hsrc, hindices⟩ := ih (done ++ [0x25, c1, c2]) rest (by simp at h; omega)
          have hdone : (done ++ [0x25, c1, c2]).length = done.length + 3 := by simp
          have hlength : (done ++ 0x25 :: c1 :: c2 :: rest).length =
              done.length + (rest.length + 3) := by simp
          rw [List.append_assoc, hdone] at hsrc hindices
          rw [hread 1, hread 2, wholeEscapes_escape_iff, decodeUrl_escape, ← hsrc, ← hindices]
          refine ⟨rfl, ?_⟩
          rw [List.forall_mem_cons, List.forall_mem_cons, List.forall_mem_cons,
            and_iff_right (by omega), and_iff_right (by omega), and_iff_right (by omega)]
          rfl
      · obtain ⟨hsrc, hindices⟩ := ih (done ++ [ch]) rest (Nat.le_of_succ_le_succ h)
        have hdone : (done ++ [ch]).length = done.length + 1 := by simp
        rw [List.append_assoc, hdone] at hsrc hindices
        rw [if_pos hpercent, decodeUrl_cons past hpercent, wholeEscapes_cons_iff hpercent,
          ← hsrc, ← hindices]
        refine ⟨rfl, ?_⟩
        rw [List.forall_mem_cons]
        exact and_iff_right (Nat.lt_of_not_le hin)

/-- The loop over the index writes what the decoder by cases on the string writes. -/
theorem decodeUrlLoop_eq (past : Nat → UInt8) (encoded : Bytes) :
    (decodeUrlLoop encoded past encoded.length 0).1 = decodeUrl past encoded :=
  (decodeUrlLoop_spec past [] encoded encoded.length le_rfl).1

theorem decodeUrlIndices_lt_iff (past : Nat → UInt8) (encoded : Bytes) :
    (∀ i ∈ decodeUrlIndices past encoded, i < encoded.length) ↔ WholeEscapes encoded :=
  (decodeUrlLoop_spec past [] encoded encoded.length le_rfl).2

/-! ### The inverse -/

/-- The decoder reads a digit of either case. -/
theorem hexValue_of_isHexDigit {v : Nat} {c : UInt8} (h : IsHexDigit v c) :
    (hexValue c).toNat = v := by
  have hupper : ∀ (i : Nat) (hi : i < (bytes "0123456789ABCDEF").length),
      (hexValue (bytes "0123456789ABCDEF")[i]).toNat = i := by decide +kernel
  have hlower : ∀ (i : Nat) (hi : i < (bytes "0123456789abcdef").length),
      (hexValue (bytes "0123456789abcdef")[i]).toNat = i := by decide +kernel
  rcases h with h | h
  · obtain ⟨hi, rfl⟩ := List.getElem?_eq_some_iff.mp h
    exact hupper v hi
  · obtain ⟨hi, rfl⟩ := List.getElem?_eq_some_iff.mp h
    exact hlower v hi

/-- Whatever is escaped, the decoder gives the bytes back. -/
theorem PercentEncodes.decodeUrl_eq {s e : Bytes} (h : PercentEncodes s e) (past : Nat → UInt8) :
    decodeUrl past e = s := by
  induction h with
  | nil => rfl
  | byte hb _ ih => rw [decodeUrl_cons past hb, ih]
  | @escape b c1 c2 s e h1 h2 _ ih =>
    have hb : hexValue c1 * 16 + hexValue c2 = b := by
      apply UInt8.toNat_inj.mp
      rw [UInt8.toNat_add, UInt8.toNat_mul, hexValue_of_isHexDigit h1, hexValue_of_isHexDigit h2]
      have hlt := b.toNat_lt
      change (b.toNat / 16 * 16 % 256 + b.toNat % 16) % 256 = b.toNat
      omega
    rw [decodeUrl_escape, hb, ih]

theorem PercentEncodes.append {s s' e e' : Bytes} (h : PercentEncodes s e)
    (h' : PercentEncodes s' e') : PercentEncodes (s ++ s') (e ++ e') := by
  induction h with
  | nil => exact h'
  | byte hb _ ih => exact .byte hb ih
  | escape h1 h2 _ ih => exact .escape h1 h2 ih

/-- Text without `%` encodes itself. -/
theorem percentEncodes_self {s : Bytes} (h : 0x25 ∉ s) : PercentEncodes s s := by
  induction s with
  | nil => exact .nil
  | cons b s ih =>
    rw [List.mem_cons, not_or] at h
    exact .byte (Ne.symm h.1) (ih h.2)

/-! ### Truncated escapes -/

/-- Every index that is read lies in the string exactly if no escape is cut short at its end; and
what the string is a percent-encoding of is what it is decoded to. -/
theorem decodeUrl_correct (past : Nat → UInt8) (encoded : Bytes) :
    ((∀ i ∈ decodeUrlIndices past encoded, i < encoded.length) ↔ WholeEscapes encoded) ∧
      ∀ s, PercentEncodes s encoded → decodeUrl past encoded = s ∧
        (decodeUrlLoop encoded past encoded.length 0).1 = s := by
  refine ⟨decodeUrlIndices_lt_iff past encoded, ?_⟩
  intro s h
  rw [decodeUrlLoop_eq, h.decodeUrl_eq past]
  exact ⟨rfl, rfl⟩

theorem not_decodeUrlIndices_lt_truncated :
    ¬ ∀ past encoded, ∀ i ∈ decodeUrlIndices past encoded, i < encoded.length := by
  intro h
  have hread : 3 ∈ decodeUrlIndices (fun _ ↦ 0) (bytes "/%2") := by decide
  exact absurd (h (fun _ ↦ 0) (bytes "/%2") 3 hread) (by decide)

end KeepMyJournal.Common
