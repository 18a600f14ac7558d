import Mathlib.Algebra.Group.Nat.Defs

/-!
# Bits in groups

Numbers of a fixed width as their bits, highest first. A run of bits is regrouped into numbers of
another width through an accumulator: its lowest bits are those that are still to come out, and
whatever stands above them does not matter.
-/

namespace KeepMyJournal.Base

/-- The lowest `w` bits of a number, the highest of them first. -/
def bitsOf : Nat → Nat → List Bool
  | 0, _ => []
  | w + 1, n => n.testBit w :: bitsOf w n

@[simp] theorem length_bitsOf (w n : Nat) : (bitsOf w n).length = w := by
  induction w with
  | zero => rfl
  | succ w ih => rw [bitsOf, List.length_cons, ih]

/-- The bits above the width do not matter. -/
theorem bitsOf_congr {w n m : Nat} (h : ∀ i < w, n.testBit i = m.testBit i) :
    bitsOf w n = bitsOf w m := by
  induction w with
  | zero => rfl
  | succ w ih =>
    rw [bitsOf, bitsOf, h w (Nat.lt_succ_self w), ih]
    intro i hi
    exact h i (Nat.lt_succ_of_lt hi)

/-- The bits of a width are those of the remainder. -/
@[simp] theorem bitsOf_mod (w n : Nat) : bitsOf w (n % 2 ^ w) = bitsOf w n := by
  apply bitsOf_congr
  intro i hi
  simp [Nat.testBit_mod_two_pow, hi]

/-- The upper bits are those of the quotient. -/
theorem bitsOf_add (m k n : Nat) : bitsOf (m + k) n = bitsOf m (n / 2 ^ k) ++ bitsOf k n := by
  induction m with
  | zero => rw [Nat.zero_add, bitsOf, List.nil_append]
  | succ m ih =>
    rw [Nat.add_right_comm, bitsOf, bitsOf, ih, Nat.testBit_div_two_pow, List.cons_append]

/-- A number below `2 ^ k` stands in the lower bits as it is. -/
theorem bitsOf_mul_add (m k a : Nat) {b : Nat} (hb : b < 2 ^ k) :
    bitsOf (m + k) (a * 2 ^ k + b) = bitsOf m a ++ bitsOf k b := by
  rw [bitsOf_add, ← bitsOf_mod k (_ + _), Nat.mul_comm, Nat.mul_add_div (by omega),
    Nat.mul_add_mod, Nat.div_eq_of_lt hb, Nat.mod_eq_of_lt hb, Nat.add_zero]

@[simp] theorem bitsOf_zero (w : Nat) : bitsOf w 0 = List.replicate w false := by
  induction w with
  | zero => rfl
  | succ w ih => rw [bitsOf, ih, Nat.zero_testBit, List.replicate_succ]

/-- Equal bits are equal one by one. -/
theorem testBit_eq_of_bitsOf {w n m i : Nat} (h : bitsOf w n = bitsOf w m) (hi : i < w) :
    n.testBit i = m.testBit i := by
  induction w with
  | zero => omega
  | succ w ih =>
    obtain ⟨htop, hrest⟩ := List.cons.inj h
    by_cases hiw : i = w
    · rw [hiw, htop]
    · exact ih hrest (by omega)

/-- Numbers below `2 ^ w` are told apart by their bits. -/
theorem bitsOf_inj {w n m : Nat} (hn : n < 2 ^ w) (hm : m < 2 ^ w)
    (h : bitsOf w n = bitsOf w m) : n = m := by
  apply Nat.eq_of_testBit_eq
  intro i
  by_cases hi : i < w
  · exact testBit_eq_of_bitsOf h hi
  · have hpow : 2 ^ w ≤ 2 ^ i := Nat.pow_le_pow_right (by omega) (by omega)
    rw [Nat.testBit_lt_two_pow (by omega), Nat.testBit_lt_two_pow (by omega)]

/-- The bits of a list of numbers of one width. -/
def bitsOfAll (w : Nat) (ns : List Nat) : List Bool := ns.flatMap (bitsOf w)

@[simp] theorem bitsOfAll_nil (w : Nat) : bitsOfAll w [] = [] := rfl

@[simp] theorem length_bitsOfAll (w : Nat) (ns : List Nat) :
    (bitsOfAll w ns).length = w * ns.length := by
  induction ns with
  | nil => rfl
  | cons n ns ih =>
    rw [bitsOfAll, List.flatMap_cons, List.length_append, length_bitsOf]
    change w + (bitsOfAll w ns).length = _
    rw [ih, List.length_cons, Nat.mul_succ, Nat.add_comm]

theorem bitsOfAll_append (w : Nat) (ns ms : List Nat) :
    bitsOfAll w (ns ++ ms) = bitsOfAll w ns ++ bitsOfAll w ms := List.flatMap_append

theorem bitsOfAll_cons (w n : Nat) (ns : List Nat) :
    bitsOfAll w (n :: ns) = bitsOf w n ++ bitsOfAll w ns := List.flatMap_cons

/-- Lists of numbers below `2 ^ w` are told apart by their bits, if they are of the same length. -/
theorem bitsOfAll_inj {w : Nat} {ns ms : List Nat} (hns : ∀ n ∈ ns, n < 2 ^ w)
    (hms : ∀ m ∈ ms, m < 2 ^ w) (hlength : ns.length = ms.length)
    (h : bitsOfAll w ns = bitsOfAll w ms) : ns = ms := by
  induction ns generalizing ms with
  | nil => exact (List.length_eq_zero_iff.mp hlength.symm).symm
  | cons n ns ih =>
    cases ms with
    | nil => cases hlength
    | cons m ms =>
      rw [bitsOfAll_cons, bitsOfAll_cons] at h
      obtain ⟨hhead, htail⟩ := List.append_inj h (by rw [length_bitsOf, length_bitsOf])
      rw [List.forall_mem_cons] at hns hms
      rw [bitsOf_inj hns.1 hms.1 hhead, ih hns.2 hms.2 (Nat.succ.inj hlength) htail]

/-! ### The accumulator -/

/-- The accumulator holds the last bits of a number behind those it has held. -/
theorem bitsOf_push {m c acc acc' v : Nat} (hlow : ∀ i < m, acc'.testBit i = v.testBit i)
    (hhigh : ∀ i < c, acc'.testBit (i + m) = acc.testBit i) :
    bitsOf (c + m) acc' = bitsOf c acc ++ bitsOf m v := by
  rw [bitsOf_add]
  congr 1
  · apply bitsOf_congr
    intro i hi
    rw [Nat.testBit_div_two_pow, hhigh i hi]
  · exact bitsOf_congr hlow

/-- A group that is taken out stands in front of the bits that are left. -/
theorem bitsOf_take (n c acc : Nat) :
    bitsOf (c + n) acc = bitsOf n (acc / 2 ^ c % 2 ^ n) ++ bitsOf c acc := by
  rw [Nat.add_comm, bitsOf_add, bitsOf_mod]

/-- A 32-bit accumulator keeps every bit of `acc` that is still to come out, if they all fit. -/
theorem bitsOf_shiftLeft_or {acc v : UInt32} {c m : Nat} (hm : m < 32) (hv : v.toNat < 2 ^ m)
    (hc : c + m ≤ 32) :
    bitsOf (c + m) ((acc <<< m.toUInt32) ||| v).toNat =
      bitsOf c acc.toNat ++ bitsOf m v.toNat := by
  have hshift : m.toUInt32.toNat % 32 = m := by
    simp only [Nat.toUInt32, UInt32.toNat_ofNat']
    omega
  apply bitsOf_push
  · intro i hi
    rw [UInt32.toNat_or, UInt32.toNat_shiftLeft, hshift, Nat.testBit_or, Nat.testBit_mod_two_pow,
      Nat.testBit_shiftLeft]
    simp [show ¬ m ≤ i by omega]
  · intro i hi
    have hpow : 2 ^ m ≤ 2 ^ (i + m) := Nat.pow_le_pow_right (by omega) (by omega)
    have hzero : v.toNat.testBit (i + m) = false := Nat.testBit_lt_two_pow (by omega)
    rw [UInt32.toNat_or, UInt32.toNat_shiftLeft, hshift, Nat.testBit_or, Nat.testBit_mod_two_pow,
      Nat.testBit_shiftLeft, hzero]
    simp [show i + m < 32 by omega]

/-- What is read at a place of a 32-bit accumulator, before it is masked. -/
theorem toNat_shiftRight_toUInt32 {acc : UInt32} {c : Nat} (hc : c < 32) :
    (acc >>> c.toUInt32).toNat = acc.toNat / 2 ^ c := by
  have hshift : c.toUInt32.toNat % 32 = c := by
    simp only [Nat.toUInt32, UInt32.toNat_ofNat']
    omega
  rw [UInt32.toNat_shiftRight, hshift, Nat.shiftRight_eq_div_pow]

/-! ### Regrouping -/

/-- The bits come out as numbers of `w` bits, and those that are left do not make another one. -/
structure Regrouped (w : Nat) (bits : List Bool) (out : List Nat) (rest : List Bool) : Prop where
  bits_eq : bits = bitsOfAll w out ++ rest
  rest_lt : rest.length < w
  out_lt : ∀ n ∈ out, n < 2 ^ w

namespace Regrouped

variable {w : Nat} {bits more rest rest' : List Bool} {out out' : List Nat}

/-- Too few bits for a number stay where they are. -/
theorem of_lt (h : bits.length < w) : Regrouped w bits [] bits where
  bits_eq := rfl
  rest_lt := h
  out_lt := by simp

/-- A number that comes out first. -/
theorem cons {n : Nat} (hn : n < 2 ^ w) (h : Regrouped w bits out rest) :
    Regrouped w (bitsOf w n ++ bits) (n :: out) rest where
  bits_eq := by rw [bitsOfAll_cons, List.append_assoc, ← h.bits_eq]
  rest_lt := h.rest_lt
  out_lt := List.forall_mem_cons.mpr ⟨hn, h.out_lt⟩

/-- What is left is regrouped with the bits that follow. -/
theorem append (h : Regrouped w bits out rest) (h' : Regrouped w (rest ++ more) out' rest') :
    Regrouped w (bits ++ more) (out ++ out') rest' where
  bits_eq := by rw [h.bits_eq, List.append_assoc, h'.bits_eq, bitsOfAll_append, List.append_assoc]
  rest_lt := h'.rest_lt
  out_lt := List.forall_mem_append.mpr ⟨h.out_lt, h'.out_lt⟩

/-- As many numbers come out as the bits suffice for. -/
theorem length_out (h : Regrouped w bits out rest) : out.length = bits.length / w := by
  have hlength := congrArg List.length h.bits_eq
  have hrest := h.rest_lt
  rw [List.length_append, length_bitsOfAll] at hlength
  rw [hlength, Nat.mul_add_div (by omega), Nat.div_eq_of_lt hrest, Nat.add_zero]

/-- The bits of what comes out are the first bits. -/
theorem bitsOfAll_out (h : Regrouped w bits out rest) :
    bitsOfAll w out = bits.take (w * out.length) := by
  rw [h.bits_eq, List.take_left' (length_bitsOfAll w out)]

/-- The bits determine what comes out. -/
theorem out_unique (h : Regrouped w bits out rest) (h' : Regrouped w bits out' rest') :
    out = out' := by
  have hlength : out.length = out'.length := by rw [h.length_out, h'.length_out]
  apply bitsOfAll_inj h.out_lt h'.out_lt hlength
  rw [h.bitsOfAll_out, h'.bitsOfAll_out, hlength]

end Regrouped

end KeepMyJournal.Base
