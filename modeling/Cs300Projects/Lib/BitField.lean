import Mathlib.Data.Nat.Bitwise
import Mathlib.Tactic.Common
import Mathlib.Tactic.Ring

/-!
# Low masks and aligned blocks of a machine word

The mask `lowMask w k` has the `k` lowest of `w` bits set. Masking, filling and comparing
under such a mask is arithmetic on the quotient and the remainder by `2 ^ k`: the quotient
numbers the aligned block of size `2 ^ k` that holds a word, the remainder is the offset in it.
-/

namespace BitField

variable {w : Nat}

/-- The `k` lowest bits set. -/
def lowMask (w k : Nat) : BitVec w := (1#w <<< k) - 1#w

lemma toNat_lowMask {k : Nat} (hk : k < w) : (lowMask w k).toNat = 2 ^ k - 1 := by
  have hpow : 2 ^ k < 2 ^ w := Nat.pow_lt_pow_right (by omega) hk
  have hpos : 0 < 2 ^ k := Nat.two_pow_pos k
  have hone : (1#w).toNat = 1 := by
    simp [Nat.one_mod_eq_one.mpr (show 2 ^ w ≠ 1 by omega)]
  have hshift : (1#w <<< k).toNat = 2 ^ k := by
    rw [BitVec.toNat_shiftLeft, hone, Nat.shiftLeft_eq, one_mul, Nat.mod_eq_of_lt hpow]
  rw [lowMask, BitVec.toNat_sub_of_le (by rw [BitVec.le_def, hshift, hone]; omega), hshift, hone]

lemma getLsbD_lowMask {k : Nat} (hk : k < w) (i : Nat) :
    (lowMask w k).getLsbD i = decide (i < k) := by
  rw [BitVec.getLsbD, toNat_lowMask hk, Nat.testBit_two_pow_sub_one]

/-- Masking keeps the offset. -/
lemma toNat_and_lowMask {k : Nat} (hk : k < w) (x : BitVec w) :
    (x &&& lowMask w k).toNat = x.toNat % 2 ^ k := by
  rw [BitVec.toNat_and, toNat_lowMask hk, Nat.and_two_pow_sub_one_eq_mod]

/-- Masking with the complement keeps the start of the block. -/
lemma toNat_and_not_lowMask {k : Nat} (hk : k < w) (x : BitVec w) :
    (x &&& ~~~lowMask w k).toNat = x.toNat / 2 ^ k * 2 ^ k := by
  apply Nat.eq_of_testBit_eq
  intro i
  rw [Nat.testBit_mul_two_pow, Nat.testBit_div_two_pow, BitVec.testBit_toNat, BitVec.getLsbD_and,
    BitVec.getLsbD_not, getLsbD_lowMask hk]
  by_cases hi : k ≤ i
  · have hik : i - k + k = i := Nat.sub_add_cancel hi
    have hxw : x.getLsbD i = true → i < w := BitVec.lt_of_getLsbD
    rw [hik, BitVec.testBit_toNat]
    cases hx : x.getLsbD i
    · simp
    · simp [hi, hxw hx]
  · simp [hi, Nat.lt_of_not_le hi]

/-- Filling the low bits gives the last word of the block. -/
lemma toNat_or_lowMask {k : Nat} (hk : k < w) (x : BitVec w) :
    (x ||| lowMask w k).toNat = x.toNat / 2 ^ k * 2 ^ k + (2 ^ k - 1) := by
  rw [BitVec.toNat_or, toNat_lowMask hk]
  apply Nat.eq_of_testBit_eq
  intro i
  rw [mul_comm, Nat.testBit_two_pow_mul_add _ (by have := Nat.two_pow_pos k; omega),
    Nat.testBit_or, Nat.testBit_two_pow_sub_one, Nat.testBit_div_two_pow]
  by_cases hi : i < k
  · simp [hi]
  · simp [hi, Nat.sub_add_cancel (Nat.le_of_not_lt hi)]

/-- Filling the low bits and adding one moves to the start of the next block, modulo the
word size. -/
lemma toNat_or_lowMask_add_one {k : Nat} (hk : k < w) (x : BitVec w) :
    ((x ||| lowMask w k) + 1#w).toNat = (x.toNat / 2 ^ k + 1) * 2 ^ k % 2 ^ w := by
  have hpos : 0 < 2 ^ k := Nat.two_pow_pos k
  have hw : 2 ^ w ≠ 1 := by
    have : 2 ^ k < 2 ^ w := Nat.pow_lt_pow_right (by omega) hk
    omega
  have hone : (1#w).toNat = 1 := by simp [Nat.one_mod_eq_one.mpr hw]
  rw [BitVec.toNat_add, toNat_or_lowMask hk, hone, add_mul, one_mul]
  congr 1
  omega

/-- Two words agree above the mask iff they lie in the same block. -/
lemma xor_and_not_lowMask_eq_zero {k : Nat} (hk : k < w) (x y : BitVec w) :
    (x ^^^ y) &&& ~~~lowMask w k = 0#w ↔ x.toNat / 2 ^ k = y.toNat / 2 ^ k := by
  have hpos : 0 < 2 ^ k := Nat.two_pow_pos k
  have hquot : (x ^^^ y).toNat / 2 ^ k = 0 ↔ x.toNat / 2 ^ k = y.toNat / 2 ^ k := by
    rw [BitVec.toNat_xor, Nat.xor_div_two_pow, Nat.xor_eq_zero_iff]
  rw [← hquot, ← BitVec.toNat_inj, toNat_and_not_lowMask hk]
  simp

/-- A shifted-down field of `j` bits is a remainder of the quotient. -/
lemma toNat_shift_and_lowMask {v k j : Nat} (hj : j < v) (x : BitVec w) :
    (((x >>> k).setWidth v) &&& lowMask v j).toNat = x.toNat / 2 ^ k % 2 ^ j := by
  rw [toNat_and_lowMask hj, BitVec.toNat_setWidth, BitVec.toNat_ushiftRight, Nat.shiftRight_eq_div_pow,
    Nat.mod_mod_of_dvd _ (Nat.pow_dvd_pow 2 hj.le)]

/-! ### Sets of flags -/

lemma and_eq_right_iff (x p : BitVec w) :
    x &&& p = p ↔ ∀ i, p.getLsbD i = true → x.getLsbD i = true := by
  constructor
  · intro h i hi
    have hbit := congrArg (fun y => BitVec.getLsbD y i) h
    simp only [BitVec.getLsbD_and, hi, Bool.and_true] at hbit
    exact hbit
  · intro h
    apply BitVec.eq_of_getLsbD_eq
    intro i _
    rw [BitVec.getLsbD_and]
    cases hp : p.getLsbD i
    · rw [Bool.and_false]
    · rw [h i hp, Bool.and_true]

lemma and_ne_zero_iff (x p : BitVec w) :
    x &&& p ≠ 0#w ↔ ∃ i, p.getLsbD i = true ∧ x.getLsbD i = true := by
  constructor
  · intro h
    by_contra hno
    apply h
    apply BitVec.eq_of_getLsbD_eq
    intro i _
    rw [BitVec.getLsbD_and, BitVec.getLsbD_zero]
    cases hp : p.getLsbD i
    · rw [Bool.and_false]
    · cases hx : x.getLsbD i
      · rfl
      · exact absurd ⟨i, hp, hx⟩ hno
  · rintro ⟨i, hp, hx⟩ h
    have hbit := congrArg (fun y => BitVec.getLsbD y i) h
    simp [BitVec.getLsbD_and, hp, hx] at hbit

/-! ### Fields of a word -/

section Fields

variable {n m k lo start : Nat}

/-- The word with `x` in the bits from `lo` on. -/
def place (w lo : Nat) (x : BitVec n) : BitVec w := x.setWidth w <<< lo

lemma getLsbD_place (x : BitVec n) (i : Nat) :
    (place w lo x).getLsbD i = (decide (lo ≤ i ∧ i < w) && x.getLsbD (i - lo)) := by
  rw [place, BitVec.getLsbD_shiftLeft, BitVec.getLsbD_setWidth]
  by_cases hi : lo ≤ i ∧ i < w
  · rw [decide_eq_true hi, decide_eq_true hi.2, decide_eq_false (by omega), decide_eq_true (by omega)]
    rfl
  · rw [decide_eq_false hi]
    by_cases hw : i < w
    · rw [decide_eq_true (show i < lo by omega)]
      simp
    · rw [decide_eq_false hw]
      rfl

/-- A field is read back from its place. -/
lemma extract_place (x : BitVec n) (h : lo + n ≤ w) : (place w lo x).extractLsb' lo n = x := by
  apply BitVec.eq_of_getLsbD_eq
  intro i hi
  rw [BitVec.getLsbD_extractLsb', getLsbD_place, decide_eq_true hi, decide_eq_true (by omega), Nat.add_sub_cancel_left,
    Bool.true_and, Bool.true_and]

/-- A field does not spill into the bits before it or behind it. -/
lemma extract_place_apart (x : BitVec n) (h : start + m ≤ lo ∨ lo + n ≤ start) :
    (place w lo x).extractLsb' start m = 0#m := by
  apply BitVec.eq_of_getLsbD_eq
  intro i hi
  rw [BitVec.getLsbD_extractLsb', getLsbD_place, BitVec.getLsbD_zero]
  rcases h with hbefore | hbehind
  · rw [decide_eq_false (show ¬ (lo ≤ start + i ∧ start + i < w) by omega), Bool.false_and, Bool.and_false]
  · rw [BitVec.getLsbD_of_ge x (start + i - lo) (by omega), Bool.and_false, Bool.and_false]

/-- Bits that are masked and shifted into place. -/
lemma and_mask_shiftLeft {a b : Nat} (hab : a ≤ b) (hb : b < w) (x : BitVec w) (k : Nat) :
    (x &&& (lowMask w b &&& ~~~lowMask w a)) <<< k = place w (a + k) (x.extractLsb' a (b - a)) := by
  apply BitVec.eq_of_getLsbD_eq
  intro i hi
  rw [BitVec.getLsbD_shiftLeft, BitVec.getLsbD_and, BitVec.getLsbD_and, BitVec.getLsbD_not, getLsbD_lowMask hb,
    getLsbD_lowMask (Nat.lt_of_le_of_lt hab hb), getLsbD_place, BitVec.getLsbD_extractLsb', decide_eq_true hi]
  by_cases hlow : a + k ≤ i
  · rw [decide_eq_false (show ¬ i < k by omega), decide_eq_true (show i - k < w by omega),
      decide_eq_false (show ¬ i - k < a by omega), decide_eq_true (show a + k ≤ i ∧ i < w from ⟨hlow, hi⟩),
      show a + (i - (a + k)) = i - k by omega, show decide (i - (a + k) < b - a) = decide (i - k < b) from
        decide_eq_decide.2 (by omega)]
    simp [Bool.and_comm]
  · rw [decide_eq_false (show ¬ (a + k ≤ i ∧ i < w) by omega)]
    by_cases hk : i < k
    · rw [decide_eq_true hk]
      simp
    · rw [decide_eq_true (show i - k < a by omega)]
      simp

/-- Bits that are shifted behind the end of the word are lost. -/
lemma place_lost (x : BitVec n) (h : w ≤ lo) : place w lo x = 0#w := by
  apply BitVec.eq_of_getLsbD_eq
  intro i hi
  rw [getLsbD_place, decide_eq_false (by omega), BitVec.getLsbD_zero, Bool.false_and]

end Fields

/-! ### Blocks inside blocks -/

lemma div_eq_of_le {x y k j : Nat} (hkj : k ≤ j) (h : x / 2 ^ k = y / 2 ^ k) :
    x / 2 ^ j = y / 2 ^ j := by
  obtain ⟨d, rfl⟩ := Nat.exists_eq_add_of_le hkj
  rw [pow_add, ← Nat.div_div_eq_div_mul, ← Nat.div_div_eq_div_mul, h]

end BitField
