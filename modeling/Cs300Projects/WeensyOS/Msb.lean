import Mathlib.Data.Nat.Digits.Lemmas
import Mathlib.Order.Bounds.Basic
import Mathlib.Tactic.Common

/-!
# Most significant bits and powers of two

`msb`, `round_down_pow2` and `round_up_pow2` of `lib.hh`, for the unsigned types: a number of the type
`T` is a word of its width.
-/

namespace Cs300Projects.WeensyOS

variable {w : Nat}

/-- The overload for the width of `x`, with its `__builtin_clz`. -/
def msb (x : BitVec w) : Nat := if x = 0#w then 0 else w - x.clz.toNat

/-- `T(1) << k`, which is undefined from the width of `T` on. -/
def shiftOne (w k : Nat) : Option (BitVec w) := if k < w then some (1#w <<< k) else none

def roundDownPow2 (x : BitVec w) : Option (BitVec w) := if x = 0#w then some 0#w else shiftOne w (msb x - 1)

def roundUpPow2 (x : BitVec w) : Option (BitVec w) := if x = 0#w then some 0#w else shiftOne w (msb (x - 1#w))

lemma toNat_pos {x : BitVec w} (hx : x ≠ 0#w) : 0 < x.toNat :=
  Nat.pos_of_ne_zero fun h => hx (BitVec.eq_of_toNat_eq (by simpa using h))

lemma toNat_lt_msb (x : BitVec w) : x.toNat < 2 ^ msb x := by
  unfold msb
  split
  · rename_i hx
    simp [hx]
  · exact BitVec.toNat_lt_two_pow_sub_clz

lemma msb_le (x : BitVec w) : msb x ≤ w := by
  unfold msb
  split
  · exact Nat.zero_le w
  · exact Nat.sub_le _ _

lemma msb_pos {x : BitVec w} (hx : x ≠ 0#w) : 0 < msb x := by
  have hlt := toNat_lt_msb x
  have hpos := toNat_pos hx
  by_contra hzero
  rw [Nat.eq_zero_of_not_pos hzero, pow_zero] at hlt
  omega

lemma msb_le_toNat {x : BitVec w} (hx : x ≠ 0#w) : 2 ^ (msb x - 1) ≤ x.toNat := by
  have hw : 0 < w := Nat.lt_of_lt_of_le (msb_pos hx) (msb_le x)
  have hle := BitVec.two_pow_sub_clz_le_toNat_of_ne_zero hw hx
  unfold msb
  rwa [if_neg hx, Nat.sub_right_comm]

lemma msb_le_iff (x : BitVec w) (k : Nat) : msb x ≤ k ↔ x.toNat < 2 ^ k := by
  constructor
  · intro h
    exact Nat.lt_of_lt_of_le (toNat_lt_msb x) (Nat.pow_le_pow_right Nat.two_pos h)
  · intro h
    by_cases hx : x = 0#w
    · simp [msb, hx]
    · have hlt := Nat.lt_of_le_of_lt (msb_le_toNat hx) h
      have hexp := (Nat.pow_lt_pow_iff_right Nat.one_lt_two).1 hlt
      omega

theorem msb_eq_length_digits (x : BitVec w) : msb x = (Nat.digits 2 x.toNat).length := by
  apply Nat.le_antisymm
  · rw [msb_le_iff, ← Nat.digits_length_le_iff Nat.one_lt_two]
  · rw [Nat.digits_length_le_iff Nat.one_lt_two]
    exact toNat_lt_msb x

lemma shiftOne_eq_some_iff {k : Nat} {r : BitVec w} : shiftOne w k = some r ↔ k < w ∧ r.toNat = 2 ^ k := by
  unfold shiftOne
  split
  · rename_i hk
    have hone : (1#w <<< k).toNat = 2 ^ k := by
      have hw : 1 < 2 ^ w := Nat.one_lt_two_pow (by omega)
      have hpow : 2 ^ k < 2 ^ w := (Nat.pow_lt_pow_iff_right Nat.one_lt_two).2 hk
      rw [BitVec.toNat_shiftLeft, BitVec.toNat_ofNat, Nat.mod_eq_of_lt hw, Nat.one_shiftLeft, Nat.mod_eq_of_lt hpow]
    rw [Option.some.injEq, ← BitVec.toNat_inj, hone]
    exact ⟨fun h => ⟨hk, h.symm⟩, fun h => h.2.symm⟩
  · rename_i hk
    simp [hk]

lemma roundDownPow2_eq {x : BitVec w} (hx : x ≠ 0#w) :
    ∃ r, roundDownPow2 x = some r ∧ r.toNat = 2 ^ (msb x - 1) := by
  have hlt : msb x - 1 < w := by
    have hpos := msb_pos hx
    have hle := msb_le x
    omega
  have hone := shiftOne_eq_some_iff (w := w) (k := msb x - 1) (r := BitVec.ofNat w (2 ^ (msb x - 1)))
  have hpow : 2 ^ (msb x - 1) < 2 ^ w := (Nat.pow_lt_pow_iff_right Nat.one_lt_two).2 hlt
  rw [BitVec.toNat_ofNat, Nat.mod_eq_of_lt hpow] at hone
  refine ⟨BitVec.ofNat w (2 ^ (msb x - 1)), ?_, by rw [BitVec.toNat_ofNat, Nat.mod_eq_of_lt hpow]⟩
  unfold roundDownPow2
  rw [if_neg hx]
  exact hone.2 ⟨hlt, rfl⟩

/-- The powers of two from `x` on are those from `2 ^ msb (x - 1)` on. -/
lemma le_pow_iff {x : BitVec w} (hx : x ≠ 0#w) (k : Nat) : x.toNat ≤ 2 ^ k ↔ msb (x - 1#w) ≤ k := by
  have hpos := toNat_pos hx
  have hw : 1 < 2 ^ w := Nat.lt_of_le_of_lt hpos x.isLt
  have hsub : (x - 1#w).toNat = x.toNat - 1 := by
    have hone : 1#w ≤ x := by
      rw [BitVec.le_def, BitVec.toNat_ofNat, Nat.mod_eq_of_lt hw]
      exact hpos
    rw [BitVec.toNat_sub_of_le hone, BitVec.toNat_ofNat, Nat.mod_eq_of_lt hw]
  rw [msb_le_iff, hsub]
  omega

/-- Where it is defined, the result is the least power of two from `x` on. -/
lemma roundUpPow2_eq_some_iff {x : BitVec w} (hx : x ≠ 0#w) {r : BitVec w} :
    roundUpPow2 x = some r ↔ IsLeast {p : Nat | p.isPowerOfTwo ∧ x.toNat ≤ p} r.toNat := by
  unfold roundUpPow2
  rw [if_neg hx, shiftOne_eq_some_iff]
  constructor
  · rintro ⟨-, hr⟩
    rw [hr]
    refine ⟨⟨⟨_, rfl⟩, (le_pow_iff hx _).2 (Nat.le_refl _)⟩, ?_⟩
    rintro p ⟨⟨k, rfl⟩, hp⟩
    exact Nat.pow_le_pow_right Nat.two_pos ((le_pow_iff hx k).1 hp)
  · rintro ⟨⟨⟨k, hk⟩, hle⟩, hleast⟩
    have hmsb : msb (x - 1#w) ≤ k := (le_pow_iff hx k).1 (hk ▸ hle)
    have hpow := hleast ⟨⟨_, rfl⟩, (le_pow_iff hx (msb (x - 1#w))).2 (Nat.le_refl _)⟩
    rw [hk, Nat.pow_le_pow_iff_right Nat.one_lt_two] at hpow
    have heq : k = msb (x - 1#w) := Nat.le_antisymm hpow hmsb
    have hlt := r.isLt
    rw [hk, Nat.pow_lt_pow_iff_right Nat.one_lt_two] at hlt
    exact ⟨heq ▸ hlt, heq ▸ hk⟩

lemma roundDownPow2_isGreatest {x : BitVec w} (hx : x ≠ 0#w) :
    ∃ r, roundDownPow2 x = some r ∧ IsGreatest {p : Nat | p.isPowerOfTwo ∧ p ≤ x.toNat} r.toNat := by
  obtain ⟨r, hround, hr⟩ := roundDownPow2_eq hx
  refine ⟨r, hround, ?_⟩
  rw [hr]
  refine ⟨⟨⟨_, rfl⟩, msb_le_toNat hx⟩, ?_⟩
  rintro p ⟨⟨k, rfl⟩, hp⟩
  have hlt := Nat.lt_of_le_of_lt hp (toNat_lt_msb x)
  rw [Nat.pow_lt_pow_iff_right Nat.one_lt_two] at hlt
  exact Nat.pow_le_pow_right Nat.two_pos (by omega)

/-- `round_up_pow2` gives the least power of two from `x` on, if there is one in the type. -/
def RoundsUp (x : BitVec w) : Prop :=
  ∀ p, IsLeast {p : Nat | p.isPowerOfTwo ∧ x.toNat ≤ p} p → p < 2 ^ w → ∃ r, roundUpPow2 x = some r ∧ r.toNat = p

/-- `x` lies between the two numbers, and is one of them only if it is 0 or a power of two, and then it is both. -/
def Between (x down up : BitVec w) : Prop :=
  down ≤ x ∧ x ≤ up ∧ (down = x ↔ x = 0#w ∨ x.toNat.isPowerOfTwo) ∧ (up = x ↔ x = 0#w ∨ x.toNat.isPowerOfTwo)

theorem pow2_rounding (x : BitVec w) :
    msb x = (Nat.digits 2 x.toNat).length ∧
    (∃ down, roundDownPow2 x = some down ∧
      (x ≠ 0#w → IsGreatest {p : Nat | p.isPowerOfTwo ∧ p ≤ x.toNat} down.toNat) ∧ (x = 0#w → down = 0#w) ∧
      ∀ up, roundUpPow2 x = some up → Between x down up) ∧
    (x ≠ 0#w → RoundsUp x) ∧ (x = 0#w → roundUpPow2 x = some 0#w) := by
  refine ⟨msb_eq_length_digits x, ?_, fun hx p hleast hp => ?_, fun hx => if_pos hx⟩
  · by_cases hx : x = 0#w
    · refine ⟨0#w, if_pos hx, fun hne => absurd hx hne, fun _ => rfl, fun up hup => ?_⟩
      unfold roundUpPow2 at hup
      rw [if_pos hx, Option.some.injEq] at hup
      subst hx hup
      simp [Between]
    · obtain ⟨down, hdown, hgreatest⟩ := roundDownPow2_isGreatest hx
      refine ⟨down, hdown, fun _ => hgreatest, fun h => absurd h hx, fun up hup => ?_⟩
      rw [roundUpPow2_eq_some_iff hx] at hup
      refine ⟨hgreatest.1.2, hup.1.2, ?_, ?_⟩
      · constructor
        · intro heq
          exact Or.inr (heq ▸ hgreatest.1.1)
        · intro h
          have hle := hgreatest.2 ⟨h.resolve_left hx, Nat.le_refl _⟩
          exact BitVec.eq_of_toNat_eq (Nat.le_antisymm hgreatest.1.2 hle)
      · constructor
        · intro heq
          exact Or.inr (heq ▸ hup.1.1)
        · intro h
          have hle := hup.2 ⟨h.resolve_left hx, Nat.le_refl _⟩
          exact BitVec.eq_of_toNat_eq (Nat.le_antisymm hle hup.1.2)
  · have hp' : (BitVec.ofNat w p).toNat = p := by rw [BitVec.toNat_ofNat, Nat.mod_eq_of_lt hp]
    exact ⟨BitVec.ofNat w p, (roundUpPow2_eq_some_iff hx).2 (hp'.symm ▸ hleast), hp'⟩

/-- The least power of two from 0 on is 1. -/
theorem roundUpPow2_zero : ¬ RoundsUp 0#32 := by
  intro h
  have hleast : IsLeast {p : Nat | p.isPowerOfTwo ∧ (0#32).toNat ≤ p} 1 := by
    refine ⟨⟨⟨0, rfl⟩, by decide⟩, ?_⟩
    rintro p ⟨⟨k, rfl⟩, -⟩
    exact Nat.one_le_two_pow
  obtain ⟨r, hround, hr⟩ := h 1 hleast (by decide)
  have hzero : roundUpPow2 0#32 = some 0#32 := rfl
  rw [hzero, Option.some.injEq] at hround
  rw [← hround] at hr
  exact absurd hr (by decide)

end Cs300Projects.WeensyOS
