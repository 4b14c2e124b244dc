import Mathlib.Data.UInt
import Mathlib.Tactic.Common

/-!
# rand

The linear congruential generator of `lib.cc`, and `rand(min, max)`, which scales a number of the
generator to a range. An `int` wraps around.
-/

namespace Cs300Projects.WeensyOS

def randMax : Nat := 0x7FFFFFFF

/-- `rand_seed_set` and `rand_seed`. -/
structure RandState where
  seedSet : Bool
  seed : UInt64

def srand (seed : UInt32) : RandState := ⟨true, (seed.toUInt64 <<< 32) ||| seed.toUInt64⟩

def rand (s : RandState) : Nat × RandState :=
  let s := if s.seedSet then s else srand 819234718
  let seed := s.seed * 6364136223846793005 + 1
  (((seed >>> 32) &&& 0x7FFFFFFF).toNat, { s with seed := seed })

/-- `rand(min, max)`; `none` when an assertion fails. -/
def randBetween (s : RandState) (min max : BitVec 32) : Option (BitVec 32 × RandState) :=
  if ¬ min.toInt ≤ max.toInt then none
  else if ¬ Int.bmod (max.toInt - min.toInt) (2 ^ 32) ≤ randMax then none
  else
    let (r, s) := rand s
    let width := Int.bmod (max.toInt - min.toInt + 1) (2 ^ 32)
    -- `width` is converted to an `unsigned long`
    let scaled : Nat := r * (width % 2 ^ 64).toNat % 2 ^ 64 / (randMax + 1)
    some (BitVec.ofInt 32 (min.toInt + scaled), s)

lemma rand_le (s : RandState) : (rand s).1 ≤ randMax := by
  unfold rand
  dsimp only
  rw [UInt64.toNat_and]
  exact Nat.and_le_right

section Between

variable {s : RandState} {min max : BitVec 32}

lemma randBetween_eq (hle : min.toInt ≤ max.toInt) (hwidth : max.toInt - min.toInt ≤ randMax) :
    randBetween s min max = some (BitVec.ofInt 32 (min.toInt + ((rand s).1 *
      (Int.bmod (max.toInt - min.toInt + 1) (2 ^ 32) % 2 ^ 64).toNat % 2 ^ 64 / (randMax + 1) : Nat)), (rand s).2) := by
  have hfit : Int.bmod (max.toInt - min.toInt) (2 ^ 32) = max.toInt - min.toInt := by
    unfold randMax at hwidth
    exact Int.bmod_eq_of_le (by omega) (by omega)
  unfold randBetween
  rw [if_neg (not_not.2 hle), if_neg (not_not.2 (by rw [hfit]; exact hwidth))]

/-- A range of at most 2³¹ - 1 numbers: the scaled number is less than their count. -/
lemma scaled_small {r : Nat} (hr : r ≤ randMax) {w : Int} (hw : 0 ≤ w) (hlt : w < randMax) :
    r * (Int.bmod (w + 1) (2 ^ 32) % 2 ^ 64).toNat % 2 ^ 64 / (randMax + 1) ≤ w.toNat := by
  unfold randMax at hr hlt
  have hfit : Int.bmod (w + 1) (2 ^ 32) = w + 1 := Int.bmod_eq_of_le (by omega) (by omega)
  have hnat : (Int.bmod (w + 1) (2 ^ 32) % 2 ^ 64).toNat = w.toNat + 1 := by
    rw [hfit]
    omega
  have hmul : r * (w.toNat + 1) < (randMax + 1) * (w.toNat + 1) :=
    Nat.mul_lt_mul_of_pos_right (by unfold randMax; omega) (Nat.succ_pos _)
  have hmod : r * (w.toNat + 1) % 2 ^ 64 ≤ r * (w.toNat + 1) := Nat.mod_le _ _
  rw [hnat, ← Nat.lt_succ_iff, Nat.div_lt_iff_lt_mul (by decide), Nat.mul_comm (w.toNat + 1)]
  exact Nat.lt_of_le_of_lt hmod hmul

/-- For the whole range of 2³¹ numbers the count is negative, and counted down from 2³³. -/
lemma scaled_whole {r : Nat} (hr : r ≤ randMax) (hpos : r ≠ 0) :
    r * (Int.bmod (randMax + 1) (2 ^ 32) % 2 ^ 64).toNat % 2 ^ 64 / (randMax + 1) = 2 ^ 33 - r := by
  have hnat : (Int.bmod (randMax + 1) (2 ^ 32) % 2 ^ 64).toNat = 2 ^ 64 - 2 ^ 31 := by decide
  unfold randMax at hr
  rw [hnat]
  unfold randMax
  omega

end Between

/-- A number of the range, for every state of the generator: the whole range of 2³¹ numbers is the
exception, unless the generator gives 0. -/
theorem randBetween_in_range (s : RandState) {min max : BitVec 32} (hle : min.toInt ≤ max.toInt)
    (hwidth : max.toInt - min.toInt ≤ randMax) :
    (∃ v s', randBetween s min max = some (v, s') ∧ min.toInt ≤ v.toInt ∧ v.toInt ≤ max.toInt) ↔
      max.toInt - min.toInt < randMax ∨ (rand s).1 = 0 := by
  have hmin := BitVec.le_toInt min
  have hmax := BitVec.toInt_lt (x := max)
  have hr := rand_le s
  have hcall := randBetween_eq (s := s) hle hwidth
  generalize hq : (rand s).1 * (Int.bmod (max.toInt - min.toInt + 1) (2 ^ 32) % 2 ^ 64).toNat % 2 ^ 64 / (randMax + 1) = q
    at hcall
  have hvalue : (∃ v s', randBetween s min max = some (v, s') ∧ min.toInt ≤ v.toInt ∧ v.toInt ≤ max.toInt) ↔
      min.toInt ≤ Int.bmod (min.toInt + q) (2 ^ 32) ∧ Int.bmod (min.toInt + q) (2 ^ 32) ≤ max.toInt := by
    rw [hcall]
    constructor
    · rintro ⟨v, s', heq, hrange⟩
      obtain ⟨rfl, -⟩ := Prod.mk.inj (Option.some.inj heq)
      rw [BitVec.toInt_ofInt] at hrange
      exact hrange
    · intro hrange
      rw [← BitVec.toInt_ofInt] at hrange
      exact ⟨_, _, rfl, hrange⟩
  rw [hvalue]
  by_cases hsmall : max.toInt - min.toInt < randMax
  · have hle := scaled_small hr (show 0 ≤ max.toInt - min.toInt by omega) hsmall
    rw [hq] at hle
    rw [Int.bmod_eq_of_le (by omega) (by omega)]
    exact ⟨fun _ => Or.inl hsmall, fun _ => by omega⟩
  · have hwhole : max.toInt - min.toInt = randMax := by omega
    rw [hwhole] at hq
    by_cases hzero : (rand s).1 = 0
    · rw [hzero, Nat.zero_mul, Nat.zero_mod, Nat.zero_div] at hq
      rw [← hq, Int.bmod_eq_of_le (by omega) (by omega)]
      exact ⟨fun _ => Or.inr hzero, fun _ => by omega⟩
    · rw [scaled_whole hr hzero] at hq
      unfold randMax at hr hwhole
      refine ⟨fun hrange => ?_, fun hor => absurd hor (not_or.2 ⟨hsmall, hzero⟩)⟩
      -- the result is congruent to a number below `min` by less than 2³¹
      have hcongr : (Int.bmod (min.toInt + q) (2 ^ 32) - min.toInt - q) % 2 ^ 32 = 0 := by
        have hmod := Int.bmod_emod (x := min.toInt + q) (m := 2 ^ 32)
        omega
      omega

theorem randBetween_in_range_sample :
    ∃ v s', randBetween (srand 1) 1 6 = some (v, s') ∧ 1 ≤ v.toInt ∧ v.toInt ≤ 6 :=
  (randBetween_in_range (srand 1) (show (1 : BitVec 32).toInt ≤ (6 : BitVec 32).toInt by decide) (by decide)).2
    (Or.inl (by decide))

/-- From 0 to `RAND_MAX` the result is negative. -/
theorem randBetween_out_of_range : ¬ ∃ v s', randBetween (srand 1) 0 0x7FFFFFFF = some (v, s') ∧
    0 ≤ v.toInt ∧ v.toInt ≤ 0x7FFFFFFF := by
  rintro ⟨v, s', heq, hpos, -⟩
  obtain ⟨rfl, -⟩ := Prod.mk.inj (Option.some.inj heq)
  revert hpos
  decide +kernel

end Cs300Projects.WeensyOS
