import Cs300Projects.Lib.Bytes
import Mathlib.Logic.Function.Basic

/-!
# memcpy, memmove and memset

The byte loops of `lib.cc`, on ranges that do not wrap around the address space.
-/

namespace Cs300Projects.WeensyOS

open Bytes

/-- `while (n-- > 0) *d++ = *s++` -/
def copyUp : Nat → (Nat → UInt8) → Nat → Nat → Nat → UInt8
  | 0, m, _, _ => m
  | n + 1, m, d, s => copyUp n (Function.update m d (m s)) (d + 1) (s + 1)

/-- `while (n-- > 0) *--d = *--s` -/
def copyDown : Nat → (Nat → UInt8) → Nat → Nat → Nat → UInt8
  | 0, m, _, _ => m
  | n + 1, m, d, s => copyDown n (Function.update m (d - 1) (m (s - 1))) (d - 1) (s - 1)

/-- `for (char* d = dst; n > 0; --n, ++s, ++d) *d = *s` -/
def memcpy (m : Nat → UInt8) (dst src n : Nat) : Nat → UInt8 := copyUp n m dst src

def memmove (m : Nat → UInt8) (dst src n : Nat) : Nat → UInt8 :=
  if src < dst ∧ src + n > dst then copyDown n m (dst + n) (src + n) else copyUp n m dst src

/-- `for (char* p = v; n > 0; ++p, --n) *p = c` -/
def memset : Nat → (Nat → UInt8) → Nat → UInt8 → Nat → UInt8
  | 0, m, _, _ => m
  | n + 1, m, p, c => memset n (Function.update m p c) (p + 1) c

lemma copyUp_eq (n : Nat) (m : Nat → UInt8) (d s : Nat) (h : d ≤ s ∨ s + n ≤ d) :
    copyUp n m d s = blit m d n (fun i => m (s + i)) := by
  induction n generalizing m d s with
  | zero => exact (blit_zero m d _).symm
  | succ n ih =>
    have hsource : ∀ i, i < n → Function.update m d (m s) (s + 1 + i) = m (s + (1 + i)) := by
      intro i hi
      rw [Function.update_of_ne (by omega), Nat.add_assoc]
    have hfirst : Function.update m d (m s) = blit m d 1 (fun i => m (s + i)) := by
      funext x
      simp only [blit, Function.update_apply]
      by_cases hx : x = d
      · rw [if_pos hx, if_pos (by omega), hx, Nat.sub_self, Nat.add_zero]
      · rw [if_neg hx, if_neg (by omega)]
    rw [copyUp, ih _ (d + 1) (s + 1) (by omega), blit_congr hsource, hfirst,
      blit_append m d 1 n (fun i => m (s + i)), Nat.add_comm 1 n]

/-- Copying downwards, from the ends of the ranges, is right when the destination does not end inside the source. -/
lemma copyDown_eq (n : Nat) (m : Nat → UInt8) (d s : Nat) (h : s ≤ d) (hn : n ≤ s) :
    copyDown n m d s = blit m (d - n) n (fun i => m (s - n + i)) := by
  induction n generalizing m d s with
  | zero => exact (blit_zero m _ _).symm
  | succ n ih =>
    have hsource : ∀ i, i < n → Function.update m (d - 1) (m (s - 1)) (s - 1 - n + i) = m (s - (n + 1) + i) := by
      intro i hi
      rw [Function.update_of_ne (by omega), show s - 1 - n = s - (n + 1) by omega]
    rw [copyDown, ih _ (d - 1) (s - 1) (by omega) (by omega), blit_congr hsource]
    funext x
    simp only [blit, Function.update_apply]
    by_cases hlast : x = d - 1
    · rw [if_neg (by omega), if_pos hlast, if_pos (by omega), hlast, show s - (n + 1) + (d - 1 - (d - (n + 1))) = s - 1 by omega]
    · rw [if_neg hlast, show d - 1 - n = d - (n + 1) by omega]
      by_cases hx : d - (n + 1) ≤ x ∧ x < d - (n + 1) + n
      · rw [if_pos hx, if_pos (by omega)]
      · rw [if_neg hx, if_neg (by omega)]

lemma memset_eq (n : Nat) (m : Nat → UInt8) (p : Nat) (c : UInt8) : memset n m p c = fill m p c n := by
  induction n generalizing m p with
  | zero =>
    funext x
    exact (fill_outside (by unfold Outside; omega)).symm
  | succ n ih =>
    rw [memset, ih]
    funext x
    simp only [fill, Function.update_apply]
    by_cases hx : p ≤ x ∧ x < p + (n + 1)
    · rw [if_pos hx]
      by_cases hrest : p + 1 ≤ x ∧ x < p + 1 + n
      · rw [if_pos hrest]
      · rw [if_neg hrest, if_pos (by omega)]
    · rw [if_neg hx, if_neg (by omega), if_neg (by omega)]

/-- The direction of the copy is right for all ranges. -/
lemma memmove_eq (m : Nat → UInt8) (dst src n : Nat) : memmove m dst src n = blit m dst n (fun i => m (src + i)) := by
  unfold memmove
  by_cases h : src < dst ∧ src + n > dst
  · rw [if_pos h, copyDown_eq n m (dst + n) (src + n) (by omega) (Nat.le_add_left n src), Nat.add_sub_cancel, Nat.add_sub_cancel]
  · rw [if_neg h]
    exact copyUp_eq n m dst src (by omega)

/-- `memmove` copies a range to a range that may overlap it, and changes nothing else. -/
theorem memmove_moves (m : Nat → UInt8) (dst src n : Nat) :
    (∀ i, i < n → memmove m dst src n (dst + i) = m (src + i)) ∧
      ∀ x, Outside x dst n → memmove m dst src n x = m x := by
  rw [memmove_eq]
  constructor
  · intro i hi
    rw [blit_inside (Nat.le_add_right dst i) (Nat.add_lt_add_left hi dst), Nat.add_sub_cancel_left]
  · exact fun x hx => blit_outside hx

end Cs300Projects.WeensyOS
