import Mathlib.Data.List.Basic
import Mathlib.Tactic.Common

/-!
# Writing into a list at a position

`overwrite gap xs pos ys` puts `ys` over the elements of `xs` from `pos` on. The list grows when
`ys` ends behind its end, and a gap between them is filled. Two writes in a row are one write.
-/

variable {α : Type*}

def overwrite (gap : α) (xs : List α) (pos : Nat) : List α → List α
  | [] => xs
  | y :: ys => (xs ++ List.replicate (pos - xs.length) gap).take pos ++ y :: ys ++ xs.drop (pos + (ys.length + 1))

@[simp] lemma overwrite_nil (gap : α) (xs : List α) (pos : Nat) : overwrite gap xs pos [] = xs := rfl

lemma overwrite_eq (gap : α) (xs : List α) (pos : Nat) {ys : List α} (h : ys ≠ []) :
    overwrite gap xs pos ys =
      (xs ++ List.replicate (pos - xs.length) gap).take pos ++ ys ++ xs.drop (pos + ys.length) := by
  cases ys with
  | nil => exact absurd rfl h
  | cons y ys => simp [overwrite]

lemma length_overwrite (gap : α) (xs : List α) (pos : Nat) {ys : List α} (h : ys ≠ []) :
    (overwrite gap xs pos ys).length = max xs.length (pos + ys.length) := by
  rw [overwrite_eq gap xs pos h]
  simp only [List.length_append, List.length_take, List.length_replicate, List.length_drop]
  omega

lemma length_le_overwrite (gap : α) (xs : List α) (pos : Nat) (ys : List α) :
    xs.length ≤ (overwrite gap xs pos ys).length := by
  by_cases h : ys = []
  · simp [h]
  · rw [length_overwrite gap xs pos h]
    exact Nat.le_max_left _ _

/-- The element at each position after a write that is not empty. -/
lemma getElem?_overwrite (gap : α) (xs : List α) (pos : Nat) {ys : List α} (h : ys ≠ []) (i : Nat) :
    (overwrite gap xs pos ys)[i]? =
      if i < pos then (if i < xs.length then xs[i]? else some gap)
      else if i < pos + ys.length then ys[i - pos]? else xs[i]? := by
  have htake : ((xs ++ List.replicate (pos - xs.length) gap).take pos).length = pos := by
    simp only [List.length_append, List.length_take, List.length_replicate]
    omega
  rw [overwrite_eq gap xs pos h, List.append_assoc]
  by_cases hpos : i < pos
  · rw [if_pos hpos, List.getElem?_append_left (by omega), List.getElem?_take_of_lt hpos]
    by_cases hi : i < xs.length
    · rw [if_pos hi, List.getElem?_append_left hi]
    · rw [if_neg hi, List.getElem?_append_right (by omega), List.getElem?_replicate, if_pos (by omega)]
  · rw [if_neg hpos, List.getElem?_append_right (by omega), htake]
    by_cases hi : i < pos + ys.length
    · rw [if_pos hi, List.getElem?_append_left (by omega)]
    · rw [if_neg hi, List.getElem?_append_right (by omega), List.getElem?_drop]
      congr 1
      omega

/-- A write that begins where the last one ended. -/
theorem overwrite_append (gap : α) (xs : List α) (pos : Nat) (ys zs : List α) :
    overwrite gap (overwrite gap xs pos ys) (pos + ys.length) zs = overwrite gap xs pos (ys ++ zs) := by
  by_cases hys : ys = []
  · simp [hys]
  by_cases hzs : zs = []
  · simp [hzs]
  apply List.ext_getElem?
  intro i
  have hne : ys ++ zs ≠ [] := by simp [hys]
  have hpositive : 0 < ys.length := List.length_pos_iff.2 hys
  rw [getElem?_overwrite gap _ _ hzs, getElem?_overwrite gap _ _ hys, getElem?_overwrite gap _ _ hne,
    length_overwrite gap xs pos hys, List.length_append]
  by_cases hpos : i < pos
  · rw [if_pos (by omega : i < pos + ys.length), if_pos (by omega : i < max xs.length (pos + ys.length)), if_pos hpos,
      if_pos hpos]
  by_cases hfirst : i < pos + ys.length
  · rw [if_pos hfirst, if_pos (by omega), if_neg hpos, if_pos hfirst, if_neg hpos, if_pos (by omega),
      List.getElem?_append_left (by omega)]
  rw [if_neg hfirst, if_neg hpos, if_neg hpos, if_neg hfirst]
  by_cases hsecond : i < pos + ys.length + zs.length
  · rw [if_pos hsecond, if_pos (by omega), List.getElem?_append_right (by omega)]
    congr 1
    omega
  · rw [if_neg hsecond, if_neg (by omega)]
