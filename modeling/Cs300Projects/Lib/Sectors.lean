import Mathlib.Data.List.Basic
import Mathlib.Tactic.Common

/-!
# Files on sectors

A disk is written in sectors of `w` bytes. Files are laid out one after the other, each padded to a whole number of
sectors, with unused sectors in between.
-/

namespace Sectors

variable {α : Type*} (w : Nat) (z : α)

/-- A file padded to whole sectors. -/
def padded (s : List α) : List α := s ++ List.replicate ((w - s.length % w) % w) z

/-- The number of sectors that `n` bytes take. -/
def count (n : Nat) : Nat := (n + (w - 1)) / w

/-- Sector `k` of a disk. -/
def sector (s : List α) (k : Nat) : List α := (s.drop (w * k)).take w

/-- What is laid out: a file, or a sector to which the layout skips. -/
inductive Item (α : Type*) where
  | skip (k : Nat)
  | file (content : List α)

/-- A file at its first sector. -/
structure Placement (α : Type*) where
  start : Nat
  content : List α

/-- Every file starts where the one before it ends, or at the sector to which the layout has skipped. -/
def place : Nat → List (Item α) → List (Placement α)
  | _, [] => []
  | _, .skip k :: items => place k items
  | n, .file content :: items => ⟨n, content⟩ :: place (n + count w content.length) items

/-- The sector at which the layout ends. -/
def finish : Nat → List (Item α) → Nat
  | n, [] => n
  | _, .skip k :: items => finish k items
  | n, .file content :: items => finish (n + count w content.length) items

/-- The layout never skips back. -/
def Forward : Nat → List (Item α) → Prop
  | _, [] => True
  | n, .skip k :: items => n ≤ k ∧ Forward k items
  | n, .file content :: items => Forward (n + count w content.length) items

/-- The bytes of the layout from sector `n` on. -/
def image : Nat → List (Item α) → List α
  | _, [] => []
  | n, .skip k :: items => List.replicate (w * (k - n)) z ++ image k items
  | n, .file content :: items => padded w z content ++ image (n + count w content.length) items

/-- The sector is one of those of a file. -/
def Placement.Covers (p : Placement α) (k : Nat) : Prop := p.start ≤ k ∧ k < p.start + count w p.content.length

variable {w z} {s t : List α} {n k : Nat} {items : List (Item α)}

lemma length_padded (hw : 0 < w) (s : List α) : (padded w z s).length = w * count w s.length := by
  have hmod := Nat.mod_lt s.length hw
  have hdiv := Nat.div_add_mod s.length w
  have hcount : count w s.length = s.length / w + (s.length % w + (w - 1)) / w := by
    rw [← Nat.mul_add_div hw, ← Nat.add_assoc, hdiv]
    rfl
  rw [padded, List.length_append, List.length_replicate, hcount, Nat.mul_add]
  by_cases hzero : s.length % w = 0
  · have hnone : (w - 1) / w = 0 := Nat.div_eq_of_lt (by omega)
    rw [hzero, Nat.zero_add, hnone, Nat.sub_zero, Nat.mod_self]
    omega
  · have hone : (s.length % w + (w - 1)) / w = 1 := Nat.div_eq_of_lt_le (by omega) (by omega)
    rw [hone, Nat.mod_eq_of_lt (by omega)]
    omega

lemma sector_append_left (hs : s.length = w * n) (hk : k < n) (t : List α) : sector w (s ++ t) k = sector w s k := by
  have hle : w * k + w ≤ w * n := by
    rw [← Nat.mul_succ]
    exact Nat.mul_le_mul_left w hk
  unfold sector
  rw [List.drop_append_of_le_length (by omega), List.take_append_of_le_length (by rw [List.length_drop]; omega)]

lemma sector_append_right (hs : s.length = w * n) (t : List α) (k : Nat) : sector w (s ++ t) (n + k) = sector w t k := by
  unfold sector
  rw [Nat.mul_add, ← List.drop_drop, List.drop_left' hs]

lemma sector_replicate (hk : k < n) : sector w (List.replicate (w * n) z) k = List.replicate w z := by
  have hle : w * k + w ≤ w * n := by
    rw [← Nat.mul_succ]
    exact Nat.mul_le_mul_left w hk
  unfold sector
  rw [List.drop_replicate, List.take_replicate, Nat.min_eq_left (by omega)]

lemma sector_unused (hs : s.length = w * n) {m : Nat} (hn : n ≤ k) (hk : k < n + m) (t : List α) :
    sector w (s ++ (List.replicate (w * m) z ++ t)) k = List.replicate w z := by
  obtain ⟨i, rfl⟩ := Nat.exists_eq_add_of_le hn
  rw [sector_append_right hs, sector_append_left List.length_replicate (by omega), sector_replicate (by omega)]

lemma le_finish (h : Forward w n items) : n ≤ finish w n items := by
  induction items generalizing n with
  | nil => exact Nat.le_refl n
  | cons item items ih =>
    cases item with
    | skip k => exact Nat.le_trans h.1 (ih h.2)
    | file content => exact Nat.le_trans (Nat.le_add_right _ _) (ih h)

lemma length_image (hw : 0 < w) (h : Forward w n items) : (image w z n items).length + w * n = w * finish w n items := by
  induction items generalizing n with
  | nil => exact Nat.zero_add _
  | cons item items ih =>
    cases item with
    | skip k =>
      have hk : w * (k - n) + w * n = w * k := by rw [← Nat.mul_add, Nat.sub_add_cancel h.1]
      have hrest := ih h.2
      rw [image, List.length_append, List.length_replicate, finish, ← hrest]
      omega
    | file content =>
      have hrest := ih h
      rw [image, List.length_append, length_padded hw, finish, ← hrest, Nat.mul_add]
      omega

/-- The layout, on a disk with something before and behind it: every file is in its sectors, and the others are unused. -/
theorem sector_image (hw : 0 < w) (hs : s.length = w * n) (h : Forward w n items) (t : List α) :
    (∀ p ∈ place w n items, ∀ j < count w p.content.length,
      sector w (s ++ (image w z n items ++ t)) (p.start + j) = sector w (padded w z p.content) j) ∧
    ∀ k, n ≤ k → k < finish w n items → (∀ p ∈ place w n items, ¬ p.Covers w k) →
      sector w (s ++ (image w z n items ++ t)) k = List.replicate w z := by
  induction items generalizing n s with
  | nil => exact ⟨fun p hp => absurd hp List.not_mem_nil, fun k hn hk => absurd hk (Nat.not_lt_of_le hn)⟩
  | cons item items ih =>
    cases item with
    | skip m =>
      have hlength : (s ++ List.replicate (w * (m - n)) z).length = w * m := by
        rw [List.length_append, List.length_replicate, hs, ← Nat.mul_add, Nat.add_sub_cancel' h.1]
      have hih := ih hlength h.2
      simp only [List.append_assoc] at hih
      rw [image]
      simp only [List.append_assoc]
      refine ⟨hih.1, fun k hn hk hfree => ?_⟩
      by_cases hkm : m ≤ k
      · exact hih.2 k hkm hk hfree
      · exact sector_unused hs hn (by have hnm : n ≤ m := h.1; omega) _
    | file content =>
      have hpadded := length_padded (z := z) hw content
      have hlength : (s ++ padded w z content).length = w * (n + count w content.length) := by
        rw [List.length_append, hpadded, hs, Nat.mul_add]
      have hih := ih hlength h
      simp only [List.append_assoc] at hih
      rw [image]
      simp only [List.append_assoc]
      constructor
      · intro p hp j hj
        rcases List.mem_cons.1 hp with rfl | hp
        · rw [sector_append_right hs, sector_append_left hpadded hj]
        · exact hih.1 p hp j hj
      · intro k hn hk hfree
        have hself : ¬ (n ≤ k ∧ k < n + count w content.length) := hfree ⟨n, content⟩ List.mem_cons_self
        exact hih.2 k (by omega) hk fun p hp => hfree p (List.mem_cons_of_mem _ hp)

end Sectors
