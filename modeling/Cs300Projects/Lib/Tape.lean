import Mathlib.Logic.Function.Basic
import Mathlib.Tactic.Common

/-!
# A screen as a window on an endless tape

Characters are written one after the other on a tape of rows of a fixed width; a newline fills
its row. A screen shows some consecutive rows of the tape. It stays a window on the tape when a
character is written to both, and it moves down by a row when the screen scrolls.
-/

/-- An endless tape with the position of the next character. -/
structure Tape (α : Type*) where
  cells : Nat → α
  pos : Nat

namespace Tape

variable {α : Type*}

/-- A character, or a newline with the blank that fills the row. -/
inductive Item (α : Type*) where
  | glyph (c : α)
  | newline (blank : α)

def put (t : Tape α) (c : α) : Tape α := ⟨Function.update t.cells t.pos c, t.pos + 1⟩

def fill (t : Tape α) (c : α) : Nat → Tape α
  | 0 => t
  | n + 1 => fill (t.put c) c n

/-- A newline at the beginning of a row fills the whole row. -/
def write (w : Nat) (t : Tape α) : Item α → Tape α
  | .glyph c => t.put c
  | .newline blank => t.fill blank (w - t.pos % w)

/-- The screen of `h` rows shows the tape from row `k` on, and nothing is written below it. -/
structure Window (w h : Nat) (zero : α) (screen : Nat → α) (cursor k : Nat) (t : Tape α) : Prop where
  rows : ∀ i, i < w * h → screen i = t.cells (w * k + i)
  pos : t.pos = w * k + cursor
  bound : cursor ≤ w * h
  unwritten : ∀ i, w * k + w * h ≤ i → t.cells i = zero

variable {w h : Nat} {zero : α} {screen screen' : Nat → α} {cursor k : Nat} {t : Tape α}

lemma Window.put (hw : Window w h zero screen cursor k t) (hcursor : cursor < w * h) {c : α}
    (hscreen : ∀ i, i < w * h → screen' i = if i = cursor then c else screen i) :
    Window w h zero screen' (cursor + 1) k (t.put c) where
  rows := by
    intro i hi
    have hcell : (t.put c).cells (w * k + i) = if i = cursor then c else t.cells (w * k + i) := by
      simp only [Tape.put, hw.pos, Function.update_apply]
      by_cases hic : i = cursor
      · rw [if_pos hic, if_pos (by omega)]
      · rw [if_neg hic, if_neg (by omega)]
    rw [hscreen i hi, hcell, hw.rows i hi]
  pos := by
    simp only [Tape.put, hw.pos]
    omega
  bound := hcursor
  unwritten := by
    intro i hi
    have hne : i ≠ t.pos := by
      rw [hw.pos]
      omega
    simp only [Tape.put, Function.update_of_ne hne]
    exact hw.unwritten i hi

lemma Window.scroll (hw : Window w h zero screen cursor k t) (hh : 0 < h) (hend : w * h ≤ cursor)
    (hup : ∀ i, i < w * (h - 1) → screen' i = screen (i + w))
    (hlast : ∀ i, w * (h - 1) ≤ i → i < w * h → screen' i = zero) :
    Window w h zero screen' (cursor - w) (k + 1) t := by
  have hrow : w * (h - 1) + w = w * h := by
    rw [← Nat.mul_succ, Nat.succ_eq_add_one, Nat.sub_add_cancel hh]
  have hnext : w * (k + 1) = w * k + w := Nat.mul_succ w k
  constructor
  case rows =>
    intro i hi
    rcases Nat.lt_or_ge i (w * (h - 1)) with hlt | hge
    · rw [hup i hlt, hw.rows (i + w) (by omega), hnext]
      congr 1
      omega
    · rw [hlast i hge hi, hw.unwritten]
      omega
  case pos =>
    have hpos := hw.pos
    omega
  case bound =>
    have hbound := hw.bound
    omega
  case unwritten =>
    intro i hi
    exact hw.unwritten i (by omega)

/-- A newline stays on the screen. -/
lemma row_fits (hcursor : cursor < w * h) : cursor + (w - cursor % w) ≤ w * h := by
  have hdiv : w * (cursor / w) + cursor % w = cursor := Nat.div_add_mod cursor w
  have hrow : cursor / w < h := Nat.div_lt_of_lt_mul hcursor
  have hle : w * (cursor / w + 1) ≤ w * h := Nat.mul_le_mul_left w hrow
  rw [Nat.mul_succ] at hle
  omega

lemma Window.column (hw : Window w h zero screen cursor k t) : t.pos % w = cursor % w := by
  rw [hw.pos, Nat.mul_add_mod]

end Tape
