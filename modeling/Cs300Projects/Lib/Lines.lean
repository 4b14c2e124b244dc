import Mathlib.Data.List.Basic
import Mathlib.Tactic.Common

/-!
# Lines of a text

The complete lines of a text, and a reader that takes a line in pieces of bounded length. The reader stops behind the end
of a line, so a line that is longer than its buffer is cut.
-/

namespace Lines

variable {α : Type*} [DecidableEq α] (nl : α)

/-- The lines that are ended by `nl`, without it. What stands behind the last `nl` is not a line. -/
def completeLines : List α → List (List α)
  | [] => []
  | c :: s =>
    if c = nl then [] :: completeLines s
    else match completeLines s with
      | [] => []
      | l :: ls => (c :: l) :: ls

/-- At most `n` characters, up to the first `nl`, with the rest of the text. -/
def readLine : Nat → List α → List α × List α
  | 0, s => ([], s)
  | _ + 1, [] => ([], [])
  | n + 1, c :: s => if c = nl then ([c], s) else (c :: (readLine n s).1, (readLine n s).2)

/-- `fgets` with a buffer of `size` characters, of which one is the terminating NUL; `none` at the end of the text. -/
def fgets (size : Nat) (s : List α) : Option (List α × List α) :=
  if s = [] then none else some (readLine nl (size - 1) s)

variable {nl} {c : α} {s : List α}

lemma completeLines_end (s : List α) : completeLines nl (nl :: s) = [] :: completeLines nl s := if_pos rfl

/-- A character in front of a text belongs to its first line. -/
lemma completeLines_cons (h : c ≠ nl) (s : List α) :
    completeLines nl (c :: s) = (completeLines nl s).modifyHead (c :: ·) := by
  rw [completeLines, if_neg h]
  cases completeLines nl s with
  | nil => rfl
  | cons l ls => rfl

end Lines
