import Mathlib.Data.List.Pairwise
import Mathlib.Data.List.Perm.Basic
import Mathlib.Tactic.Common

/-!
# Blocks of a heap

A heap that hands out blocks of memory which are apart from all blocks it has handed out and
not been given back, and a bag of blocks kept in a vector from which an element is removed by
moving the last one into its place.
-/

namespace Heap

structure Block where
  addr : Nat
  size : Nat
deriving DecidableEq, Repr

/-- Two blocks at different addresses that share no byte. -/
def Block.Apart (b c : Block) : Prop :=
  b.addr ≠ c.addr ∧ (b.addr + b.size ≤ c.addr ∨ c.addr + c.size ≤ b.addr)

instance (b c : Block) : Decidable (b.Apart c) :=
  inferInstanceAs (Decidable (_ ∧ (_ ∨ _)))

instance : Std.Symm Block.Apart := ⟨fun _ _ h => ⟨h.1.symm, h.2.symm⟩⟩

/-- The blocks that are handed out, and the addresses that have been given back. -/
structure System where
  held : List Block
  returned : List Nat
  apart : held.Pairwise Block.Apart

def System.empty : System := ⟨[], [], List.Pairwise.nil⟩

def System.Fresh (h : System) (b : Block) : Prop :=
  b.addr ≠ 0 ∧ ∀ c ∈ h.held, b.Apart c

instance (h : System) (b : Block) : Decidable (h.Fresh b) :=
  inferInstanceAs (Decidable (_ ∧ _))

/-- The answer of the heap to a request for `n` bytes: the block at `reply` when it is fresh, the
null pointer otherwise. -/
def System.malloc (h : System) (n reply : Nat) : Nat × System :=
  if hf : h.Fresh ⟨reply, n⟩ then
    (reply, ⟨⟨reply, n⟩ :: h.held, h.returned, List.pairwise_cons.2 ⟨hf.2, h.apart⟩⟩)
  else (0, h)

/-- Freeing the null pointer does nothing. -/
def System.free (h : System) (p : Nat) : System :=
  if p = 0 then h
  else ⟨h.held.filter (fun b => b.addr ≠ p), h.returned ++ [p], h.apart.filter _⟩

lemma System.malloc_cases (h : System) (n reply : Nat) :
    (h.malloc n reply = (0, h)) ∨
      ((h.malloc n reply).1 = reply ∧ h.Fresh ⟨reply, n⟩ ∧
        (h.malloc n reply).2.held = ⟨reply, n⟩ :: h.held ∧
        (h.malloc n reply).2.returned = h.returned) := by
  unfold System.malloc
  by_cases hf : h.Fresh ⟨reply, n⟩
  · right
    rw [dif_pos hf]
    exact ⟨rfl, hf, rfl, rfl⟩
  · left
    rw [dif_neg hf]

lemma System.free_returned (h : System) {p : Nat} (hp : p ≠ 0) :
    (h.free p).returned = h.returned ++ [p] := by
  rw [System.free, if_neg hp]

/-! ### Removal by swapping in the last element -/

section SwapRemove

variable {α : Type*}

/-- `v[i] = v.back(); v.pop_back()` -/
def swapRemove (v : List α) (i : Nat) : List α :=
  match v.getLast? with
  | none => []
  | some last => (v.set i last).dropLast

/-- The vector holds the removed element and what is left, in some order. -/
theorem swapRemove_perm (v : List α) (i : Nat) (hi : i < v.length) :
    List.Perm v (v[i] :: swapRemove v i) := by
  obtain ⟨init, last, rfl⟩ := (List.eq_nil_or_concat v).resolve_left (by
    intro hnil
    rw [hnil] at hi
    exact absurd hi (Nat.not_lt_zero i))
  simp only [List.concat_eq_append] at hi ⊢
  rw [List.length_append, List.length_singleton] at hi
  have hswap : swapRemove (init ++ [last]) i = init.set i last := by
    rw [swapRemove, List.getLast?_append, List.getLast?_singleton]
    rcases Nat.lt_or_ge i init.length with hlt | hge
    · simp [List.set_append_left _ _ hlt]
    · have heq : i = init.length := by omega
      simp [heq, List.set_append_right, List.set_eq_of_length_le]
  rw [hswap]
  rcases Nat.lt_or_ge i init.length with hlt | hge
  · rw [List.getElem_append_left hlt]
    have hset := List.set_perm_cons_eraseIdx hlt last
    have hget := List.getElem_cons_eraseIdx_perm hlt
    have hlast : List.Perm (init ++ [last]) (last :: init[i] :: init.eraseIdx i) :=
      (List.perm_append_singleton last init).trans (hget.symm.cons last)
    exact (hlast.trans (List.Perm.swap _ _ _)).trans (hset.symm.cons _)
  · have heq : i = init.length := by omega
    subst heq
    rw [List.getElem_append_right (Nat.le_refl _), List.set_eq_of_length_le (Nat.le_refl _)]
    simp

end SwapRemove

end Heap
