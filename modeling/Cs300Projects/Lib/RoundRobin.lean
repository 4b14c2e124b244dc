import Mathlib.Data.List.Basic
import Mathlib.Tactic.Common

/-!
# Round-robin choice

Among `n` places on a circle, a scheduler goes on from the place chosen last and takes the first one
that is ready. The distance to a place that stays ready decreases with every choice, so the place is
chosen within `n` choices.
-/

namespace RoundRobin

variable {n : Nat}

/-- The number of steps from `c` to `i` around the circle, of which there is at least one. -/
def distance (n c i : Nat) : Nat := if c < i then i - c else n + i - c

lemma distance_pos {c i : Nat} (hc : c < n) : 0 < distance n c i := by
  unfold distance
  split <;> omega

lemma distance_le {c i : Nat} (hi : i < n) : distance n c i ≤ n := by
  unfold distance
  split <;> omega

/-- The place after `c`. -/
lemma distance_succ {c i : Nat} (hc : c < n) (hi : i < n) (hne : (c + 1) % n ≠ i) :
    distance n c i = distance n ((c + 1) % n) i + 1 := by
  rcases Nat.lt_or_ge (c + 1) n with hlt | hge
  · rw [Nat.mod_eq_of_lt hlt] at hne ⊢
    unfold distance
    split <;> split <;> omega
  · obtain rfl : c + 1 = n := by omega
    rw [Nat.mod_self] at hne ⊢
    unfold distance
    split <;> split <;> omega

lemma distance_succ_self {c : Nat} (hc : c < n) : distance n c ((c + 1) % n) = 1 := by
  rcases Nat.lt_or_ge (c + 1) n with hlt | hge
  · rw [Nat.mod_eq_of_lt hlt]
    unfold distance
    split <;> omega
  · obtain rfl : c + 1 = n := by omega
    rw [Nat.mod_self]
    unfold distance
    split <;> omega

/-- `j` is the first place after `c` that is ready. -/
structure First (n : Nat) (ready : Nat → Prop) (c j : Nat) : Prop where
  lt : j < n
  isReady : ready j
  first : ∀ i, i < n → ready i → distance n c j ≤ distance n c i

lemma First.of_succ {ready : Nat → Prop} {c : Nat} (hc : c < n) (hready : ready ((c + 1) % n)) :
    First n ready c ((c + 1) % n) where
  lt := Nat.mod_lt _ (by omega)
  isReady := hready
  first i hi _ := by
    rw [distance_succ_self hc]
    exact distance_pos hc

/-- A place that is not ready is passed. -/
lemma First.skip {ready : Nat → Prop} {c j : Nat} (hc : c < n) (hnot : ¬ ready ((c + 1) % n))
    (h : First n ready ((c + 1) % n) j) : First n ready c j where
  lt := h.lt
  isReady := h.isReady
  first i hi hready := by
    have hpass : ∀ k, ready k → (c + 1) % n ≠ k := fun k hk heq => hnot (heq ▸ hk)
    rw [distance_succ hc h.lt (hpass j h.isReady), distance_succ hc hi (hpass i hready)]
    exact Nat.succ_le_succ (h.first i hi hready)

/-- When another place is chosen, a ready place comes closer. -/
lemma First.closer {ready : Nat → Prop} {c i j : Nat} (hc : c < n) (hi : i < n) (hready : ready i)
    (h : First n ready c j) (hne : j ≠ i) : distance n j i < distance n c i := by
  have hle := h.first i hi hready
  have hlt := h.lt
  unfold distance at hle ⊢
  split at hle <;> split at hle <;> split <;> omega

/-- Successive choices from the place `c`; `i` is ready at each of them. -/
inductive Choices (n i : Nat) : Nat → List Nat → Prop
  | nil (c : Nat) : Choices n i c []
  | cons {c j : Nat} {ready : Nat → Prop} {js : List Nat} (hready : ready i) (hfirst : First n ready c j)
      (hrest : Choices n i j js) : Choices n i c (j :: js)

/-- A place that stays ready is chosen before the distance to it is used up. -/
theorem Choices.mem_take {c i : Nat} {js : List Nat} (h : Choices n i c js) (hc : c < n) (hi : i < n)
    (hlen : distance n c i ≤ js.length) : i ∈ js.take (distance n c i) := by
  induction h with
  | nil c => exact absurd (Nat.le_zero.1 hlen) (Nat.ne_of_gt (distance_pos hc))
  | @cons c j ready js hready hfirst hrest ih =>
    have hpos := distance_pos (i := i) hc
    obtain ⟨d, hd⟩ : ∃ d, distance n c i = d + 1 := ⟨distance n c i - 1, by omega⟩
    rw [hd, List.take_succ_cons, List.mem_cons]
    by_cases heq : j = i
    · exact Or.inl heq.symm
    · have hcloser := hfirst.closer hc hi hready heq
      rw [List.length_cons] at hlen
      have hmem := ih hfirst.lt (by omega)
      exact Or.inr (List.take_subset_take_left js (by omega) hmem)

/-- Whatever happens to the other places, `n` choices are enough. -/
theorem Choices.mem_take_size {c i : Nat} {js : List Nat} (h : Choices n i c js) (hc : c < n) (hi : i < n)
    (hlen : n ≤ js.length) : i ∈ js.take n :=
  List.take_subset_take_left js (distance_le hi)
    (h.mem_take hc hi (Nat.le_trans (distance_le hi) hlen))

end RoundRobin
