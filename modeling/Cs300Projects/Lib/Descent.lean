import Mathlib.Data.Set.Finite.Basic
import Mathlib.Logic.Relation
import Mathlib.Order.WellFounded
import Mathlib.Order.Preorder.Finite
import Mathlib.Data.Fintype.Order

/-!
# Recursion along a graph

A recursive function that has no record of its calls ends exactly where no call lies below itself. What a call needs is
measured by fuel: a call within fuel `n + 1` makes its own calls within fuel `n`.
-/

namespace Descent

open Relation

variable {α : Type*} {r : α → α → Prop} {start a b : α}

section Fuel

variable {P : Nat → α → Prop} (hzero : ∀ a, ¬ P 0 a) (hstep : ∀ n a b, r a b → P (n + 1) a → P n b)

include hzero hstep

lemma transGen_descends (h : TransGen r a b) {n : Nat} (ha : P n a) : ∃ m, m < n ∧ P m b := by
  have hone : ∀ {n a b}, r a b → P n a → ∃ m, m < n ∧ P m b := by
    intro n a b hab ha
    cases n with
    | zero => exact absurd ha (hzero a)
    | succ n => exact ⟨n, Nat.lt_succ_self n, hstep n a b hab ha⟩
  induction h with
  | single hab => exact hone hab ha
  | tail _ hbc ih =>
    obtain ⟨m, hm, hb⟩ := ih
    obtain ⟨k, hk, hc⟩ := hone hbc hb
    exact ⟨k, Nat.lt_trans hk hm, hc⟩

/-- A call that ends does not lie below itself. -/
theorem no_cycle {n : Nat} (ha : P n a) : ¬ TransGen r a a := by
  intro h
  induction n using Nat.strongRecOn with
  | ind n ih =>
    obtain ⟨m, hm, hm'⟩ := transGen_descends hzero hstep h ha
    exact ih m hm hm'

end Fuel

/-- Where finitely many calls can be made, and none lies below itself, there is no infinite descent. -/
theorem acc_of_acyclic (hfinite : {a | ReflTransGen r start a}.Finite)
    (hacyclic : ∀ a, ReflTransGen r start a → ¬ TransGen r a a) (ha : ReflTransGen r start a) : Acc (fun b a => r a b) a := by
  have : Finite {a | ReflTransGen r start a} := hfinite
  let below : {a | ReflTransGen r start a} → {a | ReflTransGen r start a} → Prop := fun b a => TransGen r a.1 b.1
  have : IsTrans _ below := ⟨fun _ _ _ hab hbc => hbc.trans hab⟩
  have : Std.Irrefl below := ⟨fun a h => hacyclic a.1 a.2 h⟩
  have hwf : WellFounded below := Finite.wellFounded_of_trans_of_irrefl below
  have hacc : ∀ x : {a | ReflTransGen r start a}, Acc (fun b a => r a b) x.1 := by
    intro x
    induction x using hwf.induction with
    | h x ih =>
      constructor
      intro b hb
      exact ih ⟨b, x.2.tail hb⟩ (TransGen.single hb)
  exact hacc ⟨a, ha⟩

end Descent
