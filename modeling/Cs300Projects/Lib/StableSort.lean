import Mathlib.Data.List.Sort

/-!
# Sorting by a strict weak order

A comparison that may leave elements tied. A stable sort puts a list in order and leaves elements that are tied in the
order that they had; insertion sort is one. Whether a list is in order is seen from its neighbours.
-/

namespace StableSort

variable {α : Type*} (less : α → α → Bool)

/-- Neither element is less than the other. -/
def tied (a b : α) : Bool := !less a b && !less b a

/-- No element comes before one that is less. -/
def Ordered (l : List α) : Prop := l.Pairwise fun a b => less b a = false

/-- `l'` is `l` in order, with elements that are tied in the order that they had. -/
structure Sorted (l l' : List α) : Prop where
  perm : l'.Perm l
  ordered : Ordered less l'
  stable : ∀ a, l'.filter (tied less a) = l.filter (tied less a)

variable {less} {l l' : List α}

lemma sorted_self (h : Ordered less l) : Sorted less l l := ⟨List.Perm.refl l, h, fun _ => rfl⟩

/-- A list is out of order where some element is less than an earlier one. -/
lemma not_ordered_iff : ¬ Ordered less l ↔
    ∃ i j, ∃ (hi : i < l.length) (hj : j < l.length), i < j ∧ less l[j] l[i] = true := by
  unfold Ordered
  rw [List.pairwise_iff_getElem]
  push Not
  simp only [ne_eq, Bool.not_eq_false]

section Order

variable [order : IsStrictWeakOrder α fun a b => less a b = true]

lemma total (a b : α) : less b a = false ∨ less a b = false := by
  by_contra hboth
  rw [not_or, Bool.not_eq_false, Bool.not_eq_false] at hboth
  exact order.irrefl a (order.trans a b a hboth.2 hboth.1)

lemma not_less_trans {a b c : α} (hab : less b a = false) (hbc : less c b = false) : less c a = false := by
  by_contra hca
  rw [Bool.not_eq_false] at hca
  cases hless : less a b with
  | true =>
    have hcb := order.trans c a b hca hless
    rw [hbc] at hcb
    cases hcb
  | false =>
    cases hless' : less b c with
    | true =>
      have hba := order.trans b c a hless' hca
      rw [hab] at hba
      cases hba
    | false =>
      -- `a` and `b` are tied, and so are `b` and `c`
      have hac := order.incomp_trans a b c (by simp [hless, hab]) (by simp [hless', hbc])
      exact hac.2 hca

lemma tied_not_less {a b c : α} (hb : tied less a b = true) (hc : tied less a c = true) : less c b = false := by
  unfold tied at hb hc
  rw [Bool.and_eq_true, Bool.not_eq_true', Bool.not_eq_true'] at hb hc
  exact not_less_trans hb.1 hc.2

/-- It is enough to compare neighbours. -/
lemma ordered_iff_chain : Ordered less l ↔ l.IsChain fun a b => less b a = false := by
  have : IsTrans α fun a b => less b a = false := ⟨fun _ _ _ => not_less_trans⟩
  exact List.isChain_iff_pairwise.symm

theorem sorted_insertionSort (l : List α) : Sorted less l (l.insertionSort fun a b => less b a = false) := by
  have : Std.Total fun a b : α => less b a = false := ⟨total⟩
  have : IsTrans α fun a b => less b a = false := ⟨fun _ _ _ => not_less_trans⟩
  have hperm := List.perm_insertionSort (fun a b => less b a = false) l
  refine ⟨hperm, List.pairwise_insertionSort _ l, ?_⟩
  intro a
  -- the elements that are tied are in order before and after
  have hordered : (l.filter (tied less a)).Pairwise fun b c => less c b = false := by
    refine List.pairwise_of_forall_mem_list ?_
    intro b hb c hc
    exact tied_not_less (List.mem_filter.1 hb).2 (List.mem_filter.1 hc).2
  have hsublist := (List.sublist_insertionSort hordered List.filter_sublist).filter (tied less a)
  simp only [List.filter_filter, Bool.and_self] at hsublist
  exact (hsublist.eq_of_length (hperm.filter (tied less a)).length_eq.symm).symm

end Order

end StableSort
