import Mathlib.Tactic.Common

/-!
# Bisection with three-way probes

A search that probes the middle of a range and stops there or goes on to one side. It ends at an
index exactly when that index is a hit and every probe on the way to it points towards it. The way to
an index depends on the range only.
-/

namespace Bisect

inductive Probe where
  | hit | right | left
  deriving DecidableEq

variable (probe : Nat → Probe)

/-- The search between `l` and `r`. -/
def search (l r : Nat) : Option Nat :=
  if l < r then
    let m := l + (r - l) / 2
    match probe m with
    | .hit => some m
    | .right => search (m + 1) r
    | .left => search l m
  else none
termination_by r - l

/-- The search with probes that may fail. -/
def searchOption (probe : Nat → Option Probe) (l r : Nat) : Option (Option Nat) :=
  if l < r then
    let m := l + (r - l) / 2
    match probe m with
    | none => none
    | some .hit => some (some m)
    | some .right => searchOption probe (m + 1) r
    | some .left => searchOption probe l m
  else some none
termination_by r - l

/-- The indices that are probed between `l` and `r` before `g`, when every probe points towards `g`. -/
def path (g l r : Nat) : List Nat :=
  if l < r then
    let m := l + (r - l) / 2
    if m = g then [] else if m < g then m :: path g (m + 1) r else m :: path g l m
  else []
termination_by r - l

variable {probe}

lemma search_empty {l r : Nat} (h : ¬ l < r) : search probe l r = none := by
  rw [search, if_neg h]

lemma search_hit {l r : Nat} (h : l < r) (hm : probe (l + (r - l) / 2) = .hit) :
    search probe l r = some (l + (r - l) / 2) := by
  rw [search, if_pos h]
  dsimp only
  rw [hm]

lemma search_right {l r : Nat} (h : l < r) (hm : probe (l + (r - l) / 2) = .right) :
    search probe l r = search probe (l + (r - l) / 2 + 1) r := by
  rw [search, if_pos h]
  dsimp only
  rw [hm]

lemma search_left {l r : Nat} (h : l < r) (hm : probe (l + (r - l) / 2) = .left) :
    search probe l r = search probe l (l + (r - l) / 2) := by
  rw [search, if_pos h]
  dsimp only
  rw [hm]

/-- Where no probe fails, the search is the other one. -/
lemma searchOption_eq {probe' : Nat → Option Probe} {l r : Nat} (h : ∀ m, l ≤ m → m < r → probe' m = some (probe m)) :
    searchOption probe' l r = some (search probe l r) := by
  induction hn : r - l using Nat.strongRecOn generalizing l r with
  | ind n ih =>
    subst hn
    rw [searchOption]
    by_cases hlr : l < r
    · have hmid : l ≤ l + (r - l) / 2 ∧ l + (r - l) / 2 < r := by omega
      rw [if_pos hlr]
      dsimp only
      rw [h _ hmid.1 hmid.2]
      cases hm : probe (l + (r - l) / 2) with
      | hit => rw [search_hit hlr hm]
      | right =>
        rw [search_right hlr hm]
        exact ih _ (by omega) (fun m hl hr => h m (by omega) hr) rfl
      | left =>
        rw [search_left hlr hm]
        exact ih _ (by omega) (fun m hl hr => h m hl (by omega)) rfl
    · rw [if_neg hlr, search_empty hlr]

lemma path_here {g l r : Nat} (h : l < r) (hm : l + (r - l) / 2 = g) : path g l r = [] := by
  rw [path, if_pos h]
  dsimp only
  rw [if_pos hm]

lemma path_right {g l r : Nat} (h : l < r) (hm : l + (r - l) / 2 < g) :
    path g l r = (l + (r - l) / 2) :: path g (l + (r - l) / 2 + 1) r := by
  rw [path, if_pos h]
  dsimp only
  rw [if_neg (Nat.ne_of_lt hm), if_pos hm]

lemma path_left {g l r : Nat} (h : l < r) (hm : g < l + (r - l) / 2) :
    path g l r = (l + (r - l) / 2) :: path g l (l + (r - l) / 2) := by
  rw [path, if_pos h]
  dsimp only
  rw [if_neg (Nat.ne_of_gt hm), if_neg (Nat.not_lt.2 (Nat.le_of_lt hm))]

/-- The probe of `m` points towards `g`. -/
def Towards (probe : Nat → Probe) (g m : Nat) : Prop := probe m = if m < g then .right else .left

/-- The first probe finds the result, or says where the search goes on for it. -/
lemma search_eq_some_step {g l r : Nat} (h : l < r) : search probe l r = some g ↔
    probe (l + (r - l) / 2) = .hit ∧ l + (r - l) / 2 = g ∨
      probe (l + (r - l) / 2) = .right ∧ search probe (l + (r - l) / 2 + 1) r = some g ∨
      probe (l + (r - l) / 2) = .left ∧ search probe l (l + (r - l) / 2) = some g := by
  cases hm : probe (l + (r - l) / 2) with
  | hit =>
    rw [search_hit h hm]
    simp
  | right =>
    rw [search_right h hm]
    simp
  | left =>
    rw [search_left h hm]
    simp

/-- The search is symmetric in its outcome and its way: both follow the same midpoints. -/
theorem search_eq_some_iff {g l r : Nat} : search probe l r = some g ↔
    l ≤ g ∧ g < r ∧ probe g = .hit ∧ ∀ m ∈ path g l r, Towards probe g m := by
  induction hn : r - l using Nat.strongRecOn generalizing l r with
  | ind n ih =>
    subst hn
    by_cases hlr : l < r
    · have hmid : l ≤ l + (r - l) / 2 ∧ l + (r - l) / 2 < r := by omega
      have hsmall : r - (l + (r - l) / 2 + 1) < r - l ∧ l + (r - l) / 2 - l < r - l := by omega
      have hright := ih _ hsmall.1 (l := l + (r - l) / 2 + 1) (r := r) rfl
      have hleft := ih _ hsmall.2 (l := l) (r := l + (r - l) / 2) rfl
      rw [search_eq_some_step hlr, hright, hleft]
      rcases Nat.lt_trichotomy (l + (r - l) / 2) g with hlt | heq | hgt
      · have htowards : Towards probe g (l + (r - l) / 2) ↔ probe (l + (r - l) / 2) = .right := by
          unfold Towards
          rw [if_pos hlt]
        rw [path_right hlr hlt, List.forall_mem_cons, htowards]
        grind
      · rw [path_here hlr heq]
        grind
      · have htowards : Towards probe g (l + (r - l) / 2) ↔ probe (l + (r - l) / 2) = .left := by
          unfold Towards
          rw [if_neg (Nat.not_lt.2 (Nat.le_of_lt hgt))]
        rw [path_left hlr hgt, List.forall_mem_cons, htowards]
        grind
    · rw [search_empty hlr]
      constructor
      · rintro ⟨⟩
      · rintro ⟨hl, hr, -⟩
        omega

/-- Where no probe points away from `g`, the search finds `g` or another hit. -/
theorem search_finds {g l r : Nat} (hl : l ≤ g) (hr : g < r) (hhit : probe g = .hit)
    (hbelow : ∀ m, m < g → probe m ≠ .left) (habove : ∀ m, g < m → m < r → probe m ≠ .right) :
    ∃ j, l ≤ j ∧ j < r ∧ probe j = .hit ∧ search probe l r = some j := by
  induction hn : r - l using Nat.strongRecOn generalizing l r with
  | ind n ih =>
    subst hn
    have hlr : l < r := by omega
    cases hm : probe (l + (r - l) / 2) with
    | hit => exact ⟨_, by omega, by omega, hm, search_hit hlr hm⟩
    | right =>
      have hlt : l + (r - l) / 2 < g := by
        by_contra hge
        rcases Nat.lt_or_eq_of_le (Nat.not_lt.1 hge) with hgt | heq
        · exact habove _ hgt (by omega) hm
        · rw [← heq, hhit] at hm
          cases hm
      obtain ⟨j, hj, hjr, hjhit, hsearch⟩ := ih _ (by omega) (l := l + (r - l) / 2 + 1) (r := r) (by omega) hr habove rfl
      exact ⟨j, by omega, hjr, hjhit, (search_right hlr hm).trans hsearch⟩
    | left =>
      have hgt : g < l + (r - l) / 2 := by
        by_contra hge
        rcases Nat.lt_or_eq_of_le (Nat.not_lt.1 hge) with hlt | heq
        · exact hbelow _ hlt hm
        · rw [heq, hhit] at hm
          cases hm
      obtain ⟨j, hj, hjr, hjhit, hsearch⟩ := ih _ (by omega) (l := l) (r := l + (r - l) / 2) hl hgt
        (fun m hgm hlt => habove m hgm (by omega)) rfl
      exact ⟨j, hj, by omega, hjhit, (search_left hlr hm).trans hsearch⟩

end Bisect
