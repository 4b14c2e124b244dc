import Mathlib.Data.List.TakeWhile
import Mathlib.Data.Nat.Digits.Lemmas
import Mathlib.Tactic.Ring

/-!
# Positional numerals

Digit lists with the most significant digit first: their value by Horner's rule, the loop
that takes the digits of a number from the least significant one on, and the longest run of digits
in front of a text.
-/

namespace Numeral

/-- The value of the digits `ds` written behind a number `x`. -/
def value (b : Nat) (ds : List Nat) (x : Nat) : Nat := ds.foldl (fun x d => x * b + d) x

/-- The digits of `n` in front of `ds`; there is at least one. -/
def digits (b : Nat) : Nat → Nat → List Nat → List Nat
  | 0, _, ds => ds
  | fuel + 1, n, ds =>
    if n / b = 0 then n % b :: ds else digits b fuel (n / b) (n % b :: ds)

variable {b : Nat}

@[simp] lemma value_nil (x : Nat) : value b [] x = x := rfl

@[simp] lemma value_cons (d : Nat) (ds : List Nat) (x : Nat) :
    value b (d :: ds) x = value b ds (x * b + d) := rfl

lemma value_zeros (k : Nat) (ds : List Nat) :
    value b (List.replicate k 0 ++ ds) 0 = value b ds 0 := by
  induction k with
  | zero => rfl
  | succ k ih => simpa [List.replicate_succ] using ih

lemma le_value (hb : 0 < b) (ds : List Nat) (x : Nat) : x ≤ value b ds x := by
  induction ds generalizing x with
  | nil => exact Nat.le_refl x
  | cons d ds ih =>
    have hx : x ≤ x * b := Nat.le_mul_of_pos_right x hb
    have hd := ih (x * b + d)
    rw [value_cons]
    omega

/-- Writing a number and reading it back. -/
theorem value_digits (hb : 0 < b) (fuel n : Nat) (ds : List Nat) (hn : n < b ^ fuel) :
    value b (digits b fuel n ds) 0 = value b ds n := by
  induction fuel generalizing n ds with
  | zero =>
    obtain rfl : n = 0 := by simpa using hn
    rfl
  | succ fuel ih =>
    have hdivmod : n / b * b + n % b = n := by
      rw [Nat.mul_comm]
      exact Nat.div_add_mod n b
    rw [digits]
    by_cases h0 : n / b = 0
    · rw [h0, Nat.zero_mul, Nat.zero_add] at hdivmod
      rw [if_pos h0, value_cons, hdivmod, Nat.zero_mul, Nat.zero_add]
    · have hlt : n / b < b ^ fuel := by
        rw [Nat.div_lt_iff_lt_mul hb, ← pow_succ]
        exact hn
      rw [if_neg h0, ih (n / b) (n % b :: ds) hlt, value_cons, hdivmod]

lemma digits_lt (hb : 0 < b) (fuel n : Nat) (ds : List Nat) (hds : ∀ d ∈ ds, d < b) :
    ∀ d ∈ digits b fuel n ds, d < b := by
  induction fuel generalizing n ds with
  | zero => exact hds
  | succ fuel ih =>
    have hcons : ∀ d ∈ n % b :: ds, d < b := by
      intro d hd
      rcases List.mem_cons.1 hd with rfl | hd
      · exact Nat.mod_lt n hb
      · exact hds d hd
    rw [digits]
    by_cases h0 : n / b = 0
    · rw [if_pos h0]
      exact hcons
    · rw [if_neg h0]
      exact ih (n / b) (n % b :: ds) hcons

lemma digits_ne_nil (fuel n : Nat) {ds : List Nat} (h : 0 < fuel ∨ ds ≠ []) :
    digits b fuel n ds ≠ [] := by
  induction fuel generalizing n ds with
  | zero => exact h.resolve_left (Nat.lt_irrefl 0)
  | succ fuel ih =>
    rw [digits]
    by_cases h0 : n / b = 0
    · rw [if_pos h0]
      exact List.cons_ne_nil _ _
    · rw [if_neg h0]
      exact ih (n / b) (Or.inr (List.cons_ne_nil _ _))

lemma value_le_value {ds es : List Nat} (h : List.Forall₂ (· ≤ ·) ds es) {x y : Nat} (hxy : x ≤ y) :
    value b ds x ≤ value b es y := by
  induction h generalizing x y with
  | nil => exact hxy
  | cons hd _ ih => exact ih (Nat.add_le_add (Nat.mul_le_mul_right b hxy) hd)

/-- Larger digits give the same number only if they are the same digits. -/
lemma eq_of_value_eq (hb : 0 < b) {ds es : List Nat} (h : List.Forall₂ (· ≤ ·) ds es) {x y : Nat}
    (hxy : x ≤ y) (heq : value b ds x = value b es y) : ds = es ∧ x = y := by
  induction h generalizing x y with
  | nil => exact ⟨rfl, heq⟩
  | cons hd _ ih =>
    have hmul := Nat.mul_le_mul_right b hxy
    obtain ⟨htails, hnext⟩ := ih (Nat.add_le_add hmul hd) heq
    have hdigit : _ = _ := Nat.le_antisymm hd (by omega)
    exact ⟨by rw [htails, hdigit], Nat.eq_of_mul_eq_mul_right hb (by omega)⟩

lemma value_append (ds es : List Nat) (x : Nat) : value b (ds ++ es) x = value b es (value b ds x) := List.foldl_append

lemma mul_pow_le_value (ds : List Nat) (x : Nat) : x * b ^ ds.length ≤ value b ds x := by
  induction ds generalizing x with
  | nil => simp
  | cons d ds ih =>
    calc x * b ^ (ds.length + 1) = x * b * b ^ ds.length := by rw [pow_succ', Nat.mul_assoc]
      _ ≤ (x * b + d) * b ^ ds.length := Nat.mul_le_mul_right _ (Nat.le_add_right _ d)
      _ ≤ value b ds (x * b + d) := ih _

lemma value_lt_mul_pow {ds : List Nat} (h : ∀ d ∈ ds, d < b) (x : Nat) : value b ds x < (x + 1) * b ^ ds.length := by
  induction ds generalizing x with
  | nil => simp
  | cons d ds ih =>
    have hd := h d List.mem_cons_self
    have hstep : x * b + d + 1 ≤ (x + 1) * b := by
      rw [Nat.add_mul, Nat.one_mul]
      omega
    calc value b (d :: ds) x < (x * b + d + 1) * b ^ ds.length := ih (fun e he => h e (List.mem_cons_of_mem d he)) _
      _ ≤ (x + 1) * b * b ^ ds.length := Nat.mul_le_mul_right _ hstep
      _ = (x + 1) * b ^ (ds.length + 1) := by rw [pow_succ', Nat.mul_assoc]

/-- The first digit that differs decides. -/
lemma value_lt_of_first {ps qs rs : List Nat} {d e : Nat} (hlt : d < e) (hqs : ∀ q ∈ qs, q < b)
    (hlength : qs.length = rs.length) (x : Nat) : value b (ps ++ d :: qs) x < value b (ps ++ e :: rs) x := by
  rw [value_append, value_append, value_cons, value_cons]
  calc value b qs (value b ps x * b + d) < (value b ps x * b + d + 1) * b ^ qs.length := value_lt_mul_pow hqs _
    _ ≤ (value b ps x * b + e) * b ^ rs.length := by
      rw [hlength]
      exact Nat.mul_le_mul_right _ (by omega)
    _ ≤ value b rs (value b ps x * b + e) := mul_pow_le_value rs _

lemma exists_first_difference {α : Type*} {xs ys : List α} (hlength : xs.length = ys.length) (hne : xs ≠ ys) :
    ∃ ps x y qs rs, xs = ps ++ x :: qs ∧ ys = ps ++ y :: rs ∧ x ≠ y ∧ qs.length = rs.length := by
  induction xs generalizing ys with
  | nil => exact absurd (List.eq_nil_of_length_eq_zero hlength.symm).symm hne
  | cons x xs ih =>
    cases ys with
    | nil => cases hlength
    | cons y ys =>
      have hrest : xs.length = ys.length := Nat.succ.inj hlength
      by_cases hxy : x = y
      · obtain ⟨ps, x', y', qs, rs, rfl, rfl, hdiffer, hlengths⟩ := ih hrest fun heq => hne (by rw [hxy, heq])
        exact ⟨x :: ps, x', y', qs, rs, rfl, by rw [hxy]; rfl, hdiffer, hlengths⟩
      · exact ⟨[], x, y, xs, ys, rfl, rfl, hxy, hrest⟩

/-- The shortest digits of a number. -/
def shortest (b n : Nat) : List Nat := if n = 0 then [0] else (Nat.digits b n).reverse

/-- The loop gives the shortest digits. -/
theorem digits_eq_shortest (hb : 1 < b) {fuel : Nat} (hfuel : 0 < fuel) {n : Nat} (hn : n < b ^ fuel) (ds : List Nat) :
    digits b fuel n ds = shortest b n ++ ds := by
  induction fuel generalizing n ds with
  | zero => exact absurd hfuel (Nat.lt_irrefl 0)
  | succ fuel ih =>
    have hpos : 0 < b := Nat.lt_of_succ_lt hb
    rw [digits, shortest]
    by_cases h0 : n / b = 0
    · have hlt : n < b := (Nat.div_eq_zero_iff_lt hpos).1 h0
      rw [if_pos h0, Nat.mod_eq_of_lt hlt]
      by_cases hzero : n = 0
      · rw [if_pos hzero, hzero]
        rfl
      · rw [if_neg hzero, Nat.digits_of_lt b n hzero hlt]
        rfl
    · have hne : n ≠ 0 := by
        rintro rfl
        exact h0 (Nat.zero_div b)
      have hlt : n / b < b ^ fuel := by
        rw [Nat.div_lt_iff_lt_mul hpos, ← pow_succ]
        exact hn
      have hfuel' : 0 < fuel := by
        rcases Nat.eq_zero_or_pos fuel with rfl | hfuel'
        · rw [pow_zero] at hlt
          exact absurd (Nat.lt_one_iff.1 hlt) h0
        · exact hfuel'
      rw [if_neg h0, ih hfuel' hlt, shortest, if_neg h0, if_neg hne, Nat.digits_def' hb (Nat.pos_of_ne_zero hne),
        List.reverse_cons, List.append_assoc, List.singleton_append]

lemma shortest_length_le (hb : 1 < b) {k n : Nat} (hk : 0 < k) (hn : n < b ^ k) : (shortest b n).length ≤ k := by
  unfold shortest
  split
  · exact hk
  · rw [List.length_reverse]
    exact (Nat.digits_length_le_iff hb n).2 hn

/-! ### The longest run of digits -/

section Run

variable {α : Type*} (digit : α → Option Nat)

/-- The longest run of digits that a text begins with. -/
def run (s : List α) : List α := s.takeWhile fun c => (digit c).isSome

/-- What follows the run. -/
def rest (s : List α) : List α := s.dropWhile fun c => (digit c).isSome

def digitValue (c : α) : Nat := (digit c).getD 0

/-- The number that the run stands for. -/
def runValue (b : Nat) (s : List α) : Nat := value b ((run digit s).map (digitValue digit)) 0

variable {digit} {s : List α} {c : α}

lemma run_append_rest (digit : α → Option Nat) (s : List α) : run digit s ++ rest digit s = s := List.takeWhile_append_dropWhile

lemma run_cons_some {d : Nat} (h : digit c = some d) : run digit (c :: s) = c :: run digit s := by
  rw [run, List.takeWhile_cons_of_pos (by rw [h]; rfl)]
  rfl

lemma rest_cons_some {d : Nat} (h : digit c = some d) : rest digit (c :: s) = rest digit s := by
  rw [rest, List.dropWhile_cons_of_pos (by rw [h]; rfl)]
  rfl

lemma run_cons_none (h : digit c = none) : run digit (c :: s) = [] :=
  List.takeWhile_cons_of_neg (by simp [h])

lemma rest_cons_none (h : digit c = none) : rest digit (c :: s) = c :: s :=
  List.dropWhile_cons_of_neg (by simp [h])

lemma isSome_of_mem_run (h : c ∈ run digit s) : (digit c).isSome :=
  List.mem_takeWhile_imp (p := fun c => (digit c).isSome) h

lemma length_rest_le (s : List α) : (rest digit s).length ≤ s.length := by
  have hsplit := congrArg List.length (run_append_rest digit s)
  rw [List.length_append] at hsplit
  omega

/-- The run ends at the text or at a character that is no digit. -/
lemma digit_head_rest (h : (rest digit s).head? = some c) : digit c = none := by
  induction s with
  | nil => cases h
  | cons a s ih =>
    cases ha : digit a with
    | none =>
      rw [rest_cons_none ha, List.head?_cons, Option.some.injEq] at h
      exact h ▸ ha
    | some d =>
      rw [rest_cons_some ha] at h
      exact ih h

lemma run_append {ds : List α} (hds : ∀ c ∈ ds, (digit c).isSome) (hs : ∀ c, s.head? = some c → digit c = none) :
    run digit (ds ++ s) = ds ∧ rest digit (ds ++ s) = s := by
  induction ds with
  | nil =>
    cases s with
    | nil => exact ⟨rfl, rfl⟩
    | cons c s =>
      have hc := hs c rfl
      exact ⟨run_cons_none hc, rest_cons_none hc⟩
  | cons a ds ih =>
    obtain ⟨d, hd⟩ := Option.isSome_iff_exists.1 (hds a List.mem_cons_self)
    obtain ⟨hrun, hrest⟩ := ih fun c hc => hds c (List.mem_cons_of_mem _ hc)
    rw [List.cons_append, run_cons_some hd, rest_cons_some hd, hrun, hrest]
    exact ⟨rfl, rfl⟩

/-- Another reading with more digits finds the same run when it stops there. -/
lemma run_of_stop {digit' : α → Option Nat} (hmore : ∀ c, (digit c).isSome → (digit' c).isSome)
    (hstop : ∀ c, (rest digit s).head? = some c → digit' c = none) :
    run digit' s = run digit s ∧ rest digit' s = rest digit s := by
  induction s with
  | nil => exact ⟨rfl, rfl⟩
  | cons a s ih =>
    cases ha : digit a with
    | none =>
      have ha' : digit' a = none := hstop a (by rw [rest_cons_none ha, List.head?_cons])
      rw [run_cons_none ha, rest_cons_none ha, run_cons_none ha', rest_cons_none ha']
      exact ⟨rfl, rfl⟩
    | some d =>
      obtain ⟨d', ha'⟩ := Option.isSome_iff_exists.1 (hmore a (by rw [ha]; rfl))
      rw [rest_cons_some ha] at hstop
      obtain ⟨hrun, hrest⟩ := ih hstop
      rw [run_cons_some ha, rest_cons_some ha, run_cons_some ha', rest_cons_some ha', hrun, hrest]
      exact ⟨rfl, rfl⟩

end Run

end Numeral
