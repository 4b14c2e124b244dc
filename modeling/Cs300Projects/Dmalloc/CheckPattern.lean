import Cs300Projects.Lib.Numeral
import Cs300Projects.Lib.Pattern

/-!
# Lower bounds in expected output

`check.pl` compares the lines of a program's output with patterns. An expectation `??>=N??` becomes a regular
expression for the numbers from `N` on: one alternative for the longer numbers, and one for each digit that may be
the first larger one. A line is a string of bytes, in which `\\d` is a digit of ASCII.
-/

namespace Cs300Projects.Dmalloc

open Pattern

/-- The characters that one place of the expression stands for: `c`, `[lo-hi]` or `\\d`. -/
inductive Atom where
  | lit (c : Char)
  | range (lo hi : Char)
  | digit
  deriving DecidableEq

def Atom.test : Atom → Char → Bool
  | .lit a, c => c == a
  | .range lo hi, c => decide (lo.toNat ≤ c.toNat ∧ c.toNat ≤ hi.toNat)
  | .digit, c => decide ('0'.toNat ≤ c.toNat ∧ c.toNat ≤ '9'.toNat)

/-- `\\A0+(?=[1-9]|0\\z)`, at the beginning of a text. -/
def leadingZeros : Pattern Atom :=
  .seq (.atLeast 1 (.char (.lit '0'))) (.ahead (.alt (.char (.range '1' '9')) (.seq (.char (.lit '0')) .atEnd)))

/-- The substitution by nothing, where the pattern matches. -/
def stripZeros (contents : List Char) : List Char := ((rests Atom.test leadingZeros contents).head?).getD contents

/-- `0*` in front of a pattern. -/
def afterZeros (r : Pattern Atom) : Pattern Atom := .seq (.atLeast 0 (.char (.lit '0'))) r

/-- `$dig[$i] + 1`. -/
def nextDigit (d : Char) : Char := Char.ofNat (d.toNat + 1)

/-- `join("", @xdig)`: the digits before place `i`, the class `atom` at `i`, and any digits behind it. -/
def xdig (dig : List Char) (i : Nat) (atom : Atom) : List Atom :=
  (dig.take i).map .lit ++ atom :: List.replicate (dig.length - (i + 1)) .digit

/-- The alternative for place `i`, unless it is left out. -/
def alternative (dig : List Char) (i : Nat) : Option (Pattern Atom) :=
  match dig[i]? with
  | none => none
  | some d =>
    if i = dig.length - 1 then some (afterZeros (word (xdig dig i (.range d '9'))))
    else if d = '9' then none
    else some (afterZeros (word (xdig dig i (.range (nextDigit d) '9'))))

/-- `0*[1-9]\\d{n,}`. -/
def longer (n : Nat) : Pattern Atom := afterZeros (.seq (.char (.range '1' '9')) (.atLeast n (.char .digit)))

/-- The alternatives for the digits of a bound. -/
def numbersFrom (dig : List Char) : Pattern Atom :=
  choice (longer dig.length) ((List.range dig.length).filterMap (alternative dig))

/-- The expression for `??>=N??`, with the condition that no digit follows. -/
def boundPattern (contents : List Char) : Pattern Atom :=
  .seq (numbersFrom (stripZeros contents)) (.notAhead (.char .digit))

/-- The number that digits denote. -/
def numberOf (w : List Char) : Nat := Numeral.value 10 (w.map fun c => c.toNat - '0'.toNat) 0

def Digits (w : List Char) : Prop := ∀ c ∈ w, Atom.digit.test c = true

instance : DecidablePred Digits := fun w => List.decidableBAll _ w

section Digits

variable {c d : Char} {w dig : List Char}

lemma test_lit : (Atom.lit d).test c = true ↔ c = d := beq_iff_eq

lemma test_range {lo hi : Char} : (Atom.range lo hi).test c = true ↔ lo.toNat ≤ c.toNat ∧ c.toNat ≤ hi.toNat := decide_eq_true_iff

lemma test_digit : Atom.digit.test c = true ↔ 48 ≤ c.toNat ∧ c.toNat ≤ 57 := decide_eq_true_iff

lemma toNat_nextDigit (h : d.toNat < 57) : (nextDigit d).toNat = d.toNat + 1 := by
  have hvalid : (d.toNat + 1).isValidChar := Or.inl (by omega)
  unfold nextDigit Char.ofNat
  rw [dif_pos hvalid]
  rfl

lemma toNat_ne_zero (h : c ≠ '0') : c.toNat ≠ 48 := fun heq => h (Char.toNat_inj.1 heq)

lemma Digits.append {v : List Char} : Digits (w ++ v) ↔ Digits w ∧ Digits v := by
  unfold Digits
  rw [List.forall_mem_append]

lemma digits_zeros (k : Nat) : Digits (List.replicate k '0') := by
  intro c hc
  rw [List.eq_of_mem_replicate hc]
  rfl

lemma Digits.values_lt (h : Digits w) : ∀ d ∈ w.map (fun c => c.toNat - '0'.toNat), d < 10 := by
  intro d hd
  obtain ⟨c, hc, rfl⟩ := List.mem_map.1 hd
  obtain ⟨hlo, hhi⟩ := test_digit.1 (h c hc)
  have hzero : '0'.toNat = 48 := rfl
  omega

lemma numberOf_zeros (k : Nat) (w : List Char) : numberOf (List.replicate k '0' ++ w) = numberOf w := by
  unfold numberOf
  rw [List.map_append, List.map_replicate]
  exact Numeral.value_zeros k _

lemma numberOf_lt (h : Digits w) : numberOf w < 10 ^ w.length := by
  have hlt := Numeral.value_lt_mul_pow h.values_lt 0
  rwa [List.length_map, Nat.zero_add, Nat.one_mul] at hlt

lemma le_numberOf_cons (hc : Digits [c]) (hne : c ≠ '0') (w : List Char) : 10 ^ w.length ≤ numberOf (c :: w) := by
  have hle := Numeral.mul_pow_le_value (b := 10) (w.map fun c => c.toNat - '0'.toNat) (c.toNat - '0'.toNat)
  have hdigit := (test_digit.1 (hc c (List.mem_singleton_self c))).1
  have hpos : 1 ≤ c.toNat - '0'.toNat := by
    have hzero : '0'.toNat = 48 := rfl
    have hne' := toNat_ne_zero hne
    omega
  rw [List.length_map] at hle
  unfold numberOf
  rw [List.map_cons, Numeral.value_cons, Nat.zero_mul, Nat.zero_add]
  calc 10 ^ w.length = 1 * 10 ^ w.length := (Nat.one_mul _).symm
    _ ≤ (c.toNat - '0'.toNat) * 10 ^ w.length := Nat.mul_le_mul_right _ hpos
    _ ≤ _ := hle

lemma numberOf_lt_of_first {p q r : List Char} (hc : 48 ≤ c.toNat) (hlt : c.toNat < d.toNat) (hq : Digits q)
    (hlength : q.length = r.length) : numberOf (p ++ c :: q) < numberOf (p ++ d :: r) := by
  have hzero : '0'.toNat = 48 := rfl
  unfold numberOf
  rw [List.map_append, List.map_cons, List.map_append, List.map_cons]
  exact Numeral.value_lt_of_first (by omega) hq.values_lt (by rw [List.length_map, List.length_map, hlength]) 0

/-- A text begins with a number of zeros, which is followed by something else. -/
lemma exists_zeros (w : List Char) : ∃ k v, w = List.replicate k '0' ++ v ∧ ∀ c, v.head? = some c → c ≠ '0' := by
  induction w with
  | nil => exact ⟨0, [], rfl, fun c hc => by cases hc⟩
  | cons c w ih =>
    by_cases hc : c = '0'
    · obtain ⟨k, v, rfl, hv⟩ := ih
      exact ⟨k + 1, v, by rw [hc]; rfl, hv⟩
    · refine ⟨0, c :: w, rfl, fun c' hc' => ?_⟩
      rw [List.head?_cons, Option.some.injEq] at hc'
      exact hc' ▸ hc

end Digits

/-! ### The bound without its leading zeros -/

/-- The digits of a bound: `0`, or digits of which the first is another one. -/
def Stripped (dig : List Char) : Prop := dig = ['0'] ∨ ∃ d q, dig = d :: q ∧ d ≠ '0'

section Strip

variable {contents s t : List Char}

lemma mem_lang_zeros (n : Nat) (w : List Char) :
    w ∈ lang Atom.test (.atLeast n (.char (.lit '0'))) ↔ ∃ k, n ≤ k ∧ w = List.replicate k '0' := by
  rw [mem_lang_atLeast_char]
  constructor
  · rintro ⟨hlength, hw⟩
    exact ⟨w.length, hlength, List.eq_replicate_iff.2 ⟨rfl, fun c hc => test_lit.1 (hw c hc)⟩⟩
  · rintro ⟨k, hk, rfl⟩
    refine ⟨by rwa [List.length_replicate], fun c hc => ?_⟩
    rw [List.eq_of_mem_replicate hc]
    rfl

/-- Zeros are taken off only in front of another digit or the last zero. -/
lemma mem_rests_leadingZeros : t ∈ rests Atom.test leadingZeros s ↔
    (∃ k, 1 ≤ k ∧ s = List.replicate k '0' ++ t) ∧
      (t = ['0'] ∨ ∃ d q, t = d :: q ∧ '1'.toNat ≤ d.toNat ∧ d.toNat ≤ '9'.toNat) := by
  have hplain : (Pattern.atLeast 1 (.char (Atom.lit '0'))).Plain := trivial
  have hlook : ∀ u, rests Atom.test (.alt (.char (.range '1' '9')) (.seq (.char (.lit '0')) .atEnd)) u ≠ [] ↔
      (u = ['0'] ∨ ∃ d q, u = d :: q ∧ '1'.toNat ≤ d.toNat ∧ d.toNat ≤ '9'.toNat) := by
    intro u
    cases u with
    | nil => simp [rests]
    | cons d q =>
      have hzero : (Atom.lit '0').test d = true ↔ d = '0' := test_lit
      have hrange : (Atom.range '1' '9').test d = true ↔ '1'.toNat ≤ d.toNat ∧ d.toNat ≤ '9'.toNat := test_range
      by_cases h : (Atom.range '1' '9').test d = true
      · simp only [rests, if_pos h, List.singleton_append, ne_eq, List.cons_ne_nil, not_false_eq_true, true_iff]
        exact Or.inr ⟨d, q, rfl, hrange.1 h⟩
      · by_cases h' : (Atom.lit '0').test d = true
        · have hd := hzero.1 h'
          subst hd
          cases q with
          | nil => simp [rests, h']
          | cons c q => simp [rests, h, h']
        · simp only [rests, if_neg h, if_neg h', List.flatMap_nil, List.append_nil, ne_eq, not_true_eq_false, false_iff]
          rintro (heq | ⟨d', q', heq, hd'⟩)
          · exact h' (hzero.2 (List.cons.inj heq).1)
          · rw [← (List.cons.inj heq).1] at hd'
            exact h (hrange.2 hd')
  unfold leadingZeros
  rw [mem_rests_seq]
  simp only [hplain.leaves Atom.test s, mem_rests_ahead, hlook, mem_lang_zeros]
  constructor
  · rintro ⟨u, ⟨w, ⟨k, hk, rfl⟩, rfl⟩, hu, rfl⟩
    exact ⟨⟨k, hk, rfl⟩, hu⟩
  · rintro ⟨⟨k, hk, rfl⟩, ht⟩
    exact ⟨t, ⟨_, ⟨k, hk, rfl⟩, rfl⟩, ht, rfl⟩

lemma stripZeros_spec (hne : contents ≠ []) (hdigits : Digits contents) :
    Stripped (stripZeros contents) ∧ Digits (stripZeros contents) ∧
      numberOf (stripZeros contents) = numberOf contents := by
  unfold stripZeros
  cases hrest : (rests Atom.test leadingZeros contents).head? with
  | some t =>
    obtain ⟨⟨k, -, rfl⟩, ht⟩ := mem_rests_leadingZeros.1 (List.mem_of_mem_head? hrest)
    rw [Option.getD_some, numberOf_zeros]
    refine ⟨ht.imp_right ?_, (Digits.append.1 hdigits).2, rfl⟩
    rintro ⟨d, q, rfl, hd, -⟩
    refine ⟨d, q, rfl, ?_⟩
    rintro rfl
    exact absurd hd (by decide)
  | none =>
    have hnone : ∀ t, t ∉ rests Atom.test leadingZeros contents := by
      rw [List.head?_eq_none_iff] at hrest
      rw [hrest]
      exact fun t => List.not_mem_nil
    refine ⟨?_, hdigits, rfl⟩
    rw [Option.getD_none]
    obtain ⟨k, v, rfl, hv⟩ := exists_zeros contents
    cases v with
    | nil =>
      rw [List.append_nil] at hne hnone ⊢
      obtain ⟨k, rfl⟩ := Nat.exists_eq_succ_of_ne_zero (n := k) (by rintro rfl; exact hne rfl)
      cases k with
      | zero => exact Or.inl rfl
      | succ k =>
        refine absurd (mem_rests_leadingZeros.2 ⟨⟨k + 1, Nat.succ_pos k, ?_⟩, Or.inl rfl⟩) (hnone ['0'])
        exact List.replicate_succ'
    | cons d q =>
      have hd := hv d rfl
      cases k with
      | zero => exact Or.inr ⟨d, q, rfl, hd⟩
      | succ k =>
        have hdigit := test_digit.1 ((Digits.append.1 hdigits).2 d List.mem_cons_self)
        have hne' := toNat_ne_zero hd
        have hrange : '1'.toNat ≤ d.toNat ∧ d.toNat ≤ '9'.toNat := by
          have hone : '1'.toNat = 49 := rfl
          have hnine : '9'.toNat = 57 := rfl
          omega
        exact absurd (mem_rests_leadingZeros.2 ⟨⟨k + 1, Nat.succ_pos k, rfl⟩, Or.inr ⟨d, q, rfl, hrange⟩⟩) (hnone (d :: q))

end Strip

/-! ### The alternatives -/

section Alternatives

variable {dig w v p q : List Char} {d : Char} {r : Pattern Atom}

lemma mem_lang_afterZeros : w ∈ lang Atom.test (afterZeros r) ↔ ∃ k v, v ∈ lang Atom.test r ∧ w = List.replicate k '0' ++ v := by
  have hlang : lang Atom.test (afterZeros r) = lang Atom.test (.atLeast 0 (.char (.lit '0'))) * lang Atom.test r := rfl
  rw [hlang, Language.mem_mul]
  simp only [mem_lang_zeros]
  constructor
  · rintro ⟨_, ⟨k, -, rfl⟩, v, hv, rfl⟩
    exact ⟨k, v, hv, rfl⟩
  · rintro ⟨k, v, hv, rfl⟩
    exact ⟨_, ⟨k, Nat.zero_le k, rfl⟩, v, hv, rfl⟩

lemma mem_lang_longer {n : Nat} : w ∈ lang Atom.test (longer n) ↔
    ∃ k d q, w = List.replicate k '0' ++ d :: q ∧ Digits (d :: q) ∧ d ≠ '0' ∧ n ≤ q.length := by
  have hlang : lang Atom.test (.seq (.char (.range '1' '9')) (.atLeast n (.char .digit))) =
      lang Atom.test (.char (.range '1' '9')) * lang Atom.test (.atLeast n (.char .digit)) := rfl
  have hrange : ∀ d : Char, (Atom.range '1' '9').test d = true ↔ Atom.digit.test d = true ∧ d ≠ '0' := by
    intro d
    have hone : '1'.toNat = 49 := rfl
    have hnine : '9'.toNat = 57 := rfl
    rw [test_range, test_digit]
    constructor
    · intro h
      refine ⟨by omega, ?_⟩
      rintro rfl
      exact absurd h.1 (by decide)
    · intro h
      have hne := toNat_ne_zero h.2
      omega
  unfold longer
  rw [mem_lang_afterZeros, hlang]
  simp only [Language.mem_mul, mem_lang_atLeast_char]
  constructor
  · rintro ⟨k, _, ⟨_, ⟨d, hd, rfl⟩, q, ⟨hlength, hq⟩, rfl⟩, rfl⟩
    obtain ⟨hdigit, hne⟩ := (hrange d).1 hd
    exact ⟨k, d, q, rfl, List.forall_mem_cons.2 ⟨hdigit, hq⟩, hne, hlength⟩
  · rintro ⟨k, d, q, rfl, hdigits, hne, hlength⟩
    obtain ⟨hdigit, hq⟩ := List.forall_mem_cons.1 hdigits
    exact ⟨k, d :: q, ⟨[d], ⟨d, (hrange d).2 ⟨hdigit, hne⟩, rfl⟩, q, ⟨hlength, hq⟩, rfl⟩, rfl⟩

/-- The places of a bound are the ways to cut it at a digit. -/
lemma xdig_append (p : List Char) (d : Char) (q : List Char) (atom : Atom) :
    xdig (p ++ d :: q) p.length atom = p.map .lit ++ atom :: List.replicate q.length .digit := by
  have hlength : (p ++ d :: q).length - (p.length + 1) = q.length := by
    rw [List.length_append, List.length_cons]
    omega
  unfold xdig
  rw [List.take_left, hlength]

lemma alternative_append (p : List Char) (d : Char) (q : List Char) : alternative (p ++ d :: q) p.length =
    if q = [] then some (afterZeros (word (p.map .lit ++ .range d '9' :: List.replicate q.length .digit)))
    else if d = '9' then none
    else some (afterZeros (word (p.map .lit ++ .range (nextDigit d) '9' :: List.replicate q.length .digit))) := by
  have hget : (p ++ d :: q)[p.length]? = some d := by simp
  have hlast : (p.length = (p ++ d :: q).length - 1) = (q = []) := by
    rw [List.length_append, List.length_cons, ← List.length_eq_zero_iff]
    apply propext
    omega
  unfold alternative
  rw [hget]
  dsimp only
  simp only [hlast, xdig_append]

lemma mem_alternatives : r ∈ (List.range dig.length).filterMap (alternative dig) ↔
    ∃ p d q, dig = p ++ d :: q ∧ alternative (p ++ d :: q) p.length = some r := by
  rw [List.mem_filterMap]
  constructor
  · rintro ⟨i, hi, hr⟩
    rw [List.mem_range] at hi
    have hcut : dig = dig.take i ++ dig[i] :: dig.drop (i + 1) := by
      rw [List.getElem_cons_drop, List.take_append_drop]
    have hlength : (dig.take i).length = i := List.length_take_of_le (Nat.le_of_lt hi)
    refine ⟨dig.take i, dig[i], dig.drop (i + 1), hcut, ?_⟩
    rw [← hcut, hlength]
    exact hr
  · rintro ⟨p, d, q, rfl, hr⟩
    refine ⟨p.length, ?_, hr⟩
    rw [List.mem_range, List.length_append, List.length_cons]
    omega

/-- A text of the form of `xdig`: the digits `p`, one in the range, and as many digits as `q` has. -/
lemma mem_lang_xdig {lo : Char} : v ∈ lang Atom.test (word (p.map .lit ++ .range lo '9' :: List.replicate q.length .digit)) ↔
    ∃ e q', v = p ++ e :: q' ∧ lo.toNat ≤ e.toNat ∧ e.toNat ≤ 57 ∧ Digits q' ∧ q.length = q'.length := by
  have hlits : ∀ {p' : List Char}, p' ∈ lang Atom.test (word (p.map .lit)) ↔ p' = p := by
    intro p'
    have htest : (fun k c => (Atom.lit k).test c = true) = fun k c : Char => k = c := by
      funext k c
      rw [eq_iff_iff, test_lit, eq_comm]
    rw [mem_lang_word, List.forall₂_map_left_iff, htest, List.forall₂_eq_eq_eq, eq_comm]
  have hdigits : ∀ {n : Nat} {q' : List Char}, q' ∈ lang Atom.test (word (List.replicate n .digit)) ↔
      Digits q' ∧ n = q'.length := by
    intro n q'
    rw [mem_lang_word]
    induction n generalizing q' with
    | zero =>
      rw [List.replicate_zero, List.forall₂_nil_left_iff]
      constructor
      · rintro rfl
        exact ⟨fun c hc => (List.not_mem_nil hc).elim, rfl⟩
      · rintro ⟨-, hlength⟩
        exact List.eq_nil_of_length_eq_zero hlength.symm
    | succ n ih =>
      rw [List.replicate_succ, List.forall₂_cons_left_iff]
      constructor
      · rintro ⟨c, q', hc, hq, rfl⟩
        obtain ⟨hq, hlength⟩ := ih.1 hq
        exact ⟨List.forall_mem_cons.2 ⟨hc, hq⟩, by rw [hlength, List.length_cons]⟩
      · rintro ⟨hq, hlength⟩
        cases q' with
        | nil => cases hlength
        | cons c q' =>
          obtain ⟨hc, hq⟩ := List.forall_mem_cons.1 hq
          exact ⟨c, q', hc, ih.2 ⟨hq, Nat.succ.inj hlength⟩, rfl⟩
  have hlang : lang Atom.test (word (.range lo '9' :: List.replicate q.length .digit)) =
      lang Atom.test (.char (.range lo '9')) * lang Atom.test (word (List.replicate q.length .digit)) := rfl
  rw [lang_word_append, hlang]
  simp only [Language.mem_mul, hlits, hdigits]
  constructor
  · rintro ⟨_, rfl, _, ⟨_, ⟨e, he, rfl⟩, q', hq', rfl⟩, rfl⟩
    exact ⟨e, q', rfl, (test_range.1 he).1, (test_range.1 he).2, hq'.1, hq'.2⟩
  · rintro ⟨e, q', rfl, hlo, hhi, hq', hlength⟩
    exact ⟨p, rfl, e :: q', ⟨[e], ⟨e, test_range.2 ⟨hlo, hhi⟩, rfl⟩, q', ⟨hq', hlength⟩, rfl⟩, rfl⟩

end Alternatives

/-! ### Bounds -/

section Bounds

variable {contents dig w rest : List Char}

/-- `w` has the digits of `dig` behind zeros, up to one that is larger, or to the last one. -/
def Reaches (dig w : List Char) : Prop :=
  ∃ k p d q e q', dig = p ++ d :: q ∧ w = List.replicate k '0' ++ (p ++ e :: q') ∧ Digits q' ∧ q.length = q'.length ∧
    e.toNat ≤ 57 ∧ (d.toNat < e.toNat ∨ q = [] ∧ d = e)

lemma mem_lang_numbersFrom (hdig : Digits dig) :
    w ∈ lang Atom.test (numbersFrom dig) ↔ w ∈ lang Atom.test (longer dig.length) ∨ Reaches dig w := by
  unfold numbersFrom
  rw [mem_lang_choice, List.exists_mem_cons_iff]
  refine or_congr Iff.rfl ?_
  simp only [mem_alternatives]
  constructor
  · rintro ⟨r, ⟨p, d, q, rfl, hr⟩, hw⟩
    have hd := test_digit.1 (hdig d (List.mem_append_right p List.mem_cons_self))
    rw [alternative_append] at hr
    by_cases hq : q = []
    · rw [if_pos hq, Option.some.injEq] at hr
      rw [← hr, mem_lang_afterZeros] at hw
      obtain ⟨k, v, hv, rfl⟩ := hw
      obtain ⟨e, q', rfl, hlo, hhi, hq', hlength⟩ := mem_lang_xdig.1 hv
      refine ⟨k, p, d, q, e, q', rfl, rfl, hq', hlength, hhi, ?_⟩
      exact (Nat.lt_or_eq_of_le hlo).imp_right fun heq => ⟨hq, Char.toNat_inj.1 heq⟩
    · rw [if_neg hq] at hr
      by_cases hnine : d = '9'
      · rw [if_pos hnine] at hr
        cases hr
      · rw [if_neg hnine, Option.some.injEq] at hr
        rw [← hr, mem_lang_afterZeros] at hw
        obtain ⟨k, v, hv, rfl⟩ := hw
        obtain ⟨e, q', rfl, hlo, hhi, hq', hlength⟩ := mem_lang_xdig.1 hv
        have hne : d.toNat ≠ 57 := fun heq => hnine (Char.toNat_inj.1 heq)
        rw [toNat_nextDigit (by omega)] at hlo
        exact ⟨k, p, d, q, e, q', rfl, rfl, hq', hlength, hhi, Or.inl hlo⟩
  · rintro ⟨k, p, d, q, e, q', rfl, rfl, hq', hlength, hhi, hde⟩
    by_cases hq : q = []
    · have hle : d.toNat ≤ e.toNat := hde.elim Nat.le_of_lt fun h => Nat.le_of_eq (congrArg Char.toNat h.2)
      refine ⟨_, ⟨p, d, q, rfl, by rw [alternative_append, if_pos hq]⟩, ?_⟩
      exact mem_lang_afterZeros.2 ⟨k, _, mem_lang_xdig.2 ⟨e, q', rfl, hle, hhi, hq', hlength⟩, rfl⟩
    · have hlt : d.toNat < e.toNat := hde.resolve_right fun h => hq h.1
      have hnine : d ≠ '9' := by
        rintro rfl
        exact absurd (Nat.lt_of_lt_of_le hlt hhi) (by decide)
      refine ⟨_, ⟨p, d, q, rfl, by rw [alternative_append, if_neg hq, if_neg hnine]⟩, ?_⟩
      have hle : (nextDigit d).toNat ≤ e.toNat := by
        rw [toNat_nextDigit (by omega)]
        exact hlt
      exact mem_lang_afterZeros.2 ⟨k, _, mem_lang_xdig.2 ⟨e, q', rfl, hle, hhi, hq', hlength⟩, rfl⟩

lemma Reaches.digits (hdig : Digits dig) (h : Reaches dig w) : Digits w := by
  obtain ⟨k, p, d, q, e, q', rfl, rfl, hq', -, hhi, hde⟩ := h
  have hd := test_digit.1 (hdig d (List.mem_append_right p List.mem_cons_self))
  have he : Atom.digit.test e = true := by
    rw [test_digit]
    rcases hde with hlt | ⟨-, rfl⟩
    · omega
    · exact hd
  exact Digits.append.2 ⟨digits_zeros k, Digits.append.2 ⟨(Digits.append.1 hdig).1, List.forall_mem_cons.2 ⟨he, hq'⟩⟩⟩

lemma Reaches.le (hdig : Digits dig) (h : Reaches dig w) : numberOf dig ≤ numberOf w := by
  obtain ⟨k, p, d, q, e, q', rfl, rfl, -, hlength, -, hde⟩ := h
  obtain ⟨hp, hdq⟩ := Digits.append.1 hdig
  obtain ⟨hd, hq⟩ := List.forall_mem_cons.1 hdq
  rw [numberOf_zeros]
  rcases hde with hlt | ⟨rfl, rfl⟩
  · exact Nat.le_of_lt (numberOf_lt_of_first (test_digit.1 hd).1 hlt hq hlength)
  · rw [List.eq_nil_of_length_eq_zero hlength.symm]

lemma le_of_longer (hdig : Digits dig) (h : w ∈ lang Atom.test (longer dig.length)) :
    Digits w ∧ numberOf dig ≤ numberOf w := by
  obtain ⟨k, d, q, rfl, hdq, hne, hlength⟩ := mem_lang_longer.1 h
  refine ⟨Digits.append.2 ⟨digits_zeros k, hdq⟩, ?_⟩
  rw [numberOf_zeros]
  calc numberOf dig ≤ 10 ^ dig.length := Nat.le_of_lt (numberOf_lt hdig)
    _ ≤ 10 ^ q.length := Nat.pow_le_pow_right (by decide) hlength
    _ ≤ numberOf (d :: q) := le_numberOf_cons (List.forall_mem_singleton.2 (List.forall_mem_cons.1 hdq).1) hne q

/-- Two numbers with equally many digits. -/
lemma reaches_of_le {v : List Char} (hdig : Digits dig) (hne : dig ≠ []) (hv : Digits v) (hlength : dig.length = v.length)
    (hle : numberOf dig ≤ numberOf v) (k : Nat) : Reaches dig (List.replicate k '0' ++ v) := by
  by_cases heq : dig = v
  · have hlast := List.dropLast_append_getLast hne
    rw [← heq]
    exact ⟨k, dig.dropLast, dig.getLast hne, [], dig.getLast hne, [], hlast.symm, by rw [hlast],
      fun c hc => (List.not_mem_nil hc).elim, rfl, (test_digit.1 (hdig _ (List.getLast_mem hne))).2, Or.inr ⟨rfl, rfl⟩⟩
  · obtain ⟨p, d, e, q, q', rfl, rfl, hdiffer, hlengths⟩ := Numeral.exists_first_difference hlength heq
    obtain ⟨he, hq'⟩ := List.forall_mem_cons.1 (Digits.append.1 hv).2
    obtain ⟨hd, hq⟩ := List.forall_mem_cons.1 (Digits.append.1 hdig).2
    refine ⟨k, p, d, q, e, q', rfl, rfl, hq', hlengths, (test_digit.1 he).2, Or.inl ?_⟩
    rcases Nat.lt_trichotomy d.toNat e.toNat with hlt | heq | hgt
    · exact hlt
    · exact absurd (Char.toNat_inj.1 heq) hdiffer
    · exact absurd hle (Nat.not_le.2 (numberOf_lt_of_first (test_digit.1 he).1 hgt hq' hlengths.symm))

/-- A number from the bound on is one of the alternatives. -/
lemma mem_of_le (hdig : Digits dig) (hstripped : Stripped dig) (hw : Digits w) (hne : w ≠ [])
    (hle : numberOf dig ≤ numberOf w) : w ∈ lang Atom.test (longer dig.length) ∨ Reaches dig w := by
  have hnil : dig ≠ [] := by
    rcases hstripped with rfl | ⟨d, q, rfl, -⟩
    · exact List.cons_ne_nil _ _
    · exact List.cons_ne_nil _ _
  obtain ⟨k, v, rfl, hv⟩ := exists_zeros w
  obtain ⟨-, hvdigits⟩ := Digits.append.1 hw
  rw [numberOf_zeros] at hle
  rcases Nat.lt_trichotomy v.length dig.length with hlt | heq | hgt
  · -- only 0 has fewer digits than a bound that it reaches
    rcases hstripped with rfl | ⟨d, q, rfl, hd⟩
    · obtain rfl := List.eq_nil_of_length_eq_zero (Nat.lt_one_iff.1 hlt)
      rw [List.append_nil] at hne hw ⊢
      obtain ⟨k, rfl⟩ := Nat.exists_eq_succ_of_ne_zero (n := k) (by rintro rfl; exact hne rfl)
      refine Or.inr ⟨k, [], '0', [], '0', [], rfl, List.replicate_succ', fun c hc => (List.not_mem_nil hc).elim, rfl,
        by decide, Or.inr ⟨rfl, rfl⟩⟩
    · have hbound := le_numberOf_cons (List.forall_mem_singleton.2 (List.forall_mem_cons.1 hdig).1) hd q
      have hpow : 10 ^ v.length ≤ 10 ^ q.length := Nat.pow_le_pow_right (by decide) (Nat.le_of_lt_succ hlt)
      exact absurd (numberOf_lt hvdigits) (Nat.not_lt.2 (Nat.le_trans hpow (Nat.le_trans hbound hle)))
  · exact Or.inr (reaches_of_le hdig hnil hvdigits heq.symm hle k)
  · cases v with
    | nil => cases hgt
    | cons d q => exact Or.inl (mem_lang_longer.2 ⟨k, d, q, rfl, hvdigits, hv d rfl, Nat.le_of_lt_succ hgt⟩)

lemma numbersFrom_plain (dig : List Char) : (numbersFrom dig).Plain := by
  apply plain_choice
  · exact ⟨trivial, trivial, trivial⟩
  · intro r hr
    obtain ⟨p, d, q, -, halternative⟩ := mem_alternatives.1 hr
    rw [alternative_append] at halternative
    split at halternative
    · rw [← Option.some.inj halternative]
      exact ⟨trivial, plain_word _⟩
    split at halternative
    · cases halternative
    · rw [← Option.some.inj halternative]
      exact ⟨trivial, plain_word _⟩

/-- In front of a text that does not go on with a digit, digits are matched as a whole, and exactly when they denote at
least the number of the bound. -/
theorem boundPattern_matches_iff (contents w rest : List Char) (hcontents : contents ≠ []) (hbound : Digits contents)
    (hne : w ≠ []) (hw : Digits w) (hrest : ∀ c, rest.head? = some c → Atom.digit.test c = false) :
    (∀ t ∈ rests Atom.test (boundPattern contents) (w ++ rest), t = rest) ∧
    (rest ∈ rests Atom.test (boundPattern contents) (w ++ rest) ↔ numberOf contents ≤ numberOf w) := by
  obtain ⟨hstripped, hdig, hnumber⟩ := stripZeros_spec hcontents hbound
  have hlang : ∀ v, v ∈ lang Atom.test (numbersFrom (stripZeros contents)) →
      Digits v ∧ numberOf contents ≤ numberOf v := by
    intro v hv
    rw [← hnumber]
    rcases (mem_lang_numbersFrom hdig).1 hv with hlonger | hreaches
    · exact le_of_longer hdig hlonger
    · exact ⟨hreaches.digits hdig, hreaches.le hdig⟩
  have hmem : ∀ t, t ∈ rests Atom.test (boundPattern contents) (w ++ rest) ↔
      (∃ v ∈ lang Atom.test (numbersFrom (stripZeros contents)), w ++ rest = v ++ t) ∧
        ∀ c, t.head? = some c → Atom.digit.test c = false := by
    intro t
    unfold boundPattern
    rw [mem_rests_seq]
    simp only [(numbersFrom_plain _).leaves Atom.test (w ++ rest), mem_rests_notAhead, rests_char_eq_nil_iff]
    constructor
    · rintro ⟨u, hu, hdigit, rfl⟩
      exact ⟨hu, hdigit⟩
    · rintro ⟨ht, hdigit⟩
      exact ⟨t, ht, hdigit, rfl⟩
  -- a text has one run of digits that no digit follows
  have hunique : ∀ v t, Digits v → (∀ c, t.head? = some c → Atom.digit.test c = false) → w ++ rest = v ++ t →
      v = w ∧ t = rest := by
    intro v t hv ht heq
    have hrun : ∀ {x y : List Char}, Digits x → (∀ c, y.head? = some c → Atom.digit.test c = false) →
        (x ++ y).takeWhile Atom.digit.test = x := by
      intro x y hx hy
      rw [List.takeWhile_append_of_pos hx]
      cases y with
      | nil => simp
      | cons c y => simp [hy c rfl]
    have hvw : v = w := by rw [← hrun hv ht, ← heq, hrun hw hrest]
    rw [hvw] at heq
    exact ⟨hvw, (List.append_cancel_left heq).symm⟩
  refine ⟨fun t ht => ?_, ?_⟩
  · obtain ⟨⟨v, hv, heq⟩, hdigit⟩ := (hmem t).1 ht
    exact (hunique v t (hlang v hv).1 hdigit heq).2
  · rw [hmem]
    constructor
    · rintro ⟨⟨v, hv, heq⟩, -⟩
      obtain ⟨hdigits, hle⟩ := hlang v hv
      rw [← (hunique v rest hdigits hrest heq).1]
      exact hle
    · intro hle
      rw [← hnumber] at hle
      exact ⟨⟨w, (mem_lang_numbersFrom hdig).2 (mem_of_le hdig hstripped hw hne hle), rfl⟩, hrest⟩

theorem boundPattern_matches_sample :
    "\n".toList ∈ rests Atom.test (boundPattern "0120".toList) ("0121".toList ++ "\n".toList) := by
  have hiff := (boundPattern_matches_iff "0120".toList "0121".toList "\n".toList (by decide)
    (by decide) (by decide) (by decide) (fun c hc => by
      obtain rfl : '\n' = c := Option.some.inj hc
      rfl)).2
  exact hiff.2 (by decide)

/-- The digits of 120 allow 120 to 129, 130 to 199, 200 to 999, and numbers with more digits. -/
example : ["119", "120", "0121", "199", "99", "1000"].map (fun w => (rests Atom.test (boundPattern "0120".toList) w.toList).length) =
    [0, 1, 1, 1, 0, 1] := by decide +kernel

end Bounds

end Cs300Projects.Dmalloc
