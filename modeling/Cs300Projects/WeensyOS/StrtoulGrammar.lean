import Cs300Projects.WeensyOS.Strtoul
import Mathlib.Data.List.DropRight
import Mathlib.Data.List.Forall2

/-!
# What strtoul and strtol read

`strtoul` reads white space, a sign, a prefix and the longest run of digits; the number that the run
stands for is saturated. The digits are not those of the C standard in bases above 10, and
`strtol` reads white space and a sign twice.
-/

namespace Cs300Projects.WeensyOS

open Numeral

/-! ### The text that is read -/

def isWhite (c : UInt8) : Bool := isspace (charVal c)

/-- A sign, if there is one, and what follows it. -/
def splitSign : List UInt8 → Bool × List UInt8
  | [] => (false, [])
  | c :: s => if c = ch '-' then (true, s) else if c = ch '+' then (false, s) else (false, c :: s)

/-- The base of the digits and their text: `strtoul` skips every prefix of base 16. -/
def skipPrefix (base : Int) (s : List UInt8) : Int × List UInt8 :=
  if base = 0 then
    if hexPrefix s then (16, s.drop 2) else if s.head? = some (ch '0') then (8, s) else (10, s)
  else if base = 16 ∧ hexPrefix s then (16, s.drop 2)
  else (base, s)

/-- What `strtoul` reads: a sign, a number without bounds, and the rest of the string. -/
structure Scanned where
  negative : Bool
  value : Nat
  rest : List UInt8

def scan (s : List UInt8) (base : Int) : Scanned :=
  let sign := splitSign (s.dropWhile isWhite)
  let text := skipPrefix base sign.2
  ⟨sign.1, runValue (digitOf text.1) text.1.toNat text.2, rest (digitOf text.1) text.2⟩

/-- A number that does not fit becomes 2⁶⁴ - 1, and is then negated like any other. -/
def saturate (negative : Bool) (v : Nat) : Nat :=
  let x := min v (2 ^ 64 - 1)
  if negative then (2 ^ 64 - x) % 2 ^ 64 else x

lemma skipSpace_eq (s : List UInt8) : skipSpace s = s.dropWhile isWhite := by
  induction s with
  | nil => rfl
  | cons c s ih =>
    rw [skipSpace, List.dropWhile_cons]
    unfold isWhite
    split
    · exact ih
    · rfl

lemma splitSign_eq (s : List UInt8) : splitSign s =
    (decide (s.head? = some (ch '-')),
      if decide (s.head? = some (ch '-')) ∨ s.head? = some (ch '+') then s.tail else s) := by
  cases s with
  | nil => rfl
  | cons c s =>
    simp only [splitSign, List.head?_cons, List.tail_cons, Option.some.injEq, decide_eq_true_eq]
    by_cases hminus : c = ch '-'
    · rw [if_pos hminus, if_pos (Or.inl hminus), decide_eq_true hminus]
    · by_cases hplus : c = ch '+'
      · rw [if_neg hminus, if_pos hplus, if_pos (Or.inr hplus), decide_eq_false hminus]
      · rw [if_neg hminus, if_neg hplus, if_neg (not_or.2 ⟨hminus, hplus⟩), decide_eq_false hminus]

lemma base_pos {base : Int} {c : UInt8} {d : Nat} (h : digitOf base c = some d) : 0 < base.toNat := by
  unfold digitOf at h
  split at h
  · omega
  · split at h
    · omega
    · split at h
      · omega
      · cases h

lemma digitOf_lt {base : Int} {c : UInt8} {d : Nat} (h : digitOf base c = some d) : d < 128 := by
  have hc := c.toNat_lt
  have hchar : charVal c < 128 := by
    unfold charVal
    split
    · omega
    · omega
  unfold digitOf at h
  split at h
  · rw [Option.some.injEq] at h
    omega
  · split at h
    · rw [Option.some.injEq] at h
      omega
    · split at h
      · rw [Option.some.injEq] at h
        omega
      · cases h

/-- The digit loop: once the number has overflowed, it stays overflowed, and its value no longer matters. -/
lemma digitLoop_eq (base : Int) (s : List UInt8) {x : Nat} (hx : x < 2 ^ 64) (overflow : Bool) :
    ∃ y, digitLoop base x overflow s =
        (y, overflow || decide (2 ^ 64 ≤ value base.toNat ((run (digitOf base) s).map (digitValue (digitOf base))) x),
          rest (digitOf base) s) ∧
      (overflow = false → value base.toNat ((run (digitOf base) s).map (digitValue (digitOf base))) x < 2 ^ 64 →
        y = value base.toNat ((run (digitOf base) s).map (digitValue (digitOf base))) x) := by
  induction s generalizing x overflow with
  | nil =>
    refine ⟨x, ?_, fun _ _ => rfl⟩
    have hfit : ¬ 2 ^ 64 ≤ x := Nat.not_le.2 hx
    change (x, overflow, []) = (x, overflow || decide (2 ^ 64 ≤ x), [])
    rw [decide_eq_false hfit, Bool.or_false]
  | cons c s ih =>
    cases hc : digitOf base c with
    | none =>
      refine ⟨x, ?_, fun _ _ => by rw [run_cons_none hc]; rfl⟩
      have hfit : ¬ 2 ^ 64 ≤ x := Nat.not_le.2 hx
      rw [digitLoop, hc, run_cons_none hc, rest_cons_none hc, List.map_nil, value_nil, decide_eq_false hfit,
        Bool.or_false]
    | some d =>
      have hpos := base_pos hc
      have hd : digitValue (digitOf base) c = d := by rw [digitValue, hc]; rfl
      rw [digitLoop, hc, run_cons_some hc, rest_cons_some hc, List.map_cons, hd, value_cons]
      simp only
      by_cases hover : x > (2 ^ 64 - 1 - d) / base.toNat
      · rw [if_pos hover]
        have hlarge : 2 ^ 64 ≤ x * base.toNat + d := by
          have hmul := (Nat.div_lt_iff_lt_mul hpos).1 hover
          omega
        have hvalue : 2 ^ 64 ≤ value base.toNat ((run (digitOf base) s).map (digitValue (digitOf base)))
            (x * base.toNat + d) := Nat.le_trans hlarge (le_value hpos _ _)
        obtain ⟨y, hy, -⟩ := ih hx true
        refine ⟨y, ?_, fun _ hlt => absurd hvalue (Nat.not_le.2 hlt)⟩
        rw [hy, decide_eq_true hvalue, Bool.true_or, Bool.or_true]
      · rw [if_neg hover]
        have hfit : x * base.toNat + d < 2 ^ 64 := by
          have hmul := (Nat.le_div_iff_mul_le hpos).1 (Nat.not_lt.1 hover)
          have hsmall := digitOf_lt hc
          omega
        exact ih hfit overflow

lemma strtoul_parts (s : List UInt8) (base : Int) : strtoul s base =
    let sign := splitSign (s.dropWhile isWhite)
    let d := digitLoop (skipPrefix base sign.2).1 0 false (skipPrefix base sign.2).2
    let x := if d.2.1 then 2 ^ 64 - 1 else d.1
    (if sign.1 then (2 ^ 64 - x) % 2 ^ 64 else x, d.2.2) := by
  rw [splitSign_eq, strtoul, skipSpace_eq]
  rfl

lemma digitLoop_saturates (base : Int) (s : List UInt8) :
    (if (digitLoop base 0 false s).2.1 then 2 ^ 64 - 1 else (digitLoop base 0 false s).1) =
        min (runValue (digitOf base) base.toNat s) (2 ^ 64 - 1) ∧
      (digitLoop base 0 false s).2.2 = rest (digitOf base) s := by
  obtain ⟨y, hloop, hy⟩ := digitLoop_eq base s (show 0 < 2 ^ 64 by decide) false
  rw [hloop]
  refine ⟨?_, rfl⟩
  unfold runValue
  simp only [Bool.false_or, decide_eq_true_eq]
  split
  · omega
  · rename_i hfit
    rw [hy rfl (Nat.not_le.1 hfit)]
    omega

/-- What `strtoul` returns, in every base. -/
lemma strtoul_eq (s : List UInt8) (base : Int) :
    strtoul s base = (saturate (scan s base).negative (scan s base).value, (scan s base).rest) := by
  obtain ⟨hvalue, hrest⟩ := digitLoop_saturates (skipPrefix base (splitSign (s.dropWhile isWhite)).2).1
    (skipPrefix base (splitSign (s.dropWhile isWhite)).2).2
  rw [strtoul_parts]
  dsimp only
  rw [hvalue, hrest]
  rfl

/-! ### strtol -/

/-- The integer that is read, without bounds. -/
def Scanned.toInt (r : Scanned) : Int := if r.negative then -(r.value : Int) else r.value

/-- `strtol` reads what `strtoul` reads, and clamps the integer to the range of a `long`. -/
structure ReadsAlike (s : List UInt8) (base : Int) : Prop where
  endptr : (strtol s base).2 = (strtoul s base).2
  value : (strtol s base).1 = max (-2 ^ 63) (min (2 ^ 63 - 1) (scan s base).toInt)

/-- Behind white space and a minus sign comes white space or a sign. -/
def SecondSign (s : List UInt8) : Prop :=
  ∃ c t, s.dropWhile isWhite = ch '-' :: c :: t ∧ (isWhite c ∨ c = ch '-' ∨ c = ch '+')

lemma saturate_false (v : Nat) : saturate false v = min v (2 ^ 64 - 1) := by
  unfold saturate
  simp only [Bool.false_eq_true, if_false]

/-- The number behind a minus sign that `strtol` has read. -/
lemma bmod_neg {u : Nat} (hu : u ≤ 2 ^ 63) : Int.bmod ((2 ^ 64 - u) % 2 ^ 64 : Nat) (2 ^ 64) = -(u : Int) := by
  by_cases h0 : u = 0
  · subst h0
    decide
  · rw [Nat.mod_eq_of_lt (by omega), Int.ofNat_sub (by omega)]
    have hshift : Int.bmod (((2 ^ 64 : Nat) : Int) - u) (2 ^ 64) = Int.bmod (-(u : Int)) (2 ^ 64) := by
      rw [sub_eq_add_neg, Int.add_comm]
      exact Int.add_bmod_right _ _
    rw [hshift]
    exact Int.bmod_eq_of_le (by omega) (by omega)

lemma strtol_of_minus {s t : List UInt8} (hs : s.dropWhile isWhite = ch '-' :: t) (base : Int) :
    strtol s base = (-((min (strtoul t base).1 (2 ^ 63) : Nat) : Int), (strtoul t base).2) := by
  unfold strtol
  simp only [skipSpace_eq, hs, List.head?_cons, List.tail_cons, decide_true, if_true]
  have hmin : (if (strtoul t base).1 > 2 ^ 63 - 0 then 2 ^ 63 - 0 else (strtoul t base).1) =
      min (strtoul t base).1 (2 ^ 63) := by
    split
    · omega
    · omega
  rw [hmin, bmod_neg (Nat.min_le_right _ _)]

lemma strtol_of_not_minus {s : List UInt8} (hs : (s.dropWhile isWhite).head? ≠ some (ch '-')) (base : Int) :
    strtol s base = (((min (strtoul (s.dropWhile isWhite) base).1 (2 ^ 63 - 1) : Nat) : Int),
      (strtoul (s.dropWhile isWhite) base).2) := by
  unfold strtol
  simp only [skipSpace_eq, hs, decide_false, Bool.false_eq_true, if_false]
  have hmin : (if (strtoul (s.dropWhile isWhite) base).1 > 2 ^ 63 - 1 then 2 ^ 63 - 1
      else (strtoul (s.dropWhile isWhite) base).1) = min (strtoul (s.dropWhile isWhite) base).1 (2 ^ 63 - 1) := by
    split
    · omega
    · omega
  rw [hmin, Int.bmod_eq_of_le (by omega) (by omega)]

/-- White space and signs are digits of no base. -/
lemma digitOf_separator {c : UInt8} (hc : isWhite c ∨ c = ch '-' ∨ c = ch '+') (base : Int) :
    digitOf base c = none := by
  have hsmall : charVal c < 48 := by
    rcases hc with hwhite | rfl | rfl
    · unfold isWhite isspace at hwhite
      rw [decide_eq_true_eq] at hwhite
      omega
    · decide
    · decide
  rw [digitOf, if_neg (by omega), if_neg (by omega), if_neg (by omega)]

lemma skipPrefix_of_head {c : UInt8} (hc : c ≠ ch '0') (base : Int) (t : List UInt8) :
    (skipPrefix base (c :: t)).2 = c :: t := by
  have hhex : hexPrefix (c :: t) = false := by
    rw [hexPrefix, decide_eq_false_iff_not]
    rintro ⟨h0, -⟩
    rw [List.getElem?_cons_zero, Option.some.injEq] at h0
    exact hc h0
  unfold skipPrefix
  split
  · simp only [hhex, Bool.false_eq_true, if_false]
    split <;> rfl
  · rw [if_neg (fun h => Bool.false_ne_true (hhex.symm.trans h.2))]

lemma splitSign_suffix (s : List UInt8) : (splitSign s).2 <:+ s := by
  cases s with
  | nil => exact List.suffix_refl _
  | cons c s =>
    rw [splitSign]
    split
    · exact List.suffix_cons c s
    · split
      · exact List.suffix_cons c s
      · exact List.suffix_refl _

lemma length_skipPrefix_le (base : Int) (s : List UInt8) : (skipPrefix base s).2.length ≤ s.length := by
  have hdrop : (s.drop 2).length ≤ s.length := by
    rw [List.length_drop]
    omega
  unfold skipPrefix
  split
  · split
    · exact hdrop
    · split
      · exact Nat.le_refl _
      · exact Nat.le_refl _
  · split
    · exact hdrop
    · exact Nat.le_refl _

lemma length_scan_le (s : List UInt8) (base : Int) :
    (scan s base).rest.length ≤ (splitSign (s.dropWhile isWhite)).2.length :=
  Nat.le_trans (length_rest_le _) (length_skipPrefix_le _ _)

/-- A second separator is skipped by `strtol` and stops `strtoul`. -/
lemma endptr_of_secondSign {s t : List UInt8} {c : UInt8} (hs : s.dropWhile isWhite = ch '-' :: c :: t)
    (hc : isWhite c ∨ c = ch '-' ∨ c = ch '+') (base : Int) : (strtol s base).2 ≠ (strtoul s base).2 := by
  have hstop : (strtoul s base).2 = c :: t := by
    have hzero : c ≠ ch '0' := by
      rintro rfl
      revert hc
      decide
    rw [strtoul_eq]
    unfold scan
    rw [hs]
    change rest (digitOf (skipPrefix base (c :: t)).1) (skipPrefix base (c :: t)).2 = c :: t
    rw [skipPrefix_of_head hzero]
    exact rest_cons_none (digitOf_separator hc _)
  have hshort : (splitSign ((c :: t).dropWhile isWhite)).2.length < (c :: t).length := by
    have ht : (t.dropWhile isWhite).length ≤ t.length := (List.dropWhile_suffix isWhite).length_le
    cases hwhite : isWhite c with
    | true =>
      rw [List.dropWhile_cons_of_pos hwhite]
      exact Nat.lt_succ_of_le (Nat.le_trans (splitSign_suffix _).length_le ht)
    | false =>
      rw [List.dropWhile_cons_of_neg (by rw [hwhite]; decide)]
      rcases hc with hwhite' | rfl | rfl
      · exact absurd (hwhite.symm.trans hwhite') (by decide)
      · exact Nat.lt_succ_self _
      · exact Nat.lt_succ_self _
  rw [strtol_of_minus hs, hstop, strtoul_eq]
  intro heq
  have hlen := length_scan_le (c :: t) base
  rw [show (scan (c :: t) base).rest = c :: t from heq] at hlen
  omega

lemma scan_plain {t : List UInt8} (ht : ∀ c, t.head? = some c → ¬ (isWhite c ∨ c = ch '-' ∨ c = ch '+')) :
    splitSign (t.dropWhile isWhite) = (false, t) := by
  cases t with
  | nil => rfl
  | cons c t =>
    obtain ⟨hwhite, hsign⟩ := not_or.1 (ht c rfl)
    obtain ⟨hminus, hplus⟩ := not_or.1 hsign
    rw [List.dropWhile_cons_of_neg hwhite, splitSign, if_neg hminus, if_neg hplus]

/-- `strtol` agrees with `strtoul` exactly where no second sign or white space follows a minus sign. -/
theorem strtol_reads_alike (s : List UInt8) (base : Int) : ReadsAlike s base ↔ ¬ SecondSign s := by
  constructor
  · rintro ⟨hend, -⟩ ⟨c, t, hs, hc⟩
    exact endptr_of_secondSign hs hc base hend
  · intro hsecond
    by_cases hminus : (s.dropWhile isWhite).head? = some (ch '-')
    · obtain ⟨t, ht⟩ := List.head?_eq_some_iff.1 hminus
      have hplain := scan_plain (t := t) fun c hc hsep => by
        obtain ⟨u, rfl⟩ := List.head?_eq_some_iff.1 hc
        exact hsecond ⟨c, u, ht, hsep⟩
      have hsign : splitSign (s.dropWhile isWhite) = (true, t) := by rw [ht]; rfl
      have hrest : (strtoul t base).2 = (strtoul s base).2 := by
        rw [strtoul_eq, strtoul_eq]
        unfold scan
        rw [hplain, hsign]
      refine ⟨by rw [strtol_of_minus ht, hrest], ?_⟩
      rw [strtol_of_minus ht, strtoul_eq]
      unfold scan Scanned.toInt
      rw [hplain, hsign]
      simp only [saturate_false, if_true]
      omega
    · have hskip : (s.dropWhile isWhite).dropWhile isWhite = s.dropWhile isWhite := List.dropWhile_idempotent _ _
      have hsame : strtoul (s.dropWhile isWhite) base = strtoul s base := by
        rw [strtoul_eq, strtoul_eq]
        unfold scan
        rw [hskip]
      have hsign : (scan s base).negative = false := by
        unfold scan
        rw [splitSign_eq]
        exact decide_eq_false hminus
      refine ⟨by rw [strtol_of_not_minus hminus, hsame], ?_⟩
      rw [strtol_of_not_minus hminus, hsame, strtoul_eq, hsign, saturate_false, Scanned.toInt, hsign]
      simp only [Bool.false_eq_true, if_false]
      omega

/-- White space behind the sign: `strtoul` reads no number, and `strtol` reads 5. -/
theorem strtol_reads_more : ¬ ReadsAlike [ch '-', ch ' ', ch '5'] 10 := by
  rintro ⟨hend, -⟩
  revert hend
  decide

/-! ### The grammar of the C standard -/

/-- The value of a digit or letter. -/
def isoValue (c : UInt8) : Option Nat :=
  if 48 ≤ c.toNat ∧ c.toNat ≤ 57 then some (c.toNat - 48)
  else if 97 ≤ c.toNat ∧ c.toNat ≤ 122 then some (c.toNat - 97 + 10)
  else if 65 ≤ c.toNat ∧ c.toNat ≤ 90 then some (c.toNat - 65 + 10)
  else none

def isoDigit (base : Nat) (c : UInt8) : Option Nat := (isoValue c).filter fun v => v < base

/-- The prefix of base 16 is one only in front of a digit. -/
def isoPrefix (base : Nat) (s : List UInt8) : Nat × List UInt8 :=
  if (base = 0 ∨ base = 16) ∧ hexPrefix s ∧ ((s.drop 2).head?.bind (isoDigit 16)).isSome then (16, s.drop 2)
  else if base = 0 then (if s.head? = some (ch '0') then 8 else 10, s)
  else (base, s)

/-- The sign, the base and the text of the digits. -/
structure IsoSubject where
  negative : Bool
  base : Nat
  text : List UInt8

def isoSubject (s : List UInt8) (base : Nat) : IsoSubject :=
  let sign := splitSign (s.dropWhile isWhite)
  let text := isoPrefix base sign.2
  ⟨sign.1, text.1, text.2⟩

namespace IsoSubject

variable (r : IsoSubject)

def digits : List UInt8 := run (isoDigit r.base) r.text
def value : Nat := runValue (isoDigit r.base) r.base r.text
def rest : List UInt8 := Numeral.rest (isoDigit r.base) r.text

end IsoSubject

/-- What the standard asks of `strtoul`: a number that does not fit is 2⁶⁴ - 1 with either sign. -/
def isoStrtoul (s : List UInt8) (base : Nat) : Nat × List UInt8 :=
  let r := isoSubject s base
  if r.digits = [] then (0, s)
  else (if 2 ^ 64 ≤ r.value then 2 ^ 64 - 1 else if r.negative then (2 ^ 64 - r.value) % 2 ^ 64 else r.value, r.rest)

/-- A character behind '9' that `strtoul` takes for a decimal digit of the base. -/
def Colliding (base : Nat) (c : UInt8) : Prop := 57 < c.toNat ∧ c.toNat < 48 + base

instance (base : Nat) (c : UInt8) : Decidable (Colliding base c) := inferInstanceAs (Decidable (_ ∧ _))

/-- Nothing that `strtoul` reads otherwise than the standard says matters. -/
structure Regular (s : List UInt8) (base : Nat) : Prop where
  /-- A digit follows the prefix of base 16. -/
  hex : base = 0 ∨ base = 16 → hexPrefix (splitSign (s.dropWhile isWhite)).2 →
    (((splitSign (s.dropWhile isWhite)).2.drop 2).head?.bind (isoDigit 16)).isSome
  /-- Without digits there is nothing in front of them. -/
  start : (isoSubject s base).digits = [] → (splitSign (s.dropWhile isWhite)).2 = s
  /-- What ends the digits ends them for `strtoul` too. -/
  stop : ∀ c, (isoSubject s base).rest.head? = some c → ¬ Colliding (isoSubject s base).base c
  /-- No letter counts as another digit, unless the number is saturated in any case. -/
  letters : (∀ c ∈ (isoSubject s base).digits, ¬ Colliding (isoSubject s base).base c) ∨
    2 ^ 64 - 1 ≤ (isoSubject s base).value
  /-- No number with a minus sign is saturated. -/
  negative : (isoSubject s base).negative → (isoSubject s base).value < 2 ^ 64

lemma charVal_of_lt {c : UInt8} (h : c.toNat < 128) : charVal c = c.toNat := if_pos h

/-- The digits that `strtoul` reads are those of the standard and the colliding characters. -/
lemma digitOf_eq {base : Nat} (hbase : base ≤ 36) (c : UInt8) :
    digitOf base c = if Colliding base c then some (c.toNat - 48) else isoDigit base c := by
  by_cases hcolliding : Colliding base c
  · obtain ⟨hlow, hhigh⟩ := hcolliding
    rw [if_pos ⟨hlow, hhigh⟩, digitOf, charVal_of_lt (by omega), if_pos (by omega)]
    exact congrArg some (by omega)
  rw [if_neg hcolliding]
  unfold Colliding at hcolliding
  unfold digitOf isoDigit isoValue
  by_cases hlarge : c.toNat < 128
  · rw [charVal_of_lt hlarge]
    split_ifs <;> simp only [Option.filter_some, Option.filter_none, decide_eq_true_eq] <;> grind
  · have hneg : charVal c < 0 := by
      have hc := c.toNat_lt
      unfold charVal
      rw [if_neg hlarge]
      omega
    rw [if_neg (by omega), if_neg (by omega), if_neg (by omega)]
    split_ifs <;> grind

lemma isoDigit_le {base : Nat} (hbase : base ≤ 36) {c : UInt8} (h : (isoDigit base c).isSome) :
    (digitOf base c).isSome ∧ digitValue (isoDigit base) c ≤ digitValue (digitOf base) c ∧
      (digitValue (isoDigit base) c = digitValue (digitOf base) c ↔ ¬ Colliding base c) := by
  obtain ⟨v, hv⟩ := Option.isSome_iff_exists.1 h
  have hdigit := digitOf_eq hbase c
  by_cases hcolliding : Colliding base c
  · rw [if_pos hcolliding] at hdigit
    have hletter : v + 7 = c.toNat - 48 := by
      obtain ⟨hlow, hhigh⟩ := hcolliding
      unfold isoDigit isoValue at hv
      rw [if_neg (by omega), if_neg (by omega)] at hv
      split at hv
      · simp only [Option.filter_some, decide_eq_true_eq] at hv
        split at hv
        · rw [Option.some.injEq] at hv
          omega
        · cases hv
      · cases hv
    unfold digitValue
    rw [hdigit, hv]
    simp only [Option.isSome_some, Option.getD_some, true_and, hcolliding, not_true, iff_false]
    omega
  · rw [if_neg hcolliding] at hdigit
    unfold digitValue
    rw [hdigit, hv]
    simp [hcolliding]

section Iso

variable {s : List UInt8} {base : Nat} (hbase : base ≤ 36)
include hbase

/-- Both readings find the same run of digits when no colliding character ends it. -/
lemma rest_eq_iff : rest (digitOf base) s = rest (isoDigit base) s ↔
    ∀ c, (rest (isoDigit base) s).head? = some c → ¬ Colliding base c := by
  have hmore : ∀ c, (isoDigit base c).isSome → (digitOf base c).isSome := fun c hc => (isoDigit_le hbase hc).1
  constructor
  · intro heq c hc hcolliding
    have hnone : digitOf base c = none := digit_head_rest (heq ▸ hc)
    rw [digitOf_eq hbase, if_pos hcolliding] at hnone
    cases hnone
  · intro hstop
    refine (run_of_stop hmore fun c hc => ?_).2
    rw [digitOf_eq hbase, if_neg (hstop c hc)]
    exact digit_head_rest hc

lemma runValue_le (hpos : 0 < base) (hrun : run (digitOf base) s = run (isoDigit base) s) :
    runValue (isoDigit base) base s ≤ runValue (digitOf base) base s ∧
      (runValue (digitOf base) base s = runValue (isoDigit base) base s ↔
        ∀ c ∈ run (isoDigit base) s, ¬ Colliding base c) := by
  have hdigits : List.Forall₂ (· ≤ ·) ((run (isoDigit base) s).map (digitValue (isoDigit base)))
      ((run (isoDigit base) s).map (digitValue (digitOf base))) := by
    rw [List.forall₂_map_left_iff, List.forall₂_map_right_iff, List.forall₂_same]
    exact fun c hc => (isoDigit_le hbase (isSome_of_mem_run hc)).2.1
  unfold runValue
  rw [hrun]
  refine ⟨value_le_value hdigits (Nat.le_refl 0), ?_⟩
  constructor
  · intro heq c hc
    have hsame := List.map_inj_left.1 (eq_of_value_eq hpos hdigits (Nat.le_refl 0) heq.symm).1 c hc
    exact (isoDigit_le hbase (isSome_of_mem_run hc)).2.2.1 hsame
  · intro hnone
    have hsame : (run (isoDigit base) s).map (digitValue (digitOf base)) =
        (run (isoDigit base) s).map (digitValue (isoDigit base)) := by
      apply List.map_congr_left
      exact fun c hc => ((isoDigit_le hbase (isSome_of_mem_run hc)).2.2.2 (hnone c hc)).symm
    rw [hsame]

end Iso

/-- The two ways of saturating a number, of which `strtoul` may have read too large a one. -/
lemma saturate_eq_iff {negative : Bool} {v w : Nat} (hle : v ≤ w) :
    saturate negative w = (if 2 ^ 64 ≤ v then 2 ^ 64 - 1 else if negative then (2 ^ 64 - v) % 2 ^ 64 else v) ↔
      (w = v ∨ 2 ^ 64 - 1 ≤ v) ∧ (negative → v < 2 ^ 64) := by
  unfold saturate
  cases negative with
  | false =>
    simp only [Bool.false_eq_true, if_false, false_implies, and_true]
    split
    · omega
    · omega
  | true =>
    simp only [if_true, true_implies]
    split
    · omega
    · omega

/-! ### Where strtoul follows the grammar -/

/-- Every prefix of base 16 has a digit behind it. -/
def PrefixOk (s : List UInt8) (base : Nat) : Prop :=
  base = 0 ∨ base = 16 → hexPrefix s → ((s.drop 2).head?.bind (isoDigit 16)).isSome

section Agreement

variable {s : List UInt8} {base : Nat}

lemma skipPrefix_eq (h : PrefixOk s base) :
    skipPrefix base s = (((isoPrefix base s).1 : Int), (isoPrefix base s).2) := by
  unfold skipPrefix isoPrefix
  by_cases hhex : hexPrefix s
  · by_cases h0 : base = 0
    · rw [if_pos (by omega), if_pos hhex, if_pos ⟨Or.inl h0, hhex, h (Or.inl h0) hhex⟩]
      rfl
    · rw [if_neg (by omega)]
      by_cases h16 : base = 16
      · rw [if_pos ⟨by omega, hhex⟩, if_pos ⟨Or.inr h16, hhex, h (Or.inr h16) hhex⟩]
        rfl
      · rw [if_neg (by omega), if_neg (by omega), if_neg h0]
  · rw [if_neg (show ¬ ((base = 0 ∨ base = 16) ∧ hexPrefix s ∧ _) from fun hand => hhex hand.2.1)]
    by_cases h0 : base = 0
    · rw [if_pos (by omega), if_neg hhex, if_pos h0]
      split <;> rfl
    · rw [if_neg (by omega), if_neg (fun hand => hhex hand.2), if_neg h0]

lemma isoPrefix_base (hbase : base = 0 ∨ 2 ≤ base ∧ base ≤ 36) :
    2 ≤ (isoPrefix base s).1 ∧ (isoPrefix base s).1 ≤ 36 := by
  unfold isoPrefix
  split
  · omega
  · split
    · split <;> omega
    · omega

lemma hexPrefix_cons (h : hexPrefix s) :
    ∃ x t, s = ch '0' :: x :: t ∧ (x = ch 'x' ∨ x = ch 'X') := by
  unfold hexPrefix at h
  rw [decide_eq_true_eq] at h
  obtain ⟨h0, hx⟩ := h
  match s, h0, hx with
  | a :: x :: t, h0, hx =>
    rw [List.getElem?_cons_zero, Option.some.injEq] at h0
    simp only [List.getElem?_cons_succ, List.getElem?_cons_zero, Option.some.injEq] at hx
    exact ⟨x, t, by rw [h0], hx⟩
  | [a], h0, hx => simp at hx

/-- A prefix without a digit is read as the digit 0 by the standard, and as a whole by `strtoul`. -/
lemma rest_of_bare_prefix (h : ¬ PrefixOk s base) :
    ∃ x t, run (isoDigit (isoPrefix base s).1) (isoPrefix base s).2 ≠ [] ∧
      rest (isoDigit (isoPrefix base s).1) (isoPrefix base s).2 = x :: t ∧
        (rest (digitOf (skipPrefix base s).1) (skipPrefix base s).2).length < (x :: t).length := by
  unfold PrefixOk at h
  push Not at h
  obtain ⟨hbase, hhex, hdigit⟩ := h
  obtain ⟨x, t, rfl, hx⟩ := hexPrefix_cons hhex
  have hiso : isoPrefix base (ch '0' :: x :: t) = (if base = 0 then 8 else 16, ch '0' :: x :: t) := by
    unfold isoPrefix
    rw [if_neg (fun hand => hdigit hand.2.2)]
    rcases hbase with rfl | rfl
    · rfl
    · rfl
  have hskip : skipPrefix base (ch '0' :: x :: t) = (16, t) := by
    unfold skipPrefix
    rcases hbase with rfl | rfl
    · rw [if_pos (by rfl), if_pos hhex]
      rfl
    · rw [if_neg (by decide), if_pos ⟨rfl, hhex⟩]
      rfl
  have hzero : isoDigit (if base = 0 then 8 else 16) (ch '0') = some 0 := by
    rcases hbase with rfl | rfl <;> rfl
  have hnone : isoDigit (if base = 0 then 8 else 16) x = none := by
    rcases hbase with rfl | rfl <;> rcases hx with rfl | rfl <;> rfl
  rw [hiso, hskip]
  refine ⟨x, t, ?_, ?_, ?_⟩
  · rw [run_cons_some hzero]
    exact List.cons_ne_nil _ _
  · rw [rest_cons_some hzero, rest_cons_none hnone]
  · exact Nat.lt_succ_of_le (length_rest_le t)

end Agreement

lemma isoPrefix_text {s : List UInt8} {base : Nat} (h : run (isoDigit (isoPrefix base s).1) (isoPrefix base s).2 = []) :
    (isoPrefix base s).2 = s := by
  unfold isoPrefix at h ⊢
  split
  · rename_i htaken
    rw [if_pos htaken] at h
    obtain ⟨c, hc, hdigit⟩ := Option.bind_eq_some_iff.1 (Option.isSome_iff_exists.1 htaken.2.2).choose_spec
    obtain ⟨t, ht⟩ := List.head?_eq_some_iff.1 hc
    rw [ht, run_cons_some hdigit] at h
    cases h
  · split
    · rfl
    · rfl

lemma run_eq_of_rest_eq {α : Type*} {digit digit' : α → Option Nat} {s : List α} (h : rest digit' s = rest digit s) :
    run digit' s = run digit s := by
  have hsplit := (run_append_rest digit' s).trans (run_append_rest digit s).symm
  rw [h] at hsplit
  exact List.append_cancel_right hsplit

/-- The two readings of a text `u` in base `b`, behind a prefix that both skip. -/
lemma readings_agree_iff {s t u : List UInt8} {b : Nat} (negative : Bool) (hlow : 2 ≤ b) (hhigh : b ≤ 36)
    (hsuffix : t <:+ s) (htext : run (isoDigit b) u = [] → u = t) :
    (saturate negative (runValue (digitOf b) b u), rest (digitOf b) u) =
        (if run (isoDigit b) u = [] then (0, s)
        else (if 2 ^ 64 ≤ runValue (isoDigit b) b u then 2 ^ 64 - 1
          else if negative then (2 ^ 64 - runValue (isoDigit b) b u) % 2 ^ 64 else runValue (isoDigit b) b u,
            rest (isoDigit b) u)) ↔
      (run (isoDigit b) u = [] → t = s) ∧ (∀ c, (rest (isoDigit b) u).head? = some c → ¬ Colliding b c) ∧
      ((∀ c ∈ run (isoDigit b) u, ¬ Colliding b c) ∨ 2 ^ 64 - 1 ≤ runValue (isoDigit b) b u) ∧
      (negative → runValue (isoDigit b) b u < 2 ^ 64) := by
  rw [← rest_eq_iff hhigh]
  by_cases hempty : run (isoDigit b) u = []
  · have hzero : runValue (isoDigit b) b u = 0 := by
      rw [runValue, hempty]
      rfl
    have hrest : rest (isoDigit b) u = t := by
      have hsplit := run_append_rest (isoDigit b) u
      rw [hempty, List.nil_append] at hsplit
      exact hsplit.trans (htext hempty)
    rw [if_pos hempty, Prod.mk.injEq, hzero, hrest]
    constructor
    · rintro ⟨-, hend⟩
      have hlen : s.length ≤ t.length := by
        rw [← hend, ← htext hempty]
        exact length_rest_le u
      have hts : t = s := hsuffix.eq_of_length (Nat.le_antisymm hsuffix.length_le hlen)
      refine ⟨fun _ => hts, hend.trans hts.symm, Or.inl ?_, fun _ => by decide⟩
      rw [hempty]
      exact fun c hc => absurd hc List.not_mem_nil
    · rintro ⟨hstart, hend, -, -⟩
      have hvalue : runValue (digitOf b) b u = 0 := by
        rw [runValue, run_eq_of_rest_eq (hend.trans hrest.symm), hempty]
        rfl
      rw [hvalue]
      refine ⟨?_, hend.trans (hstart hempty)⟩
      cases negative <;> rfl
  · rw [if_neg hempty, Prod.mk.injEq]
    constructor
    · rintro ⟨hvalue, hend⟩
      obtain ⟨hle, hsame⟩ := runValue_le hhigh (Nat.lt_of_lt_of_le (by decide) hlow) (run_eq_of_rest_eq hend)
      rw [saturate_eq_iff hle, hsame] at hvalue
      exact ⟨fun h => absurd h hempty, hend, hvalue⟩
    · rintro ⟨-, hend, hvalue⟩
      obtain ⟨hle, hsame⟩ := runValue_le hhigh (Nat.lt_of_lt_of_le (by decide) hlow) (run_eq_of_rest_eq hend)
      rw [saturate_eq_iff hle, hsame]
      exact ⟨hvalue, hend⟩

/-- `strtoul` follows the grammar of the standard exactly on the regular strings. -/
theorem strtoul_follows_iso (s : List UInt8) {base : Nat} (hbase : base = 0 ∨ 2 ≤ base ∧ base ≤ 36) :
    strtoul s base = isoStrtoul s base ↔ Regular s base := by
  obtain ⟨negative, t, hsign⟩ : ∃ negative t, splitSign (s.dropWhile isWhite) = (negative, t) := ⟨_, _, rfl⟩
  have hsubject : isoSubject s base = ⟨negative, (isoPrefix base t).1, (isoPrefix base t).2⟩ := by
    unfold isoSubject
    rw [hsign]
  have hsuffix : t <:+ s := by
    have htext := (splitSign_suffix (s.dropWhile isWhite)).trans (List.dropWhile_suffix isWhite)
    rw [hsign] at htext
    exact htext
  by_cases hprefix : PrefixOk t base
  swap
  · -- the prefix is read by `strtoul` alone
    obtain ⟨x, u, hdigits, hrest, hshort⟩ := rest_of_bare_prefix hprefix
    constructor
    · intro heq
      rw [strtoul_eq, isoStrtoul, hsubject] at heq
      unfold IsoSubject.digits IsoSubject.rest scan at heq
      rw [hsign, if_neg hdigits, hrest] at heq
      have hend : rest (digitOf (skipPrefix base t).1) (skipPrefix base t).2 = x :: u := (Prod.mk.inj heq).2
      rw [hend] at hshort
      exact absurd hshort (Nat.lt_irrefl _)
    · intro hregular
      have hhex := hregular.hex
      rw [hsign] at hhex
      exact absurd hhex hprefix
  obtain ⟨hlow, hhigh⟩ := isoPrefix_base (s := t) hbase
  have hreadings := readings_agree_iff negative hlow hhigh hsuffix isoPrefix_text
  rw [strtoul_eq, isoStrtoul, hsubject]
  unfold scan
  rw [hsign]
  dsimp only
  rw [skipPrefix_eq hprefix]
  dsimp only
  rw [Int.toNat_natCast]
  refine hreadings.trans ⟨?_, ?_⟩
  · rintro ⟨hstart, hstop, hletters, hnegative⟩
    constructor
    case hex =>
      rw [hsign]
      exact hprefix
    case start =>
      rw [hsubject, hsign]
      exact hstart
    all_goals rw [hsubject]
    case stop => exact hstop
    case letters => exact hletters
    case negative => exact hnegative
  · rintro ⟨-, hstart, hstop, hletters, hnegative⟩
    rw [hsubject] at hstart hstop hletters hnegative
    rw [hsign] at hstart
    exact ⟨hstart, hstop, hletters, hnegative⟩

theorem strtoul_follows_iso_sample :
    strtoul [ch ' ', ch '-', ch '0', ch 'x', ch '1', ch 'f', ch 'g'] 16 = (2 ^ 64 - 31, [ch 'g']) := by
  have hbase : 16 = 0 ∨ 2 ≤ 16 ∧ 16 ≤ 36 := by decide
  have hiso : isoStrtoul [ch ' ', ch '-', ch '0', ch 'x', ch '1', ch 'f', ch 'g'] 16 = (2 ^ 64 - 31, [ch 'g']) := by
    decide +kernel
  refine ((strtoul_follows_iso _ hbase).2 ⟨?_, ?_, ?_, ?_, ?_⟩).trans hiso
  all_goals decide +kernel

/-- A colon and a capital letter that count as other digits, a bare prefix, a sign without digits and a
saturated number with a minus sign. -/
theorem strtoul_misses_iso :
    strtoul [ch ':'] 16 ≠ isoStrtoul [ch ':'] 16 ∧ strtoul [ch 'A'] 36 ≠ isoStrtoul [ch 'A'] 36 ∧
      strtoul [ch '0', ch 'x'] 16 ≠ isoStrtoul [ch '0', ch 'x'] 16 ∧ strtoul [ch '-'] 10 ≠ isoStrtoul [ch '-'] 10 ∧
      strtoul (ch '-' :: List.replicate 20 (ch '9')) 10 ≠ isoStrtoul (ch '-' :: List.replicate 20 (ch '9')) 10 := by
  decide +kernel

end Cs300Projects.WeensyOS
