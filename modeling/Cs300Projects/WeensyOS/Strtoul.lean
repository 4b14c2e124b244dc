import Cs300Projects.Lib.Numeral

/-!
# strtoul and strtol

A string is the list of its bytes up to the terminating NUL, and the end pointer is the part of
the string that it points to. A `char` is signed: bytes from 128 on are negative.
-/

namespace Cs300Projects.WeensyOS

/-- The byte of an ASCII character. -/
def ch (c : Char) : UInt8 := UInt8.ofNat c.toNat

/-- The value of a `char`. -/
def charVal (c : UInt8) : Int := if c.toNat < 128 then c.toNat else (c.toNat : Int) - 256

def isspace (c : Int) : Bool := (9 ≤ c ∧ c ≤ 13) ∨ c = 32

def skipSpace : List UInt8 → List UInt8
  | [] => []
  | c :: s => if isspace (charVal c) then skipSpace s else c :: s

/-- The value of a digit; the comparisons are those of `strtoul`. -/
def digitOf (base : Int) (c : UInt8) : Option Nat :=
  if 48 ≤ charVal c ∧ charVal c < 48 + base then some (charVal c - 48).toNat
  else if 10 < base ∧ 97 ≤ charVal c ∧ charVal c < 97 + base - 10 then
    some (charVal c - 97 + 10).toNat
  else if 10 < base ∧ 65 ≤ charVal c ∧ charVal c < 65 + base - 10 then
    some (charVal c - 65 + 10).toNat
  else none

/-- The digit loop: the number, whether it overflowed, and the rest of the string. -/
def digitLoop (base : Int) : Nat → Bool → List UInt8 → Nat × Bool × List UInt8
  | x, overflow, [] => (x, overflow, [])
  | x, overflow, c :: s =>
    match digitOf base c with
    | none => (x, overflow, c :: s)
    | some digit =>
      if x > (2 ^ 64 - 1 - digit) / base.toNat then digitLoop base x true s
      else digitLoop base (x * base.toNat + digit) overflow s

/-- `s[0] == '0' && (s[1] == 'x' || s[1] == 'X')` -/
def hexPrefix (s : List UInt8) : Bool :=
  s[0]? = some (ch '0') ∧ (s[1]? = some (ch 'x') ∨ s[1]? = some (ch 'X'))

def strtoul (s : List UInt8) (base : Int) : Nat × List UInt8 :=
  let s₁ := skipSpace s
  let negative : Bool := s₁.head? = some (ch '-')
  let s₂ := if negative ∨ s₁.head? = some (ch '+') then s₁.tail else s₁
  let bs : Int × List UInt8 :=
    if base = 0 then
      if hexPrefix s₂ then (16, s₂.drop 2)
      else if s₂.head? = some (ch '0') then (8, s₂)
      else (10, s₂)
    else if base = 16 ∧ hexPrefix s₂ then (16, s₂.drop 2)
    else (base, s₂)
  let d := digitLoop bs.1 0 false bs.2
  let x := if d.2.1 then 2 ^ 64 - 1 else d.1
  (if negative then (2 ^ 64 - x) % 2 ^ 64 else x, d.2.2)

def strtol (s : List UInt8) (base : Int) : Int × List UInt8 :=
  let s₁ := skipSpace s
  let negative : Bool := s₁.head? = some (ch '-')
  let s₂ := if negative then s₁.tail else s₁
  let u := strtoul s₂ base
  let bound := 2 ^ 63 - (if negative then 0 else 1)
  let u₁ := if u.1 > bound then bound else u.1
  let u₂ := if negative then (2 ^ 64 - u₁) % 2 ^ 64 else u₁
  (Int.bmod u₂ (2 ^ 64), u.2)

/-! ### Digits followed by something else -/

/-- The digit loop stops at the string. -/
def Stops (base : Int) (s : List UInt8) : Prop := ∀ c, s.head? = some c → digitOf base c = none

lemma digitLoop_digits {base : Int} (hbase : 0 < base.toNat) {char : Nat → UInt8} {rest : List UInt8}
    (hrest : Stops base rest) (ds : List Nat) (hds : ∀ d ∈ ds, digitOf base (char d) = some d)
    (x : Nat) (hx : Numeral.value base.toNat ds x < 2 ^ 64) :
    digitLoop base x false (ds.map char ++ rest) =
      (Numeral.value base.toNat ds x, false, rest) := by
  induction ds generalizing x with
  | nil =>
    cases rest with
    | nil => rfl
    | cons c rest => simp [digitLoop, hrest c rfl]
  | cons d ds ih =>
    rw [Numeral.value_cons] at hx
    have hfit : x * base.toNat + d < 2 ^ 64 := Nat.lt_of_le_of_lt (Numeral.le_value hbase ds _) hx
    have hle : ¬ x > (2 ^ 64 - 1 - d) / base.toNat := by
      rw [Nat.not_lt, Nat.le_div_iff_mul_le hbase]
      omega
    rw [List.map_cons, List.cons_append, digitLoop, hds d List.mem_cons_self]
    simp only
    rw [if_neg hle, Numeral.value_cons]
    exact ih (fun e he => hds e (List.mem_cons_of_mem _ he)) _ hx

lemma skipSpace_pad (n : Nat) (s : List UInt8) :
    skipSpace (List.replicate n (ch ' ') ++ s) = skipSpace s := by
  induction n with
  | zero => rfl
  | succ n ih =>
    rw [List.replicate_succ, List.cons_append, skipSpace, if_pos (by decide), ih]

lemma skipSpace_head {c : UInt8} (s : List UInt8) (hc : isspace (charVal c) = false) :
    skipSpace (c :: s) = c :: s := by
  rw [skipSpace, if_neg (by rw [hc]; exact Bool.false_ne_true)]

end Cs300Projects.WeensyOS
