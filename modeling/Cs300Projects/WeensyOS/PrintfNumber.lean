import Cs300Projects.WeensyOS.PrintfFormat
import Cs300Projects.WeensyOS.PrintfStrtol

/-!
# The layout of numbers

What `vprintf` prints of a number: spaces, a sign or the prefix of base 16, zeros, the shortest digits
of the absolute value, and spaces. A width or a precision that is no `int` wraps around, and so does what is left of the width
for the largest precisions.
-/

namespace Cs300Projects.WeensyOS

/-- A conversion of a number. -/
inductive NumberConv where
  | d | i | u | x | X | p
  deriving DecidableEq

namespace NumberConv

def byte : NumberConv → UInt8
  | d => ch 'd'
  | i => ch 'i'
  | u => ch 'u'
  | x => ch 'x'
  | X => ch 'X'
  | p => ch 'p'

def signed : NumberConv → Bool
  | d | i => true
  | _ => false

def base : NumberConv → Nat
  | d | i | u => 10
  | x | X | p => 16

def table : NumberConv → List UInt8
  | x | p => lowerDigits
  | _ => upperDigits

end NumberConv

/-- A length modifier, or none. -/
inductive LengthMod where
  | none | l | t | z
  deriving DecidableEq

def LengthMod.bytes : LengthMod → List UInt8
  | .none => []
  | .l => [ch 'l']
  | .t => [ch 't']
  | .z => [ch 'z']

/-- No precision, a number with any digits or none, or an argument. -/
inductive Precision where
  | unspecified
  | digits (digits : List (Fin 10))
  | star (precision : BitVec 32)

namespace Precision

def bytes : Precision → List UInt8
  | unspecified => []
  | digits ds => ch '.' :: ds.map fun d => digitByte d.val
  | star _ => [ch '.', ch '*']

def args : Precision → VaList
  | star precision => [.int precision]
  | _ => []

def value : Precision → Option Int
  | unspecified => none
  | digits ds => some (Numeral.value 10 (ds.map Fin.val) 0)
  | star precision => some precision.toInt

end Precision

/-- The width; without one it is -1. -/
def Width.value : Width → Int
  | .unspecified => -1
  | .digits first rest => Numeral.value 10 ((first.val + 1) :: rest.map Fin.val) 0
  | .star width => width.toInt

/-- A conversion of a number with flags in any order and number, with a width that is not negative and a precision. -/
structure NumberDirective extends Directive where
  precision : Precision
  length : LengthMod
  conv : NumberConv
  width_nonneg : width = .unspecified ∨ 0 ≤ width.value

namespace NumberDirective

variable (d : NumberDirective)

/-- The argument has 64 bits. -/
def long : Bool := d.length ≠ .none ∨ d.conv = .p

/-- The text of the conversion. -/
def text : List UInt8 :=
  ch '%' :: (d.flags.map FlagChar.byte ++ (d.width.bytes ++ (d.precision.bytes ++ (d.length.bytes ++ [d.conv.byte]))))

/-- The arguments: `x` has 64 bits, or its low 32 bits are the number. -/
def arguments (x : BitVec 64) : VaList :=
  d.width.args ++ (d.precision.args ++ [if d.long then .long x else .int (x.truncate 32)])

/-- The number that is printed. -/
def number (x : BitVec 64) : Int :=
  if d.conv.signed then if d.long then x.toInt else (x.truncate 32).toInt
  else if d.long then x.toNat else (x.truncate 32).toNat

def sign (n : Int) : List UInt8 :=
  if d.conv.signed then
    if n < 0 then [ch '-']
    else if .pluspositive ∈ d.flags then [ch '+']
    else if .spacepositive ∈ d.flags then [ch ' ']
    else []
  else if d.conv = .p then [ch '0', ch 'x']
  else if .alt ∈ d.flags ∧ n ≠ 0 then
    if d.conv = .x then [ch '0', ch 'x'] else if d.conv = .X then [ch '0', ch 'X'] else []
  else []

/-- The shortest digits of the absolute value. -/
def digits (n : Int) : List UInt8 := (Numeral.shortest d.conv.base n.natAbs).map fun e => d.conv.table.getD e 0

/-- The number of zeros: those that the precision asks for, or else those that fill the width. -/
def zeros (n : Int) : Nat :=
  match d.precision.value with
  | some p => (p - (d.digits n).length).toNat
  | none =>
    if .zero ∈ d.flags ∧ .leftjustify ∉ d.flags then d.width.value.toNat - ((d.sign n).length + (d.digits n).length)
    else 0

/-- The number without padding spaces. -/
def unpadded (n : Int) : List UInt8 := d.sign n ++ List.replicate (d.zeros n) (ch '0') ++ d.digits n

/-- The number with `z` zeros and with `k` spaces on the left, or on the right under the flag '-'. -/
def laidOut (n : Int) (z k : Nat) : List UInt8 :=
  if .leftjustify ∈ d.flags then d.sign n ++ List.replicate z (ch '0') ++ d.digits n ++ List.replicate k (ch ' ')
  else List.replicate k (ch ' ') ++ (d.sign n ++ List.replicate z (ch '0') ++ d.digits n)

/-- The number with the zeros, and the spaces that fill the width. -/
def printed (n : Int) : List UInt8 := d.laidOut n (d.zeros n) (d.width.value.toNat - (d.unpadded n).length)

/-- The spaces can be counted. -/
lemma laidOut_inj {n : Int} {z k z' k' : Nat} : d.laidOut n z k = d.laidOut n z' k' ↔ z = z' ∧ k = k' := by
  constructor
  · intro h
    have hlength := congrArg List.length h
    have hcount := congrArg (List.count (ch ' ')) h
    have hzero : (ch '0' == ch ' ') = false := by decide
    unfold laidOut at hlength hcount
    by_cases hjustify : FlagChar.leftjustify ∈ d.flags
    · simp only [if_pos hjustify, List.length_append, List.length_replicate, List.count_append, List.count_replicate, hzero,
        beq_self_eq_true, if_true, Bool.false_eq_true, if_false] at hlength hcount
      omega
    · simp only [if_neg hjustify, List.length_append, List.length_replicate, List.count_append, List.count_replicate, hzero,
        beq_self_eq_true, if_true, Bool.false_eq_true, if_false] at hlength hcount
      omega
  · rintro ⟨rfl, rfl⟩
    rfl

end NumberDirective

/-! ### Parsing the conversion -/

/-- A character that ends the flags and the width. -/
structure Ends (c : UInt8) : Prop where
  notFlag : NotFlag c
  notDigit : ¬ (ch '0' ≤ c ∧ c ≤ ch '9')
  notStar : c ≠ ch '*'

/-- The flag bits that the characters set. -/
def flagsOf (f : Flags) (l : List FlagChar) : Flags :=
  { f with
    alt := f.alt || decide (FlagChar.alt ∈ l)
    zero := f.zero || decide (FlagChar.zero ∈ l)
    leftjustify := f.leftjustify || decide (FlagChar.leftjustify ∈ l)
    spacepositive := f.spacepositive || decide (FlagChar.spacepositive ∈ l)
    pluspositive := f.pluspositive || decide (FlagChar.pluspositive ∈ l) }

section Parse

variable {c : UInt8} {format : List UInt8} {val : VaList}

lemma parseFlags_chars (f : Flags) (l : List FlagChar) (hc : NotFlag c) :
    parseFlags f (l.map FlagChar.byte ++ c :: format) = (flagsOf f l, c :: format) := by
  induction l generalizing f with
  | nil =>
    rw [List.map_nil, List.nil_append, parseFlags, f.set_none hc]
    simp [flagsOf]
  | cons a l ih =>
    obtain ⟨f', hset, hflags⟩ : ∃ f', f.set a.byte = some f' ∧ flagsOf f' l = flagsOf f (a :: l) := by
      cases a
      all_goals exact ⟨_, rfl, by simp [flagsOf]⟩
    rw [List.map_cons, List.cons_append, parseFlags, hset]
    simp only
    rw [ih, hflags]

lemma digitByte_value (d : Fin 10) : ((digitByte d.val).toNat : Int) - 48 = d.val := by
  revert d
  decide

/-- A literal number wraps around. -/
lemma parseDigits_value (l : List (Fin 10)) (x : Nat) (hc : ¬ (ch '0' ≤ c ∧ c ≤ ch '9')) (format : List UInt8) :
    parseDigits (Int.bmod x (2 ^ 32)) (l.map (fun d => digitByte d.val) ++ c :: format) =
      (Int.bmod (Numeral.value 10 (l.map Fin.val) x : Nat) (2 ^ 32), c :: format) := by
  induction l generalizing x with
  | nil => rw [List.map_nil, List.nil_append, parseDigits, if_neg hc]; rfl
  | cons d l ih =>
    have hnext : Int.bmod (10 * Int.bmod x (2 ^ 32) + (digitByte d.val).toNat - 48) (2 ^ 32) =
        Int.bmod ((x * 10 + d.val : Nat) : Int) (2 ^ 32) := by
      rw [add_sub_assoc, digitByte_value d, ← Int.bmod_add_bmod, Int.mul_bmod_bmod, Int.bmod_add_bmod, Int.mul_comm]
      push_cast
      rfl
    rw [List.map_cons, List.cons_append, parseDigits, if_pos (digitByte_digit d), hnext, ih, List.map_cons, Numeral.value_cons]

/-- An `int` argument is as it is. -/
lemma bmod_toInt (x : BitVec 32) : Int.bmod x.toInt (2 ^ 32) = x.toInt := by
  have hlow := x.le_toInt
  have hhigh := x.toInt_lt
  exact Int.bmod_eq_of_le (by omega) (by omega)

lemma parseWidth_value (w : Width) (hc : Ends c) :
    parseWidth (w.bytes ++ c :: format) (w.args ++ val) = some (Int.bmod w.value (2 ^ 32), c :: format, val) := by
  cases w with
  | unspecified =>
    have hdigit : ¬ (ch '1' ≤ c ∧ c ≤ ch '9') := by
      rintro ⟨hle, hle'⟩
      exact hc.notDigit ⟨UInt8.le_trans (by decide) hle, hle'⟩
    change parseWidth (c :: format) val = _
    unfold parseWidth
    rw [show peek (c :: format) = c from rfl, if_neg hdigit, if_neg hc.notStar]
    rfl
  | digits first rest =>
    have hdigits := parseDigits_value (first.succ :: rest) 0 hc.notDigit format
    have hbytes : (Width.digits first rest).bytes ++ c :: format =
        (first.succ :: rest).map (fun d => digitByte d.val) ++ c :: format := rfl
    rw [Nat.cast_zero, Int.zero_bmod] at hdigits
    have hvalue : (Width.digits first rest).value = (Numeral.value 10 ((first.succ :: rest).map Fin.val) 0 : Nat) := rfl
    have hargs : (Width.digits first rest).args ++ val = val := rfl
    rw [parseWidth, hbytes, hdigits, show peek ((first.succ :: rest).map (fun d => digitByte d.val) ++
      c :: format) = digitByte (first.val + 1) from rfl, if_pos (digitByte_positive first), hvalue, hargs]
  | star width =>
    have hread : parseWidth ((Width.star width).bytes ++ c :: format) ((Width.star width).args ++ val) =
        some (width.toInt, c :: format, val) := rfl
    have hvalue : (Width.star width).value = width.toInt := rfl
    rw [hread, hvalue, bmod_toInt]

/-- The precision as `vprintf` keeps it: -1 without one, and at least 0 otherwise. -/
def Precision.kept (p : Precision) : Int :=
  match p.value with
  | none => -1
  | some p => if Int.bmod p (2 ^ 32) < 0 then 0 else Int.bmod p (2 ^ 32)

/-- The precision as it is read behind the point. -/
def Precision.read : Precision → Int
  | .unspecified => -1
  | .digits [] => -1
  | .digits (d :: ds) => Int.bmod (Numeral.value 10 ((d :: ds).map Fin.val) 0) (2 ^ 32)
  | .star precision => precision.toInt

lemma parsePrecisionValue_value (p : Precision) (hc : Ends c) :
    parsePrecisionValue (p.bytes.tail ++ c :: format) (p.args ++ val) = some (p.read, c :: format, val) := by
  cases p with
  | unspecified =>
    change parsePrecisionValue (c :: format) val = _
    rw [parsePrecisionValue, show peek (c :: format) = c from rfl, if_neg hc.notDigit, if_neg hc.notStar]
    rfl
  | digits ds =>
    cases ds with
    | nil =>
      change parsePrecisionValue (c :: format) val = _
      rw [parsePrecisionValue, show peek (c :: format) = c from rfl, if_neg hc.notDigit, if_neg hc.notStar]
      rfl
    | cons d ds =>
      have hdigits := parseDigits_value (d :: ds) 0 hc.notDigit format
      rw [Nat.cast_zero, Int.zero_bmod] at hdigits
      have htail : (Precision.digits (d :: ds)).bytes.tail = (d :: ds).map fun d => digitByte d.val := rfl
      have hargs : (Precision.digits (d :: ds)).args ++ val = val := rfl
      have hread : (Precision.digits (d :: ds)).read = Int.bmod (Numeral.value 10 ((d :: ds).map Fin.val) 0 : Nat) (2 ^ 32) := rfl
      rw [htail, hargs, hread, parsePrecisionValue, hdigits, show peek ((d :: ds).map (fun d => digitByte d.val) ++ c :: format) =
        digitByte d.val from rfl, if_pos (digitByte_digit d)]
  | star precision => rfl

lemma parsePrecision_value (p : Precision) (hc : Ends c)
    (hdot : c ≠ ch '.') :
    parsePrecision (p.bytes ++ c :: format) (p.args ++ val) = some (p.kept, c :: format, val) := by
  have hvalue : parsePrecisionValue (p.bytes.tail ++ c :: format) (p.args ++ val) = some (p.read, c :: format, val) :=
    parsePrecisionValue_value p hc
  have hpoint : ∀ l, p.bytes = ch '.' :: l →
      parsePrecision (p.bytes ++ c :: format) (p.args ++ val) =
        some (if p.read < 0 then 0 else p.read, c :: format, val) := by
    intro l hl
    rw [hl, List.tail_cons] at hvalue
    rw [hl, List.cons_append, parsePrecision, show peek (ch '.' :: (l ++ c :: format)) = ch '.' from rfl,
      if_pos rfl]
    simp only [advance, Option.bind_eq_bind, Option.bind_some, hvalue]
    rfl
  cases p with
  | unspecified =>
    change parsePrecision (c :: format) val = _
    rw [parsePrecision, show peek (c :: format) = c from rfl, if_neg hdot]
    rfl
  | digits ds =>
    rw [hpoint _ rfl]
    cases ds
    all_goals rfl
  | star precision =>
    have hkept : (Precision.star precision).kept =
        if Int.bmod precision.toInt (2 ^ 32) < 0 then 0 else Int.bmod precision.toInt (2 ^ 32) := rfl
    have hread : (Precision.star precision).read = precision.toInt := rfl
    rw [hpoint _ rfl, hread, hkept, bmod_toInt]

lemma parseLength_value (m : LengthMod) (hl : c ≠ ch 'l') (ht : c ≠ ch 't') (hz : c ≠ ch 'z') (hh : c ≠ ch 'h') :
    parseLength (m.bytes ++ c :: format) = some (decide (m ≠ .none), c :: format) := by
  cases m with
  | none =>
    change parseLength (c :: format) = _
    have hlong : ¬ (c = ch 'l' ∨ c = ch 't' ∨ c = ch 'z') := by
      rintro (h | h | h)
      · exact hl h
      · exact ht h
      · exact hz h
    unfold parseLength
    rw [show peek (c :: format) = c from rfl]
    simp only [if_neg hlong, if_neg hh]
    rfl
  | l => rfl
  | t => rfl
  | z => rfl

/-- A character that ends the precision as well. -/
def EndsPrecision (c : UInt8) : Prop := Ends c ∧ c ≠ ch '.'

lemma NumberConv.ends (conv : NumberConv) : EndsPrecision conv.byte ∧
    conv.byte ≠ ch 'l' ∧ conv.byte ≠ ch 't' ∧ conv.byte ≠ ch 'z' ∧ conv.byte ≠ ch 'h' := by
  cases conv
  all_goals exact ⟨⟨⟨by decide, by decide, by decide⟩, by decide⟩, by decide, by decide, by decide, by decide⟩

lemma LengthMod.head (m : LengthMod) (hc : EndsPrecision c) (format : List UInt8) :
    ∃ c' format', m.bytes ++ c :: format = c' :: format' ∧ EndsPrecision c' := by
  cases m with
  | none => exact ⟨c, format, rfl, hc⟩
  | l => exact ⟨ch 'l', c :: format, rfl, ⟨by decide, by decide, by decide⟩, by decide⟩
  | t => exact ⟨ch 't', c :: format, rfl, ⟨by decide, by decide, by decide⟩, by decide⟩
  | z => exact ⟨ch 'z', c :: format, rfl, ⟨by decide, by decide, by decide⟩, by decide⟩

lemma Precision.head (p : Precision) (hc : Ends c) (format : List UInt8) :
    ∃ c' format', p.bytes ++ c :: format = c' :: format' ∧ Ends c' := by
  have hpoint : Ends (ch '.') := ⟨by decide, by decide, by decide⟩
  cases p with
  | unspecified => exact ⟨c, format, rfl, hc⟩
  | digits ds => exact ⟨ch '.', _, rfl, hpoint⟩
  | star precision => exact ⟨ch '.', _, rfl, hpoint⟩

lemma Width.head (w : Width) (hc : NotFlag c) (format : List UInt8) :
    ∃ c' format', w.bytes ++ c :: format = c' :: format' ∧ NotFlag c' := by
  cases w with
  | unspecified => exact ⟨c, format, rfl, hc⟩
  | digits first rest =>
    refine ⟨digitByte (first.val + 1), _, rfl, ?_⟩
    revert first
    decide
  | star width => exact ⟨ch '*', _, rfl, by decide⟩

end Parse

/-! ### The conversion -/

/-- The base of a conversion, negative for small letters. -/
def NumberConv.code : NumberConv → Int
  | d | i | u => 10
  | x | p => -16
  | X => 16

lemma slt_zero (x : BitVec 64) : x.slt 0 = decide (x.toInt < 0) := by
  rw [BitVec.slt_eq_decide]
  rfl

lemma abs_toNat (x : BitVec 64) : (if x.slt 0 then -x else x).toNat = x.toInt.natAbs := by
  have htwos := x.toInt_eq_toNat_cond
  have hlt := x.isLt
  have hneg := BitVec.toNat_neg x
  rw [slt_zero, apply_ite BitVec.toNat]
  by_cases h : x.toInt < 0
  · rw [if_pos (decide_eq_true h)]
    omega
  · rw [if_neg (by simpa using h)]
    omega

namespace NumberDirective

variable (d : NumberDirective)

/-- What the switch on the conversion selects for the number `n`. -/
structure Selects (n : Int) (f : Flags) (num : BitVec 64) : Prop where
  numeric : f.numeric = true
  zero : f.zero = decide (FlagChar.zero ∈ d.flags)
  leftjustify : f.leftjustify = decide (FlagChar.leftjustify ∈ d.flags)
  abs : num.toNat = n.natAbs
  sign : signPrefix f d.conv.code num = d.sign n

def argument (x : BitVec 64) : Arg := if d.long then .long x else .int (x.truncate 32)

lemma arguments_eq (x : BitVec 64) : d.arguments x = d.width.args ++ (d.precision.args ++ [d.argument x]) := rfl

lemma signed_sign (hsigned : d.conv.signed = true) (n : Int) (num : BitVec 64) (base : Int) :
    signPrefix { flagsOf {} d.flags with numeric := true, signed := true, negative := decide (n < 0) } base num =
      d.sign n := by
  unfold signPrefix sign
  rw [if_pos ⟨rfl, rfl⟩, if_pos hsigned]
  simp only [decide_eq_true_eq, flagsOf, Bool.false_or]

lemma unsigned_sign (hsigned : d.conv.signed = false) (hp : d.conv ≠ .p) {n : Int} {num : BitVec 64}
    (hnum : num.toNat = n.natAbs) :
    signPrefix { flagsOf {} d.flags with numeric := true } d.conv.code num = d.sign n := by
  have hzero : num = 0#64 ↔ n = 0 := by
    rw [← Int.natAbs_eq_zero, ← hnum]
    exact BitVec.toNat_inj.symm
  have hsign : signPrefix { flagsOf {} d.flags with numeric := true } d.conv.code num =
      if .alt ∈ d.flags ∧ (d.conv.code = 16 ∨ d.conv.code = -16) ∧ n ≠ 0 then
        if d.conv.code = -16 then [ch '0', ch 'x'] else [ch '0', ch 'X']
      else [] := by
    unfold signPrefix
    rw [if_neg (fun h => Bool.false_ne_true h.2)]
    simp [flagsOf, hzero]
  have hnot : ¬ d.conv.signed = true := by
    rw [hsigned]
    exact Bool.false_ne_true
  rw [hsign, sign, if_neg hnot, if_neg hp]
  cases hconv : d.conv with
  | d => rw [hconv] at hsigned; cases hsigned
  | i => rw [hconv] at hsigned; cases hsigned
  | p => exact absurd hconv hp
  | u => simp [NumberConv.code]
  | x => simp [NumberConv.code]
  | X => simp [NumberConv.code]

lemma pointer_sign (hp : d.conv = .p) (n : Int) (num : BitVec 64) :
    signPrefix { flagsOf {} d.flags with alt := true, alt2 := true, numeric := true } d.conv.code num = d.sign n := by
  have hsign : d.sign n = [ch '0', ch 'x'] := by
    rw [sign, hp]
    rfl
  rw [hsign, hp]
  unfold signPrefix
  rw [if_neg (fun h => Bool.false_ne_true h.2), if_pos ⟨rfl, rfl, Or.inr rfl, Or.inr rfl⟩]
  rfl

lemma number_signed (hsigned : d.conv.signed = true) (x : BitVec 64) :
    d.number x = (if d.long then x else (x.truncate 32).signExtend 64).toInt := by
  rw [number, if_pos hsigned]
  split
  · rfl
  · exact (BitVec.toInt_signExtend_of_le (by decide)).symm

lemma number_unsigned (hsigned : d.conv.signed = false) (x : BitVec 64) :
    (if d.long then x else (x.truncate 32).zeroExtend 64).toNat = (d.number x).natAbs := by
  have hnot : ¬ d.conv.signed = true := by
    rw [hsigned]
    exact Bool.false_ne_true
  rw [number, if_neg hnot]
  by_cases hlong : d.long = true
  · rw [if_pos hlong, if_pos hlong, Int.natAbs_natCast]
  · rw [if_neg hlong, if_neg hlong, Int.natAbs_natCast]
    exact BitVec.toNat_setWidth_of_le (by decide)

lemma convert_signed (hsigned : d.conv.signed = true) (x : BitVec 64) :
    ∃ f num, d.Selects (d.number x) f num ∧ ∀ val,
      convert (flagsOf {} d.flags) (decide (d.length ≠ .none)) d.conv.byte (d.argument x :: val) =
        some (.number f d.conv.code num, val) := by
  have hlong : d.long = decide (d.length ≠ .none) := by
    have hp : d.conv ≠ .p := by
      intro hp
      rw [hp] at hsigned
      cases hsigned
    simp [long, hp]
  let y := if d.long then x else (x.truncate 32).signExtend 64
  have hy : d.number x = y.toInt := d.number_signed hsigned x
  refine ⟨{ flagsOf {} d.flags with numeric := true, signed := true, negative := y.slt 0 },
    if y.slt 0 then -y else y, ⟨rfl, ?_, ?_, ?_, ?_⟩, ?_⟩
  · simp [flagsOf]
  · simp [flagsOf]
  · rw [abs_toNat, hy]
  · rw [slt_zero, ← hy]
    exact d.signed_sign hsigned (d.number x) _ _
  · intro val
    have hcode : d.conv.code = 10 := by
      cases hconv : d.conv
      all_goals first | rfl | (rw [hconv] at hsigned; cases hsigned)
    have hbyte : d.conv.byte = ch 'd' ∨ d.conv.byte = ch 'i' := by
      cases hconv : d.conv
      all_goals first | exact Or.inl rfl | exact Or.inr rfl | (rw [hconv] at hsigned; cases hsigned)
    rw [convert, if_pos hbyte, ← hlong, hcode, argument]
    by_cases h : d.long = true
    · simp only [y, if_pos h]
      rfl
    · simp only [y, if_neg h]
      rfl

lemma convert_unsigned (hsigned : d.conv.signed = false) (x : BitVec 64) :
    ∃ f num, d.Selects (d.number x) f num ∧ ∀ val,
      convert (flagsOf {} d.flags) (decide (d.length ≠ .none)) d.conv.byte (d.argument x :: val) =
        some (.number f d.conv.code num, val) := by
  have habs := d.number_unsigned hsigned x
  by_cases hp : d.conv = .p
  · have hlong : d.long = true := by simp [long, hp]
    rw [if_pos hlong] at habs
    refine ⟨{ flagsOf {} d.flags with alt := true, alt2 := true, numeric := true }, x,
      ⟨rfl, ?_, ?_, habs, d.pointer_sign hp _ x⟩, ?_⟩
    · simp [flagsOf]
    · simp [flagsOf]
    · intro val
      rw [argument, if_pos hlong, hp]
      rfl
  · have hlong : d.long = decide (d.length ≠ .none) := by simp [long, hp]
    refine ⟨{ flagsOf {} d.flags with numeric := true },
      if d.long then x else (x.truncate 32).zeroExtend 64, ⟨rfl, ?_, ?_, habs, d.unsigned_sign hsigned hp habs⟩, ?_⟩
    · simp [flagsOf]
    · simp [flagsOf]
    · intro val
      have hformat : convert (flagsOf {} d.flags) (decide (d.length ≠ .none)) d.conv.byte (d.argument x :: val) =
          formatUnsigned (flagsOf {} d.flags) d.conv.code (decide (d.length ≠ .none)) (d.argument x :: val) := by
        cases hconv : d.conv with
        | d => rw [hconv] at hsigned; cases hsigned
        | i => rw [hconv] at hsigned; cases hsigned
        | p => exact absurd hconv hp
        | u => rfl
        | x => rfl
        | X => rfl
      rw [hformat, formatUnsigned, ← hlong, argument]
      by_cases h : d.long = true
      · simp only [if_pos h]
        rfl
      · simp only [if_neg h]
        rfl

lemma convert_number (x : BitVec 64) :
    ∃ f num, d.Selects (d.number x) f num ∧ ∀ val,
      convert (flagsOf {} d.flags) (decide (d.length ≠ .none)) d.conv.byte (d.argument x :: val) =
        some (.number f d.conv.code num, val) := by
  cases hsigned : d.conv.signed with
  | true => exact d.convert_signed hsigned x
  | false => exact d.convert_unsigned hsigned x

/-- The conversion lays out the digits of the absolute value. -/
lemma conversion_number (x : BitVec 64) : ∃ f num, d.Selects (d.number x) f num ∧ ∀ color rest val,
    conversion color (d.text.tail ++ rest) (d.arguments x ++ val) =
      some (layOut f (Int.bmod d.width.value (2 ^ 32)) d.precision.kept (d.sign (d.number x)) (fillNumbuf num d.conv.code),
        color, rest, val) := by
  obtain ⟨hends, hl, ht, hz, hh⟩ := d.conv.ends
  obtain ⟨f, num, hselects, hconvert⟩ := d.convert_number x
  refine ⟨f, num, hselects, ?_⟩
  intro color rest val
  obtain ⟨c₁, rest₁, hlength, hc₁⟩ := d.length.head hends rest
  obtain ⟨c₂, rest₂, hprecision, hc₂⟩ := d.precision.head hc₁.1 rest₁
  obtain ⟨c₃, rest₃, hwidth, hc₃⟩ := d.width.head hc₂.notFlag rest₂
  have htext : d.text.tail ++ rest = d.flags.map FlagChar.byte ++ c₃ :: rest₃ := by
    rw [← hwidth, ← hprecision, ← hlength]
    simp [text]
  have harguments : d.arguments x ++ val = d.width.args ++ (d.precision.args ++ d.argument x :: val) := by
    simp [arguments_eq]
  have hparseWidth : parseWidth (d.width.bytes ++ c₂ :: rest₂) (d.width.args ++ (d.precision.args ++ d.argument x :: val)) =
      some (Int.bmod d.width.value (2 ^ 32), c₂ :: rest₂, d.precision.args ++ d.argument x :: val) :=
    parseWidth_value d.width hc₂
  have hparsePrecision : parsePrecision (d.precision.bytes ++ c₁ :: rest₁) (d.precision.args ++ d.argument x :: val) =
      some (d.precision.kept, c₁ :: rest₁, d.argument x :: val) :=
    parsePrecision_value d.precision hc₁.1 hc₁.2
  have hparseLength : parseLength (d.length.bytes ++ d.conv.byte :: rest) =
      some (decide (d.length ≠ .none), d.conv.byte :: rest) :=
    parseLength_value d.length hl ht hz hh
  rw [htext, harguments, conversion, parseFlags_chars {} d.flags hc₃]
  simp only
  rw [← hwidth, hparseWidth]
  simp only [Option.bind_eq_bind, Option.bind_some]
  rw [← hprecision, hparsePrecision]
  simp only [Option.bind_some]
  rw [← hlength, hparseLength]
  simp only [Option.bind_some]
  rw [show peek (d.conv.byte :: rest) = d.conv.byte from rfl, hconvert]
  simp only [Option.bind_some, hselects.sign]
  rfl

/-! ### The layout -/

lemma fillNumbuf_digits {n : Int} {num : BitVec 64} (hnum : num.toNat = n.natAbs) :
    fillNumbuf num d.conv.code = d.digits n := by
  have hloop : ∀ table base, 2 ≤ base → fillLoop table base 64 num.toNat [] =
      (Numeral.shortest base n.natAbs).map fun e => table.getD e 0 := by
    intro table base hbase
    have hfit : num.toNat < base ^ 64 := Nat.lt_of_lt_of_le num.isLt (Nat.pow_le_pow_left hbase 64)
    have hdigits := Numeral.digits_eq_shortest (by omega) (by decide) hfit []
    have hfill := fillLoop_eq table base 64 num.toNat []
    rw [List.append_nil] at hdigits
    rw [hdigits, hnum] at hfill
    rw [hnum]
    exact hfill
  unfold digits
  cases d.conv
  all_goals exact hloop _ _ (by decide)

lemma digits_length_le {n : Int} {num : BitVec 64} (hnum : num.toNat = n.natAbs) : (d.digits n).length ≤ 20 := by
  have hbase : 10 ≤ d.conv.base := by
    cases d.conv
    all_goals decide
  have hfit : n.natAbs < d.conv.base ^ 20 := by
    calc n.natAbs = num.toNat := hnum.symm
      _ < 10 ^ 20 := Nat.lt_of_lt_of_le num.isLt (by decide)
      _ ≤ d.conv.base ^ 20 := Nat.pow_le_pow_left hbase 20
  rw [digits, List.length_map]
  exact Numeral.shortest_length_le (by omega) (by decide) hfit

lemma fillNumbuf_fits (num : BitVec 64) : (fillNumbuf num d.conv.code).length + 1 ≤ 24 := by
  have hnum : num.toNat = (num.toNat : Int).natAbs := rfl
  have hlen := d.digits_length_le hnum
  rw [d.fillNumbuf_digits hnum]
  omega

lemma sign_length_le (n : Int) : (d.sign n).length ≤ 2 := by
  unfold sign
  split_ifs
  all_goals decide

/-- The width as an `int`. -/
def keptWidth : Int := Int.bmod d.width.value (2 ^ 32)

/-- The zeros that are printed. -/
def keptZeros (n : Int) : Nat :=
  if d.precision.value.isSome then (d.precision.kept - (d.digits n).length).toNat
  else if .zero ∈ d.flags ∧ .leftjustify ∉ d.flags then d.keptWidth.toNat - ((d.sign n).length + (d.digits n).length)
  else 0

/-- What is left of the width, as the code computes it. -/
def leftOver (n : Int) : Int :=
  Int.bmod (d.keptWidth - ((d.digits n).length + (d.keptZeros n : Int) + (d.sign n).length)) (2 ^ 32)

/-- Nothing wraps around: the precision, the width that zeros fill, the width that spaces fill, and the width that is left. -/
structure Fits (n : Int) : Prop where
  precision : ∀ p, d.precision.value = some p → p < 2 ^ 31 ∧ p + (d.sign n).length ≤ 2 ^ 31 + d.width.value
  zeros : d.precision.value = none → .zero ∈ d.flags → .leftjustify ∉ d.flags → d.width.value < 2 ^ 31
  spaces : d.width.value < 2 ^ 31 + (d.unpadded n).length

lemma width_ge : -1 ≤ d.width.value := by
  rcases d.width_nonneg with h | h
  · rw [h]
    decide
  · omega

lemma precision_ge {p : Int} (hp : d.precision.value = some p) : -2 ^ 31 ≤ p := by
  cases hprecision : d.precision with
  | unspecified =>
    rw [hprecision] at hp
    cases hp
  | digits ds =>
    rw [hprecision] at hp
    rw [← Option.some.inj hp]
    omega
  | star x =>
    rw [hprecision] at hp
    rw [← Option.some.inj hp]
    exact x.le_toInt

lemma bmod_range (x : Int) : -2 ^ 31 ≤ Int.bmod x (2 ^ 32) ∧ Int.bmod x (2 ^ 32) < 2 ^ 31 :=
  ⟨Int.le_bmod (by decide), Int.bmod_lt (by decide)⟩

lemma unpadded_length (n : Int) : (d.unpadded n).length = (d.sign n).length + d.zeros n + (d.digits n).length := by
  rw [unpadded, List.length_append, List.length_append, List.length_replicate]

lemma layOut_laidOut {n : Int} {f : Flags} {num : BitVec 64} (h : d.Selects n f num) :
    layOut f d.keptWidth d.precision.kept (d.sign n) (d.digits n) = d.laidOut n (d.keptZeros n) (d.leftOver n).toNat := by
  have hlen := d.digits_length_le h.abs
  have hdatalen : Int.bmod (d.digits n).length (2 ^ 32) = (d.digits n).length := Int.bmod_eq_of_le (by omega) (by omega)
  have hnumeric : ¬ (d.precision.kept ≥ 0 ∧ (!f.numeric) = true) := by
    rw [h.numeric]
    exact fun h => Bool.false_ne_true h.2
  have hzeros : (if f.numeric ∧ d.precision.kept ≥ 0 then
        if d.precision.kept > (d.digits n).length then d.precision.kept - (d.digits n).length else 0
      else if f.numeric ∧ f.zero ∧ !f.leftjustify ∧ (d.digits n).length + (d.sign n).length < d.keptWidth then
        d.keptWidth - (d.digits n).length - (d.sign n).length
      else 0) = (d.keptZeros n : Int) := by
    rw [h.numeric, h.zero, h.leftjustify, keptZeros, Precision.kept]
    cases d.precision.value with
    | none =>
      simp only [Option.isSome_none, Bool.false_eq_true, if_false]
      by_cases hzero : .zero ∈ d.flags ∧ .leftjustify ∉ d.flags
      · simp [hzero.1, hzero.2]
        omega
      · rw [if_neg hzero, if_neg (by omega), if_neg]
        · rfl
        · simp only [decide_eq_true_eq, Bool.not_eq_true', decide_eq_false_iff_not, true_and]
          exact fun h => hzero ⟨h.1, h.2.1⟩
    | some p =>
      simp only [Option.isSome_some, if_true]
      rw [if_pos ⟨trivial, by omega⟩]
      omega
  simp only [layOut]
  rw [if_neg hnumeric, hdatalen, hzeros, Int.toNat_natCast, Int.toNat_natCast, List.take_length, h.leftjustify]
  change _ = d.laidOut n (d.keptZeros n) (d.leftOver n).toNat
  rw [show Int.bmod (d.keptWidth - ((d.digits n).length + (d.keptZeros n : Int) + (d.sign n).length)) (2 ^ 32) =
    d.leftOver n from rfl]
  unfold laidOut
  by_cases hjustify : FlagChar.leftjustify ∈ d.flags
  · simp [hjustify]
  · have hright : (min (d.leftOver n) 0).toNat = 0 := by omega
    simp [hjustify, hright]

/-- The zeros are right exactly if neither the precision nor the width that they fill wraps around. -/
lemma keptZeros_iff {n : Int} {num : BitVec 64} (hnum : num.toNat = n.natAbs) : d.keptZeros n = d.zeros n ↔
    (∀ p, d.precision.value = some p → p < 2 ^ 31) ∧
      (d.precision.value = none → .zero ∈ d.flags → .leftjustify ∉ d.flags → d.width.value < 2 ^ 31) := by
  have hdigits := d.digits_length_le hnum
  have hsign := d.sign_length_le n
  have hwidth := d.width_ge
  unfold keptZeros zeros Precision.kept
  cases hp : d.precision.value with
  | none =>
    simp only [Option.isSome_none, Bool.false_eq_true, if_false, reduceCtorEq, false_imp_iff, implies_true, true_and, forall_const]
    by_cases hzero : .zero ∈ d.flags ∧ .leftjustify ∉ d.flags
    · have hkept : d.keptWidth < 2 ^ 31 := (bmod_range _).2
      rw [if_pos hzero, if_pos hzero]
      constructor
      · intro heq _ _
        omega
      · intro hlt
        have hsame : d.keptWidth = d.width.value := Int.bmod_eq_of_le (by omega) (by have := hlt hzero.1 hzero.2; omega)
        rw [hsame]
    · rw [if_neg hzero, if_neg hzero]
      exact iff_of_true rfl fun hz hl => absurd ⟨hz, hl⟩ hzero
  | some p =>
    have hlow := d.precision_ge hp
    have hkept := bmod_range p
    simp only [Option.isSome_some, if_true, Option.some.injEq, forall_eq', reduceCtorEq, false_imp_iff, and_true]
    constructor
    · intro heq
      by_contra hge
      split at heq <;> omega
    · intro hlt
      rw [Int.bmod_eq_of_le (by omega) (by omega)]
      split <;> omega

/-- When the zeros are right, the spaces are right exactly if what is left of the width does not wrap around. -/
lemma leftOver_iff {n : Int} {num : BitVec 64} (hnum : num.toNat = n.natAbs) (hzeros : d.keptZeros n = d.zeros n) :
    (d.leftOver n).toNat = d.width.value.toNat - (d.unpadded n).length ↔
      (d.unpadded n).length ≤ 2 ^ 31 + d.width.value ∧ d.width.value < 2 ^ 31 + (d.unpadded n).length := by
  have hwidth := d.width_ge
  have hdigits := d.digits_length_le hnum
  have hsign := d.sign_length_le n
  have hlen := d.unpadded_length n
  have hsmall : d.keptZeros n < 2 ^ 31 := by
    have hkept : d.keptWidth < 2 ^ 31 := (bmod_range _).2
    unfold keptZeros Precision.kept
    cases d.precision.value with
    | none =>
      simp only [Option.isSome_none, Bool.false_eq_true, if_false]
      split <;> omega
    | some p =>
      have hprecision := bmod_range p
      simp only [Option.isSome_some, if_true]
      split <;> omega
  have hleft : d.leftOver n = Int.bmod (d.width.value - (d.unpadded n).length) (2 ^ 32) := by
    rw [leftOver, keptWidth, Int.bmod_sub_bmod, hzeros, hlen]
    push_cast
    congr 1
    ring
  have hrange := bmod_range (d.width.value - (d.unpadded n).length)
  rw [hleft]
  constructor
  · intro heq
    refine ⟨?_, by omega⟩
    by_contra hlow
    have hwrap : Int.bmod (d.width.value - (d.unpadded n).length) (2 ^ 32) =
        d.width.value - (d.unpadded n).length + 2 ^ 32 := by
      rw [← Int.add_bmod_right, Int.bmod_eq_of_le (by omega) (by omega)]
      rfl
    rw [hwrap] at heq
    omega
  · rintro ⟨hlow, hhigh⟩
    rw [Int.bmod_eq_of_le (by omega) (by omega)]
    omega

/-- For a precision in range, the two ways to say that the unpadded number is not too long are the same. -/
lemma unpadded_le_iff {n : Int} {num : BitVec 64} (hnum : num.toNat = n.natAbs) :
    (d.unpadded n).length ≤ 2 ^ 31 + d.width.value ↔
      ∀ p, d.precision.value = some p → p + (d.sign n).length ≤ 2 ^ 31 + d.width.value := by
  have hwidth := d.width_ge
  have hdigits := d.digits_length_le hnum
  have hsign := d.sign_length_le n
  rw [unpadded_length, zeros]
  cases hp : d.precision.value with
  | none =>
    simp only [reduceCtorEq, false_imp_iff, implies_true, iff_true]
    split <;> omega
  | some p =>
    simp only [Option.some.injEq, forall_eq']
    omega

lemma layOut_printed {n : Int} {f : Flags} {num : BitVec 64} (h : d.Selects n f num) :
    layOut f (Int.bmod d.width.value (2 ^ 32)) d.precision.kept (d.sign n) (fillNumbuf num d.conv.code) = d.printed n ↔
      d.Fits n := by
  have hlayOut := d.layOut_laidOut h
  unfold keptWidth at hlayOut
  rw [d.fillNumbuf_digits h.abs, hlayOut, printed, laidOut_inj]
  constructor
  · rintro ⟨hzeros, hspaces⟩
    obtain ⟨hprecision, hfilled⟩ := (d.keptZeros_iff h.abs).1 hzeros
    obtain ⟨hlow, hhigh⟩ := (d.leftOver_iff h.abs hzeros).1 hspaces
    exact ⟨fun p hp => ⟨hprecision p hp, (d.unpadded_le_iff h.abs).1 hlow p hp⟩, hfilled, hhigh⟩
  · rintro ⟨hprecision, hfilled, hhigh⟩
    have hzeros := (d.keptZeros_iff h.abs).2 ⟨fun p hp => (hprecision p hp).1, hfilled⟩
    have hlow := (d.unpadded_le_iff h.abs).2 fun p hp => (hprecision p hp).2
    exact ⟨hzeros, (d.leftOver_iff h.abs hzeros).2 ⟨hlow, hhigh⟩⟩

lemma vprintf_run (x : BitVec 64) : ∃ f num, d.Selects (d.number x) f num ∧ ∀ color rest val,
    vprintf color (d.text ++ rest) (d.arguments x ++ val) = (vprintf color rest val).map fun out =>
      (layOut f (Int.bmod d.width.value (2 ^ 32)) d.precision.kept (d.sign (d.number x)) (fillNumbuf num d.conv.code)).map
        (fun c => (c, color)) ++ out := by
  obtain ⟨f, num, hselects, hconversion⟩ := d.conversion_number x
  refine ⟨f, num, hselects, ?_⟩
  intro color rest val
  have htext : d.text ++ rest = ch '%' :: (d.text.tail ++ rest) := rfl
  rw [vprintf, htext, vprintfLoop, if_neg (fun h => h rfl), hconversion]
  simp only [Option.bind_eq_bind, Option.bind_some]
  rw [vprintfLoop_rounds (by rw [List.length_cons, List.length_append]; omega)]
  cases vprintf color rest val with
  | none => rfl
  | some out => rfl

/-- A conversion of a number, with any text and any arguments behind it, prints the number in its layout
exactly if nothing wraps around. The digits and the NUL always fit in their buffer. -/
theorem vprintf_layout (x : BitVec 64) :
    ((∀ color rest val, vprintf color (d.text ++ rest) (d.arguments x ++ val) =
        (vprintf color rest val).map fun out => (d.printed (d.number x)).map (fun c => (c, color)) ++ out) ∧
      ∀ num, (fillNumbuf num d.conv.code).length + 1 ≤ 24) ↔ d.Fits (d.number x) := by
  obtain ⟨f, num, hselects, hrun⟩ := d.vprintf_run x
  rw [← d.layOut_printed hselects]
  constructor
  · rintro ⟨hall, -⟩
    have hone := (hrun 0 [] []).symm.trans (hall 0 [] [])
    have hmap := Option.some.inj hone
    simp only [List.append_nil] at hmap
    exact List.map_injective_iff.2 (fun a b h => congrArg Prod.fst h) hmap
  · intro heq
    refine ⟨?_, d.fillNumbuf_fits⟩
    intro color rest val
    rw [hrun, heq]

/-- `"%+.*d"` with the largest precision. -/
def largest : NumberDirective where
  flags := [.pluspositive]
  width := .unspecified
  precision := .star 0x7FFFFFFF
  length := .none
  conv := .d
  width_nonneg := Or.inl rfl

/-- The width is -1 and the number has 2³¹ characters: what is left of the width is not negative. -/
theorem vprintf_extra_spaces :
    vprintf 0 largest.text (largest.arguments 1) =
        some ((largest.laidOut 1 (2 ^ 31 - 2) (2 ^ 31 - 1)).map fun c => (c, 0)) ∧
      largest.laidOut 1 (2 ^ 31 - 2) (2 ^ 31 - 1) ≠ largest.printed 1 := by
  obtain ⟨f, num, hselects, hrun⟩ := largest.vprintf_run 1
  have hdigits : (largest.digits 1).length = 1 := by
    have hshortest : Numeral.shortest 10 1 = [1] := by simp [Numeral.shortest]
    rw [digits, List.length_map]
    exact congrArg List.length hshortest
  have hkeptZeros : largest.keptZeros 1 = 2 ^ 31 - 2 := by
    rw [keptZeros, hdigits]
    rfl
  have hleft : (largest.leftOver 1).toNat = 2 ^ 31 - 1 := by
    rw [leftOver, hkeptZeros, hdigits]
    rfl
  constructor
  · have hone := hrun 0 [] []
    have hlayOut := layOut_laidOut _ hselects
    have hnumber : largest.number 1 = 1 := rfl
    have hnothing : vprintf 0 [] [] = some [] := rfl
    rw [hnumber] at hone hselects hlayOut
    unfold keptWidth at hlayOut
    rw [List.append_nil, List.append_nil, fillNumbuf_digits _ hselects.abs, hlayOut, hkeptZeros, hleft] at hone
    rw [hone, hnothing, Option.map_some, List.append_nil]
  · rw [printed, Ne, laidOut_inj]
    rintro ⟨-, hspaces⟩
    have hnone : largest.width.value.toNat - (largest.unpadded 1).length = 0 := by
      rw [Nat.sub_eq_zero_iff_le]
      exact Nat.zero_le _
    rw [hnone] at hspaces
    cases hspaces

end NumberDirective

end Cs300Projects.WeensyOS
