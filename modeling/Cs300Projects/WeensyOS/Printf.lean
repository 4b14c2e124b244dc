import Cs300Projects.Lib.Bytes
import Cs300Projects.WeensyOS.Strtoul

/-!
# printer::vprintf

`vprintf` is the list of characters and colors that it gives to the printer's `putc`, in order.
A format is the list of its bytes up to the NUL. Reading an argument of another type than the
format asks for, and reading the format behind its NUL, have no result.
-/

namespace Cs300Projects.WeensyOS

/-- An argument: an `int`, a `long` or a pointer, or a string. -/
inductive Arg where
  | int (x : BitVec 32)
  | long (x : BitVec 64)
  | str (s : List UInt8)

/-- The arguments that are left. -/
abbrev VaList := List Arg

def vaInt : VaList → Option (BitVec 32 × VaList)
  | .int x :: val => some (x, val)
  | _ => none

def vaLong : VaList → Option (BitVec 64 × VaList)
  | .long x :: val => some (x, val)
  | _ => none

def vaStr : VaList → Option (List UInt8 × VaList)
  | .str s :: val => some (s, val)
  | _ => none

/-- The flag bits of a conversion, by the names of `FLAG_ALT` and so on. -/
structure Flags where
  alt : Bool := false
  zero : Bool := false
  leftjustify : Bool := false
  spacepositive : Bool := false
  pluspositive : Bool := false
  numeric : Bool := false
  signed : Bool := false
  negative : Bool := false
  alt2 : Bool := false
deriving DecidableEq

/-- The bit of a character of `flag_chars`, which is "#0- +". -/
def Flags.set (f : Flags) (c : UInt8) : Option Flags :=
  if c = ch '#' then some { f with alt := true }
  else if c = ch '0' then some { f with zero := true }
  else if c = ch '-' then some { f with leftjustify := true }
  else if c = ch ' ' then some { f with spacepositive := true }
  else if c = ch '+' then some { f with pluspositive := true }
  else none

def upperDigits : List UInt8 :=
  (['0', '1', '2', '3', '4', '5', '6', '7', '8', '9', 'A', 'B', 'C', 'D', 'E', 'F'] : List Char).map ch

def lowerDigits : List UInt8 :=
  (['0', '1', '2', '3', '4', '5', '6', '7', '8', '9', 'a', 'b', 'c', 'd', 'e', 'f'] : List Char).map ch

/-- The loop of `fill_numbuf`: the digits of `val` in front of what is in the buffer. -/
def fillLoop (digits : List UInt8) (base : Nat) : Nat → Nat → List UInt8 → List UInt8
  | 0, _, numbuf => numbuf
  | fuel + 1, val, numbuf =>
    let numbuf' := digits.getD (val % base) 0 :: numbuf
    if val / base ≠ 0 then fillLoop digits base fuel (val / base) numbuf' else numbuf'

/-- A number of 64 bits has at most 64 digits. -/
def fillNumbuf (val : BitVec 64) (base : Int) : List UInt8 :=
  if base < 0 then fillLoop lowerDigits (-base).toNat 64 val.toNat []
  else fillLoop upperDigits base.toNat 64 val.toNat []

/-- `*format`, the NUL at the end of the string. -/
def peek (format : List UInt8) : UInt8 := format.headD 0

/-- `++format`; behind the NUL there is nothing to read. -/
def advance : List UInt8 → Option (List UInt8)
  | [] => none
  | _ :: format => some format

def parseFlags : Flags → List UInt8 → Flags × List UInt8
  | f, [] => (f, [])
  | f, c :: format =>
    match f.set c with
    | some f' => parseFlags f' format
    | none => (f, c :: format)

/-- `x = 10 * x + *format++ - '0'` while there are digits, in an `int`. -/
def parseDigits : Int → List UInt8 → Int × List UInt8
  | x, [] => (x, [])
  | x, c :: format =>
    if ch '0' ≤ c ∧ c ≤ ch '9' then
      parseDigits (Int.bmod (10 * x + c.toNat - 48) (2 ^ 32)) format
    else (x, c :: format)

def parseWidth (format : List UInt8) (val : VaList) : Option (Int × List UInt8 × VaList) :=
  let c := peek format
  if ch '1' ≤ c ∧ c ≤ ch '9' then
    let r := parseDigits 0 format
    some (r.1, r.2, val)
  else if c = ch '*' then do
    let (x, val) ← vaInt val
    let format ← advance format
    return (x.toInt, format, val)
  else some (-1, format, val)

/-- What stands behind the point. -/
def parsePrecisionValue (format : List UInt8) (val : VaList) : Option (Int × List UInt8 × VaList) :=
  let c := peek format
  if ch '0' ≤ c ∧ c ≤ ch '9' then
    let r := parseDigits 0 format
    some (r.1, r.2, val)
  else if c = ch '*' then do
    let (x, val) ← vaInt val
    let format ← advance format
    return (x.toInt, format, val)
  else some (-1, format, val)

def parsePrecision (format : List UInt8) (val : VaList) : Option (Int × List UInt8 × VaList) :=
  if peek format = ch '.' then do
    let format ← advance format
    let (precision, format, val) ← parsePrecisionValue format val
    return (if precision < 0 then 0 else precision, format, val)
  else some (-1, format, val)

/-- `l`, `t` and `z` ask for 64 bits, `h` is skipped. -/
def parseLength (format : List UInt8) : Option (Bool × List UInt8) :=
  let c := peek format
  if c = ch 'l' ∨ c = ch 't' ∨ c = ch 'z' then do
    let format ← advance format
    return (true, format)
  else if c = ch 'h' then do
    let format ← advance format
    return (false, format)
  else some (false, format)

/-- What the conversion character selects. -/
inductive Conversion where
  | number (flags : Flags) (base : Int) (num : BitVec 64)
  | string (data : List UInt8)
  | color (color : BitVec 32)

/-- A string in the buffer of one character. -/
def oneChar (c : UInt8) : List UInt8 := if c = 0 then [] else [c]

def formatUnsigned (flags : Flags) (base : Int) (length : Bool) (val : VaList) :
    Option (Conversion × VaList) := do
  let (num, val) ←
    if length then vaLong val
    else (vaInt val).map (fun r => (r.1.zeroExtend 64, r.2))
  return (.number { flags with numeric := true } base num, val)

/-- The switch on the conversion character. -/
def convert (flags : Flags) (length : Bool) (c : UInt8) (val : VaList) :
    Option (Conversion × VaList) :=
  if c = ch 'd' ∨ c = ch 'i' then do
    let (x, val) ←
      if length then vaLong val
      else (vaInt val).map (fun r => (r.1.signExtend 64, r.2))
    let negative := x.slt 0
    let num := if negative then -x else x
    return (.number { flags with numeric := true, signed := true, negative := negative } 10 num, val)
  else if c = ch 'u' then formatUnsigned flags 10 length val
  else if c = ch 'x' then formatUnsigned flags (-16) length val
  else if c = ch 'X' then formatUnsigned flags 16 length val
  else if c = ch 'p' then do
    let (num, val) ← vaLong val
    return (.number { flags with alt := true, alt2 := true, numeric := true } (-16) num, val)
  else if c = ch 's' then do
    let (data, val) ← vaStr val
    return (.string data, val)
  else if c = ch 'C' then do
    let (color, val) ← vaInt val
    return (.color color, val)
  else if c = ch 'c' then do
    let (x, val) ← vaInt val
    return (.string (oneChar (UInt8.ofNat x.toNat)), val)
  else some (.string (oneChar (if c = 0 then ch '%' else c)), val)

def signPrefix (flags : Flags) (base : Int) (num : BitVec 64) : List UInt8 :=
  if flags.numeric ∧ flags.signed then
    if flags.negative then [ch '-']
    else if flags.pluspositive then [ch '+']
    else if flags.spacepositive then [ch ' ']
    else []
  else if flags.numeric ∧ flags.alt ∧ (base = 16 ∨ base = -16) ∧ (num ≠ 0 ∨ flags.alt2) then
    if base = -16 then [ch '0', ch 'x'] else [ch '0', ch 'X']
  else []

/-- The characters of a conversion: padding, prefix, zeros, data and padding. Lengths are kept in an `int`, and
what is left of the width is an `unsigned long` that is converted to one. -/
def layOut (flags : Flags) (width precision : Int) (pre data : List UInt8) : List UInt8 :=
  let datalen : Int :=
    if precision ≥ 0 ∧ !flags.numeric then min data.length precision else Int.bmod data.length (2 ^ 32)
  let zeros : Int :=
    if flags.numeric ∧ precision ≥ 0 then
      if precision > datalen then precision - datalen else 0
    else if flags.numeric ∧ flags.zero ∧ !flags.leftjustify ∧ datalen + pre.length < width then
      width - datalen - pre.length
    else 0
  let width := Int.bmod (width - (datalen + zeros + pre.length)) (2 ^ 32)
  let left : Int := if flags.leftjustify then 0 else width
  let right : Int := if flags.leftjustify then width else min width 0
  List.replicate left.toNat (ch ' ') ++ pre ++ List.replicate zeros.toNat (ch '0') ++
    data.take datalen.toNat ++ List.replicate right.toNat (ch ' ')

/-- One conversion, from the character behind `%` on: its characters, the color, and what is left
of the format and the arguments. The NUL is not skipped. -/
def conversion (color : BitVec 32) (format : List UInt8) (val : VaList) :
    Option (List UInt8 × BitVec 32 × List UInt8 × VaList) := do
  let (flags, format) := parseFlags {} format
  let (width, format, val) ← parseWidth format val
  let (precision, format, val) ← parsePrecision format val
  let (length, format) ← parseLength format
  let (c, val) ← convert flags length (peek format) val
  let rest := format.tail
  match c with
  | .number flags base num =>
    return (layOut flags width precision (signPrefix flags base num) (fillNumbuf num base),
      color, rest, val)
  | .string data => return (layOut flags width precision [] data, color, rest, val)
  | .color color => return ([], color, rest, val)

/-- The calls of `putc`. Every round uses at least one byte of the format. -/
def vprintfLoop : Nat → BitVec 32 → List UInt8 → VaList → Option (List (UInt8 × BitVec 32))
  | 0, _, _, _ => none
  | _ + 1, _, [], _ => some []
  | fuel + 1, color, c :: format, val =>
    if c ≠ ch '%' then do
      let out ← vprintfLoop fuel color format val
      return (c, color) :: out
    else do
      let (chars, color', rest, val) ← conversion color format val
      let out ← vprintfLoop fuel color' rest val
      return chars.map (fun c => (c, color)) ++ out

def vprintf (color : BitVec 32) (format : List UInt8) (val : VaList) :
    Option (List (UInt8 × BitVec 32)) :=
  vprintfLoop (format.length + 1) color format val

/-! ### Printing to a buffer -/

structure StringPrinter where
  mem : Nat → UInt8
  s : Nat
  end_ : Nat
  n : Nat

def StringPrinter.putc (p : StringPrinter) (c : UInt8) : StringPrinter :=
  if p.s < p.end_ then
    { p with mem := Bytes.blit p.mem p.s 1 (fun _ => c), s := p.s + 1, n := p.n + 1 }
  else { p with n := p.n + 1 }

/-- The memory after the call, and the number of characters of the full output. -/
def vsnprintf (mem : Nat → UInt8) (s size : Nat) (format : List UInt8) (val : VaList) :
    Option ((Nat → UInt8) × Nat) := do
  let out ← vprintf 0 format val
  let sp := out.foldl (fun (p : StringPrinter) c => p.putc c.1) ⟨mem, s, s + size, 0⟩
  if size ≠ 0 ∧ sp.s < sp.end_ then
    return (Bytes.blit sp.mem sp.s 1 (fun _ => 0), sp.n)
  else if size ≠ 0 then
    return (Bytes.blit sp.mem (sp.end_ - 1) 1 (fun _ => 0), sp.n)
  else return (sp.mem, sp.n)

/-- `snprintf` keeps the count in an `int`. -/
def snprintf (mem : Nat → UInt8) (s size : Nat) (format : List UInt8) (val : VaList) :
    Option ((Nat → UInt8) × Int) :=
  (vsnprintf mem s size format val).map (fun r => (r.1, Int.bmod r.2 (2 ^ 32)))

/-- Memory at `a` holds the string, with its NUL. -/
structure CString (mem : Nat → UInt8) (a : Nat) (str : List UInt8) : Prop where
  chars : ∀ i (h : i < str.length), mem (a + i) = str[i]
  nul : mem (a + str.length) = 0
  nonzero : ∀ c ∈ str, c ≠ 0

/-- The characters that fit are stored, all are counted. -/
lemma foldl_putc (out : List (UInt8 × BitVec 32)) (p : StringPrinter) (hp : p.s ≤ p.end_) :
    out.foldl (fun (p : StringPrinter) c => p.putc c.1) p =
      { mem := Bytes.blit p.mem p.s (min out.length (p.end_ - p.s))
          (fun i => (out.map Prod.fst).getD i 0)
        s := min (p.s + out.length) p.end_
        end_ := p.end_
        n := p.n + out.length } := by
  induction out generalizing p with
  | nil => simp [Bytes.blit_zero, Nat.min_eq_left hp]
  | cons c out ih =>
    rw [List.foldl_cons]
    by_cases hlt : p.s < p.end_
    · have hput : p.putc c.1 = ⟨Bytes.blit p.mem p.s 1 (fun _ => c.1), p.s + 1, p.end_, p.n + 1⟩ := by
        rw [StringPrinter.putc, if_pos hlt]
      have hfirst : Bytes.blit p.mem p.s 1 (fun _ => c.1) =
          Bytes.blit p.mem p.s 1 (fun i => ((c :: out).map Prod.fst).getD i 0) := by
        funext x
        simp only [Bytes.blit]
        by_cases hx : p.s ≤ x ∧ x < p.s + 1
        · rw [if_pos hx, if_pos hx, show x - p.s = 0 by omega]
          rfl
        · rw [if_neg hx, if_neg hx]
      have hrest : (fun i => (out.map Prod.fst).getD i 0) =
          fun i => ((c :: out).map Prod.fst).getD (1 + i) 0 := by
        funext i
        rw [Nat.add_comm, List.map_cons, List.getD_cons_succ]
      rw [hput, ih ⟨_, _, _, _⟩ (Nat.succ_le_of_lt hlt)]
      simp only [hfirst, hrest]
      rw [Bytes.blit_append, List.length_cons,
        show 1 + min out.length (p.end_ - (p.s + 1)) = min (out.length + 1) (p.end_ - p.s) by omega,
        show p.s + 1 + out.length = p.s + (out.length + 1) by omega,
        show p.n + 1 + out.length = p.n + (out.length + 1) by omega]
    · have hput : p.putc c.1 = ⟨p.mem, p.s, p.end_, p.n + 1⟩ := by
        rw [StringPrinter.putc, if_neg hlt]
      rw [hput, ih ⟨p.mem, p.s, p.end_, p.n + 1⟩ hp]
      simp only [List.length_cons]
      rw [show min out.length (p.end_ - p.s) = 0 by omega,
        show min (out.length + 1) (p.end_ - p.s) = 0 by omega, Bytes.blit_zero, Bytes.blit_zero,
        show min (p.s + out.length) p.end_ = min (p.s + (out.length + 1)) p.end_ by omega,
        show p.n + 1 + out.length = p.n + (out.length + 1) by omega]

lemma snprintf_fits {format : List UInt8} {val : VaList} {out : List (UInt8 × BitVec 32)}
    (hout : vprintf 0 format val = some out) (hnonzero : ∀ c ∈ out.map Prod.fst, c ≠ 0)
    (mem : Nat → UInt8) (s : Nat) {size : Nat} (hsize : out.length < size) :
    ∃ mem' n, snprintf mem s size format val = some (mem', n) ∧
      CString mem' s (out.map Prod.fst) := by
  have hfold := foldl_putc out ⟨mem, s, s + size, 0⟩ (Nat.le_add_right s size)
  simp only [show min (s + out.length) (s + size) = s + out.length by omega,
    show min out.length (s + size - s) = out.length by omega] at hfold
  have hcond : size ≠ 0 ∧ s + out.length < s + size := ⟨by omega, by omega⟩
  let stored := Bytes.blit mem s out.length (fun i => (out.map Prod.fst).getD i 0)
  refine ⟨Bytes.blit stored (s + out.length) 1 (fun _ => 0), Int.bmod (0 + out.length : Nat) (2 ^ 32),
    ?_, ?_⟩
  · rw [snprintf, vsnprintf, hout]
    simp only [Option.bind_eq_bind, Option.bind_some, hfold]
    rw [if_pos hcond]
    rfl
  · constructor
    case chars =>
      intro i hi
      rw [List.length_map] at hi
      have hstored : stored (s + i) = (out.map Prod.fst).getD (s + i - s) 0 :=
        Bytes.blit_inside (by omega) (by omega)
      rw [Bytes.blit_outside (by unfold Bytes.Outside; omega), hstored, Nat.add_sub_cancel_left,
        List.getD_eq_getElem?_getD, List.getElem?_eq_getElem (by rw [List.length_map]; exact hi),
        Option.getD_some]
    case nul =>
      rw [List.length_map]
      exact Bytes.blit_inside (by omega) (by omega)
    case nonzero => exact hnonzero

end Cs300Projects.WeensyOS
