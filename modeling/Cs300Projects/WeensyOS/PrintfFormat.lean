import Cs300Projects.WeensyOS.Printf

/-!
# Reading the format

`vprintf` with its pointer into the format, which is an index here: a read behind the NUL, or in front of the
string, is a fault. What the parser of the list does, the parser with the pointer does at the same place.
-/

namespace Cs300Projects.WeensyOS

/-! ### What is left of the format -/

section Suffix

variable {format rest : List UInt8} {val val' : VaList}

lemma advance_suffix (h : advance format = some rest) : rest <:+ format := by
  cases format with
  | nil => cases h
  | cons c l =>
    cases h
    exact List.suffix_cons c _

lemma parseFlags_suffix (f : Flags) (format : List UInt8) : (parseFlags f format).2 <:+ format := by
  induction format generalizing f with
  | nil => exact List.suffix_rfl
  | cons c format ih =>
    rw [parseFlags]
    cases f.set c with
    | none => exact List.suffix_rfl
    | some f' => exact (ih f').trans (List.suffix_cons c format)

lemma parseDigits_suffix (x : Int) (format : List UInt8) : (parseDigits x format).2 <:+ format := by
  induction format generalizing x with
  | nil => exact List.suffix_rfl
  | cons c format ih =>
    rw [parseDigits]
    by_cases hdigit : ch '0' ≤ c ∧ c ≤ ch '9'
    · rw [if_pos hdigit]
      exact (ih _).trans (List.suffix_cons c format)
    · rw [if_neg hdigit]

lemma parseWidth_suffix {w : Int} (h : parseWidth format val = some (w, rest, val')) : rest <:+ format := by
  simp only [parseWidth] at h
  split at h
  · simp only [Option.some.injEq, Prod.mk.injEq] at h
    exact h.2.1 ▸ parseDigits_suffix 0 format
  · split at h
    · simp only [Option.bind_eq_bind, Option.bind_eq_some_iff, Option.pure_def, Option.some.injEq, Prod.mk.injEq,
        Prod.exists] at h
      obtain ⟨-, -, -, rest', hadv, -, hrest, -⟩ := h
      exact hrest ▸ advance_suffix hadv
    · simp only [Option.some.injEq, Prod.mk.injEq] at h
      exact h.2.1 ▸ List.suffix_rfl

lemma parsePrecisionValue_suffix {p : Int} (h : parsePrecisionValue format val = some (p, rest, val')) :
    rest <:+ format := by
  simp only [parsePrecisionValue] at h
  split at h
  · simp only [Option.some.injEq, Prod.mk.injEq] at h
    exact h.2.1 ▸ parseDigits_suffix 0 format
  · split at h
    · simp only [Option.bind_eq_bind, Option.bind_eq_some_iff, Option.pure_def, Option.some.injEq, Prod.mk.injEq,
        Prod.exists] at h
      obtain ⟨-, -, -, rest', hadv, -, hrest, -⟩ := h
      exact hrest ▸ advance_suffix hadv
    · simp only [Option.some.injEq, Prod.mk.injEq] at h
      exact h.2.1 ▸ List.suffix_rfl

lemma parsePrecision_suffix {p : Int} (h : parsePrecision format val = some (p, rest, val')) : rest <:+ format := by
  simp only [parsePrecision] at h
  split at h
  · simp only [Option.bind_eq_bind, Option.bind_eq_some_iff, Option.pure_def, Option.some.injEq, Prod.mk.injEq,
      Prod.exists] at h
    obtain ⟨format', hadv, p', rest', val₁, hvalue, -, hrest, -⟩ := h
    exact hrest ▸ (parsePrecisionValue_suffix hvalue).trans (advance_suffix hadv)
  · simp only [Option.some.injEq, Prod.mk.injEq] at h
    exact h.2.1 ▸ List.suffix_rfl

lemma parseLength_suffix {b : Bool} (h : parseLength format = some (b, rest)) : rest <:+ format := by
  have hskip : ∀ b', ((advance format).bind fun format => some (b', format)) = some (b, rest) → rest <:+ format := by
    intro b' h
    simp only [Option.bind_eq_some_iff, Option.some.injEq, Prod.mk.injEq] at h
    obtain ⟨rest', hadv, -, hrest⟩ := h
    exact hrest ▸ advance_suffix hadv
  simp only [parseLength] at h
  split at h
  · exact hskip true h
  · split at h
    · exact hskip false h
    · simp only [Option.some.injEq, Prod.mk.injEq] at h
      exact h.2 ▸ List.suffix_rfl

lemma conversion_suffix {color color' : BitVec 32} {chars : List UInt8}
    (h : conversion color format val = some (chars, color', rest, val')) : rest <:+ format := by
  simp only [conversion, Option.bind_eq_bind, Option.bind_eq_some_iff, Prod.exists] at h
  obtain ⟨w, rest₁, val₁, hwidth, p, rest₂, val₂, hprecision, b, rest₃, hlength, what, val₃, -, h⟩ := h
  have hrest : rest = rest₃.tail := by
    cases what with
    | number f base num => cases h; rfl
    | string data => cases h; rfl
    | color c => cases h; rfl
  rw [hrest]
  calc rest₃.tail <:+ rest₃ := List.tail_suffix rest₃
    _ <:+ rest₂ := parseLength_suffix hlength
    _ <:+ rest₁ := parsePrecision_suffix hprecision
    _ <:+ (parseFlags {} format).2 := parseWidth_suffix hwidth
    _ <:+ format := parseFlags_suffix {} format

end Suffix

/-- The rounds that are left do not matter. -/
lemma vprintfLoop_rounds {fuel : Nat} {format : List UInt8} (hfuel : format.length < fuel) (color : BitVec 32)
    (val : VaList) : vprintfLoop fuel color format val = vprintf color format val := by
  rw [vprintf]
  generalize hrounds : format.length + 1 = rounds
  have hlt : format.length < rounds := by omega
  clear hrounds
  induction rounds generalizing fuel format color val with
  | zero => exact absurd hlt (Nat.not_lt_zero _)
  | succ rounds ih =>
    obtain ⟨fuel, rfl⟩ := Nat.exists_eq_succ_of_ne_zero (Nat.ne_zero_of_lt hfuel)
    cases format with
    | nil => rfl
    | cons c format =>
      rw [List.length_cons] at hfuel hlt
      rw [vprintfLoop, vprintfLoop]
      split
      · rw [ih (by omega) color val (by omega)]
      · cases hconv : conversion color format val with
        | none => rfl
        | some r =>
          obtain ⟨chars, color', rest, val'⟩ := r
          have hrest := (conversion_suffix hconv).length_le
          simp only [Option.bind_eq_bind, Option.bind_some]
          rw [ih (by omega) color' val' (by omega)]

/-! ### The pointer into the format -/

/-- What stops the parser: a read outside the format, an argument of another type, or too few rounds. -/
inductive Fault where
  | format | argument | rounds

/-- `*format`, at the index `i`. -/
def charAt (format : List UInt8) (i : Nat) : Except Fault UInt8 :=
  if i ≤ format.length then .ok (format.getD i 0) else .error .format

/-- `format--`. -/
def stepBack : Nat → Except Fault Nat
  | 0 => .error .format
  | i + 1 => .ok i

/-- `va_arg`. -/
def argument {α : Type} : Option α → Except Fault α
  | none => .error .argument
  | some a => .ok a

def flagsAt (format : List UInt8) : Nat → Flags → Nat → Except Fault (Flags × Nat)
  | 0, _, _ => .error .rounds
  | rounds + 1, flags, i => do
    let c ← charAt format i
    if c = 0 then return (flags, i)
    else
      match flags.set c with
      | some flags => flagsAt format rounds flags (i + 1)
      | none => return (flags, i)

def digitsAt (format : List UInt8) : Nat → Int → Nat → Except Fault (Int × Nat)
  | 0, _, _ => .error .rounds
  | rounds + 1, x, i => do
    let c ← charAt format i
    if ch '0' ≤ c ∧ c ≤ ch '9' then digitsAt format rounds (Int.bmod (10 * x + c.toNat - 48) (2 ^ 32)) (i + 1)
    else return (x, i)

/-- A number of the format that begins at `least` or above, or an argument, or -1. -/
def numberAt (least : UInt8) (format : List UInt8) (i : Nat) (val : VaList) : Except Fault (Int × Nat × VaList) := do
  let c ← charAt format i
  if least ≤ c ∧ c ≤ ch '9' then do
    let (x, i) ← digitsAt format (format.length + 1) 0 i
    return (x, i, val)
  else if c = ch '*' then do
    let (x, val) ← argument (vaInt val)
    return (x.toInt, i + 1, val)
  else return (-1, i, val)

def widthAt (format : List UInt8) (i : Nat) (val : VaList) : Except Fault (Int × Nat × VaList) :=
  numberAt (ch '1') format i val

def precisionAt (format : List UInt8) (i : Nat) (val : VaList) : Except Fault (Int × Nat × VaList) := do
  let c ← charAt format i
  if c = ch '.' then do
    let (precision, i, val) ← numberAt (ch '0') format (i + 1) val
    return (if precision < 0 then 0 else precision, i, val)
  else return (-1, i, val)

def lengthAt (format : List UInt8) (i : Nat) : Except Fault (Bool × Nat) := do
  let c ← charAt format i
  if c = ch 'l' ∨ c = ch 't' ∨ c = ch 'z' then return (true, i + 1)
  else if c = ch 'h' then return (false, i + 1)
  else return (false, i)

/-- The default case of the switch steps back from the NUL. -/
def lastRead (c : UInt8) (i : Nat) : Except Fault Nat := if c = 0 then stepBack i else .ok i

/-- One conversion, from the character behind `%` on; the loop goes on behind the last character of it. -/
def conversionAt (color : BitVec 32) (format : List UInt8) (i : Nat) (val : VaList) :
    Except Fault (List UInt8 × BitVec 32 × Nat × VaList) := do
  let (flags, i) ← flagsAt format (format.length + 1) {} i
  let (width, i, val) ← widthAt format i val
  let (precision, i, val) ← precisionAt format i val
  let (length, i) ← lengthAt format i
  let c ← charAt format i
  let (what, val) ← argument (convert flags length c val)
  let i ← lastRead c i
  match what with
  | .number flags base num =>
    return (layOut flags width precision (signPrefix flags base num) (fillNumbuf num base), color, i + 1, val)
  | .string data => return (layOut flags width precision [] data, color, i + 1, val)
  | .color color => return ([], color, i + 1, val)

def vprintfAt (format : List UInt8) : Nat → BitVec 32 → Nat → VaList → Except Fault (List (UInt8 × BitVec 32))
  | 0, _, _, _ => .error .rounds
  | rounds + 1, color, i, val => do
    let c ← charAt format i
    if c = 0 then return []
    else if c ≠ ch '%' then do
      let out ← vprintfAt format rounds color (i + 1) val
      return (c, color) :: out
    else do
      let (chars, color', i, val) ← conversionAt color format (i + 1) val
      let out ← vprintfAt format rounds color' i val
      return chars.map (fun c => (c, color)) ++ out

section Pointer

variable {format : List UInt8} {i : Nat}

lemma Flags.set_none_zero (flags : Flags) : flags.set 0 = none := rfl

/-- The pointer to a rest of the format. -/
def pointer (format rest : List UInt8) : Nat := format.length - rest.length

lemma pointer_drop (hi : i ≤ format.length) : pointer format (format.drop i) = i := by
  rw [pointer, List.length_drop]
  omega

lemma pointer_le (format rest : List UInt8) : pointer format rest ≤ format.length := Nat.sub_le _ _

lemma drop_pointer {rest : List UInt8} (h : rest <:+ format) : format.drop (pointer format rest) = rest :=
  (List.suffix_iff_eq_drop.1 h).symm

lemma charAt_peek (hi : i ≤ format.length) : charAt format i = .ok (peek (format.drop i)) := by
  rw [charAt, if_pos hi, peek, List.headD_eq_head?_getD, List.head?_drop, List.getD_eq_getElem?_getD]

/-- A character that is not the NUL has a place of its own. -/
lemma drop_of_peek (h : peek (format.drop i) ≠ 0) :
    i < format.length ∧ format.drop i = peek (format.drop i) :: format.drop (i + 1) := by
  cases hdrop : format.drop i with
  | nil =>
    rw [hdrop] at h
    exact absurd rfl h
  | cons c rest =>
    have hlt : i < format.length := by
      rw [← Nat.not_le, ← List.drop_eq_nil_iff, hdrop]
      exact List.cons_ne_nil c rest
    rw [← List.tail_drop, hdrop]
    exact ⟨hlt, rfl⟩

lemma Fault.bind_ok {α β : Type} (a : α) (k : α → Except Fault β) : (Except.ok a >>= k) = k a := rfl

lemma Fault.bind_error {α β : Type} (e : Fault) (k : α → Except Fault β) : (Except.error e >>= k) = .error e := rfl

lemma flagsAt_eq {rounds : Nat} (flags : Flags) (hi : i ≤ format.length) (hrounds : format.length - i < rounds) :
    flagsAt format rounds flags i =
      .ok ((parseFlags flags (format.drop i)).1, pointer format (parseFlags flags (format.drop i)).2) := by
  induction rounds generalizing flags i with
  | zero => exact absurd hrounds (Nat.not_lt_zero _)
  | succ rounds ih =>
    rw [flagsAt, charAt_peek hi, Fault.bind_ok]
    by_cases h0 : peek (format.drop i) = 0
    · have hstay : parseFlags flags (format.drop i) = (flags, format.drop i) := by
        cases hdrop : format.drop i with
        | nil => rfl
        | cons c rest =>
          rw [hdrop] at h0
          rw [parseFlags, show c = 0 from h0, flags.set_none_zero]
      rw [if_pos h0, hstay, pointer_drop hi]
      rfl
    · obtain ⟨hlt, hdrop⟩ := drop_of_peek h0
      rw [if_neg h0]
      rw [hdrop, parseFlags, ← hdrop]
      cases flags.set (peek (format.drop i)) with
      | none =>
        rw [pointer_drop hi]
        rfl
      | some flags' => exact ih flags' hlt (by omega)

lemma digitsAt_eq {rounds : Nat} (x : Int) (hi : i ≤ format.length) (hrounds : format.length - i < rounds) :
    digitsAt format rounds x i =
      .ok ((parseDigits x (format.drop i)).1, pointer format (parseDigits x (format.drop i)).2) := by
  induction rounds generalizing x i with
  | zero => exact absurd hrounds (Nat.not_lt_zero _)
  | succ rounds ih =>
    rw [digitsAt, charAt_peek hi, Fault.bind_ok]
    by_cases h0 : peek (format.drop i) = 0
    · have hdigit : ¬ (ch '0' ≤ peek (format.drop i) ∧ peek (format.drop i) ≤ ch '9') := by
        rw [h0]
        decide
      have hstay : parseDigits x (format.drop i) = (x, format.drop i) := by
        cases hdrop : format.drop i with
        | nil => rfl
        | cons c rest =>
          rw [hdrop] at hdigit
          exact if_neg hdigit
      rw [if_neg hdigit, hstay, pointer_drop hi]
      rfl
    · obtain ⟨hlt, hdrop⟩ := drop_of_peek h0
      rw [hdrop, parseDigits, ← hdrop]
      split
      · exact ih _ hlt (by omega)
      · rw [pointer_drop hi]
        rfl

/-- The result of the parser of the list, with its rest as a pointer. -/
def located (format : List UInt8) : Option (Int × List UInt8 × VaList) → Except Fault (Int × Nat × VaList)
  | none => .error .argument
  | some (x, rest, val) => .ok (x, pointer format rest, val)

/-- Both parsers of a number, with the character that it begins with. -/
def parseNumber (least : UInt8) (format : List UInt8) (val : VaList) : Option (Int × List UInt8 × VaList) :=
  if least ≤ peek format ∧ peek format ≤ ch '9' then
    some ((parseDigits 0 format).1, (parseDigits 0 format).2, val)
  else if peek format = ch '*' then do
    let (x, val) ← vaInt val
    let format ← advance format
    return (x.toInt, format, val)
  else some (-1, format, val)

lemma parseWidth_eq (format : List UInt8) (val : VaList) : parseWidth format val = parseNumber (ch '1') format val := rfl

lemma parsePrecisionValue_eq (format : List UInt8) (val : VaList) :
    parsePrecisionValue format val = parseNumber (ch '0') format val := rfl

lemma numberAt_eq (least : UInt8) (hi : i ≤ format.length) (val : VaList) :
    numberAt least format i val = located format (parseNumber least (format.drop i) val) := by
  rw [numberAt, charAt_peek hi, Fault.bind_ok, parseNumber]
  by_cases hdigit : least ≤ peek (format.drop i) ∧ peek (format.drop i) ≤ ch '9'
  · rw [if_pos hdigit, if_pos hdigit, digitsAt_eq 0 hi (by omega)]
    rfl
  · rw [if_neg hdigit, if_neg hdigit]
    by_cases hstar : peek (format.drop i) = ch '*'
    · have hchar : peek (format.drop i) ≠ 0 := by
        rw [hstar]
        decide
      obtain ⟨hlt, hdrop⟩ := drop_of_peek hchar
      rw [if_pos hstar, if_pos hstar, hdrop]
      cases vaInt val with
      | none => rfl
      | some r =>
        simp only [argument, advance, Fault.bind_ok, Option.bind_eq_bind, Option.bind_some, Option.pure_def, located]
        rw [pointer_drop hlt]
        rfl
    · rw [if_neg hstar, if_neg hstar, located, pointer_drop hi]
      rfl

lemma precisionAt_eq (hi : i ≤ format.length) (val : VaList) :
    precisionAt format i val = located format (parsePrecision (format.drop i) val) := by
  rw [precisionAt, charAt_peek hi, Fault.bind_ok, parsePrecision]
  by_cases hpoint : peek (format.drop i) = ch '.'
  · have hchar : peek (format.drop i) ≠ 0 := by
      rw [hpoint]
      decide
    obtain ⟨hlt, hdrop⟩ := drop_of_peek hchar
    rw [if_pos hpoint, if_pos hpoint, numberAt_eq _ hlt, hdrop]
    simp only [advance, Option.bind_eq_bind, Option.bind_some, parsePrecisionValue_eq]
    cases parseNumber (ch '0') (format.drop (i + 1)) val with
    | none => rfl
    | some r => rfl
  · rw [if_neg hpoint, if_neg hpoint, located, pointer_drop hi]
    rfl

lemma lengthAt_eq (hi : i ≤ format.length) : ∃ b rest, parseLength (format.drop i) = some (b, rest) ∧
    lengthAt format i = .ok (b, pointer format rest) := by
  rw [lengthAt, charAt_peek hi, Fault.bind_ok, parseLength]
  by_cases hlong : peek (format.drop i) = ch 'l' ∨ peek (format.drop i) = ch 't' ∨ peek (format.drop i) = ch 'z'
  · have hchar : peek (format.drop i) ≠ 0 := by
      rcases hlong with h | h | h
      all_goals
        rw [h]
        decide
    obtain ⟨hlt, hdrop⟩ := drop_of_peek hchar
    refine ⟨true, format.drop (i + 1), ?_, ?_⟩
    · simp only [if_pos hlong]
      rw [hdrop]
      rfl
    · rw [if_pos hlong, pointer_drop hlt]
      rfl
  · by_cases hshort : peek (format.drop i) = ch 'h'
    · have hchar : peek (format.drop i) ≠ 0 := by
        rw [hshort]
        decide
      obtain ⟨hlt, hdrop⟩ := drop_of_peek hchar
      refine ⟨false, format.drop (i + 1), ?_, ?_⟩
      · simp only [if_neg hlong, if_pos hshort]
        rw [hdrop]
        rfl
      · rw [if_neg hlong, if_pos hshort, pointer_drop hlt]
        rfl
    · refine ⟨false, format.drop i, ?_, ?_⟩
      · simp only [if_neg hlong, if_neg hshort]
      · rw [if_neg hlong, if_neg hshort, pointer_drop hi]
        rfl

/-- Behind the conversion character, or at the NUL after the step back from it. -/
lemma lastRead_eq (hnul : ∀ c ∈ format, c ≠ 0) (hi : i ≤ format.length) (hpos : 0 < format.length) :
    lastRead (peek (format.drop i)) i = .ok (pointer format (format.drop i).tail - 1) ∧
      pointer format (format.drop i).tail - 1 + 1 = pointer format (format.drop i).tail := by
  rw [lastRead]
  by_cases h0 : peek (format.drop i) = 0
  · have hend : i = format.length := by
      by_contra hne
      have hlt := Nat.lt_of_le_of_ne hi hne
      rw [List.drop_eq_getElem_cons hlt] at h0
      exact hnul _ (List.getElem_mem hlt) h0
    subst hend
    obtain ⟨n, hn⟩ := Nat.exists_eq_succ_of_ne_zero (Nat.ne_of_gt hpos)
    rw [if_pos h0, List.drop_length, hn]
    exact ⟨by rw [pointer, hn]; rfl, by rw [pointer, hn]; rfl⟩
  · obtain ⟨hlt, hdrop⟩ := drop_of_peek h0
    rw [if_neg h0, List.tail_drop, pointer_drop hlt]
    exact ⟨rfl, rfl⟩

lemma conversionAt_eq (hnul : ∀ c ∈ format, c ≠ 0) (hi : i ≤ format.length) (hpos : 0 < format.length)
    (color : BitVec 32) (val : VaList) :
    conversionAt color format i val =
      match conversion color (format.drop i) val with
      | none => .error .argument
      | some (chars, color', rest, val') => .ok (chars, color', pointer format rest, val') := by
  have hflags := (parseFlags_suffix {} (format.drop i)).trans (List.drop_suffix i format)
  rw [conversionAt, flagsAt_eq {} hi (by omega), Fault.bind_ok, conversion]
  simp only
  rw [widthAt, numberAt_eq _ (pointer_le _ _), drop_pointer hflags, ← parseWidth_eq]
  cases hwidth : parseWidth (parseFlags {} (format.drop i)).2 val with
  | none => rfl
  | some r =>
    obtain ⟨width, rest₁, val₁⟩ := r
    have h₁ := (parseWidth_suffix hwidth).trans hflags
    simp only [located, Fault.bind_ok, Option.bind_eq_bind, Option.bind_some]
    rw [precisionAt_eq (pointer_le _ _), drop_pointer h₁]
    cases hprecision : parsePrecision rest₁ val₁ with
    | none => rfl
    | some r =>
      obtain ⟨precision, rest₂, val₂⟩ := r
      have h₂ := (parsePrecision_suffix hprecision).trans h₁
      obtain ⟨length, rest₃, hlength, hlengthAt⟩ := lengthAt_eq (pointer_le format rest₂)
      rw [drop_pointer h₂] at hlength
      have h₃ := (parseLength_suffix hlength).trans h₂
      obtain ⟨hstep, hnext⟩ := lastRead_eq hnul (pointer_le format rest₃) hpos
      rw [drop_pointer h₃] at hstep hnext
      simp only [located, Fault.bind_ok, Option.bind_some]
      rw [hlengthAt, hlength, Fault.bind_ok]
      simp only [Option.bind_some]
      rw [charAt_peek (pointer_le _ _), drop_pointer h₃, Fault.bind_ok]
      cases hconvert : convert (parseFlags {} (format.drop i)).1 length (peek rest₃) val₂ with
      | none => rfl
      | some r =>
        obtain ⟨what, val₃⟩ := r
        simp only [argument, Fault.bind_ok, Option.bind_some]
        rw [hstep, Fault.bind_ok]
        cases what with
        | number flags base num => simp only [hnext]; rfl
        | string data => simp only [hnext]; rfl
        | color c => simp only [hnext]; rfl

/-- `vprintf` with the pointer finds what `vprintf` on the list finds, and never faults on the format. -/
theorem vprintfAt_eq (hnul : ∀ c ∈ format, c ≠ 0) {rounds : Nat} (hi : i ≤ format.length)
    (hrounds : format.length - i < rounds) (color : BitVec 32) (val : VaList) :
    vprintfAt format rounds color i val = argument (vprintfLoop rounds color (format.drop i) val) := by
  induction rounds generalizing i color val with
  | zero => exact absurd hrounds (Nat.not_lt_zero _)
  | succ rounds ih =>
    rw [vprintfAt, charAt_peek hi, Fault.bind_ok]
    rcases Nat.eq_or_lt_of_le hi with rfl | hlt
    · rw [List.drop_length]
      rfl
    · have hdrop := List.drop_eq_getElem_cons hlt
      have h0 : peek (format.drop i) ≠ 0 := by
        rw [hdrop]
        exact hnul _ (List.getElem_mem hlt)
      rw [if_neg h0, (drop_of_peek h0).2, vprintfLoop, ← (drop_of_peek h0).2]
      split
      · rw [ih hlt (by omega)]
        cases vprintfLoop rounds color (format.drop (i + 1)) val with
        | none => rfl
        | some out => rfl
      · rw [conversionAt_eq hnul hlt (by omega)]
        cases hconv : conversion color (format.drop (i + 1)) val with
        | none => rfl
        | some r =>
          obtain ⟨chars, color', rest, val'⟩ := r
          have hsuffix := conversion_suffix hconv
          have hlen := hsuffix.length_le
          rw [List.length_drop] at hlen
          simp only [Fault.bind_ok, Option.bind_eq_bind, Option.bind_some]
          have hrest := drop_pointer (hsuffix.trans (List.drop_suffix (i + 1) format))
          rw [ih (pointer_le _ _) (by unfold pointer; omega), hrest]
          cases vprintfLoop rounds color' rest val' with
          | none => rfl
          | some out => rfl

end Pointer

end Cs300Projects.WeensyOS
