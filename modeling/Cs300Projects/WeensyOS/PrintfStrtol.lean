import Cs300Projects.WeensyOS.Printf
import Mathlib.Tactic.IntervalCases

/-!
# Printing a number and parsing it

What `snprintf` prints of a 64-bit number under any flags and width, `strtol` and `strtoul` read
back. Padding, sign and prefix are skipped, zeros do not change the value, and the end pointer is
left at the padding behind the digits.
-/

namespace Cs300Projects.WeensyOS

/-! ### The format of one number -/

/-- A character of `flag_chars`. -/
inductive FlagChar where
  | alt | zero | leftjustify | spacepositive | pluspositive
  deriving DecidableEq

def FlagChar.byte : FlagChar → UInt8
  | .alt => ch '#'
  | .zero => ch '0'
  | .leftjustify => ch '-'
  | .spacepositive => ch ' '
  | .pluspositive => ch '+'

/-- No width, a decimal number without a leading zero, or an argument. -/
inductive Width where
  | unspecified
  | digits (first : Fin 9) (rest : List (Fin 10))
  | star (width : BitVec 32)

def digitByte (n : Nat) : UInt8 := UInt8.ofNat (48 + n)

lemma digitByte_digit (d : Fin 10) : ch '0' ≤ digitByte d.val ∧ digitByte d.val ≤ ch '9' := by
  revert d
  decide

lemma digitByte_positive (d : Fin 9) : ch '1' ≤ digitByte (d.val + 1) ∧ digitByte (d.val + 1) ≤ ch '9' := by
  revert d
  decide

def Width.bytes : Width → List UInt8
  | .unspecified => []
  | .digits first rest => digitByte (first.val + 1) :: rest.map (fun d => digitByte d.val)
  | .star _ => [ch '*']

def Width.args : Width → VaList
  | .star width => [.int width]
  | _ => []

/-- The flags, in any order and number, and the width of a conversion. -/
structure Directive where
  flags : List FlagChar
  width : Width

def Directive.format (d : Directive) (conv : Char) : List UInt8 :=
  ch '%' :: (d.flags.map FlagChar.byte ++ (d.width.bytes ++ [ch 'l', ch conv]))

def Directive.args (d : Directive) (x : BitVec 64) : VaList := d.width.args ++ [.long x]

/-- Flags that only characters of the format have set. -/
structure Flags.Plain (f : Flags) : Prop where
  numeric : f.numeric = false
  signed : f.signed = false
  negative : f.negative = false
  alt2 : f.alt2 = false

/-- A character that ends the flags. -/
def NotFlag (c : UInt8) : Prop :=
  c ≠ ch '#' ∧ c ≠ ch '0' ∧ c ≠ ch '-' ∧ c ≠ ch ' ' ∧ c ≠ ch '+'

instance (c : UInt8) : Decidable (NotFlag c) :=
  inferInstanceAs (Decidable (_ ∧ _ ∧ _ ∧ _ ∧ _))

lemma Flags.set_none (f : Flags) {c : UInt8} (hc : NotFlag c) : f.set c = none := by
  obtain ⟨halt, hzero, hleft, hspace, hplus⟩ := hc
  rw [Flags.set, if_neg halt, if_neg hzero, if_neg hleft, if_neg hspace, if_neg hplus]

lemma Flags.set_byte {f : Flags} (hf : f.Plain) (a : FlagChar) :
    ∃ f', f.set a.byte = some f' ∧ f'.Plain := by
  obtain ⟨h1, h2, h3, h4⟩ := hf
  cases a
  all_goals exact ⟨_, rfl, h1, h2, h3, h4⟩

lemma parseFlags_plain (l : List FlagChar) {f : Flags} (hf : f.Plain) {c : UInt8} (hc : NotFlag c)
    (format : List UInt8) :
    ∃ f', parseFlags f (l.map FlagChar.byte ++ c :: format) = (f', c :: format) ∧ f'.Plain := by
  induction l generalizing f with
  | nil =>
    refine ⟨f, ?_, hf⟩
    rw [List.map_nil, List.nil_append, parseFlags, f.set_none hc]
  | cons a l ih =>
    obtain ⟨f₁, hset, hplain⟩ := Flags.set_byte hf a
    rw [List.map_cons, List.cons_append, parseFlags, hset]
    exact ih hplain

lemma parseDigits_digits (l : List (Fin 10)) (x : Int) {c : UInt8} (hc : ¬ (ch '0' ≤ c ∧ c ≤ ch '9'))
    (format : List UInt8) :
    ∃ w, parseDigits x (l.map (fun d => digitByte d.val) ++ c :: format) = (w, c :: format) := by
  induction l generalizing x with
  | nil => exact ⟨x, by rw [List.map_nil, List.nil_append, parseDigits, if_neg hc]⟩
  | cons d l ih =>
    rw [List.map_cons, List.cons_append, parseDigits, if_pos (digitByte_digit d)]
    exact ih _

lemma parseWidth_bytes (w : Width) (format : List UInt8) (val : VaList) :
    ∃ n, parseWidth (w.bytes ++ ch 'l' :: format) (w.args ++ val) =
      some (n, ch 'l' :: format, val) := by
  have hl : ¬ (ch '0' ≤ ch 'l' ∧ ch 'l' ≤ ch '9') := by decide
  cases w with
  | unspecified => exact ⟨-1, rfl⟩
  | digits first rest =>
    obtain ⟨n, hn⟩ := parseDigits_digits (first.succ :: rest) 0 hl format
    refine ⟨n, ?_⟩
    have hbytes : (Width.digits first rest).bytes ++ ch 'l' :: format =
        (first.succ :: rest).map (fun d => digitByte d.val) ++ ch 'l' :: format := rfl
    rw [parseWidth, hbytes, hn, show peek ((first.succ :: rest).map (fun d => digitByte d.val) ++
      ch 'l' :: format) = digitByte (first.val + 1) from rfl, if_pos (digitByte_positive first)]
    rfl
  | star width => exact ⟨width.toInt, rfl⟩

/-- What follows the flags does not begin with a flag. -/
lemma Width.bytes_head (w : Width) (format : List UInt8) :
    ∃ c rest, w.bytes ++ ch 'l' :: format = c :: rest ∧ NotFlag c := by
  cases w with
  | unspecified => exact ⟨ch 'l', format, rfl, by decide⟩
  | digits first rest =>
    refine ⟨digitByte (first.val + 1), _, rfl, ?_⟩
    revert first
    decide
  | star width => exact ⟨ch '*', _, rfl, by decide⟩

lemma vprintf_number (d : Directive) (conv : Char) (x : BitVec 64)
    (number : Flags → Flags × Int × BitVec 64)
    (hconv : ∀ f, convert f true (ch conv) [.long x] =
      some (.number (number f).1 (number f).2.1 (number f).2.2, [])) :
    ∃ f w, f.Plain ∧ vprintf 0 (d.format conv) (d.args x) =
      some ((layOut (number f).1 w (-1) (signPrefix (number f).1 (number f).2.1 (number f).2.2)
        (fillNumbuf (number f).2.2 (number f).2.1)).map (fun c => (c, 0))) := by
  obtain ⟨w, hwidth⟩ := parseWidth_bytes d.width [ch conv] [.long x]
  obtain ⟨c, rest, hhead, hc⟩ := d.width.bytes_head [ch conv]
  have hstart : Flags.Plain {} := ⟨rfl, rfl, rfl, rfl⟩
  obtain ⟨f, hflags, hplain⟩ := parseFlags_plain d.flags hstart hc rest
  rw [← hhead] at hflags
  have hconversion : conversion 0 (d.flags.map FlagChar.byte ++
      (d.width.bytes ++ [ch 'l', ch conv])) (d.args x) =
      some (layOut (number f).1 w (-1) (signPrefix (number f).1 (number f).2.1 (number f).2.2)
        (fillNumbuf (number f).2.2 (number f).2.1), 0, [], []) := by
    have hprecision : parsePrecision [ch 'l', ch conv] [.long x] =
        some (-1, [ch 'l', ch conv], [.long x]) := rfl
    have hlength : parseLength [ch 'l', ch conv] = some (true, [ch conv]) := rfl
    simp only [conversion, hflags, Directive.args, hwidth, hprecision, hlength,
      Option.bind_eq_bind, Option.bind_some]
    rw [show peek [ch conv] = ch conv from rfl, hconv f]
    rfl
  refine ⟨f, w, hplain, ?_⟩
  have hpercent : ¬ ch '%' ≠ ch '%' := fun h => h rfl
  rw [vprintf, Directive.format, vprintfLoop, if_neg hpercent, hconversion]
  simp [vprintfLoop]

/-! ### The layout of one number -/

lemma fillLoop_length_le (digits : List UInt8) (base fuel val : Nat) (numbuf : List UInt8) :
    (fillLoop digits base fuel val numbuf).length ≤ numbuf.length + fuel := by
  induction fuel generalizing val numbuf with
  | zero => exact Nat.le_refl _
  | succ fuel ih =>
    have hcons := ih (val / base) (digits.getD (val % base) 0 :: numbuf)
    rw [List.length_cons] at hcons
    rw [fillLoop]
    split
    · omega
    · rw [List.length_cons]
      omega

lemma fillNumbuf_length_lt (val : BitVec 64) (base : Int) : (fillNumbuf val base).length < 2 ^ 31 := by
  unfold fillNumbuf
  split
  · exact Nat.lt_of_le_of_lt (fillLoop_length_le _ _ _ _ _) (by decide)
  · exact Nat.lt_of_le_of_lt (fillLoop_length_le _ _ _ _ _) (by decide)

lemma layOut_number (f : Flags) (w : Int) (pre : List UInt8) {data : List UInt8} (hdata : data.length < 2 ^ 31) :
    ∃ a z b, layOut f w (-1) pre data = List.replicate a (ch ' ') ++
      (pre ++ (List.replicate z (ch '0') ++ (data ++ List.replicate b (ch ' ')))) := by
  have hprecision : ¬ ((-1 : Int) ≥ 0 ∧ (!f.numeric) = true) := by
    rintro ⟨h, -⟩
    omega
  have hint : Int.bmod data.length (2 ^ 32) = data.length := Int.bmod_eq_of_le (by omega) (by omega)
  simp only [layOut]
  rw [if_neg hprecision, hint, Int.toNat_natCast, List.take_length]
  simp only [List.append_assoc]
  exact ⟨_, _, _, rfl⟩

/-- The characters that stand for digits, as `strtoul` reads them. -/
structure DigitChars (base : Int) (char : Nat → UInt8) : Prop where
  large : 2 ≤ base.toNat
  read : ∀ d, d < base.toNat → digitOf base (char d) = some d
  zero : char 0 = ch '0'
  plain : ∀ d, d < base.toNat → isspace (charVal (char d)) = false ∧ char d ≠ ch '-' ∧
    char d ≠ ch '+' ∧ char d ≠ ch 'x' ∧ char d ≠ ch 'X' ∧ char d ≠ 0

lemma digitChars_decimal : DigitChars 10 (fun d => upperDigits.getD d 0) where
  large := by decide
  read := by
    intro d (hd : d < 10)
    interval_cases d <;> decide
  zero := rfl
  plain := by
    intro d (hd : d < 10)
    interval_cases d <;> decide

lemma digitChars_hex (upper : Bool) :
    DigitChars 16 (fun d => (if upper then upperDigits else lowerDigits).getD d 0) where
  large := by decide
  read := by
    intro d (hd : d < 16)
    cases upper
    all_goals interval_cases d <;> decide
  zero := by cases upper <;> rfl
  plain := by
    intro d (hd : d < 16)
    cases upper
    all_goals interval_cases d <;> decide

lemma fillLoop_eq (table : List UInt8) (base fuel val : Nat) (ds : List Nat) :
    fillLoop table base fuel val (ds.map (fun d => table.getD d 0)) =
      (Numeral.digits base fuel val ds).map (fun d => table.getD d 0) := by
  induction fuel generalizing val ds with
  | zero => rfl
  | succ fuel ih =>
    rw [fillLoop, Numeral.digits]
    by_cases h0 : val / base = 0
    · rw [if_pos h0]
      simp [h0]
    · rw [if_neg h0, ← ih]
      simp [h0]

/-- The digits in the buffer, behind any number of zeros. -/
lemma fillLoop_number {base : Int} {table : List UInt8}
    (hchars : DigitChars base (fun d => table.getD d 0)) (num : BitVec 64) (z : Nat) :
    ∃ ds, List.replicate z (ch '0') ++ fillLoop table base.toNat 64 num.toNat [] =
        ds.map (fun d => table.getD d 0) ∧
      ds ≠ [] ∧ (∀ d ∈ ds, d < base.toNat) ∧ Numeral.value base.toNat ds 0 = num.toNat := by
  have hpos : 0 < base.toNat := by have := hchars.large; omega
  have hfit : num.toNat < base.toNat ^ 64 :=
    Nat.lt_of_lt_of_le num.isLt (Nat.pow_le_pow_left hchars.large 64)
  refine ⟨List.replicate z 0 ++ Numeral.digits base.toNat 64 num.toNat [], ?_, ?_, ?_, ?_⟩
  · rw [List.map_append, List.map_replicate, hchars.zero]
    exact congrArg _ (fillLoop_eq table base.toNat 64 num.toNat [])
  · exact List.append_ne_nil_of_right_ne_nil _ (Numeral.digits_ne_nil 64 _ (Or.inl (by decide)))
  · intro d hd
    rcases List.mem_append.1 hd with hzero | hdigit
    · rw [List.eq_of_mem_replicate hzero]
      exact hpos
    · exact Numeral.digits_lt hpos 64 num.toNat [] (fun e he => absurd he List.not_mem_nil) d hdigit
  · rw [Numeral.value_zeros, Numeral.value_digits hpos 64 num.toNat [] hfit, Numeral.value_nil]

/-! ### Parsing -/

lemma stops_pad (base : Int) (b : Nat) : Stops base (List.replicate b (ch ' ')) := by
  intro c hc
  obtain rfl : c = ch ' ' := List.eq_of_mem_replicate (List.mem_of_mem_head? hc)
  have hspace : charVal (ch ' ') = 32 := by decide
  rw [digitOf, hspace, if_neg (by omega), if_neg (by omega), if_neg (by omega)]

lemma hexPrefix_false {s : List UInt8} (h : ∀ c ∈ s, c ≠ ch 'x' ∧ c ≠ ch 'X') :
    hexPrefix s = false := by
  rw [hexPrefix, decide_eq_false_iff_not]
  rintro ⟨-, hx | hX⟩
  · exact (h _ (List.mem_of_getElem? hx)).1 rfl
  · exact (h _ (List.mem_of_getElem? hX)).2 rfl

section Parse

variable {base : Int} {char : Nat → UInt8} (hchars : DigitChars base char)
  {ds : List Nat} (hne : ds ≠ []) (hds : ∀ d ∈ ds, d < base.toNat)
  (hfit : Numeral.value base.toNat ds 0 < 2 ^ 64) (b : Nat)

include hchars hds

lemma text_plain : ∀ c ∈ ds.map char ++ List.replicate b (ch ' '), c ≠ ch 'x' ∧ c ≠ ch 'X' := by
  intro c hc
  rcases List.mem_append.1 hc with hdigit | hpad
  · obtain ⟨d, hd, rfl⟩ := List.mem_map.1 hdigit
    obtain ⟨-, -, -, hx, hX, -⟩ := hchars.plain d (hds d hd)
    exact ⟨hx, hX⟩
  · rw [List.eq_of_mem_replicate hpad]
    decide

include hfit in
lemma digitLoop_text : digitLoop base 0 false (ds.map char ++ List.replicate b (ch ' ')) =
    (Numeral.value base.toNat ds 0, false, List.replicate b (ch ' ')) :=
  digitLoop_digits (by have := hchars.large; omega) (stops_pad base b) ds
    (fun d hd => hchars.read d (hds d hd)) 0 hfit

include hfit

/-- A plus sign in front. -/
lemma strtoul_plus : strtoul (ch '+' :: (ds.map char ++ List.replicate b (ch ' '))) base =
    (Numeral.value base.toNat ds 0, List.replicate b (ch ' ')) := by
  have hloop := digitLoop_text hchars hds hfit b
  have hbase : base ≠ 0 := by
    intro h0
    have := hchars.large
    rw [h0] at this
    exact absurd this (by decide)
  have hhex := hexPrefix_false (text_plain hchars hds b)
  have hminus : ch '+' ≠ ch '-' := by decide
  simp [strtoul, skipSpace_head _ (show isspace (charVal (ch '+')) = false by decide), hminus,
    hbase, hhex, hloop]

include hne

/-- Digits without a sign or a prefix. -/
lemma strtoul_text : strtoul (ds.map char ++ List.replicate b (ch ' ')) base =
    (Numeral.value base.toNat ds 0, List.replicate b (ch ' ')) := by
  have hloop := digitLoop_text hchars hds hfit b
  have hbase : base ≠ 0 := by
    intro h0
    have := hchars.large
    rw [h0] at this
    exact absurd this (by decide)
  have hhex := hexPrefix_false (text_plain hchars hds b)
  obtain ⟨d, ds, rfl⟩ := List.exists_cons_of_ne_nil hne
  obtain ⟨hspace, hminus, hplus, -⟩ := hchars.plain d (hds d List.mem_cons_self)
  rw [List.map_cons, List.cons_append] at hloop hhex ⊢
  simp [strtoul, skipSpace_head _ hspace, hminus, hplus, hbase, hhex, hloop]

end Parse

/-! ### The round trip -/

/-- What is printed of `x` fits in any buffer that is larger, and parsing the buffer gives `v`
and the rest of the string behind the digits. -/
def ReadsBack {α : Type} (d : Directive) (conv : Char) (x : BitVec 64) (base : Int)
    (parse : List UInt8 → Int → α × List UInt8) (v : α) : Prop :=
  ∃ out, vprintf 0 (d.format conv) (d.args x) = some out ∧
    ∀ mem s size, out.length < size →
      ∃ mem' n lead digits trail,
        snprintf mem s size (d.format conv) (d.args x) = some (mem', n) ∧
        CString mem' s (lead ++ digits ++ trail) ∧
        digits ≠ [] ∧ (∀ c ∈ digits, digitOf base c ≠ none) ∧ (∀ c ∈ trail, c = ch ' ') ∧
        parse (lead ++ digits ++ trail) base = (v, trail)

lemma readsBack_of_text {α : Type} {d : Directive} {conv : Char} {x : BitVec 64} {base : Int}
    {parse : List UInt8 → Int → α × List UInt8} {v : α} {char : Nat → UInt8}
    (hchars : DigitChars base char) {ds : List Nat} (hne : ds ≠ [])
    (hds : ∀ d ∈ ds, d < base.toNat) {a b : Nat} {pre : List UInt8} (hpre : 0 ∉ pre)
    (hout : vprintf 0 (d.format conv) (d.args x) = some ((List.replicate a (ch ' ') ++
      (pre ++ (ds.map char ++ List.replicate b (ch ' ')))).map (fun c => (c, 0))))
    (hparse : parse (List.replicate a (ch ' ') ++ (pre ++ (ds.map char ++
      List.replicate b (ch ' ')))) base = (v, List.replicate b (ch ' '))) :
    ReadsBack d conv x base parse v := by
  refine ⟨_, hout, fun mem s size hsize => ?_⟩
  have hsplit : List.replicate a (ch ' ') ++ (pre ++ (ds.map char ++ List.replicate b (ch ' '))) =
      (List.replicate a (ch ' ') ++ pre) ++ ds.map char ++ List.replicate b (ch ' ') := by
    simp only [List.append_assoc]
  have hnonzero : ∀ c ∈ List.replicate a (ch ' ') ++ (pre ++ (ds.map char ++
      List.replicate b (ch ' '))), c ≠ 0 := by
    intro c hc
    simp only [List.mem_append] at hc
    rcases hc with hpad | hpre' | hdigit | hpad
    · rw [List.eq_of_mem_replicate hpad]
      decide
    · exact fun h0 => hpre (h0 ▸ hpre')
    · obtain ⟨e, he, rfl⟩ := List.mem_map.1 hdigit
      exact (hchars.plain e (hds e he)).2.2.2.2.2
    · rw [List.eq_of_mem_replicate hpad]
      decide
  have hchars_out : ((List.replicate a (ch ' ') ++ (pre ++ (ds.map char ++
      List.replicate b (ch ' ')))).map (fun c => (c, (0 : BitVec 32)))).map Prod.fst =
      List.replicate a (ch ' ') ++ (pre ++ (ds.map char ++ List.replicate b (ch ' '))) := by
    rw [List.map_map]
    exact List.map_id _
  obtain ⟨mem', n, hprint, hstring⟩ := snprintf_fits hout (by rw [hchars_out]; exact hnonzero)
    mem s hsize
  rw [hchars_out, hsplit] at hstring
  rw [hsplit] at hparse
  refine ⟨mem', n, _, _, _, hprint, hstring, ?_, ?_, ?_, hparse⟩
  · exact fun h => hne (List.map_eq_nil_iff.1 h)
  · intro c hc
    obtain ⟨e, he, rfl⟩ := List.mem_map.1 hc
    rw [hchars.read e (hds e he)]
    exact Option.some_ne_none e
  · exact fun c hc => List.eq_of_mem_replicate hc

lemma strtoul_pad (n : Nat) (s : List UInt8) (base : Int) :
    strtoul (List.replicate n (ch ' ') ++ s) base = strtoul s base := by
  simp only [strtoul, skipSpace_pad]

lemma strtol_pad (n : Nat) (s : List UInt8) (base : Int) :
    strtol (List.replicate n (ch ' ') ++ s) base = strtol s base := by
  have hskip := skipSpace_pad n s
  unfold strtol
  rw [hskip]

/-- A prefix of base 16 is skipped. -/
lemma strtoul_prefix {char : Nat → UInt8} (hchars : DigitChars 16 char) {ds : List Nat}
    (hds : ∀ d ∈ ds, d < 16) (hfit : Numeral.value 16 ds 0 < 2 ^ 64) (b : Nat) {c : UInt8}
    (hc : c = ch 'x' ∨ c = ch 'X') :
    strtoul (ch '0' :: c :: (ds.map char ++ List.replicate b (ch ' '))) 16 =
      (Numeral.value 16 ds 0, List.replicate b (ch ' ')) := by
  have hloop := digitLoop_text hchars hds hfit b
  have hhex : hexPrefix (ch '0' :: c :: (ds.map char ++ List.replicate b (ch ' '))) = true := by
    simpa [hexPrefix] using hc
  have hminus : ch '0' ≠ ch '-' := by decide
  have hplus : ch '0' ≠ ch '+' := by decide
  simp [strtoul, skipSpace_head _ (show isspace (charVal (ch '0')) = false by decide), hminus,
    hplus, hhex, hloop]

/-- The unsigned conversions in a base, with an empty prefix or that of base 16. -/
lemma readsBack_unsigned (d : Directive) (x : BitVec 64) {conv : Char} {base base' : Int}
    {table : List UInt8} (hchars : DigitChars base (fun d => table.getD d 0))
    (hconv : ∀ f, convert f true (ch conv) [.long x] =
      some (.number { f with numeric := true } base' x, []))
    (hfill : fillNumbuf x base' = fillLoop table base.toNat 64 x.toNat [])
    (hpre : ∀ f : Flags, f.Plain → signPrefix { f with numeric := true } base' x = [] ∨
      base = 16 ∧ (signPrefix { f with numeric := true } base' x = [ch '0', ch 'x'] ∨
        signPrefix { f with numeric := true } base' x = [ch '0', ch 'X'])) :
    ReadsBack d conv x base strtoul x.toNat := by
  obtain ⟨f, w, hplain, hout⟩ := vprintf_number d conv x
    (fun f => ({ f with numeric := true }, base', x)) hconv
  obtain ⟨a, z, b, hlayout⟩ := layOut_number { f with numeric := true } w
    (signPrefix { f with numeric := true } base' x) (fillNumbuf_length_lt x base')
  obtain ⟨ds, htext, hne, hds, hvalue⟩ := fillLoop_number hchars x z
  have hfit : Numeral.value base.toNat ds 0 < 2 ^ 64 := by
    rw [hvalue]
    exact x.isLt
  rw [hfill, ← List.append_assoc (List.replicate z _), htext] at hlayout
  simp only [hfill] at hout
  rw [hlayout] at hout
  refine readsBack_of_text hchars hne hds ?_ hout ?_
  · rcases hpre f hplain with hnil | ⟨-, hx | hX⟩
    · rw [hnil]
      exact List.not_mem_nil
    · rw [hx]
      decide
    · rw [hX]
      decide
  · rw [strtoul_pad, ← hvalue]
    rcases hpre f hplain with hnil | ⟨rfl, hx | hX⟩
    · rw [hnil, List.nil_append]
      exact strtoul_text hchars hne hds hfit b
    · rw [hx]
      exact strtoul_prefix hchars hds hfit b (Or.inl rfl)
    · rw [hX]
      exact strtoul_prefix hchars hds hfit b (Or.inr rfl)

lemma signPrefix_hex {f : Flags} (hf : f.signed = false) {base : Int} (hbase : base = 16 ∨ base = -16)
    (x : BitVec 64) : signPrefix f base x = [] ∨
      (signPrefix f base x = [ch '0', ch 'x'] ∨ signPrefix f base x = [ch '0', ch 'X']) := by
  have hsigned : ¬ (f.numeric = true ∧ f.signed = true) := by
    rw [hf]
    exact fun h => Bool.false_ne_true h.2
  rw [signPrefix, if_neg hsigned]
  by_cases halt : f.numeric = true ∧ f.alt = true ∧ (base = 16 ∨ base = -16) ∧
      (x ≠ 0 ∨ f.alt2 = true)
  · right
    rw [if_pos halt]
    rcases hbase with rfl | rfl
    · exact Or.inr rfl
    · exact Or.inl rfl
  · left
    rw [if_neg halt]

lemma signPrefix_decimal {f : Flags} (hf : f.signed = false) (x : BitVec 64) :
    signPrefix f 10 x = [] := by
  have hsigned : ¬ (f.numeric = true ∧ f.signed = true) := by
    rw [hf]
    exact fun h => Bool.false_ne_true h.2
  have hhex : ¬ (f.numeric = true ∧ f.alt = true ∧ ((10 : Int) = 16 ∨ (10 : Int) = -16) ∧
      (x ≠ 0 ∨ f.alt2 = true)) := by
    rintro ⟨-, -, h, -⟩
    omega
  rw [signPrefix, if_neg hsigned, if_neg hhex]

/-- The prefix of a signed conversion. -/
lemma signPrefix_signed {f : Flags} (hnumeric : f.numeric = true) (hf : f.signed = true)
    (base : Int) (x : BitVec 64) :
    (f.negative = true ∧ signPrefix f base x = [ch '-']) ∨
      f.negative = false ∧ (signPrefix f base x = [ch '+'] ∨ signPrefix f base x = [ch ' '] ∨
        signPrefix f base x = []) := by
  have hsigned : f.numeric = true ∧ f.signed = true := ⟨hnumeric, hf⟩
  rw [signPrefix, if_pos hsigned]
  cases hneg : f.negative with
  | true => exact Or.inl ⟨rfl, if_pos rfl⟩
  | false =>
    right
    refine ⟨rfl, ?_⟩
    rw [if_neg Bool.false_ne_true]
    cases f.pluspositive with
    | true => exact Or.inl (if_pos rfl)
    | false =>
      right
      rw [if_neg Bool.false_ne_true]
      cases f.spacepositive with
      | true => exact Or.inl (if_pos rfl)
      | false => exact Or.inr (if_neg Bool.false_ne_true)

/-- `strtol` behind the padding and the sign of a number that is in range. -/
lemma strtol_sign {char : Nat → UInt8} (hchars : DigitChars 10 char) {ds : List Nat} (hne : ds ≠ [])
    (hds : ∀ d ∈ ds, d < 10) (b : Nat) {pre : List UInt8} {x : BitVec 64}
    (hcase : (x.slt 0 = true ∧ pre = [ch '-'] ∧ Numeral.value 10 ds 0 = (-x).toNat) ∨
      x.slt 0 = false ∧ (pre = [ch '+'] ∨ pre = [ch ' '] ∨ pre = []) ∧
        Numeral.value 10 ds 0 = x.toNat) :
    strtol (pre ++ (ds.map char ++ List.replicate b (ch ' '))) 10 =
      (x.toInt, List.replicate b (ch ' ')) := by
  have htwos := x.toInt_eq_toNat_cond
  have hlt := x.isLt
  have hneg := BitVec.toNat_neg x
  have hfit : Numeral.value 10 ds 0 < 2 ^ 64 := by
    rcases hcase with ⟨-, -, hv⟩ | ⟨-, -, hv⟩
    · rw [hv]
      exact (-x).isLt
    · rw [hv]
      exact hlt
  have htext : strtoul (ds.map char ++ List.replicate b (ch ' ')) 10 =
      (Numeral.value 10 ds 0, List.replicate b (ch ' ')) := strtoul_text hchars hne hds hfit b
  have htoInt : Int.bmod x.toNat (2 ^ 64) = x.toInt := (BitVec.toInt_eq_toNat_bmod x).symm
  rcases hcase with ⟨hslt, rfl, hv⟩ | ⟨hslt, hpre, hv⟩
  · -- The largest negative number is 2⁶³ without its sign.
    have hlarge : 2 ^ 63 ≤ x.toNat := by
      have hneg : x.toInt < 0 := by simpa using BitVec.slt_iff_toInt_lt.1 hslt
      omega
    have habs : Numeral.value 10 ds 0 = 2 ^ 64 - x.toNat := by
      rw [hv, hneg]
      omega
    have hbound : ¬ Numeral.value 10 ds 0 > 2 ^ 63 - 0 := by omega
    have hback : (2 ^ 64 - Numeral.value 10 ds 0) % 2 ^ 64 = x.toNat := by omega
    have hskip := skipSpace_head (ds.map char ++ List.replicate b (ch ' '))
      (show isspace (charVal (ch '-')) = false by decide)
    unfold strtol
    simp only [List.singleton_append, hskip]
    simp only [List.head?_cons, List.tail_cons, decide_true, if_true, htext]
    rw [if_neg hbound, hback, htoInt]
  · have hsmall : x.toNat < 2 ^ 63 := by
      have hpos : ¬ x.toInt < 0 := by
        intro hlt'
        have hslt' : x.slt 0 = true := BitVec.slt_iff_toInt_lt.2 (by simpa using hlt')
        exact Bool.false_ne_true (hslt.symm.trans hslt')
      omega
    have hbound : ¬ Numeral.value 10 ds 0 > 2 ^ 63 - 1 := by omega
    have hbare : strtol (ds.map char ++ List.replicate b (ch ' ')) 10 =
        (x.toInt, List.replicate b (ch ' ')) := by
      obtain ⟨d, ds, rfl⟩ := List.exists_cons_of_ne_nil hne
      obtain ⟨hspace, hminus, -⟩ := hchars.plain d (hds d List.mem_cons_self)
      rw [List.map_cons, List.cons_append] at htext ⊢
      unfold strtol
      simp only [skipSpace_head _ hspace, List.head?_cons, Option.some.injEq, hminus, decide_false,
        Bool.false_eq_true, if_false, htext]
      rw [if_neg hbound, hv, htoInt]
    rcases hpre with rfl | rfl | rfl
    · have hplus : strtoul (ch '+' :: (ds.map char ++ List.replicate b (ch ' '))) 10 =
          (Numeral.value 10 ds 0, List.replicate b (ch ' ')) := strtoul_plus hchars hds hfit b
      have hminus : ch '+' ≠ ch '-' := by decide
      have hskip := skipSpace_head (ds.map char ++ List.replicate b (ch ' '))
        (show isspace (charVal (ch '+')) = false by decide)
      unfold strtol
      simp only [List.singleton_append, hskip, List.head?_cons, Option.some.injEq, hminus,
        decide_false, Bool.false_eq_true, if_false, hplus]
      rw [if_neg hbound, hv, htoInt]
    · exact (strtol_pad 1 _ 10).trans hbare
    · exact hbare

/-- Every 64-bit number, printed with any flags and any width to a buffer that is large enough,
is read back: `%ld` by `strtol`, and `%lu`, `%lx` and `%lX` by `strtoul` in their base. -/
theorem printf_reads_back (d : Directive) (x : BitVec 64) :
    ReadsBack d 'd' x 10 strtol x.toInt ∧ ReadsBack d 'u' x 10 strtoul x.toNat ∧
      ReadsBack d 'x' x 16 strtoul x.toNat ∧ ReadsBack d 'X' x 16 strtoul x.toNat := by
  refine ⟨?_, ?_, ?_, ?_⟩
  · obtain ⟨f, w, hplain, hout⟩ := vprintf_number d 'd' x
      (fun f => ({ f with numeric := true, signed := true, negative := x.slt 0 }, 10,
        if x.slt 0 then -x else x)) (fun f => rfl)
    simp only at hout
    obtain ⟨a, z, b, hlayout⟩ := layOut_number
      { f with numeric := true, signed := true, negative := x.slt 0 } w
      (signPrefix { f with numeric := true, signed := true, negative := x.slt 0 } 10
        (if x.slt 0 then -x else x)) (fillNumbuf_length_lt (if x.slt 0 then -x else x) 10)
    obtain ⟨ds, htext, hne, hds, hvalue⟩ := fillLoop_number digitChars_decimal
      (if x.slt 0 then -x else x) z
    have hfill : fillNumbuf (if x.slt 0 then -x else x) 10 = fillLoop upperDigits (10 : Int).toNat 64
        (if x.slt 0 then -x else x).toNat [] := rfl
    rw [hfill, ← List.append_assoc (List.replicate z _), htext] at hlayout
    rw [hfill, hlayout] at hout
    have hsign := signPrefix_signed
      (f := { f with numeric := true, signed := true, negative := x.slt 0 }) rfl rfl 10
      (if x.slt 0 then -x else x)
    refine readsBack_of_text digitChars_decimal hne hds ?_ hout ?_
    · rcases hsign with ⟨-, h⟩ | ⟨-, h | h | h⟩
      all_goals rw [h]; decide
    · rw [strtol_pad]
      refine strtol_sign digitChars_decimal hne hds b ?_
      rcases hsign with ⟨hslt, h⟩ | ⟨hslt, h⟩
      · left
        refine ⟨hslt, h, ?_⟩
        rw [if_pos hslt] at hvalue
        exact hvalue
      · right
        refine ⟨hslt, h, ?_⟩
        have hpos : ¬ x.slt 0 = true := fun htrue => Bool.false_ne_true (hslt.symm.trans htrue)
        rw [if_neg hpos] at hvalue
        exact hvalue
  · exact readsBack_unsigned d x digitChars_decimal (fun f => rfl) rfl
      (fun f hf => Or.inl (signPrefix_decimal (f := { f with numeric := true }) hf.signed x))
  · exact readsBack_unsigned d x (digitChars_hex false) (fun f => rfl) rfl
      (fun f hf =>
        (signPrefix_hex (f := { f with numeric := true }) hf.signed (Or.inr rfl) x).imp_right (fun h => ⟨rfl, h⟩))
  · exact readsBack_unsigned d x (digitChars_hex true) (fun f => rfl) rfl
      (fun f hf =>
        (signPrefix_hex (f := { f with numeric := true }) hf.signed (Or.inl rfl) x).imp_right (fun h => ⟨rfl, h⟩))

end Cs300Projects.WeensyOS
