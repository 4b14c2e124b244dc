import Cs300Projects.Lib.Numeral
import Cs300Projects.Vunmo.Client
import Mathlib.Data.List.DropRight

/-!
# The commands of the client

`parse_command` compares a command with a cascade of `sscanf` patterns. A blank in a pattern matches any blanks, also none,
a conversion skips blanks and takes a sign, and nobody looks at what follows the last number. A command is the list of its
characters before the NUL.
-/

namespace Cs300Projects.Vunmo

open Numeral

def bytes (text : String) : List UInt8 := text.toList.map byte

/-! ### `sscanf` -/

/-- A white-space character. -/
def isspace (c : UInt8) : Bool := (9 ≤ c.toNat ∧ c.toNat ≤ 13) ∨ c.toNat = 32

def digit (c : UInt8) : Option Nat := if 48 ≤ c.toNat ∧ c.toNat ≤ 57 then some (c.toNat - 48) else none

/-- An optional sign. -/
def splitSign : List UInt8 → Bool × List UInt8
  | [] => (false, [])
  | c :: s => if c = byte '-' then (true, s) else if c = byte '+' then (false, s) else (false, c :: s)

/-- The text of a number with its sign. -/
def signedText (s : List UInt8) : List UInt8 := s.dropWhile isspace

def numText (s : List UInt8) : List UInt8 := (splitSign (signedText s)).2

def numValue (s : List UInt8) : Nat := runValue digit 10 (numText s)

/-- What follows the number. -/
def numRest (s : List UInt8) : List UInt8 := rest digit (numText s)

/-- What a conversion stores where the number does not fit, which the C standard leaves undefined: any value, or none, which
ends the scan. -/
abbrev Undefined := Bool → Nat → Option Word

def convert (undef : Undefined) (negative : Bool) (n : Nat) : Option Word :=
  if n < 2 ^ 64 then some (if negative then -BitVec.ofNat 64 n else BitVec.ofNat 64 n) else undef negative n

/-- `%lu` -/
def scanU64 (undef : Undefined) (s : List UInt8) : Option (Word × List UInt8) :=
  if Numeral.run digit (numText s) = [] then none
  else (convert undef (splitSign (signedText s)).1 (numValue s)).map fun v => (v, numRest s)

inductive Directive where
  | literal (c : UInt8)
  | white
  | u64

/-- The values that are stored before a directive fails. -/
def sscanf (undef : Undefined) : List Directive → List UInt8 → List Word
  | [], _ => []
  | .literal _ :: _, [] => []
  | .literal c :: format, d :: s => if d = c then sscanf undef format s else []
  | .white :: format, s => sscanf undef format (s.dropWhile isspace)
  | .u64 :: format, s =>
    match scanU64 undef s with
    | none => []
    | some (v, s) => v :: sscanf undef format s

/-! ### `parse_command` -/

def literals (text : String) : List Directive := (bytes text).map .literal

def depositFormat : List Directive := literals "deposit" ++ [.white, .u64]
def withdrawFormat : List Directive := literals "withdraw" ++ [.white, .u64]
def payFormat : List Directive := literals "pay" ++ [.white, .u64, .u64]
def chargeFormat : List Directive := literals "charge" ++ [.white, .u64, .u64]

/-- The request after `memset`. -/
def noRequest : ClientRequest := ⟨.balance, 0, 0, 0⟩

def parseCommand (undef : Undefined) (command : List UInt8) : Int × ClientRequest :=
  if command = [] then (1, noRequest)
  else if command = bytes "balance" then (0, { noRequest with type := .balance })
  else match sscanf undef depositFormat command with
  | [amount] => (0, { noRequest with type := .deposit, amount := amount })
  | _ => match sscanf undef withdrawFormat command with
  | [amount] => (0, { noRequest with type := .withdrawal, amount := amount })
  | _ => match sscanf undef payFormat command with
  | [targetClient, amount] => (0, { noRequest with type := .payment, amount := amount, targetClientId := targetClient })
  | _ => match sscanf undef chargeFormat command with
  | [targetClient, amount] => (0, { noRequest with type := .charge, amount := amount, targetClientId := targetClient })
  | _ => (-1, noRequest)

/-! ### The commands that are meant -/

/-- The commands with numbers. -/
inductive Verb where
  | deposit
  | withdraw
  | pay
  | charge
  deriving DecidableEq

namespace Verb

def word : Verb → List UInt8
  | .deposit => bytes "deposit"
  | .withdraw => bytes "withdraw"
  | .pay => bytes "pay"
  | .charge => bytes "charge"

def count : Verb → Nat
  | .deposit => 1
  | .withdraw => 1
  | .pay => 2
  | .charge => 2

/-- The request with the numbers of the command: target first, then amount. -/
def request : Verb → List Word → Option ClientRequest
  | .deposit, [amount] => some ⟨.deposit, 0, 0, amount⟩
  | .withdraw, [amount] => some ⟨.withdrawal, 0, 0, amount⟩
  | .pay, [targetClient, amount] => some ⟨.payment, 0, targetClient, amount⟩
  | .charge, [targetClient, amount] => some ⟨.charge, 0, targetClient, amount⟩
  | _, _ => none

end Verb

/-- The text is made of the numbers, each with blanks in front. -/
def Arguments : List Word → List UInt8 → Prop
  | [], s => s = []
  | n :: ns, s => ∃ blanks digits rest, s = blanks ++ (digits ++ rest) ∧ blanks ≠ [] ∧ (∀ c ∈ blanks, isspace c = true) ∧
      digits ≠ [] ∧ (∀ c ∈ digits, (digit c).isSome) ∧ value 10 (digits.map (digitValue digit)) 0 = n.toNat ∧ Arguments ns rest

/-- The command is meant as a request. -/
inductive Means : List UInt8 → ClientRequest → Prop
  | balance : Means (bytes "balance") ⟨.balance, 0, 0, 0⟩
  | verb {v : Verb} {ns : List Word} {s : List UInt8} {req : ClientRequest} (hargs : Arguments ns s)
      (hreq : v.request ns = some req) : Means (v.word ++ s) req

/-- The result of `parse_command` is as the commands are meant. -/
structure ParsedRight (command : List UInt8) (parsed : Int × ClientRequest) : Prop where
  accepts : ∀ req, parsed = (0, req) ↔ Means command req
  blank : parsed.1 = 1 ↔ command = []
  rejects : parsed.1 = -1 ↔ command ≠ [] ∧ ¬ ∃ req, Means command req

/-- A text that is read as `k` numbers. -/
def Reads (undef : Undefined) : Nat → List UInt8 → Prop
  | 0, _ => True
  | k + 1, s => ∃ v t, scanU64 undef s = some (v, t) ∧ Reads undef k t

/-- Each of the `k` numbers has a blank in front and no sign, and fits, and nothing follows the last one. -/
def Tidy : Nat → List UInt8 → Prop
  | 0, s => s = []
  | k + 1, s => s.head?.any isspace = true ∧ numText s = signedText s ∧ numValue s < 2 ^ 64 ∧ Tidy k (numRest s)

section

variable {undef : Undefined} {c : UInt8} {s t : List UInt8} {n : Word} {ns : List Word} {k : Nat}

lemma digit_of_isspace (h : isspace c = true) : digit c = none := by
  unfold isspace at h
  simp only [decide_eq_true_iff] at h
  exact if_neg (by omega)

lemma isspace_of_digit (h : (digit c).isSome) : isspace c = false := by
  cases hc : isspace c with
  | false => rfl
  | true =>
    rw [digit_of_isspace hc] at h
    exact absurd h Bool.false_ne_true

lemma splitSign_of_digit (h : (digit c).isSome) : splitSign (c :: s) = (false, c :: s) := by
  have hsign : ∀ d, digit d = none → c ≠ d := by
    rintro d hd rfl
    rw [hd] at h
    exact absurd h Bool.false_ne_true
  rw [splitSign, if_neg (hsign _ (by decide)), if_neg (hsign _ (by decide))]

lemma splitSign_of_eq (h : (splitSign s).2 = s) : splitSign s = (false, s) := by
  cases s with
  | nil => rfl
  | cons c s =>
    rw [splitSign] at h ⊢
    split_ifs at h ⊢
    · exact absurd h.symm (List.cons_ne_self c s)
    · exact absurd h.symm (List.cons_ne_self c s)
    · rfl

/-! ### Numbers with blanks in front -/

/-- What a conversion finds in blanks, digits and a text that does not go on with a digit. -/
lemma pieces {blanks digits rest : List UInt8} (hblanks : ∀ c ∈ blanks, isspace c = true) (hne : digits ≠ [])
    (hdigits : ∀ c ∈ digits, (digit c).isSome) (hrest : ∀ c, rest.head? = some c → digit c = none) :
    signedText (blanks ++ (digits ++ rest)) = digits ++ rest ∧ numText (blanks ++ (digits ++ rest)) = digits ++ rest ∧
      Numeral.run digit (numText (blanks ++ (digits ++ rest))) = digits ∧ numRest (blanks ++ (digits ++ rest)) = rest := by
  obtain ⟨c, ds, rfl⟩ := List.exists_cons_of_ne_nil hne
  have hc := hdigits c List.mem_cons_self
  have hsigned : signedText (blanks ++ (c :: ds ++ rest)) = c :: ds ++ rest := by
    rw [signedText, List.dropWhile_append_of_pos hblanks, List.cons_append,
      List.dropWhile_cons_of_neg (by rw [isspace_of_digit hc]; exact Bool.false_ne_true)]
  have hnum : numText (blanks ++ (c :: ds ++ rest)) = c :: ds ++ rest := by
    rw [numText, hsigned, List.cons_append, splitSign_of_digit hc]
  obtain ⟨hrun, hafter⟩ := run_append hdigits hrest
  refine ⟨hsigned, hnum, ?_, ?_⟩
  · rw [hnum]
    exact hrun
  · rw [numRest, hnum]
    exact hafter

lemma Arguments.head (h : Arguments ns s) : ∀ c, s.head? = some c → digit c = none := by
  intro c hc
  cases ns with
  | nil =>
    rw [Arguments] at h
    rw [h] at hc
    cases hc
  | cons n ns =>
    obtain ⟨blanks, digits, rest, rfl, hne, hblanks, -⟩ := h
    obtain ⟨b, bs, rfl⟩ := List.exists_cons_of_ne_nil hne
    rw [List.cons_append, List.head?_cons, Option.some.injEq] at hc
    exact digit_of_isspace (hblanks c (hc ▸ List.mem_cons_self))

/-- The conversion of a number without a sign. -/
lemma scanU64_plain (hrun : Numeral.run digit (numText s) ≠ []) (hsign : numText s = signedText s) (hlt : numValue s < 2 ^ 64) :
    scanU64 undef s = some (BitVec.ofNat 64 (numValue s), numRest s) := by
  have hfst : (splitSign (signedText s)).1 = false := by rw [splitSign_of_eq hsign]
  rw [scanU64, if_neg hrun, hfst, convert, if_pos hlt]
  rfl

/-- Texts that are made of numbers are those that are tidy and read, and what is read are the numbers. -/
lemma arguments_iff (undef : Undefined) : Arguments ns s ↔ Tidy ns.length s ∧ Reads undef ns.length s ∧
    sscanf undef (List.replicate ns.length .u64) s = ns := by
  induction ns generalizing s with
  | nil => exact ⟨fun h => ⟨h, trivial, rfl⟩, fun h => h.1⟩
  | cons n ns ih =>
    constructor
    · rintro ⟨blanks, digits, rest, rfl, hne, hblanks, hdne, hdigits, hvalue, hargs⟩
      obtain ⟨hsigned, hnum, hrun, hafter⟩ := pieces hblanks hdne hdigits hargs.head
      have hnumValue : numValue (blanks ++ (digits ++ rest)) = n.toNat := by
        rw [numValue, runValue, hrun, hvalue]
      have hlt : numValue (blanks ++ (digits ++ rest)) < 2 ^ 64 := hnumValue ▸ n.isLt
      have hscan : scanU64 undef _ = _ := scanU64_plain (by rw [hrun]; exact hdne) (hnum.trans hsigned.symm) hlt
      obtain ⟨htidy, hreads, hscanf⟩ := ih.1 hargs
      have hhead : (blanks ++ (digits ++ rest)).head?.any isspace = true := by
        obtain ⟨b, bs, rfl⟩ := List.exists_cons_of_ne_nil hne
        exact hblanks b List.mem_cons_self
      refine ⟨⟨hhead, hnum.trans hsigned.symm, hlt, hafter.symm ▸ htidy⟩, ⟨_, _, hscan, hafter.symm ▸ hreads⟩, ?_⟩
      rw [List.length_cons, List.replicate_succ, sscanf, hscan]
      dsimp only
      rw [hafter, hscanf, hnumValue, BitVec.ofNat_toNat, BitVec.setWidth_eq]
    · rintro ⟨⟨hhead, hsign, hlt, htidy⟩, ⟨v, t, hscan, hreads⟩, hscanf⟩
      have hrun : Numeral.run digit (numText s) ≠ [] := by
        intro hnil
        rw [scanU64, if_pos hnil] at hscan
        cases hscan
      have hplain : scanU64 undef s = _ := scanU64_plain hrun hsign hlt
      rw [List.length_cons, List.replicate_succ, sscanf, hplain] at hscanf
      dsimp only at hscanf
      rw [List.cons.injEq] at hscanf
      have ht : numRest s = t := congrArg Prod.snd (Option.some.inj (hplain.symm.trans hscan))
      refine ⟨s.takeWhile isspace, Numeral.run digit (numText s), numRest s, ?_, ?_, fun c hc => List.mem_takeWhile_imp hc,
        hrun, fun c hc => isSome_of_mem_run hc, ?_, ih.2 ⟨htidy, ht ▸ hreads, hscanf.2⟩⟩
      · rw [numRest, run_append_rest, hsign, signedText, List.takeWhile_append_dropWhile]
      · cases s with
        | nil => cases hhead
        | cons c s =>
          have hblank : isspace c = true := hhead
          rw [List.takeWhile_cons_of_pos hblank]
          exact List.cons_ne_nil _ _
      · rw [← hscanf.1, BitVec.toNat_ofNat, Nat.mod_eq_of_lt hlt]
        rfl

lemma reads_iff (undef : Undefined) (k : Nat) (s : List UInt8) :
    Reads undef k s ↔ (sscanf undef (List.replicate k .u64) s).length = k := by
  induction k generalizing s with
  | zero => exact ⟨fun _ => rfl, fun _ => trivial⟩
  | succ k ih =>
    rw [List.replicate_succ, sscanf, Reads]
    cases hscan : scanU64 undef s with
    | none => simp
    | some r =>
      obtain ⟨v, t⟩ := r
      dsimp only
      rw [List.length_cons, Nat.add_right_cancel_iff, ← ih t]
      constructor
      · rintro ⟨v', t', heq, hreads⟩
        rw [Option.some.injEq, Prod.mk.injEq] at heq
        exact heq.2 ▸ hreads
      · intro hreads
        exact ⟨v, t, rfl, hreads⟩

/-! ### The cascade -/

lemma sscanf_literals (word : List UInt8) (format : List Directive) (s : List UInt8) :
    sscanf undef (word.map .literal ++ format) (word ++ s) = sscanf undef format s := by
  induction word with
  | nil => rfl
  | cons c word ih =>
    rw [List.map_cons, List.cons_append, List.cons_append, sscanf, if_pos rfl, ih]

lemma sscanf_literals_of_not {word : List UInt8} {format : List Directive} (h : ¬ ∃ t, s = word ++ t) :
    sscanf undef (word.map .literal ++ format) s = [] := by
  induction word generalizing s with
  | nil => exact absurd ⟨s, rfl⟩ h
  | cons c word ih =>
    cases s with
    | nil => rfl
    | cons d s =>
      rw [List.map_cons, List.cons_append, sscanf]
      split_ifs with hd
      · apply ih
        rintro ⟨t, rfl⟩
        exact h ⟨t, by rw [hd, List.cons_append]⟩
      · rfl

/-- A conversion skips blanks itself. -/
lemma sscanf_white (format : List Directive) (s : List UInt8) :
    sscanf undef (.white :: .u64 :: format) s = sscanf undef (.u64 :: format) s := by
  have hsigned : signedText (s.dropWhile isspace) = signedText s := List.dropWhile_idempotent isspace s
  have hscan : scanU64 undef (s.dropWhile isspace) = scanU64 undef s := by
    unfold scanU64 numRest numValue numText
    rw [hsigned]
  rw [sscanf, sscanf, sscanf, hscan]

def Verb.format : Verb → List Directive
  | .deposit => depositFormat
  | .withdraw => withdrawFormat
  | .pay => payFormat
  | .charge => chargeFormat

lemma Verb.format_eq (v : Verb) : v.format = v.word.map .literal ++ .white :: List.replicate v.count .u64 := by
  cases v <;> rfl

/-- What a pattern reads of a command with its word. -/
lemma sscanf_verb (v : Verb) (s : List UInt8) :
    sscanf undef v.format (v.word ++ s) = sscanf undef (List.replicate v.count .u64) s := by
  rw [v.format_eq, sscanf_literals]
  cases v <;> exact sscanf_white _ s

lemma sscanf_verb_of_not (v : Verb) {command : List UInt8} (h : ¬ ∃ s, command = v.word ++ s) :
    sscanf undef v.format command = [] := by
  rw [v.format_eq]
  exact sscanf_literals_of_not h

lemma Verb.eq_of_word {v v' : Verb} (h : v.word ++ s = v'.word ++ t) : v = v' ∧ s = t := by
  have hhead : v.word.head? = v'.word.head? := by
    have heq := congrArg List.head? h
    rwa [List.head?_append_of_ne_nil _ (by cases v <;> decide), List.head?_append_of_ne_nil _ (by cases v' <;> decide)] at heq
  have hv : v = v' := by
    revert hhead
    cases v <;> cases v' <;> decide
  subst hv
  exact ⟨rfl, List.append_cancel_left h⟩

lemma Verb.word_ne_nil (v : Verb) (s : List UInt8) : v.word ++ s ≠ [] := by
  cases v <;> exact List.cons_ne_nil _ _

lemma Verb.ne_balance (v : Verb) (s : List UInt8) : v.word ++ s ≠ bytes "balance" := by
  intro h
  have hhead : (v.word ++ s).head? = some (byte 'b') := by rw [h]; rfl
  revert hhead
  cases v <;> exact fun hhead => absurd (Option.some.inj hhead) (by decide)

lemma Verb.request_none {v : Verb} (h : ns.length ≠ v.count) : v.request ns = none := by
  match v, ns with
  | .deposit, [] | .deposit, _ :: _ :: _ | .withdraw, [] | .withdraw, _ :: _ :: _ => rfl
  | .pay, [] | .pay, [_] | .pay, _ :: _ :: _ :: _ | .charge, [] | .charge, [_] | .charge, _ :: _ :: _ :: _ => rfl
  | .deposit, [_] | .withdraw, [_] | .pay, [_, _] | .charge, [_, _] => exact absurd rfl h

lemma Verb.request_some {v : Verb} (h : ns.length = v.count) : ∃ req, v.request ns = some req := by
  match v, ns with
  | .deposit, [] | .deposit, _ :: _ :: _ | .withdraw, [] | .withdraw, _ :: _ :: _ => simp [Verb.count] at h
  | .pay, [] | .pay, [_] | .pay, _ :: _ :: _ :: _ | .charge, [] | .charge, [_] | .charge, _ :: _ :: _ :: _ =>
    simp [Verb.count] at h
  | .deposit, [_] | .withdraw, [_] | .pay, [_, _] | .charge, [_, _] => exact ⟨_, rfl⟩

/-- The result for a command that no pattern before the one of `v` accepts. -/
def Verb.parsed (v : Verb) (ns : List Word) : Int × ClientRequest := ((v.request ns).map fun req => (0, req)).getD (-1, noRequest)

/-- A command is read by the pattern of its word alone. -/
lemma sscanf_format (v v' : Verb) (s : List UInt8) : sscanf undef v'.format (v.word ++ s) =
    if v' = v then sscanf undef (List.replicate v.count .u64) s else [] := by
  by_cases h : v' = v
  · rw [if_pos h, h]
    exact sscanf_verb v s
  · rw [if_neg h]
    apply sscanf_verb_of_not
    rintro ⟨t, ht⟩
    exact h (Verb.eq_of_word ht).1.symm

/-- The cascade, when what its patterns read is known. -/
lemma parseCommand_reads {command : List UInt8} (hblank : command ≠ []) (hbalance : command ≠ bytes "balance")
    {reads : Verb → List Word} (h : ∀ v : Verb, sscanf undef v.format command = reads v) :
    parseCommand undef command = match reads .deposit with
      | [amount] => (0, { noRequest with type := .deposit, amount := amount })
      | _ => match reads .withdraw with
      | [amount] => (0, { noRequest with type := .withdrawal, amount := amount })
      | _ => match reads .pay with
      | [targetClient, amount] => (0, { noRequest with type := .payment, amount := amount, targetClientId := targetClient })
      | _ => match reads .charge with
      | [targetClient, amount] => (0, { noRequest with type := .charge, amount := amount, targetClientId := targetClient })
      | _ => (-1, noRequest) := by
  rw [parseCommand, if_neg hblank, if_neg hbalance, ← h .deposit, ← h .withdraw, ← h .pay, ← h .charge]
  rfl

/-- The cascade reads a command with the pattern of its word. -/
lemma parseCommand_verb (v : Verb) (s : List UInt8) :
    parseCommand undef (v.word ++ s) = v.parsed (sscanf undef (List.replicate v.count .u64) s) := by
  rw [parseCommand_reads (v.word_ne_nil s) (v.ne_balance s) fun v' => sscanf_format v v' s]
  generalize sscanf undef _ s = ns
  cases v with
  | deposit | withdraw =>
    match ns with
    | [] | [_] | _ :: _ :: _ => rfl
  | pay | charge =>
    match ns with
    | [] | [_] | [_, _] | _ :: _ :: _ :: _ => rfl

lemma parseCommand_other {command : List UInt8} (hblank : command ≠ []) (hbalance : command ≠ bytes "balance")
    (h : ¬ ∃ (v : Verb) (s : List UInt8), command = v.word ++ s) : parseCommand undef command = (-1, noRequest) :=
  parseCommand_reads hblank hbalance fun v => sscanf_verb_of_not v fun ⟨s, hs⟩ => h ⟨v, s, hs⟩

/-! ### When the result is right -/

lemma means_verb (undef : Undefined) {v : Verb} {req : ClientRequest} :
    Means (v.word ++ s) req ↔ Tidy v.count s ∧ Reads undef v.count s ∧
      v.request (sscanf undef (List.replicate v.count .u64) s) = some req := by
  constructor
  · intro h
    generalize hcommand : v.word ++ s = command at h
    cases h with
    | balance => exact absurd hcommand (v.ne_balance s)
    | @verb v' ns t _ hargs hreq =>
      obtain ⟨rfl, rfl⟩ := Verb.eq_of_word hcommand
      have hlength : ns.length = v.count := by
        by_contra hne
        rw [Verb.request_none hne] at hreq
        cases hreq
      obtain ⟨htidy, hreads, hscanf⟩ := (arguments_iff undef).1 hargs
      rw [hlength] at htidy hreads hscanf
      exact ⟨htidy, hreads, hscanf.symm ▸ hreq⟩
  · rintro ⟨htidy, hreads, hreq⟩
    have hlength := (reads_iff undef _ _).1 hreads
    apply Means.verb _ hreq
    apply (arguments_iff undef).2
    rw [hlength]
    exact ⟨htidy, hreads, rfl⟩

/-- A command that is refused is rightly refused where no request is meant. -/
lemma parsedRight_refused {command : List UInt8} (hblank : command ≠ []) (h : ¬ ∃ req, Means command req) (req : ClientRequest) :
    ParsedRight command (-1, req) where
  accepts req' := ⟨fun heq => absurd (congrArg Prod.fst heq) (show (-1 : Int) ≠ 0 by decide), fun hmeans => absurd ⟨req', hmeans⟩ h⟩
  blank := ⟨fun heq => absurd heq (show (-1 : Int) ≠ 1 by decide), fun heq => absurd heq hblank⟩
  rejects := ⟨fun _ => ⟨hblank, h⟩, fun _ => rfl⟩

/-- A command that is accepted is rightly accepted where its request, and no other, is meant. -/
lemma parsedRight_accepted {command : List UInt8} (hblank : command ≠ []) {req : ClientRequest}
    (h : ∀ req', Means command req' ↔ req = req') : ParsedRight command (0, req) where
  accepts req' := by
    rw [h req', Prod.mk.injEq]
    exact and_iff_right rfl
  blank := ⟨fun heq => absurd heq (show (0 : Int) ≠ 1 by decide), fun heq => absurd heq hblank⟩
  rejects := ⟨fun heq => absurd heq (show (0 : Int) ≠ -1 by decide), fun hnot => absurd ⟨req, (h req).2 rfl⟩ hnot.2⟩

lemma means_balance {req : ClientRequest} : Means (bytes "balance") req ↔ noRequest = req := by
  constructor
  · intro h
    generalize hcommand : bytes "balance" = command at h
    cases h with
    | balance => rfl
    | verb hargs hreq => exact absurd hcommand.symm (Verb.ne_balance _ _)
  · rintro rfl
    exact Means.balance

lemma not_means_nil : ¬ ∃ req, Means [] req := by
  rintro ⟨req, h⟩
  generalize hcommand : ([] : List UInt8) = command at h
  cases h with
  | balance => exact absurd hcommand.symm (List.cons_ne_nil _ _)
  | verb hargs hreq => exact absurd hcommand.symm (Verb.word_ne_nil _ _)

/-- A command is parsed as it is meant unless `sscanf` reads its numbers and they are not tidy: a blank is missing in front
of one, one has a sign or does not fit in 64 bits, or something follows the last one. -/
theorem parseCommand_right_iff (undef : Undefined) (command : List UInt8) :
    ParsedRight command (parseCommand undef command) ↔
      ∀ (v : Verb) (s : List UInt8), command = v.word ++ s → Reads undef v.count s → Tidy v.count s := by
  by_cases hverb : ∃ (v : Verb) (s : List UInt8), command = v.word ++ s
  · obtain ⟨v, s, rfl⟩ := hverb
    have hmeans : ∀ req, Means (v.word ++ s) req ↔ _ := fun req => means_verb undef
    have hone : (∀ (v' : Verb) (s' : List UInt8), v.word ++ s = v'.word ++ s' → Reads undef v'.count s' → Tidy v'.count s') ↔
        (Reads undef v.count s → Tidy v.count s) := by
      constructor
      · exact fun h => h v s rfl
      · intro h v' s' heq
        obtain ⟨rfl, rfl⟩ := Verb.eq_of_word heq
        exact h
    rw [hone, parseCommand_verb, Verb.parsed]
    by_cases hreads : Reads undef v.count s
    · obtain ⟨req, hreq⟩ := Verb.request_some ((reads_iff undef _ _).1 hreads)
      rw [hreq, Option.map_some, Option.getD_some]
      constructor
      · intro hright _
        exact ((hmeans req).1 ((hright.accepts req).1 rfl)).1
      · intro htidy
        apply parsedRight_accepted (v.word_ne_nil s)
        intro req'
        rw [hmeans req', hreq, Option.some.injEq]
        exact ⟨fun h => h.2.2, fun h => ⟨htidy hreads, hreads, h⟩⟩
    · rw [Verb.request_none fun h => hreads ((reads_iff undef _ _).2 h), Option.map_none, Option.getD_none]
      have hnot : ¬ ∃ req, Means (v.word ++ s) req := fun ⟨req, h⟩ => hreads ((hmeans req).1 h).2.1
      exact ⟨fun _ h => absurd h hreads, fun _ => parsedRight_refused (v.word_ne_nil s) hnot _⟩
  · have hcond : ∀ (v : Verb) (s : List UInt8), command = v.word ++ s → Reads undef v.count s → Tidy v.count s :=
      fun v s heq => absurd ⟨v, s, heq⟩ hverb
    refine ⟨fun _ => hcond, fun _ => ?_⟩
    by_cases hblank : command = []
    · subst hblank
      rw [parseCommand, if_pos rfl]
      exact ⟨fun req => ⟨fun heq => absurd (congrArg Prod.fst heq) (show (1 : Int) ≠ 0 by decide), fun h => absurd ⟨req, h⟩ not_means_nil⟩,
        ⟨fun _ => rfl, fun _ => rfl⟩, ⟨fun heq => absurd heq (by decide), fun h => absurd rfl h.1⟩⟩
    · by_cases hbalance : command = bytes "balance"
      · subst hbalance
        exact parsedRight_accepted hblank fun req => means_balance
      · rw [parseCommand_other hblank hbalance hverb]
        apply parsedRight_refused hblank
        rintro ⟨req, h⟩
        cases h with
        | balance => exact hbalance rfl
        | verb hargs hreq => exact hverb ⟨_, _, rfl⟩

/-- `deposit -5` asks for a deposit of 2^64 - 5. -/
theorem parseCommand_takes_sign : ¬ ∀ (undef : Undefined) (command : List UInt8), ParsedRight command (parseCommand undef command) := by
  intro h
  have hparsed : parseCommand (fun _ _ => none) (bytes "deposit -5") = (0, ⟨.deposit, 0, 0, -5⟩) := by decide
  have hmeans := ((h (fun _ _ => none) (bytes "deposit -5")).accepts ⟨.deposit, 0, 0, -5⟩).1 hparsed
  have htidy := ((means_verb (fun _ _ => none) (v := .deposit) (s := bytes " -5")).1 hmeans).1
  exact absurd htidy.2.1 (by decide)

end

end Cs300Projects.Vunmo
