import Cs300Projects.Lib.Lines
import Cs300Projects.Lib.Loop
import Cs300Projects.Vunmo.Handlers

/-!
# The answer to a charge request

`print_charge_request` asks its user whether a charge is to be paid. It reads the answer with `fgets` into three bytes, that
is, two characters at a time, and the end of a longer line may be taken for a line of its own.
-/

namespace Cs300Projects.Vunmo

open Lines Loop

inductive RequestType where
  | balance
  | deposit
  | withdrawal
  | payment
  | charge
  deriving DecidableEq

/-- A request as the client sends it. -/
structure ClientRequest where
  type : RequestType
  originClientId : Word
  targetClientId : Word
  amount : Word
  deriving DecidableEq

structure Client where
  id : Word
  isConnected : Bool

/-- What becomes of a request: whether the whole of it is written, and whether a whole response is read. -/
structure Wire where
  wrote : Bool
  got : Bool

/-- The requests that the server got, the client afterwards, and the result. -/
structure Made where
  sent : Option ClientRequest
  client : Client
  ret : Int

def Client.makeRequest (c : Client) (req : ClientRequest) (wire : Wire) : Made :=
  if ¬ c.isConnected then ⟨none, c, -1⟩
  else if ¬ wire.wrote then ⟨none, { c with isConnected := false }, -1⟩
  else if ¬ wire.got then ⟨some { req with originClientId := c.id }, { c with isConnected := false }, -1⟩
  else ⟨some { req with originClientId := c.id }, c, 0⟩

def Client.handleChargeRequest (c : Client) (n : Notification) (accept : Bool) (wire : Wire) : Made :=
  if ¬ accept then ⟨none, c, 0⟩
  else c.makeRequest ⟨.payment, c.id, n.originClientId, n.amount⟩ wire

/-! ### Reading the answer -/

/-- The byte of an ASCII character. -/
def byte (c : Char) : UInt8 := UInt8.ofNat c.toNat

/-- The characters of a string up to the NUL. -/
def cstr (s : List UInt8) : List UInt8 := s.takeWhile (· ≠ 0)

/-- One turn of the loop: an answer, the end of the input, or another turn with the rest of the input. -/
def answerRound (stdin : List UInt8) : Round (List UInt8) (Option Bool) :=
  match fgets (byte '\n') 3 stdin with
  | none => .done none
  | some (resp, stdin) =>
    if cstr resp = [byte 'y', byte '\n'] then .done (some true)
    else if cstr resp = [byte 'n', byte '\n'] then .done (some false)
    else .next stdin

/-- What `print_charge_request` does: with which argument it calls `handle_charge_request`, if it does. -/
structure Printed where
  accepted : Option Bool
  made : Made

/-- Every turn of the loop takes a character off the input. The outer `none` is a loop that is not left. -/
def Client.printChargeRequest (c : Client) (n : Notification) (stdin : List UInt8) (wire : Wire) : Option Printed :=
  (Loop.run answerRound (stdin.length + 1) stdin).map fun
    | none => ⟨none, none, c, -1⟩
    | some accept => ⟨some accept, c.handleChargeRequest n accept wire⟩

/-! ### What the lines of the input say -/

/-- The line is `y` or `n`. -/
def Exact (l : List UInt8) : Prop := l = [byte 'y'] ∨ l = [byte 'n']

/-- The line is longer, but its last piece of two characters is that of a line `y` or `n`. -/
def Misleading (l : List UInt8) : Prop :=
  3 ≤ l.length ∧ l.length % 2 = 1 ∧ (l.getLast? = some (byte 'y') ∨ l.getLast? = some (byte 'n'))

instance : DecidablePred Exact := fun _ => inferInstanceAs (Decidable (_ ∨ _))
instance : DecidablePred Misleading := fun _ => inferInstanceAs (Decidable (_ ∧ _))

/-- The letter of an answer. -/
def letter (l : List UInt8) : Bool := l.getLast? = some (byte 'y')

/-- The first line that is exactly `y` or `n` decides. -/
def verdict (lines : List (List UInt8)) : Option Bool := (lines.find? fun l => Exact l).map letter

/-- The line that decides in `print_charge_request`. -/
def decision (lines : List (List UInt8)) : Option Bool := (lines.find? fun l => Exact l ∨ Misleading l).map letter

/-- No misleading line stands before the first exact line, or the first one that does has the letter of the exact line. -/
def Clear (lines : List (List UInt8)) : Prop :=
  ∀ l ∈ (lines.takeWhile fun l => ¬ Exact l).find? (fun l => Misleading l), verdict lines = some (letter l)

/-- The charge is accepted, declined or left as the lines say, and it is paid only if it is accepted. -/
structure Printed.Right (stdin : List UInt8) (p : Printed) : Prop where
  accepted_eq : p.accepted = verdict (completeLines (byte '\n') stdin)
  pays : p.made.sent ≠ none → verdict (completeLines (byte '\n') stdin) = some true
  ended : verdict (completeLines (byte '\n') stdin) = none → p.made.ret = -1

section

variable {c d : UInt8} {l stdin : List UInt8} {lines : List (List UInt8)}

lemma decides_cons_cons : (Exact (c :: d :: l) ∨ Misleading (c :: d :: l)) ↔ (Exact l ∨ Misleading l) := by
  unfold Exact Misleading
  cases l with
  | nil => simp
  | cons e l =>
    cases l with
    | nil => simp
    | cons f l =>
      rw [List.getLast?_cons_cons, List.getLast?_cons_cons]
      simp only [List.length_cons, List.cons.injEq, List.cons_ne_nil, and_false, or_self, false_or]
      constructor
      · rintro ⟨-, hodd, hlast⟩
        exact ⟨by omega, by omega, hlast⟩
      · rintro ⟨-, hodd, hlast⟩
        exact ⟨by omega, by omega, hlast⟩

/-- A piece of a line that does not end it makes no difference to what the line says. -/
lemma decision_piece (lines : List (List UInt8)) : decision ((lines.modifyHead (d :: ·)).modifyHead (c :: ·)) = decision lines := by
  cases lines with
  | nil => rfl
  | cons l ls =>
    unfold decision
    rw [List.modifyHead_cons, List.modifyHead_cons, List.find?_cons, List.find?_cons]
    simp only [decides_cons_cons]
    by_cases h : Exact l ∨ Misleading l
    · rw [decide_eq_true h]
      have hne : l ≠ [] := by
        rintro rfl
        revert h
        decide
      obtain ⟨e, l, rfl⟩ := List.exists_cons_of_ne_nil hne
      rfl
    · rw [decide_eq_false h]

lemma cstr_ne_of_length {s t : List UInt8} (h : s.length < t.length) : cstr s ≠ t := by
  rintro rfl
  exact absurd (List.takeWhile_sublist _).length_le (Nat.not_le_of_lt h)

lemma cstr_ne_of_end {e f : UInt8} (h : d ≠ f) : cstr [c, d] ≠ [e, f] := by
  intro heq
  have hprefix := List.takeWhile_prefix (fun x : UInt8 => decide (x ≠ 0)) (l := [c, d])
  unfold cstr at heq
  rw [heq] at hprefix
  have heq' := hprefix.eq_of_length rfl
  simp only [List.cons.injEq, and_true] at heq'
  exact h heq'.2.symm

lemma cstr_ne_of_start {e : UInt8} (h : c ≠ e) (he : e ≠ 0) : cstr (c :: l) ≠ e :: stdin := by
  intro heq
  have hhead := congrArg List.head? heq
  unfold cstr at hhead
  rw [List.head?_takeWhile] at hhead
  simp_all

/-- A character at the end of the input is no answer. -/
lemma answerRound_last (hc : c ≠ byte '\n') : answerRound [c] = .next [] := by
  have hread : fgets (byte '\n') 3 [c] = some ([c], []) := by
    simp [fgets, readLine, hc]
  have hne : ∀ e f, cstr [c] ≠ [e, f] := fun e f => cstr_ne_of_length Nat.one_lt_two
  rw [answerRound, hread]
  dsimp only
  rw [if_neg (hne _ _), if_neg (hne _ _)]

/-- Nor are two characters that do not end a line. -/
lemma answerRound_piece (hc : c ≠ byte '\n') (hd : d ≠ byte '\n') : answerRound (c :: d :: stdin) = .next stdin := by
  have hread : fgets (byte '\n') 3 (c :: d :: stdin) = some ([c, d], stdin) := by
    simp [fgets, readLine, hc, hd]
  rw [answerRound, hread]
  dsimp only
  rw [if_neg (cstr_ne_of_end hd), if_neg (cstr_ne_of_end hd)]

/-- A character at the end of a line is one, if it is the right one. -/
lemma answerRound_line (hc : c ≠ byte '\n') : answerRound (c :: byte '\n' :: stdin) =
    if c = byte 'y' then .done (some true) else if c = byte 'n' then .done (some false) else .next stdin := by
  have hread : fgets (byte '\n') 3 (c :: byte '\n' :: stdin) = some ([c, byte '\n'], stdin) := by
    simp [fgets, readLine, hc]
  rw [answerRound, hread]
  dsimp only
  by_cases hy : c = byte 'y'
  · subst hy
    rfl
  · rw [if_neg (cstr_ne_of_start hy (by decide)), if_neg hy]
    by_cases hn : c = byte 'n'
    · subst hn
      rfl
    · rw [if_neg (cstr_ne_of_start hn (by decide)), if_neg hn]

/-- One turn of the loop leaves the decision to the rest of the input, or makes it. -/
lemma answerRound_cases (stdin : List UInt8) :
    answerRound stdin = .done (decision (completeLines (byte '\n') stdin)) ∨
      ∃ rest, answerRound stdin = .next rest ∧ rest.length < stdin.length ∧
        decision (completeLines (byte '\n') rest) = decision (completeLines (byte '\n') stdin) := by
  match stdin with
  | [] => exact Or.inl rfl
  | [c] =>
    by_cases hc : c = byte '\n'
    · subst hc
      exact Or.inr ⟨[], rfl, Nat.one_pos, rfl⟩
    · refine Or.inr ⟨[], answerRound_last hc, Nat.one_pos, ?_⟩
      rw [completeLines_cons hc]
      rfl
  | c :: d :: s =>
    by_cases hc : c = byte '\n'
    · subst hc
      refine Or.inr ⟨d :: s, rfl, Nat.lt_succ_self _, ?_⟩
      rw [completeLines_end]
      rfl
    by_cases hd : d = byte '\n'
    · subst hd
      rw [answerRound_line hc, completeLines_cons hc, completeLines_end, List.modifyHead_cons, decision, List.find?_cons]
      by_cases hy : c = byte 'y'
      · subst hy
        exact Or.inl rfl
      by_cases hn : c = byte 'n'
      · subst hn
        exact Or.inl rfl
      have hline : ¬ (Exact [c] ∨ Misleading [c]) := by
        simp [Exact, Misleading, hy, hn]
      rw [if_neg hy, if_neg hn, decide_eq_false hline]
      exact Or.inr ⟨s, rfl, by simp only [List.length_cons]; omega, rfl⟩
    · refine Or.inr ⟨s, answerRound_piece hc hd, by simp only [List.length_cons]; omega, ?_⟩
      rw [completeLines_cons hc, completeLines_cons hd, decision_piece]

/-- The loop is left, with the decision of the lines. -/
lemma run_answerRound (stdin : List UInt8) :
    Loop.run answerRound (stdin.length + 1) stdin = some (decision (completeLines (byte '\n') stdin)) := by
  have htotal := run_total answerRound
    (fun rest => decision (completeLines (byte '\n') rest) = decision (completeLines (byte '\n') stdin))
    (fun answer => answer = decision (completeLines (byte '\n') stdin)) List.length
    (by
      intro s s' hs hnext
      rcases answerRound_cases s with hdone | ⟨rest, hround, hlength, hrest⟩
      · rw [hdone] at hnext
        cases hnext
      · rw [hround, Round.next.injEq] at hnext
        subst hnext
        exact ⟨hrest.trans hs, hlength⟩)
    (by
      intro s answer hs hdone
      rcases answerRound_cases s with hround | ⟨rest, hround, -, -⟩
      · rw [hround, Round.done.injEq] at hdone
        rw [← hdone, hs]
      · rw [hround] at hdone
        cases hdone)
    (n := stdin.length + 1) (s := stdin) rfl (Nat.lt_succ_self _)
  obtain ⟨answer, hrun, rfl⟩ := htotal
  exact hrun

/-- A charge that is not accepted is not paid. -/
lemma handleChargeRequest_sent {cl : Client} {n : Notification} {wire : Wire} {accept : Bool}
    (h : (cl.handleChargeRequest n accept wire).sent ≠ none) : accept = true := by
  cases accept with
  | true => rfl
  | false => exact absurd rfl h

lemma verdict_cons_exact (h : Exact l) : verdict (l :: lines) = some (letter l) := by
  rw [verdict, List.find?_cons, decide_eq_true h]
  rfl

lemma verdict_cons (h : ¬ Exact l) : verdict (l :: lines) = verdict lines := by
  rw [verdict, List.find?_cons, decide_eq_false h]
  rfl

/-- The decision is that of the first exact line, unless a misleading line before it says otherwise. -/
lemma decision_eq_verdict_iff (lines : List (List UInt8)) : decision lines = verdict lines ↔ Clear lines := by
  induction lines with
  | nil => exact ⟨fun _ _ hl => absurd hl (by simp), fun _ => rfl⟩
  | cons l lines ih =>
    by_cases hexact : Exact l
    · have hclear : Clear (l :: lines) := by
        intro l' hl'
        rw [List.takeWhile_cons_of_neg (by simpa using hexact)] at hl'
        exact absurd hl' (by simp)
      rw [verdict_cons_exact hexact, decision, List.find?_cons, decide_eq_true (Or.inl hexact)]
      exact ⟨fun _ => hclear, fun _ => rfl⟩
    · have hwhile : (l :: lines).takeWhile (fun l => decide (¬ Exact l)) = l :: lines.takeWhile (fun l => decide (¬ Exact l)) :=
        List.takeWhile_cons_of_pos (by simpa using hexact)
      unfold Clear at ih ⊢
      rw [hwhile, verdict_cons hexact, decision, List.find?_cons, List.find?_cons]
      by_cases hmisleading : Misleading l
      · rw [decide_eq_true (Or.inr hmisleading), decide_eq_true hmisleading, Option.map_some]
        constructor
        · intro h l' hl'
          rw [Option.mem_some_iff] at hl'
          rw [← hl', h]
        · intro h
          exact (h l rfl).symm
      · rw [decide_eq_false (not_or.2 ⟨hexact, hmisleading⟩), decide_eq_false hmisleading]
        exact ih

/-- The user's answer is taken as the lines say exactly when no misleading line that says otherwise comes first. -/
theorem printChargeRequest_right_iff (cl : Client) (n : Notification) (stdin : List UInt8) (wire : Wire) :
    (∃ p, cl.printChargeRequest n stdin wire = some p ∧ p.Right stdin) ↔ Clear (completeLines (byte '\n') stdin) := by
  have hrun := run_answerRound stdin
  rw [← decision_eq_verdict_iff]
  unfold Client.printChargeRequest
  rw [hrun, Option.map_some]
  cases hdecision : decision (completeLines (byte '\n') stdin) with
  | none =>
    constructor
    · rintro ⟨p, hp, hright⟩
      rw [Option.some.injEq] at hp
      subst hp
      exact hright.accepted_eq
    · intro hverdict
      exact ⟨_, rfl, hverdict, fun h => absurd rfl h, fun _ => rfl⟩
  | some accept =>
    constructor
    · rintro ⟨p, hp, hright⟩
      rw [Option.some.injEq] at hp
      subst hp
      exact hright.accepted_eq
    · intro hverdict
      refine ⟨_, rfl, hverdict, ?_, ?_⟩
      · intro hsent
        rw [← hverdict, handleChargeRequest_sent hsent]
      · intro hnone
        rw [hnone] at hverdict
        cases hverdict

/-- The lines `noy` and `n`. -/
def noy : List UInt8 := [byte 'n', byte 'o', byte 'y', byte '\n', byte 'n', byte '\n']

/-- The line `noy` is taken for a `y`, and the charge is paid. -/
theorem printChargeRequest_pays_noy :
    ¬ ∃ p, Client.printChargeRequest ⟨1, true⟩ ⟨.chargeRequestNotification, 2, 100, ""⟩ noy ⟨true, true⟩ = some p ∧
      p.Right noy := by
  rintro ⟨p, hp, hright⟩
  have haccepted : (Client.printChargeRequest ⟨1, true⟩ ⟨.chargeRequestNotification, 2, 100, ""⟩ noy ⟨true, true⟩).map
      Printed.accepted = some (some true) := by decide
  rw [hp, Option.map_some, Option.some.injEq] at haccepted
  exact absurd (haccepted.symm.trans hright.accepted_eq) (by decide)

end

end Cs300Projects.Vunmo
