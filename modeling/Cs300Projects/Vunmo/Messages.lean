import Cs300Projects.Vunmo.Handlers
import Mathlib.Data.Nat.Log
import Mathlib.Data.Nat.Digits.Defs

/-!
# The messages of the Vunmo server

The handlers `sprintf` their messages into fields of `RESP_STR_LEN` bytes, also
`handle_missing_clients` and `handle_unknown_request`, which are modelled here. Every message fits,
except the one for a payment that the payer cannot make.
-/

namespace Cs300Projects.Vunmo

def respStrLen : Nat := 100

/-- The message and its terminating NUL fit in the field. All the texts are ASCII. -/
def Fits (message : String) : Prop := message.length + 1 ≤ respStrLen

instance (message : String) : Decidable (Fits message) := inferInstanceAs (Decidable (_ ≤ _))

/-! ### Requests that no handler takes -/

def ecliNotFound : Int := 1
def etarNotFound : Int := 2
def eselfAction : Int := 3

/-- The message that `handle_missing_clients` writes for the error. -/
def missingMessage (err : Int) (req : Request) : Option String :=
  if err = -ecliNotFound then none
  else if err = -etarNotFound then
    some ("[ERROR]: target client " ++ ld req.targetClientId ++ " not found.\n")
  else if err = -eselfAction then
    some ("[ERROR]: target cannot be self [" ++ ld req.targetClientId ++ "].\n")
  else none

/-- `type` is what came in the type field, printed with `%d`. -/
def handleUnknownRequest (type : BitVec 32) : Handled :=
  ⟨0, ⟨0, 0, "[ERROR] Unknown request type " ++ toString type.toInt ++ ".\n"⟩, none⟩

/-- A handler with its arguments. -/
inductive Reply where
  | balance (req : Request) (account : Account)
  | deposit (req : Request) (account : Account)
  | withdraw (req : Request) (account : Account)
  | pay (req : Request) (first second : Account)
  | charge (req : Request) (first second : Account)
  | missingClients (err : Int) (req : Request)
  | unknownRequest (type : BitVec 32)

def Handled.messages (h : Handled) : List String := h.resp.message :: (h.notif.map Notification.message).toList

/-- The messages that the handler writes, whether or not they are sent. -/
def Reply.messages : Reply → List String
  | balance req account => ((handleBalance req account).map Handled.messages).getD []
  | deposit req account => (handleDeposit req account).2.messages
  | withdraw req account => (handleWithdraw req account).2.messages
  | pay req first second => (handlePay req first second).2.2.messages
  | charge req first second => (handleCharge req first second).messages
  | missingClients err req => (missingMessage err req).toList
  | unknownRequest type => (handleUnknownRequest type).messages

/-! ### Lengths -/

/-- The number of characters of a decimal number, with its sign. -/
def decimalLength (x : Int) : Nat := Nat.log 10 x.natAbs + 1 + if x < 0 then 1 else 0

lemma length_repr (n : Nat) : (Nat.repr n).length = Nat.log 10 n + 1 := by
  rw [Nat.repr, String.length_ofList]
  induction n using Nat.strongRecOn with
  | ind n ih =>
    by_cases h : n < 10
    · simp [Nat.toDigits_of_lt_base h, Nat.log_of_lt h]
    · have hle : 10 ≤ n := Nat.le_of_not_lt h
      rw [Nat.toDigits_of_base_le (by decide) hle, List.length_append, ih (n / 10) (by omega),
        Nat.log_of_one_lt_of_le (by decide) hle]
      rfl

lemma length_toString (x : Int) : (toString x).length = decimalLength x := by
  unfold decimalLength
  cases x with
  | ofNat n =>
    rw [if_neg (by simp)]
    exact length_repr n
  | negSucc n =>
    have htext : toString (Int.negSucc n) = "-" ++ Nat.repr (n + 1) := rfl
    rw [if_pos (Int.negSucc_lt_zero n), htext, String.length_append, length_repr, Int.natAbs_negSucc]
    exact Nat.add_comm _ _

lemma decimalLength_le {x : Int} {k : Nat} (h : x.natAbs < 10 ^ k) (hk : k ≠ 0) :
    decimalLength x ≤ k + 1 := by
  have hlog : Nat.log 10 x.natAbs < k := by
    by_cases h0 : x.natAbs = 0
    · rw [h0, Nat.log_zero_right]
      exact Nat.pos_of_ne_zero hk
    · exact Nat.log_lt_of_lt_pow h0 h
  unfold decimalLength
  split <;> omega

lemma length_ld_le (x : Word) : (ld x).length ≤ 20 := by
  unfold ld
  rw [length_toString]
  have hlt := x.toInt_lt
  have hle := x.le_toInt
  exact decimalLength_le (k := 19) (by omega) (by decide)

lemma length_d_le (x : BitVec 32) : (toString x.toInt).length ≤ 11 := by
  rw [length_toString]
  have hlt := x.toInt_lt
  have hle := x.le_toInt
  exact decimalLength_le (k := 10) (by omega) (by decide)

section Fits

variable {a b c d : String} {x y z : Word}

lemma fits_one (h : a.length + b.length ≤ 79) : Fits (a ++ ld x ++ b) := by
  have hx := length_ld_le x
  unfold Fits respStrLen
  simp only [String.length_append]
  omega

lemma fits_two (h : a.length + b.length + c.length ≤ 59) : Fits (a ++ ld x ++ b ++ ld y ++ c) := by
  have hx := length_ld_le x
  have hy := length_ld_le y
  unfold Fits respStrLen
  simp only [String.length_append]
  omega

lemma fits_three (h : a.length + b.length + c.length + d.length ≤ 39) :
    Fits (a ++ ld x ++ b ++ ld y ++ c ++ ld z ++ d) := by
  have hx := length_ld_le x
  have hy := length_ld_le y
  have hz := length_ld_le z
  unfold Fits respStrLen
  simp only [String.length_append]
  omega

lemma fits_three_iff (h : a.length + b.length + c.length + d.length = 54) :
    Fits (a ++ ld x ++ b ++ ld y ++ c ++ ld z ++ d) ↔
      ¬ 45 < decimalLength x.toInt + decimalLength y.toInt + decimalLength z.toInt := by
  have hx : (ld x).length = decimalLength x.toInt := length_toString _
  have hy : (ld y).length = decimalLength y.toInt := length_toString _
  have hz : (ld z).length = decimalLength z.toInt := length_toString _
  unfold Fits respStrLen
  simp only [String.length_append]
  omega

end Fits

/-- The decimal digits of the payer's balance, the amount and the target are too many for the message that
says that the balance is insufficient, which has 54 other characters. -/
def Overlong (req : Request) (payer : Account) : Prop :=
  45 < decimalLength payer.balance.toInt + decimalLength req.amount.toInt +
    decimalLength req.targetClientId.toInt

instance (req : Request) (payer : Account) : Decidable (Overlong req payer) :=
  inferInstanceAs (Decidable (_ < _))

/-- The reply to a payment that the payer cannot make and whose numbers are too long. -/
def Reply.Overlong : Reply → Prop
  | pay req first _ => first.balance < req.amount ∧ Vunmo.Overlong req first
  | _ => False

lemma handlePay_messages_fit (req : Request) (first second : Account) :
    (∀ m ∈ (handlePay req first second).2.2.messages, Fits m) ↔
      ¬ (first.balance < req.amount ∧ Overlong req first) := by
  unfold handlePay Handled.messages
  by_cases h : first.balance < req.amount
  · simp only [h, if_true, true_and, Option.map_none, Option.toList_none, List.forall_mem_singleton, Overlong]
    exact fits_three_iff rfl
  · simp only [h, if_false, false_and, not_false_iff, iff_true, Option.map_some, Option.toList_some,
      List.forall_mem_cons]
    exact ⟨fits_three (by decide), fits_three (by decide), by simp⟩

/-- The messages fit exactly when the reply is not one of the overlong ones. -/
theorem messages_fit (r : Reply) : (∀ m ∈ r.messages, Fits m) ↔ ¬ r.Overlong := by
  cases r with
  | balance req account =>
    simp only [Reply.messages, Reply.Overlong, not_false_iff, iff_true, handleBalance]
    by_cases h : req.originClientId = account.id
    · simpa [h, Handled.messages] using fits_one (by decide)
    · simp [h]
  | deposit req account =>
    simpa [Reply.messages, Reply.Overlong, handleDeposit, Handled.messages] using fits_two (by decide)
  | withdraw req account =>
    simp only [Reply.messages, Reply.Overlong, not_false_iff, iff_true, handleWithdraw]
    by_cases h : account.balance < req.amount
    · simpa [h, Handled.messages] using fits_two (by decide)
    · simpa [h, Handled.messages] using fits_two (by decide)
  | pay req first second => exact handlePay_messages_fit req first second
  | charge req first second =>
    simp only [Reply.messages, Reply.Overlong, not_false_iff, iff_true, handleCharge, Handled.messages,
      Option.map_some, Option.toList_some, List.forall_mem_cons]
    exact ⟨fits_two (by decide), fits_two (by decide), by simp⟩
  | missingClients err req =>
    simp only [Reply.messages, Reply.Overlong, not_false_iff, iff_true, missingMessage]
    by_cases hcli : err = -ecliNotFound
    · simp [hcli]
    · by_cases htar : err = -etarNotFound
      · simp only [if_neg hcli, if_pos htar, Option.toList_some, List.forall_mem_singleton]
        exact fits_one (by decide)
      · by_cases hself : err = -eselfAction
        · simp only [if_neg hcli, if_neg htar, if_pos hself, Option.toList_some, List.forall_mem_singleton]
          exact fits_one (by decide)
        · simp [hcli, htar, hself]
  | unknownRequest type =>
    have htext : "[ERROR] Unknown request type ".length + ".\n".length = 31 := rfl
    have htype := length_d_le type
    simp only [Reply.messages, Reply.Overlong, not_false_iff, iff_true, handleUnknownRequest, Handled.messages,
      Option.map_none, Option.toList_none, List.forall_mem_singleton, Fits, respStrLen, String.length_append]
    omega

/-- A payment of 2⁶³ + 1 to client 100000 out of a balance of 2⁶³. -/
theorem messages_fit_fails : ¬ ∀ r : Reply, ∀ m ∈ r.messages, Fits m := by
  intro h
  have hfit := (messages_fit (.pay ⟨1, 100000, 0x8000000000000001⟩ ⟨1, 0x8000000000000000⟩ ⟨100000, 0⟩)).1 (h _)
  exact hfit ⟨by decide, by decide⟩

end Cs300Projects.Vunmo
