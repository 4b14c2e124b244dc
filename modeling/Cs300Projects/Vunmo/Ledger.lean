import Cs300Projects.Vunmo.Handlers
import Mathlib.Algebra.BigOperators.Fin
import Mathlib.Data.Fintype.BigOperators
import Mathlib.Tactic.Linarith
import Mathlib.Tactic.Ring

/-!
# Money in the accounts

The sum of the balances, as integers, against the amounts that the handlers report as deposited
and withdrawn. Balances are added modulo 2^64, so money is lost exactly where a sum does not fit.
-/

namespace Cs300Projects.Vunmo

variable {ι : Type*} [DecidableEq ι]

namespace Call

/-- The amount of a successful deposit. -/
def deposited (h : Handled) : Call ι → ℤ
  | deposit req _ => if h.ret = 0 then req.amount.toNat else 0
  | _ => 0

/-- The amount of a successful withdrawal. -/
def withdrawn (h : Handled) : Call ι → ℤ
  | withdraw req _ => if h.ret = 0 then req.amount.toNat else 0
  | _ => 0

/-- The balance that the call adds to, if any, can hold the sum. -/
def Fits (accounts : ι → Account) : Call ι → Prop
  | deposit req a => (accounts a).balance.toNat + req.amount.toNat < 2 ^ 64
  | pay req a b _ => req.amount ≤ (accounts a).balance →
      (accounts b).balance.toNat + req.amount.toNat < 2 ^ 64
  | _ => True

instance (accounts : ι → Account) (c : Call ι) : Decidable (c.Fits accounts) := by
  cases c <;> unfold Fits <;> infer_instance

/-- The call never writes an account. -/
def ReadOnly : Call ι → Prop
  | balance _ _ => True
  | charge _ _ _ _ => True
  | _ => False

end Call

def moneyIn : List (Call ι) → List Handled → ℤ
  | c :: calls, h :: hs => c.deposited h + moneyIn calls hs
  | _, _ => 0

def moneyOut : List (Call ι) → List Handled → ℤ
  | c :: calls, h :: hs => c.withdrawn h + moneyOut calls hs
  | _, _ => 0

/-- Every call of the run answers with the requester's balance, and writes no account when it
fails or only asks. -/
def AnswersTrue (accounts : ι → Account) : List (Call ι) → Prop
  | [] => True
  | c :: calls => ∀ h accounts', c.exec accounts = some (h, accounts') →
      h.resp.amount = (accounts' c.requester).balance ∧ (h.ret = -1 → accounts' = accounts) ∧
      (c.ReadOnly → accounts' = accounts) ∧ AnswersTrue accounts' calls

/-- Every sum of the run fits in the balance that it is stored in. -/
def AllFit (accounts : ι → Account) : List (Call ι) → Prop
  | [] => True
  | c :: calls => c.Fits accounts ∧ ∀ h accounts', c.exec accounts = some (h, accounts') → AllFit accounts' calls

/-! ### Answers -/

lemma exec_answer {accounts accounts' : ι → Account} {c : Call ι} {h : Handled}
    (hexec : c.exec accounts = some (h, accounts')) :
    h.resp.amount = (accounts' c.requester).balance ∧ (h.ret = -1 → accounts' = accounts) ∧
      (c.ReadOnly → accounts' = accounts) := by
  cases c with
  | balance req a =>
    simp only [Call.exec, handleBalance, Option.map_eq_some_iff, Prod.mk.injEq] at hexec
    obtain ⟨_, hsome, rfl, rfl⟩ := hexec
    by_cases hid : req.originClientId = (accounts a).id
    · rw [if_pos hid, Option.some.injEq] at hsome
      rw [← hsome]
      exact ⟨rfl, fun _ => rfl, fun _ => rfl⟩
    · simp [hid] at hsome
  | deposit req a =>
    simp only [Call.exec, handleDeposit, Option.some.injEq, Prod.mk.injEq] at hexec
    obtain ⟨rfl, rfl⟩ := hexec
    refine ⟨?_, fun hret => absurd hret (by simp), fun hread => absurd hread id⟩
    rw [Call.requester, Function.update_self]
  | withdraw req a =>
    simp only [Call.exec, handleWithdraw] at hexec
    by_cases hlt : (accounts a).balance < req.amount
    · simp only [hlt, if_true, Option.some.injEq, Prod.mk.injEq, Function.update_eq_self] at hexec
      obtain ⟨rfl, rfl⟩ := hexec
      exact ⟨rfl, fun _ => rfl, fun _ => rfl⟩
    · simp only [hlt, if_false, Option.some.injEq, Prod.mk.injEq] at hexec
      obtain ⟨rfl, rfl⟩ := hexec
      refine ⟨?_, fun hret => absurd hret (by simp), fun hread => absurd hread id⟩
      rw [Call.requester, Function.update_self]
  | pay req a b hab =>
    simp only [Call.exec, handlePay] at hexec
    by_cases hlt : (accounts a).balance < req.amount
    · simp only [hlt, if_true, Option.some.injEq, Prod.mk.injEq, Function.update_eq_self] at hexec
      obtain ⟨rfl, rfl⟩ := hexec
      exact ⟨rfl, fun _ => rfl, fun _ => rfl⟩
    · simp only [hlt, if_false, Option.some.injEq, Prod.mk.injEq] at hexec
      obtain ⟨rfl, rfl⟩ := hexec
      refine ⟨?_, fun hret => absurd hret (by simp), fun hread => absurd hread id⟩
      rw [Call.requester, Function.update_of_ne hab, Function.update_self]
  | charge req a b hab =>
    simp only [Call.exec, handleCharge, Option.some.injEq, Prod.mk.injEq] at hexec
    obtain ⟨rfl, rfl⟩ := hexec
    exact ⟨rfl, fun _ => rfl, fun _ => rfl⟩

lemma run_cons {accounts : ι → Account} {c : Call ι} {calls : List (Call ι)} {hs : List Handled}
    {accounts' : ι → Account} (hrun : run accounts (c :: calls) = some (hs, accounts')) :
    ∃ h accounts₁ hs', c.exec accounts = some (h, accounts₁) ∧
      run accounts₁ calls = some (hs', accounts') ∧ hs = h :: hs' := by
  rw [run] at hrun
  cases hexec : c.exec accounts with
  | none => simp [hexec] at hrun
  | some ha =>
    obtain ⟨h, accounts₁⟩ := ha
    rw [hexec] at hrun
    dsimp only at hrun
    cases hrest : run accounts₁ calls with
    | none => simp [hrest] at hrun
    | some hs₁ =>
      obtain ⟨hs', accounts₂⟩ := hs₁
      rw [hrest] at hrun
      simp only [Option.some.injEq, Prod.mk.injEq] at hrun
      exact ⟨h, accounts₁, hs', rfl, by rw [hrest, hrun.2], hrun.1.symm⟩

lemma answersTrue (accounts : ι → Account) (calls : List (Call ι)) : AnswersTrue accounts calls := by
  induction calls generalizing accounts with
  | nil => trivial
  | cons c calls ih =>
    intro h accounts' hexec
    obtain ⟨hamount, hfail, hread⟩ := exec_answer hexec
    exact ⟨hamount, hfail, hread, ih accounts'⟩

/-! ### The total -/

section Total

variable [Fintype ι]

def total (accounts : ι → Account) : ℤ := ∑ i, ((accounts i).balance.toNat : ℤ)

lemma total_update (accounts : ι → Account) (a : ι) (account : Account) :
    total (Function.update accounts a account) =
      total accounts - (accounts a).balance.toNat + account.balance.toNat := by
  have hupdate : (fun i => ((Function.update accounts a account i).balance.toNat : ℤ)) =
      Function.update (fun i => ((accounts i).balance.toNat : ℤ)) a account.balance.toNat := by
    funext i
    by_cases hi : i = a
    · rw [hi, Function.update_self, Function.update_self]
    · rw [Function.update_of_ne hi, Function.update_of_ne hi]
  unfold total
  rw [hupdate, Finset.sum_update_of_mem (Finset.mem_univ a), ← Finset.add_sum_erase _ _ (Finset.mem_univ a),
    Finset.erase_eq]
  ring

/-- Addition of balances loses 2^64 exactly when the sum does not fit. -/
lemma toNat_add_wrap (x y : Word) : ((x + y).toNat : ℤ) =
    x.toNat + y.toNat - if x.toNat + y.toNat < 2 ^ 64 then 0 else 2 ^ 64 := by
  have hx := x.isLt
  have hy := y.isLt
  rw [BitVec.toNat_add]
  split
  · omega
  · omega

lemma toNat_sub_of_not_lt {x y : Word} (h : ¬x < y) : ((x - y).toNat : ℤ) = x.toNat - y.toNat := by
  rw [BitVec.lt_def, not_lt] at h
  rw [BitVec.toNat_sub_of_le (by rw [BitVec.le_def]; exact h)]
  omega

lemma exec_total {accounts accounts' : ι → Account} {c : Call ι} {h : Handled}
    (hexec : c.exec accounts = some (h, accounts')) : total accounts' =
      total accounts + c.deposited h - c.withdrawn h - if c.Fits accounts then 0 else 2 ^ 64 := by
  cases c with
  | balance req a =>
    simp only [Call.exec, Option.map_eq_some_iff, Prod.mk.injEq] at hexec
    obtain ⟨_, _, _, rfl⟩ := hexec
    simp [Call.deposited, Call.withdrawn, Call.Fits]
  | deposit req a =>
    simp only [Call.exec, handleDeposit, Option.some.injEq, Prod.mk.injEq] at hexec
    obtain ⟨rfl, rfl⟩ := hexec
    rw [total_update]
    simp only [Call.deposited, Call.withdrawn, Call.Fits, if_true]
    rw [toNat_add_wrap]
    ring
  | withdraw req a =>
    simp only [Call.exec, handleWithdraw] at hexec
    by_cases hlt : (accounts a).balance < req.amount
    · simp only [hlt, if_true, Option.some.injEq, Prod.mk.injEq] at hexec
      obtain ⟨rfl, rfl⟩ := hexec
      simp [Call.deposited, Call.withdrawn, Call.Fits]
    · simp only [hlt, if_false, Option.some.injEq, Prod.mk.injEq] at hexec
      obtain ⟨rfl, rfl⟩ := hexec
      rw [total_update, if_pos (show (Call.withdraw req a).Fits accounts from trivial)]
      simp only [Call.deposited, Call.withdrawn, if_true]
      rw [toNat_sub_of_not_lt hlt]
      ring
  | pay req a b hab =>
    simp only [Call.exec, handlePay] at hexec
    by_cases hlt : (accounts a).balance < req.amount
    · simp only [hlt, if_true, Option.some.injEq, Prod.mk.injEq] at hexec
      obtain ⟨rfl, rfl⟩ := hexec
      have hfits : (Call.pay req a b hab).Fits accounts := by
        intro hle
        rw [BitVec.le_def] at hle
        rw [BitVec.lt_def] at hlt
        omega
      rw [if_pos hfits]
      simp [Call.deposited, Call.withdrawn]
    · simp only [hlt, if_false, Option.some.injEq, Prod.mk.injEq] at hexec
      obtain ⟨rfl, rfl⟩ := hexec
      have hle : req.amount ≤ (accounts a).balance := by
        rw [BitVec.lt_def, not_lt] at hlt
        rw [BitVec.le_def]
        exact hlt
      rw [total_update, total_update, Function.update_of_ne hab.symm]
      simp only [Call.deposited, Call.withdrawn, Call.Fits, hle, forall_true_left]
      rw [toNat_add_wrap, toNat_sub_of_not_lt hlt]
      ring
  | charge req a b hab =>
    simp only [Call.exec, Option.some.injEq, Prod.mk.injEq] at hexec
    obtain ⟨_, rfl⟩ := hexec
    simp [Call.deposited, Call.withdrawn, Call.Fits]

/-- A run never creates money, and loses none exactly when all its sums fit. -/
lemma run_total {accounts accounts' : ι → Account} {calls : List (Call ι)} {hs : List Handled}
    (hrun : run accounts calls = some (hs, accounts')) :
    total accounts' ≤ total accounts + moneyIn calls hs - moneyOut calls hs ∧
      (total accounts' = total accounts + moneyIn calls hs - moneyOut calls hs ↔
        AllFit accounts calls) := by
  induction calls generalizing accounts hs with
  | nil =>
    rw [run, Option.some.injEq, Prod.mk.injEq] at hrun
    rw [← hrun.1, ← hrun.2]
    simp [moneyIn, moneyOut, AllFit]
  | cons c calls ih =>
    obtain ⟨h, accounts₁, hs', hexec, hrest, rfl⟩ := run_cons hrun
    obtain ⟨hle, hiff⟩ := ih hrest
    have hstep := exec_total hexec
    have hallfit : AllFit accounts (c :: calls) ↔ c.Fits accounts ∧ AllFit accounts₁ calls := by
      constructor
      · intro hfit
        exact ⟨hfit.1, hfit.2 h accounts₁ hexec⟩
      · rintro ⟨hfit, hrestfit⟩
        refine ⟨hfit, fun h' accounts₁' hexec' => ?_⟩
        rw [hexec, Option.some.injEq, Prod.mk.injEq] at hexec'
        rw [← hexec'.2]
        exact hrestfit
    rw [hallfit, ← hiff]
    simp only [moneyIn, moneyOut]
    -- a lost 2^64 is never made good by a later call
    by_cases hfit : c.Fits accounts
    · rw [if_pos hfit] at hstep
      simp only [hfit, true_and]
      constructor
      · linarith
      · constructor
        · intro heq
          linarith
        · intro heq
          linarith
    · rw [if_neg hfit] at hstep
      simp only [hfit, false_and, iff_false]
      constructor
      · linarith
      · intro heq
        linarith

/-- Over a run of the handlers the total changes by the successful deposits and withdrawals and
every answer is true, exactly when no deposit and no payment overflows the balance it goes to. -/
theorem handlers_conserve_iff (accounts accounts' : ι → Account) (calls : List (Call ι))
    (hs : List Handled) (hrun : run accounts calls = some (hs, accounts')) :
    (total accounts' = total accounts + moneyIn calls hs - moneyOut calls hs ∧
      AnswersTrue accounts calls) ↔ AllFit accounts calls := by
  rw [← (run_total hrun).2]
  exact ⟨fun h => h.1, fun h => ⟨h, answersTrue accounts calls⟩⟩

end Total

/-- Two clients with one dollar each, and a payment between them that goes well. -/
theorem handlers_conserve_iff_sample : ∃ hs accounts',
    run (fun i : Fin 2 => ⟨BitVec.ofNat 64 i, 1#64⟩) [.pay ⟨0#64, 1#64, 1#64⟩ 0 1 (by decide)] =
      some (hs, accounts') ∧ total accounts' = 2 := by
  refine ⟨_, _, rfl, ?_⟩
  have hlaw := (handlers_conserve_iff (fun i : Fin 2 => ⟨BitVec.ofNat 64 i, 1#64⟩) _
    [.pay ⟨0#64, 1#64, 1#64⟩ 0 1 (by decide)] _ rfl).2
    ⟨by decide, fun _ _ _ => trivial⟩
  rw [hlaw.1]
  decide

/-- A client with one dollar and a client whose balance is 2^64 - 1. -/
def fullAccounts : Fin 2 → Account :=
  fun i => if i.val = 0 then ⟨0#64, 1#64⟩ else ⟨1#64, 0xFFFFFFFFFFFFFFFF#64⟩

/-- One dollar paid to the client whose balance is full: the payment succeeds, and no money is left. -/
theorem payment_loses_money : ∃ hs accounts',
    run fullAccounts [.pay ⟨0#64, 1#64, 1#64⟩ 0 1 (by decide)] = some (hs, accounts') ∧
      hs.map Handled.ret = [0] ∧ total accounts' = 0 ∧
      ¬total accounts' = total fullAccounts +
        moneyIn [Call.pay ⟨0#64, 1#64, 1#64⟩ (0 : Fin 2) 1 (by decide)] hs -
        moneyOut [Call.pay ⟨0#64, 1#64, 1#64⟩ (0 : Fin 2) 1 (by decide)] hs :=
  ⟨_, _, rfl, by decide, by decide, by decide⟩

end Cs300Projects.Vunmo
