import Mathlib.Logic.Function.Basic
import Mathlib.Tactic.Common

/-!
# The request handlers of the Vunmo server

`handle_balance` to `handle_charge` of `vunmo-server.cc` on the accounts that the worker has
locked, and sequences of such calls over a set of accounts.
-/

namespace Cs300Projects.Vunmo

/-- `uint64_t` -/
abbrev Word := BitVec 64

structure Request where
  originClientId : Word
  targetClientId : Word
  amount : Word

structure Response where
  amount : Word
  success : Int
  message : String
  deriving DecidableEq

inductive NotificationType where
  | paymentNotification
  | chargeRequestNotification
  deriving DecidableEq

structure Notification where
  type : NotificationType
  originClientId : Word
  amount : Word
  message : String
  deriving DecidableEq

structure Account where
  id : Word
  balance : Word
  deriving DecidableEq

/-- What a handler returns and writes besides the accounts: its result, the response, and the
notification when it fills one in. -/
structure Handled where
  ret : Int
  resp : Response
  notif : Option Notification
  deriving DecidableEq

/-- `%ld`: the unsigned values are printed as signed ones. -/
def ld (x : Word) : String := toString x.toInt

/-- `none` is the failed assertion that the account is the requester's. -/
def handleBalance (req : Request) (account : Account) : Option Handled :=
  if req.originClientId = account.id then
    some ⟨0, ⟨account.balance, 1, "[BALANCE] Current BALANCE is " ++ ld account.balance ++ ".\n"⟩, none⟩
  else none

def handleDeposit (req : Request) (account : Account) : Account × Handled :=
  let account := { account with balance := account.balance + req.amount }
  (account, ⟨0, ⟨account.balance, 1, "[DEPOSIT] Deposited " ++ ld req.amount ++ ". Balance is now " ++
    ld account.balance ++ ".\n"⟩, none⟩)

def handleWithdraw (req : Request) (account : Account) : Account × Handled :=
  if account.balance < req.amount then
    (account, ⟨-1, ⟨account.balance, 0, "[WITHDRAW] Failed to WITHDRAWAL " ++ ld req.amount ++
      " from BALANCE of " ++ ld account.balance ++ ".\n"⟩, none⟩)
  else
    let account := { account with balance := account.balance - req.amount }
    (account, ⟨0, ⟨account.balance, 1, "[WITHDRAW] Withdrew " ++ ld req.amount ++ ". Balance is now " ++
      ld account.balance ++ ".\n"⟩, none⟩)

def handlePay (req : Request) (first second : Account) : Account × Account × Handled :=
  -- check for insufficient BALANCE
  if first.balance < req.amount then
    (first, second, ⟨-1, ⟨first.balance, 0, "[PAY] Insufficient BALANCE (" ++ ld first.balance ++
      ") to PAYMENT " ++ ld req.amount ++ " to client " ++ ld req.targetClientId ++ ".\n"⟩, none⟩)
  else
    -- perform payment
    let first := { first with balance := first.balance - req.amount }
    let second := { second with balance := second.balance + req.amount }
    (first, second, ⟨0, ⟨first.balance, 1, "[PAY] Payed " ++ ld req.amount ++ " to client " ++
      ld req.targetClientId ++ ". Balance now " ++ ld first.balance ++ ".\n"⟩,
      some ⟨.paymentNotification, first.id, req.amount, "[PAY] Client " ++ ld first.id ++ " paid you " ++
        ld req.amount ++ ". Balance now " ++ ld second.balance ++ ".\n"⟩⟩)

def handleCharge (req : Request) (first second : Account) : Handled :=
  ⟨0, ⟨first.balance, 1, "[CHARGE] Requested " ++ ld req.amount ++ " from client " ++ ld second.id ++
    ".\n"⟩, some ⟨.chargeRequestNotification, first.id, req.amount, "[CHARGE] Client " ++ ld first.id ++
    " is requesting " ++ ld req.amount ++ ".\n"⟩⟩

/-! ### Sequences of calls -/

section Calls

variable {ι : Type*} [DecidableEq ι]

/-- A call of a handler, with the accounts that the worker has locked for it. -/
inductive Call (ι : Type*) where
  | balance (req : Request) (account : ι)
  | deposit (req : Request) (account : ι)
  | withdraw (req : Request) (account : ι)
  | pay (req : Request) (first second : ι) (distinct : first ≠ second)
  | charge (req : Request) (first second : ι) (distinct : first ≠ second)

namespace Call

def exec (accounts : ι → Account) : Call ι → Option (Handled × (ι → Account))
  | balance req a => (handleBalance req (accounts a)).map (fun h => (h, accounts))
  | deposit req a =>
    let (account, h) := handleDeposit req (accounts a)
    some (h, Function.update accounts a account)
  | withdraw req a =>
    let (account, h) := handleWithdraw req (accounts a)
    some (h, Function.update accounts a account)
  | pay req a b _ =>
    let (first, second, h) := handlePay req (accounts a) (accounts b)
    some (h, Function.update (Function.update accounts a first) b second)
  | charge req a b _ => some (handleCharge req (accounts a) (accounts b), accounts)

/-- The account of the client that made the request. -/
def requester : Call ι → ι
  | balance _ a => a
  | deposit _ a => a
  | withdraw _ a => a
  | pay _ a _ _ => a
  | charge _ a _ _ => a

end Call

/-- Run the calls one after the other; `none` when an assertion fails. -/
def run (accounts : ι → Account) : List (Call ι) → Option (List Handled × (ι → Account))
  | [] => some ([], accounts)
  | c :: calls =>
    match c.exec accounts with
    | none => none
    | some (h, accounts') =>
      match run accounts' calls with
      | none => none
      | some (hs, accounts'') => some (h :: hs, accounts'')

end Calls

end Cs300Projects.Vunmo
