import Cs300Projects.Lib.Stack
import Cs300Projects.WeensyOS.Kernel

/-!
# Registers at entry to and return from the kernel

The pushes of `exception_entry` and `syscall_entry` and the pops of `exception_return` in
`k-exception.S`, over the order of `regstate` in `x86-64.h`. A register that was pushed at entry is in
the slot from which `exception_return` pops it.
-/

namespace Cs300Projects.WeensyOS.Processes

open Kernel (kernelStackTop)

inductive Reg where
  | rax | rcx | rdx | rbx | rbp | rsi | rdi
  | r8 | r9 | r10 | r11 | r12 | r13 | r14 | r15
  | fs | gs | rip | cs | rflags | rsp | ss
  deriving DecidableEq

/-- The index of a member in `regstate`. The members 17 and 18 are `reg_intno`, `reg_swapgs` and
`reg_errcode`. -/
def Reg.slot : Reg → Nat
  | rax => 0
  | rcx => 1
  | rdx => 2
  | rbx => 3
  | rbp => 4
  | rsi => 5
  | rdi => 6
  | r8 => 7
  | r9 => 8
  | r10 => 9
  | r11 => 10
  | r12 => 11
  | r13 => 12
  | r14 => 13
  | r15 => 14
  | fs => 15
  | gs => 16
  | rip => 19
  | cs => 20
  | rflags => 21
  | rsp => 22
  | ss => 23

def regIntno : Nat := 8 * 17
def regErrcode : Nat := 8 * 18
def regstateSize : Nat := 8 * 24

/-- Segment registers take the low 16 bits of what is popped into them. -/
def Reg.isSelector : Reg → Bool
  | fs | gs | cs | ss => true
  | _ => false

def Reg.load (r : Reg) (w : Nat) : BitVec 64 := BitVec.ofNat 64 (if r.isSelector then w % 2 ^ 16 else w)

def segselAppCode : Nat := 0x18
def segselAppData : Nat := 0x20

/-- The registers of a process. In user mode `%cs` and `%ss` can hold no other selectors. -/
structure Context where
  reg : Reg → BitVec 64
  fs_lt : (reg .fs).toNat < 2 ^ 16
  gs_lt : (reg .gs).toNat < 2 ^ 16
  cs_eq : (reg .cs).toNat = segselAppCode + 3
  ss_eq : (reg .ss).toNat = segselAppData + 3

def intDf : Nat := 8
def intTs : Nat := 10
def intPf : Nat := 14
def intAc : Nat := 17

inductive Push where
  | reg (r : Reg)
  | imm (w : Nat)
  | skip

def Push.word (regs : Reg → Nat) : Push → Option Nat
  | reg r => some (regs r)
  | imm w => some w
  | skip => none

/-! ### Exceptions -/

/-- The exceptions for which the processor pushes an error code. -/
def HasErrcode (num : Nat) : Prop := num = intDf ∨ (intTs ≤ num ∧ num ≤ intPf) ∨ num = intAc

instance (num : Nat) : Decidable (HasErrcode num) := inferInstanceAs (Decidable (_ ∨ _ ∧ _ ∨ _))

/-- What the processor pushes. -/
def interruptFrame (num err : Nat) : List Push :=
  [.reg .ss, .reg .rsp, .reg .rflags, .reg .cs, .reg .rip] ++ if HasErrcode num then [.imm err] else []

def exceptionHandler (num : Nat) : List Push :=
  (if num ≠ intDf ∧ (num < intTs ∨ intPf < num) ∧ num ≠ intAc then [.imm 0] else []) ++ [.imm num]

def exceptionEntry : List Push :=
  [.reg .gs, .reg .fs, .reg .r15, .reg .r14, .reg .r13, .reg .r12, .reg .r11, .reg .r10, .reg .r9, .reg .r8,
    .reg .rdi, .reg .rsi, .reg .rbp, .reg .rbx, .reg .rdx, .reg .rcx, .reg .rax]

/-- The address of the `regstate` on the kernel stack. -/
def frame : Nat := kernelStackTop - regstateSize

def Context.word (ctx : Context) (r : Reg) : Nat := (ctx.reg r).toNat

def pushException (m : Nat → UInt8) (num err : Nat) (ctx : Context) : Nat → UInt8 :=
  Stack.push m kernelStackTop
    ((interruptFrame num err ++ exceptionHandler num ++ exceptionEntry).map (Push.word ctx.word))

/-! ### System calls -/

/-- The instruction `syscall` leaves `%rip` in `%rcx` and `%rflags` in `%r11`. -/
def afterSyscall (ctx : Context) : Reg → Nat
  | .rcx => ctx.word .rip
  | .r11 => ctx.word .rflags
  | r => ctx.word r

def syscallEntry : List Push :=
  [.imm (segselAppData + 3), .skip, .reg .r11, .imm (segselAppCode + 3), .reg .rcx, .skip, .imm (2 ^ 64 - 1),
    .reg .gs, .reg .fs, .reg .r15, .reg .r14, .reg .r13, .reg .r12, .skip, .reg .r10, .reg .r9, .reg .r8,
    .reg .rdi, .reg .rsi, .reg .rbp, .reg .rbx, .reg .rdx, .skip, .reg .rax]

def pushSyscall (m : Nat → UInt8) (ctx : Context) : Nat → UInt8 :=
  Stack.push (Bytes.writeLE m (kernelStackTop - 16) 8 (ctx.word .rsp)) kernelStackTop
    (syscallEntry.map (Push.word (afterSyscall ctx)))

/-! ### Return -/

/-- The pops of `exception_return` from `regs` on, with those of `iretq`. -/
def exceptionReturnPops : List (Option Reg) :=
  [some .rax, some .rcx, some .rdx, some .rbx, some .rbp, some .rsi, some .rdi, some .r8, some .r9, some .r10,
    some .r11, some .r12, some .r13, some .r14, some .r15, some .fs, some .gs, none, none,
    some .rip, some .cs, some .rflags, some .rsp, some .ss]

/-- The registers that are loaded from the `regstate` at `regs`. -/
def popRegs (m : Nat → UInt8) (regs : Nat) (r : Reg) : BitVec 64 :=
  r.load (Stack.pop m regs exceptionReturnPops (fun _ => 0) r)

/-! ### What is pushed is popped -/

lemma popRegs_eq (m : Nat → UInt8) (regs : Nat) (r : Reg) :
    popRegs m regs r = r.load (Bytes.readLE m (regs + 8 * r.slot) 8) := by
  unfold popRegs
  rw [Stack.pop_eq m regs _ (j := r.slot)]
  · cases r <;> rfl
  · cases r <;> rfl

lemma Context.load_word (ctx : Context) (r : Reg) : r.load (ctx.word r) = ctx.reg r := by
  have hword : BitVec.ofNat 64 (ctx.word r) = ctx.reg r :=
    BitVec.ofNat_toNat 64 (ctx.reg r) |>.trans (BitVec.setWidth_eq _)
  unfold Reg.load
  by_cases hsel : r.isSelector = true
  · have hlt : ctx.word r < 2 ^ 16 := by
      cases r with
      | fs => exact ctx.fs_lt
      | gs => exact ctx.gs_lt
      | cs => exact Nat.lt_of_le_of_lt (Nat.le_of_eq ctx.cs_eq) (by decide)
      | ss => exact Nat.lt_of_le_of_lt (Nat.le_of_eq ctx.ss_eq) (by decide)
      | _ => cases hsel
    rw [if_pos hsel, Nat.mod_eq_of_lt hlt, hword]
  · rw [if_neg hsel, hword]

lemma Context.word_lt (ctx : Context) (r : Reg) : ctx.word r < 256 ^ 8 :=
  Nat.lt_of_lt_of_le (ctx.reg r).isLt (by decide)

/-- The words of the `regstate`, from the top down. -/
def exceptionWords (num err : Nat) : List Push :=
  [.reg .ss, .reg .rsp, .reg .rflags, .reg .cs, .reg .rip, .imm err, .imm num] ++ exceptionEntry

/-- The handler pushes an error code when the processor has not done so. -/
lemma exceptionFrame_eq (num err : Nat) : interruptFrame num err ++ exceptionHandler num ++ exceptionEntry =
    exceptionWords num (if HasErrcode num then err else 0) := by
  unfold interruptFrame exceptionHandler
  have hiff : (num ≠ intDf ∧ (num < intTs ∨ intPf < num) ∧ num ≠ intAc) ↔ ¬ HasErrcode num := by
    unfold HasErrcode intDf intTs intPf intAc
    omega
  by_cases herr : HasErrcode num
  · rw [if_pos herr, if_pos herr, if_neg (fun h => hiff.1 h herr)]
    rfl
  · rw [if_neg herr, if_neg herr, if_pos (hiff.2 herr)]
    rfl

lemma exceptionWords_length (num err : Nat) : (exceptionWords num err).length = 24 := rfl

section PushException

variable (m : Nat → UInt8) (num err : Nat) (ctx : Context)

/-- A word of the frame is `8 * k` bytes above its start. -/
lemma readLE_pushException {k w : Nat} (hk : k < 24) (hw : w < 256 ^ 8)
    (hpush : ((exceptionWords num (if HasErrcode num then err else 0)).map (Push.word ctx.word))[23 - k]? =
      some (some w)) : Bytes.readLE (pushException m num err ctx) (frame + 8 * k) 8 = w := by
  have hplace : kernelStackTop - 8 * (23 - k + 1) = frame + 8 * k := by
    unfold frame kernelStackTop regstateSize
    omega
  unfold pushException
  rw [exceptionFrame_eq, ← hplace]
  exact Stack.readLE_push_word m (by rw [List.length_map, exceptionWords_length]; decide) hpush hw

lemma pushException_reg (r : Reg) :
    Bytes.readLE (pushException m num err ctx) (frame + 8 * r.slot) 8 = ctx.word r := by
  apply readLE_pushException
  · cases r <;> decide
  · exact ctx.word_lt r
  · cases r <;> rfl

lemma pushException_intno (hnum : num < 256 ^ 4) :
    Bytes.readLE (pushException m num err ctx) (frame + regIntno) 4 = num := by
  have hword := readLE_pushException m num err ctx (k := 17) (w := num) (by decide)
    (Nat.lt_of_lt_of_le hnum (by decide)) rfl
  have hlow := Bytes.readLE_low (pushException m num err ctx) (frame + regIntno) 4 4
  rw [show Bytes.readLE (pushException m num err ctx) (frame + regIntno) (4 + 4) = num from hword] at hlow
  rw [hlow, Nat.mod_eq_of_lt hnum]

lemma pushException_outside {x : Nat} (hx : Bytes.Outside x frame regstateSize) :
    pushException m num err ctx x = m x := by
  unfold pushException
  rw [exceptionFrame_eq]
  apply Stack.push_outside
  · rw [List.length_map, exceptionWords_length]
    decide
  · exact hx

end PushException

section PushSyscall

variable (m : Nat → UInt8) (ctx : Context)

/-- Only `%rcx` and `%r11` are lost at a system call. -/
lemma pushSyscall_reg {r : Reg} (hrcx : r ≠ .rcx) (hr11 : r ≠ .r11) :
    Bytes.readLE (pushSyscall m ctx) (frame + 8 * r.slot) 8 = ctx.word r := by
  have hslot : r.slot < 24 := by cases r <;> decide
  have hplace : kernelStackTop - 8 * (23 - r.slot + 1) = frame + 8 * r.slot := by
    unfold frame kernelStackTop regstateSize
    omega
  unfold pushSyscall
  rw [← hplace]
  by_cases hrsp : r = .rsp
  · -- `%rsp` was stored before the pushes, which skip its slot
    subst hrsp
    rw [Stack.readLE_push _ (by rw [List.length_map]; decide) (w := none) rfl]
    exact Bytes.readLE_writeLE_of_lt (ctx.word_lt .rsp)
  · apply Stack.readLE_push_word _ (by rw [List.length_map]; decide) ?_ (ctx.word_lt r)
    cases r with
    | rcx => exact absurd rfl hrcx
    | r11 => exact absurd rfl hr11
    | rsp => exact absurd rfl hrsp
    | cs => exact congrArg (fun w => some (some w)) ctx.cs_eq.symm
    | ss => exact congrArg (fun w => some (some w)) ctx.ss_eq.symm
    | _ => rfl

lemma pushSyscall_outside {x : Nat} (hx : Bytes.Outside x frame regstateSize) : pushSyscall m ctx x = m x := by
  unfold pushSyscall
  have hbelow : Bytes.Outside x (kernelStackTop - 16) 8 := by
    unfold Bytes.Outside frame regstateSize kernelStackTop at *
    omega
  rw [Stack.push_outside _ (by rw [List.length_map]; decide) hx, Bytes.writeLE_outside hbelow]

end PushSyscall

end Cs300Projects.WeensyOS.Processes
