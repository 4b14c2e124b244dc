import Cs300Projects.Lib.Loop
import Cs300Projects.WeensyOS.Regstate

/-!
# Processes, exceptions and system calls

`kernel`, `process_setup`, `exception`, `syscall`, `schedule` and `run` of `kernel.cc`. The process
table and the variable `current` are in physical memory, inside the kernel image. A run alternates
between a process, which may write memory, and its entries into the kernel. Everything that the
properties of a run speak of is recorded in a log.
-/

namespace Cs300Projects.WeensyOS.Processes

open Kernel

def nproc : Nat := 16

/-- The size of a `proc`: `pagetable`, `pid`, `state` and `regs`. -/
def procBytes : Nat := 16 + regstateSize

def procPid : Nat := 8
def procState : Nat := 12
def procRegs : Nat := 16

def pFree : Nat := 0
def pRunnable : Nat := 1
def pBroken : Nat := 3

def intIrq : Nat := 32
def irqTimer : Nat := 0
def pferrUser : Nat := 0x4
def eflagsIf : Nat := 0x200

def syscallGetpid : Nat := 1
def syscallYield : Nat := 2
def syscallPageAllocNumber : Nat := 4

/-- Where the linker has put the process table, `current` and the kernel's page table. The image ends
below the kernel stack. -/
structure ProcLayout extends Layout where
  ptable : Nat
  current : Nat
  kernelPagetable : Nat
  image_le : kernelEnd ≤ kernelStackTop - Kernel.pagesize
  le_ptable : kernelStartAddr ≤ ptable
  ptable_le : ptable + nproc * procBytes ≤ kernelEnd
  le_current : kernelStartAddr ≤ current
  current_le : current + 8 ≤ kernelEnd
  current_apart : Bytes.Apart current 8 ptable (nproc * procBytes)
  pages_apart : Bytes.Apart pages npages ptable (nproc * procBytes)
  pages_current : Bytes.Apart pages npages current 8

/-- How a process has entered the kernel. -/
inductive Entry where
  | exception (num : Nat)
  | syscall
  deriving DecidableEq

/-- What happens in a run. Processes are named by the addresses of their descriptors. -/
inductive Event where
  | entered (p : Nat) (entry : Entry) (ctx : Context)
  | chosen (p : Nat)
  | run (p state : Nat)
  | resumed (p : Nat) (regs : Reg → BitVec 64)
  | broken (p : Nat)
  | spun

/-- `running` is the process that was resumed last. A machine halts at a failed assertion, at a panic
and when `schedule` spins. -/
structure Machine where
  mem : Nat → UInt8
  running : Nat
  halted : Bool
  log : List Event

variable (L : ProcLayout) (checkPagetable : (Nat → UInt8) → Nat → Bool) (fuel : Nat)

def ProcLayout.proc (pid : Nat) : Nat := L.ptable + procBytes * pid

/-- `&ptable[pid]`. -/
def ProcLayout.entry (pid : Int) : Nat := ((L.ptable : Int) + procBytes * pid).toNat

/-- A member of type `pid_t`, which is signed. -/
def readPid (mem : Nat → UInt8) (p : Nat) : Int := (BitVec.ofNat 32 (Bytes.readLE mem (p + procPid) 4)).toInt

def readState (mem : Nat → UInt8) (p : Nat) : Nat := Bytes.readLE mem (p + procState) 4

/-- A round of the loop of `schedule`. -/
def scheduleRound (mem : Nat → UInt8) (pid : Int) : Loop.Round Int Nat :=
  let pid := (pid + 1).tmod nproc
  if readState mem (L.entry pid) = pRunnable then .done (L.entry pid) else .next pid

/-- The access of `n` bytes from `a` on does not fault in the kernel. -/
def mapped (a n : Nat) : Bool :=
  (Kernel.pagesize ≤ a && a + n ≤ memsizePhysical) || (2 ^ 30 ≤ a && a + n ≤ 2 ^ 32)

namespace Machine

def event (m : Machine) (e : Event) : Machine := { m with log := m.log ++ [e] }

def halt (m : Machine) : Machine := { m with halted := true }

def current (m : Machine) : Nat := Bytes.readLE m.mem L.current 8

def write (m : Machine) (a n v : Nat) : Machine := { m with mem := Bytes.writeLE m.mem a n v }

def exceptionReturn (m : Machine) (p : Nat) : Machine :=
  if readState m.mem p = pRunnable then
    ({ m with running := p }).event (.resumed p (popRegs m.mem (p + procRegs)))
  else m.halt

def run (m : Machine) (p : Nat) : Machine :=
  let m := m.event (.run p (readState m.mem p))
  if readState m.mem p = pRunnable then
    let m := m.write L.current 8 p
    if checkPagetable m.mem (Bytes.readLE m.mem p 8) then m.exceptionReturn p else m.halt
  else m.halt

def schedule (m : Machine) : Machine :=
  match Loop.run (scheduleRound L m.mem) fuel (readPid m.mem (m.current L)) with
  | none => (m.event .spun).halt
  | some p => (m.event (.chosen p)).run L checkPagetable p

/-- `current->regs = *regs`. -/
def saveRegs (m : Machine) : Machine :=
  { m with mem := Bytes.blit m.mem (m.current L + procRegs) regstateSize (fun i => m.mem (frame + i)) }

def exception (m : Machine) (num err : Nat) (ctx : Context) : Machine :=
  let m := ({ m with mem := pushException m.mem num err ctx }).event (.entered m.running (.exception num) ctx)
  let m := m.saveRegs L
  let regs := m.current L + procRegs
  if Bytes.readLE m.mem (regs + regIntno) 4 = intIrq + irqTimer then m.schedule L checkPagetable fuel
  else if Bytes.readLE m.mem (regs + regIntno) 4 = intPf then
    if Bytes.readLE m.mem (regs + regErrcode) 8 &&& pferrUser = 0 then m.halt
    else
      let m := (m.write (m.current L + procState) 4 pBroken).event (.broken (m.current L))
      if readState m.mem (m.current L) = pRunnable then m.run L checkPagetable (m.current L)
      else m.schedule L checkPagetable fuel
  else m.halt

/-- The way from a system call that returns back to the process. -/
def syscallReturn (m : Machine) : Machine :=
  if readState m.mem (m.current L) = pRunnable then m else m.halt

def syscallPageAlloc (m : Machine) (addr : Nat) : Machine :=
  match (⟨m.mem, fun _ => ⟨false, 0, 0⟩, []⟩ : State).syscallPageAlloc L.toLayout addr with
  | none => m.halt
  | some (s, _) =>
    if mapped (L.pages + addr / Kernel.pagesize) 1 && mapped addr Kernel.pagesize then
      ({ m with mem := s.mem }).syscallReturn L
    else m.halt

def syscall (m : Machine) (ctx : Context) : Machine :=
  let m := ({ m with mem := pushSyscall m.mem ctx }).event (.entered m.running .syscall ctx)
  let m := m.saveRegs L
  let regs := m.current L + procRegs
  let number := Bytes.readLE m.mem (regs + 8 * Reg.rax.slot) 8
  if number = syscallGetpid then m.syscallReturn L
  else if number = syscallYield then
    (m.write (regs + 8 * Reg.rax.slot) 8 0).schedule L checkPagetable fuel
  else if number = syscallPageAllocNumber then
    m.syscallPageAlloc L (Bytes.readLE m.mem (regs + 8 * Reg.rdi.slot) 8)
  else m.halt

end Machine

/-! ### Steps -/

/-- What a process does: it writes memory, is interrupted, or makes a system call. -/
inductive Action where
  | store (a : Nat) (data : List UInt8)
  | exception (num : Fin 256) (err : BitVec 64) (ctx : Context)
  | syscall (ctx : Context)

def Machine.step (m : Machine) (action : Action) : Machine :=
  if m.halted then m
  else
    match action with
    | .store a data => { m with mem := Bytes.copy m.mem a data }
    | .exception num err ctx => m.exception L checkPagetable fuel num err.toNat ctx
    | .syscall ctx => m.syscall L checkPagetable fuel ctx

def Machine.steps (m : Machine) (actions : List Action) : Machine :=
  actions.foldl (Machine.step L checkPagetable fuel) m

/-! ### Start -/

/-- `init_process(&ptable[pid], 0)`. -/
def initProcess (mem : Nat → UInt8) (p : Nat) : Nat → UInt8 :=
  let mem := Bytes.fill mem (p + procRegs) 0 regstateSize
  let mem := Bytes.writeLE mem (p + procRegs + 8 * Reg.cs.slot) 8 (segselAppCode + 3)
  let mem := Bytes.writeLE mem (p + procRegs + 8 * Reg.fs.slot) 8 (segselAppData + 3)
  let mem := Bytes.writeLE mem (p + procRegs + 8 * Reg.gs.slot) 8 (segselAppData + 3)
  let mem := Bytes.writeLE mem (p + procRegs + 8 * Reg.ss.slot) 8 (segselAppData + 3)
  Bytes.writeLE mem (p + procRegs + 8 * Reg.rflags.slot) 8 eflagsIf

/-- `process_setup(pid, program_name)`; `none` when an assertion fails. -/
def processSetup (mem : Nat → UInt8) (pid : Nat) (program : Program) : Option (Nat → UInt8) :=
  let p := L.proc pid
  let mem := Bytes.writeLE (initProcess mem p) p 8 L.kernelPagetable
  match program.segments.foldlM (State.claimSegment L.toLayout fuel) ⟨mem, fun _ => ⟨false, 0, 0⟩, []⟩ with
  | none => none
  | some s =>
    let s := program.segments.foldl State.loadSegment s
    let mem := Bytes.writeLE s.mem (p + procRegs + 8 * Reg.rip.slot) 8 program.entry
    let stackAddr := procStartAddr + procSize * pid - Kernel.pagesize
    let s : State := ⟨mem, fun _ => ⟨false, 0, 0⟩, []⟩
    if s.used L.toLayout (stackAddr / Kernel.pagesize) then none
    else
      let s := s.claim L.toLayout (stackAddr / Kernel.pagesize)
      let mem := Bytes.writeLE s.mem (p + procRegs + 8 * Reg.rsp.slot) 8 (stackAddr + Kernel.pagesize)
      some (Bytes.writeLE mem (p + procState) 4 pRunnable)

/-- `ptable[pid].pid = pid` and `ptable[pid].state = P_FREE`. -/
def initDescriptor (mem : Nat → UInt8) (pid : Nat) : Nat → UInt8 :=
  Bytes.writeLE (Bytes.writeLE mem (L.proc pid + procPid) 4 pid) (L.proc pid + procState) 4 pFree

/-- The programs that `kernel(command)` sets up, with their process numbers. -/
def initialPrograms (command : Option Program) (allocators : Fin 4 → Program) : List (Nat × Program) :=
  match command with
  | some program => [(1, program)]
  | none => [(1, allocators 0), (2, allocators 1), (3, allocators 2), (4, allocators 3)]

/-- `kernel(command)`; `none` when a program cannot be set up. -/
def kernel (mem : Nat → UInt8) (command : Option Program) (allocators : Fin 4 → Program) : Option Machine :=
  let mem := (List.range nproc).foldl (initDescriptor L) mem
  ((initialPrograms command allocators).foldlM (fun mem r => processSetup L fuel mem r.1 r.2) mem).map fun mem =>
    (⟨mem, 0, false, []⟩ : Machine).run L checkPagetable (L.proc 1)

end Cs300Projects.WeensyOS.Processes
