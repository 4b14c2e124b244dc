import Cs300Projects.WeensyOS.KernelEntries
import Cs300Projects.WeensyOS.ProgramLoader

/-!
# The allocator processes

`process_main` of `p-allocator.cc`, as the four processes that `kernel` sets up run it. All of them share the page table of
the kernel, so that each could write anywhere. What the compiler adds to the source, on the stack and in the variables of
`rand`, is left open, as are the numbers that `rand` returns and the moments at which the timer interrupts.
-/

namespace Cs300Projects.WeensyOS.Allocator

open Bytes Kernel Processes

def allocSlowdown : Nat := 100

/-- The cell of `console[CPOS(24, 79)]`. -/
def cell : Nat := console + 2 * (24 * 80 + 79)

/-- Where the linker scripts put the program of process `i + 1`. -/
def regionStart (i : Fin 4) : Nat := procStartAddr + procSize * i

def stackStart (i : Fin 4) : Nat := procStartAddr + procSize * (i + 1) - Kernel.pagesize

/-- A linked `p-allocator.cc`: the symbol `end`, and the variables on the data page. -/
structure Binary (i : Fin 4) where
  program : Program
  endAddr : Nat
  heapTop : Nat
  stackBottom : Nat
  segments : ∀ seg ∈ program.segments,
    0 < seg.size ∧ seg.data.length ≤ seg.size ∧ regionStart i ≤ seg.va ∧ seg.va + seg.size ≤ endAddr
  disjoint : program.segments.Pairwise fun a b => ∀ page, a.Touches page → ¬b.Touches page
  endAddr_le : endAddr ≤ stackStart i
  heapTop_mem : regionStart i ≤ heapTop ∧ heapTop + 8 ≤ endAddr
  stackBottom_mem : regionStart i ≤ stackBottom ∧ stackBottom + 8 ≤ endAddr
  apart : Apart heapTop 8 stackBottom 8

/-- The page right after `end`. -/
def Binary.heapStart {i : Fin 4} (b : Binary i) : Nat := roundUp b.endAddr Kernel.pagesize

/-- Where the code of process `i + 1` may write besides `heap_top` and `stack_bottom`. -/
def Binary.Scratch {i : Fin 4} (b : Binary i) (a n : Nat) : Prop :=
  (stackStart i ≤ a ∧ a + n ≤ stackStart i + Kernel.pagesize) ∨
    (regionStart i ≤ a ∧ a + n ≤ b.endAddr ∧ (a + n ≤ b.heapTop ∨ b.heapTop + 8 ≤ a) ∧
      (a + n ≤ b.stackBottom ∨ b.stackBottom + 8 ≤ a))

instance {i : Fin 4} (b : Binary i) (a n : Nat) : Decidable (b.Scratch a n) :=
  inferInstanceAs (Decidable (_ ∧ _ ∨ _ ∧ _ ∧ _ ∧ _))

/-- What a process does next. -/
inductive Pc where
  | getpid
  | setHeapTop
  | setStackBottom
  | loop
  | alloc
  | storePid
  | showPid
  | advanceHeap
  | yield
  | idle
  deriving DecidableEq

/-- The program counter, and `p` in a register. -/
structure Local where
  pc : Pc
  p : Int

structure System where
  machine : Machine
  locals : Fin 4 → Local

inductive Input where
  /-- The running process goes on. -/
  | run (rsp r : Nat) (ctx : Context) (d : Display)
  /-- It writes to its stack, or to a variable of `lib.cc`. -/
  | scratch (a : Nat) (data : List UInt8)
  | timer (ctx : Context) (d : Display)

/-- The registers for a system call. -/
def call (ctx : Context) (number arg : Nat) : Context where
  reg r :=
    match r with
    | .rax => BitVec.ofNat 64 number
    | .rdi => BitVec.ofNat 64 arg
    | r => ctx.reg r
  fs_lt := ctx.fs_lt
  gs_lt := ctx.gs_lt
  cs_eq := ctx.cs_eq
  ss_eq := ctx.ss_eq

def storeWord (a n v : Nat) : Action := .store a ((List.range n).map fun k => UInt8.ofNat (v / 256 ^ k))

/-- `INT_IRQ + IRQ_TIMER` -/
def timerInterrupt : Fin 256 := ⟨intIrq + irqTimer, by decide⟩

variable (S : SystemLayout) (B : ∀ i, Binary i) (fuel : Nat)

namespace System

def running (s : System) : Option (Fin 4) := (List.finRange 4).find? fun i => s.machine.running == S.proc (i + 1)

def act (s : System) (d : Display) (action : Action) : Machine := s.machine.showStep S fuel d action

/-- The value of a `pid_t` as it is stored in a smaller variable. -/
def word (p : Int) : Nat := (BitVec.ofInt 32 p).toNat

/-- A step of `process_main` of process `i + 1`. -/
def advance (s : System) (i : Fin 4) (rsp r : Nat) (ctx : Context) (d : Display) : System :=
  let l := s.locals i
  let heapTop := readLE s.machine.mem (B i).heapTop 8
  let goto (m : Machine) (pc : Pc) : System := ⟨m, Function.update s.locals i ⟨pc, l.p⟩⟩
  match l.pc with
  | .getpid =>
    let m := s.act S fuel d (.syscall (call ctx syscallGetpid (ctx.word .rdi)))
    ⟨m, Function.update s.locals i ⟨.setHeapTop, readPid m.mem (m.current S.toProcLayout)⟩⟩
  | .setHeapTop => goto (s.act S fuel d (storeWord (B i).heapTop 8 (B i).heapStart)) .setStackBottom
  | .setStackBottom => goto (s.act S fuel d (storeWord (B i).stackBottom 8 (roundDown (rsp - 1) Kernel.pagesize))) .loop
  | .loop => goto s.machine (if r < l.p then .alloc else .yield)
  | .alloc =>
    if heapTop = readLE s.machine.mem (B i).stackBottom 8 then goto s.machine .idle
    else
      let memory : State := ⟨s.machine.mem, fun _ => ⟨false, 0, 0⟩, []⟩
      let result := (memory.syscallPageAlloc S.toLayout heapTop).map Prod.snd
      goto (s.act S fuel d (.syscall (call ctx syscallPageAllocNumber heapTop)))
        (if result.any (· < 0) then .idle else .storePid)
  | .storePid => goto (s.act S fuel d (storeWord heapTop 1 (word l.p))) .showPid
  | .showPid => goto (s.act S fuel d (storeWord cell 2 (word l.p))) .advanceHeap
  | .advanceHeap => goto (s.act S fuel d (storeWord (B i).heapTop 8 (heapTop + Kernel.pagesize))) .yield
  | .yield => goto (s.act S fuel d (.syscall (call ctx syscallYield (ctx.word .rdi)))) .loop
  | .idle => goto (s.act S fuel d (.syscall (call ctx syscallYield (ctx.word .rdi)))) .idle

/-- A step of the system; `none` when the input cannot occur. -/
def step (s : System) (input : Input) : Option System :=
  if s.machine.halted then none
  else
    match input with
    | .run rsp r ctx d =>
      (s.running S).bind fun i =>
        if r < allocSlowdown ∧ stackStart i < rsp ∧ rsp ≤ stackStart i + Kernel.pagesize then
          some (s.advance S B fuel i rsp r ctx d)
        else none
    | .scratch a data =>
      (s.running S).bind fun i =>
        if (B i).Scratch a data.length then
          some { s with machine := { s.machine with mem := copy s.machine.mem a data } }
        else none
    | .timer ctx d => some { s with machine := s.act S fuel d (.exception timerInterrupt 0 ctx) }

def run (s : System) : List Input → Option System
  | [] => some s
  | input :: inputs => (s.step S B fuel input).bind fun s' => run s' inputs

end System

/-- Where the linker has put the objects of `S`: behind the data segment, apart from the segment descriptors. -/
structure Linked (S : SystemLayout) (D : KernelData) (K : KernelBss D) : Prop where
  kernelEnd_eq : S.kernelEnd = D.kernelEnd
  tables_eq : K.tables = S.tables
  le_pages : D.edata ≤ S.pages
  le_nextAllocPa : D.edata ≤ S.nextAllocPa
  le_view : D.edata ≤ S.view
  apart_pages : Apart S.pages npages K.segments 56
  apart_nextAllocPa : Apart S.nextAllocPa 8 K.segments 56
  apart_view : Apart S.view 8 K.segments 56

/-- `kernel(nullptr)` in the memory that the kernel is loaded to: `init_kernel_memory`, the loop over the kernel page table,
and the four processes before their first instruction. -/
def boot {D : KernelData} (K : KernelBss D) (mem : Nat → UInt8) : Option System :=
  match D.runMemory K fuel mem [.remap] with
  | some (.ok mem) =>
    (kernel S.toProcLayout S.check fuel mem none fun i => (B i).program).map fun m => ⟨m, fun _ => ⟨.getpid, 0⟩⟩
  | _ => none

end Cs300Projects.WeensyOS.Allocator
