import Cs300Projects.Lib.Bytes
import Cs300Projects.Lib.Loop
import Mathlib.Logic.Function.Basic

/-!
# Physical pages in the kernel

`kalloc`, `process_setup` and `syscall_page_alloc` of `kernel.cc` on byte-addressed physical memory.
The array `pages` and the variable `next_alloc_pa` are in that memory, inside the kernel image, so
that a write to the image can change them.
-/

namespace Cs300Projects.WeensyOS.Kernel

def pagesize : Nat := 4096
def kernelStartAddr : Nat := 0x40000
def kernelStackTop : Nat := 0x80000
def iophysmem : Nat := 0xA0000
def extphysmem : Nat := 0x100000
def procStartAddr : Nat := 0x100000
def memsizePhysical : Nat := 0x200000
def npages : Nat := memsizePhysical / pagesize
def procSize : Nat := 0x40000

def roundDown (x multiple : Nat) : Nat := x - x % multiple

def roundUp (x multiple : Nat) : Nat := roundDown (x + multiple - 1) multiple

/-- Where the linker has put the end of the kernel, `pages` and `next_alloc_pa`. A `pageinfo` is one
byte. -/
structure Layout where
  kernelEnd : Nat
  pages : Nat
  nextAllocPa : Nat
  kernelEnd_le : kernelEnd ≤ memsizePhysical
  le_pages : kernelStartAddr ≤ pages
  pages_le : pages + npages ≤ kernelEnd
  le_nextAllocPa : kernelStartAddr ≤ nextAllocPa
  nextAllocPa_le : nextAllocPa + 8 ≤ kernelEnd
  disjoint : pages + npages ≤ nextAllocPa ∨ nextAllocPa + 8 ≤ pages

/-- A loadable segment of a program, as the loader presents it. -/
structure Segment where
  va : Nat
  size : Nat
  data : List UInt8

structure Program where
  segments : List Segment
  entry : Nat

/-- What `process_setup` sets in a process descriptor. -/
structure Proc where
  runnable : Bool
  regRip : Nat
  regRsp : Nat

/-- A page that is given out: the result of a `kalloc`, or a claim of `pages[page]`. -/
inductive Event where
  | returned (pa : Nat)
  | claimed (page : Nat)
  deriving DecidableEq

def Event.page : Event → Nat
  | returned pa => pa / pagesize
  | claimed page => page

structure State where
  mem : Nat → UInt8
  ptable : Nat → Proc
  log : List Event

variable (L : Layout)

def reservedPhysicalAddress (pa : Nat) : Bool :=
  pa < pagesize || (iophysmem ≤ pa && pa < extphysmem)

def allocatablePhysicalAddress (pa : Nat) : Bool :=
  !reservedPhysicalAddress pa
    && (pa < kernelStartAddr || roundUp L.kernelEnd pagesize ≤ pa)
    && (pa < kernelStackTop - pagesize || kernelStackTop ≤ pa)
    && pa < memsizePhysical

namespace State

/-- `pages[page].used()`. -/
def used (s : State) (page : Nat) : Bool := s.mem (L.pages + page) != 0

def nextAllocPa (s : State) : Nat := Bytes.readLE s.mem L.nextAllocPa 8

/-- `pages[page].refcount = 1`. -/
def claim (s : State) (page : Nat) : State := { s with mem := Bytes.fill s.mem (L.pages + page) 1 1 }

def setNextAllocPa (s : State) (pa : Nat) : State := { s with mem := Bytes.writeLE s.mem L.nextAllocPa 8 pa }

def memset (s : State) (a : Nat) (c : UInt8) (n : Nat) : State := { s with mem := Bytes.fill s.mem a c n }

def memcpy (s : State) (a : Nat) (data : List UInt8) : State := { s with mem := Bytes.copy s.mem a data }

def event (s : State) (e : Event) : State := { s with log := s.log ++ [e] }

/-- A round of the loop of `kalloc`. -/
def kallocRound (s : State) : Loop.Round State (State × Option Nat) :=
  if s.nextAllocPa L < memsizePhysical then
    let pa := s.nextAllocPa L
    let s := s.setNextAllocPa L ((pa + pagesize) % 2 ^ 64)
    if allocatablePhysicalAddress L pa && !s.used L (pa / pagesize) then
      .done ((((s.claim L (pa / pagesize)).memset pa 0xCC pagesize).event (.returned pa)), some pa)
    else .next s
  else .done (s, none)

def kalloc (fuel : Nat) (s : State) (sz : Nat) : Option (State × Option Nat) :=
  if pagesize < sz then some (s, none) else Loop.run (kallocRound L) fuel s

/-- A round of the loop over the pages of a segment; `none` when the assertion fails. -/
def claimRound (seg : Segment) (r : State × Nat) : Loop.Round (State × Nat) (Option State) :=
  let (s, a) := r
  if a < (seg.va + seg.size) % 2 ^ 64 then
    if s.used L (a / pagesize) then .done none
    else .next ((s.claim L (a / pagesize)).event (.claimed (a / pagesize)), (a + pagesize) % 2 ^ 64)
  else .done (some s)

def claimSegment (fuel : Nat) (s : State) (seg : Segment) : Option State :=
  (Loop.run (claimRound L seg) fuel (s, roundDown seg.va pagesize)).join

def loadSegment (s : State) (seg : Segment) : State :=
  (s.memset seg.va 0 seg.size).memcpy seg.va seg.data

def processSetup (fuel : Nat) (s : State) (pid : Nat) (program : Program) : Option State :=
  match program.segments.foldlM (claimSegment L fuel) s with
  | none => none
  | some s =>
    let s := program.segments.foldl loadSegment s
    let stackAddr := procStartAddr + procSize * pid - pagesize
    if s.used L (stackAddr / pagesize) then none
    else
      let s := (s.claim L (stackAddr / pagesize)).event (.claimed (stackAddr / pagesize))
      some { s with
        ptable := Function.update s.ptable pid ⟨true, program.entry, stackAddr + pagesize⟩ }

def syscallPageAlloc (s : State) (addr : Nat) : Option (State × Int) :=
  if s.used L (addr / pagesize) then none
  else some (((s.claim L (addr / pagesize)).event (.claimed (addr / pagesize))).memset addr 0 pagesize, 0)

end State

inductive Call where
  | processSetup (pid : Nat) (program : Program)
  | kalloc (sz : Nat)
  | pageAlloc (addr : Nat)

def State.step (fuel : Nat) (s : State) : Call → Option State
  | .processSetup pid program => s.processSetup L fuel pid program
  | .kalloc sz => (s.kalloc L fuel sz).map Prod.fst
  | .pageAlloc addr => (s.syscallPageAlloc L addr).map Prod.fst

/-- The state after the calls; `none` when one of them stops in an assertion. -/
def State.run (fuel : Nat) (s : State) : List Call → Option State
  | [] => some s
  | call :: calls =>
    match s.step L fuel call with
    | none => none
    | some s' => State.run fuel s' calls

end Cs300Projects.WeensyOS.Kernel
