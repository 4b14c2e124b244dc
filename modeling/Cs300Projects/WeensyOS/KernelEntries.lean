import Cs300Projects.WeensyOS.KernelTranslation
import Cs300Projects.WeensyOS.KernelMemory
import Cs300Projects.WeensyOS.Schedule

/-!
# What an entry into the kernel does to memory

`check_pagetable` of `k-hardware.cc`, `memshow` of `kernel.cc`, and `exception` and `syscall` with the memory shown on the
way. As long as the kernel page table is the one that `kernel` has made, no interrupt of the timer and no system call that is
implemented stops the kernel, and it writes a few bytes only. No key is typed.
-/

namespace Cs300Projects.WeensyOS.Processes

open Bytes Kernel

/-! ### check_pagetable -/

/-- The page table at an address. There is none at an address that is not page aligned. -/
def pagePtr (a : Nat) : Option PagePtr :=
  if h : BitVec.ofNat 64 a &&& ptePamask = BitVec.ofNat 64 a then some ⟨BitVec.ofNat 64 a, h⟩ else none

/-- `vmiter(pt, va).pa() == va` -/
def mapsToItself (m : Memory) (pt : PagePtr) (va : Nat) : Bool :=
  match Vmiter.new m pt (BitVec.ofNat 64 va) with
  | .ok it => it.pa m == BitVec.ofNat 64 va
  | .error _ => false

/-- `check_pagetable(pagetable)`; `false` when an assertion fails. -/
def checkPagetable (K : KernelPagetable) (exceptionEntry : Nat) (mem : Nat → UInt8) (pagetable : Nat) : Bool :=
  match pagePtr pagetable with
  | none => false
  | some pt =>
    mapsToItself (tableMemory mem) pt exceptionEntry && mapsToItself (tableMemory mem) K.top pagetable &&
      mapsToItself (tableMemory mem) pt K.addr.toNat

section Pagetable

variable {K : KernelPagetable} {sym : Bool} {mem mem' : Nat → UInt8} {va : Nat}

lemma mapsToItself_of_holds (h : K.Holds 512 sym (tableMemory mem)) (hlow : 0x1000 ≤ va) (hva : va < 0x200000) :
    mapsToItself (tableMemory mem) K.top va = true := by
  have htoNat : (BitVec.ofNat 64 va).toNat = va := by
    rw [BitVec.toNat_ofNat, Nat.mod_eq_of_lt (by omega)]
  have hnew : Vmiter.new (tableMemory mem) K.top (BitVec.ofNat 64 va) = .ok (K.lowIter (BitVec.ofNat 64 va)) :=
    h.new_low (by omega)
  have hindex : pageindex (BitVec.ofNat 64 va) 0 = va / 0x1000 := by
    rw [pageindex_eq, htoNat, pageSpan]
    omega
  have hiter : K.lowIter (BitVec.ofNat 64 va) =
      ⟨K.page 0, .entry ((K.page 3).entry (va / 0x1000)), 0, K.perm₀ 3, BitVec.ofNat 64 va⟩ := by
    rw [KernelPagetable.lowIter, htoNat, if_pos hva, hindex]
  have hlt : va / 0x1000 < 512 := by omega
  have hread : (tableMemory mem).read (.entry ((K.page 3).entry (va / 0x1000))) = KernelPagetable.pageEntry (va / 0x1000) :=
    (h.read 3 hlt).trans (if_pos (by dsimp only; omega))
  have hpresent : (KernelPagetable.pageEntry (va / 0x1000)).getLsbD 0 = true :=
    (KernelPagetable.pageEntry_low hlt).2 0 (by norm_num)
  have hframe : mmuFrame (KernelPagetable.pageEntry (va / 0x1000)) 0 = 4096 * (va / 0x1000) :=
    KernelPagetable.pageEntry_frame hlt
  have hspan : pageSpan 0 = 4096 := rfl
  unfold mapsToItself
  rw [hnew, hiter]
  dsimp only
  rw [beq_iff_eq, Vmiter.toNat_pa (by norm_num) (by rw [hread]; exact hpresent)]
  · dsimp only
    rw [hread, hframe, htoNat, hspan, Nat.div_add_mod]
  · dsimp only
    rw [hread, if_neg (Nat.lt_irrefl 0), mmuFrame_zero]
    rfl

lemma checkPagetable_of_holds {exceptionEntry : Nat} (h : K.Holds 512 sym (tableMemory mem))
    (hentry : 0x1000 ≤ exceptionEntry ∧ exceptionEntry < 0x200000) (hlow : 0x1000 ≤ K.addr.toNat)
    (hva : K.addr.toNat < 0x200000) : checkPagetable K exceptionEntry mem K.addr.toNat = true := by
  have haddr : BitVec.ofNat 64 K.addr.toNat = K.addr := by
    rw [BitVec.ofNat_toNat, BitVec.setWidth_eq]
  have htop : K.addr = K.top.addr := by
    rw [KernelPagetable.top, KernelPagetable.page]
    simp
  have hpage : pagePtr K.addr.toNat = some K.top := by
    unfold pagePtr
    simp only [haddr]
    rw [dif_pos (by rw [htop]; exact K.top.isPage)]
    simp only [htop]
  unfold checkPagetable
  rw [hpage]
  dsimp only
  rw [mapsToItself_of_holds h hentry.1 hentry.2, mapsToItself_of_holds h hlow hva]
  rfl

end Pagetable

/-! ### memshow -/

/-- The page of the console, with `cursorpos` behind the cells. -/
def console : Nat := 0xB8000
def consoleSize : Nat := 0x1000

/-- Where the linker has put the objects of the kernel. `view` is the member `v_` of the `memusage` object that
`console_memviewer` keeps. -/
structure SystemLayout extends ProcLayout where
  tables : KernelPagetable
  exceptionEntry : Nat
  view : Nat
  kernelPagetable_eq : kernelPagetable = tables.addr.toNat
  entry_bounds : kernelStartAddr ≤ exceptionEntry ∧ exceptionEntry < kernelEnd
  le_tables : kernelStartAddr ≤ kernelPagetable
  tables_le : kernelPagetable + 5 * 4096 ≤ kernelEnd
  le_view : kernelStartAddr ≤ view
  view_le : view + 8 ≤ kernelEnd
  apart : [(pages, npages), (nextAllocPa, 8), (ptable, nproc * procBytes), (current, 8), (view, 8),
    (kernelPagetable, 5 * 4096)].Pairwise fun a b => Apart a.1 a.2 b.1 b.2

variable (S : SystemLayout) (fuel : Nat)

def SystemLayout.check : (Nat → UInt8) → Nat → Bool := checkPagetable S.tables S.exceptionEntry

/-- What `memusage::refresh` finds in the page tables, and the screen with the picture of it. -/
structure Display where
  marks : Nat → UInt8
  screen : Nat → UInt8

namespace Machine

/-- `memusage::refresh` fills the page at `v`, and the rest of `console_memviewer` draws a picture of it. -/
def draw (d : Display) (m : Machine) (v : Nat) : Machine :=
  { m with mem := blit (blit m.mem v Kernel.pagesize d.marks) console consoleSize d.screen }

/-- `memshow`, which asserts that process 0 is unused. Its first call allocates a page. -/
def memshow (d : Display) (m : Machine) : Machine :=
  if readState m.mem (S.proc 0) ≠ pFree then m.halt
  else if readLE m.mem S.view 8 = 0 then
    match (⟨m.mem, fun _ => ⟨false, 0, 0⟩, []⟩ : State).kalloc S.toLayout fuel Kernel.pagesize with
    | some (s, some pa) => ({ m with mem := writeLE s.mem S.view 8 pa } : Machine).draw d pa
    | _ => m.halt
  else m.draw d (readLE m.mem S.view 8)

/-! ### Entries with the memory shown -/

section Handlers

variable (L : ProcLayout) (checkPagetable : (Nat → UInt8) → Nat → Bool)

/-- `exception` up to the copy of the registers. -/
def enterException (m : Machine) (num err : Nat) (ctx : Context) : Machine :=
  (({ m with mem := pushException m.mem num err ctx } : Machine).event (.entered m.running (.exception num) ctx)).saveRegs L

/-- `exception` from the `switch` on. -/
def handleException (m : Machine) : Machine :=
  let regs := m.current L + procRegs
  if readLE m.mem (regs + regIntno) 4 = intIrq + irqTimer then m.schedule L checkPagetable fuel
  else if readLE m.mem (regs + regIntno) 4 = intPf then
    if readLE m.mem (regs + regErrcode) 8 &&& pferrUser = 0 then m.halt
    else
      let m := (m.write (m.current L + procState) 4 pBroken).event (.broken (m.current L))
      if readState m.mem (m.current L) = pRunnable then m.run L checkPagetable (m.current L)
      else m.schedule L checkPagetable fuel
  else m.halt

/-- `syscall` up to the copy of the registers. -/
def enterSyscall (m : Machine) (ctx : Context) : Machine :=
  (({ m with mem := pushSyscall m.mem ctx } : Machine).event (.entered m.running .syscall ctx)).saveRegs L

/-- `syscall` from the `switch` on. -/
def handleSyscall (m : Machine) : Machine :=
  let regs := m.current L + procRegs
  let number := readLE m.mem (regs + 8 * Reg.rax.slot) 8
  if number = syscallGetpid then m.syscallReturn L
  else if number = syscallYield then
    (m.write (regs + 8 * Reg.rax.slot) 8 0).schedule L checkPagetable fuel
  else if number = syscallPageAllocNumber then
    m.syscallPageAlloc L (readLE m.mem (regs + 8 * Reg.rdi.slot) 8)
  else m.halt

/-- Without the picture, these are the entries of the process runs. -/
lemma exception_eq (m : Machine) (num err : Nat) (ctx : Context) : m.exception L checkPagetable fuel num err ctx =
    (m.enterException L num err ctx).handleException fuel L checkPagetable := rfl

lemma syscall_eq (m : Machine) (ctx : Context) : m.syscall L checkPagetable fuel ctx =
    (m.enterSyscall L ctx).handleSyscall fuel L checkPagetable := rfl

end Handlers

/-- The memory is not shown at a page fault of the kernel. -/
def showException (d : Display) (m : Machine) (num err : Nat) (ctx : Context) : Machine :=
  let m := m.enterException S.toProcLayout num err ctx
  let regs := m.current S.toProcLayout + procRegs
  if readLE m.mem (regs + regIntno) 4 = intPf ∧ readLE m.mem (regs + regErrcode) 8 &&& pferrUser = 0 then
    m.handleException fuel S.toProcLayout S.check
  else
    let m := m.memshow S fuel d
    if m.halted then m else m.handleException fuel S.toProcLayout S.check

def showSyscall (d : Display) (m : Machine) (ctx : Context) : Machine :=
  let m := (m.enterSyscall S.toProcLayout ctx).memshow S fuel d
  if m.halted then m else m.handleSyscall fuel S.toProcLayout S.check

/-- A step of a process. -/
def showStep (d : Display) (m : Machine) (action : Action) : Machine :=
  if m.halted then m
  else
    match action with
    | .store a data => { m with mem := copy m.mem a data }
    | .exception num err ctx => m.showException S fuel d num err.toNat ctx
    | .syscall ctx => m.showSyscall S fuel d ctx

end Machine

/-! ### The state that entries rely on -/

/-- Four processes with the kernel page table. -/
structure Sound (mem : Nat → UInt8) : Prop where
  free : readState mem (S.proc 0) = pFree
  runnable : ∀ j, j < nproc → (Runnable S.toProcLayout mem j ↔ 0 < j ∧ j ≤ 4)
  pagetable : ∀ j, 0 < j → j ≤ 4 → readLE mem (S.proc j) 8 = S.kernelPagetable
  tables : ∃ sym, S.tables.Holds 512 sym (tableMemory mem)

/-- What the entries of process `c` write: its registers, on the kernel stack and in its descriptor, and `current`. -/
def EntryArea (c x : Nat) : Prop :=
  (frame ≤ x ∧ x < frame + regstateSize) ∨ (S.proc c + procRegs ≤ x ∧ x < S.proc c + procBytes) ∨
    (S.current ≤ x ∧ x < S.current + 8)

/-- What `memshow` writes, besides the page that it draws. -/
def DisplayArea (x : Nat) : Prop :=
  (S.nextAllocPa ≤ x ∧ x < S.nextAllocPa + 8) ∨ x = S.pages + 1 ∨ (S.view ≤ x ∧ x < S.view + 8) ∨
    (Kernel.pagesize ≤ x ∧ x < 2 * Kernel.pagesize) ∨ (console ≤ x ∧ x < console + consoleSize)

variable {S} {fuel} {mem mem' : Nat → UInt8} {m : Machine} {c : Nat}

lemma Sound.congr (h : Sound S mem)
    (hheader : ∀ j, j < nproc → ∀ x, S.proc j ≤ x → x < S.proc j + procRegs → mem' x = mem x)
    (htables : ∀ x, S.kernelPagetable ≤ x → x < S.kernelPagetable + 5 * 4096 → mem' x = mem x) : Sound S mem' := by
  have hstate : ∀ j, j < nproc → readState mem' (S.proc j) = readState mem (S.proc j) := by
    intro j hj
    apply readLE_congr
    intro x hx hlt
    apply hheader j hj x
    · omega
    · unfold procState procRegs at *
      omega
  refine ⟨(hstate 0 (by decide)).trans h.free, fun j hj => ?_, fun j hpos hj => ?_, ?_⟩
  · have hiff := h.runnable j hj
    change readState mem' (S.proc j) = pRunnable ↔ _
    rwa [hstate j hj]
  · rw [← h.pagetable j hpos hj]
    apply readLE_congr
    intro x hx hlt
    apply hheader j (Nat.lt_of_le_of_lt hj (by decide)) x hx
    unfold procRegs
    omega
  · obtain ⟨sym, hholds⟩ := h.tables
    have haddr := S.kernelPagetable_eq
    refine ⟨sym, hholds.of_bytes fun x hx => ?_⟩
    unfold KernelPagetable.InTable at hx
    exact htables x (by omega) (by omega)

lemma Sound.check (h : Sound S mem) : S.check mem S.kernelPagetable = true := by
  obtain ⟨sym, hholds⟩ := h.tables
  have himage := S.image_le
  have hentry := S.entry_bounds
  have hlow := S.le_tables
  have htables := S.tables_le
  unfold SystemLayout.check
  rw [S.kernelPagetable_eq] at *
  unfold kernelStartAddr kernelStackTop Kernel.pagesize at *
  exact checkPagetable_of_holds hholds ⟨by omega, by omega⟩ (by omega) (by omega)

/-! ### The objects of the kernel -/

namespace SystemLayout

variable (S)

lemma apart_pages : Apart S.pages npages S.view 8 ∧ Apart S.pages npages S.kernelPagetable (5 * 4096) := by
  have h := S.apart
  simp only [List.pairwise_cons, List.forall_mem_cons] at h
  exact ⟨h.1.2.2.2.1, h.1.2.2.2.2.1⟩

lemma apart_nextAllocPa : Apart S.nextAllocPa 8 S.ptable (nproc * procBytes) ∧ Apart S.nextAllocPa 8 S.current 8 ∧
    Apart S.nextAllocPa 8 S.view 8 ∧ Apart S.nextAllocPa 8 S.kernelPagetable (5 * 4096) := by
  have h := S.apart
  simp only [List.pairwise_cons, List.forall_mem_cons] at h
  exact ⟨h.2.1.1, h.2.1.2.1, h.2.1.2.2.1, h.2.1.2.2.2.1⟩

lemma apart_view : Apart S.ptable (nproc * procBytes) S.view 8 ∧ Apart S.current 8 S.view 8 ∧
    Apart S.view 8 S.kernelPagetable (5 * 4096) := by
  have h := S.apart
  simp only [List.pairwise_cons, List.forall_mem_cons] at h
  exact ⟨h.2.2.1.2.1, h.2.2.2.1.1, h.2.2.2.2.1.1⟩

lemma apart_tables : Apart S.ptable (nproc * procBytes) S.kernelPagetable (5 * 4096) ∧
    Apart S.current 8 S.kernelPagetable (5 * 4096) := by
  have h := S.apart
  simp only [List.pairwise_cons, List.forall_mem_cons] at h
  exact ⟨h.2.2.1.2.2.1, h.2.2.2.1.2.1⟩

end SystemLayout

/-- The address is in none of the objects that entries do not write. -/
structure Unprotected (S : SystemLayout) (x : Nat) : Prop where
  image : kernelStartAddr ≤ x ∧ x < kernelStackTop
  pages : Outside x S.pages npages
  nextAllocPa : Outside x S.nextAllocPa 8
  view : Outside x S.view 8
  tables : Outside x S.kernelPagetable (5 * 4096)
  header : ∀ j, j < nproc → Outside x (S.proc j) procRegs

lemma outside_of_stack {x a n : Nat} (hx : kernelStackTop - Kernel.pagesize ≤ x) (ha : a + n ≤ S.kernelEnd) :
    Outside x a n := by
  have himage := S.image_le
  exact Or.inr (by omega)

lemma ptable_mem (hc : c < nproc) {x b k : Nat} (hx : S.proc c + b ≤ x) (hlt : x < S.proc c + b + k)
    (hk : b + k ≤ procBytes) :
    S.ptable ≤ x ∧ x < S.ptable + nproc * procBytes := by
  unfold ProcLayout.proc nproc procBytes regstateSize at *
  omega

lemma EntryArea.unprotected (hc : c < nproc) {x : Nat} (h : EntryArea S c x) : Unprotected S x := by
  have hptable := S.ptable_le
  have hpages := S.pages_le
  have hnext := S.nextAllocPa_le
  have hview := S.view_le
  have htables := S.tables_le
  have himage := S.image_le
  rcases h with ⟨hx, hlt⟩ | ⟨hx, hlt⟩ | ⟨hx, hlt⟩
  · -- the kernel stack is behind the image
    have hstack : kernelStackTop - Kernel.pagesize ≤ x := Nat.le_trans (by decide) hx
    refine ⟨⟨Nat.le_trans (by decide) hx, Nat.lt_of_lt_of_le hlt (by decide)⟩, outside_of_stack hstack hpages,
      outside_of_stack hstack hnext, outside_of_stack hstack hview, outside_of_stack hstack htables, fun j hj => ?_⟩
    have hproc : S.proc j + procRegs ≤ S.kernelEnd := by
      unfold ProcLayout.proc nproc procBytes procRegs regstateSize at *
      omega
    exact outside_of_stack hstack hproc
  · obtain ⟨hlow, hhigh⟩ := ptable_mem hc hx (k := regstateSize) (by unfold procBytes procRegs at *; omega) (by decide)
    have hstart := S.le_ptable
    refine ⟨⟨by omega, by omega⟩, S.pages_apart.symm.outside hlow hhigh, S.apart_nextAllocPa.1.symm.outside hlow hhigh,
      S.apart_view.1.outside hlow hhigh, S.apart_tables.1.outside hlow hhigh, fun j hj => ?_⟩
    unfold ProcLayout.proc procBytes procRegs regstateSize Outside at *
    omega
  · have hstart := S.le_current
    have hend := S.current_le
    refine ⟨⟨by omega, by omega⟩, S.pages_current.symm.outside hx hlt, S.apart_nextAllocPa.2.1.symm.outside hx hlt,
      S.apart_view.2.1.outside hx hlt, S.apart_tables.2.outside hx hlt, fun j hj => ?_⟩
    have happart := S.toProcLayout.apart_current hj (b := 0) (k := procRegs) (by decide)
    unfold Apart Outside at *
    omega

/-- What is written in the area of an entry is not what entries rely on. -/
lemma Sound.entry (h : Sound S mem) (hc : c < nproc) (hmem : ∀ x, ¬EntryArea S c x → mem' x = mem x) : Sound S mem' := by
  apply h.congr
  · intro j hj x hx hlt
    apply hmem
    intro harea
    have houtside := (harea.unprotected hc).header j hj
    unfold Outside at houtside
    omega
  · intro x hx hlt
    apply hmem
    intro harea
    have houtside := (harea.unprotected hc).tables
    unfold Outside at houtside
    omega

/-! ### The display -/

/-- `memshow` has no page yet, and `kalloc` is going to find the first one; or that is its page. -/
def Displays (S : SystemLayout) (mem : Nat → UInt8) : Prop :=
  (readLE mem S.view 8 = 0 ∧ readLE mem S.nextAllocPa 8 = 0 ∧ mem (S.pages + 1) = 0) ∨
    (readLE mem S.view 8 = Kernel.pagesize ∧ mem (S.pages + 1) ≠ 0)

/-- A page that `memshow` has drawn. -/
structure Shown (S : SystemLayout) (m m' : Machine) : Prop where
  halted : m'.halted = m.halted
  log : m'.log = m.log
  running : m'.running = m.running
  view : readLE m'.mem S.view 8 = Kernel.pagesize
  page : m'.mem (S.pages + 1) ≠ 0
  frame : ∀ x, ¬DisplayArea S x → m'.mem x = m.mem x

lemma draw_outside (d : Display) (m : Machine) {v x : Nat} (hpage : Outside x v Kernel.pagesize)
    (hscreen : Outside x console consoleSize) : (m.draw d v).mem x = m.mem x := by
  unfold Machine.draw
  dsimp only
  rw [blit_outside hscreen, blit_outside hpage]

lemma draw_shown (d : Display) {m₁ : Machine} (hhalted : m₁.halted = m.halted) (hlog : m₁.log = m.log)
    (hrunning : m₁.running = m.running) (hview : readLE m₁.mem S.view 8 = Kernel.pagesize)
    (hpage : m₁.mem (S.pages + 1) ≠ 0) (hframe : ∀ x, ¬DisplayArea S x → m₁.mem x = m.mem x) :
    Shown S m (m₁.draw d Kernel.pagesize) := by
  have himage := S.image_le
  have hpages := S.pages_le
  have hstart := S.le_pages
  have hviewStart := S.le_view
  have hviewEnd := S.view_le
  have hinside : ∀ x, kernelStartAddr ≤ x → x < S.kernelEnd → (m₁.draw d Kernel.pagesize).mem x = m₁.mem x := by
    intro x hx hlt
    apply draw_outside
    · unfold Outside kernelStartAddr Kernel.pagesize at *
      omega
    · unfold Outside console kernelStackTop at *
      omega
  refine ⟨hhalted, hlog, hrunning, ?_, ?_, fun x hx => ?_⟩
  · exact (readLE_congr fun x hx hlt => hinside x (by omega) (by omega)).trans hview
  · rw [hinside _ (by omega) (by rw [npages_eq] at hpages; omega)]
    exact hpage
  · rw [draw_outside, hframe x hx]
    · unfold DisplayArea at hx
      unfold Outside
      omega
    · unfold DisplayArea at hx
      unfold Outside
      omega

/-- The first page that `kalloc` finds is the one after the null page. -/
lemma kalloc_first {s : State} (hfuel : 2 ≤ fuel) (hnext : s.nextAllocPa S.toLayout = 0)
    (hfree : s.used S.toLayout 1 = false) : ∃ s', s.kalloc S.toLayout fuel Kernel.pagesize = some (s', some Kernel.pagesize) ∧
      s'.mem (S.pages + 1) = 1 ∧ ∀ x, Outside x S.nextAllocPa 8 → x ≠ S.pages + 1 →
        Outside x Kernel.pagesize Kernel.pagesize → s'.mem x = s.mem x := by
  obtain ⟨k, rfl⟩ : ∃ k, fuel = k + 2 := ⟨fuel - 2, by omega⟩
  have hone : 1 < npages := by decide
  have himage := S.image_le
  have hpages := S.pages_le
  have hstart := S.le_pages
  have hfirst : State.kallocRound S.toLayout s = .next (s.setNextAllocPa S.toLayout Kernel.pagesize) := by
    unfold State.kallocRound
    rw [if_pos (by rw [hnext]; decide)]
    dsimp only
    rw [hnext, if_neg]
    · rfl
    · rw [Bool.and_eq_true, not_and]
      intro hpa
      rw [allocatable_iff] at hpa
      omega
  have hnext' : (s.setNextAllocPa S.toLayout Kernel.pagesize).nextAllocPa S.toLayout = Kernel.pagesize :=
    s.nextAllocPa_setNextAllocPa (by decide)
  have hused := ((s.setNextAllocPa S.toLayout Kernel.pagesize).used_setNextAllocPa (L := S.toLayout) (2 * Kernel.pagesize)
    hone).trans ((s.used_setNextAllocPa (L := S.toLayout) Kernel.pagesize hone).trans hfree)
  have hok : allocatablePhysicalAddress S.toLayout Kernel.pagesize = true := by
    rw [allocatable_iff]
    unfold Kernel.pagesize
    omega
  have hsecond : State.kallocRound S.toLayout (s.setNextAllocPa S.toLayout Kernel.pagesize) =
      .done ((((((s.setNextAllocPa S.toLayout Kernel.pagesize).setNextAllocPa S.toLayout (2 * Kernel.pagesize)).claim
        S.toLayout 1).memset Kernel.pagesize 0xCC Kernel.pagesize).event (.returned Kernel.pagesize)), some Kernel.pagesize) := by
    have htwice : (Kernel.pagesize + Kernel.pagesize) % 2 ^ 64 = 2 * Kernel.pagesize := by decide
    have hdiv : Kernel.pagesize / Kernel.pagesize = 1 := by decide
    unfold State.kallocRound
    rw [if_pos (by rw [hnext']; decide)]
    dsimp only
    rw [hnext', htwice, hdiv, hused, hok]
    rfl
  have hloop := (Loop.run_next _ hfirst (k + 1)).trans (Loop.run_done _ hsecond k)
  refine ⟨_, (if_neg (by decide)).trans hloop, ?_, fun x hx hne hpage => ?_⟩
  · dsimp only [State.event, State.memset, State.claim]
    rw [fill_outside, fill_inside (Nat.le_refl _) (Nat.lt_succ_self _)]
    unfold Outside kernelStartAddr Kernel.pagesize at *
    omega
  · dsimp only [State.event, State.memset, State.claim, State.setNextAllocPa]
    rw [fill_outside hpage, fill_outside, writeLE_outside hx, writeLE_outside hx]
    unfold Outside
    omega

lemma memshow_shown (d : Display) (hsound : Sound S m.mem) (h : Displays S m.mem) (hfuel : 2 ≤ fuel) :
    Shown S m (m.memshow S fuel d) := by
  unfold Machine.memshow
  rw [if_neg (not_not.2 hsound.free)]
  rcases h with ⟨hview, hnext, hfree⟩ | ⟨hview, hpage⟩
  · have hunused : State.used S.toLayout ⟨m.mem, fun _ => ⟨false, 0, 0⟩, []⟩ 1 = false := by
      unfold State.used
      dsimp only
      rw [hfree]
      rfl
    obtain ⟨s', hkalloc, hpage, hframe⟩ := kalloc_first hfuel (s := ⟨m.mem, fun _ => ⟨false, 0, 0⟩, []⟩) hnext hunused
    have hviewApart := S.apart_pages.1
    rw [if_pos hview, hkalloc]
    apply draw_shown
    · rfl
    · rfl
    · rfl
    · exact readLE_writeLE_of_lt (by decide)
    · dsimp only
      rw [writeLE_outside (hviewApart.outside (Nat.le_add_right _ _) (Nat.add_lt_add_left (by decide) _)), hpage]
      decide
    · intro x hx
      unfold DisplayArea at hx
      dsimp only
      rw [writeLE_outside, hframe x]
      · unfold Outside
        omega
      · omega
      · unfold Outside
        omega
      · unfold Outside
        omega
  · rw [if_neg (by rw [hview]; decide), hview]
    exact draw_shown d rfl rfl rfl hview hpage fun x _ => rfl

/-- `memshow` leaves the process table, the page table and application memory alone. -/
lemma DisplayArea.unshared {x : Nat} (h : DisplayArea S x) : Outside x S.ptable (nproc * procBytes) ∧
    Outside x S.current 8 ∧ Outside x S.kernelPagetable (5 * 4096) ∧ x < procStartAddr := by
  have himage := S.image_le
  have hptable := S.le_ptable
  have hptableEnd := S.ptable_le
  have hcurrent := S.le_current
  have hcurrentEnd := S.current_le
  have htables := S.le_tables
  have htablesEnd := S.tables_le
  have hpages := S.pages_le
  have hnext := S.nextAllocPa_le
  have hview := S.view_le
  have hpage : 1 < npages := by decide
  unfold kernelStackTop Kernel.pagesize kernelStartAddr procStartAddr at *
  rcases h with ⟨hx, hlt⟩ | rfl | ⟨hx, hlt⟩ | ⟨hx, hlt⟩ | ⟨hx, hlt⟩
  · obtain ⟨h₁, h₂, -, h₃⟩ := S.apart_nextAllocPa
    exact ⟨h₁.outside hx hlt, h₂.outside hx hlt, h₃.outside hx hlt, by omega⟩
  · have hx : S.pages ≤ S.pages + 1 := Nat.le_add_right _ _
    have hlt : S.pages + 1 < S.pages + npages := Nat.add_lt_add_left hpage _
    exact ⟨S.pages_apart.outside hx hlt, S.pages_current.outside hx hlt, S.apart_pages.2.outside hx hlt, by omega⟩
  · obtain ⟨h₁, h₂, h₃⟩ := S.apart_view
    exact ⟨h₁.symm.outside hx hlt, h₂.symm.outside hx hlt, h₃.outside hx hlt, by omega⟩
  · unfold Outside Kernel.pagesize at *
    omega
  · unfold Outside console consoleSize at *
    omega

/-- It leaves the other entries of `pages` alone. -/
lemma DisplayArea.pages {x page : Nat} (h : DisplayArea S x) (hpage : page < npages) (hx : x = S.pages + page) : page = 1 := by
  have himage := S.image_le
  have hpages := S.pages_le
  have hstart := S.le_pages
  have hnext := S.disjoint
  have hview := S.apart_pages.1
  unfold DisplayArea console consoleSize at h
  unfold kernelStackTop kernelStartAddr Kernel.pagesize Apart at *
  omega

lemma Shown.sameTable {m' : Machine} (h : Shown S m m') : SameTable S.toProcLayout m.mem m'.mem := by
  constructor
  · intro a n ha hn
    apply readLE_congr
    intro x hx hlt
    apply h.frame
    intro harea
    have houtside := harea.unshared.1
    unfold Outside at houtside
    omega
  · apply readLE_congr
    intro x hx hlt
    apply h.frame
    intro harea
    have houtside := harea.unshared.2.1
    unfold Outside at houtside
    omega

/-- Only memory has changed. -/
lemma Shown.machine {m' : Machine} (h : Shown S m m') : m' = { m with mem := m'.mem } := by
  cases m'
  rw [Machine.mk.injEq]
  exact ⟨rfl, h.running, h.halted, h.log⟩

lemma Shown.sound {m' : Machine} (hshown : Shown S m m') (h : Sound S m.mem) : Sound S m'.mem := by
  apply h.congr
  · intro j hj x hx hlt
    apply hshown.frame
    intro harea
    have houtside := harea.unshared.1
    obtain ⟨hlow, hhigh⟩ := ptable_mem hj (b := 0) (k := procRegs) hx hlt (by decide)
    unfold Outside at houtside
    omega
  · intro x hx hlt
    apply hshown.frame
    intro harea
    have houtside := harea.unshared.2.2.1
    unfold Outside at houtside
    omega

/-! ### The picture in an entry -/

lemma Displays.entry (h : Displays S mem) (hc : c < nproc) (hmem : ∀ x, ¬EntryArea S c x → mem' x = mem x) :
    Displays S mem' := by
  have hone : 1 < npages := by decide
  have hview : readLE mem' S.view 8 = readLE mem S.view 8 := by
    apply readLE_congr
    intro x hx hlt
    apply hmem
    intro harea
    have houtside := (harea.unprotected hc).view
    unfold Outside at houtside
    omega
  have hnext : readLE mem' S.nextAllocPa 8 = readLE mem S.nextAllocPa 8 := by
    apply readLE_congr
    intro x hx hlt
    apply hmem
    intro harea
    have houtside := (harea.unprotected hc).nextAllocPa
    unfold Outside at houtside
    omega
  have hpage : mem' (S.pages + 1) = mem (S.pages + 1) := by
    apply hmem
    intro harea
    have houtside := (harea.unprotected hc).pages
    unfold Outside at houtside
    omega
  unfold Displays at *
  rwa [hview, hnext, hpage]

/-- The registers of process `c` are saved, and the memory is shown. -/
structure Prepared (S : SystemLayout) (m m' : Machine) (c : Nat) : Prop where
  halted : m'.halted = false
  sound : Sound S m'.mem
  view : readLE m'.mem S.view 8 = Kernel.pagesize
  page : m'.mem (S.pages + 1) ≠ 0
  frame : ∀ x, ¬EntryArea S c x → ¬DisplayArea S x → m'.mem x = m.mem x

/-- The saved registers are in the area of the entry. -/
lemma User.enter_frame (h : User S.toProcLayout m c) (hmem : ∀ x, Outside x frame regstateSize → mem' x = m.mem x)
    (hsame : SameTable S.toProcLayout m.mem mem') (entry : Entry) (ctx : Context) : ∀ x, ¬EntryArea S c x →
      ((({ m with mem := mem' } : Machine).event (.entered m.running entry ctx)).saveRegs S.toProcLayout).mem x = m.mem x := by
  have hcurrent : readLE mem' S.current 8 = S.proc c := hsame.2.trans h.current
  intro x hx
  unfold EntryArea at hx
  unfold Machine.saveRegs Machine.event Machine.current
  dsimp only
  rw [hcurrent, blit_outside, hmem]
  · unfold Outside
    omega
  · unfold Outside procBytes procRegs at *
    omega

/-- `memshow`, once the registers are saved. -/
lemma Entered.prepared {m₁ : Machine} {entry : Entry} {ctx : Context}
    (h : Entered S.toProcLayout m c mem' entry ctx m₁) (hhalt : m₁.halted = false)
    (hframe : ∀ x, ¬EntryArea S c x → m₁.mem x = m.mem x) (hsound : Sound S m.mem) (hdisplays : Displays S m.mem)
    (hfuel : 2 ≤ fuel) (d : Display) :
    Prepared S m (m₁.memshow S fuel d) c ∧ Entered S.toProcLayout m c mem' entry ctx (m₁.memshow S fuel d) := by
  have hsaved := hsound.entry h.lt hframe
  have hshown := memshow_shown d hsaved (hdisplays.entry h.lt hframe) hfuel
  have hentered := h.sameTable hshown.sameTable
  rw [← hshown.machine] at hentered
  refine ⟨⟨hshown.halted.trans hhalt, hshown.sound hsaved, hshown.view, hshown.page, fun x hx hdisplay => ?_⟩, hentered⟩
  exact (hshown.frame x hdisplay).trans (hframe x hx)

/-! ### Entries that return -/

/-- The kernel runs a process again. Besides what an entry of process `c` writes and the picture, it has written what is in
`changed`. -/
structure Returned (S : SystemLayout) (m m' : Machine) (c : Nat) (changed : Nat → Prop) : Prop where
  halted : m'.halted = false
  user : ∃ j, User S.toProcLayout m' j
  view : readLE m'.mem S.view 8 = Kernel.pagesize
  page : m'.mem (S.pages + 1) ≠ 0
  frame : ∀ x, ¬EntryArea S c x → ¬DisplayArea S x → ¬changed x → m'.mem x = m.mem x

lemma Prepared.returned {m₁ m' : Machine} {changed : Nat → Prop} (h : Prepared S m m₁ c) (hc : c < nproc)
    (hhalt : m'.halted = false) (huser : ∃ j, User S.toProcLayout m' j)
    (hframe : ∀ x, ¬EntryArea S c x → ¬changed x → m'.mem x = m₁.mem x)
    (hchanged : ∀ x, changed x → Outside x S.view 8 ∧ x ≠ S.pages + 1) : Returned S m m' c changed := by
  have hone : 1 < npages := by decide
  refine ⟨hhalt, huser, ?_, ?_, fun x hx hdisplay hno => (hframe x hx hno).trans (h.frame x hx hdisplay)⟩
  · rw [← h.view]
    apply readLE_congr
    intro x hx hlt
    apply hframe
    · intro harea
      have houtside := (harea.unprotected hc).view
      unfold Outside at houtside
      omega
    · intro hin
      have houtside := (hchanged x hin).1
      unfold Outside at houtside
      omega
  · rw [hframe]
    · exact h.page
    · intro harea
      have houtside := (harea.unprotected hc).pages
      unfold Outside at houtside
      omega
    · exact fun hin => (hchanged _ hin).2 rfl

/-- `run` of one of the processes. -/
lemma run_handled (hsound : Sound S m.mem) {j : Nat} (hpos : 0 < j) (hle : j ≤ 4) (hhalt : m.halted = false) :
    (m.run S.toProcLayout S.check (S.proc j)).halted = false ∧
      ∀ x, ¬EntryArea S c x → (m.run S.toProcLayout S.check (S.proc j)).mem x = m.mem x := by
  have hj : j < nproc := Nat.lt_of_le_of_lt hle (by decide)
  have hstate : readState m.mem (S.proc j) = pRunnable := (hsound.runnable j hj).2 ⟨hpos, hle⟩
  -- the write of `current`
  have hwithin := within_writeLE m.mem S.current 8 (S.proc j)
  have hframe : ∀ c' x, ¬EntryArea S c' x → writeLE m.mem S.current 8 (S.proc j) x = m.mem x := by
    intro c' x hx
    apply hwithin
    unfold EntryArea at hx
    unfold Outside
    omega
  have hsound' := hsound.entry hj (hframe j)
  have hstate' : readState (writeLE m.mem S.current 8 (S.proc j)) (S.proc j) = pRunnable :=
    (hsound'.runnable j hj).2 ⟨hpos, hle⟩
  unfold Machine.run Machine.write Machine.event
  dsimp only
  rw [if_pos hstate, hsound'.pagetable j hpos hle, if_pos hsound'.check]
  unfold Machine.exceptionReturn Machine.event
  dsimp only
  rw [if_pos hstate']
  exact ⟨hhalt, hframe c⟩

/-- `run` that does not stop runs the process. -/
lemma running_of_run {L : ProcLayout} {check : (Nat → UInt8) → Nat → Bool} {p : Nat} (h : (m.run L check p).halted = false) :
    (m.run L check p).running = p := by
  unfold Machine.run Machine.exceptionReturn at *
  dsimp only at *
  split at h
  · rename_i hready
    rw [if_pos hready]
    split at h
    · rename_i hcheck
      rw [if_pos hcheck]
      split at h
      · rename_i hstill
        rw [if_pos hstill]
        rfl
      · exact Bool.noConfusion h
    · exact Bool.noConfusion h
  · exact Bool.noConfusion h

lemma schedule_handled (hsound : Sound S m.mem) (hinv : Inv S.toProcLayout m fun _ => True) (hc : c < nproc)
    (hcurrent : m.current S.toProcLayout = S.proc c) (hready : Runnable S.toProcLayout m.mem c) (hfuel : nproc ≤ fuel)
    (hhalt : m.halted = false) : (m.schedule S.toProcLayout S.check fuel).halted = false ∧
      (∃ j, User S.toProcLayout (m.schedule S.toProcLayout S.check fuel) j) ∧
      ∀ x, ¬EntryArea S c x → (m.schedule S.toProcLayout S.check fuel).mem x = m.mem x := by
  have hstepped := schedule_spec S.check fuel hinv hc hcurrent
  have hdistance := RoundRobin.distance_le (c := c) hc
  obtain ⟨p, hloop⟩ := schedule_total hc hc hready (Nat.le_trans hdistance hfuel)
  obtain ⟨j, hfirst, rfl⟩ := schedule_first hc hloop
  obtain ⟨hpos, hle⟩ := (hsound.runnable j hfirst.lt).1 hfirst.isReady
  have hrun := run_handled (c := c) (m := m.event (.chosen (S.proc j))) hsound hpos hle hhalt
  have heq : m.schedule S.toProcLayout S.check fuel = (m.event (.chosen (S.proc j))).run S.toProcLayout S.check (S.proc j) := by
    unfold Machine.schedule
    rw [hcurrent, readPid_eq hc (hinv.pid c hc), hloop]
  rw [heq] at hstepped ⊢
  exact ⟨hrun.1, hstepped.user hrun.1, hrun.2⟩

/-- A system call that returns goes back to the process. -/
lemma Entered.syscallReturn_eq {m' : Machine} {entry : Entry} {ctx : Context}
    (h : Entered S.toProcLayout m c mem' entry ctx m') :
    m'.syscallReturn S.toProcLayout = m' ∧ User S.toProcLayout m' c := by
  unfold Machine.syscallReturn
  rw [h.current, if_pos (by exact h.runnable)]
  exact ⟨rfl, h.inv, h.lt, h.current, h.running, h.runnable⟩

section Entries

variable (h : User S.toProcLayout m c) (hhalt : m.halted = false) (hsound : Sound S m.mem) (hdisplays : Displays S m.mem)
  (hfuel : nproc ≤ fuel) (d : Display) {ctx : Context}
include h hhalt hsound hdisplays hfuel

lemma timer_returned (err : BitVec 64) (ctx : Context) :
    Returned S m (m.showException S fuel d 32 err.toNat ctx) c fun _ => False := by
  have hsame := sameTable_pushException (L := S.toProcLayout) m.mem 32 err.toNat ctx
  have hsaved := h.enter hsame (.exception 32) ctx
  have hframe := h.enter_frame (fun x hx => pushException_outside m.mem 32 err.toNat ctx hx) hsame (.exception 32) ctx
  have hnumber : ∀ m', Entered S.toProcLayout m c (pushException m.mem 32 err.toNat ctx) (.exception 32) ctx m' →
      readLE m'.mem (S.proc c + procRegs + regIntno) 4 = 32 :=
    fun m' hm' => (hm'.regs regIntno 4 (by decide)).trans (pushException_intno m.mem 32 err.toNat ctx (by decide))
  obtain ⟨hprepared, hentered⟩ := hsaved.prepared hhalt hframe hsound hdisplays (Nat.le_trans (by decide) hfuel) d
  obtain ⟨hhalt', huser, hkept⟩ := schedule_handled hprepared.sound hentered.saved h.lt hentered.current hentered.runnable
    hfuel hprepared.halted
  unfold Machine.showException Machine.enterException
  dsimp only
  rw [hsaved.current, hnumber _ hsaved, if_neg (by rintro ⟨hpf, -⟩; exact absurd hpf (by decide)), hprepared.halted,
    if_neg (by decide)]
  unfold Machine.handleException
  dsimp only
  rw [hentered.current, hnumber _ hentered, if_pos (by rfl)]
  exact hprepared.returned h.lt hhalt' huser (fun x hx _ => hkept x hx) fun _ hno => hno.elim

/-- The state in which `syscall` decides what to do. -/
lemma syscall_prepared (ctx : Context) : ∃ m₁ : Machine, Prepared S m m₁ c ∧
    Entered S.toProcLayout m c (pushSyscall m.mem ctx) .syscall ctx m₁ ∧
    (∀ r : Reg, r ≠ .rcx → r ≠ .r11 → readLE m₁.mem (S.proc c + procRegs + 8 * r.slot) 8 = ctx.word r) ∧
    m.showSyscall S fuel d ctx =
      if ctx.word .rax = syscallGetpid then m₁
      else if ctx.word .rax = syscallYield then
        (m₁.write (S.proc c + procRegs + 8 * Reg.rax.slot) 8 0).schedule S.toProcLayout S.check fuel
      else if ctx.word .rax = syscallPageAllocNumber then m₁.syscallPageAlloc S.toProcLayout (ctx.word .rdi)
      else m₁.halt := by
  have hsame := sameTable_pushSyscall (L := S.toProcLayout) m.mem ctx
  have hsaved := h.enter hsame .syscall ctx
  have hframe := h.enter_frame (fun x hx => pushSyscall_outside m.mem ctx hx) hsame .syscall ctx
  obtain ⟨hprepared, hentered⟩ := hsaved.prepared hhalt hframe hsound hdisplays (Nat.le_trans (by decide) hfuel) d
  have hreg : ∀ r : Reg, r ≠ .rcx → r ≠ .r11 → readLE _ (S.proc c + procRegs + 8 * r.slot) 8 = ctx.word r :=
    fun r hrcx hr11 => (hentered.regs _ _ r.slot_lt).trans (pushSyscall_reg m.mem ctx hrcx hr11)
  refine ⟨_, hprepared, hentered, hreg, ?_⟩
  unfold Machine.showSyscall Machine.enterSyscall
  dsimp only
  rw [hprepared.halted, if_neg (by decide)]
  unfold Machine.handleSyscall
  dsimp only
  rw [hentered.current, hreg .rax (by decide) (by decide), hreg .rdi (by decide) (by decide), hentered.syscallReturn_eq.1]

lemma getpid_returned (hrax : ctx.word .rax = syscallGetpid) :
    Returned S m (m.showSyscall S fuel d ctx) c (fun _ => False) ∧
      User S.toProcLayout (m.showSyscall S fuel d ctx) c ∧
      readPid (m.showSyscall S fuel d ctx).mem (S.proc c) = c := by
  obtain ⟨m₁, hprepared, hentered, -, hsyscall⟩ := syscall_prepared h hhalt hsound hdisplays hfuel d ctx
  have huser := hentered.syscallReturn_eq.2
  rw [hsyscall, if_pos hrax]
  exact ⟨hprepared.returned h.lt hprepared.halted ⟨c, huser⟩ (fun _ _ _ => rfl) fun _ hno => hno.elim, huser,
    readPid_eq h.lt (hentered.inv.pid c h.lt)⟩

lemma yield_returned (hrax : ctx.word .rax = syscallYield) :
    Returned S m (m.showSyscall S fuel d ctx) c fun _ => False := by
  obtain ⟨m₁, hprepared, hentered, hreg, hsyscall⟩ := syscall_prepared h hhalt hsound hdisplays hfuel d ctx
  rw [hsyscall, if_neg (by rw [hrax]; decide), if_pos hrax]
  obtain ⟨hinv, hcurrent⟩ := hentered.yield hreg hrax
  have hwithin := within_reg m₁.mem (S.proc c) .rax 0
  have hwrite : ∀ x, ¬EntryArea S c x → writeLE m₁.mem (S.proc c + procRegs + 8 * Reg.rax.slot) 8 0 x = m₁.mem x := by
    intro x hx
    apply hwithin x
    unfold EntryArea at hx
    unfold Outside procBytes procRegs at *
    omega
  have hsound' : Sound S (writeLE m₁.mem (S.proc c + procRegs + 8 * Reg.rax.slot) 8 0) := hprepared.sound.entry h.lt hwrite
  have hready : Runnable S.toProcLayout (writeLE m₁.mem (S.proc c + procRegs + 8 * Reg.rax.slot) 8 0) c := by
    rw [hsound'.runnable c h.lt]
    exact (hsound.runnable c h.lt).1 h.runnable
  obtain ⟨hhalt', huser, hkept⟩ := schedule_handled (m := m₁.write (S.proc c + procRegs + 8 * Reg.rax.slot) 8 0) hsound'
    hinv h.lt hcurrent hready hfuel hprepared.halted
  exact hprepared.returned h.lt hhalt' huser (fun x hx _ => (hkept x hx).trans (hwrite x hx)) fun _ hno => hno.elim

/-- A page of application memory that is free is granted. -/
lemma pageAlloc_returned (hrax : ctx.word .rax = syscallPageAllocNumber)
    (hlow : procStartAddr ≤ ctx.word .rdi) (hhigh : ctx.word .rdi + Kernel.pagesize ≤ memsizePhysical)
    (hfree : m.mem (S.pages + ctx.word .rdi / Kernel.pagesize) = 0) :
    Returned S m (m.showSyscall S fuel d ctx) c (fun x => x = S.pages + ctx.word .rdi / Kernel.pagesize ∨
        (ctx.word .rdi ≤ x ∧ x < ctx.word .rdi + Kernel.pagesize)) ∧
      (m.showSyscall S fuel d ctx).mem (S.pages + ctx.word .rdi / Kernel.pagesize) = 1 ∧
      ∀ x, ctx.word .rdi ≤ x → x < ctx.word .rdi + Kernel.pagesize → (m.showSyscall S fuel d ctx).mem x = 0 := by
  obtain ⟨m₁, hprepared, hentered, -, hsyscall⟩ := syscall_prepared h hhalt hsound hdisplays hfuel d ctx
  have hpage : ctx.word .rdi / Kernel.pagesize < npages := page_lt (by unfold Kernel.pagesize at hhigh; omega)
  have himage := S.image_le
  have hpages := S.pages_le
  have hstart := S.le_pages
  have hview := S.view_le
  have hviewPages := S.apart_pages.1
  generalize haddr : ctx.word .rdi = addr at *
  have hlater : 256 ≤ addr / Kernel.pagesize := by
    unfold procStartAddr Kernel.pagesize at *
    omega
  have hentry : ¬EntryArea S c (S.pages + addr / Kernel.pagesize) := by
    intro harea
    rcases (harea.unprotected h.lt).pages with hbelow | habove
    · exact absurd hbelow (Nat.not_lt.2 (Nat.le_add_right _ _))
    · exact absurd habove (Nat.not_le.2 (Nat.add_lt_add_left hpage _))
  have hdisplay : ¬DisplayArea S (S.pages + addr / Kernel.pagesize) := by
    intro harea
    have hone := harea.pages hpage rfl
    omega
  have hunused : State.used S.toLayout ⟨m₁.mem, fun _ => ⟨false, 0, 0⟩, []⟩ (addr / Kernel.pagesize) = false := by
    have hbyte : m₁.mem (S.pages + addr / Kernel.pagesize) = 0 := (hprepared.frame _ hentry hdisplay).trans hfree
    unfold State.used
    dsimp only
    rw [hbyte]
    rfl
  have hmapped : (mapped (S.pages + addr / Kernel.pagesize) 1 && mapped addr Kernel.pagesize) = true := by
    unfold mapped
    unfold procStartAddr memsizePhysical kernelStartAddr kernelStackTop Kernel.pagesize at *
    simp only [Bool.and_eq_true, Bool.or_eq_true, decide_eq_true_eq]
    omega
  have havoids : S.Avoids addr Kernel.pagesize := by
    unfold procStartAddr kernelStackTop Kernel.pagesize at *
    exact Or.inr (Or.inr (by omega))
  have hgranted := hentered.sameTable (sameTable_pageAlloc m₁.mem havoids hmapped)
  have halloc : m₁.syscallPageAlloc S.toProcLayout addr =
      { m₁ with mem := fill (fill m₁.mem (S.pages + addr / Kernel.pagesize) 1 1) addr 0 Kernel.pagesize } := by
    unfold Machine.syscallPageAlloc State.syscallPageAlloc
    rw [if_neg (by rw [hunused]; decide)]
    dsimp only
    rw [if_pos hmapped]
    exact hgranted.syscallReturn_eq.1
  rw [hsyscall, if_neg (by rw [hrax]; decide), if_neg (by rw [hrax]; decide), if_pos hrax, halloc]
  have hapart : Outside (S.pages + addr / Kernel.pagesize) addr Kernel.pagesize := by
    unfold procStartAddr kernelStackTop Kernel.pagesize Outside at *
    omega
  refine ⟨hprepared.returned h.lt hprepared.halted ⟨c, hgranted.syscallReturn_eq.2⟩ (fun x _ hchanged => ?_) ?_, ?_,
    fun x hx hlt => fill_inside hx hlt⟩
  · dsimp only
    rw [fill_outside, fill_outside]
    · unfold Outside
      omega
    · unfold Outside
      omega
  · intro x hx
    unfold Outside Apart procStartAddr kernelStackTop Kernel.pagesize at *
    omega
  · dsimp only
    rw [fill_outside hapart, fill_inside (Nat.le_refl _) (Nat.lt_succ_self _)]

end Entries

end Cs300Projects.WeensyOS.Processes
