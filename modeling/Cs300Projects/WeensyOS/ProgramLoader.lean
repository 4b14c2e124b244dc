import Cs300Projects.WeensyOS.Elf
import Cs300Projects.WeensyOS.Memory
import Cs300Projects.WeensyOS.ProcessStart
import Cs300Projects.WeensyOS.ProgramSegments

/-!
# The program loader

`program_loader` of `k-hardware.cc`, and `process_setup` of `kernel.cc` over it. The executable is in memory, and the
loader reads its headers anew whenever it is asked. An executable that is not written over is loaded like the list of
its loadable segments.
-/

namespace Cs300Projects.WeensyOS.Processes

open Bytes Elf Kernel

/-- `program_loader`: `elf` is 0 without an executable, and `left` headers remain up to `endph_`. -/
structure ProgramLoader where
  elf : Nat
  ph : Nat
  left : Nat

namespace ProgramLoader

section Model

variable (mem : Nat → UInt8) (l : ProgramLoader)

/-- The loop of `fix`. -/
def fixFrom (elf : Nat) : Nat → Nat → ProgramLoader
  | ph, 0 => ⟨elf, ph, 0⟩
  | ph, left + 1 =>
    if pType mem ph = elfPtypeLoad then ⟨elf, ph, left + 1⟩ else fixFrom elf (ph + elfProgramSize) left

def present : Bool := l.left != 0

def va : Nat := if l.present then pVa mem l.ph else 0
def size : Nat := if l.present then pMemsz mem l.ph else 0
def data : Nat := if l.present then l.elf + pOffset mem l.ph else 0
def dataSize : Nat := if l.present then pFilesz mem l.ph else 0

def entry : Nat := if l.elf = 0 then 0 else eEntry mem l.elf

/-- `operator++`. -/
def next : ProgramLoader := if l.present then fixFrom mem l.elf (l.ph + elfProgramSize) (l.left - 1) else l

/-- `none` when the assertion fails. -/
def reset (elf : Nat) : Option ProgramLoader :=
  if elf = 0 then some ⟨0, 0, 0⟩
  else if eMagic mem elf = elfMagic then some (fixFrom mem elf (elf + ePhoff mem elf) (ePhnum mem elf))
  else none

/-- The segment as the loader presents it. -/
def segment : Segment :=
  ⟨l.va mem, l.size mem, (List.range (l.dataSize mem)).map fun k => mem (l.data mem + k)⟩

end Model

/-- A round of `for (loader.reset(); loader.present(); ++loader)`. -/
def segmentRound (body : State → ProgramLoader → Option State) (r : State × ProgramLoader) :
    Loop.Round (State × ProgramLoader) (Option State) :=
  let (s, l) := r
  if l.present then
    match body s l with
    | none => .done none
    | some s => .next (s, l.next s.mem)
  else .done (some s)

def forSegments (fuel elf : Nat) (body : State → ProgramLoader → Option State) (s : State) : Option State :=
  (reset s.mem elf).bind fun l => (Loop.run (segmentRound body) fuel (s, l)).join

variable (L : ProcLayout) (fuel : Nat)

/-- The loop over the pages of a segment asks for its bounds in every round. -/
def claimRound (l : ProgramLoader) (r : State × Nat) : Loop.Round (State × Nat) (Option State) :=
  State.claimRound L.toLayout (l.segment r.1.mem) r

def claimPages (s : State) (l : ProgramLoader) : Option State :=
  (Loop.run (claimRound L l) fuel (s, roundDown (l.va s.mem) Kernel.pagesize)).join

def load (s : State) (l : ProgramLoader) : State :=
  let mem := memset (l.size s.mem) s.mem (l.va s.mem) 0
  { s with mem := memcpy mem (l.va mem) (l.data mem) (l.dataSize mem) }

/-- `process_setup(pid, program_name)` for the executable at `elf`; `none` when an assertion fails. -/
def processSetup (mem : Nat → UInt8) (pid elf : Nat) : Option (Nat → UInt8) :=
  let p := L.proc pid
  let mem := writeLE (initProcess mem p) p 8 L.kernelPagetable
  (reset mem elf).bind fun loader =>
  (forSegments fuel elf (claimPages L fuel) ⟨mem, fun _ => ⟨false, 0, 0⟩, []⟩).bind fun s =>
  (forSegments fuel elf (fun s l => some (load s l)) s).bind fun s =>
  let mem := writeLE s.mem (p + procRegs + 8 * Reg.rip.slot) 8 (loader.entry s.mem)
  let stackAddr := procStartAddr + procSize * pid - Kernel.pagesize
  let s : State := ⟨mem, fun _ => ⟨false, 0, 0⟩, []⟩
  if s.used L.toLayout (stackAddr / Kernel.pagesize) then none
  else
    let s := s.claim L.toLayout (stackAddr / Kernel.pagesize)
    let mem := writeLE s.mem (p + procRegs + 8 * Reg.rsp.slot) 8 (stackAddr + Kernel.pagesize)
    some (writeLE mem (p + procState) 4 pRunnable)

end ProgramLoader

/-! ### Setting up a process from segments -/

section SetUp

variable {L : ProcLayout} {fuel pid : Nat} {mem mem' : Nat → UInt8} {program : Program}

def stackPage (pid : Nat) : Nat := (procStartAddr + procSize * pid - Kernel.pagesize) / Kernel.pagesize

/-- The pages of a process: those of its segments, and its stack page. -/
def ProgramPage (program : Program) (pid page : Nat) : Prop :=
  (∃ seg ∈ program.segments, seg.Touches page) ∨ page = stackPage pid

/-- What `process_setup` leaves of the memory. -/
structure SetUp (L : ProcLayout) (mem mem' : Nat → UInt8) (pid : Nat) (program : Program) : Prop where
  contents : ∀ seg ∈ program.segments, ∀ k, k < seg.size → mem' (seg.va + k) = seg.contents k
  used : ∀ page, page < npages →
    (mem (L.pages + page) = 0 ∧ mem' (L.pages + page) ≠ 0 ↔ ProgramPage program pid page)
  frame : ∀ x, ¬ ProgramPage program pid (x / Kernel.pagesize) →
    (∀ page, ProgramPage program pid page → x ≠ L.pages + page) → Outside x (L.proc pid) procBytes → mem' x = mem x

/-- The steps of `process_setup`; everything else is written into the descriptor of the process. -/
structure Stages (L : ProcLayout) (mem mem' : Nat → UInt8) (pid : Nat) (program : Program) (s₀ s₁ s₂ s₃ : State) :
    Prop where
  start : Within mem s₀.mem (L.proc pid) procBytes
  claimed : Claimed L.toLayout (fun page => ∃ seg ∈ program.segments, seg.Touches page) s₀ s₁
  disjoint : program.segments.Pairwise fun a b => ∀ page, a.Touches page → ¬ b.Touches page
  ready : Within (program.segments.foldl State.loadSegment s₁).mem s₂.mem (L.proc pid) procBytes
  stack : Claimed L.toLayout (fun page => page = stackPage pid) s₂ s₃
  finish : Within s₃.mem mem' (L.proc pid) procBytes

lemma within_proc {m m' : Nat → UInt8} {b k : Nat} (h : Within m m' (L.proc pid + b) k) (hb : b + k ≤ procBytes) :
    Within m m' (L.proc pid) procBytes :=
  h.mono (Nat.le_add_right _ _) (by omega)

lemma processSetup_stages (hfits : ∀ seg ∈ program.segments, seg.va + seg.size ≤ memsizePhysical)
    (h : Processes.processSetup L fuel mem pid program = some mem') :
    ∃ s₀ s₁ s₂ s₃, Stages L mem mem' pid program s₀ s₁ s₂ s₃ := by
  unfold Processes.processSetup at h
  dsimp only at h
  split at h
  · cases h
  · rename_i s₁ hclaims
    split at h
    · cases h
    · rename_i hfree
      cases h
      obtain ⟨hclaimed, hdisjoint⟩ := claimed_claimSegments hfits hclaims
      have hreg : ∀ (m : Nat → UInt8) (r : Reg) v,
          Within m (writeLE m (L.proc pid + procRegs + 8 * r.slot) 8 v) (L.proc pid) procBytes :=
        fun m r v => within_proc (b := procRegs) (within_reg m _ r v) (by decide)
      have hpagetable : ∀ m, Within m (writeLE m (L.proc pid) 8 L.kernelPagetable) (L.proc pid) procBytes :=
        fun m => within_proc (b := 0) (within_writeLE m _ _ _) (by decide)
      have hstate : ∀ m, Within m (writeLE m (L.proc pid + procState) 4 pRunnable) (L.proc pid) procBytes :=
        fun m => within_proc (within_writeLE m _ _ _) (by decide)
      refine ⟨_, s₁, _, _, (within_proc (within_initProcess mem _) (by decide)).trans (hpagetable _), hclaimed, hdisjoint, hreg _ .rip program.entry,
        claimed_claim _ ?_, (hreg _ .rsp _).trans (hstate _)⟩
      exact Bool.eq_false_iff.2 hfree

lemma proc_bounds (L : ProcLayout) (hpid : pid ≤ 4) :
    kernelStartAddr ≤ L.proc pid ∧ L.proc pid + procBytes ≤ 0x7F000 ∧ Apart L.pages npages (L.proc pid) procBytes := by
  have hptable := L.le_ptable
  have hend := L.ptable_le
  have himage := L.image_le
  have happart := L.pages_apart
  unfold ProcLayout.proc Apart nproc procBytes regstateSize kernelStackTop Kernel.pagesize at *
  omega

lemma stackPage_lt (hpid : pid ≤ 4) : stackPage pid < npages := stackAddr_lt hpid

theorem processSetup_setUp (hpid : pid ≤ 4) (hsegs : ∀ seg ∈ program.segments, seg.InApplication)
    (h : Processes.processSetup L fuel mem pid program = some mem') : SetUp L mem mem' pid program := by
  obtain ⟨s₀, s₁, s₂, s₃, hstages⟩ := processSetup_stages (fun seg hseg => (hsegs seg hseg).fits) h
  obtain ⟨hcontents, hkeep⟩ :=
    loadSegments_contents (fun seg hseg => (hsegs seg hseg).data_le) hstages.disjoint s₁
  obtain ⟨hprocStart, hprocEnd, hprocPages⟩ := proc_bounds L hpid
  have hpages := L.le_pages
  have hpagesEnd := L.pages_le
  have himage := L.image_le
  -- the array `pages` is written by the claims only
  have hentry : ∀ page, page < npages → s₀.mem (L.pages + page) = mem (L.pages + page) ∧
      s₂.mem (L.pages + page) = s₁.mem (L.pages + page) ∧ mem' (L.pages + page) = s₃.mem (L.pages + page) := by
    intro page hpage
    have hproc : Outside (L.pages + page) (L.proc pid) procBytes := hprocPages.outside (Nat.le_add_right _ _) (by omega)
    refine ⟨hstages.start _ hproc, (hstages.ready _ hproc).trans (hkeep _ ?_), hstages.finish _ hproc⟩
    intro seg hseg
    have hva := (hsegs seg hseg).start
    left
    unfold kernelStackTop Kernel.pagesize procStartAddr at *
    omega
  have hstack := stackPage_lt hpid
  have htouched : ∀ page, (∃ seg ∈ program.segments, seg.Touches page) → page < npages := by
    rintro page ⟨seg, hseg, hlt, -⟩
    have hfits := (hsegs seg hseg).fits
    rw [npages_eq]
    unfold memsizePhysical Kernel.pagesize at *
    omega
  have hnot : ¬ ∃ seg ∈ program.segments, seg.Touches (stackPage pid) := by
    intro htouches
    have hone := hstages.claimed.claimed _ htouches
    rw [← (hentry _ hstack).2.1, hstages.stack.unused _ rfl] at hone
    cases hone
  constructor
  · intro seg hseg k hk
    have hva := (hsegs seg hseg).start
    have happlication : 0x7F000 ≤ seg.va + k := by
      unfold procStartAddr at hva
      omega
    rw [hstages.finish _ (Or.inr (Nat.le_trans hprocEnd happlication)), hstages.stack.frame _ ?_,
      hstages.ready _ (Or.inr (Nat.le_trans hprocEnd happlication))]
    · exact hcontents seg hseg k hk
    · rintro page rfl
      unfold kernelStackTop Kernel.pagesize at himage
      omega
  · intro page hpage
    obtain ⟨hbefore, hbetween, hafter⟩ := hentry page hpage
    rw [← hbefore, hafter]
    constructor
    · rintro ⟨hunused, hused⟩
      by_contra hnone
      unfold ProgramPage at hnone
      rw [not_or] at hnone
      rw [hstages.stack.other hnone.2, hbetween, hstages.claimed.other hnone.1] at hused
      exact hused hunused
    · rintro (htouches | rfl)
      · have hne : page ≠ stackPage pid := fun heq => hnot (heq ▸ htouches)
        refine ⟨hstages.claimed.unused page htouches, ?_⟩
        rw [hstages.stack.other hne, hbetween, hstages.claimed.claimed page htouches]
        decide
      · refine ⟨?_, ?_⟩
        · rw [← hstages.claimed.other hnot, ← hbetween]
          exact hstages.stack.unused _ rfl
        · rw [hstages.stack.claimed _ rfl]
          decide
  · intro x hpage hentries hproc
    rw [hstages.finish x hproc, hstages.stack.frame x fun page heq => hentries page (Or.inr heq), hstages.ready x hproc,
      hkeep x ?_, hstages.claimed.frame x fun page htouches => hentries page (Or.inl htouches), hstages.start x hproc]
    intro seg hseg
    by_contra hin
    unfold Outside at hin
    have htouches : seg.Touches ((seg.va + (x - seg.va)) / Kernel.pagesize) := Segment.touches_of_mem (by omega)
    rw [Nat.add_sub_cancel' (by omega)] at htouches
    exact hpage (Or.inl ⟨seg, hseg, htouches⟩)

/-- A process whose pages are unused is set up. -/
lemma processSetup_total (hpid : pid ≤ 4) (hsegs : ∀ seg ∈ program.segments, seg.InApplication)
    (hapart : program.segments.Pairwise fun a b => ∀ page, a.Touches page → ¬b.Touches page)
    (hstack : ¬∃ seg ∈ program.segments, seg.Touches (stackPage pid))
    (hunused : ∀ page, page < npages → ProgramPage program pid page → mem (L.pages + page) = 0) (hfuel : 512 < fuel) :
    ∃ mem', Processes.processSetup L fuel mem pid program = some mem' := by
  obtain ⟨-, hprocEnd, hprocPages⟩ := proc_bounds L hpid
  have hpagesEnd := L.pages_le
  have himage := L.image_le
  have hpage := stackPage_lt hpid
  have hentry : ∀ page, page < npages → Outside (L.pages + page) (L.proc pid) procBytes :=
    fun page hlt => hprocPages.outside (Nat.le_add_right _ _) (by omega)
  have hstart : Within mem (writeLE (initProcess mem (L.proc pid)) (L.proc pid) 8 L.kernelPagetable) (L.proc pid) procBytes :=
    (within_proc (within_initProcess mem _) (by decide)).trans (within_proc (b := 0) (within_writeLE _ _ _ _) (by decide))
  have htouched : ∀ seg ∈ program.segments, ∀ page, seg.Touches page → page < npages := by
    rintro seg hseg page ⟨hlt, -⟩
    have hfits := (hsegs seg hseg).fits
    rw [npages_eq]
    unfold memsizePhysical Kernel.pagesize at *
    omega
  obtain ⟨s₁, hclaims⟩ := claimSegments_total (L := L.toLayout)
    (s := ⟨writeLE (initProcess mem (L.proc pid)) (L.proc pid) 8 L.kernelPagetable, fun _ => ⟨false, 0, 0⟩, []⟩) hsegs hapart
    (fun seg hseg page htouches => by
      have hlt := htouched seg hseg page htouches
      exact (hstart _ (hentry page hlt)).trans (hunused page hlt (Or.inl ⟨seg, hseg, htouches⟩))) hfuel
  have hclaimed := (claimed_claimSegments (fun seg hseg => (hsegs seg hseg).fits) hclaims).1
  have hkeep := (loadSegments_contents (fun seg hseg => (hsegs seg hseg).data_le) hapart s₁).2
  have hfree : State.used L.toLayout ⟨writeLE (program.segments.foldl State.loadSegment s₁).mem
      (L.proc pid + procRegs + 8 * Reg.rip.slot) 8 program.entry, fun _ => ⟨false, 0, 0⟩, []⟩ (stackPage pid) = false := by
    have hreg : Within (program.segments.foldl State.loadSegment s₁).mem
        (writeLE (program.segments.foldl State.loadSegment s₁).mem (L.proc pid + procRegs + 8 * Reg.rip.slot) 8 program.entry)
        (L.proc pid) procBytes := within_proc (b := procRegs) (within_reg _ _ .rip _) (by decide)
    unfold State.used
    dsimp only
    rw [hreg _ (hentry _ hpage), hkeep, hclaimed.other hstack]
    · dsimp only
      rw [hstart _ (hentry _ hpage), hunused _ hpage (Or.inr rfl)]
      rfl
    · intro seg hseg
      have hva := (hsegs seg hseg).start
      left
      unfold kernelStackTop Kernel.pagesize procStartAddr at *
      omega
  unfold Processes.processSetup
  dsimp only
  rw [hclaims]
  dsimp only
  unfold stackPage at hfree
  rw [hfree]
  exact ⟨_, rfl⟩

end SetUp

/-! ### Executables -/

/-- The header at `ph` is of a segment in application memory, whose data is inside the executable. -/
structure Loadable (mem : Nat → UInt8) (len ph : Nat) : Prop where
  pos : 0 < pMemsz mem ph
  filesz_le : pFilesz mem ph ≤ pMemsz mem ph
  start : procStartAddr ≤ pVa mem ph
  fits : pVa mem ph + pMemsz mem ph ≤ memsizePhysical
  inside : pOffset mem ph + pFilesz mem ph ≤ len

/-- The header `i` of the executable at `elf`. -/
def header (mem : Nat → UInt8) (elf i : Nat) : Nat := elf + ePhoff mem elf + elfProgramSize * i

/-- An executable of `len` bytes: its headers are inside, in any number and order. -/
structure Executable (mem : Nat → UInt8) (elf len : Nat) : Prop where
  header : elfHeaderSize ≤ len
  programs : ePhoff mem elf + elfProgramSize * ePhnum mem elf ≤ len
  segments : ∀ i, i < ePhnum mem elf → pType mem (Processes.header mem elf i) = elfPtypeLoad →
    Loadable mem len (Processes.header mem elf i)

/-- Where the linker puts an executable: into the kernel image, apart from the variables of the kernel. -/
structure ProcLayout.Links (L : ProcLayout) (elf len : Nat) : Prop where
  start : kernelStartAddr ≤ elf
  fits : elf + len ≤ L.kernelEnd
  pages : Apart elf len L.pages npages
  ptable : Apart elf len L.ptable (nproc * procBytes)

def segmentAt (mem : Nat → UInt8) (elf ph : Nat) : Segment :=
  ⟨pVa mem ph, pMemsz mem ph, (List.range (pFilesz mem ph)).map fun k => mem (elf + pOffset mem ph + k)⟩

def segmentsFrom (mem : Nat → UInt8) (elf : Nat) : Nat → Nat → List Segment
  | _, 0 => []
  | ph, left + 1 =>
    if pType mem ph = elfPtypeLoad then segmentAt mem elf ph :: segmentsFrom mem elf (ph + elfProgramSize) left
    else segmentsFrom mem elf (ph + elfProgramSize) left

/-- The executable as the list of its loadable segments. -/
def programAt (mem : Nat → UInt8) (elf : Nat) : Program :=
  ⟨segmentsFrom mem elf (elf + ePhoff mem elf) (ePhnum mem elf), eEntry mem elf⟩

section Refinement

variable {L : ProcLayout} {fuel pid elf len ph : Nat} {mem m m' : Nat → UInt8} {s s' : State}

lemma mem_segmentsFrom {n : Nat} {seg : Segment} : seg ∈ segmentsFrom mem elf ph n ↔
    ∃ i, i < n ∧ pType mem (ph + elfProgramSize * i) = elfPtypeLoad ∧ seg = segmentAt mem elf (ph + elfProgramSize * i) := by
  induction n generalizing ph with
  | zero => simp [segmentsFrom]
  | succ n ih =>
    have hshift : ∀ i, ph + elfProgramSize + elfProgramSize * i = ph + elfProgramSize * (i + 1) := by
      intro i
      rw [Nat.mul_succ]
      omega
    have hrest : seg ∈ segmentsFrom mem elf (ph + elfProgramSize) n ↔ ∃ i, i < n ∧
        pType mem (ph + elfProgramSize * (i + 1)) = elfPtypeLoad ∧ seg = segmentAt mem elf (ph + elfProgramSize * (i + 1)) := by
      rw [ih]
      simp only [hshift]
    have hall : seg ∈ segmentsFrom mem elf ph (n + 1) ↔ (pType mem ph = elfPtypeLoad ∧ seg = segmentAt mem elf ph) ∨
        seg ∈ segmentsFrom mem elf (ph + elfProgramSize) n := by
      rw [segmentsFrom]
      split
      · rename_i htype
        simp [htype]
      · rename_i htype
        simp [htype]
    rw [hall, hrest]
    constructor
    · rintro (hfirst | ⟨i, hi, hlater⟩)
      · exact ⟨0, Nat.succ_pos n, hfirst⟩
      · exact ⟨i + 1, Nat.succ_lt_succ hi, hlater⟩
    · rintro ⟨i, hi, hseg⟩
      cases i with
      | zero => exact Or.inl hseg
      | succ i => exact Or.inr ⟨i, Nat.lt_of_succ_lt_succ hi, hseg⟩

/-- The executable has not been written over. -/
def Unwritten (mem m : Nat → UInt8) (elf len : Nat) : Prop := ∀ x, elf ≤ x → x < elf + len → m x = mem x

namespace Unwritten

lemma readLE (h : Unwritten mem m elf len) {a n : Nat} (ha : elf ≤ a) (hn : a + n ≤ elf + len) :
    Bytes.readLE m a n = Bytes.readLE mem a n :=
  readLE_congr fun x hx hlt => h x (by omega) (by omega)

lemma within (h : Unwritten mem m elf len) {a n : Nat} (hwithin : Within m m' a n) (hapart : Apart elf len a n) :
    Unwritten mem m' elf len :=
  fun x hx hlt => (hwithin x (hapart.outside hx hlt)).trans (h x hx hlt)

lemma fields (h : Unwritten mem m elf len) (hph : elf ≤ ph) (hend : ph + elfProgramSize ≤ elf + len) (n : Nat) :
    ProgramLoader.va m ⟨elf, ph, n + 1⟩ = pVa mem ph ∧ ProgramLoader.size m ⟨elf, ph, n + 1⟩ = pMemsz mem ph ∧
      ProgramLoader.data m ⟨elf, ph, n + 1⟩ = elf + pOffset mem ph ∧
      ProgramLoader.dataSize m ⟨elf, ph, n + 1⟩ = pFilesz mem ph := by
  have hfield : ∀ k n, k + n ≤ elfProgramSize → Bytes.readLE m (ph + k) n = Bytes.readLE mem (ph + k) n :=
    fun k n hk => h.readLE (by omega) (by omega)
  have hva : pVa m ph = pVa mem ph := hfield 0x10 8 (by decide)
  have hmemsz : pMemsz m ph = pMemsz mem ph := hfield 0x28 8 (by decide)
  have hoffset : pOffset m ph = pOffset mem ph := hfield 0x08 8 (by decide)
  have hfilesz : pFilesz m ph = pFilesz mem ph := hfield 0x20 8 (by decide)
  have hpresent : ProgramLoader.present ⟨elf, ph, n + 1⟩ = true := rfl
  unfold ProgramLoader.va ProgramLoader.size ProgramLoader.data ProgramLoader.dataSize
  simp only [hpresent, if_true]
  exact ⟨hva, hmemsz, congrArg (elf + ·) hoffset, hfilesz⟩

lemma segment (h : Unwritten mem m elf len) (hph : elf ≤ ph) (hend : ph + elfProgramSize ≤ elf + len)
    (hload : Loadable mem len ph) (n : Nat) : ProgramLoader.segment m ⟨elf, ph, n + 1⟩ = segmentAt mem elf ph := by
  obtain ⟨hva, hsize, hoffset, hfilesz⟩ := h.fields hph hend n
  have hinside := hload.inside
  unfold ProgramLoader.segment segmentAt
  rw [hva, hsize, hoffset, hfilesz]
  have hdata : ((List.range (pFilesz mem ph)).map fun k => m (elf + pOffset mem ph + k)) =
      (List.range (pFilesz mem ph)).map fun k => mem (elf + pOffset mem ph + k) := by
    apply List.map_congr_left
    intro k hk
    rw [List.mem_range] at hk
    exact h _ (by omega) (by omega)
  rw [hdata]

end Unwritten

lemma header_zero (mem : Nat → UInt8) (elf : Nat) : header mem elf 0 = elf + ePhoff mem elf := by
  rw [header, Nat.mul_zero, Nat.add_zero]

lemma header_succ (mem : Nat → UInt8) (elf i : Nat) : header mem elf i + elfProgramSize = header mem elf (i + 1) := by
  rw [header, header, Nat.mul_succ, Nat.add_assoc]

lemma Executable.header_bounds (hexe : Executable mem elf len) {i : Nat} (hi : i < ePhnum mem elf) :
    elf ≤ Processes.header mem elf i ∧ Processes.header mem elf i + elfProgramSize ≤ elf + len := by
  have hprograms := hexe.programs
  unfold Processes.header elfProgramSize at *
  omega

namespace ProgramLoader

lemma claimPages_eq (hlinks : L.Links elf len) (h : Unwritten mem s.mem elf len) (hph : elf ≤ ph)
    (hend : ph + elfProgramSize ≤ elf + len) (hload : Loadable mem len ph) (n : Nat) :
    claimPages L fuel s ⟨elf, ph, n + 1⟩ = s.claimSegment L.toLayout fuel (segmentAt mem elf ph) := by
  have hseg := h.segment hph hend hload n
  have hva : va s.mem ⟨elf, ph, n + 1⟩ = (segmentAt mem elf ph).va := congrArg Segment.va hseg
  have hrun : ∀ r : State × Nat, Unwritten mem r.1.mem elf len →
      Loop.run (claimRound L ⟨elf, ph, n + 1⟩) fuel r =
        Loop.run (State.claimRound L.toLayout (segmentAt mem elf ph)) fuel r := by
    intro r hr
    refine Loop.run_congr _ (fun r => Unwritten mem r.1.mem elf len) ?_ ?_ hr fuel
    · intro r hr
      unfold claimRound
      rw [hr.segment hph hend hload n]
    · rintro ⟨t, a⟩ r ht hround
      obtain ⟨ha, -, rfl⟩ := claimRound_next hround
      have hpage : a / Kernel.pagesize < npages :=
        page_lt (Nat.lt_of_lt_of_le (Nat.lt_of_lt_of_le ha (Nat.mod_le _ _)) hload.fits)
      have hpages := hlinks.pages
      apply ht.within (within_fill t.mem (L.pages + a / Kernel.pagesize) 1 1)
      generalize a / Kernel.pagesize = page at hpage ⊢
      unfold Apart at *
      omega
  unfold claimPages State.claimSegment
  rw [hva, hrun _ h]

lemma load_eq (hlinks : L.Links elf len) (h : Unwritten mem s.mem elf len) (hph : elf ≤ ph)
    (hend : ph + elfProgramSize ≤ elf + len) (hload : Loadable mem len ph) (n : Nat) :
    load s ⟨elf, ph, n + 1⟩ = s.loadSegment (segmentAt mem elf ph) ∧
      Unwritten mem (load s ⟨elf, ph, n + 1⟩).mem elf len := by
  have himage := L.image_le
  have hlinked := hlinks.fits
  have hstart := hload.start
  have hinside := hload.inside
  have hfilesz := hload.filesz_le
  have happart : Apart elf len (pVa mem ph) (pMemsz mem ph) := by
    unfold Apart kernelStackTop procStartAddr Kernel.pagesize at *
    omega
  have hzeroed := h.within (within_fill s.mem (pVa mem ph) (pMemsz mem ph) 0) happart
  have hcopied : load s ⟨elf, ph, n + 1⟩ = { s with
      mem := blit (fill s.mem (pVa mem ph) 0 (pMemsz mem ph)) (pVa mem ph) (pFilesz mem ph) fun k =>
        mem (elf + pOffset mem ph + k) } := by
    obtain ⟨hva, hsize, -, -⟩ := h.fields hph hend n
    obtain ⟨hva', -, hdata', hsize'⟩ := hzeroed.fields hph hend n
    have hbelow : elf + pOffset mem ph + pFilesz mem ph ≤ pVa mem ph := by
      unfold kernelStackTop procStartAddr Kernel.pagesize at *
      omega
    have hsource : ∀ k, k < pFilesz mem ph → fill s.mem (pVa mem ph) 0 (pMemsz mem ph) (elf + pOffset mem ph + k) =
        mem (elf + pOffset mem ph + k) :=
      fun k hk => hzeroed _ (by omega) (by omega)
    have hcopy : memcpy (fill s.mem (pVa mem ph) 0 (pMemsz mem ph)) (pVa mem ph) (elf + pOffset mem ph) (pFilesz mem ph) =
        blit (fill s.mem (pVa mem ph) 0 (pMemsz mem ph)) (pVa mem ph) (pFilesz mem ph) fun k =>
          mem (elf + pOffset mem ph + k) :=
      (copyUp_eq _ _ _ _ (Or.inr hbelow)).trans (blit_congr hsource)
    unfold load
    simp only [memset_eq, hva, hsize, hva', hdata', hsize', hcopy]
  rw [hcopied]
  constructor
  · unfold State.loadSegment State.memset State.memcpy segmentAt
    rw [copy_map_range]
  · have hdata : Apart elf len (pVa mem ph) (pFilesz mem ph) := by
      unfold Apart at *
      omega
    dsimp only
    exact hzeroed.within (within_blit _ _ _ _) hdata

lemma reset_eq_some (hpos : elf ≠ 0) (hexe : Executable mem elf len) (h : Unwritten mem m elf len) {l : ProgramLoader}
    (hreset : reset m elf = some l) : l = fixFrom m elf (header mem elf 0) (ePhnum mem elf) := by
  have hheader := hexe.header
  have hfield : ∀ k n, k + n ≤ elfHeaderSize → Bytes.readLE m (elf + k) n = Bytes.readLE mem (elf + k) n :=
    fun k n hk => h.readLE (Nat.le_add_right _ _) (by omega)
  have hphoff : ePhoff m elf = ePhoff mem elf := hfield 0x20 8 (by decide)
  have hphnum : ePhnum m elf = ePhnum mem elf := hfield 0x38 2 (by decide)
  rw [reset, if_neg hpos, hphoff, hphnum, ← header_zero] at hreset
  split at hreset
  · exact (Option.some.inj hreset).symm
  · cases hreset

/-- A pass over the headers is one over the segments, if its body does the same for each segment and does not write
over the executable. -/
lemma run_segments {body : State → ProgramLoader → Option State} {body' : State → Segment → Option State}
    (hexe : Executable mem elf len)
    (hbody : ∀ s i n t, i < ePhnum mem elf → pType mem (header mem elf i) = elfPtypeLoad → Unwritten mem s.mem elf len →
      body s ⟨elf, header mem elf i, n + 1⟩ = some t →
        body' s (segmentAt mem elf (header mem elf i)) = some t ∧ Unwritten mem t.mem elf len)
    {i left : Nat} (hleft : i + left = ePhnum mem elf) (h : Unwritten mem s.mem elf len)
    (hrun : Loop.run (segmentRound body) fuel (s, fixFrom s.mem elf (header mem elf i) left) = some (some s')) :
    (segmentsFrom mem elf (header mem elf i) left).foldlM body' s = some s' ∧ Unwritten mem s'.mem elf len := by
  induction left generalizing i s fuel with
  | zero =>
    cases fuel with
    | zero => cases hrun
    | succ fuel =>
      rw [Loop.run_done (segmentRound body) (r := some s) rfl] at hrun
      obtain rfl : s = s' := Option.some.inj (Option.some.inj hrun)
      exact ⟨rfl, h⟩
  | succ left ih =>
    obtain ⟨hph, hend⟩ := hexe.header_bounds (show i < ePhnum mem elf by omega)
    have htype : pType s.mem (header mem elf i) = pType mem (header mem elf i) :=
      h.readLE hph (Nat.le_trans (Nat.add_le_add_left (by decide) _) hend)
    rw [fixFrom, htype] at hrun
    rw [segmentsFrom]
    by_cases hload : pType mem (header mem elf i) = elfPtypeLoad
    · rw [if_pos hload] at hrun ⊢
      cases fuel with
      | zero => cases hrun
      | succ fuel =>
        cases hstep : body s ⟨elf, header mem elf i, left + 1⟩ with
        | none =>
          have hround : segmentRound body (s, ⟨elf, header mem elf i, left + 1⟩) = .done none := by
            simp [segmentRound, present, hstep]
          rw [Loop.run_done _ hround] at hrun
          cases hrun
        | some t =>
          have hround : segmentRound body (s, ⟨elf, header mem elf i, left + 1⟩) =
              .next (t, fixFrom t.mem elf (header mem elf (i + 1)) left) := by
            simp [segmentRound, present, next, hstep, header_succ]
          rw [Loop.run_next _ hround] at hrun
          obtain ⟨hfirst, hkept⟩ := hbody s i left t (by omega) hload h hstep
          rw [List.foldlM_cons, hfirst, header_succ]
          exact ih (by omega) hkept hrun
    · rw [if_neg hload, header_succ] at hrun ⊢
      exact ih (by omega) h hrun

lemma forSegments_eq {body : State → ProgramLoader → Option State} (body' : State → Segment → Option State)
    (hpos : elf ≠ 0) (hexe : Executable mem elf len)
    (hbody : ∀ s i n t, i < ePhnum mem elf → pType mem (header mem elf i) = elfPtypeLoad → Unwritten mem s.mem elf len →
      body s ⟨elf, header mem elf i, n + 1⟩ = some t →
        body' s (segmentAt mem elf (header mem elf i)) = some t ∧ Unwritten mem t.mem elf len)
    (h : Unwritten mem s.mem elf len) (hrun : forSegments fuel elf body s = some s') :
    (programAt mem elf).segments.foldlM body' s = some s' ∧ Unwritten mem s'.mem elf len := by
  unfold forSegments at hrun
  rw [Option.bind_eq_some_iff] at hrun
  obtain ⟨l, hreset, hloop⟩ := hrun
  rw [Option.join_eq_some_iff, reset_eq_some hpos hexe h hreset] at hloop
  have hsegments : (programAt mem elf).segments = segmentsFrom mem elf (header mem elf 0) (ePhnum mem elf) := by
    rw [header_zero]
    rfl
  rw [hsegments]
  exact run_segments hexe hbody (Nat.zero_add _) h hloop

lemma claimPages_segment (hlinks : L.Links elf len) (hexe : Executable mem elf len) (s : State) (i n : Nat) (t : State)
    (hi : i < ePhnum mem elf) (htype : pType mem (header mem elf i) = elfPtypeLoad) (h : Unwritten mem s.mem elf len)
    (hstep : claimPages L fuel s ⟨elf, header mem elf i, n + 1⟩ = some t) :
    s.claimSegment L.toLayout fuel (segmentAt mem elf (header mem elf i)) = some t ∧ Unwritten mem t.mem elf len := by
  obtain ⟨hph, hend⟩ := hexe.header_bounds hi
  have hload := hexe.segments i hi htype
  rw [claimPages_eq hlinks h hph hend hload] at hstep
  have hfits : (segmentAt mem elf (header mem elf i)).va + (segmentAt mem elf (header mem elf i)).size ≤ memsizePhysical :=
    hload.fits
  refine ⟨hstep, ?_⟩
  intro x hx hlt
  rw [(claimed_claimSegment hfits hstep).frame x]
  · exact h x hx hlt
  · rintro page ⟨hpage, -⟩ rfl
    have hpages := hlinks.pages
    rw [npages_eq] at hpages
    unfold Apart memsizePhysical Kernel.pagesize at *
    omega

lemma load_segment (hlinks : L.Links elf len) (hexe : Executable mem elf len) (s : State) (i n : Nat) (t : State)
    (hi : i < ePhnum mem elf) (htype : pType mem (header mem elf i) = elfPtypeLoad) (h : Unwritten mem s.mem elf len)
    (hstep : some (load s ⟨elf, header mem elf i, n + 1⟩) = some t) :
    some (s.loadSegment (segmentAt mem elf (header mem elf i))) = some t ∧ Unwritten mem t.mem elf len := by
  obtain ⟨hph, hend⟩ := hexe.header_bounds hi
  obtain ⟨heq, hkept⟩ := load_eq hlinks h hph hend (hexe.segments i hi htype) n
  obtain rfl := Option.some.inj hstep
  exact ⟨congrArg some heq.symm, hkept⟩

lemma fixFrom_elf (mem : Nat → UInt8) (elf ph n : Nat) : (fixFrom mem elf ph n).elf = elf := by
  induction n generalizing ph with
  | zero => rfl
  | succ n ih =>
    rw [fixFrom]
    split
    · rfl
    · exact ih _

/-- `process_setup` does with an executable what it does with the list of its segments. -/
theorem processSetup_refines (hlinks : L.Links elf len) (hexe : Executable mem elf len) (hpid : pid ≤ 4)
    (h : processSetup L fuel mem pid elf = some mem') :
    Processes.processSetup L fuel mem pid (programAt mem elf) = some mem' := by
  have hpos : elf ≠ 0 := by
    have hstart := hlinks.start
    unfold kernelStartAddr at hstart
    omega
  have hheader := hexe.header
  have hunwritten : Unwritten mem (writeLE (initProcess mem (L.proc pid)) (L.proc pid) 8 L.kernelPagetable) elf len := by
    have hproc : Apart elf len (L.proc pid) procBytes := by
      have hptable := hlinks.ptable
      unfold ProcLayout.proc Apart nproc procBytes regstateSize at *
      omega
    have hpagetable := within_writeLE (initProcess mem (L.proc pid)) (L.proc pid) 8 L.kernelPagetable
    have hsame : Unwritten mem mem elf len := fun _ _ _ => rfl
    have hinit := within_proc (within_initProcess mem (L.proc pid)) (by decide)
    exact hsame.within (hinit.trans (within_proc (b := 0) hpagetable (by decide))) hproc
  unfold processSetup at h
  dsimp only at h
  rw [Option.bind_eq_some_iff] at h
  obtain ⟨loader, hreset, h⟩ := h
  rw [Option.bind_eq_some_iff] at h
  obtain ⟨s₁, hclaims, h⟩ := h
  rw [Option.bind_eq_some_iff] at h
  obtain ⟨s₂, hloads, h⟩ := h
  obtain ⟨hclaims, hkept⟩ :=
    forSegments_eq (State.claimSegment L.toLayout fuel) hpos hexe (claimPages_segment hlinks hexe) hunwritten hclaims
  obtain ⟨hloads, hkept⟩ :=
    forSegments_eq (fun s seg => some (s.loadSegment seg)) hpos hexe (load_segment hlinks hexe) hkept hloads
  have hfold : (programAt mem elf).segments.foldlM (fun s seg => some (State.loadSegment s seg)) s₁ =
      some ((programAt mem elf).segments.foldl State.loadSegment s₁) := List.foldlM_pure
  obtain rfl : s₂ = (programAt mem elf).segments.foldl State.loadSegment s₁ := Option.some.inj (hloads.symm.trans hfold)
  have hentry : ∀ m, Unwritten mem m elf len → loader.entry m = eEntry mem elf := by
    intro m hm
    rw [reset_eq_some hpos hexe hunwritten hreset, entry, fixFrom_elf, if_neg hpos]
    exact hm.readLE (Nat.le_add_right _ _) (by unfold elfHeaderSize at hheader; omega)
  unfold Processes.processSetup
  dsimp only
  rw [hclaims]
  dsimp only
  rw [hentry _ hkept] at h
  exact h

end ProgramLoader

end Refinement

/-! ### Main results -/

/-- The page is touched by a loadable segment, or is the stack page of the process. -/
def ExecutablePage (mem : Nat → UInt8) (elf pid page : Nat) : Prop :=
  (∃ i, i < ePhnum mem elf ∧ pType mem (header mem elf i) = elfPtypeLoad ∧
    page * Kernel.pagesize < pVa mem (header mem elf i) + pMemsz mem (header mem elf i) ∧
    pVa mem (header mem elf i) < (page + 1) * Kernel.pagesize) ∨ page = stackPage pid

/-- What `process_setup` records about a process: the entries of its pages in `pages`, and its descriptor. -/
def Records (L : ProcLayout) (mem : Nat → UInt8) (elf pid x : Nat) : Prop :=
  (∃ page, ExecutablePage mem elf pid page ∧ x = L.pages + page) ∨ (L.proc pid ≤ x ∧ x < L.proc pid + procBytes)

/-- The executable at `elf` is loaded. In other pages than its own, only the bytes with `except` have changed. -/
structure LoadsExecutable (L : ProcLayout) (mem mem' : Nat → UInt8) (pid elf : Nat) (except : Nat → Prop) : Prop where
  data : ∀ i, i < ePhnum mem elf → pType mem (header mem elf i) = elfPtypeLoad → ∀ k, k < pFilesz mem (header mem elf i) →
    mem' (pVa mem (header mem elf i) + k) = mem (elf + pOffset mem (header mem elf i) + k)
  zero : ∀ i, i < ePhnum mem elf → pType mem (header mem elf i) = elfPtypeLoad →
    ∀ k, pFilesz mem (header mem elf i) ≤ k → k < pMemsz mem (header mem elf i) →
      mem' (pVa mem (header mem elf i) + k) = 0
  used : ∀ page, page < npages →
    (mem (L.pages + page) = 0 ∧ mem' (L.pages + page) ≠ 0 ↔ ExecutablePage mem elf pid page)
  frame : ∀ x, ¬ ExecutablePage mem elf pid (x / Kernel.pagesize) → ¬ except x → mem' x = mem x

section Results

variable {L : ProcLayout} {fuel pid elf len : Nat} {mem mem' : Nat → UInt8}

lemma mem_programAt {seg : Segment} : seg ∈ (programAt mem elf).segments ↔ ∃ i, i < ePhnum mem elf ∧
    pType mem (header mem elf i) = elfPtypeLoad ∧ seg = segmentAt mem elf (header mem elf i) := mem_segmentsFrom

lemma programPage_iff {page : Nat} : ProgramPage (programAt mem elf) pid page ↔ ExecutablePage mem elf pid page := by
  unfold ProgramPage ExecutablePage
  refine or_congr_left ?_
  constructor
  · rintro ⟨seg, hseg, htouches⟩
    obtain ⟨i, hi, htype, rfl⟩ := mem_programAt.1 hseg
    exact ⟨i, hi, htype, htouches⟩
  · rintro ⟨i, hi, htype, htouches⟩
    exact ⟨_, mem_programAt.2 ⟨i, hi, htype, rfl⟩, htouches⟩

lemma segmentAt_contents (mem : Nat → UInt8) (elf ph : Nat) {k : Nat} (hk : k < pFilesz mem ph) :
    (segmentAt mem elf ph).contents k = mem (elf + pOffset mem ph + k) := by
  unfold Segment.contents segmentAt
  rw [List.getElem?_map, List.getElem?_range hk]
  rfl

/-- When no assertion of `process_setup` fails, the executable is loaded, and besides its pages only what the kernel
records about the process has changed. -/
theorem processSetup_loads (hlinks : L.Links elf len) (hexe : Executable mem elf len) (hpid : pid ≤ 4)
    (h : ProgramLoader.processSetup L fuel mem pid elf = some mem') :
    LoadsExecutable L mem mem' pid elf (Records L mem elf pid) := by
  have hlength : ∀ ph, (segmentAt mem elf ph).data.length = pFilesz mem ph := by
    intro ph
    simp [segmentAt]
  have happlication : ∀ seg ∈ (programAt mem elf).segments, seg.InApplication := by
    intro seg hseg
    obtain ⟨i, hi, htype, rfl⟩ := mem_programAt.1 hseg
    have hload := hexe.segments i hi htype
    exact ⟨hload.pos, (hlength _).le.trans hload.filesz_le, hload.start, hload.fits⟩
  have hsetUp := processSetup_setUp hpid happlication (ProgramLoader.processSetup_refines hlinks hexe hpid h)
  constructor
  · intro i hi htype k hk
    have hcontents := hsetUp.contents _ (mem_programAt.2 ⟨i, hi, htype, rfl⟩) k
      (Nat.lt_of_lt_of_le hk (hexe.segments i hi htype).filesz_le)
    exact hcontents.trans (segmentAt_contents mem elf _ hk)
  · intro i hi htype k hge hlt
    have hcontents := hsetUp.contents _ (mem_programAt.2 ⟨i, hi, htype, rfl⟩) k hlt
    exact hcontents.trans (Segment.contents_of_ge ((hlength _).le.trans hge))
  · intro page hpage
    exact (hsetUp.used page hpage).trans programPage_iff
  · intro x hpage hrecords
    unfold Records at hrecords
    rw [not_or] at hrecords
    apply hsetUp.frame x
    · exact fun hprogram => hpage (programPage_iff.1 hprogram)
    · exact fun page hprogram heq => hrecords.1 ⟨page, programPage_iff.1 hprogram, heq⟩
    · have hproc := hrecords.2
      unfold Outside
      omega

end Results

/-! ### A process in memory -/

def loaderLayout : ProcLayout where
  kernelEnd := 0x60000
  pages := 0x50000
  nextAllocPa := 0x51800
  ptable := 0x52400
  current := 0x53800
  kernelPagetable := 0x54000
  kernelEnd_le := by decide
  le_pages := by decide
  pages_le := by decide
  le_nextAllocPa := by decide
  nextAllocPa_le := by decide
  disjoint := by decide
  image_le := by decide
  le_ptable := by decide
  ptable_le := by decide
  le_current := by decide
  current_le := by decide
  current_apart := Or.inr (by decide)
  pages_apart := Or.inl (by decide)
  pages_current := Or.inl (by decide)

/-- An executable at 0x58000 with the given number of headers: one that is not loaded, and one of a segment with two
bytes of data. -/
def loaderMemory (phnum : Nat) : Nat → UInt8 :=
  [(0x58000, 4, elfMagic), (0x58020, 8, 64), (0x58038, 2, phnum), (0x58040, 4, 4), (0x58078, 4, elfPtypeLoad),
    (0x58080, 8, 176), (0x58088, 8, 0x100010), (0x58098, 8, 2), (0x580A0, 8, 5), (0x580B0, 2, 0x0807)].foldl
      (fun m w => writeLE m w.1 w.2.1 w.2.2) fun _ => 0

lemma loaderLayout_links : loaderLayout.Links 0x58000 178 :=
  ⟨by decide, by decide, Or.inr (by decide), Or.inr (by decide)⟩

/-- `process_setup` also changes the process table, which is in another page. -/
theorem processSetup_writes_table : loaderLayout.Links 0x58000 178 ∧ Executable (loaderMemory 0) 0x58000 178 ∧
    ∃ mem', ProgramLoader.processSetup loaderLayout 4 (loaderMemory 0) 1 0x58000 = some mem' ∧
      ¬ LoadsExecutable loaderLayout (loaderMemory 0) mem' 1 0x58000 fun _ => False := by
  have hstate : (ProgramLoader.processSetup loaderLayout 4 (loaderMemory 0) 1 0x58000).map
      (fun m => m (loaderLayout.proc 1 + procState)) = some 1 := by decide +kernel
  have hphnum : ePhnum (loaderMemory 0) 0x58000 = 0 := by decide +kernel
  obtain ⟨mem', hrun, hone⟩ := Option.map_eq_some_iff.1 hstate
  refine ⟨loaderLayout_links, ⟨by decide, by decide +kernel, ?_⟩, mem', hrun, ?_⟩
  · intro i hi
    rw [hphnum] at hi
    exact absurd hi (Nat.not_lt_zero i)
  · intro hloads
    have hpage : ¬ ExecutablePage (loaderMemory 0) 0x58000 1 ((loaderLayout.proc 1 + procState) / Kernel.pagesize) := by
      rintro (⟨i, hi, -⟩ | hstack)
      · rw [hphnum] at hi
        exact absurd hi (Nat.not_lt_zero i)
      · revert hstack
        decide
    rw [hloads.frame _ hpage not_false] at hone
    revert hone
    decide +kernel

theorem processSetup_loads_sample : ∃ mem',
    ProgramLoader.processSetup loaderLayout 4 (loaderMemory 2) 1 0x58000 = some mem' ∧ mem' 0x100011 = 8 ∧ mem' 0x100014 = 0 := by
  have hsome : (ProgramLoader.processSetup loaderLayout 4 (loaderMemory 2) 1 0x58000).isSome = true := by decide +kernel
  obtain ⟨mem', hrun⟩ := Option.isSome_iff_exists.1 hsome
  have hphnum : ePhnum (loaderMemory 2) 0x58000 = 2 := by decide +kernel
  have hexe : Executable (loaderMemory 2) 0x58000 178 := by
    refine ⟨by decide, by decide +kernel, ?_⟩
    intro i hi htype
    rw [hphnum] at hi
    obtain rfl | rfl : i = 0 ∨ i = 1 := by omega
    · exact absurd htype (by decide +kernel)
    · exact ⟨by decide +kernel, by decide +kernel, by decide +kernel, by decide +kernel, by decide +kernel⟩
  have hloads := processSetup_loads loaderLayout_links hexe (by decide) hrun
  have hdata := hloads.data 1 (by decide +kernel) (by decide +kernel) 1 (by decide +kernel)
  have hzero := hloads.zero 1 (by decide +kernel) (by decide +kernel) 4 (by decide +kernel) (by decide +kernel)
  have hva : pVa (loaderMemory 2) (header (loaderMemory 2) 0x58000 1) = 0x100010 := by decide +kernel
  rw [hva] at hdata hzero
  exact ⟨mem', hrun, hdata.trans (by decide +kernel), hzero⟩

end Cs300Projects.WeensyOS.Processes
