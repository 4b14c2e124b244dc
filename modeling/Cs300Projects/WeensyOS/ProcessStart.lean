import Cs300Projects.WeensyOS.ProcessRuns
import Cs300Projects.WeensyOS.ProgramSegments

/-!
# The process table at the start

`kernel` initializes the table and sets up the first processes. When their programs are loaded outside
the kernel image, the run starts in a state in which process 1 is running.
-/

namespace Cs300Projects.WeensyOS.Processes

open Kernel

variable {L : ProcLayout} {checkPagetable : (Nat → UInt8) → Nat → Bool} {fuel : Nat} {mem mem' : Nat → UInt8}

/-! ### Loading -/

def ProgramClear (L : ProcLayout) (program : Program) : Prop := ∀ seg ∈ program.segments, seg.Clear L.toLayout

/-- The array `pages` is apart from the table. -/
lemma sameTable_claimed {s s' : State} {P : Nat → Prop} (hP : ∀ page, P page → page < npages)
    (h : Claimed L.toLayout P s s') : SameTable L s.mem s'.mem := by
  have hptable := L.pages_apart
  have hcurrent := L.pages_current
  constructor
  · intro a n ha hn
    apply Bytes.readLE_congr
    intro x hx hlt
    apply h.frame
    rintro page hpage rfl
    have hbound := hP page hpage
    unfold Bytes.Apart at hptable
    omega
  · apply Bytes.readLE_congr
    intro x hx hlt
    apply h.frame
    rintro page hpage rfl
    have hbound := hP page hpage
    unfold Bytes.Apart at hcurrent
    omega

lemma sameTable_claimSegments {s s' : State} {segments : List Segment}
    (hsegs : ∀ seg ∈ segments, seg.Clear L.toLayout)
    (h : segments.foldlM (State.claimSegment L.toLayout fuel) s = some s') : SameTable L s.mem s'.mem := by
  refine sameTable_claimed ?_ (claimed_claimSegments (fun seg hseg => (hsegs seg hseg).1) h).1
  rintro page ⟨seg, hseg, hlt, -⟩
  have hfits := (hsegs seg hseg).1
  rw [npages_eq]
  unfold Kernel.pagesize memsizePhysical at *
  omega

lemma sameTable_loadSegments {s : State} {segments : List Segment}
    (hsegs : ∀ seg ∈ segments, seg.Clear L.toLayout) :
    SameTable L s.mem (segments.foldl State.loadSegment s).mem := by
  induction segments generalizing s with
  | nil => exact SameTable.refl L _
  | cons seg segments ih =>
    obtain ⟨-, hzero, hdata⟩ := hsegs seg List.mem_cons_self
    have hmemset := SameTable.of_avoids (Bytes.within_fill s.mem seg.va seg.size 0) hzero
    have hmemcpy := SameTable.of_avoids (Bytes.within_copy (Bytes.fill s.mem seg.va 0 seg.size) seg.va seg.data) hdata
    exact (hmemset.trans hmemcpy).trans (ih fun seg' hmem => hsegs seg' (List.mem_cons_of_mem _ hmem))

/-! ### process_setup -/

/-- Only process `pid` changes, and it keeps its `pid`. -/
structure Keeps (L : ProcLayout) (mem mem' : Nat → UInt8) (pid : Nat) : Prop where
  other : ∀ i, i < nproc → i ≠ pid → descriptor L mem' i = descriptor L mem i
  pid : (descriptor L mem' pid).pid = (descriptor L mem pid).pid

lemma Keeps.trans {mem'' : Nat → UInt8} {pid : Nat} (h : Keeps L mem mem' pid) (h' : Keeps L mem' mem'' pid) :
    Keeps L mem mem'' pid where
  other i hi hne := (h'.other i hi hne).trans (h.other i hi hne)
  pid := h'.pid.trans h.pid

lemma SameTable.keeps {pid : Nat} (h : SameTable L mem mem') (hpid : pid < nproc) : Keeps L mem mem' pid where
  other _ hi _ := h.descriptor hi
  pid := congrArg Descriptor.pid (h.descriptor hpid)

lemma keeps_of_within {pid b k : Nat} (h : Bytes.Within mem mem' (L.proc pid + b) k) (hb : b + k ≤ procBytes)
    (hpid : b + k ≤ procPid ∨ procState ≤ b) : Keeps L mem mem' pid where
  other _ _ hne := descriptor_of_within h hb hne
  pid := by
    apply h.readLE
    unfold Bytes.Apart procPid procState at *
    omega

lemma within_reg (mem : Nat → UInt8) (p : Nat) (r : Reg) (v : Nat) :
    Bytes.Within mem (Bytes.writeLE mem (p + procRegs + 8 * r.slot) 8 v) (p + procRegs) regstateSize := by
  apply (Bytes.within_writeLE mem (p + procRegs + 8 * r.slot) 8 v).mono (Nat.le_add_right _ _)
  have hslot := r.slot_lt
  omega

lemma keeps_reg (mem : Nat → UInt8) (pid : Nat) (r : Reg) (v : Nat) :
    Keeps L mem (Bytes.writeLE mem (L.proc pid + procRegs + 8 * r.slot) 8 v) pid :=
  keeps_of_within (within_reg mem _ r v) (by decide) (by decide)

lemma within_initProcess (mem : Nat → UInt8) (p : Nat) : Bytes.Within mem (initProcess mem p) (p + procRegs) regstateSize := by
  have hfill := Bytes.within_fill mem (p + procRegs) regstateSize 0
  exact ((((hfill.trans (within_reg _ _ .cs _)).trans (within_reg _ _ .fs _)).trans (within_reg _ _ .gs _)).trans
    (within_reg _ _ .ss _)).trans (within_reg _ _ .rflags _)

lemma keeps_initProcess (mem : Nat → UInt8) (pid : Nat) : Keeps L mem (initProcess mem (L.proc pid)) pid :=
  keeps_of_within (within_initProcess mem (L.proc pid)) (by decide) (by decide)

lemma stackAddr_lt {pid : Nat} (hpid : pid ≤ 4) :
    (procStartAddr + procSize * pid - Kernel.pagesize) / Kernel.pagesize < npages := by
  apply page_lt
  unfold procStartAddr procSize Kernel.pagesize memsizePhysical
  omega

lemma processSetup_spec {pid : Nat} {program : Program} (hpid : pid ≤ 4) (hclear : ProgramClear L program)
    (h : processSetup L fuel mem pid program = some mem') : Keeps L mem mem' pid ∧ Runnable L mem' pid := by
  have hlt : pid < nproc := Nat.lt_of_le_of_lt hpid (by decide)
  have hpagetable : ∀ m : Nat → UInt8, Keeps L m (Bytes.writeLE m (L.proc pid) 8 L.kernelPagetable) pid :=
    fun m => keeps_of_within (b := 0) (Bytes.within_writeLE m (L.proc pid) 8 L.kernelPagetable) (by decide) (by decide)
  have hstack := stackAddr_lt hpid
  unfold processSetup at h
  dsimp only at h
  split at h
  · cases h
  · rename_i s₁ hclaimed
    split at h
    · cases h
    · cases h
      have hclaims := (sameTable_claimSegments hclear hclaimed).keeps hlt
      have hloads := (sameTable_loadSegments (s := s₁) hclear).keeps hlt
      have hsetup := (((keeps_initProcess mem pid).trans (hpagetable _)).trans (hclaims.trans hloads)).trans
        (keeps_reg _ pid .rip program.entry)
      have hclaim := (sameTable_claim (L := L) ⟨Bytes.writeLE (program.segments.foldl State.loadSegment s₁).mem
        (L.proc pid + procRegs + 8 * Reg.rip.slot) 8 program.entry, fun _ => ⟨false, 0, 0⟩, []⟩ hstack).keeps hlt
      have hrsp := (hsetup.trans hclaim).trans
        (keeps_reg _ pid .rsp (procStartAddr + procSize * pid - Kernel.pagesize + Kernel.pagesize))
      constructor
      · exact hrsp.trans (keeps_of_within (Bytes.within_writeLE _ (L.proc pid + procState) 4 pRunnable) (by decide)
          (by decide))
      · exact Bytes.readLE_writeLE_of_lt (by decide)

/-- The process has the kernel page table. -/
lemma processSetup_pagetable {pid : Nat} {program : Program} (hpid : pid ≤ 4) (hclear : ProgramClear L program)
    (htable : L.kernelPagetable < 256 ^ 8) (h : processSetup L fuel mem pid program = some mem') :
    Bytes.readLE mem' (L.proc pid) 8 = L.kernelPagetable := by
  have hlt : pid < nproc := Nat.lt_of_le_of_lt hpid (by decide)
  have hsame : ∀ {m m' : Nat → UInt8}, SameTable L m m' → Bytes.readLE m' (L.proc pid) 8 = Bytes.readLE m (L.proc pid) 8 := by
    intro m m' hm
    apply hm.1
    · unfold ProcLayout.proc
      omega
    · unfold ProcLayout.proc nproc procBytes regstateSize at *
      omega
  have hreg : ∀ (m : Nat → UInt8) (r : Reg) v,
      Bytes.readLE (Bytes.writeLE m (L.proc pid + procRegs + 8 * r.slot) 8 v) (L.proc pid) 8 = Bytes.readLE m (L.proc pid) 8 := by
    intro m r v
    apply (within_reg m (L.proc pid) r v).readLE
    unfold Bytes.Apart procRegs
    omega
  have hstate : ∀ m : Nat → UInt8,
      Bytes.readLE (Bytes.writeLE m (L.proc pid + procState) 4 pRunnable) (L.proc pid) 8 = Bytes.readLE m (L.proc pid) 8 := by
    intro m
    apply (Bytes.within_writeLE m (L.proc pid + procState) 4 pRunnable).readLE
    unfold Bytes.Apart procState
    omega
  have hpage := stackAddr_lt hpid
  unfold processSetup at h
  dsimp only at h
  split at h
  · cases h
  · rename_i s₁ hclaimed
    split at h
    · cases h
    · cases h
      rw [hstate, hreg, hsame (sameTable_claim (L := L) _ hpage)]
      dsimp only
      rw [hreg, hsame (sameTable_loadSegments (s := s₁) hclear), hsame (sameTable_claimSegments hclear hclaimed)]
      exact Bytes.readLE_writeLE_of_lt htable

/-! ### kernel -/

/-- The table before the first process runs. -/
structure Initial (L : ProcLayout) (mem : Nat → UInt8) : Prop where
  pid : ∀ i, i < nproc → (descriptor L mem i).pid = i
  unused : ¬ Runnable L mem 0

lemma initDescriptors (mem : Nat → UInt8) {n : Nat} (hn : n ≤ nproc) :
    ∀ i, i < n → (descriptor L ((List.range n).foldl (initDescriptor L) mem) i).pid = i ∧
      (descriptor L ((List.range n).foldl (initDescriptor L) mem) i).state = pFree := by
  induction n with
  | zero => exact fun i hi => absurd hi (Nat.not_lt_zero i)
  | succ n ih =>
    rw [List.range_succ, List.foldl_append]
    change ∀ i, i < n + 1 → (descriptor L (initDescriptor L ((List.range n).foldl (initDescriptor L) mem) n) i).pid = i ∧
      (descriptor L (initDescriptor L ((List.range n).foldl (initDescriptor L) mem) n) i).state = pFree
    generalize (List.range n).foldl (initDescriptor L) mem = m at ih ⊢
    have hpidWrite := Bytes.within_writeLE m (L.proc n + procPid) 4 n
    have hstateWrite := Bytes.within_writeLE (Bytes.writeLE m (L.proc n + procPid) 4 n) (L.proc n + procState) 4 pFree
    intro i hi
    rcases Nat.lt_succ_iff_lt_or_eq.1 hi with hlt | rfl
    · have hold : descriptor L (initDescriptor L m n) i = descriptor L m i :=
        (descriptor_of_within hstateWrite (by decide) (Nat.ne_of_lt hlt)).trans
          (descriptor_of_within hpidWrite (by decide) (Nat.ne_of_lt hlt))
      rw [hold]
      exact ih (by omega) i hlt
    · constructor
      · refine (hstateWrite.readLE ?_).trans (Bytes.readLE_writeLE_of_lt ?_)
        · unfold Bytes.Apart procPid procState
          omega
        · unfold nproc at hn
          omega
      · exact Bytes.readLE_writeLE_of_lt (by decide)

lemma within_initDescriptors (L : ProcLayout) (mem : Nat → UInt8) {n : Nat} (hn : n ≤ nproc) :
    Bytes.Within mem ((List.range n).foldl (initDescriptor L) mem) L.ptable (nproc * procBytes) := by
  induction n with
  | zero => exact fun _ _ => rfl
  | succ n ih =>
    rw [List.range_succ, List.foldl_append]
    refine (ih (by omega)).trans ?_
    have hmember : ∀ (m : Nat → UInt8) (b v : Nat), b + 4 ≤ procBytes →
        Bytes.Within m (Bytes.writeLE m (L.proc n + b) 4 v) L.ptable (nproc * procBytes) := by
      intro m b v hb
      apply (Bytes.within_writeLE m (L.proc n + b) 4 v).mono
      · unfold ProcLayout.proc
        omega
      · unfold ProcLayout.proc nproc procBytes regstateSize at *
        omega
    exact (hmember _ procPid n (by decide)).trans (hmember _ procState pFree (by decide))

lemma processSetups_spec {programs : List (Nat × Program)}
    (hprograms : ∀ r ∈ programs, 0 < r.1 ∧ r.1 ≤ 4 ∧ ProgramClear L r.2) (hinit : Initial L mem)
    (h : programs.foldlM (fun mem r => processSetup L fuel mem r.1 r.2) mem = some mem') :
    Initial L mem' ∧ (∀ i, i < nproc → Runnable L mem i → Runnable L mem' i) ∧ ∀ r ∈ programs, Runnable L mem' r.1 := by
  induction programs generalizing mem with
  | nil =>
    cases h
    exact ⟨hinit, fun _ _ hready => hready, by simp⟩
  | cons r programs ih =>
    rw [List.foldlM_cons, Option.bind_eq_bind, Option.bind_eq_some_iff] at h
    obtain ⟨mem₁, hfirst, hrest⟩ := h
    obtain ⟨hpos, hle, hclear⟩ := hprograms r List.mem_cons_self
    obtain ⟨hkeeps, hready⟩ := processSetup_spec hle hclear hfirst
    have hinit₁ : Initial L mem₁ := by
      constructor
      · intro i hi
        by_cases heq : i = r.1
        · rw [heq, hkeeps.pid]
          exact hinit.pid r.1 (heq ▸ hi)
        · rw [hkeeps.other i hi heq]
          exact hinit.pid i hi
      · unfold Runnable
        rw [hkeeps.other 0 (by decide) (Nat.ne_of_lt hpos)]
        exact hinit.unused
    obtain ⟨hinit', hkept, hall⟩ := ih (fun r' hmem => hprograms r' (List.mem_cons_of_mem _ hmem)) hinit₁ hrest
    refine ⟨hinit', ?_, ?_⟩
    · intro i hi hi'
      apply hkept i hi
      by_cases heq : i = r.1
      · exact heq ▸ hready
      · unfold Runnable
        rw [hkeeps.other i hi heq]
        exact hi'
    · intro r' hmem
      rcases List.mem_cons.1 hmem with rfl | hmem
      · exact hkept r'.1 (Nat.lt_of_le_of_lt hle (by decide)) hready
      · exact hall r' hmem

/-- What holds in every state of a run. -/
structure Reached (L : ProcLayout) (fuel : Nat) (m : Machine) : Prop where
  log : LogOk L m.log
  spun : nproc ≤ fuel → .spun ∈ m.log → ∀ i, i < nproc → ¬ Runnable L m.mem i
  user : m.halted = false → ∃ c, User L m c

lemma kernel_reached {command : Option Program} {allocators : Fin 4 → Program} {m : Machine}
    (hclear : ∀ r ∈ initialPrograms command allocators, ProgramClear L r.2)
    (h : kernel L checkPagetable fuel mem command allocators = some m) : Reached L fuel m ∧ choices m.log = [] := by
  unfold kernel at h
  rw [Option.map_eq_some_iff] at h
  obtain ⟨mem₁, hsetup, rfl⟩ := h
  have hfree := initDescriptors (L := L) mem (Nat.le_refl nproc)
  have hinit : Initial L ((List.range nproc).foldl (initDescriptor L) mem) := by
    constructor
    · exact fun i hi => (hfree i hi).1
    · unfold Runnable
      rw [(hfree 0 (by decide)).2]
      decide
  have hnumbers : ∀ r ∈ initialPrograms command allocators, 0 < r.1 ∧ r.1 ≤ 4 ∧ ProgramClear L r.2 := by
    intro r hr
    have hr' := hr
    unfold initialPrograms at hr'
    refine ⟨?_, ?_, hclear r hr⟩
    · cases command <;> simp at hr' <;> grind
    · cases command <;> simp at hr' <;> grind
  obtain ⟨hinit₁, -, hready⟩ := processSetups_spec hnumbers hinit hsetup
  have hone : Runnable L mem₁ 1 := by
    cases command with
    | none => exact hready (1, allocators 0) (by simp [initialPrograms])
    | some program => exact hready (1, program) (by simp [initialPrograms])
  have hinv : Inv L ⟨mem₁, 0, false, []⟩ fun _ => True := by
    constructor
    · exact ⟨by simp, List.Pairwise.nil, by simp [Restored]⟩
    · exact hinit₁.pid
    · exact hinit₁.unused
    · simp
    · intro i _ _ _ entry ctx hlast
      cases hlast
  have hran := run_spec checkPagetable hinv (by decide) hone
  refine ⟨⟨hran.log, fun _ hspun => ?_, fun hhalt => ⟨1, hran.user hhalt⟩⟩, hran.choices⟩
  cases hran.spun hspun

end Cs300Projects.WeensyOS.Processes
