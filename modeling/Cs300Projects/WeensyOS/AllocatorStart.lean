import Cs300Projects.WeensyOS.AllocatorRuns

/-!
# The allocator processes from the start

The loaded kernel sets up the four processes without a failed assertion, and in every run from there they keep to themselves.
-/

namespace Cs300Projects.WeensyOS.Allocator

open Bytes Kernel Processes

variable {S : SystemLayout} {B : ∀ i, Binary i} {fuel : Nat} {mem mem' : Nat → UInt8} {i : Fin 4}

/-! ### The programs -/

namespace Binary

variable (b : Binary i)

lemma inApplication : ∀ seg ∈ b.program.segments, seg.InApplication := by
  intro seg hseg
  obtain ⟨hpos, hdata, hva, hfits⟩ := b.segments seg hseg
  have hi := i.isLt
  have hend := b.endAddr_le
  rw [stackStart_eq] at hend
  rw [regionStart_eq] at hva hend
  refine ⟨hpos, hdata, ?_, ?_⟩
  · unfold procStartAddr
    omega
  · unfold memsizePhysical
    omega

lemma clear (L : ProcLayout) : ProgramClear L b.program := by
  intro seg hseg
  have happ := b.inApplication seg hseg
  have hstart := happ.start
  have himage := L.image_le
  have hbelow : L.kernelEnd ≤ seg.va := by
    unfold procStartAddr kernelStackTop Kernel.pagesize at *
    omega
  exact ⟨happ.fits, Or.inr (Or.inr hbelow), Or.inr (Or.inr hbelow)⟩

lemma stack_apart : ¬∃ seg ∈ b.program.segments, seg.Touches (stackPage (i + 1)) := by
  rintro ⟨seg, hseg, hlt, -⟩
  have hfits := (b.segments seg hseg).2.2.2
  have hend := b.endAddr_le
  rw [stackPage_eq] at hlt
  omega

end Binary

/-! ### Setting up the processes -/

/-- What `kernel` finds in its memory. -/
structure Fresh (S : SystemLayout) (mem : Nat → UInt8) : Prop where
  tables : ∃ sym, S.tables.Holds 512 sym (tableMemory mem)
  nextAllocPa : readLE mem S.nextAllocPa 8 = 0
  view : readLE mem S.view 8 = 0

lemma Fresh.congr (h : Fresh S mem) (hmem : ∀ x, x < S.kernelEnd → Outside x S.pages npages →
    Outside x S.ptable (nproc * procBytes) → mem' x = mem x) : Fresh S mem' := by
  have htables := S.tables_le
  have hnext := S.nextAllocPa_le
  have hview := S.view_le
  have hnextPages : Apart S.nextAllocPa 8 S.pages npages := S.disjoint.symm
  refine ⟨?_, ?_, ?_⟩
  · obtain ⟨sym, hholds⟩ := h.tables
    have haddr := S.kernelPagetable_eq
    refine ⟨sym, hholds.of_bytes fun x hx => ?_⟩
    unfold KernelPagetable.InTable at hx
    exact hmem x (by omega) (S.apart_pages.2.symm.outside (by omega) (by omega))
      (S.apart_tables.1.symm.outside (by omega) (by omega))
  · rw [← h.nextAllocPa]
    exact readLE_congr fun x hx hlt => hmem x (by omega) (hnextPages.outside hx hlt)
      (S.apart_nextAllocPa.1.outside hx hlt)
  · rw [← h.view]
    exact readLE_congr fun x hx hlt => hmem x (by omega) (S.apart_pages.1.symm.outside hx hlt)
      (S.apart_view.1.symm.outside hx hlt)

/-- The first `k` processes are set up. -/
structure Started (S : SystemLayout) (B : ∀ i, Binary i) (k : Nat) (mem : Nat → UInt8) : Prop where
  fresh : Fresh S mem
  state : ∀ j, j < nproc → readState mem (S.proc j) = if 0 < j ∧ j ≤ k then pRunnable else pFree
  pagetable : ∀ j, 0 < j → j ≤ k → readLE mem (S.proc j) 8 = S.kernelPagetable
  used : ∀ page, page < npages →
    (mem (S.pages + page) ≠ 0 ↔ ∃ i : Fin 4, i < k ∧ ProgramPage (B i).program (i + 1) page)

/-- All descriptors are free. -/
lemma started_zero (h : Fresh S mem) (hunused : ∀ page, page < npages → mem (S.pages + page) = 0) :
    Started S B 0 ((List.range nproc).foldl (initDescriptor S.toProcLayout) mem) := by
  have hwithin := within_initDescriptors S.toProcLayout mem (Nat.le_refl nproc)
  refine ⟨h.congr fun x _ _ hx => hwithin x hx, fun j hj => ?_, fun j hpos hj => by omega, fun page hpage => ?_⟩
  · rw [if_neg (by omega)]
    exact (initDescriptors (L := S.toProcLayout) mem (Nat.le_refl nproc) j hj).2
  · rw [hwithin _ (S.pages_apart.outside (Nat.le_add_right _ _) (by omega)), hunused page hpage]
    exact iff_of_false (fun hne => hne rfl) fun ⟨j, hj, _⟩ => absurd hj (Nat.not_lt_zero _)

/-- The next process is set up. -/
lemma Started.next (h : Started S B i mem) (hfuel : 512 < fuel) :
    ∃ mem', processSetup S.toProcLayout fuel mem (i + 1) (B i).program = some mem' ∧ Started S B (i + 1) mem' := by
  have hi := i.isLt
  have hpid : i.val + 1 ≤ 4 := hi
  have himage := S.image_le
  have hptable := S.ptable_le
  have hunused : ∀ page, page < npages → ProgramPage (B i).program (i + 1) page → mem (S.pages + page) = 0 := by
    intro page hpage hprogram
    by_contra hne
    obtain ⟨j, hj, hother⟩ := (h.used page hpage).1 hne
    obtain rfl := ((B j).programPage_below hother).1.eq ((B i).programPage_below hprogram).1
    exact absurd hj (Nat.lt_irrefl _)
  obtain ⟨mem', hsetup⟩ := processSetup_total hpid (B i).inApplication (B i).disjoint (B i).stack_apart hunused hfuel
  have hsetUp := processSetup_setUp hpid (B i).inApplication hsetup
  obtain ⟨hkeeps, hready⟩ := processSetup_spec hpid ((B i).clear _) hsetup
  have hpages : ∀ {page}, ProgramPage (B i).program (i + 1) page →
      S.kernelEnd ≤ page * Kernel.pagesize ∧ page < npages := by
    intro page hprogram
    have hregion := ((B i).programPage_below hprogram).1.bounds
    rw [npages_eq]
    unfold procStartAddr memsizePhysical kernelStackTop Kernel.pagesize at *
    omega
  -- the kernel image, but for its own page entries and the descriptor
  have hkept : ∀ x, x < S.kernelEnd → (∀ page, ProgramPage (B i).program (i + 1) page → x ≠ S.pages + page) →
      Outside x (S.proc (i + 1)) procBytes → mem' x = mem x := by
    intro x hx hentries hproc
    refine hsetUp.frame x (fun hprogram => ?_) hentries hproc
    have hlow := (hpages hprogram).1
    unfold Kernel.pagesize at hlow
    omega
  have hentry : ∀ x, Outside x S.pages npages → ∀ page, ProgramPage (B i).program (i + 1) page → x ≠ S.pages + page := by
    rintro x hx page hprogram rfl
    exact not_outside_pages (hpages hprogram).2 hx
  have hdescriptor : ∀ {x}, Outside x S.ptable (nproc * procBytes) → Outside x (S.proc (i + 1)) procBytes := by
    intro x hx
    unfold Outside ProcLayout.proc nproc procBytes regstateSize at *
    omega
  have htable : S.kernelPagetable < 256 ^ 8 := by
    have htables := S.tables_le
    unfold kernelStackTop Kernel.pagesize at *
    omega
  refine ⟨mem', hsetup, h.fresh.congr fun x hx hout hproc => hkept x hx (hentry x hout) (hdescriptor hproc), ?_, ?_, ?_⟩
  · intro j hj
    by_cases heq : j = i + 1
    · subst heq
      rw [if_pos ⟨Nat.succ_pos _, Nat.le_refl _⟩]
      exact hready
    · have hsame : readState mem' (S.proc j) = readState mem (S.proc j) := congrArg Descriptor.state (hkeeps.other j hj heq)
      rw [hsame, h.state j hj]
      exact if_congr (by omega) rfl rfl
  · intro j hpos hj
    by_cases heq : j = i + 1
    · subst heq
      exact processSetup_pagetable hpid ((B i).clear _) htable hsetup
    · rw [← h.pagetable j hpos (by omega)]
      apply readLE_congr
      intro x hx hlt
      have hj' : j < nproc := Nat.lt_of_le_of_lt hj (Nat.lt_of_le_of_lt hpid (by decide))
      obtain ⟨hlow, hhigh⟩ := ptable_mem hj' (b := 0) (k := 8) hx hlt (by decide)
      apply hkept x (by omega) (hentry x (S.pages_apart.symm.outside hlow hhigh))
      unfold Outside ProcLayout.proc procBytes regstateSize at *
      omega
  · intro page hpage
    by_cases hprogram : ProgramPage (B i).program (i + 1) page
    · exact iff_of_true ((hsetUp.used page hpage).2 hprogram).2 ⟨i, Nat.lt_succ_self _, hprogram⟩
    · have hsame : mem' (S.pages + page) = mem (S.pages + page) := by
        have hpagesEnd := S.pages_le
        apply hkept _ (by omega)
        · intro page' hpage' heq
          exact hprogram (Nat.add_left_cancel heq ▸ hpage')
        · exact hdescriptor (S.pages_apart.outside (Nat.le_add_right _ _) (by omega))
      rw [hsame, h.used page hpage]
      constructor
      · rintro ⟨j, hj, hown⟩
        exact ⟨j, Nat.lt_succ_of_lt hj, hown⟩
      · rintro ⟨j, hj, hown⟩
        refine ⟨j, Nat.lt_of_le_of_ne (Nat.le_of_lt_succ hj) fun heq => hprogram ?_, hown⟩
        obtain rfl := Fin.ext heq
        exact hown

/-- `kernel` sets up all four processes. -/
lemma processes_started (h : Fresh S mem) (hunused : ∀ page, page < npages → mem (S.pages + page) = 0) (hfuel : 512 < fuel) :
    ∃ mem', Started S B 4 mem' ∧ kernel S.toProcLayout S.check fuel mem none (fun i => (B i).program) =
      some ((⟨mem', 0, false, []⟩ : Machine).run S.toProcLayout S.check (S.proc 1)) := by
  obtain ⟨m₁, hsetup₁, h₁⟩ := Started.next (B := B) (i := 0) (started_zero h hunused) hfuel
  obtain ⟨m₂, hsetup₂, h₂⟩ := Started.next (i := 1) h₁ hfuel
  obtain ⟨m₃, hsetup₃, h₃⟩ := Started.next (i := 2) h₂ hfuel
  obtain ⟨m₄, hsetup₄, h₄⟩ := Started.next (i := 3) h₃ hfuel
  refine ⟨m₄, h₄, ?_⟩
  have hsetups : (initialPrograms none fun i => (B i).program).foldlM
      (fun mem r => processSetup S.toProcLayout fuel mem r.1 r.2)
      ((List.range nproc).foldl (initDescriptor S.toProcLayout) mem) = some m₄ := by
    unfold initialPrograms
    rw [List.foldlM_cons, Option.bind_eq_bind, Option.bind_eq_some_iff]
    refine ⟨m₁, hsetup₁, ?_⟩
    rw [List.foldlM_cons, Option.bind_eq_bind, Option.bind_eq_some_iff]
    refine ⟨m₂, hsetup₂, ?_⟩
    rw [List.foldlM_cons, Option.bind_eq_bind, Option.bind_eq_some_iff]
    refine ⟨m₃, hsetup₃, ?_⟩
    rw [List.foldlM_cons, Option.bind_eq_bind, Option.bind_eq_some_iff]
    exact ⟨m₄, hsetup₄, rfl⟩
  unfold kernel
  dsimp only
  rw [hsetups]
  rfl

lemma Started.sound (h : Started S B 4 mem) : Sound S mem where
  free := (h.state 0 (by decide)).trans (if_neg (by decide))
  runnable j hj := by
    change readState mem (S.proc j) = pRunnable ↔ _
    rw [h.state j hj]
    split
    · rename_i hcase
      exact iff_of_true rfl hcase
    · rename_i hcase
      exact iff_of_false (by decide) hcase
  pagetable := h.pagetable
  tables := h.fresh.tables

/-- The invariant holds when process 1 starts. -/
lemma Started.inv (h : Started S B 4 mem)
    (huser : ∃ c, User S.toProcLayout ((⟨mem, 0, false, []⟩ : Machine).run S.toProcLayout S.check (S.proc 1)) c) :
    Inv S B ⟨(⟨mem, 0, false, []⟩ : Machine).run S.toProcLayout S.check (S.proc 1), fun _ => ⟨.getpid, 0⟩⟩ fun _ => 0 := by
  obtain ⟨hhalt, hframe⟩ := run_handled (m := ⟨mem, 0, false, []⟩) (c := 1) h.sound (j := 1) (by decide) (by decide) rfl
  have hone : 1 < nproc := by decide
  have hsound := h.sound.entry hone hframe
  have hnull : mem (S.pages + 1) = 0 := by
    by_contra hne
    obtain ⟨j, -, hprogram⟩ := (h.used 1 (by decide)).1 hne
    exact absurd ((B j).programPage_below hprogram).1.bounds.1 (by decide)
  have hdisplays : Displays S mem := Or.inl ⟨h.fresh.view, h.fresh.nextAllocPa, hnull⟩
  obtain ⟨c, hc⟩ := huser
  refine ⟨hhalt, exists_user hc hsound, hsound, hdisplays.entry hone hframe, fun j => ?_, fun page hpage _ => ?_⟩
  · have hbound := (B j).heapStart_bounds
    exact ⟨fun hpc => absurd rfl hpc, fun _ => rfl, nofun, nofun, nofun, by omega, nofun,
      fun k hk => absurd hk (Nat.not_lt_zero k)⟩
  · dsimp only
    rw [hframe _ (pages_notEntry hone hpage), h.used page hpage]
    unfold Binary.Owns
    constructor
    · rintro ⟨j, -, hprogram⟩
      exact ⟨j, Or.inl hprogram⟩
    · rintro ⟨j, hprogram | ⟨hlow, hhigh⟩⟩
      · exact ⟨j, j.isLt, hprogram⟩
      · omega

/-! ### The loaded kernel -/

section Boot

variable {D : KernelData} {K : KernelBss D}

/-- The variables of the kernel are still 0 when `kernel` sets up the processes. -/
lemma Linked.fresh (hlinked : Linked S D K) (hbss : ∀ x, D.edata ≤ x → x < D.kernelEnd → mem x = 0) (hfuel : 512 < fuel) :
    ∃ m', D.runMemory K fuel mem [.remap] = some (.ok m') ∧ Fresh S m' ∧
      ∀ page, page < npages → m' (S.pages + page) = 0 := by
  have hbounds := D.bounds
  have hstash := D.dataStash_bounds
  have hpagesEnd := S.pages_le
  have hnextEnd := S.nextAllocPa_le
  have hviewEnd := S.view_le
  have hend := hlinked.kernelEnd_eq
  have hpages := hlinked.le_pages
  have hnext := hlinked.le_nextAllocPa
  have hview := hlinked.le_view
  have haddr := S.kernelPagetable_eq
  obtain ⟨m₁, hm₁, hholds, hrest⟩ := D.initKernelMemory_spec K (kernelEntered mem) hfuel
  have hkeeps : K.tables.Keeps (fun x => D.edata ≤ x ∧ x < D.kernelEnd ∧ Outside x K.segments 56) mem m₁ := by
    refine ⟨⟨false, hholds⟩, fun x ⟨hlow, hhigh, hsegments⟩ htable => ?_⟩
    rw [hrest x htable hsegments, D.stashKernelData_false, blit_outside (by unfold Outside; omega), kernelEntered,
      writeLE_outside (by unfold Outside Kernel.kernelStackTop; omega)]
  have hspares : ∀ e ∈ [MemoryEvent.remap],
      K.tables.Spares (fun x => D.edata ≤ x ∧ x < D.kernelEnd ∧ Outside x K.segments 56) e := by
    intro e he
    rw [List.mem_singleton.1 he]
    trivial
  obtain ⟨m', hm', hkept⟩ := hkeeps.run hfuel hspares
  have hzero : ∀ {a k x}, D.edata ≤ a → a + k ≤ S.kernelEnd → Apart a k K.segments 56 →
      Apart a k S.kernelPagetable (5 * 4096) → a ≤ x → x < a + k → m' x = 0 := by
    intro a k x ha hk hsegments htable hx hlt
    have htable' := htable.outside hx hlt
    rw [hkept.same x ⟨by omega, by omega, hsegments.outside hx hlt⟩, hbss x (by omega) (by omega)]
    rw [hlinked.tables_eq]
    unfold KernelPagetable.InTable
    unfold Outside at htable'
    omega
  refine ⟨m', ?_, ⟨?_, ?_, ?_⟩, fun page hpage => ?_⟩
  · rw [KernelData.runMemory, hm₁]
    exact hm'
  · rw [← hlinked.tables_eq]
    exact hkept.tables
  · exact readLE_zero fun x hx hlt =>
      hzero hnext hnextEnd hlinked.apart_nextAllocPa S.apart_nextAllocPa.2.2.2 hx hlt
  · exact readLE_zero fun x hx hlt => hzero hview hviewEnd hlinked.apart_view S.apart_view.2.2 hx hlt
  · exact hzero hpages hpagesEnd hlinked.apart_pages S.apart_pages.2 (Nat.le_add_right _ _) (by omega)

/-- The system starts, and the invariant holds. -/
lemma boot_inv (hlinked : Linked S D K) (hbss : ∀ x, D.edata ≤ x → x < D.kernelEnd → mem x = 0) (hfuel : 512 < fuel) :
    ∃ s, boot S B fuel K mem = some s ∧ At S B s (fun _ => 0) 0 .getpid := by
  obtain ⟨m', hm', hfresh, hunused⟩ := hlinked.fresh hbss hfuel
  obtain ⟨m₄, hstarted, hkernel⟩ := processes_started (B := B) hfresh hunused hfuel
  have hclear : ∀ r ∈ initialPrograms none fun i => (B i).program, ProgramClear S.toProcLayout r.2 := by
    unfold initialPrograms
    simp only [List.forall_mem_cons]
    exact ⟨(B 0).clear _, (B 1).clear _, (B 2).clear _, (B 3).clear _, by simp⟩
  have hhalt := (run_handled (m := ⟨m₄, 0, false, []⟩) (c := 1) hstarted.sound (j := 1) (by decide) (by decide) rfl).1
  refine ⟨_, ?_, hstarted.inv ((kernel_reached hclear hkernel).1.user hhalt), running_of_run hhalt, rfl⟩
  unfold boot
  rw [hm']
  dsimp only
  rw [hkernel]
  rfl

end Boot

/-! ### Main results -/

/-- The heaps have `n` pages. -/
structure Heaps (S : SystemLayout) (B : ∀ i, Binary i) (s : System) (n : Fin 4 → Nat) : Prop where
  fits : ∀ i, (B i).heapStart + Kernel.pagesize * n i ≤ stackStart i
  full : ∀ i, (s.locals i).pc = .idle → (B i).Full (n i)
  disjoint : ∀ i j page, (B i).Owns (n i) page → (B j).Owns (n j) page → i = j
  pages : ∀ page, page < npages → page ≠ 1 → (s.machine.mem (S.pages + page) ≠ 0 ↔ ∃ i, (B i).Owns (n i) page)
  contents : ∀ i k, k < n i → ∀ j, j < Kernel.pagesize → s.machine.mem ((B i).heapStart + Kernel.pagesize * k + j) =
    if j = 0 ∧ ¬(k + 1 = n i ∧ (s.locals i).pc = .storePid) then UInt8.ofNat (i + 1) else 0

lemma Inv.heaps {s : System} {n : Fin 4 → Nat} (h : Inv S B s n) : Heaps S B s n where
  fits i := (h.progress i).bound
  full i := (h.progress i).full
  disjoint i j _ hi hj := (hi.inRegion (B i) (h.progress i).bound).eq (hj.inRegion (B j) (h.progress j).bound)
  pages := h.used
  contents i := (h.progress i).contents

/-- `pages` determines the heaps. -/
lemma Heaps.unique {s : System} {n n' : Fin 4 → Nat} (h : Heaps S B s n) (h' : Heaps S B s n') : n = n' := by
  have hle : ∀ {n n' : Fin 4 → Nat}, Heaps S B s n → Heaps S B s n' → ∀ i, n' i ≤ n i := by
    intro n n' h h' i
    by_contra hlt
    have haligned := (B i).heapStart_mod
    obtain ⟨-, -, hstart⟩ := (B i).heapStart_bounds
    have hfits := h'.fits i
    have hregion := regionStart_eq i
    have hstack := stackStart_eq i
    have hi := i.isLt
    -- the page behind the shorter heap
    have howns : (B i).Owns (n' i) ((B i).heapStart / Kernel.pagesize + n i) :=
      Or.inr ⟨Nat.le_add_right _ _, by omega⟩
    have hpage : (B i).heapStart / Kernel.pagesize + n i < npages := by
      rw [npages_eq]
      unfold Kernel.pagesize at *
      omega
    have hne : (B i).heapStart / Kernel.pagesize + n i ≠ 1 := by
      unfold Kernel.pagesize at *
      omega
    obtain ⟨j, hother⟩ := (h.pages _ hpage hne).1 ((h'.pages _ hpage hne).2 ⟨i, howns⟩)
    obtain rfl := (hother.inRegion (B j) (h.fits j)).eq (howns.inRegion (B i) hfits)
    refine (B j).not_owns_next ?_ hother
    unfold Kernel.pagesize at *
    omega
  funext i
  exact Nat.le_antisymm (hle h' h i) (hle h h' i)

/-- The processes share a page table by which each of them could write everywhere. Still the system starts, no assertion ever
fails and some process always runs. A step of a process changes its own heap and region only, and it gets every page that it
asks for. -/
theorem allocators_run {D : KernelData} {K : KernelBss D} (hlinked : Linked S D K)
    (hbss : ∀ x, D.edata ≤ x → x < D.kernelEnd → mem x = 0) (hfuel : 512 < fuel) :
    ∃ s₀, boot S B fuel K mem = some s₀ ∧ ∀ inputs s, s₀.run S B fuel inputs = some s →
      s.machine.halted = false ∧ (s.running S).isSome = true ∧ ∃ n, Heaps S B s n ∧ ∀ input s', s.step S B fuel input = some s' →
        ∃ i n', s.running S = some i ∧ Heaps S B s' n' ∧ n i ≤ n' i ∧
          (s.Asks i input → ¬(B i).Full (n i) → n' i = n i + 1) ∧
          ∀ j, j ≠ i → n' j = n j ∧ ∀ x, InRegion j x → s'.machine.mem x = s.machine.mem x := by
  have hturn : nproc ≤ fuel := Nat.le_trans (by decide) hfuel
  obtain ⟨s₀, hboot, hstart⟩ := boot_inv (B := B) hlinked hbss hfuel
  refine ⟨s₀, hboot, fun inputs s hrun => ?_⟩
  obtain ⟨n, hinv⟩ := system_run hstart.inv hturn hrun
  refine ⟨hinv.halted, hinv.isSome_running, n, hinv.heaps, fun input s' hstep => ?_⟩
  obtain ⟨i, n', hrunning, hnext, hgrants⟩ := system_step hinv hturn hstep
  exact ⟨i, n', hrunning, hnext.inv.heaps, hnext.grows, hgrants, fun j hne => ⟨hnext.others j hne, hnext.region j hne⟩⟩

/-! ### A kernel with four processes -/

def allocatorTables : KernelPagetable := ⟨0x57000, by decide, by decide⟩

def allocatorSystem : SystemLayout where
  kernelEnd := 0x62000
  pages := 0x54800
  nextAllocPa := 0x54A00
  ptable := 0x54A40
  current := 0x54A10
  kernelPagetable := 0x57000
  tables := allocatorTables
  exceptionEntry := 0x40200
  view := 0x54A08
  kernelEnd_le := by decide
  le_pages := by decide
  pages_le := by decide
  le_nextAllocPa := by decide
  nextAllocPa_le := by decide
  disjoint := by decide
  image_le := by decide
  le_ptable := by decide
  ptable_le := by decide
  le_current := by decide
  current_le := by decide
  current_apart := Or.inl (by decide)
  pages_apart := Or.inl (by decide)
  pages_current := Or.inl (by decide)
  kernelPagetable_eq := by decide
  entry_bounds := by decide
  le_tables := by decide
  tables_le := by decide
  le_view := by decide
  view_le := by decide
  apart := by
    unfold Apart
    decide

def allocatorData : KernelData := ⟨0x50400, 0x54000, 0x62000, by decide, by decide, by decide, by decide⟩

def allocatorBss : KernelBss allocatorData := ⟨allocatorTables, 0x56000, 0x56100#64, by decide, by decide⟩

/-- The text of a process, and a data page with its variables. -/
def allocatorBinary (i : Fin 4) : Binary i where
  program := ⟨[⟨regionStart i, 0x3C0, [0x55, 0x48, 0x89, 0xE5]⟩, ⟨regionStart i + 0x1000, 0x18, [1, 0]⟩], regionStart i⟩
  endAddr := regionStart i + 0x1018
  heapTop := regionStart i + 0x1008
  stackBottom := regionStart i + 0x1010
  segments := by
    simp only [List.forall_mem_cons, List.length_cons, List.length_nil]
    refine ⟨⟨by decide, by decide, by omega, by omega⟩, ⟨by decide, by decide, by omega, by omega⟩, by simp⟩
  disjoint := by
    have hregion := regionStart_eq i
    rw [List.pairwise_pair]
    intro page hfirst hsecond
    unfold Segment.Touches Kernel.pagesize at *
    dsimp only at hfirst hsecond
    omega
  endAddr_le := by
    rw [stackStart_eq]
    omega
  heapTop_mem := by omega
  stackBottom_mem := by omega
  apart := Or.inl (by omega)

/-- A loaded kernel, with zeros behind its data segment. -/
def allocatorMemory (x : Nat) : UInt8 := if x < 0x54000 then 0x90 else 0

/-- A process goes on, with the stack of process 1; `rand` returns 0. -/
def allocatorInput : Input := .run 0x140000 0 (sampleContext [(.rbx, 7)]) ⟨fun _ => 1, fun _ => 2⟩

/-- The first process asks for its first page, and gets it. -/
theorem allocators_run_sample : ∃ s₀ s s' n,
    boot allocatorSystem allocatorBinary 513 allocatorBss allocatorMemory = some s₀ ∧
    s₀.run allocatorSystem allocatorBinary 513 (List.replicate 4 allocatorInput) = some s ∧
    s.step allocatorSystem allocatorBinary 513 allocatorInput = some s' ∧ s.machine.halted = false ∧
    Heaps allocatorSystem allocatorBinary s' n ∧ n 0 = 1 := by
  have hlinked : Linked allocatorSystem allocatorData allocatorBss :=
    ⟨rfl, rfl, by decide, by decide, by decide, Or.inl (by decide), Or.inl (by decide), Or.inl (by decide)⟩
  have hbss : ∀ x, allocatorData.edata ≤ x → x < allocatorData.kernelEnd → allocatorMemory x = 0 :=
    fun x hx _ => if_neg (Nat.not_lt.2 hx)
  have hturn : nproc ≤ 513 := by decide
  have hlow : stackStart 0 < 0x140000 := by decide
  have hhigh : 0x140000 ≤ stackStart 0 + Kernel.pagesize := by decide
  obtain ⟨s₀, hboot, hruns⟩ := allocators_run (B := allocatorBinary) hlinked hbss (Nat.lt_succ_self 512)
  obtain ⟨s, hboot', h₀⟩ := boot_inv (B := allocatorBinary) hlinked hbss (Nat.lt_succ_self 512)
  obtain rfl := Option.some.inj (hboot'.symm.trans hboot)
  -- the four steps to the system call
  obtain ⟨s₁, hstep₁, h₁⟩ := opening_step h₀ hturn (by decide : (Pc.getpid, Pc.setHeapTop) ∈ opening) hlow hhigh
    (sampleContext [(.rbx, 7)]) ⟨fun _ => 1, fun _ => 2⟩
  obtain ⟨s₂, hstep₂, h₂⟩ := opening_step h₁ hturn (by decide : (Pc.setHeapTop, Pc.setStackBottom) ∈ opening) hlow hhigh
    (sampleContext [(.rbx, 7)]) ⟨fun _ => 1, fun _ => 2⟩
  obtain ⟨s₃, hstep₃, h₃⟩ := opening_step h₂ hturn (by decide : (Pc.setStackBottom, Pc.loop) ∈ opening) hlow hhigh
    (sampleContext [(.rbx, 7)]) ⟨fun _ => 1, fun _ => 2⟩
  obtain ⟨s₄, hstep₄, h₄⟩ := opening_step h₃ hturn (by decide : (Pc.loop, Pc.alloc) ∈ opening) hlow hhigh
    (sampleContext [(.rbx, 7)]) ⟨fun _ => 1, fun _ => 2⟩
  have hrun : s.run allocatorSystem allocatorBinary 513 (List.replicate 4 allocatorInput) = some s₄ := by
    unfold allocatorInput
    simp only [List.replicate, System.run, hstep₁, hstep₂, hstep₃, hstep₄, Option.bind_some]
  have hstep : s₄.step allocatorSystem allocatorBinary 513 allocatorInput = some _ :=
    h₄.step_run 513 hlow hhigh (by decide) _ _
  obtain ⟨hhalt, -, n, hheaps, hsteps⟩ := hruns _ s₄ hrun
  obtain ⟨i, n', hrunning, hheaps', -, hgrants, -⟩ := hsteps _ _ hstep
  obtain rfl := Option.some.inj ((running_of_user h₄.user).symm.trans hrunning)
  obtain rfl := hheaps.unique h₄.inv.heaps
  have hroom : ¬(allocatorBinary 0).Full 0 := by
    unfold Binary.Full
    decide
  exact ⟨s, s₄, _, n', hboot', hrun, hstep, hhalt, hheaps', hgrants ⟨h₄.pc_eq, rfl⟩ hroom⟩

end Cs300Projects.WeensyOS.Allocator
