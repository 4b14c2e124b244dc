import Cs300Projects.WeensyOS.Memusage

/-!
# The map that `refresh` calculates

Each part of `refresh` adds the flags of exactly the pages that it is about: the walk over the tables
those of the table pages, and the scan of the low half, which moves by pages where the user has
access and by ranges elsewhere, those of the pages that some user-accessible address maps to.
-/

namespace Cs300Projects.WeensyOS
open Loop

/-! ### The scan of the low half -/

namespace Vmiter

variable {m : Memory} {pt : PagePtr} {it : Vmiter}

/-- A page address of an entry, without the bits outside the mask. -/
lemma toNat_and_pageMask (e : Word) {mask : Word} (hmod : mask.toNat % 4096 = 0) (hlt : mask.toNat < 2 ^ 52) :
    (e &&& mask).toNat % 4096 = 0 ∧ (e &&& mask).toNat < 2 ^ 52 := by
  rw [BitVec.toNat_and]
  constructor
  · have hlow := Nat.and_mod_two_pow (a := e.toNat) (b := mask.toNat) (n := 12)
    rw [show 2 ^ 12 = 4096 by norm_num, hmod, Nat.and_zero] at hlow
    exact hlow
  · exact Nat.lt_of_le_of_lt Nat.and_le_right hlt

/-- Addresses of one page have physical addresses of one page. -/
lemma pa_page (hlevel : it.level_ ≤ 3) {a : Word} (hpage : it.va_.toNat / 4096 = a.toNat / 4096) :
    (({ it with va_ := a } : Vmiter).pa m).toNat / 4096 = (it.pa m).toNat / 4096 := by
  cases hP : (m.read it.pep_).getLsbD 0 with
  | false =>
    have hmoved : ({ it with va_ := a } : Vmiter).pa m = -1#64 := pa_of_not_present hP
    rw [hmoved, pa_of_not_present hP]
  | true =>
    have hbase : ∃ base : Word, base.toNat % 4096 = 0 ∧ base.toNat < 2 ^ 52 ∧
        ∀ b : Word, ({ it with va_ := b } : Vmiter).pa m = base + (b &&& pageoffmask it.level_) := by
      by_cases hpos : 0 < it.level_
      · refine ⟨m.read it.pep_ &&& (ptePamask &&& ~~~0x1000#64), ?_, ?_, fun b => ?_⟩
        · exact (toNat_and_pageMask _ (by decide) (by decide)).1
        · exact (toNat_and_pageMask _ (by decide) (by decide)).2
        · rw [pa, if_pos ((and_pteP_ne_zero_iff _).2 hP)]
          simp only [if_pos hpos, BitVec.and_assoc]
      · refine ⟨m.read it.pep_ &&& ptePamask, ?_, ?_, fun b => ?_⟩
        · exact (toNat_and_pageMask _ (by decide) (by decide)).1
        · exact (toNat_and_pageMask _ (by decide) (by decide)).2
        · rw [pa, if_pos ((and_pteP_ne_zero_iff _).2 hP)]
          simp only [if_neg hpos]
    obtain ⟨base, hmod, hlt, hpa⟩ := hbase
    rw [hpa a, hpa it.va_, BitVec.toNat_add, BitVec.toNat_add, toNat_and_pageoffmask (by omega),
      toNat_and_pageoffmask (by omega)]
    have h1 := Nat.mod_lt a.toNat (pageSpan_pos it.level_)
    have h2 := Nat.mod_lt it.va_.toNat (pageSpan_pos it.level_)
    generalize it.level_ = level at hlevel h1 h2 ⊢
    interval_cases level <;> simp only [pageSpan] at h1 h2 ⊢ <;> omega

/-- What a visit of the scan is followed by: the next page if the user has access, else the end of the
range. -/
structure ScanNext (m : Memory) (x y : Vmiter) : Prop where
  lt : x.va_.toNat < y.va_.toNat
  page : x.user m = true → y.va_.toNat = x.va_.toNat + 4096
  range : x.user m = false → y.va_ = x.lastVa

lemma user_iff_perm (h : it.Settled m) (hc : vaIsCanonical it.va_ = true) (huser : it.user m = true) :
    it.perm m ≠ 0#64 := by
  rw [ne_eq, h.perm_eq_zero_iff hc]
  have hbit := (hasPerm_iff (fun i hi => ?_) it).1 huser 0 (by decide)
  · rw [Bool.and_eq_true] at hbit
    simp [hbit.2]
  · rw [getLsbD_pteP_or_pteU, Bool.or_eq_true, decide_eq_true_eq, decide_eq_true_eq] at hi
    omega

lemma scan_spec (hok : ∀ va, ∃ it, new m pt va = .ok it) (h : Fresh m pt it) (hlow : it.va_.toNat < 2 ^ 47) :
    ∃ it', Memusage.scanStep (user m) m it = .ok it' ∧ Fresh m pt it' ∧ ScanNext m it it' := by
  unfold Memusage.scanStep
  cases huser : it.user m with
  | true =>
    have hperm := user_iff_perm h.settled (canonical_of_low hlow) huser
    obtain ⟨hnext, hlt, hle, hmod⟩ := next_block_low (show 0 ≤ 3 by omega) hlow
    have haligned := h.aligned
    have hpage : ((it.va_ ||| pageoffmask 0) + 1#64).toNat = it.va_.toNat + 4096 := by
      rw [hnext]
      simp only [pageSpan]
      omega
    rw [← hnext] at hlt hle hmod
    refine ⟨walked m pt ((it.va_ ||| pageoffmask 0) + 1#64), ?_, walked_fresh hmod hle, ?_, fun _ => ?_, ?_⟩
    · rw [if_pos rfl, next, if_neg (fun hskip => hperm hskip.2)]
      exact h.settled.realFind_walked hok h.root _
    · rw [walked_va]
      exact hlt
    · rw [walked_va, hpage]
    · simp [huser]
  | false =>
    obtain ⟨it', hit', hfresh, hlt, hlast⟩ := nextRange_spec hok h hlow
    exact ⟨it', by simpa using hit', hfresh, hlt, by simp [huser], fun _ => hlast⟩

end Vmiter

namespace Memusage

variable {m : Memory} {pt : PagePtr} {v : Marks}

/-- The physical page `n` is a page of the page table. -/
def TablePage (m : Memory) (pt : PagePtr) (n : Nat) : Prop := ∃ t, UsedAsTable m pt t ∧ t.addr.toNat / 4096 = n

/-- Some user-accessible low virtual address maps into the physical page `n`. -/
def MapsUser (m : Memory) (pt : PagePtr) (n : Nat) : Prop :=
  ∃ va : Word, va.toNat < 2 ^ 47 ∧ ∃ it, Vmiter.new m pt va = .ok it ∧ it.user m = true ∧ (it.pa m).toNat / 4096 = n

lemma markTables_adds (m : Memory) (pt : PagePtr) (flags : BitVec 32) (v : Marks) {fuel : Nat}
    (hfuel : 2 ^ 51 + 8 < fuel) : ∃ v', markTables fuel m pt flags v = some v' ∧
      Adds v v' fun n i => TablePage m pt n ∧ flags.getLsbD i = true := by
  obtain ⟨visits, last, hrun, hvisiting, hactive⟩ := Ptiter.forEach_total m pt 0#64 (by decide) hfuel
  refine ⟨_, by rw [markTables, hrun, Option.map_some], ?_⟩
  have hfold := foldl_mark_adds (fun _ : Ptiter => true) (Ptiter.pa m) flags visits v
  simp only [if_true] at hfold
  refine (hfold.trans (mark_adds _ pt.addr flags)).congr fun n _ i => ?_
  rw [← or_and_right, and_congr_left_iff]
  intro _
  rw [TablePage]
  simp only [← hvisiting.mem_tables_iff hactive, List.mem_append, List.mem_singleton, List.mem_map, true_and]
  constructor
  · rintro (⟨x, hx, hn⟩ | hn)
    · exact ⟨x.kptr m, Or.inl ⟨x, hx, rfl⟩, hn⟩
    · exact ⟨pt, Or.inr rfl, hn⟩
  · rintro ⟨t, ⟨x, hx, rfl⟩ | rfl, hn⟩
    · exact Or.inl ⟨x, hx, hn⟩
    · exact Or.inr hn

/-- The scan ends, and no accessible page is missed. -/
lemma scanLow_adds (hok : ∀ va, ∃ it, Vmiter.new m pt va = .ok it) (flags : BitVec 32) (v : Marks) {fuel : Nat}
    (hfuel : 2 ^ 47 < fuel) : ∃ v', scanLow fuel m (Vmiter.user m) (fun _ => flags) pt v = some (.ok v') ∧
      Adds v v' fun n i => MapsUser m pt n ∧ flags.getLsbD i = true := by
  obtain ⟨visited, last, hrun, hlast, hchain, hhead, hall⟩ := Vmiter.lowLoop_total hok (fun _ _ h => h.lt)
    (fun it h hlow => Vmiter.scan_spec hok h hlow) hfuel
  refine ⟨_, by rw [scanLow, hrun]; rfl, ?_⟩
  refine (foldl_mark_adds (Vmiter.user m) (Vmiter.pa m) flags visited v).congr fun n _ i => ?_
  rw [and_congr_left_iff]
  intro _
  constructor
  · rintro ⟨x, hx, huser, hn⟩
    obtain ⟨hfresh, hlow⟩ := hall x hx
    have hwalk := hfresh.settled.eq_walked
    rw [hfresh.root] at hwalk
    exact ⟨x.va_, hlow, x, by rw [Vmiter.new_walked hok, ← hwalk], huser, hn⟩
  · rintro ⟨va, hva, it, hit, huser, hn⟩
    obtain ⟨x, y, hx, hnext, hle, hlt⟩ := chain_interval (fun it : Vmiter => it.va_.toNat) hchain
      (a := va.toNat) (fun x hx => by rw [hhead x hx]; exact Nat.zero_le _) (by omega)
    obtain ⟨hfresh, hlow⟩ := hall x hx
    obtain ⟨_, _, _, hmove⟩ := hfresh.settled.lastVa_low hlow
    have haligned := hfresh.aligned
    -- a fresh iterator at `va` is the visited one, moved inside its range
    have hrange : va.toNat < x.lastVa.toNat → it = { x with va_ := va } := by
      intro hend
      have hset := hmove va hle hend
      rw [Vmiter.new_walked hok, Except.ok.injEq] at hit
      rw [← hit, hset.eq_walked, hfresh.root]
    cases hxuser : x.user m with
    | true =>
      have hpage := hnext.page hxuser
      have hend : va.toNat < x.lastVa.toNat := by
        obtain ⟨hlast, hlt', _, hmod⟩ := next_block_low hfresh.settled.onWalk.level_le hlow
        rw [Vmiter.lastVa, hlast]
        omega
      rw [hrange hend, Vmiter.pa_page hfresh.settled.onWalk.level_le (by omega)] at hn
      exact ⟨x, hx, hxuser, hn⟩
    | false =>
      rw [hnext.range hxuser] at hlt
      rw [hrange hlt] at huser
      have hsame : ({ x with va_ := va } : Vmiter).user m = x.user m := rfl
      rw [hsame, hxuser] at huser
      cases huser

/-! ### The processes -/

/-- The flags that a process puts on the page `n`. -/
def ProcessBits (m : Memory) (pid : Nat) (pt : PagePtr) (n i : Nat) : Prop :=
  (TablePage m pt n ∧ (fKernel ||| fProcess pid).getLsbD i = true) ∨
    (MapsUser m pt n ∧ (fUser ||| fProcess pid).getLsbD i = true)

lemma markProcess_adds (hok : ∀ va, ∃ it, Vmiter.new m pt va = .ok it) (pid : Nat) (v : Marks) {fuel : Nat}
    (hfuel : 2 ^ 51 + 8 < fuel) :
    ∃ v', markProcess fuel m pid pt v = some (.ok v') ∧ Adds v v' (ProcessBits m pid pt) := by
  obtain ⟨v₁, htables, hadds₁⟩ := markTables_adds m pt (fKernel ||| fProcess pid) v hfuel
  obtain ⟨v₂, hscan, hadds₂⟩ := scanLow_adds hok (fUser ||| fProcess pid) v₁ (show 2 ^ 47 < fuel by omega)
  exact ⟨v₂, by rw [markProcess, htables, Option.bind_some, hscan], hadds₁.trans hadds₂⟩

lemma markProcesses_adds {kernelPagetable : PagePtr} {ptable : Nat → ProcInfo} {fuel : Nat} (hfuel : 2 ^ 51 + 8 < fuel)
    {pids : List Nat} (hok : ∀ pid ∈ pids, ∀ pt, (ptable pid).ownPagetable kernelPagetable = some pt →
      ∀ va, ∃ it, Vmiter.new m pt va = .ok it) (any : Bool) (v : Marks) :
    ∃ v', markProcesses fuel m kernelPagetable ptable pids any v =
        some (.ok (any || pids.any fun pid => ((ptable pid).ownPagetable kernelPagetable).isSome, v')) ∧
      Adds v v' fun n i => ∃ pid ∈ pids, ∃ pt, (ptable pid).ownPagetable kernelPagetable = some pt ∧
        ProcessBits m pid pt n i := by
  induction pids generalizing any v with
  | nil => exact ⟨v, by simp [markProcesses], (adds_nothing v).congr (by simp)⟩
  | cons pid pids ih =>
    have hrest := fun any => ih (fun q hq => hok q (List.mem_cons_of_mem _ hq)) any
    rw [markProcesses]
    cases hpt : (ptable pid).ownPagetable kernelPagetable with
    | none =>
      obtain ⟨v', hrun, hadds⟩ := hrest any v
      refine ⟨v', by simp [hrun, hpt], hadds.congr fun n _ i => ?_⟩
      simp [hpt]
    | some pt =>
      obtain ⟨v₁, hprocess, hadds₁⟩ := markProcess_adds (hok pid List.mem_cons_self pt hpt) pid v hfuel
      obtain ⟨v', hrun, hadds⟩ := hrest true v₁
      refine ⟨v', by simp [hprocess, hrun, hpt], (hadds₁.trans hadds).congr fun n _ i => ?_⟩
      simp [hpt]

/-- The process `pid` has the page table `pt`, which is not the kernel's. -/
def IsProcess (kernelPagetable : PagePtr) (ptable : Nat → ProcInfo) (pid : Nat) (pt : PagePtr) : Prop :=
  1 ≤ pid ∧ pid < Processes.nproc ∧ (ptable pid).ownPagetable kernelPagetable = some pt

lemma mem_pids (pid : Nat) : pid ∈ List.range' 1 (Processes.nproc - 1) ↔ 1 ≤ pid ∧ pid < Processes.nproc := by
  rw [List.mem_range'_1, Processes.nproc]

lemma fKernel_getLsbD (i : Nat) : fKernel.getLsbD i = decide (i = 0) := by
  rw [fKernel, BitVec.getLsbD_ofNat]
  rcases i with _ | i <;> simp [Nat.testBit_succ]

lemma fUser_getLsbD (i : Nat) : fUser.getLsbD i = decide (i = 1) := by
  rw [fUser, BitVec.getLsbD_ofNat]
  rcases i with _ | _ | i <;> simp [Nat.testBit_succ]

lemma processBits_iff {pid : Nat} (hpos : 1 ≤ pid) (hpid : pid < 16) (n i : Nat) : ProcessBits m pid pt n i ↔
    (TablePage m pt n ∧ (i = 0 ∨ i = pid + 1)) ∨ (MapsUser m pt n ∧ (i = 1 ∨ i = pid + 1)) := by
  rw [ProcessBits, BitVec.getLsbD_or, BitVec.getLsbD_or, fProcess_getLsbD hpos hpid, fKernel_getLsbD, fUser_getLsbD]
  simp only [Bool.or_eq_true, decide_eq_true_eq]

/-- Every bit of every page. -/
lemma refresh_total (m : Memory) {kernelPagetable : PagePtr} {ptable : Nat → ProcInfo} (used : Nat → Bool)
    {v_ kalloc : Option PagePtr} {page : PagePtr} (hpage : v_.or kalloc = some page)
    (hany : ∃ pid pt, IsProcess kernelPagetable ptable pid pt)
    (hok : ∀ pid pt, IsProcess kernelPagetable ptable pid pt → ∀ va, ∃ it, Vmiter.new m pt va = .ok it)
    {fuel : Nat} (hfuel : 2 ^ 51 + 8 < fuel) :
    ∃ v, refresh fuel m kernelPagetable ptable used v_ kalloc = some (.ok (page, v)) ∧ ∀ n, n < 1024 → ∀ i,
      ((v n).getLsbD i = true ↔ (TablePage m kernelPagetable n ∧ i = 0) ∨
        (∃ pid pt, IsProcess kernelPagetable ptable pid pt ∧
          ((TablePage m pt n ∧ (i = 0 ∨ i = pid + 1)) ∨ (MapsUser m pt n ∧ (i = 1 ∨ i = pid + 1)))) ∨
        (page.addr.toNat / 4096 = n ∧ i = 0)) := by
  obtain ⟨v₁, htables, hadds₁⟩ := markTables_adds m kernelPagetable fKernel (fun _ => 0#32) hfuel
  have hwalks : ∀ pid ∈ List.range' 1 (Processes.nproc - 1), ∀ pt,
      (ptable pid).ownPagetable kernelPagetable = some pt → ∀ va, ∃ it, Vmiter.new m pt va = .ok it := by
    intro pid hpid pt hpt
    obtain ⟨hpos, hlt⟩ := (mem_pids pid).1 hpid
    exact hok pid pt ⟨hpos, hlt, hpt⟩
  obtain ⟨v₂, hprocesses, hadds₂⟩ := markProcesses_adds hfuel hwalks false v₁
  have hsome : (List.range' 1 (Processes.nproc - 1)).any
      (fun pid => ((ptable pid).ownPagetable kernelPagetable).isSome) = true := by
    obtain ⟨pid, pt, hpos, hpid, hpt⟩ := hany
    rw [List.any_eq_true]
    exact ⟨pid, (mem_pids pid).2 ⟨hpos, hpid⟩, by rw [hpt]; rfl⟩
  rw [hsome, Bool.or_true] at hprocesses
  refine ⟨mark v₂ page.addr fKernel, by simp only [refresh, hpage, htables, hprocesses], fun n hn i => ?_⟩
  rw [mark_adds v₂ page.addr fKernel n hn i, hadds₂ n hn i, hadds₁ n hn i]
  simp only [fKernel_getLsbD, decide_eq_true_eq, BitVec.getLsbD_zero, Bool.false_eq_true, false_or, or_assoc]
  apply or_congr_right
  apply or_congr_left
  constructor
  · rintro ⟨pid, hpid, pt, hpt, hbits⟩
    obtain ⟨hpos, hlt⟩ := (mem_pids pid).1 hpid
    exact ⟨pid, pt, ⟨hpos, hlt, hpt⟩, (processBits_iff hpos hlt n i).1 hbits⟩
  · rintro ⟨pid, pt, ⟨hpos, hlt, hpt⟩, hbits⟩
    exact ⟨pid, (mem_pids pid).2 ⟨hpos, hlt⟩, pt, hpt, (processBits_iff hpos hlt n i).2 hbits⟩

end Memusage

open Memusage in
/-- With a process that has a page table of its own, `refresh` ends with exactly the flags of each page: the
processes that it belongs to, whether a user has access to it, and whether it is the kernel's. -/
theorem memusage_refresh_exact (m : Memory) (kernelPagetable : PagePtr) (ptable : Nat → ProcInfo) (used : Nat → Bool)
    (v_ kalloc : Option PagePtr) (page : PagePtr) (hpage : v_.or kalloc = some page)
    (hany : ∃ pid pt, IsProcess kernelPagetable ptable pid pt)
    (hok : ∀ pid pt, IsProcess kernelPagetable ptable pid pt → ∀ va, ∃ it, Vmiter.new m pt va = .ok it)
    (fuel : Nat) (hfuel : 2 ^ 51 + 8 < fuel) :
    ∃ v, refresh fuel m kernelPagetable ptable used v_ kalloc = some (.ok (page, v)) ∧ ∀ n, n < 1024 →
      (∀ pid pt, IsProcess kernelPagetable ptable pid pt →
        ((v n).getLsbD (pid + 1) = true ↔ TablePage m pt n ∨ MapsUser m pt n)) ∧
      ((v n).getLsbD 1 = true ↔ ∃ pid pt, IsProcess kernelPagetable ptable pid pt ∧ MapsUser m pt n) ∧
      ((v n).getLsbD 0 = true ↔ TablePage m kernelPagetable n ∨
        (∃ pid pt, IsProcess kernelPagetable ptable pid pt ∧ TablePage m pt n) ∨ page.addr.toNat / 4096 = n) := by
  obtain ⟨v, hrun, hbits⟩ := refresh_total m used hpage hany hok hfuel
  refine ⟨v, hrun, fun n hn => ?_⟩
  have hbit := hbits n hn
  refine ⟨fun pid pt hprocess => ?_, ?_, ?_⟩
  · rw [hbit]
    have hpos := hprocess.1
    constructor
    · rintro (⟨-, hzero⟩ | ⟨pid', pt', hprocess', hbits⟩ | ⟨-, hzero⟩)
      · omega
      · have hpid : pid = pid' := by omega
        have hpt : pt = pt' := Option.some.inj (hprocess.2.2.symm.trans (hpid ▸ hprocess'.2.2))
        rw [hpt]
        exact hbits.imp And.left And.left
      · omega
    · exact fun h => Or.inr (Or.inl ⟨pid, pt, hprocess,
        h.imp (fun ht => ⟨ht, Or.inr rfl⟩) (fun hu => ⟨hu, Or.inr rfl⟩)⟩)
  · rw [hbit]
    constructor
    · rintro (⟨-, hzero⟩ | ⟨pid, pt, hprocess, hbits⟩ | ⟨-, hzero⟩)
      · omega
      · have hpos := hprocess.1
        have huser : MapsUser m pt n := by
          rcases hbits with ⟨-, hi⟩ | ⟨huser, -⟩
          · omega
          · exact huser
        exact ⟨pid, pt, hprocess, huser⟩
      · omega
    · rintro ⟨pid, pt, hprocess, huser⟩
      exact Or.inr (Or.inl ⟨pid, pt, hprocess, Or.inr ⟨huser, Or.inl rfl⟩⟩)
  · rw [hbit]
    constructor
    · rintro (⟨htable, -⟩ | ⟨pid, pt, hprocess, hbits⟩ | ⟨hown, -⟩)
      · exact Or.inl htable
      · have htable : TablePage m pt n := by
          rcases hbits with ⟨htable, -⟩ | ⟨-, hi⟩
          · exact htable
          · omega
        exact Or.inr (Or.inl ⟨pid, pt, hprocess, htable⟩)
      · exact Or.inr (Or.inr hown)
    · rintro (htable | ⟨pid, pt, hprocess, htable⟩ | hown)
      · exact Or.inl ⟨htable, rfl⟩
      · exact Or.inr (Or.inl ⟨pid, pt, hprocess, Or.inl ⟨htable, Or.inl rfl⟩⟩)
      · exact Or.inr (Or.inr ⟨hown, rfl⟩)

open Memusage in
/-- The root of the page table of process 1 gets the bit of process 1. -/
theorem memusage_refresh_exact_sample : ∃ v, refresh (2 ^ 52) sampleMemory ⟨0x9000#64, by decide⟩
    (fun _ => ⟨1, some sampleTable⟩) (fun _ => false) none (some ⟨0xA000#64, by decide⟩) =
      some (.ok (⟨0xA000#64, by decide⟩, v)) ∧ (v 1).getLsbD 2 = true := by
  have hprocess : ∀ pid, 1 ≤ pid → pid < 16 →
      IsProcess ⟨0x9000#64, by decide⟩ (fun _ => ⟨1, some sampleTable⟩) pid sampleTable :=
    fun pid hpos hlt => ⟨hpos, hlt, rfl⟩
  obtain ⟨v, hrun, hbits⟩ := memusage_refresh_exact sampleMemory ⟨0x9000#64, by decide⟩
    (fun _ => ⟨1, some sampleTable⟩) (fun _ => false) none (some ⟨0xA000#64, by decide⟩) _ rfl
    ⟨1, sampleTable, hprocess 1 (by omega) (by omega)⟩
    (by
      rintro pid pt ⟨-, -, hpt⟩ va
      have hroot : sampleTable = pt := Option.some.inj hpt
      exact ⟨_, new_eq_ok rfl (hroot ▸ sampleMemory_wellFormed) va⟩) (2 ^ 52) (by omega)
  refine ⟨v, hrun, ((hbits 1 (by omega)).1 1 sampleTable (hprocess 1 (by omega) (by omega))).2 (Or.inl ?_)⟩
  exact ⟨sampleTable, ⟨[], by simp, rfl⟩, by decide⟩

end Cs300Projects.WeensyOS
