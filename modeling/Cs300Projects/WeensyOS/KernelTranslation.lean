import Cs300Projects.WeensyOS.KernelPagetable
import Cs300Projects.WeensyOS.VmiterRange

/-!
# Translation by the kernel page table

The loops over physical memory fill the last level of the table without a failed assertion. At any time after
`init_kernel_memory` every address that is mapped is mapped to itself.
-/

namespace Cs300Projects.WeensyOS
open Loop

/-- The walk goes on behind an entry that links a table. -/
lemma Slot.follow {m : Memory} {pt p : PagePtr} {va : Word} {l : Nat} {r : EntryPtr} {perm : BitVec 32}
    (h : Slot m pt va (l + 1) r perm) (hr : m.read r = linkEntry p) :
    Slot m pt va l (.entry (p.entry (pageindex va l))) (andPerm perm (linkEntry p)) := by
  have hdown := h.down (by rw [hr]; exact isTable_linkEntry p)
  rwa [hr, tableOf_linkEntry] at hdown

/-- The walk of `va` ends at level `l` with the entry `e`, below entries that are open to everyone. -/
structure WalkEnds (m : Memory) (pt : PagePtr) (va : Word) (l : Nat) (e : Word) : Prop where
  translate : mmuTranslate m pt va = mmuLeaf e l va
  user : MmuMapped m pt (pteP ||| pteU) va ↔ e.getLsbD 0 = true ∧ e.getLsbD 2 = true

/-- The permissions include `PTE_PWU`. -/
def FullPerm (perm : BitVec 32) : Prop := ∀ i, i < 3 → perm.getLsbD i = true

lemma fullPerm_initial : FullPerm initialPerm := fun _ hi => getLsbD_initialPerm (by omega)

lemma FullPerm.link {perm : BitVec 32} (h : FullPerm perm) (p : PagePtr) : FullPerm (andPerm perm (linkEntry p)) := by
  intro i hi
  rw [getLsbD_andPerm _ _ (by omega), h i hi, linkEntry_flag p (by omega), decide_eq_true hi, Bool.true_and]

lemma FullPerm.flags {perm : BitVec 32} (h : FullPerm perm) :
    (ptePwu &&& ~~~perm).signExtend 64 &&& (pteP ||| pteW ||| pteU) = 0#64 := by
  apply BitVec.eq_of_getLsbD_eq
  intro i hi
  rw [BitVec.getLsbD_and, getLsbD_pwu hi, BitVec.getLsbD_zero]
  by_cases hlow : i < 3
  · rw [getLsbD_signExtend_perm _ (by omega), BitVec.getLsbD_and, BitVec.getLsbD_not, h i hlow]
    simp
  · rw [decide_eq_false hlow, Bool.and_false]

lemma Slot.ends {m : Memory} {pt : PagePtr} {va : Word} {l : Nat} {r : EntryPtr} {perm : BitVec 32} {e : Word}
    (h : Slot m pt va l r perm) (hc : vaIsCanonical va = true) (hfull : FullPerm perm) (hread : m.read r = e)
    (hlast : 0 < l → ¬IsTable e) : WalkEnds m pt va l e := by
  have hsettled : (⟨pt, r, l, perm, va⟩ : Vmiter).Settled m := by
    refine ⟨h, ?_⟩
    rw [hread]
    exact hlast
  constructor
  · have htranslate := hsettled.mmuTranslate_eq
    rwa [if_pos hc, hread] at htranslate
  · have hflags : ∀ i, (pteP ||| pteU).getLsbD i = true ↔ i = 0 ∨ i = 2 := by
      intro i
      rw [getLsbD_pteP_or_pteU, Bool.or_eq_true, decide_eq_true_iff, decide_eq_true_iff]
    have hmapped := hsettled.hasPerm_iff_mapped hc ((hflags 0).2 (Or.inl rfl))
      (fun i hi => by have := (hflags i).1 hi; omega)
    rw [← hmapped, Vmiter.hasPerm, decide_eq_true_iff, hread, BitField.and_eq_right_iff]
    simp only [hflags, forall_eq_or_imp, forall_eq, BitVec.getLsbD_and]
    rw [getLsbD_signExtend_perm _ (by norm_num), getLsbD_signExtend_perm _ (by norm_num),
      hfull 0 (by norm_num), hfull 2 (by norm_num), Bool.and_true, Bool.and_true]

lemma WalkEnds.absent {m : Memory} {pt : PagePtr} {va : Word} {l : Nat} (h : WalkEnds m pt va l 0#64) :
    mmuTranslate m pt va = none ∧ ¬MmuMapped m pt (pteP ||| pteU) va := by
  rw [h.translate, h.user]
  exact ⟨rfl, by simp⟩

/-- The frame of the last entry is the block of the address. -/
lemma WalkEnds.identity {m : Memory} {pt : PagePtr} {va : Word} {l : Nat} {e : Word} (h : WalkEnds m pt va l e)
    (hP : e.getLsbD 0 = true) (hframe : mmuFrame e l = va.toNat / pageSpan l * pageSpan l) :
    mmuTranslate m pt va = some va := by
  rw [h.translate, mmuLeaf, if_pos hP, hframe, Nat.div_add_mod', BitVec.ofNat_toNat, BitVec.setWidth_eq]

/-- The entry maps a page at `base` for the kernel. -/
structure KernelPage (e : Word) (l base : Nat) : Prop where
  last : ¬IsTable e
  present : e.getLsbD 0 = true
  kernel : e.getLsbD 2 = false
  frame : mmuFrame e l = base

lemma WalkEnds.kernel {m : Memory} {pt : PagePtr} {va : Word} {l base : Nat} {e : Word} (h : WalkEnds m pt va l e)
    (hpage : KernelPage e l base) (hbase : base = va.toNat / pageSpan l * pageSpan l) :
    mmuTranslate m pt va = some va ∧ ¬MmuMapped m pt (pteP ||| pteU) va := by
  refine ⟨h.identity hpage.present (hpage.frame.trans hbase), ?_⟩
  rw [h.user, hpage.kernel]
  simp

lemma largeEntry_gib {k : Nat} (h1 : 1 ≤ k) (h3 : k ≤ 3) :
    KernelPage (largeEntry (BitVec.ofNat 64 k <<< 30)) 2 (k * 2 ^ 30) := by
  interval_cases k
  · exact ⟨by decide, by decide, by decide, by decide⟩
  · exact ⟨by decide, by decide, by decide, by decide⟩
  · exact ⟨by decide, by decide, by decide, by decide⟩

lemma largeEntry_symtab : KernelPage (largeEntry symtabAddr) 1 0x1000000 :=
  ⟨by decide, by decide, by decide, by decide⟩

lemma page_aligned {j : Nat} (hj : (BitVec.ofNat 64 (4096 * j)).toNat = 4096 * j) :
    BitVec.ofNat 64 (4096 * j) &&& pageoffmaskBase = 0#64 := by
  have hmask : pageoffmaskBase = BitField.lowMask 64 12 := rfl
  apply BitVec.eq_of_toNat_eq
  rw [hmask, BitField.toNat_and_lowMask (by norm_num), hj, BitVec.toNat_ofNat]
  omega

namespace KernelPagetable

variable (K : KernelPagetable)

/-! ### Walks of the table -/

lemma fullPerm₂ : FullPerm K.perm₂ := fullPerm_initial.link (K.page 1)

lemma fullPerm₁ : FullPerm K.perm₁ := K.fullPerm₂.link (K.page 2)

lemma fullPerm₀ (i : Fin 5) : FullPerm (K.perm₀ i) := K.fullPerm₁.link (K.page i)

section Walks

variable {K} {n : Nat} {sym : Bool} {m : Memory} {va : Word}

lemma Holds.read (h : K.Holds n sym m) (i : Fin 5) {j : Nat} (hj : j < 512) :
    m.read (.entry ((K.page i).entry j)) = K.entries n sym i ⟨j, hj⟩ := h.2 i ⟨j, hj⟩

lemma slot₃ (m : Memory) (pt : PagePtr) (hc : vaIsCanonical va = true) :
    Slot m pt va 3 (.entry (pt.entry (pageindex va 3))) initialPerm := by
  have htop : Slot m pt va 3 (topEntry pt va) (topPerm va) := Slot.top
  rwa [topEntry, topPerm, if_pos hc, if_pos hc] at htop

lemma Holds.slot₂ (h : K.Holds n sym m) (hc : vaIsCanonical va = true) (h3 : pageindex va 3 = 0) :
    Slot m (K.page 0) va 2 (.entry ((K.page 1).entry (pageindex va 2))) K.perm₂ := by
  apply (slot₃ m (K.page 0) hc).follow
  rw [h3]
  exact h.2 0 0

lemma Holds.slot₁ (h : K.Holds n sym m) (hc : vaIsCanonical va = true) (h3 : pageindex va 3 = 0)
    (h2 : pageindex va 2 = 0) : Slot m (K.page 0) va 1 (.entry ((K.page 2).entry (pageindex va 1))) K.perm₁ := by
  apply (h.slot₂ hc h3).follow
  rw [h2]
  exact h.2 1 0

/-- The two tables of 4 KiB pages. -/
lemma Holds.slot₀ (h : K.Holds n sym m) (hc : vaIsCanonical va = true) (h3 : pageindex va 3 = 0)
    (h2 : pageindex va 2 = 0) {i : Fin 5} (hi : pageindex va 1 = 0 ∧ i = 3 ∨ pageindex va 1 = 1 ∧ i = 4) :
    Slot m (K.page 0) va 0 (.entry ((K.page i).entry (pageindex va 0))) (K.perm₀ i) := by
  apply (h.slot₁ hc h3 h2).follow
  rcases hi with ⟨h1, rfl⟩ | ⟨h1, rfl⟩
  · rw [h1]
    exact h.2 2 0
  · rw [h1]
    exact h.2 2 1

end Walks

/-! ### The loops -/

lemma pageEntry_low {j : Nat} (hj : j < 512) : pageEntry j &&& ptePamask = BitVec.ofNat 64 (4096 * j) ∧
    ∀ i, i < 12 → (pageEntry j).getLsbD i = ptePwu.getLsbD i := by
  have hpa : (BitVec.ofNat 64 (4096 * j)).toNat = 4096 * j := by
    rw [BitVec.toNat_ofNat]
    omega
  exact leaf_entry (by omega) (by omega) (by decide)

lemma pageEntry_frame {j : Nat} (hj : j < 512) : mmuFrame (pageEntry j) 0 = 4096 * j := by
  have htable : (tableOf (pageEntry j)).addr = BitVec.ofNat 64 (4096 * j) := (pageEntry_low hj).1
  rw [mmuFrame_zero, htable, BitVec.toNat_ofNat]
  omega

lemma entries_leaf_low (n : Nat) (sym : Bool) {i : Fin 5} (hi : i = 3 ∨ i = 4) (j : Fin 512) :
    (K.entries n sym i j &&& ptePamask).toNat < 2 ^ 32 := by
  rcases hi with rfl | rfl
  · simp only [entries]
    by_cases hj : 1 ≤ j.val ∧ j.val < n
    · have hlt := j.isLt
      rw [if_pos hj, (pageEntry_low hlt).1, BitVec.toNat_ofNat]
      omega
    · rw [if_neg hj]
      decide
  · exact (by decide : (0#64 &&& ptePamask).toNat < 2 ^ 32)

section Loops

variable {K} {n : Nat} {sym : Bool} {m : Memory} {va : Word}

lemma Holds.new_low (h : K.Holds n sym m) (hva : va.toNat < 0x400000) :
    Vmiter.new m (K.page 0) va = .ok (K.lowIter va) := by
  have hc : vaIsCanonical va = true := Vmiter.canonical_of_low (by omega)
  have h3 : pageindex va 3 = 0 := by
    rw [pageindex_eq, pageSpan]
    omega
  have h2 : pageindex va 2 = 0 := by
    rw [pageindex_eq, pageSpan]
    omega
  have hindex : pageindex va 1 = va.toNat / 0x200000 % 512 := pageindex_eq va 1
  have hsettled : (K.lowIter va).Settled m := by
    refine ⟨?_, fun hpos => absurd hpos (Nat.lt_irrefl 0)⟩
    apply h.slot₀ hc h3 h2
    by_cases hlow : va.toNat < 0x200000
    · exact Or.inl ⟨by omega, if_pos hlow⟩
    · exact Or.inr ⟨by omega, if_neg hlow⟩
  rw [Vmiter.new_eq, Vmiter.check_eq_ok]
  have hwalked : Vmiter.walked m (K.page 0) va = K.lowIter va := hsettled.eq_walked.symm
  rw [hwalked]
  refine ⟨?_, rfl⟩
  have hread := h.read (if va.toNat < 0x200000 then 3 else 4) (pageindex_lt va 0)
  rw [lowIter]
  dsimp only
  rw [hread, BitVec.le_def, not_le]
  apply entries_leaf_low
  by_cases hlow : va.toNat < 0x200000
  · exact Or.inl (if_pos hlow)
  · exact Or.inr (if_neg hlow)

lemma lowIter_settled (h : K.Holds n sym m) (hva : va.toNat < 0x400000) : (K.lowIter va).Settled m :=
  (Vmiter.new_settled (h.new_low hva)).1

lemma map_leaf {pa : Word} {perm : BitVec 32} {s : MapState} (h : MapAsserts pa perm s) (hlevel : s.it.level_ = 0) :
    s.map pa perm = .ok { s with mem := s.mem.write s.it.pep_ (mapPa pa perm ||| perm.signExtend 64) } := by
  have hinstall : installTables perm s.it.level_ s = .ok (true, s) := by
    rw [hlevel]
    rfl
  rw [MapState.map, tryMap_eq_map h, hinstall]
  simp [Except.map, mapLeaf, hlevel]

/-- The loop is about to visit the page at `4096 * j`. -/
structure Visiting (K : KernelPagetable) (n : Nat) (sym : Bool) (j : Nat) (s : MapState) : Prop where
  holds : K.Holds (max n j) sym s.mem
  here : s.it = K.lowIter (BitVec.ofNat 64 (4096 * j))
  le : j ≤ 512

/-- What a loop does at address 0 leaves the table as it is. -/
def NullStep (K : KernelPagetable) (atNull : MapState → Except Stop MapState) : Prop :=
  ∀ n sym s, K.Holds n sym s.mem → s.it = K.lowIter 0#64 →
    ∃ s', atNull s = .ok s' ∧ K.Holds n sym s'.mem ∧ s'.it = s.it ∧ K.Elsewhere s.mem s'.mem

lemma nullStep_init : NullStep K .ok := fun _ _ s h _ => ⟨s, rfl, h, rfl, fun _ _ => rfl⟩

lemma nullStep_remap : NullStep K fun s => s.map s.it.va_ 0#32 := by
  intro n sym s h hit
  have hva : s.it.va_ = 0#64 := by rw [hit, lowIter]
  have hasserts : MapAsserts s.it.va_ 0#32 s := by
    rw [hva]
    refine ⟨?_, by simp, by decide, by simp⟩
    rw [hva]
    decide
  have hwrite : s.mem.write s.it.pep_ (mapPa s.it.va_ 0#32 ||| (0#32).signExtend 64) = K.setEntry 3 0 0#64 s.mem := by
    rw [hva, hit]
    rfl
  refine ⟨_, map_leaf hasserts (by rw [hit, lowIter]), ?_, rfl, ?_⟩
  · rw [hwrite]
    exact h.unmapNull
  · rw [hwrite]
    exact K.elsewhere_setEntry 3 (by decide) 0#64 s.mem

lemma Visiting.map {j : Nat} {s : MapState} (h : Visiting K n sym j s) (hpos : 0 < j) (hlt : j < 512) :
    ∃ s', s.map s.it.va_ ptePwu = .ok s' ∧ K.Holds (max n (j + 1)) sym s'.mem ∧ s'.it = s.it ∧
      K.Elsewhere s.mem s'.mem := by
  have hva : s.it.va_ = BitVec.ofNat 64 (4096 * j) := by rw [h.here, lowIter]
  have htoNat : (BitVec.ofNat 64 (4096 * j)).toNat = 4096 * j := by
    rw [BitVec.toNat_ofNat]
    omega
  have hlow : (if (BitVec.ofNat 64 (4096 * j)).toNat < 0x200000 then 3 else 4 : Fin 5) = 3 := by
    rw [htoNat, if_pos (by omega)]
  have hpa : mapPa s.it.va_ ptePwu = BitVec.ofNat 64 (4096 * j) := by
    rw [hva]
    exact if_neg fun hzero => absurd hzero.2 (by decide)
  have hasserts : MapAsserts s.it.va_ ptePwu s := by
    constructor
    · rw [hva]
      exact page_aligned htoNat
    · intro _
      rw [hpa]
      constructor
      · intro heq
        rw [heq] at htoNat
        exact absurd htoNat (by simp; omega)
      · apply BitVec.eq_of_toNat_eq
        rw [toNat_and_ptePamask]
        omega
    · exact fun hzero => absurd hzero (by decide)
    · rw [h.here, lowIter]
      exact (K.fullPerm₀ _).flags
  have hwrite : s.mem.write s.it.pep_ (mapPa s.it.va_ ptePwu ||| ptePwu.signExtend 64) =
      K.setEntry 3 j (pageEntry j) s.mem := by
    have hindex : pageindex (BitVec.ofNat 64 (4096 * j)) 0 = j := by
      rw [pageindex_eq, htoNat, pageSpan]
      omega
    rw [hpa, h.here, lowIter]
    dsimp only
    rw [hlow, hindex]
    rfl
  have hmax : max (max n j) (j + 1) = max n (j + 1) := by omega
  refine ⟨_, map_leaf hasserts (by rw [h.here, lowIter]), ?_, rfl, ?_⟩
  · rw [hwrite, ← hmax]
    exact h.holds.mapPage hlt hpos (le_max_right n j)
  · rw [hwrite]
    exact K.elsewhere_setEntry 3 hlt (pageEntry j) s.mem

lemma Visiting.round {atNull : MapState → Except Stop MapState} (hnull : NullStep K atNull) {j : Nat} {s : MapState}
    (h : Visiting K n sym j s) (hlt : j < 512) :
    ∃ s', mapRound atNull s = .next s' ∧ Visiting K n sym (j + 1) s' ∧ K.Elsewhere s.mem s'.mem := by
  have hva : s.it.va_ = BitVec.ofNat 64 (4096 * j) := by rw [h.here, lowIter]
  have htoNat : s.it.va_.toNat = 4096 * j := by
    rw [hva, BitVec.toNat_ofNat]
    omega
  have hvisit : ∃ s', (if s.it.va_ ≠ 0#64 then s.map s.it.va_ ptePwu else atNull s) = .ok s' ∧
      K.Holds (max n (j + 1)) sym s'.mem ∧ s'.it = s.it ∧ K.Elsewhere s.mem s'.mem := by
    by_cases hzero : j = 0
    · subst hzero
      rw [if_neg (not_not.2 hva)]
      obtain ⟨s', hs', hholds, hit⟩ := hnull _ _ s h.holds h.here
      exact ⟨s', hs', hholds.congr (by omega), hit⟩
    · have hne : s.it.va_ ≠ 0#64 := by
        intro heq
        rw [heq, BitVec.toNat_ofNat] at htoNat
        omega
      rw [if_pos hne]
      exact h.map (Nat.pos_of_ne_zero hzero) hlt
  obtain ⟨s', hs', hholds, hit, helsewhere⟩ := hvisit
  have hnext : s.it.va_ + pagesize = BitVec.ofNat 64 (4096 * (j + 1)) := by
    rw [hva, Nat.mul_add, BitVec.ofNat_add]
    rfl
  have hadvance : s'.it.advance s'.mem pagesize = .ok (K.lowIter (BitVec.ofNat 64 (4096 * (j + 1)))) := by
    rw [Vmiter.advance, Vmiter.find, hit, hnext, h.here,
      Vmiter.realFind_eq_new (lowIter_settled hholds (by rw [← hva, htoNat]; omega))]
    apply hholds.new_low
    rw [BitVec.toNat_ofNat]
    omega
  refine ⟨{ s' with it := K.lowIter (BitVec.ofNat 64 (4096 * (j + 1))) }, ?_, ⟨hholds, rfl, hlt⟩, helsewhere⟩
  rw [mapRound, if_pos (by rw [htoNat, Kernel.memsizePhysical]; omega), hs']
  dsimp only
  rw [hadvance]

lemma Visiting.run {atNull : MapState → Except Stop MapState} (hnull : NullStep K atNull) {j fuel : Nat} {s : MapState}
    (h : Visiting K n sym j s) (hfuel : 512 - j < fuel) :
    ∃ s', run (mapRound atNull) fuel s = some (.ok s') ∧ K.Holds (max n 512) sym s'.mem ∧ K.Elsewhere s.mem s'.mem := by
  induction fuel generalizing j s with
  | zero => omega
  | succ fuel ih =>
    by_cases hlt : j < 512
    · obtain ⟨s₁, hround, hvisiting, helsewhere⟩ := h.round hnull hlt
      obtain ⟨s', hrun, hholds, hrest⟩ := ih hvisiting (by omega)
      rw [run_next _ hround]
      exact ⟨s', hrun, hholds, helsewhere.trans hrest⟩
    · obtain rfl : j = 512 := Nat.le_antisymm h.le (Nat.le_of_not_lt hlt)
      have hdone : mapRound atNull s = .done (.ok s) := by
        rw [mapRound, if_neg]
        rw [h.here]
        exact Nat.lt_irrefl Kernel.memsizePhysical
      rw [run_done _ hdone]
      exact ⟨s, rfl, h.holds, fun _ _ => rfl⟩

/-- Both loops end without a panic or a failed assertion, and write to the table only. -/
lemma mapLoop_holds {atNull : MapState → Except Stop MapState} (hnull : NullStep K atNull) {s : TableState}
    (h : K.Holds n sym s.mem) (hn : n ≤ 512) {fuel : Nat} (hfuel : 512 < fuel) :
    ∃ s', K.mapLoop atNull fuel s = some (.ok s') ∧ K.Holds 512 sym s'.mem ∧ K.Elsewhere s.mem s'.mem := by
  have hstart : Visiting K n sym 0 ⟨s.mem, s.free, K.lowIter 0#64⟩ := by
    refine ⟨?_, rfl, Nat.zero_le 512⟩
    rw [Nat.max_zero]
    exact h
  obtain ⟨s', hrun, hholds, helsewhere⟩ := hstart.run hnull hfuel
  rw [mapLoop, h.new_low (by decide)]
  dsimp only
  rw [hrun]
  rw [max_eq_right hn] at hholds
  exact ⟨⟨s'.mem, s'.free⟩, rfl, hholds, helsewhere⟩

end Loops

/-! ### Runs -/

def Event.isLookup : Event → Bool
  | .remap => false
  | .lookupSymbol => true
  | .elsewhere _ _ => false

section Runs

variable {K} {sym : Bool} {s : TableState} {fuel : Nat}

lemma initKernelMemory_holds (hz : s.mem.zeroPe = 0#64) (hfuel : 512 < fuel) :
    ∃ s', K.initKernelMemory fuel s = some (.ok s') ∧ K.Holds 512 false s'.mem ∧ K.Elsewhere s.mem s'.mem := by
  have htables : K.Holds 0 false (TableState.mk (K.initTables s.mem) s.free).mem := K.initTables_holds hz
  obtain ⟨s', hs', hholds, helsewhere⟩ := mapLoop_holds nullStep_init htables (Nat.zero_le 512) hfuel
  exact ⟨s', hs', hholds, (K.elsewhere_initTables s.mem).trans helsewhere⟩

lemma remap_holds (h : K.Holds 512 sym s.mem) (hfuel : 512 < fuel) :
    ∃ s', K.remap fuel s = some (.ok s') ∧ K.Holds 512 sym s'.mem ∧ K.Elsewhere s.mem s'.mem :=
  mapLoop_holds nullStep_remap h (Nat.le_refl 512) hfuel

lemma step_holds (h : K.Holds 512 sym s.mem) (hfuel : 512 < fuel) (e : Event) :
    ∃ s', K.step fuel s e = some (.ok s') ∧ K.Holds 512 (sym || e.isLookup) s'.mem := by
  cases e with
  | remap =>
    obtain ⟨s', hs', hholds, -⟩ := remap_holds h hfuel
    refine ⟨s', hs', ?_⟩
    rw [Event.isLookup, Bool.or_false]
    exact hholds
  | lookupSymbol =>
    refine ⟨_, rfl, ?_⟩
    rw [Event.isLookup, Bool.or_true]
    exact h.mapSymtab
  | elsewhere word free =>
    refine ⟨_, rfl, ?_⟩
    rw [Event.isLookup, Bool.or_false]
    exact h.elsewhere word

lemma steps_holds (h : K.Holds 512 sym s.mem) (hfuel : 512 < fuel) (events : List Event) :
    ∃ s', K.steps fuel s events = some (.ok s') ∧ K.Holds 512 (sym || events.any Event.isLookup) s'.mem := by
  induction events generalizing s sym with
  | nil => exact ⟨s, rfl, by simpa using h⟩
  | cons e events ih =>
    obtain ⟨s₁, hs₁, hholds⟩ := step_holds h hfuel e
    obtain ⟨s', hs', hrest⟩ := ih hholds
    refine ⟨s', ?_, ?_⟩
    · rw [steps, hs₁]
      exact hs'
    · rw [List.any_cons, ← Bool.or_assoc]
      exact hrest

/-- Whatever happens after `init_kernel_memory`, the table is known up to the entry for the symbol table. -/
lemma boot_holds (hz : s.mem.zeroPe = 0#64) (hfuel : 512 < fuel) (events : List Event) :
    ∃ s', K.boot fuel s events = some (.ok s') ∧ K.Holds 512 (events.any Event.isLookup) s'.mem := by
  obtain ⟨s₁, hs₁, hholds, -⟩ := initKernelMemory_holds hz hfuel
  obtain ⟨s', hs', hrest⟩ := steps_holds hholds hfuel events
  refine ⟨s', ?_, ?_⟩
  · rw [boot, hs₁]
    exact hs'
  · rw [Bool.false_or] at hrest
    exact hrest

end Runs

/-! ### Translation -/

/-- Physical memory without the page at address 0. -/
def InMemory (va : Word) : Prop := 0x1000 ≤ va.toNat ∧ va.toNat < Kernel.memsizePhysical

/-- The second to fourth GiB, with the memory-mapped devices. -/
def InDevices (va : Word) : Prop := 2 ^ 30 ≤ va.toNat ∧ va.toNat < 2 ^ 32

def InSymtab (va : Word) : Prop := 0x1000000 ≤ va.toNat ∧ va.toNat < 0x1200000

/-- What becomes of an address: it is mapped to itself for everyone or for the kernel, or it is not mapped. -/
inductive Outcome (sym : Bool) (m : Memory) (va : Word) : Prop where
  | memory (hva : InMemory va) (htranslate : mmuTranslate m (K.page 0) va = some va)
      (huser : MmuMapped m (K.page 0) (pteP ||| pteU) va)
  | kernel (hva : InDevices va ∨ sym = true ∧ InSymtab va) (htranslate : mmuTranslate m (K.page 0) va = some va)
      (huser : ¬MmuMapped m (K.page 0) (pteP ||| pteU) va)
  | absent (hva : ¬InMemory va ∧ ¬InDevices va ∧ ¬(sym = true ∧ InSymtab va))
      (htranslate : mmuTranslate m (K.page 0) va = none) (huser : ¬MmuMapped m (K.page 0) (pteP ||| pteU) va)

section Translation

variable {K} {sym : Bool} {m : Memory} {va : Word}

lemma Holds.outcome_pages (h : K.Holds 512 sym m) (hva : va.toNat < 0x200000) : K.Outcome sym m va := by
  have hc : vaIsCanonical va = true := Vmiter.canonical_of_low (by omega)
  have hi3 : pageindex va 3 = va.toNat / 2 ^ 39 % 512 := pageindex_eq va 3
  have hi2 : pageindex va 2 = va.toNat / 2 ^ 30 % 512 := pageindex_eq va 2
  have hi1 : pageindex va 1 = va.toNat / 2 ^ 21 % 512 := pageindex_eq va 1
  have hi0 : pageindex va 0 = va.toNat / 2 ^ 12 % 512 := pageindex_eq va 0
  have hslot := h.slot₀ hc (by omega) (by omega) (Or.inl ⟨by omega, rfl⟩)
  have hends := hslot.ends hc (K.fullPerm₀ 3) (h.read 3 (pageindex_lt va 0)) (fun hpos => absurd hpos (Nat.lt_irrefl 0))
  by_cases hnull : va.toNat < 0x1000
  · have hentry : K.entries 512 sym 3 ⟨pageindex va 0, pageindex_lt va 0⟩ = 0#64 := if_neg (by dsimp only; omega)
    rw [hentry] at hends
    refine .absent ?_ hends.absent.1 hends.absent.2
    rw [InMemory, InDevices, InSymtab]
    omega
  · have hentry : K.entries 512 sym 3 ⟨pageindex va 0, pageindex_lt va 0⟩ = pageEntry (pageindex va 0) :=
      if_pos (by dsimp only; omega)
    have hflags := (pageEntry_low (pageindex_lt va 0)).2
    rw [hentry] at hends
    refine .memory ⟨by omega, hva⟩ (hends.identity (hflags 0 (by norm_num)) ?_)
      (hends.user.2 ⟨hflags 0 (by norm_num), hflags 2 (by norm_num)⟩)
    rw [pageEntry_frame (pageindex_lt va 0), hi0]
    simp only [pageSpan]
    omega

lemma Holds.outcome_low (h : K.Holds 512 sym m) (hva : va.toNat < 2 ^ 30) (hmin : 0x200000 ≤ va.toNat) :
    K.Outcome sym m va := by
  have hc : vaIsCanonical va = true := Vmiter.canonical_of_low (by omega)
  have hi3 : pageindex va 3 = va.toNat / 2 ^ 39 % 512 := pageindex_eq va 3
  have hi2 : pageindex va 2 = va.toNat / 2 ^ 30 % 512 := pageindex_eq va 2
  have hi1 : pageindex va 1 = va.toNat / 2 ^ 21 % 512 := pageindex_eq va 1
  have hlt := pageindex_lt va 1
  by_cases hfirst : va.toNat < 0x400000
  · -- the second table of 4 KiB pages, which no loop reaches
    have hslot := h.slot₀ hc (by omega) (by omega) (Or.inr ⟨by omega, rfl⟩)
    have hends := hslot.ends hc (K.fullPerm₀ 4) (h.read 4 (pageindex_lt va 0)) (fun hpos => absurd hpos (Nat.lt_irrefl 0))
    refine .absent ?_ hends.absent.1 hends.absent.2
    rw [InMemory, InDevices, InSymtab, Kernel.memsizePhysical]
    omega
  · have hslot := h.slot₁ hc (by omega) (by omega)
    have hentry : K.entries 512 sym 2 ⟨pageindex va 1, hlt⟩ =
        if sym = true ∧ pageindex va 1 = 8 then largeEntry symtabAddr else 0#64 := by
      simp only [entries]
      rw [if_neg (by omega), if_neg (by omega)]
    have hread := (h.read 2 hlt).trans hentry
    by_cases hsym : sym = true ∧ pageindex va 1 = 8
    · rw [if_pos hsym] at hread
      have hends := hslot.ends hc K.fullPerm₁ hread (fun _ => largeEntry_symtab.last)
      have hkernel := hends.kernel largeEntry_symtab (by simp only [pageSpan]; omega)
      exact .kernel (Or.inr ⟨hsym.1, by rw [InSymtab]; omega⟩) hkernel.1 hkernel.2
    · rw [if_neg hsym] at hread
      have hends := hslot.ends hc K.fullPerm₁ hread (fun _ => not_isTable_zero)
      refine .absent ⟨?_, ?_, ?_⟩ hends.absent.1 hends.absent.2
      · rw [InMemory, Kernel.memsizePhysical]
        omega
      · rw [InDevices]
        omega
      · rw [InSymtab]
        intro hin
        exact hsym ⟨hin.1, by omega⟩

lemma Holds.outcome_gib (h : K.Holds 512 sym m) (hc : vaIsCanonical va = true) (h3 : pageindex va 3 = 0)
    (hmin : 2 ^ 30 ≤ va.toNat) : K.Outcome sym m va := by
  have hi3 : pageindex va 3 = va.toNat / 2 ^ 39 % 512 := pageindex_eq va 3
  have hi2 : pageindex va 2 = va.toNat / 2 ^ 30 % 512 := pageindex_eq va 2
  have hlt := pageindex_lt va 2
  have hcanonical := (vaIsCanonical_iff va).1 hc
  have hentry : K.entries 512 sym 1 ⟨pageindex va 2, hlt⟩ =
      if pageindex va 2 ≤ 3 then largeEntry (BitVec.ofNat 64 (pageindex va 2) <<< 30) else 0#64 := by
    simp only [entries]
    rw [if_neg (by omega)]
  have hread := (h.read 1 hlt).trans hentry
  by_cases hgib : pageindex va 2 ≤ 3
  · have hpage := largeEntry_gib (k := pageindex va 2) (by omega) hgib
    rw [if_pos hgib] at hread
    have hends := (h.slot₂ hc h3).ends hc K.fullPerm₂ hread (fun _ => hpage.last)
    have hkernel := hends.kernel hpage (by simp only [pageSpan]; omega)
    exact .kernel (Or.inl ⟨hmin, by omega⟩) hkernel.1 hkernel.2
  · rw [if_neg hgib] at hread
    have hends := (h.slot₂ hc h3).ends hc K.fullPerm₂ hread (fun _ => not_isTable_zero)
    refine .absent ?_ hends.absent.1 hends.absent.2
    rw [InMemory, InDevices, InSymtab, Kernel.memsizePhysical]
    omega

/-- The addresses beyond the first 512 GiB, canonical or not. -/
lemma Holds.outcome_far (h : K.Holds 512 sym m) (hfar : vaIsCanonical va = false ∨ pageindex va 3 ≠ 0) :
    K.Outcome sym m va := by
  have hi3 : pageindex va 3 = va.toNat / 2 ^ 39 % 512 := pageindex_eq va 3
  have hmin : 2 ^ 39 ≤ va.toNat := by
    rcases hfar with hc | h3
    · have hlarge : ¬(va.toNat < 2 ^ 47 ∨ 2 ^ 64 - 2 ^ 47 ≤ va.toNat) := by
        rw [← vaIsCanonical_iff, hc]
        exact Bool.false_ne_true
      omega
    · omega
  have habsent : mmuTranslate m (K.page 0) va = none ∧ ¬MmuMapped m (K.page 0) (pteP ||| pteU) va := by
    cases hc : vaIsCanonical va with
    | false =>
      have htranslate : mmuTranslate m (K.page 0) va = none := by
        rw [mmuTranslate, if_neg]
        rw [mmuCanonical_iff, hc]
        exact Bool.false_ne_true
      rw [MmuMapped, htranslate]
      exact ⟨rfl, fun hmapped => absurd hmapped.1 Bool.false_ne_true⟩
    | true =>
      have h3 : pageindex va 3 ≠ 0 := by simpa [hc] using hfar
      have hentry : K.entries 512 sym 0 ⟨pageindex va 3, pageindex_lt va 3⟩ = 0#64 := if_neg h3
      have hends := (slot₃ m (K.page 0) hc).ends hc fullPerm_initial ((h.read 0 (pageindex_lt va 3)).trans hentry)
        (fun _ => not_isTable_zero)
      exact hends.absent
  refine .absent ?_ habsent.1 habsent.2
  rw [InMemory, InDevices, InSymtab, Kernel.memsizePhysical]
  omega

lemma Holds.outcome (h : K.Holds 512 sym m) (va : Word) : K.Outcome sym m va := by
  by_cases hfar : vaIsCanonical va = false ∨ pageindex va 3 ≠ 0
  · exact h.outcome_far hfar
  · rw [not_or, Bool.not_eq_false, not_not] at hfar
    rcases Nat.lt_or_ge va.toNat (2 ^ 30) with hlow | hhigh
    · rcases Nat.lt_or_ge va.toNat 0x200000 with hpages | hrest
      · exact h.outcome_pages hpages
      · exact h.outcome_low hlow hrest
    · exact h.outcome_gib hfar.1 hfar.2 hhigh

lemma Outcome.translate_iff (h : K.Outcome sym m va) (pa : Word) : mmuTranslate m (K.page 0) va = some pa ↔
    pa = va ∧ (InMemory va ∨ InDevices va ∨ sym = true ∧ InSymtab va) := by
  rcases h with ⟨hva, htranslate, -⟩ | ⟨hva, htranslate, -⟩ | ⟨hva, htranslate, -⟩
  · simp [htranslate, hva, eq_comm]
  · simp only [htranslate, Option.some.injEq, hva, or_true, and_true, eq_comm]
  · simp [htranslate, hva.1, hva.2.1, hva.2.2]

lemma not_inMemory (hva : InDevices va ∨ sym = true ∧ InSymtab va) : ¬InMemory va := by
  rw [InMemory, Kernel.memsizePhysical]
  rw [InDevices, InSymtab] at hva
  omega

lemma Outcome.user_iff (h : K.Outcome sym m va) : MmuMapped m (K.page 0) (pteP ||| pteU) va ↔ InMemory va := by
  rcases h with ⟨hva, -, huser⟩ | ⟨hva, -, huser⟩ | ⟨hva, -, huser⟩
  · exact iff_of_true huser hva
  · exact iff_of_false huser (not_inMemory hva)
  · exact iff_of_false huser hva.1

end Translation

/-- The translations that the kernel page table gives, the symbol table included if `sym`. -/
structure Identity (sym : Bool) (m : Memory) : Prop where
  translate : ∀ va pa, mmuTranslate m (K.page 0) va = some pa ↔
    pa = va ∧ (InMemory va ∨ InDevices va ∨ sym = true ∧ InSymtab va)
  user : ∀ va, MmuMapped m (K.page 0) (pteP ||| pteU) va ↔ InMemory va
  kernelOnly : ∀ va, va = 0#64 ∨ InDevices va → ¬MmuMapped m (K.page 0) (pteP ||| pteU) va

variable {K} in
lemma Holds.identity {sym : Bool} {m : Memory} (h : K.Holds 512 sym m) : K.Identity sym m where
  translate := fun va pa => (h.outcome va).translate_iff pa
  user := fun va => (h.outcome va).user_iff
  kernelOnly := by
    intro va hva huser
    have hmemory := (h.outcome va).user_iff.1 huser
    rcases hva with rfl | hdevices
    · exact absurd hmemory.1 (by decide)
    · have hkernel : InDevices va ∨ false = true ∧ InSymtab va := Or.inl hdevices
      exact not_inMemory hkernel hmemory

/-- After `init_kernel_memory`, and whatever happens to the table later, addresses are mapped to themselves or
not at all, and only physical memory is open to processes. -/
theorem kernel_table_identity (s : TableState) (hz : s.mem.zeroPe = 0#64) {fuel : Nat} (hfuel : 512 < fuel)
    (events : List Event) :
    ∃ s', K.boot fuel s events = some (.ok s') ∧ K.Identity (events.any Event.isLookup) s'.mem := by
  obtain ⟨s', hs', hholds⟩ := boot_holds (K := K) hz hfuel events
  exact ⟨s', hs', hholds.identity⟩

def sampleKernelPagetable : KernelPagetable := ⟨0x50000#64, by decide, by decide⟩

theorem kernel_table_identity_sample : ∃ s', sampleKernelPagetable.boot 513 ⟨emptyMemory, []⟩
      [.remap, .lookupSymbol] = some (.ok s') ∧
    mmuTranslate s'.mem (sampleKernelPagetable.page 0) 0x1000008#64 = some 0x1000008#64 ∧
    MmuMapped s'.mem (sampleKernelPagetable.page 0) (pteP ||| pteU) 0xB8000#64 ∧
    ¬MmuMapped s'.mem (sampleKernelPagetable.page 0) (pteP ||| pteU) 0x1000008#64 := by
  obtain ⟨s', hs', hidentity⟩ := kernel_table_identity sampleKernelPagetable ⟨emptyMemory, []⟩ rfl
    (show 512 < 513 by norm_num)
    [.remap, .lookupSymbol]
  refine ⟨s', hs', ?_, ?_, ?_⟩
  · exact (hidentity.translate _ _).2 ⟨rfl, Or.inr (Or.inr ⟨rfl, by rw [InSymtab]; decide⟩)⟩
  · exact (hidentity.user _).2 (by rw [InMemory]; decide)
  · rw [hidentity.user, InMemory]
    decide

end KernelPagetable

end Cs300Projects.WeensyOS
