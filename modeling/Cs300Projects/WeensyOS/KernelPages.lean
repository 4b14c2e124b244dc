import Cs300Projects.Lib.ScanAlloc
import Cs300Projects.WeensyOS.Kernel
import Mathlib.Tactic.NormNum

/-!
# No physical page is given out twice

`kalloc`, `process_setup` and `syscall_page_alloc` take pages from one supply, in which `kalloc`
scans. This holds as long as no program is loaded over the kernel image and no page is requested in
it: nothing else keeps the calls from overwriting `pages` and `next_alloc_pa`.
-/

namespace Cs300Projects.WeensyOS.Kernel

variable {L : Layout} {s s' : State}

namespace State

/-! ### The bookkeeping in memory -/

lemma used_claim (s : State) (p q : Nat) : (s.claim L p).used L q = (decide (q = p) || s.used L q) := by
  unfold used claim Bytes.fill
  dsimp only
  by_cases hq : q = p
  · rw [if_pos (by omega)]
    simp [hq]
  · rw [if_neg (by omega)]
    simp [hq]

lemma nextAllocPa_claim (s : State) {p : Nat} (hp : p < npages) :
    (s.claim L p).nextAllocPa L = s.nextAllocPa L := by
  apply Bytes.readLE_congr
  intro x hx hlt
  apply Bytes.fill_outside
  have := L.disjoint
  unfold Bytes.Outside
  omega

lemma used_setNextAllocPa (s : State) (pa : Nat) {p : Nat} (hp : p < npages) :
    (s.setNextAllocPa L pa).used L p = s.used L p := by
  unfold used setNextAllocPa
  dsimp only
  rw [Bytes.writeLE_outside]
  have := L.disjoint
  unfold Bytes.Outside
  omega

lemma nextAllocPa_setNextAllocPa (s : State) {pa : Nat} (hpa : pa < 2 ^ 64) :
    (s.setNextAllocPa L pa).nextAllocPa L = pa := by
  unfold nextAllocPa setNextAllocPa
  dsimp only
  rw [Bytes.readLE_writeLE, Nat.mod_eq_of_lt]
  norm_num
  omega

/-- The memory of the kernel image is the same. -/
def SameImage (L : Layout) (s s' : State) : Prop :=
  ∀ x, kernelStartAddr ≤ x → x < L.kernelEnd → s'.mem x = s.mem x

lemma SameImage.used (h : SameImage L s s') {p : Nat} (hp : p < npages) : s'.used L p = s.used L p := by
  have := L.le_pages
  have := L.pages_le
  unfold State.used
  rw [h _ (by omega) (by omega)]

lemma SameImage.nextAllocPa (h : SameImage L s s') : s'.nextAllocPa L = s.nextAllocPa L := by
  have := L.le_nextAllocPa
  have := L.nextAllocPa_le
  apply Bytes.readLE_congr
  intro x hx hlt
  exact h x (by omega) (by omega)

end State

/-- None of the `n` bytes from `a` on is in the kernel image. -/
def Layout.Avoids (L : Layout) (a n : Nat) : Prop := n = 0 ∨ a + n ≤ kernelStartAddr ∨ L.kernelEnd ≤ a

lemma Layout.Avoids.outside {a n x : Nat} (h : L.Avoids a n) (hx : kernelStartAddr ≤ x)
    (hlt : x < L.kernelEnd) : Bytes.Outside x a n := by
  unfold Layout.Avoids at h
  unfold Bytes.Outside
  omega

namespace State

lemma sameImage_memset (s : State) {a n : Nat} (c : UInt8) (h : L.Avoids a n) :
    SameImage L s (s.memset a c n) :=
  fun _ hx hlt => Bytes.fill_outside (h.outside hx hlt)

lemma sameImage_memcpy (s : State) {a : Nat} {data : List UInt8} (h : L.Avoids a data.length) :
    SameImage L s (s.memcpy a data) :=
  fun _ hx hlt => Bytes.copy_outside (h.outside hx hlt)

end State

/-! ### Allocatable pages -/

/-- The pages that `kalloc` may return. -/
def Layout.Allocatable (L : Layout) (p : Nat) : Prop := allocatablePhysicalAddress L (p * pagesize) = true

lemma npages_eq : npages = 512 := by decide

lemma allocatable_iff {pa : Nat} : allocatablePhysicalAddress L pa = true ↔
    0x1000 ≤ pa ∧ (pa < 0xA0000 ∨ 0x100000 ≤ pa) ∧ (pa < 0x40000 ∨ (L.kernelEnd + 4095) / 4096 * 4096 ≤ pa) ∧
      (pa < 0x7F000 ∨ 0x80000 ≤ pa) ∧ pa < 0x200000 := by
  simp only [allocatablePhysicalAddress, reservedPhysicalAddress, Bool.and_eq_true, Bool.or_eq_true,
    Bool.not_eq_true', Bool.or_eq_false_iff, Bool.and_eq_false_iff, decide_eq_true_eq,
    decide_eq_false_iff_not]
  simp only [roundUp, roundDown, pagesize, iophysmem, extphysmem, kernelStartAddr, kernelStackTop,
    memsizePhysical]
  omega

/-- The bounds of `allocatable_physical_address` are bounds of pages. -/
lemma allocatable_page {pa : Nat} (h : allocatablePhysicalAddress L pa = true) :
    pa / pagesize < npages ∧ L.Allocatable (pa / pagesize) := by
  unfold Layout.Allocatable
  rw [npages_eq, allocatable_iff]
  rw [allocatable_iff] at h
  unfold pagesize
  omega

lemma allocatable_avoids {p : Nat} (h : L.Allocatable p) : L.Avoids (p * pagesize) pagesize := by
  unfold Layout.Allocatable at h
  rw [allocatable_iff] at h
  unfold Layout.Avoids kernelStartAddr
  unfold pagesize at h ⊢
  omega

/-! ### The supply of pages -/

def Event.toScan : Event → ScanAlloc.Event
  | returned pa => .alloc (pa / pagesize)
  | claimed page => .claim page

lemma Event.unit_toScan (e : Event) : e.toScan.unit = e.page := by
  cases e <;> rfl

/-- The state is what a run of the supply from `start` has led to. -/
structure Refines (L : Layout) (start : ScanAlloc.Supply) (s : State) (supply : ScanAlloc.Supply) : Prop where
  runs : ScanAlloc.Runs L.Allocatable start (s.log.map Event.toScan) supply
  used_iff : ∀ p, supply.used p ↔ p < npages ∧ s.used L p = true
  cursor : s.nextAllocPa L = supply.cursor * pagesize
  cursor_le : supply.cursor ≤ npages
  aligned : ∀ pa, .returned pa ∈ s.log → pa % pagesize = 0

namespace Refines

variable {start supply : ScanAlloc.Supply}

lemma sameImage (h : Refines L start s supply) (hmem : State.SameImage L s s') (hlog : s'.log = s.log) :
    Refines L start s' supply where
  runs := hlog ▸ h.runs
  used_iff p := by
    rw [h.used_iff]
    constructor
    · rintro ⟨hp, hused⟩
      exact ⟨hp, (hmem.used hp).trans hused⟩
    · rintro ⟨hp, hused⟩
      exact ⟨hp, (hmem.used hp).symm.trans hused⟩
  cursor := hmem.nextAllocPa.trans h.cursor
  cursor_le := h.cursor_le
  aligned := hlog ▸ h.aligned

lemma free (h : Refines L start s supply) {p : Nat} (hfree : s.used L p = false) : ¬ supply.used p := by
  rw [h.used_iff, hfree]
  simp

lemma used_iff_claim (h : Refines L start s supply) {p : Nat} (hp : p < npages) (q : Nat) :
    (supply.take p).used q ↔ q < npages ∧ (s.claim L p).used L q = true := by
  rw [State.used_claim, Bool.or_eq_true, decide_eq_true_eq]
  change q = p ∨ supply.used q ↔ _
  rw [h.used_iff]
  constructor
  · rintro (rfl | ⟨hq, hused⟩)
    · exact ⟨hp, Or.inl rfl⟩
    · exact ⟨hq, Or.inr hused⟩
  · rintro ⟨hq, rfl | hused⟩
    · exact Or.inl rfl
    · exact Or.inr ⟨hq, hused⟩

lemma claim (h : Refines L start s supply) {p : Nat} (hp : p < npages) (hfree : s.used L p = false) :
    Refines L start ((s.claim L p).event (.claimed p)) (supply.take p) where
  runs := by
    have hstep := h.runs.tail (ScanAlloc.Step.claim supply p (h.free hfree))
    simpa [State.event, State.claim, Event.toScan] using hstep
  used_iff := h.used_iff_claim hp
  cursor := (s.nextAllocPa_claim hp).trans h.cursor
  cursor_le := h.cursor_le
  aligned pa hpa := by
    apply h.aligned
    simpa [State.event, State.claim] using hpa

lemma skip (h : Refines L start s supply) (hlt : supply.cursor < npages)
    (hused : L.Allocatable supply.cursor → s.used L supply.cursor = true) :
    Refines L start (s.setNextAllocPa L ((supply.cursor + 1) * pagesize))
      { supply with cursor := supply.cursor + 1 } where
  runs := by
    have hstep := h.runs.tail (ScanAlloc.Step.skip supply fun hok => (h.used_iff _).2 ⟨hlt, hused hok⟩)
    rwa [List.append_nil] at hstep
  used_iff p := by
    rw [h.used_iff]
    constructor
    · rintro ⟨hp, hold⟩
      exact ⟨hp, (s.used_setNextAllocPa _ hp).trans hold⟩
    · rintro ⟨hp, hnew⟩
      exact ⟨hp, (s.used_setNextAllocPa _ hp).symm.trans hnew⟩
  cursor := by
    apply s.nextAllocPa_setNextAllocPa
    rw [npages_eq] at hlt
    unfold pagesize
    omega
  cursor_le := hlt
  aligned := h.aligned

lemma alloc (h : Refines L start s supply) (hlt : supply.cursor < npages) (hok : L.Allocatable supply.cursor)
    (hfree : s.used L supply.cursor = false) :
    Refines L start ((((s.setNextAllocPa L ((supply.cursor + 1) * pagesize)).claim L supply.cursor).memset
      (supply.cursor * pagesize) 0xCC pagesize).event (.returned (supply.cursor * pagesize)))
      { supply.take supply.cursor with cursor := supply.cursor + 1 } := by
  have hpage : supply.cursor * pagesize / pagesize = supply.cursor := Nat.mul_div_cancel _ (by decide)
  have hset : ∀ p, p < npages →
      (s.setNextAllocPa L ((supply.cursor + 1) * pagesize)).used L p = s.used L p :=
    fun p hp => s.used_setNextAllocPa _ hp
  have hclaim : Refines L start
      (((s.setNextAllocPa L ((supply.cursor + 1) * pagesize)).claim L supply.cursor).event
        (.returned (supply.cursor * pagesize)))
      { supply.take supply.cursor with cursor := supply.cursor + 1 } := by
    constructor
    · have hstep := h.runs.tail (ScanAlloc.Step.alloc supply hok (h.free hfree))
      simpa [State.event, State.claim, State.setNextAllocPa, Event.toScan, hpage] using hstep
    · intro q
      have hq := h.used_iff_claim hlt q
      rw [State.used_claim] at hq
      change (supply.take supply.cursor).used q ↔ _ ∧ State.used L (State.claim L _ _) q = true
      rw [State.used_claim, hq]
      constructor
      · rintro ⟨hn, hused⟩
        rw [hset q hn]
        exact ⟨hn, hused⟩
      · rintro ⟨hn, hused⟩
        rw [hset q hn] at hused
        exact ⟨hn, hused⟩
    · refine (State.nextAllocPa_claim _ hlt).trans (s.nextAllocPa_setNextAllocPa ?_)
      rw [npages_eq] at hlt
      unfold pagesize
      omega
    · exact hlt
    · intro pa hpa
      simp only [State.event, State.claim, State.setNextAllocPa, List.mem_append, List.mem_singleton,
        Event.returned.injEq] at hpa
      rcases hpa with hold | rfl
      · exact h.aligned pa hold
      · exact Nat.mul_mod_left _ _
  exact hclaim.sameImage (State.sameImage_memset _ _ (allocatable_avoids hok)) rfl

/-! ### kalloc -/

/-- One round of `kalloc`'s loop either passes a page that it may not return, or returns the page at
the cursor, or has passed all pages. -/
lemma kallocRound_cases (h : Refines L start s supply) :
    (∃ s₁, s.kallocRound L = .next s₁ ∧ Refines L start s₁ { supply with cursor := supply.cursor + 1 } ∧
      ∀ p, p < npages → s₁.used L p = s.used L p) ∨
    (∃ s₁, s.kallocRound L = .done (s₁, some (supply.cursor * pagesize)) ∧ L.Allocatable supply.cursor ∧
      s.used L supply.cursor = false ∧
      Refines L start s₁ { supply.take supply.cursor with cursor := supply.cursor + 1 }) ∨
    (s.kallocRound L = .done (s, none) ∧ supply.cursor = npages) := by
  have hle := h.cursor_le
  have hpage : supply.cursor * pagesize / pagesize = supply.cursor := Nat.mul_div_cancel _ (by decide)
  rcases Nat.lt_or_eq_of_le hle with hlt | heq
  · have hin : s.nextAllocPa L < memsizePhysical := by
      rw [h.cursor]
      rw [npages_eq] at hlt
      unfold pagesize memsizePhysical
      omega
    have hnext : (s.nextAllocPa L + pagesize) % 2 ^ 64 = (supply.cursor + 1) * pagesize := by
      rw [h.cursor, Nat.mod_eq_of_lt, Nat.succ_mul]
      rw [npages_eq] at hlt
      unfold pagesize
      omega
    have hsame := s.used_setNextAllocPa (L := L) ((supply.cursor + 1) * pagesize) hlt
    by_cases htest : L.Allocatable supply.cursor ∧ s.used L supply.cursor = false
    · refine Or.inr (Or.inl ⟨_, ?_, htest.1, htest.2, h.alloc hlt htest.1 htest.2⟩)
      unfold State.kallocRound
      rw [if_pos hin]
      dsimp only
      rw [hnext, h.cursor, hpage, hsame, htest.2,
        show allocatablePhysicalAddress L (supply.cursor * pagesize) = true from htest.1]
      rfl
    · refine Or.inl ⟨_, ?_, h.skip hlt ?_, fun p hp => s.used_setNextAllocPa _ hp⟩
      · unfold State.kallocRound
        rw [if_pos hin]
        dsimp only
        rw [hnext, h.cursor, hpage, hsame, if_neg]
        simpa [Layout.Allocatable] using htest
      · intro hok
        by_contra hused
        exact htest ⟨hok, by simpa using hused⟩
  · refine Or.inr (Or.inr ⟨?_, heq⟩)
    unfold State.kallocRound
    rw [if_neg]
    rw [h.cursor, heq]
    decide

/-- What `kalloc` does: a page that was free is taken from the supply, or no allocatable page is left. -/
lemma kalloc_spec (hswept : ScanAlloc.Swept L.Allocatable start) {fuel sz : Nat} {r : Option Nat}
    (h : Refines L start s supply) (hkalloc : s.kalloc L fuel sz = some (s', r)) :
    (∃ supply', Refines L start s' supply') ∧
      (∀ pa, r = some pa → s.used L (pa / pagesize) = false) ∧
      (r = none → sz ≤ pagesize → ∀ p, p < npages → L.Allocatable p → s.used L p = true) := by
  unfold State.kalloc at hkalloc
  split at hkalloc
  · rename_i hsz
    cases hkalloc
    exact ⟨⟨supply, h⟩, by simp, fun _ hle => absurd hsz (Nat.not_lt.2 hle)⟩
  · -- the rounds before the last one leave `pages` as it is
    have hloop := Loop.run_invariant (State.kallocRound L)
      (fun t => (∃ supply, Refines L start t supply) ∧ ∀ p, p < npages → t.used L p = s.used L p)
      (fun r => (∃ supply, Refines L start r.1 supply) ∧
        (∀ pa, r.2 = some pa → s.used L (pa / pagesize) = false) ∧
        (r.2 = none → ∀ p, p < npages → L.Allocatable p → s.used L p = true)) ?_ ?_
      ⟨⟨supply, h⟩, fun _ _ => rfl⟩ hkalloc
    · exact ⟨hloop.1, hloop.2.1, fun hr _ => hloop.2.2 hr⟩
    · rintro t t' ⟨⟨supply', ht⟩, hsame⟩ hround
      rcases ht.kallocRound_cases with ⟨t₁, hround', ht₁, hused⟩ | ⟨t₁, hround', -⟩ | ⟨hround', -⟩
      · rw [hround] at hround'
        cases hround'
        exact ⟨⟨_, ht₁⟩, fun p hp => (hused p hp).trans (hsame p hp)⟩
      · rw [hround] at hround'
        cases hround'
      · rw [hround] at hround'
        cases hround'
    · rintro t r ⟨⟨supply', ht⟩, hsame⟩ hround
      rcases ht.kallocRound_cases with ⟨t₁, hround', -⟩ | ⟨t₁, hround', hok, hfree, ht₁⟩ | ⟨hround', hend⟩
      · rw [hround] at hround'
        cases hround'
      · rw [hround] at hround'
        cases hround'
        refine ⟨⟨_, ht₁⟩, fun pa hpa => ?_, fun hnone => by cases hnone⟩
        cases hpa
        have hlt : supply'.cursor < npages := ht₁.cursor_le
        rw [Nat.mul_div_cancel _ (by decide), ← hsame _ hlt]
        exact hfree
      · rw [hround] at hround'
        cases hround'
        refine ⟨⟨_, ht⟩, fun pa hpa => (by cases hpa), fun _ p hp hok => ?_⟩
        rw [← hsame p hp]
        exact ((ht.used_iff p).1 (ht.runs.swept hswept p (hend ▸ hp) hok)).2

end Refines

/-! ### Programs and system calls -/

/-- A segment within physical memory that is loaded outside the kernel image. -/
def Segment.Clear (L : Layout) (seg : Segment) : Prop :=
  seg.va + seg.size ≤ memsizePhysical ∧ L.Avoids seg.va seg.size ∧ L.Avoids seg.va seg.data.length

/-- The call writes no page contents over the kernel image, and names pages of physical memory only. -/
def Call.Clear (L : Layout) : Call → Prop
  | .processSetup pid program =>
    procStartAddr + procSize * pid ≤ memsizePhysical ∧ ∀ seg ∈ program.segments, seg.Clear L
  | .kalloc _ => True
  | .pageAlloc addr => addr < memsizePhysical ∧ L.Avoids addr pagesize

lemma page_lt {a : Nat} (h : a < memsizePhysical) : a / pagesize < npages := by
  rw [npages_eq]
  unfold memsizePhysical at h
  unfold pagesize
  omega

lemma claimRound_next {seg : Segment} {a : Nat} {r : State × Nat} (h : State.claimRound L seg (s, a) = .next r) :
    a < (seg.va + seg.size) % 2 ^ 64 ∧ s.used L (a / pagesize) = false ∧
      r = ((s.claim L (a / pagesize)).event (.claimed (a / pagesize)), (a + pagesize) % 2 ^ 64) := by
  unfold State.claimRound at h
  dsimp only at h
  split at h
  · rename_i ha
    split at h
    · cases h
    · rename_i hfree
      cases h
      exact ⟨ha, by simpa using hfree, rfl⟩
  · cases h

lemma claimRound_done {seg : Segment} {a : Nat} (h : State.claimRound L seg (s, a) = .done (some s')) :
    (seg.va + seg.size) % 2 ^ 64 ≤ a ∧ s' = s := by
  unfold State.claimRound at h
  dsimp only at h
  split at h
  · split at h
    · cases h
    · cases h
  · rename_i ha
    cases h
    exact ⟨Nat.le_of_not_lt ha, rfl⟩

namespace Refines

variable {start supply : ScanAlloc.Supply}

lemma claimSegment {fuel : Nat} {seg : Segment} (hseg : seg.Clear L) (h : Refines L start s supply)
    (hclaim : s.claimSegment L fuel seg = some s') : ∃ supply', Refines L start s' supply' := by
  unfold State.claimSegment at hclaim
  rw [Option.join_eq_some_iff] at hclaim
  refine Loop.run_invariant (State.claimRound L seg) (fun t => ∃ supply, Refines L start t.1 supply)
    (fun r => ∀ t, r = some t → ∃ supply, Refines L start t supply) ?_ ?_ ⟨supply, h⟩ hclaim s' rfl
  · rintro ⟨t, a⟩ t' ⟨supply', ht⟩ hround
    obtain ⟨ha, hfree, rfl⟩ := claimRound_next hround
    refine ⟨_, ht.claim (page_lt ?_) hfree⟩
    exact Nat.lt_of_lt_of_le (Nat.lt_of_lt_of_le ha (Nat.mod_le _ _)) hseg.1
  · rintro ⟨t, a⟩ r ⟨supply', ht⟩ hround t' rfl
    obtain ⟨-, rfl⟩ := claimRound_done hround
    exact ⟨supply', ht⟩

lemma claimSegments {fuel : Nat} {segments : List Segment} (hsegs : ∀ seg ∈ segments, seg.Clear L)
    (h : Refines L start s supply) (hclaim : segments.foldlM (State.claimSegment L fuel) s = some s') :
    ∃ supply', Refines L start s' supply' := by
  induction segments generalizing s supply with
  | nil =>
    cases hclaim
    exact ⟨supply, h⟩
  | cons seg segments ih =>
    rw [List.foldlM_cons, Option.bind_eq_bind, Option.bind_eq_some_iff] at hclaim
    obtain ⟨s₁, hfirst, hrest⟩ := hclaim
    obtain ⟨supply₁, h₁⟩ := h.claimSegment (hsegs seg List.mem_cons_self) hfirst
    exact ih (fun seg' hmem => hsegs seg' (List.mem_cons_of_mem _ hmem)) h₁ hrest

lemma loadSegments {segments : List Segment} (hsegs : ∀ seg ∈ segments, seg.Clear L)
    (h : Refines L start s supply) : Refines L start (segments.foldl State.loadSegment s) supply := by
  induction segments generalizing s with
  | nil => exact h
  | cons seg segments ih =>
    obtain ⟨-, hzero, hdata⟩ := hsegs seg List.mem_cons_self
    apply ih (fun seg' hmem => hsegs seg' (List.mem_cons_of_mem _ hmem))
    exact (h.sameImage (s.sameImage_memset 0 hzero) rfl).sameImage (State.sameImage_memcpy _ hdata) rfl

lemma step {fuel : Nat} {call : Call} (hswept : ScanAlloc.Swept L.Allocatable start)
    (hclear : call.Clear L) (h : Refines L start s supply) (hstep : s.step L fuel call = some s') :
    ∃ supply', Refines L start s' supply' := by
  cases call with
  | processSetup pid program =>
    simp only [State.step, State.processSetup] at hstep
    split at hstep
    · cases hstep
    · rename_i s₁ hclaimed
      split at hstep
      · cases hstep
      · rename_i hfree
        cases hstep
        obtain ⟨supply₁, h₁⟩ := h.claimSegments hclear.2 hclaimed
        have hloaded := h₁.loadSegments hclear.2
        have hstack : procStartAddr + procSize * pid - pagesize < memsizePhysical := by
          have hpid := hclear.1
          unfold procStartAddr procSize pagesize memsizePhysical at *
          omega
        have hclaim := hloaded.claim (page_lt hstack) (by simpa using hfree)
        exact ⟨_, hclaim.sameImage (fun _ _ _ => rfl) rfl⟩
  | kalloc sz =>
    simp only [State.step, Option.map_eq_some_iff] at hstep
    obtain ⟨⟨s₁, r⟩, hkalloc, rfl⟩ := hstep
    exact (h.kalloc_spec hswept hkalloc).1
  | pageAlloc addr =>
    simp only [State.step, State.syscallPageAlloc] at hstep
    split at hstep
    · cases hstep
    · rename_i hfree
      cases hstep
      have hclaim := h.claim (page_lt hclear.1) (by simpa using hfree)
      exact ⟨_, hclaim.sameImage (State.sameImage_memset _ 0 hclear.2) rfl⟩

lemma run {fuel : Nat} {calls : List Call} (hswept : ScanAlloc.Swept L.Allocatable start)
    (hclear : ∀ call ∈ calls, call.Clear L) (h : Refines L start s supply)
    (hrun : s.run L fuel calls = some s') : ∃ supply', Refines L start s' supply' := by
  induction calls generalizing s supply with
  | nil =>
    cases hrun
    exact ⟨supply, h⟩
  | cons call calls ih =>
    rw [State.run] at hrun
    split at hrun
    · cases hrun
    · rename_i s₁ hstep
      obtain ⟨supply₁, h₁⟩ := h.step hswept (hclear call List.mem_cons_self) hstep
      exact ih (fun call' hmem => hclear call' (List.mem_cons_of_mem _ hmem)) h₁ hrun

end Refines

/-! ### Reachable states -/

/-- `kalloc` always returns: its loop passes each page once. -/
theorem kalloc_total (L : Layout) (s : State) (sz : Nat) {fuel : Nat} (hfuel : npages < fuel) :
    ∃ r, s.kalloc L fuel sz = some r := by
  unfold State.kalloc
  split
  · exact ⟨_, rfl⟩
  · have htotal := Loop.run_total (State.kallocRound L) (fun _ => True) (fun _ => True)
      (fun t => (memsizePhysical - t.nextAllocPa L + 4095) / 4096) ?_ (fun _ _ _ _ => trivial)
      (n := fuel) (s := s) trivial ?_
    · obtain ⟨r, hr, -⟩ := htotal
      exact ⟨r, hr⟩
    · intro t t' _ hround
      unfold State.kallocRound at hround
      dsimp only at hround
      split at hround
      · rename_i hlt
        split at hround
        · cases hround
        · cases hround
          refine ⟨trivial, ?_⟩
          rw [t.nextAllocPa_setNextAllocPa (Nat.mod_lt _ (by norm_num))]
          unfold memsizePhysical pagesize at *
          omega
      · cases hround
    · rw [npages_eq] at hfuel
      unfold memsizePhysical
      omega

/-- What holds of the pages that have been given out, and of the next `kalloc`. -/
structure Exclusive (L : Layout) (s : State) : Prop where
  allocatable : ∀ pa, .returned pa ∈ s.log → allocatablePhysicalAddress L pa = true ∧ pa % pagesize = 0
  inUse : ∀ e ∈ s.log, s.used L e.page = true
  once : (s.log.map Event.page).Nodup
  unused : ∀ fuel sz s' pa, s.kalloc L fuel sz = some (s', some pa) → s.used L (pa / pagesize) = false
  full : ∀ fuel sz s', s.kalloc L fuel sz = some (s', none) → sz ≤ pagesize →
    ∀ pa, allocatablePhysicalAddress L pa = true → s.used L (pa / pagesize) = true

lemma Refines.exclusive {start supply : ScanAlloc.Supply} (hswept : ScanAlloc.Swept L.Allocatable start)
    (h : Refines L start s supply) : Exclusive L s := by
  have hunits : (s.log.map Event.toScan).map ScanAlloc.Event.unit = s.log.map Event.page := by
    rw [List.map_map]
    exact List.map_congr_left fun e _ => e.unit_toScan
  constructor
  · intro pa hpa
    have hok := h.runs.alloc_ok (List.mem_map.2 ⟨_, hpa, rfl⟩)
    have haligned := h.aligned pa hpa
    unfold Layout.Allocatable at hok
    rw [Nat.div_mul_cancel (Nat.dvd_of_mod_eq_zero haligned)] at hok
    exact ⟨hok, haligned⟩
  · intro e he
    have hused := (h.runs.unit_spec (List.mem_map.2 ⟨e, he, rfl⟩)).2
    rw [e.unit_toScan, h.used_iff] at hused
    exact hused.2
  · rw [← hunits]
    exact h.runs.nodup
  · intro fuel sz s' pa hkalloc
    exact (h.kalloc_spec hswept hkalloc).2.1 pa rfl
  · intro fuel sz s' hkalloc hsz pa hpa
    obtain ⟨hlt, hok⟩ := allocatable_page hpa
    exact (h.kalloc_spec hswept hkalloc).2.2 rfl hsz _ hlt hok

/-- The kernel's zero-initialized data: no page is used, and `kalloc` starts at address 0. -/
structure Boot (L : Layout) (s : State) : Prop where
  unused : ∀ p, p < npages → s.used L p = false
  cursor : s.nextAllocPa L = 0
  log : s.log = []

/-- In every state reached without a write to the kernel image, no page has been given out twice, and
`kalloc` fails only when nothing is left. -/
theorem pages_exclusive (L : Layout) (fuel : Nat) (hboot : Boot L s) (calls : List Call)
    (hclear : ∀ call ∈ calls, call.Clear L) (hrun : s.run L fuel calls = some s') : Exclusive L s' := by
  have hswept : ScanAlloc.Swept L.Allocatable ⟨fun _ => False, 0⟩ :=
    fun q hq _ => absurd hq (Nat.not_lt_zero q)
  have hstart : Refines L ⟨fun _ => False, 0⟩ s ⟨fun _ => False, 0⟩ := by
    constructor
    · rw [hboot.log]
      exact .refl
    · intro p
      constructor
      · exact False.elim
      · rintro ⟨hp, hused⟩
        rw [hboot.unused p hp] at hused
        cases hused
    · rw [hboot.cursor, Nat.zero_mul]
    · exact Nat.zero_le _
    · rw [hboot.log]
      simp
  obtain ⟨supply, hsupply⟩ := hstart.run hswept hclear hrun
  exact hsupply.exclusive hswept

/-- A kernel of 72 KiB that ends with its bookkeeping. -/
def sampleLayout : Layout where
  kernelEnd := 0x52000
  pages := 0x51000
  nextAllocPa := 0x51200
  kernelEnd_le := by decide
  le_pages := by decide
  pages_le := by decide
  le_nextAllocPa := by decide
  nextAllocPa_le := by decide
  disjoint := by decide

def sampleState : State where
  mem _ := 0
  ptable _ := ⟨false, 0, 0⟩
  log := []

def sampleProgram : Program := ⟨[⟨0x100000, 0x1200, [0x90, 0xC3]⟩], 0x100000⟩

def sampleCalls : List Call := [.processSetup 1 sampleProgram, .kalloc 100, .pageAlloc 0x102000]

lemma sampleState_boot : Boot sampleLayout sampleState := by
  constructor
  · exact fun _ _ => rfl
  · rfl
  · rfl

theorem pages_exclusive_sample : ∃ s,
    sampleState.run sampleLayout 8 sampleCalls = some s ∧ Exclusive sampleLayout s := by
  refine ⟨_, rfl, pages_exclusive sampleLayout 8 sampleState_boot sampleCalls ?_ rfl⟩
  simp [sampleCalls, Call.Clear, Segment.Clear, Layout.Avoids, sampleProgram, sampleLayout, procStartAddr, procSize,
    memsizePhysical, kernelStartAddr, pagesize]

/-- A process asks for the page that holds `pages`. The page is not used, so it is claimed and cleared, and
`kalloc` starts again from address 0. -/
theorem kalloc_returns_page_twice : ∃ s,
    sampleState.run sampleLayout 8 [.processSetup 1 sampleProgram, .kalloc 100, .pageAlloc 0x51000,
      .kalloc 100] = some s ∧ 0x51000 < memsizePhysical ∧
      s.log = [.claimed 0x100, .claimed 0x101, .claimed 0x13F, .returned 0x1000, .claimed 0x51,
        .returned 0x1000] ∧ ¬ Exclusive sampleLayout s := by
  refine ⟨_, rfl, by decide, rfl, ?_⟩
  intro h
  exact absurd h.once (by decide)

end Cs300Projects.WeensyOS.Kernel
