import Cs300Projects.WeensyOS.VmiterWalk

/-!
# The architectural page walk

The 4-level walk of the processor manuals, written on physical addresses and bit fields of the
entries, and the agreement of `vmiter` with it. The walk ends at a page table entry, at a
large page, or at an entry that is not present.
-/

namespace Cs300Projects.WeensyOS
open BitField

/-- Bits 63 to 47 of the address are equal. -/
def MmuCanonical (va : Word) : Prop :=
  va.extractLsb' 47 17 = 0#17 ∨ va.extractLsb' 47 17 = BitVec.allOnes 17

instance (va : Word) : Decidable (MmuCanonical va) := inferInstanceAs (Decidable (_ ∨ _))

/-- The entry that the walk of `va` reads at level `level` in the table at `table`. -/
def mmuEntry (m : Memory) (va : Word) (level table : Nat) : Word :=
  m.word (BitVec.ofNat 64 (table + 8 * (va.extractLsb' (12 + level * 9) 9).toNat))

/-- The address in the bits of `e` above the offset into a page of level `level`. -/
def mmuFrame (e : Word) (level : Nat) : Nat :=
  (e.extractLsb' (12 + level * 9) (40 - level * 9)).toNat * pageSpan level

/-- The entries read by the walk of `va` from the table at `table` down. -/
def mmuEntries (m : Memory) (va : Word) : Nat → Nat → List Word
  | 0, table => [mmuEntry m va 0 table]
  | level + 1, table =>
    let e := mmuEntry m va (level + 1) table
    if e.getLsbD 0 && !e.getLsbD 7 then e :: mmuEntries m va level (mmuFrame e 0) else [e]

/-- The physical address of `va` under the table at `table`, when the walk ends at a page. -/
def mmuWalk (m : Memory) (va : Word) : Nat → Nat → Option Word
  | 0, table =>
    let e := mmuEntry m va 0 table
    if e.getLsbD 0 then some (BitVec.ofNat 64 (mmuFrame e 0 + va.toNat % pageSpan 0)) else none
  | level + 1, table =>
    let e := mmuEntry m va (level + 1) table
    if !e.getLsbD 0 then none
    else if e.getLsbD 7 then
      some (BitVec.ofNat 64 (mmuFrame e (level + 1) + va.toNat % pageSpan (level + 1)))
    else mmuWalk m va level (mmuFrame e 0)

/-- The translation given by the entry `e` that ends a walk at level `level`. -/
def mmuLeaf (e : Word) (level : Nat) (va : Word) : Option Word :=
  if e.getLsbD 0 then some (BitVec.ofNat 64 (mmuFrame e level + va.toNat % pageSpan level)) else none

/-- The translation of `va` under the page table with root `pt`. -/
def mmuTranslate (m : Memory) (pt : PagePtr) (va : Word) : Option Word :=
  if MmuCanonical va then mmuWalk m va 3 pt.addr.toNat else none

/-- Reserved bits are zero and address fields are below 4 GiB, in every table of `pt`. -/
structure WellFormedTable (m : Memory) (pt : PagePtr) : Prop where
  noTopPs : ∀ i : Fin 512, (m.word (pt.entry i)).getLsbD 0 = true → (m.word (pt.entry i)).getLsbD 7 = false
  largeAligned : ∀ p t (i : Fin 512), 1 ≤ p.length → p.length ≤ 2 → tableAt m pt p = some t →
    (m.word (t.entry i)).getLsbD 0 = true → (m.word (t.entry i)).getLsbD 7 = true →
    (m.word (t.entry i)).extractLsb' 13 ((3 - p.length) * 9 - 1) = 0#_
  addressLow : ∀ p t (i : Fin 512), p.length ≤ 3 → tableAt m pt p = some t →
    (m.word (t.entry i) &&& ptePamask).toNat < 2 ^ 32

/-! ### Fields of an entry -/

lemma mmuCanonical_iff (va : Word) : MmuCanonical va ↔ vaIsCanonical va = true := by
  rw [MmuCanonical, vaIsCanonical_iff, ← BitVec.toNat_inj, ← BitVec.toNat_inj]
  simp only [BitVec.extractLsb'_toNat, Nat.shiftRight_eq_div_pow, BitVec.toNat_ofNat,
    BitVec.toNat_allOnes]
  have := va.isLt
  omega

lemma mmuEntry_eq (m : Memory) (va : Word) (level : Nat) (t : PagePtr) :
    mmuEntry m va level t.addr.toNat = m.word (t.entry (pageindex va level)) := by
  rw [mmuEntry, PagePtr.entry, pageindex_eq, BitVec.extractLsb'_toNat, Nat.shiftRight_eq_div_pow]
  congr 1
  apply BitVec.eq_of_toNat_eq
  simp [BitVec.toNat_add, BitVec.toNat_mul, pageSpan]

lemma mmuFrame_zero (e : Word) : mmuFrame e 0 = (tableOf e).addr.toNat := by
  rw [mmuFrame, tableOf, toNat_and_ptePamask, BitVec.extractLsb'_toNat, Nat.shiftRight_eq_div_pow]
  simp only [pageSpan]
  omega

lemma and_pteP_ne_zero_iff (e : Word) : e &&& pteP ≠ 0#64 ↔ e.getLsbD 0 = true := by
  rw [and_ne_zero_iff]
  constructor
  · rintro ⟨i, hi, he⟩
    rw [getLsbD_pteP, decide_eq_true_eq] at hi
    exact hi ▸ he
  · intro he
    exact ⟨0, by rw [getLsbD_pteP]; rfl, he⟩

lemma isTable_eq (e : Word) : decide (IsTable e) = (e.getLsbD 0 && !e.getLsbD 7) := by
  rw [Bool.eq_iff_iff, decide_eq_true_iff, isTable_iff]
  simp

lemma getLsbD_signExtend_perm (perm : BitVec 32) {i : Nat} (hi : i < 32) :
    (perm.signExtend 64).getLsbD i = perm.getLsbD i := by
  rw [BitVec.getLsbD_signExtend, if_pos hi, decide_eq_true (show i < 64 by omega), Bool.true_and]

lemma getLsbD_andPerm (perm : BitVec 32) (e : Word) {i : Nat} (hi : i < 32) :
    (andPerm perm e).getLsbD i = (perm.getLsbD i && e.getLsbD i) := by
  rw [andPerm, BitVec.getLsbD_setWidth, BitVec.getLsbD_and, getLsbD_signExtend_perm perm hi,
    decide_eq_true hi, Bool.true_and]

lemma getLsbD_initialPerm {i : Nat} (hi : i < 12) : initialPerm.getLsbD i = true := by
  rw [show initialPerm = lowMask 32 12 by rfl, getLsbD_lowMask (by norm_num), decide_eq_true hi]

/-- The entries above a slot of a canonical address are present. -/
lemma Slot.perm_present {m : Memory} {pt : PagePtr} {va : Word} {l : Nat} {r : EntryPtr}
    {perm : BitVec 32} (h : Slot m pt va l r perm) (hc : vaIsCanonical va = true) :
    perm.getLsbD 0 = true := by
  induction h with
  | top => rw [topPerm, if_pos hc, getLsbD_initialPerm (by norm_num)]
  | down h ht ih => rw [getLsbD_andPerm _ _ (by norm_num), ih, ((isTable_iff _).1 ht).1, Bool.true_and]

/-- A large page's base, without the PAT bit in bit 12, is what the processor takes as frame. -/
lemma large_base_eq (e : Word) {level : Nat} (h1 : 1 ≤ level) (h2 : level ≤ 2)
    (hres : e.extractLsb' 13 (level * 9 - 1) = 0#_) :
    (e &&& ptePamask &&& ~~~0x1000#64).toNat = mmuFrame e level := by
  have hmask : ptePamask &&& ~~~0x1000#64 = lowMask 64 52 &&& ~~~lowMask 64 13 := by decide
  have hres' := congrArg BitVec.toNat hres
  rw [BitVec.and_assoc, hmask, ← BitVec.and_assoc, toNat_and_not_lowMask (by norm_num),
    toNat_and_lowMask (by norm_num), mmuFrame, BitVec.extractLsb'_toNat, Nat.shiftRight_eq_div_pow]
  rw [BitVec.extractLsb'_toNat, Nat.shiftRight_eq_div_pow] at hres'
  interval_cases level <;> simp only [pageSpan, BitVec.toNat_ofNat] at * <;> omega

namespace Vmiter

/-! ### The walk of the iterator and the walk of the processor -/

section Agreement

variable {m : Memory} {pt : PagePtr}

/-- A flag is set in the accumulated mask and in the last entry iff it is set in every entry. -/
lemma descend_flag {i : Nat} (hi : i < 32) (l : Nat) (t : PagePtr) (it : Vmiter)
    (hpep : it.pep_ = .entry (t.entry (pageindex it.va_ l))) :
    ((descend m l it).perm_.getLsbD i && (m.read (descend m l it).pep_).getLsbD i) =
      (it.perm_.getLsbD i && (mmuEntries m it.va_ l t.addr.toNat).all (fun e => e.getLsbD i)) := by
  induction l generalizing t it with
  | zero =>
    rw [descend, mmuEntries, mmuEntry_eq, hpep]
    simp
  | succ l ih =>
    rw [descend, mmuEntries, mmuEntry_eq]
    by_cases ht : IsTable (m.read it.pep_)
    · have hcond := isTable_eq (m.read it.pep_)
      rw [decide_eq_true ht, hpep, Memory.read_entry] at hcond
      rw [if_pos ht, ih (tableOf (m.read it.pep_)) _ rfl]
      simp only [← hcond, if_true, List.all_cons, getLsbD_andPerm _ _ hi, ← mmuFrame_zero, hpep,
        Memory.read_entry, Bool.and_assoc]
    · have hcond := isTable_eq (m.read it.pep_)
      rw [decide_eq_false ht, hpep, Memory.read_entry] at hcond
      rw [if_neg ht]
      simp only [← hcond, Bool.false_eq_true, if_false, List.all_cons, List.all_nil, Bool.and_true,
        hpep, Memory.read_entry]

/-- The physical address reported at a present entry that ends the walk at level `l`. -/
lemma toNat_pa {it : Vmiter} (hlevel : it.level_ ≤ 2) (hP : (m.read it.pep_).getLsbD 0 = true)
    (hbase : (if 0 < it.level_ then m.read it.pep_ &&& ptePamask &&& ~~~0x1000#64
      else m.read it.pep_ &&& ptePamask).toNat = mmuFrame (m.read it.pep_) it.level_) :
    it.pa m = BitVec.ofNat 64
      (mmuFrame (m.read it.pep_) it.level_ + it.va_.toNat % pageSpan it.level_) := by
  apply BitVec.eq_of_toNat_eq
  rw [pa, if_pos ((and_pteP_ne_zero_iff _).2 hP), BitVec.toNat_add, hbase,
    toNat_and_pageoffmask (by omega), BitVec.toNat_ofNat]

lemma pa_of_not_present {it : Vmiter} (hP : (m.read it.pep_).getLsbD 0 = false) :
    it.pa m = -1#64 := by
  rw [pa, if_neg]
  rw [and_pteP_ne_zero_iff, hP]
  exact Bool.false_ne_true

lemma present_eq (it : Vmiter) : it.present m = (m.read it.pep_).getLsbD 0 := by
  rw [present, Bool.eq_iff_iff, decide_eq_true_iff, and_pteP_ne_zero_iff]

/-- The processor's walk ends at the entry where the iterator's walk ends. -/
lemma mmuWalk_eq_descend (l : Nat) (t : PagePtr) (it : Vmiter) (hlevel : it.level_ = l)
    (hpep : it.pep_ = .entry (t.entry (pageindex it.va_ l))) : mmuWalk m it.va_ l t.addr.toNat =
      mmuLeaf (m.read (descend m l it).pep_) (descend m l it).level_ it.va_ := by
  induction l generalizing t it with
  | zero =>
    rw [descend, mmuWalk, mmuEntry_eq, hpep, hlevel]
    rfl
  | succ l ih =>
    have hread : m.read it.pep_ = m.word (t.entry (pageindex it.va_ (l + 1))) := by rw [hpep]; rfl
    rw [descend, mmuWalk, mmuEntry_eq, ← hread]
    by_cases ht : IsTable (m.read it.pep_)
    · obtain ⟨hP, hPS⟩ := (isTable_iff _).1 ht
      rw [if_pos ht]
      simp only [hP, hPS, Bool.not_true, Bool.false_eq_true, if_false, mmuFrame_zero]
      exact ih (tableOf (m.read it.pep_))
        { it with
          perm_ := andPerm it.perm_ (m.read it.pep_)
          level_ := l
          pep_ := .entry ((tableOf (m.read it.pep_)).entry (pageindex it.va_ l)) } rfl rfl
    · rw [if_neg ht, mmuLeaf, hlevel]
      rw [isTable_iff, not_and, Bool.not_eq_false] at ht
      cases hP : (m.read it.pep_).getLsbD 0
      · rfl
      · rw [ht hP]
        rfl

lemma walked_eq_descend {va : Word} (hc : vaIsCanonical va = true) :
    walked m pt va = descend m 3 ⟨pt, .entry (pt.entry (pageindex va 3)), 3, initialPerm, va⟩ := by
  rw [walked, topEntry, topPerm, if_pos hc, if_pos hc]

lemma Settled.mmuTranslate_eq {it : Vmiter} (h : it.Settled m) : mmuTranslate m it.pt_ it.va_ =
    if vaIsCanonical it.va_ then mmuLeaf (m.read it.pep_) it.level_ it.va_ else none := by
  simp only [mmuTranslate, mmuCanonical_iff]
  cases hc : vaIsCanonical it.va_
  · rfl
  · have hw := mmuWalk_eq_descend (m := m) 3 it.pt_
      ⟨it.pt_, .entry (it.pt_.entry (pageindex it.va_ 3)), 3, initialPerm, it.va_⟩ rfl rfl
    rw [← walked_eq_descend hc, ← h.eq_walked] at hw
    exact hw

/-- Where the walk of a canonical address ends, `pa()` and `present()` give the translation. -/
lemma Settled.pa_eq (hwf : WellFormedTable m pt) {it : Vmiter} (h : it.Settled m) (hpt : it.pt_ = pt)
    (hc : vaIsCanonical it.va_ = true) :
    it.pa m = (mmuLeaf (m.read it.pep_) it.level_ it.va_).getD (-1#64) ∧
      it.present m = (mmuLeaf (m.read it.pep_) it.level_ it.va_).isSome := by
  have hwalk := h.onWalk
  rw [OnWalk, hpt] at hwalk
  have hlevel := hwalk.level_le
  obtain ⟨t, hpath, hpep⟩ := hwalk.tableAt hc
  have hlen : (vaPath it.va_ it.level_).length = 3 - it.level_ := length_vaPath _ _
  rw [present_eq, mmuLeaf]
  cases hP : (m.read it.pep_).getLsbD 0
  · exact ⟨pa_of_not_present hP, rfl⟩
  · refine ⟨?_, rfl⟩
    have hread : m.word (t.entry (vaIndex it.va_ it.level_)) = m.read it.pep_ := by rw [hpep]; rfl
    rcases Nat.eq_zero_or_pos it.level_ with hzero | hpos
    · rw [toNat_pa (by omega) hP]
      · rfl
      · rw [hzero, if_neg (by omega), mmuFrame_zero]
        rfl
    · -- a large page, which the top level does not have
      have hPS : (m.read it.pep_).getLsbD 7 = true := by
        have := h.last hpos
        rw [isTable_iff, not_and, Bool.not_eq_false] at this
        exact this hP
      have hl2 : it.level_ ≤ 2 := by
        by_contra hl2
        have hl3 : it.level_ = 3 := by omega
        rw [hl3, vaPath_three, tableAt, Option.some.injEq] at hpath
        subst hpath
        have := hwf.noTopPs (vaIndex it.va_ it.level_) (by rw [hread, hP])
        rw [hread, hPS] at this
        exact Bool.noConfusion this
      have hres := hwf.largeAligned _ t (vaIndex it.va_ it.level_) (by omega) (by omega) hpath
        (by rw [hread, hP]) (by rw [hread, hPS])
      rw [hread, hlen, show 3 - (3 - it.level_) = it.level_ by omega] at hres
      rw [toNat_pa hl2 hP]
      · rfl
      · rw [if_pos hpos]
        exact large_base_eq _ (by omega) hl2 hres

lemma hasPerm_iff {p : Word} (hp : ∀ i, p.getLsbD i = true → i < 32) (it : Vmiter) :
    it.hasPerm m p = true ↔
      ∀ i, p.getLsbD i = true → (it.perm_.getLsbD i && (m.read it.pep_).getLsbD i) = true := by
  rw [hasPerm, decide_eq_true_iff, and_eq_right_iff]
  constructor
  · intro h i hi
    have hbit := h i hi
    rw [BitVec.getLsbD_and, getLsbD_signExtend_perm _ (hp i hi)] at hbit
    rw [Bool.and_comm]
    exact hbit
  · intro h i hi
    rw [BitVec.getLsbD_and, getLsbD_signExtend_perm _ (hp i hi), Bool.and_comm]
    exact h i hi

/-- At a canonical address `perm(p)` asks for the flags `p` in every entry of the walk. -/
lemma walked_hasPerm_iff {va p : Word} (hc : vaIsCanonical va = true)
    (hp : ∀ i, p.getLsbD i = true → i < 12) : (walked m pt va).hasPerm m p = true ↔
      ∀ e ∈ mmuEntries m va 3 pt.addr.toNat, ∀ i, p.getLsbD i = true → e.getLsbD i = true := by
  rw [hasPerm_iff (fun i hi => by have := hp i hi; omega), walked_eq_descend hc]
  constructor
  · intro h e he i hi
    have hflag := h i hi
    rw [descend_flag (by have := hp i hi; omega) 3 pt _ rfl, Bool.and_eq_true] at hflag
    exact List.all_eq_true.1 hflag.2 e he
  · intro h i hi
    rw [descend_flag (by have := hp i hi; omega) 3 pt _ rfl, getLsbD_initialPerm (hp i hi), Bool.true_and,
      List.all_eq_true]
    exact fun e he => h e he i hi

end Agreement

end Vmiter

/-- A canonical address is present iff every entry of its walk is. -/
lemma Vmiter.walked_present_iff {m : Memory} {pt : PagePtr} {va : Word} (hc : vaIsCanonical va = true) :
    (walked m pt va).present m = true ↔
      ∀ e ∈ mmuEntries m va 3 pt.addr.toNat, e.getLsbD 0 = true := by
  have hw := (walked_settled m pt va).onWalk
  rw [OnWalk, walked_pt, walked_va] at hw
  have hflag := descend_flag (m := m) (i := 0) (by norm_num) 3 pt
    ⟨pt, .entry (pt.entry (pageindex va 3)), 3, initialPerm, va⟩ rfl
  rw [← walked_eq_descend hc, hw.perm_present hc, getLsbD_initialPerm (by norm_num), Bool.true_and,
    Bool.true_and] at hflag
  rw [present_eq, hflag, List.all_eq_true]

lemma getLsbD_pteP_or_pteW (i : Nat) :
    (pteP ||| pteW).getLsbD i = (decide (i = 0) || decide (i = 1)) := by
  change (3#64).getLsbD i = _
  rw [BitVec.getLsbD_ofNat]
  rcases i with _ | _ | i <;> simp [Nat.testBit_succ]

lemma getLsbD_pteP_or_pteU (i : Nat) :
    (pteP ||| pteU).getLsbD i = (decide (i = 0) || decide (i = 2)) := by
  change (5#64).getLsbD i = _
  rw [BitVec.getLsbD_ofNat]
  rcases i with _ | _ | _ | i <;> simp [Nat.testBit_succ]

lemma getLsbD_pwu {i : Nat} (hi : i < 64) : (pteP ||| pteW ||| pteU).getLsbD i = decide (i < 3) := by
  change (7#64).getLsbD i = _
  rw [BitVec.getLsbD_ofNat]
  rcases i with _ | _ | _ | i
  · rfl
  · rfl
  · rfl
  · simp [Nat.testBit_succ]

lemma Vmiter.walked_of_not_canonical {m : Memory} {pt : PagePtr} (hz : m.zeroPe = 0#64) {va : Word}
    (hc : vaIsCanonical va = false) : walked m pt va = ⟨pt, .zeroPe, 3, 0#32, va⟩ := by
  rw [walked, topEntry, topPerm, hc]
  simp [descend, hz]

/-- The last entry of a walk in a well-formed table has a low address field, so that the walk
does not panic. -/
lemma new_eq_ok {m : Memory} {pt : PagePtr} (hz : m.zeroPe = 0#64) (hwf : WellFormedTable m pt)
    (va : Word) : Vmiter.new m pt va = .ok (Vmiter.walked m pt va) := by
  rw [Vmiter.new_eq, Vmiter.check_eq_ok]
  refine ⟨?_, rfl⟩
  have hw := (Vmiter.walked_settled m pt va).onWalk
  rw [Vmiter.OnWalk, Vmiter.walked_pt, Vmiter.walked_va] at hw
  rw [BitVec.le_def, BitVec.toNat_ofNat, not_le]
  cases hc : vaIsCanonical va
  · rw [Vmiter.walked_of_not_canonical hz hc, Memory.read_zeroPe, hz]
    decide
  · obtain ⟨t, hpath, hpep⟩ := hw.tableAt hc
    rw [hpep]
    exact hwf.addressLow _ t (vaIndex va _) (by rw [length_vaPath]; omega) hpath

/-- A `vmiter` positioned at `va`, from a root or from anywhere else, agrees with the
architectural walk of `va`. -/
theorem vmiter_agrees_with_mmu (m : Memory) (pt : PagePtr) (hz : m.zeroPe = 0#64)
    (hwf : WellFormedTable m pt) (va : Word) : ∃ it, Vmiter.new m pt va = .ok it ∧
      (∀ va₀, (Vmiter.new m pt va₀ >>= Vmiter.find m va) = .ok it) ∧
      (it.present m = true ↔ MmuCanonical va ∧
        ∀ e ∈ mmuEntries m va 3 pt.addr.toNat, e.getLsbD 0 = true) ∧
      (it.present m = (mmuTranslate m pt va).isSome) ∧
      it.pa m = (mmuTranslate m pt va).getD (-1#64) ∧
      (it.writable m = true ↔ MmuCanonical va ∧
        ∀ e ∈ mmuEntries m va 3 pt.addr.toNat, e.getLsbD 0 = true ∧ e.getLsbD 1 = true) ∧
      (it.user m = true ↔ MmuCanonical va ∧
        ∀ e ∈ mmuEntries m va 3 pt.addr.toNat, e.getLsbD 0 = true ∧ e.getLsbD 2 = true) := by
  refine ⟨Vmiter.walked m pt va, new_eq_ok hz hwf va, fun va₀ => ?_, ?_⟩
  · rw [new_eq_ok hz hwf va₀]
    change (Vmiter.walked m pt va₀).realFind m va = _
    rw [Vmiter.realFind_eq_new (Vmiter.walked_settled m pt va₀), Vmiter.walked_pt, new_eq_ok hz hwf va]
  · simp only [mmuTranslate, mmuCanonical_iff]
    cases hc : vaIsCanonical va
    · rw [Vmiter.walked_of_not_canonical hz hc]
      simp [Vmiter.present, Vmiter.pa, Vmiter.writable, Vmiter.user, Vmiter.hasPerm, hz, pteP, pteW, pteU]
    · have hpa := (Vmiter.walked_settled m pt va).pa_eq hwf (Vmiter.walked_pt m pt va)
        (by rw [Vmiter.walked_va, hc])
      have htranslate := (Vmiter.walked_settled m pt va).mmuTranslate_eq
      simp only [Vmiter.walked_pt, Vmiter.walked_va, mmuTranslate, mmuCanonical_iff, hc, if_true]
        at hpa htranslate
      rw [← htranslate] at hpa
      simp only [true_and, if_true]
      refine ⟨Vmiter.walked_present_iff hc, hpa.2, hpa.1, ?_, ?_⟩
      · rw [Vmiter.writable, Vmiter.walked_hasPerm_iff hc]
        · simp only [getLsbD_pteP_or_pteW, Bool.or_eq_true, decide_eq_true_iff, forall_eq_or_imp,
            forall_eq]
        · intro i hi
          simp only [getLsbD_pteP_or_pteW, Bool.or_eq_true, decide_eq_true_iff] at hi
          omega
      · rw [Vmiter.user, Vmiter.walked_hasPerm_iff hc]
        · simp only [getLsbD_pteP_or_pteU, Bool.or_eq_true, decide_eq_true_iff, forall_eq_or_imp,
            forall_eq]
        · intro i hi
          simp only [getLsbD_pteP_or_pteU, Bool.or_eq_true, decide_eq_true_iff] at hi
          omega

/-- A page table at 0x1000 that maps a 2 MiB page at 0 and a 4 KiB page at 0x200000. -/
def sampleMemory : Memory where
  word := fun a =>
    if a = 0x1000#64 then 0x2007#64
    else if a = 0x2000#64 then 0x3007#64
    else if a = 0x3000#64 then 0x40000087#64
    else if a = 0x3008#64 then 0x4007#64
    else if a = 0x4000#64 then 0x5003#64
    else 0#64
  zeroPe := 0#64

lemma sampleMemory_word (a : Word) : sampleMemory.word a = 0x2007#64 ∨
    sampleMemory.word a = 0x3007#64 ∨ sampleMemory.word a = 0x40000087#64 ∨
    sampleMemory.word a = 0x4007#64 ∨ sampleMemory.word a = 0x5003#64 ∨
    sampleMemory.word a = 0#64 := by
  unfold sampleMemory
  dsimp only
  split_ifs <;> simp

lemma sampleMemory_wellFormed : WellFormedTable sampleMemory sampleTable where
  noTopPs i _ := by
    have he := sampleTable.toNat_entry i.isLt
    have hne : ∀ c : Nat, 0x2000 ≤ c → c < 2 ^ 64 → sampleTable.entry i ≠ BitVec.ofNat 64 c := by
      intro c hc hlt h
      have := congrArg BitVec.toNat h
      have haddr : sampleTable.addr.toNat = 0x1000 := rfl
      rw [he, BitVec.toNat_ofNat] at this
      omega
    unfold sampleMemory
    dsimp only
    rw [if_neg (hne 0x2000 (by norm_num) (by norm_num)), if_neg (hne 0x3000 (by norm_num) (by norm_num)),
      if_neg (hne 0x3008 (by norm_num) (by norm_num)), if_neg (hne 0x4000 (by norm_num) (by norm_num))]
    split_ifs <;> decide
  largeAligned p t i h1 h2 _ hP hPS := by
    obtain hlen | hlen : p.length = 1 ∨ p.length = 2 := by omega
    all_goals
      rw [hlen]
      revert hP hPS
      rcases sampleMemory_word (t.entry i) with h | h | h | h | h | h <;> rw [h] <;> decide
  addressLow p t i _ _ := by
    rcases sampleMemory_word (t.entry i) with h | h | h | h | h | h <;> rw [h] <;> decide

theorem vmiter_agrees_with_mmu_sample : ∃ it,
    Vmiter.new sampleMemory sampleTable 0x1234#64 = .ok it ∧
      it.pa sampleMemory = 0x40001234#64 ∧ it.user sampleMemory = true := by
  obtain ⟨it, hnew, -, -, -, hpa, -, huser⟩ :=
    vmiter_agrees_with_mmu sampleMemory sampleTable rfl sampleMemory_wellFormed 0x1234#64
  have hentries : mmuEntries sampleMemory 0x1234#64 3 sampleTable.addr.toNat =
      [0x2007#64, 0x3007#64, 0x40000087#64] := by decide
  rw [hentries] at huser
  exact ⟨it, hnew, hpa.trans (by decide), huser.2 ⟨by decide, by simp⟩⟩

end Cs300Projects.WeensyOS
