import Cs300Projects.WeensyOS.VmiterRun

/-!
# What `try_map` changes

The tables that `try_map` links are empty, so they change neither the translation nor the
permissions of any address; the entry that it writes at the end belongs to one 4 KiB page.
-/

namespace Cs300Projects.WeensyOS
open BitField

/-! ### What an iterator reports -/

/-- `pa()` and `perm()` of a fresh iterator at `va`. -/
def report (m : Memory) (pt : PagePtr) (va : Word) : Except Stop (Word × Word) :=
  (Vmiter.new m pt va).map (fun it => (it.pa m, it.perm m))

/-- A fresh iterator and the processor see at `va` in `m'` what they see in `m`. -/
def SameView (m m' : Memory) (pt : PagePtr) (va : Word) : Prop :=
  report m' pt va = report m pt va ∧ mmuTranslate m' pt va = mmuTranslate m pt va

lemma SameView.trans {m m' m'' : Memory} {pt : PagePtr} {va : Word} (h : SameView m m' pt va)
    (h' : SameView m' m'' pt va) : SameView m m'' pt va :=
  ⟨h'.1.trans h.1, h'.2.trans h.2⟩

section Views

variable {m m' : Memory} {pt : PagePtr} {it it' : Vmiter}

lemma report_of_settled (h : it.Settled m) :
    report m it.pt_ it.va_ = (Vmiter.check m it).map (fun it => (it.pa m, it.perm m)) := by
  rw [report, Vmiter.new_eq, ← h.eq_walked]

/-- An unchanged entry at the end of an unchanged walk. -/
lemma sameView_of_read_eq (h : it.Settled m) (h' : it.Settled m')
    (hread : m'.read it.pep_ = m.read it.pep_) : SameView m m' it.pt_ it.va_ := by
  constructor
  · rw [report_of_settled h, report_of_settled h', Vmiter.check, Vmiter.check, hread]
    split
    · rfl
    · simp only [Except.map, Vmiter.pa, Vmiter.perm, hread]
  · rw [h.mmuTranslate_eq, h'.mmuTranslate_eq, hread]

lemma report_of_not_present (h : it.Settled m) (hP : (m.read it.pep_).getLsbD 0 = false)
    (hlow : ¬0x100000000#64 ≤ m.read it.pep_ &&& ptePamask) :
    report m it.pt_ it.va_ = .ok (-1#64, 0#64) := by
  have hcheck : Vmiter.check m it = .ok it := Vmiter.check_eq_ok.2 ⟨hlow, rfl⟩
  have hperm : it.perm m = 0#64 := by
    rw [Vmiter.perm, if_neg]
    rw [and_pteP_ne_zero_iff, hP]
    exact Bool.false_ne_true
  rw [report_of_settled h, hcheck, Except.map, Vmiter.pa_of_not_present hP, hperm]

lemma mmuTranslate_of_not_present (h : it.Settled m) (hP : (m.read it.pep_).getLsbD 0 = false) :
    mmuTranslate m it.pt_ it.va_ = none := by
  rw [h.mmuTranslate_eq, mmuLeaf, hP]
  simp

/-- Two walks of one address that end at entries that are not present. -/
lemma sameView_of_not_present (h : it.Settled m) (h' : it'.Settled m') (hpt : it'.pt_ = it.pt_)
    (hva : it'.va_ = it.va_) (hP : (m.read it.pep_).getLsbD 0 = false)
    (hP' : (m'.read it'.pep_).getLsbD 0 = false) (hlow : ¬0x100000000#64 ≤ m.read it.pep_ &&& ptePamask)
    (hlow' : ¬0x100000000#64 ≤ m'.read it'.pep_ &&& ptePamask) : SameView m m' it.pt_ it.va_ := by
  constructor
  · rw [report_of_not_present h hP hlow, ← hpt, ← hva, report_of_not_present h' hP' hlow']
  · rw [mmuTranslate_of_not_present h hP, ← hpt, ← hva, mmuTranslate_of_not_present h' hP']

end Views

/-! ### Trees of tables -/

section Tree

variable {m : Memory} {pt p t₀ : PagePtr} {p₀ : List (Fin 512)} {i₀ : Fin 512}

/-- The tables after linking `p` at entry `i₀` of the table at `p₀`: the old ones and `p`. -/
lemma tableAt_link (htree : TablesFormTree m pt) (hp : ¬UsedAsTable m pt p) (hlen : p₀.length ≤ 2)
    (hpath : tableAt m pt p₀ = some t₀) {q : List (Fin 512)} {s : PagePtr} (hq : q.length ≤ 3)
    (h : tableAt (m.link (.entry (t₀.entry i₀)) p) pt q = some s) :
    tableAt m pt q = some s ∨ (q = p₀ ++ [i₀] ∧ s = p) := by
  have hne : p ≠ t₀ := by
    rintro rfl
    exact hp ⟨p₀, by omega, hpath⟩
  induction q using List.reverseRecOn generalizing s with
  | nil => exact Or.inl h
  | append_singleton q i ih =>
    rw [List.length_append, List.length_singleton] at hq
    rw [tableAt_snoc_iff] at h
    obtain ⟨r, hr, ht, hs⟩ := h
    rcases ih (by omega) hr with hold | ⟨_, rfl⟩
    · by_cases hentry : r.entry i = t₀.entry i₀
      · -- the entry that was written
        obtain ⟨rfl, hi⟩ := PagePtr.entry_inj i.isLt i₀.isLt hentry
        obtain rfl : i = i₀ := Fin.ext hi
        have hread := read_link_self (m := m) (r := .entry (r.entry i)) (p := p)
        rw [Memory.read_entry] at hread
        rw [hread, tableOf_linkEntry] at hs
        exact Or.inr ⟨by rw [htree q p₀ r (by omega) (by omega) hold hpath], hs.symm⟩
      · have hrp : r ≠ p := by
          rintro rfl
          exact hp ⟨q, by omega, hold⟩
        have hread : (m.link (.entry (t₀.entry i₀)) p).word (r.entry i) = m.word (r.entry i) := by
          have hw := Memory.read_write_of_ne (m.clearPage p) (r := .entry (t₀.entry i₀))
            (s := .entry (r.entry i)) (by rw [Ne, EntryPtr.entry.injEq]; exact hentry) (linkEntry p)
          exact hw.trans (Memory.word_overwritePage_of_ne m hrp _ i.isLt)
        rw [hread] at ht hs
        exact Or.inl ((tableAt_snoc_iff _ _ _ _ _).2 ⟨r, hold, ht, hs⟩)
    · -- the linked page is empty
      have hread := read_link_page (m := m) (p := r) (r := .entry (t₀.entry i₀)) i.isLt (by
        intro j hj he
        rw [EntryPtr.entry.injEq] at he
        exact hne (PagePtr.entry_inj i₀.isLt hj he).1.symm)
      rw [Memory.read_entry] at hread
      rw [hread] at ht
      exact absurd ht not_isTable_zero

lemma TablesFormTree.link (htree : TablesFormTree m pt) (hp : ¬UsedAsTable m pt p)
    (hlen : p₀.length ≤ 2) (hpath : tableAt m pt p₀ = some t₀) :
    TablesFormTree (m.link (.entry (t₀.entry i₀)) p) pt := by
  intro q q' s hq hq' h h'
  rcases tableAt_link htree hp hlen hpath hq h with hold | ⟨rfl, rfl⟩
  · rcases tableAt_link htree hp hlen hpath hq' h' with hold' | ⟨_, rfl⟩
    · exact htree q q' s hq hq' hold hold'
    · exact absurd ⟨q, hq, hold⟩ hp
  · rcases tableAt_link htree hp hlen hpath hq' h' with hold' | ⟨rfl, _⟩
    · exact absurd ⟨q', hq', hold'⟩ hp
    · rfl

/-- Writing an entry of a table at level 0 changes no table. -/
lemma tableAt_write_leaf (htree : TablesFormTree m pt) (hlen : p₀.length = 3)
    (hpath : tableAt m pt p₀ = some t₀) (e : Word) {q : List (Fin 512)} {s : PagePtr}
    (hq : q.length ≤ 3) (h : tableAt (m.write (.entry (t₀.entry i₀)) e) pt q = some s) :
    tableAt m pt q = some s := by
  induction q using List.reverseRecOn generalizing s with
  | nil => exact h
  | append_singleton q i ih =>
    rw [List.length_append, List.length_singleton] at hq
    rw [tableAt_snoc_iff] at h ⊢
    obtain ⟨r, hr, ht, hs⟩ := h
    have hold := ih (by omega) hr
    have hentry : EntryPtr.entry (r.entry i) ≠ .entry (t₀.entry i₀) := by
      intro he
      rw [EntryPtr.entry.injEq] at he
      obtain ⟨rfl, _⟩ := PagePtr.entry_inj i.isLt i₀.isLt he
      have := congrArg List.length (htree q p₀ r (by omega) (by omega) hold hpath)
      omega
    have hread := Memory.read_write_of_ne m hentry e
    rw [Memory.read_entry, Memory.read_entry] at hread
    rw [hread] at ht hs
    exact ⟨r, hold, ht, hs⟩

end Tree

/-! ### The loop that links tables -/

/-- The iterator is settled at `va` in a tree of tables that the free pages can extend. -/
structure MapState.TreeInv (pt : PagePtr) (va : Word) (s : MapState) : Prop where
  settled : s.it.Settled s.mem
  root : s.it.pt_ = pt
  at_va : s.it.va_ = va
  low : ¬0x100000000#64 ≤ s.mem.read s.it.pep_ &&& ptePamask
  zeroPe : s.mem.zeroPe = 0#64
  tree : TablesFormTree s.mem pt
  nodup : s.free.Nodup
  unused : ∀ p ∈ s.free, ¬UsedAsTable s.mem pt p

section Loop

variable {pt : PagePtr} {va : Word} {s s' : MapState}

/-- The entry that an iterator points at, as an entry of the table on its path. -/
lemma MapState.TreeInv.entry (h : s.TreeInv pt va) (hc : vaIsCanonical va = true) :
    ∃ t, tableAt s.mem pt (vaPath va s.it.level_) = some t ∧
      s.it.pep_ = .entry (t.entry (vaIndex va s.it.level_)) := by
  have hw := h.settled.onWalk
  rw [Vmiter.OnWalk, h.root, h.at_va] at hw
  exact hw.tableAt hc

/-- Going down to a freshly linked table stops at its empty entry. -/
lemma down_link {m : Memory} {it : Vmiter} {p : PagePtr} {L : Nat} (hlevel : it.level_ = L + 1)
    (hr : ∀ j, j < 512 → it.pep_ ≠ .entry (p.entry j)) : it.down (m.link it.pep_ p) =
      .ok { it with
        perm_ := andPerm it.perm_ (linkEntry p)
        level_ := L
        pep_ := .entry (p.entry (pageindex it.va_ L)) } := by
  have hempty := read_link_page (m := m) (r := it.pep_) (pageindex_lt it.va_ L) hr
  rw [Vmiter.down, hlevel, Vmiter.descend, read_link_self, if_pos (isTable_linkEntry p),
    tableOf_linkEntry, Vmiter.check_eq_ok]
  cases L with
  | zero =>
    rw [Vmiter.descend, hempty]
    exact ⟨by decide, rfl⟩
  | succ L =>
    rw [Vmiter.descend, hempty, if_neg not_isTable_zero, hempty]
    exact ⟨by decide, rfl⟩

lemma MapState.TreeInv.inv (h : s.TreeInv pt va) : s.Inv pt :=
  ⟨h.settled, h.root, levelUnique_of_tree h.zeroPe h.tree, h.nodup,
    fun p hp => unlinked_of_unused h.zeroPe (h.unused p hp)⟩

/-- Linking an empty table where nothing is present changes no view. -/
lemma MapState.TreeInv.sameView_link (h : s.TreeInv pt va) {p : PagePtr} (hp : ¬UsedAsTable s.mem pt p)
    {L : Nat} (hlevel : s.it.level_ = L + 1) (hP : (s.mem.read s.it.pep_).getLsbD 0 = false)
    (hr : ∀ j, j < 512 → s.it.pep_ ≠ .entry (p.entry j)) (va' : Word) :
    SameView s.mem (s.mem.link s.it.pep_ p) pt va' := by
  have hu := levelUnique_of_tree h.zeroPe h.tree
  have hpl := unlinked_of_unused h.zeroPe hp
  have hslot := h.settled.onWalk
  rw [Vmiter.OnWalk, h.root, hlevel] at hslot
  have hnt := not_isTable_of_not_present hP
  have hset := Vmiter.walked_settled s.mem pt va'
  have hw := hset.onWalk
  rw [Vmiter.OnWalk, Vmiter.walked_pt, Vmiter.walked_va] at hw
  have hw' := hw.link hpl hnt
  by_cases hsame : (Vmiter.walked s.mem pt va').pep_ = s.it.pep_
  · -- the walk ended at the linked entry, and now ends in the new table
    rw [hsame] at hw hw'
    have hl : (Vmiter.walked s.mem pt va').level_ = L + 1 := hu hw hslot
    rw [hl] at hw'
    have hdown := hw'.down (by rw [read_link_self]; exact isTable_linkEntry p)
    rw [read_link_self, tableOf_linkEntry] at hdown
    have hempty := read_link_page (m := s.mem) (r := s.it.pep_) (pageindex_lt va' L) hr
    have hset' : Vmiter.Settled (s.mem.link s.it.pep_ p)
        ⟨pt, .entry (p.entry (pageindex va' L)), L,
          andPerm (Vmiter.walked s.mem pt va').perm_ (linkEntry p), va'⟩ := by
      refine ⟨hdown, fun _ => ?_⟩
      rw [hempty]
      exact not_isTable_zero
    have hview := sameView_of_not_present hset hset' (Vmiter.walked_pt _ _ _).symm
      (Vmiter.walked_va _ _ _).symm (by rw [hsame, hP]) (by rw [hempty]; rfl) (by rw [hsame]; exact h.low)
      (by rw [hempty]; decide)
    rw [Vmiter.walked_pt, Vmiter.walked_va] at hview
    exact hview
  · have hread := read_link_of_ne hpl hw hsame
    have hset' : (Vmiter.walked s.mem pt va').Settled (s.mem.link s.it.pep_ p) := by
      refine ⟨?_, fun hpos => ?_⟩
      · rw [Vmiter.OnWalk, Vmiter.walked_pt, Vmiter.walked_va]
        exact hw'
      · rw [hread]
        exact hset.last hpos
    have hview := sameView_of_read_eq hset hset' hread
    rw [Vmiter.walked_pt, Vmiter.walked_va] at hview
    exact hview

/-- The round that links the page `p` and goes down to it. -/
lemma MapState.TreeInv.linkRound (h : s.TreeInv pt va) (hc : vaIsCanonical va = true) {p : PagePtr}
    {free : List PagePtr} (hfree : s.free = p :: free) {L : Nat} (hlevel : s.it.level_ = L + 1)
    (hP : (s.mem.read s.it.pep_).getLsbD 0 = false) :
    ∃ it, s.it.down (s.mem.link s.it.pep_ p) = .ok it ∧ it.level_ = L ∧
      (∀ i, i < 3 → s.it.perm_.getLsbD i = true → it.perm_.getLsbD i = true) ∧
      MapState.TreeInv pt va ⟨s.mem.link s.it.pep_ p, free, it⟩ ∧
      ∀ va', SameView s.mem (s.mem.link s.it.pep_ p) pt va' := by
  obtain ⟨t, hpath, hpep⟩ := h.entry hc
  have hp : ¬UsedAsTable s.mem pt p := h.unused p (by rw [hfree]; exact List.mem_cons_self)
  have hnodup := h.nodup
  rw [hfree, List.nodup_cons] at hnodup
  have hle := h.settled.onWalk.level_le
  have hlen : (vaPath va s.it.level_).length ≤ 2 := by rw [length_vaPath]; omega
  have hr : ∀ j, j < 512 → s.it.pep_ ≠ .entry (p.entry j) := by
    intro j hj he
    rw [hpep, EntryPtr.entry.injEq] at he
    obtain ⟨rfl, _⟩ := PagePtr.entry_inj (vaIndex va s.it.level_).isLt hj he
    exact hp ⟨_, by omega, hpath⟩
  have hd := down_link (m := s.mem) hlevel hr
  refine ⟨_, hd, rfl, fun i hi hb => ?_, ?_, h.sameView_link hp hlevel hP hr⟩
  · dsimp only
    rw [getLsbD_andPerm _ _ (by omega), hb, linkEntry_flag p (by omega), decide_eq_true hi]
    rfl
  · have hempty := read_link_page (m := s.mem) (r := s.it.pep_) (pageindex_lt s.it.va_ L) hr
    have hinv := h.inv.linkRound hfree (by omega) hP hd
    refine ⟨hinv.settled, h.root, h.at_va, ?_, ?_, ?_, hinv.nodup, ?_⟩
    · rw [hempty]
      decide
    · rw [hpep]
      exact h.zeroPe
    · rw [hpep]
      exact h.tree.link hp hlen hpath
    · intro p' hp'
      rintro ⟨q, hq, hused⟩
      dsimp only at hused
      rw [hpep] at hused
      rcases tableAt_link h.tree hp hlen hpath hq hused with hold | ⟨_, rfl⟩
      · exact h.unused p' (by rw [hfree]; exact List.mem_cons_of_mem _ hp') ⟨q, hq, hold⟩
      · exact hnodup.1 hp'

/-- What a run of the loop that reports success establishes. -/
lemma MapState.TreeInv.installTables (h : s.TreeInv pt va) (hc : vaIsCanonical va = true)
    {perm : BitVec 32} (hperm : perm ≠ 0#32) {fuel : Nat} (hfuel : s.it.level_ ≤ fuel)
    (hs : installTables perm fuel s = .ok (true, s')) :
    s'.TreeInv pt va ∧ s'.it.level_ = 0 ∧
      (∀ i, i < 3 → s.it.perm_.getLsbD i = true → s'.it.perm_.getLsbD i = true) ∧
      ∀ va', SameView s.mem s'.mem pt va' := by
  obtain ⟨b, htrue⟩ : ∃ b, b = true := ⟨true, rfl⟩
  rw [← htrue] at hs
  have hinstalls := installTables_installs hs
  clear hs
  induction hinstalls with
  | @done fuel s hdone =>
    have hzero : ¬0 < s.it.level_ := by
      rcases hdone with rfl | hcond
      · omega
      · exact fun hpos => hcond ⟨hpos, hperm⟩
    exact ⟨h, Nat.eq_zero_of_not_pos hzero, fun _ _ hb => hb, fun _ => ⟨rfl, rfl⟩⟩
  | noPage _ _ _ => cases htrue
  | @link fuel s s' p free it b hcond hP hfree hd _ ih =>
    obtain ⟨L, hL⟩ : ∃ L, s.it.level_ = L + 1 := ⟨s.it.level_ - 1, by omega⟩
    obtain ⟨it', hd', hlevel, hflags, hinv, hview⟩ := h.linkRound hc hfree hL hP
    rw [hd, Except.ok.injEq] at hd'
    subst hd'
    obtain ⟨hinv', hlevel', hflags', hview'⟩ := ih hinv (by dsimp only; omega) htrue
    exact ⟨hinv', hlevel', fun i hi hb => hflags' i hi (hflags i hi hb),
      fun va' => (hview va').trans (hview' va')⟩

/-- Writing the entry of a 4 KiB page changes the view of no other page. -/
lemma MapState.TreeInv.sameView_write_leaf (h : s.TreeInv pt va) (hc : vaIsCanonical va = true)
    (hlevel : s.it.level_ = 0) (e : Word) {va' : Word} (hva : va'.toNat / 4096 ≠ va.toNat / 4096) :
    SameView s.mem (s.mem.write s.it.pep_ e) pt va' := by
  have hu := levelUnique_of_tree h.zeroPe h.tree
  have hslot := h.settled.onWalk
  rw [Vmiter.OnWalk, h.root, h.at_va, hlevel] at hslot
  have hset := Vmiter.walked_settled s.mem pt va'
  have hw := hset.onWalk
  rw [Vmiter.OnWalk, Vmiter.walked_pt, Vmiter.walked_va] at hw
  have hne : (Vmiter.walked s.mem pt va').pep_ ≠ s.it.pep_ := by
    intro he
    obtain ⟨t, _, hpep⟩ := h.entry hc
    rw [he, hpep] at hw
    rw [hpep] at hslot
    obtain ⟨hl, hblock⟩ := slot_path_unique h.zeroPe h.tree hw hslot
    rw [hl] at hblock
    exact hva hblock
  have hread := Memory.read_write_of_ne s.mem hne e
  have hset' : (Vmiter.walked s.mem pt va').Settled (s.mem.write s.it.pep_ e) := by
    refine ⟨?_, fun hpos => ?_⟩
    · rw [Vmiter.OnWalk, Vmiter.walked_pt, Vmiter.walked_va, slot_write_leaf_iff hu hslot]
      exact hw
    · rw [hread]
      exact hset.last hpos
  have hview := sameView_of_read_eq hset hset' hread
  rw [Vmiter.walked_pt, Vmiter.walked_va] at hview
  exact hview

end Loop

/-! ### The call -/

/-- What a call of `try_map` that maps a page has tested and done. -/
lemma tryMap_success {pa : Word} {perm : BitVec 32} {s s' : MapState} (hperm : perm ≠ 0#32)
    (h : tryMap pa perm s = .ok (0, s')) :
    (perm &&& ~~~s.it.perm_).signExtend 64 &&& (pteP ||| pteW ||| pteU) = 0#64 ∧
      ∃ s₁, installTables perm s.it.level_ s = .ok (true, s₁) ∧
        (s₁.it.level_ = 0 →
          s' = { s₁ with mem := s₁.mem.write s₁.it.pep_ (pa ||| perm.signExtend 64) }) := by
  unfold tryMap at h
  have hpa : ¬(pa = -1#64 ∧ perm = 0#32) := fun hcond => hperm hcond.2
  rw [if_neg hpa] at h
  dsimp only at h
  split_ifs at h with h1 h2 h3 h4 h5
  rw [not_not] at h5
  refine ⟨h5, ?_⟩
  cases hi : installTables perm s.it.level_ s with
  | error e => simp [hi] at h
  | ok bs =>
    obtain ⟨b, s₁⟩ := bs
    rw [hi] at h
    cases b with
    | false => simp at h
    | true =>
      refine ⟨s₁, rfl, fun hlevel => ?_⟩
      simp only [hlevel, if_true, Except.ok.injEq, Prod.mk.injEq, true_and] at h
      exact h.symm

/-- The bits of the entry for a 4 KiB page: its address and its flags. -/
lemma leaf_entry {pa : Word} {perm : BitVec 32} (hpa : pa.toNat % 4096 = 0) (hpa' : pa.toNat < 2 ^ 32)
    (hperm : perm.toNat < 4096) : (pa ||| perm.signExtend 64) &&& ptePamask = pa ∧
      ∀ i, i < 12 → (pa ||| perm.signExtend 64).getLsbD i = perm.getLsbD i := by
  have hlow : ∀ i, i < 12 → pa.getLsbD i = false := by
    intro i hi
    obtain ⟨k, hk⟩ : ∃ k, pa.toNat = 2 ^ 12 * k := ⟨pa.toNat / 4096, by omega⟩
    rw [BitVec.getLsbD, hk, Nat.testBit_two_pow_mul]
    simp
    omega
  have hhigh : ∀ i, 12 ≤ i → (perm.signExtend 64).getLsbD i = false := by
    intro i hi
    have hbit : ∀ j, 12 ≤ j → perm.getLsbD j = false := fun j hj =>
      Nat.testBit_lt_two_pow (lt_of_lt_of_le hperm (Nat.pow_le_pow_right (n := 2) (by norm_num) hj))
    rw [BitVec.getLsbD_signExtend, BitVec.msb_eq_getLsbD_last, hbit i hi, hbit (32 - 1) (by norm_num)]
    simp
  constructor
  · apply BitVec.eq_of_toNat_eq
    have hmask : ptePamask = lowMask 64 52 &&& ~~~lowMask 64 12 := by decide
    have heq : (pa ||| perm.signExtend 64) &&& ptePamask = pa &&& ptePamask := by
      apply BitVec.eq_of_getLsbD_eq
      intro i hi
      rw [BitVec.getLsbD_and, BitVec.getLsbD_and, BitVec.getLsbD_or]
      by_cases hi12 : i < 12
      · have hbit : ptePamask.getLsbD i = false := by
          rw [hmask, BitVec.getLsbD_and, BitVec.getLsbD_not, getLsbD_lowMask (by norm_num),
            getLsbD_lowMask (by norm_num), decide_eq_true hi12]
          simp
        rw [hbit, Bool.and_false, Bool.and_false]
      · rw [hhigh i (by omega), Bool.or_false]
    rw [heq, toNat_and_ptePamask]
    omega
  · intro i hi
    rw [BitVec.getLsbD_or, hlow i hi, Bool.false_or, getLsbD_signExtend_perm _ (by omega)]

/-- When `try_map` returns 0, the page of `va` is mapped at `pa` with the permissions asked for,
no other page is seen differently, and the tables still form a tree. -/
theorem tryMap_maps_page (m : Memory) (pt : PagePtr) (free : List PagePtr) (hz : m.zeroPe = 0#64)
    (htree : TablesFormTree m pt) (hnodup : free.Nodup) (hfree : ∀ p ∈ free, ¬UsedAsTable m pt p)
    (va pa : Word) (perm : BitVec 32) (hva : va.toNat % 4096 = 0) (hc : vaIsCanonical va = true)
    (hpa : pa.toNat % 4096 = 0) (hpa' : pa.toNat < 2 ^ 32) (hperm : perm.toNat < 4096)
    (hP : perm.getLsbD 0 = true) (it : Vmiter) (hnew : Vmiter.new m pt va = .ok it) (s' : MapState)
    (hmap : tryMap pa perm ⟨m, free, it⟩ = .ok (0, s')) :
    (∃ it', Vmiter.new s'.mem pt va = .ok it' ∧ it'.pa s'.mem = pa ∧
      it'.perm s'.mem &&& (pteP ||| pteW ||| pteU) = perm.signExtend 64 &&& (pteP ||| pteW ||| pteU)) ∧
    (∀ va', va'.toNat / 4096 ≠ va.toNat / 4096 →
      report s'.mem pt va' = report m pt va' ∧ mmuTranslate s'.mem pt va' = mmuTranslate m pt va') ∧
    TablesFormTree s'.mem pt := by
  have hne : perm ≠ 0#32 := by
    rintro rfl
    simp at hP
  obtain ⟨hsettled, hpt, hitva⟩ := Vmiter.new_settled hnew
  have hlow := hnew
  rw [Vmiter.new_eq, Vmiter.check_eq_ok] at hlow
  have hinit : MapState.TreeInv pt va ⟨m, free, it⟩ :=
    ⟨hsettled, hpt, hitva, by rw [hlow.2]; exact hlow.1, hz, htree, hnodup, hfree⟩
  obtain ⟨hassert, s₁, hinstall, hs'⟩ := tryMap_success hne hmap
  obtain ⟨hinv, hlevel, hflags, hview⟩ := hinit.installTables hc hne le_rfl hinstall
  rw [hs' hlevel]
  obtain ⟨haddr, hbits⟩ := leaf_entry hpa hpa' hperm
  have hread : (s₁.mem.write s₁.it.pep_ (pa ||| perm.signExtend 64)).read s₁.it.pep_ =
      pa ||| perm.signExtend 64 := Memory.read_write_self _ _ _
  have hleaf := (hinv.inv.writeLeaf hlevel (pa ||| perm.signExtend 64)).settled
  dsimp only at hleaf ⊢
  refine ⟨⟨s₁.it, ?_, ?_, ?_⟩, fun va' hva' => ?_, ?_⟩
  · have hwalk := hleaf.eq_walked
    rw [hinv.root, hinv.at_va] at hwalk
    rw [Vmiter.new_eq, ← hwalk, Vmiter.check_eq_ok, hread, haddr, BitVec.le_def, BitVec.toNat_ofNat]
    exact ⟨by omega, rfl⟩
  · have hoff : s₁.it.va_ &&& pageoffmask s₁.it.level_ = 0#64 := by
      apply BitVec.eq_of_toNat_eq
      rw [hinv.at_va, hlevel, toNat_and_pageoffmask (by norm_num)]
      exact hva
    have hpresent : (pa ||| perm.signExtend 64) &&& pteP ≠ 0#64 := by
      rw [and_pteP_ne_zero_iff, hbits 0 (by norm_num), hP]
    rw [Vmiter.pa, hread, if_pos hpresent, hoff, haddr, hlevel]
    exact BitVec.add_zero pa
  · have hpresent : (pa ||| perm.signExtend 64) &&& pteP ≠ 0#64 := by
      rw [and_pteP_ne_zero_iff, hbits 0 (by norm_num), hP]
    rw [Vmiter.perm, hread, if_pos hpresent]
    apply BitVec.eq_of_getLsbD_eq
    intro i hi
    simp only [BitVec.getLsbD_and, getLsbD_pwu hi]
    by_cases hi3 : i < 3
    · -- the assertion says that the walk allows what is asked for
      have hbit := congrArg (fun x => BitVec.getLsbD x i) hassert
      simp only [BitVec.getLsbD_and, getLsbD_pwu hi, getLsbD_signExtend_perm _ (show i < 32 by omega),
        BitVec.getLsbD_not, decide_eq_true hi3, BitVec.getLsbD_zero] at hbit
      rw [hbits i (by omega), getLsbD_signExtend_perm _ (by omega), getLsbD_signExtend_perm _ (by omega)]
      have hflag := hflags i hi3
      dsimp only at hflag hbit
      cases hb : perm.getLsbD i
      · simp
      · rw [hb] at hbit
        simp [show i < 32 by omega] at hbit
        rw [hflag hbit]
        rfl
    · simp [hi3]
  · exact (hview va').trans (hinv.sameView_write_leaf hc hlevel _ hva')
  · intro q q' t hq hq' h h'
    obtain ⟨t₀, hpath, hpep⟩ := hinv.entry hc
    rw [hlevel] at hpath hpep
    rw [hpep] at h h'
    have hlen : (vaPath va 0).length = 3 := by rw [length_vaPath]
    exact hinv.tree q q' t hq hq' (tableAt_write_leaf hinv.tree hlen hpath _ hq h)
      (tableAt_write_leaf hinv.tree hlen hpath _ hq' h')

theorem tryMap_maps_page_sample : ∃ (s' : MapState) (it' : Vmiter),
    Vmiter.new s'.mem sampleTable 0x5000#64 = .ok it' ∧ it'.pa s'.mem = 0x7000#64 ∧
      mmuTranslate s'.mem sampleTable 0x6000#64 = none := by
  have hnew : Vmiter.new emptyMemory sampleTable 0x5000#64 =
      .ok ⟨sampleTable, .entry 0x1000#64, 3, initialPerm, 0x5000#64⟩ := by decide
  have hsample : (tryMap 0x7000#64 7#32 ⟨emptyMemory, sampleFree,
      ⟨sampleTable, .entry 0x1000#64, 3, initialPerm, 0x5000#64⟩⟩).map Prod.fst = .ok 0 := by decide
  cases hmap : tryMap 0x7000#64 7#32 ⟨emptyMemory, sampleFree,
      ⟨sampleTable, .entry 0x1000#64, 3, initialPerm, 0x5000#64⟩⟩ with
  | error e =>
    rw [hmap] at hsample
    exact absurd hsample (by simp [Except.map])
  | ok rs =>
    obtain ⟨r, s'⟩ := rs
    rw [hmap, Except.map, Except.ok.injEq] at hsample
    dsimp only at hsample
    subst hsample
    obtain ⟨⟨it', hit', hpa, _⟩, hothers, _⟩ := tryMap_maps_page emptyMemory sampleTable sampleFree rfl
      (emptyMemory_tree sampleTable) (by decide)
      (fun p hp => emptyMemory_unused (by rintro rfl; revert hp; decide)) 0x5000#64 0x7000#64 7#32
      (by decide) (by decide) (by decide) (by decide) (by decide) (by decide) _ hnew s' hmap
    exact ⟨s', it', hit', hpa, (hothers 0x6000#64 (by decide)).2.trans (by decide)⟩

end Cs300Projects.WeensyOS
