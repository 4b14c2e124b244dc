import Cs300Projects.WeensyOS.VmiterMap

/-!
# Runs of one iterator

Any sequence of `find`, `+=`, `-=`, `next`, `next_range` and `try_map` calls on one `vmiter`
leaves the iterator in the state of one freshly constructed at the same address.
-/

namespace Cs300Projects.WeensyOS

/-- A call on a `vmiter`. -/
inductive VmiterOp where
  | find (va : Word)
  | advance (delta : Word)
  | retreat (delta : Word)
  | next
  | nextRange
  | tryMap (pa : Word) (perm : BitVec 32)

namespace MapState

/-- The move made by a call that only reads memory. -/
def move (f : Memory → Vmiter → Except Stop Vmiter) (s : MapState) : Except Stop MapState :=
  match f s.mem s.it with
  | .ok it => .ok { s with it := it }
  | .error e => .error e

/-- One call; the result code of `try_map` does not affect the state. -/
def step (s : MapState) : VmiterOp → Except Stop MapState
  | .find va => s.move (fun m it => it.find m va)
  | .advance delta => s.move (fun m it => it.advance m delta)
  | .retreat delta => s.move (fun m it => it.retreat m delta)
  | .next => s.move (fun m it => it.next m)
  | .nextRange => s.move (fun m it => it.nextRange m)
  | .tryMap pa perm =>
    match WeensyOS.tryMap pa perm s with
    | .ok (_, s') => .ok s'
    | .error e => .error e

def run (s : MapState) : List VmiterOp → Except Stop MapState
  | [] => .ok s
  | op :: ops =>
    match s.step op with
    | .ok s' => run s' ops
    | .error e => .error e

/-- The iterator is settled, and the pages that `kalloc` will return can be linked. -/
structure Inv (pt : PagePtr) (s : MapState) : Prop where
  settled : s.it.Settled s.mem
  root : s.it.pt_ = pt
  levelUnique : LevelUnique s.mem pt
  nodup : s.free.Nodup
  unlinked : ∀ p ∈ s.free, Unlinked s.mem pt p

end MapState

/-! ### Where the invariant starts -/

section Start

variable {m : Memory} {pt : PagePtr}

/-- While the shared entry is zero, a non-canonical address has no other slot. -/
lemma slot_of_not_canonical (hz : m.zeroPe = 0#64) {va : Word} {l : Nat} {r : EntryPtr}
    {q : BitVec 32} (hc : vaIsCanonical va = false) (h : Slot m pt va l r q) :
    l = 3 ∧ r = .zeroPe := by
  induction h with
  | top => exact ⟨rfl, by rw [topEntry, hc]; rfl⟩
  | down h ht ih =>
    rw [ih.2, Memory.read_zeroPe, hz] at ht
    exact absurd ht not_isTable_zero

/-- An entry of a tree of tables lies on one index path. -/
lemma slot_path_unique (hz : m.zeroPe = 0#64) (htree : TablesFormTree m pt) {va va' : Word}
    {l l' : Nat} {a : Word} {q q' : BitVec 32} (h : Slot m pt va l (.entry a) q)
    (h' : Slot m pt va' l' (.entry a) q') :
    l = l' ∧ va.toNat / pageSpan l = va'.toNat / pageSpan l := by
  cases hc : vaIsCanonical va
  · exact absurd (slot_of_not_canonical hz hc h).2 EntryPtr.noConfusion
  · cases hc' : vaIsCanonical va'
    · exact absurd (slot_of_not_canonical hz hc' h').2 EntryPtr.noConfusion
    · have hl := h.level_le
      have hl' := h'.level_le
      obtain ⟨t, hpath, he⟩ := h.tableAt hc
      obtain ⟨t', hpath', he'⟩ := h'.tableAt hc'
      rw [EntryPtr.entry.injEq] at he he'
      obtain ⟨rfl, hindex⟩ := PagePtr.entry_inj (pageindex_lt va l) (pageindex_lt va' l')
        (he.symm.trans he')
      have hp := htree _ _ t (by rw [length_vaPath]; omega) (by rw [length_vaPath]; omega) hpath hpath'
      have hlen := congrArg List.length hp
      rw [length_vaPath, length_vaPath] at hlen
      obtain rfl : l = l' := by omega
      exact ⟨rfl, same_block_of_vaPath_eq hl hc hc' hp hindex⟩

lemma levelUnique_of_tree (hz : m.zeroPe = 0#64) (htree : TablesFormTree m pt) :
    LevelUnique m pt := by
  intro va va' l l' r q q' h h'
  cases r with
  | zeroPe => rw [h.zeroPe_level, h'.zeroPe_level]
  | entry a => exact (slot_path_unique hz htree h h').1

lemma unlinked_of_unused (hz : m.zeroPe = 0#64) {p : PagePtr} (hp : ¬UsedAsTable m pt p) :
    Unlinked m pt p := by
  intro va l i q hi h
  cases hc : vaIsCanonical va
  · exact absurd (slot_of_not_canonical hz hc h).2 EntryPtr.noConfusion
  · obtain ⟨t, hpath, he⟩ := h.tableAt hc
    rw [EntryPtr.entry.injEq] at he
    obtain ⟨rfl, _⟩ := PagePtr.entry_inj hi (pageindex_lt va l) he
    exact hp ⟨vaPath va l, by rw [length_vaPath]; omega, hpath⟩

end Start

/-! ### What one call preserves -/

section Step

variable {pt : PagePtr} {s s' : MapState}

lemma realFind_settled {m : Memory} {it it' : Vmiter} {va : Word} (h : it.Settled m)
    (hf : it.realFind m va = .ok it') : it'.Settled m ∧ it'.pt_ = it.pt_ := by
  rw [Vmiter.realFind_eq_new h] at hf
  have hn := Vmiter.new_settled hf
  exact ⟨hn.1, hn.2.1⟩

lemma MapState.Inv.move {f : Memory → Vmiter → Except Stop Vmiter} (h : s.Inv pt)
    (hf : ∃ va, f s.mem s.it = s.it.realFind s.mem va) (hs : s.move f = .ok s') : s'.Inv pt := by
  obtain ⟨va, hva⟩ := hf
  rw [MapState.move, hva] at hs
  cases hfind : s.it.realFind s.mem va with
  | error e => simp [hfind] at hs
  | ok it =>
    rw [hfind, Except.ok.injEq] at hs
    subst hs
    obtain ⟨hsettled, hpt⟩ := realFind_settled h.settled hfind
    exact ⟨hsettled, hpt.trans h.root, h.levelUnique, h.nodup, h.unlinked⟩

lemma down_settled {m : Memory} {it it' : Vmiter} (h : it.OnWalk m) (hd : it.down m = .ok it') :
    it' = Vmiter.descend m it.level_ it ∧ it'.Settled m ∧ it'.pt_ = it.pt_ ∧ it'.va_ = it.va_ := by
  rw [Vmiter.down, Vmiter.check_eq_ok] at hd
  rw [hd.2]
  exact ⟨rfl, Vmiter.descend_settled h, Vmiter.descend_pt _ _ _, Vmiter.descend_va _ _ _⟩

/-- The round of `try_map` that links the page `p`. -/
lemma MapState.Inv.linkRound (h : s.Inv pt) {p : PagePtr} {free : List PagePtr}
    (hfree : s.free = p :: free) (hlevel : 0 < s.it.level_)
    (hP : (s.mem.read s.it.pep_).getLsbD 0 = false) {it : Vmiter}
    (hd : s.it.down (s.mem.link s.it.pep_ p) = .ok it) :
    MapState.Inv pt ⟨s.mem.link s.it.pep_ p, free, it⟩ := by
  have hroot := h.root
  have hnodup := h.nodup
  rw [hfree, List.nodup_cons] at hnodup
  have hp : Unlinked s.mem pt p := h.unlinked p (by rw [hfree]; exact List.mem_cons_self)
  obtain ⟨L, hL⟩ : ∃ L, s.it.level_ = L + 1 := ⟨s.it.level_ - 1, by omega⟩
  have hslot := h.settled.onWalk
  rw [Vmiter.OnWalk, hroot, hL] at hslot
  have hwalk : s.it.OnWalk (s.mem.link s.it.pep_ p) := by
    rw [Vmiter.OnWalk, hroot, hL]
    exact hslot.link hp (not_isTable_of_not_present hP)
  obtain ⟨_, hsettled, hpt, _⟩ := down_settled hwalk hd
  refine ⟨hsettled, hpt.trans hroot, h.levelUnique.link hp hslot, hnodup.2, fun p' hp' => ?_⟩
  have hp'u : Unlinked s.mem pt p' := h.unlinked p' (by rw [hfree]; exact List.mem_cons_of_mem _ hp')
  exact hp.link h.levelUnique hslot hp'u (by rintro rfl; exact hnodup.1 hp')

lemma installTables_inv {perm : BitVec 32} {fuel : Nat} {b : Bool} (h : s.Inv pt)
    (hs : installTables perm fuel s = .ok (b, s')) : s'.Inv pt ∧ s'.it.va_ = s.it.va_ := by
  have hinstalls := installTables_installs hs
  clear hs
  induction hinstalls with
  | done _ => exact ⟨h, rfl⟩
  | noPage _ _ _ => exact ⟨h, rfl⟩
  | link hcond hP hfree hd _ ih =>
    obtain ⟨hinv, hva⟩ := ih (h.linkRound hfree hcond.1 hP hd)
    refine ⟨hinv, hva.trans ?_⟩
    rw [Vmiter.down, Vmiter.check_eq_ok] at hd
    rw [hd.2]
    exact Vmiter.descend_va _ _ _

/-- A call of `try_map` that returns: its tables are installed, and it reports success or
failure. -/
lemma tryMap_cases {pa : Word} {perm : BitVec 32} {r : Int} (h : tryMap pa perm s = .ok (r, s')) :
    ∃ b s₁, installTables perm s.it.level_ s = .ok (b, s₁) ∧
      ((b = false ∧ r = -1 ∧ s' = s₁) ∨ (b = true ∧ r = 0 ∧ 0 < s₁.it.level_ ∧ s' = s₁) ∨
        (b = true ∧ r = 0 ∧ s₁.it.level_ = 0 ∧ ∃ e, s' = { s₁ with mem := s₁.mem.write s₁.it.pep_ e })) := by
  unfold tryMap at h
  dsimp only at h
  split_ifs at h
  all_goals
    cases hi : installTables perm s.it.level_ s with
    | error e => simp [hi] at h
    | ok bs =>
      obtain ⟨b, s₁⟩ := bs
      rw [hi] at h
      refine ⟨b, s₁, rfl, ?_⟩
      cases b with
      | false =>
        simp only [Except.ok.injEq, Prod.mk.injEq] at h
        exact Or.inl ⟨rfl, h.1.symm, h.2.symm⟩
      | true =>
        by_cases hlevel : s₁.it.level_ = 0
        · simp only [hlevel, if_true, Except.ok.injEq, Prod.mk.injEq] at h
          exact Or.inr (Or.inr ⟨rfl, h.1.symm, hlevel, _, h.2.symm⟩)
        · simp only [hlevel, if_false, Except.ok.injEq, Prod.mk.injEq] at h
          exact Or.inr (Or.inl ⟨rfl, h.1.symm, by omega, h.2.symm⟩)

lemma MapState.Inv.writeLeaf (h : s.Inv pt) (hlevel : s.it.level_ = 0) (e : Word) :
    MapState.Inv pt { s with mem := s.mem.write s.it.pep_ e } := by
  have hslot := h.settled.onWalk
  rw [Vmiter.OnWalk, h.root, hlevel] at hslot
  refine ⟨⟨?_, fun hpos => ?_⟩, h.root, h.levelUnique.write_leaf hslot e, h.nodup,
    fun p hp => (h.unlinked p hp).write_leaf h.levelUnique hslot e⟩
  · rw [Vmiter.OnWalk, h.root]
    have := h.settled.onWalk
    rw [Vmiter.OnWalk, h.root] at this
    exact (slot_write_leaf_iff h.levelUnique hslot e).2 this
  · exact absurd hpos (by dsimp only; omega)

lemma MapState.Inv.step {op : VmiterOp} (h : s.Inv pt) (hs : s.step op = .ok s') : s'.Inv pt := by
  cases op with
  | find va =>
    unfold MapState.step at hs
    exact h.move ⟨va, rfl⟩ hs
  | advance delta =>
    unfold MapState.step at hs
    exact h.move ⟨_, rfl⟩ hs
  | retreat delta =>
    unfold MapState.step at hs
    exact h.move ⟨_, rfl⟩ hs
  | next =>
    unfold MapState.step at hs
    exact h.move ⟨_, rfl⟩ hs
  | nextRange =>
    unfold MapState.step at hs
    exact h.move ⟨_, rfl⟩ hs
  | tryMap pa perm =>
    unfold MapState.step at hs
    cases hmap : WeensyOS.tryMap pa perm s with
    | error e => simp [hmap] at hs
    | ok rs =>
      obtain ⟨r, s₂⟩ := rs
      simp only [hmap, Except.ok.injEq] at hs
      subst hs
      obtain ⟨b, s₁, hi, hcases⟩ := tryMap_cases hmap
      have hinv := (installTables_inv h hi).1
      rcases hcases with ⟨_, _, rfl⟩ | ⟨_, _, _, rfl⟩ | ⟨_, _, hlevel, e, rfl⟩
      · exact hinv
      · exact hinv
      · exact hinv.writeLeaf hlevel e

/-- What one call preserves, a run preserves. -/
lemma MapState.Inv.run {ops : List VmiterOp} (h : s.Inv pt) (hs : s.run ops = .ok s') :
    s'.Inv pt := by
  induction ops generalizing s with
  | nil =>
    rw [MapState.run, Except.ok.injEq] at hs
    exact hs ▸ h
  | cons op ops ih =>
    rw [MapState.run] at hs
    cases hstep : s.step op with
    | error e => simp [hstep] at hs
    | ok s₁ =>
      rw [hstep] at hs
      exact ih (h.step hstep) hs

end Step

/-- The iterator after any run of calls is a freshly constructed iterator at its address: the
constructor returns it, or panics on the address field of the entry that it points at. The pages
that `kalloc` returns are distinct and not tables of the page table. -/
theorem vmiter_run_eq_new (m : Memory) (pt : PagePtr) (free : List PagePtr) (hz : m.zeroPe = 0#64)
    (htree : TablesFormTree m pt) (hnodup : free.Nodup) (hfree : ∀ p ∈ free, ¬UsedAsTable m pt p)
    (va₀ : Word) (it₀ : Vmiter) (hnew : Vmiter.new m pt va₀ = .ok it₀) (ops : List VmiterOp)
    (s : MapState) (hrun : MapState.run ⟨m, free, it₀⟩ ops = .ok s) :
    Vmiter.new s.mem pt s.it.va_ = Vmiter.check s.mem s.it ∧
      ∀ it, Vmiter.new s.mem pt s.it.va_ = .ok it →
        it = s.it ∧ it.pep_ = s.it.pep_ ∧ it.level_ = s.it.level_ ∧ it.pa s.mem = s.it.pa s.mem ∧
          it.perm s.mem = s.it.perm s.mem ∧ it.present s.mem = s.it.present s.mem ∧
            it.lastVa = s.it.lastVa := by
  obtain ⟨hsettled, hpt, _⟩ := Vmiter.new_settled hnew
  have hinit : MapState.Inv pt ⟨m, free, it₀⟩ :=
    ⟨hsettled, hpt, levelUnique_of_tree hz htree, hnodup, fun p hp => unlinked_of_unused hz (hfree p hp)⟩
  have hinv := hinit.run hrun
  have hfresh : Vmiter.new s.mem pt s.it.va_ = Vmiter.check s.mem s.it := by
    rw [Vmiter.new_eq, ← hinv.root, ← hinv.settled.eq_walked]
  refine ⟨hfresh, fun it hit => ?_⟩
  rw [hfresh, Vmiter.check_eq_ok] at hit
  rw [hit.2]
  exact ⟨rfl, rfl, rfl, rfl, rfl, rfl, rfl⟩

/-- A run from an empty table that maps the page at 0x5000, leaves it and comes back. -/
def sampleOps : List VmiterOp :=
  [.find 0x5000#64, .tryMap 0x7000#64 7#32, .next, .nextRange, .retreat 0x2000#64]

def sampleFree : List PagePtr :=
  [⟨0x2000#64, by decide⟩, ⟨0x3000#64, by decide⟩, ⟨0x4000#64, by decide⟩]

theorem vmiter_run_eq_new_sample : ∃ s : MapState, s.it.va_ = 0x5000#64 ∧ s.it.level_ = 0 ∧
    Vmiter.new s.mem sampleTable 0x5000#64 = Vmiter.check s.mem s.it := by
  have hnew : Vmiter.new emptyMemory sampleTable 0#64 =
      .ok ⟨sampleTable, .entry 0x1000#64, 3, initialPerm, 0#64⟩ := by decide
  have hsample : (MapState.run ⟨emptyMemory, sampleFree,
      ⟨sampleTable, .entry 0x1000#64, 3, initialPerm, 0#64⟩⟩ sampleOps).map
      (fun s => (s.it.va_, s.it.level_)) = .ok (0x5000#64, 0) := by decide
  cases hrun : MapState.run ⟨emptyMemory, sampleFree,
      ⟨sampleTable, .entry 0x1000#64, 3, initialPerm, 0#64⟩⟩ sampleOps with
  | error e =>
    rw [hrun] at hsample
    exact absurd hsample (by simp [Except.map])
  | ok s =>
    rw [hrun, Except.map, Except.ok.injEq, Prod.mk.injEq] at hsample
    have hfresh := (vmiter_run_eq_new emptyMemory sampleTable sampleFree rfl (emptyMemory_tree sampleTable) (by decide)
      (fun p hp => emptyMemory_unused (by rintro rfl; revert hp; decide)) 0#64 _ hnew sampleOps s hrun).1
    rw [hsample.1] at hfresh
    exact ⟨s, hsample.1, hsample.2, hfresh⟩

end Cs300Projects.WeensyOS
