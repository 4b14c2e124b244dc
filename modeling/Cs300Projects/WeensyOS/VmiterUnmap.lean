import Cs300Projects.WeensyOS.VmiterTryMap

/-!
# Unmapping

`try_map` without `PTE_P`. With permissions of zero it installs no tables and reports success wherever the
walk has stopped, so that a large page stays mapped; in every other case the page is unmapped and nothing
else changes.
-/

namespace Cs300Projects.WeensyOS
open BitField

/-! ### What a call of try_map has tested and done -/

/-- The address that is mapped: `pa` is ignored when -1 is unmapped. -/
def mapPa (pa : Word) (perm : BitVec 32) : Word := if pa = -1#64 ∧ perm = 0#32 then 0#64 else pa

/-- The assertions of `try_map`. -/
structure MapAsserts (pa : Word) (perm : BitVec 32) (s : MapState) : Prop where
  aligned : s.it.va_ &&& pageoffmaskBase = 0#64
  address : perm.signExtend 64 &&& pteP ≠ 0#64 → mapPa pa perm ≠ -1#64 ∧ mapPa pa perm &&& ptePamask = mapPa pa perm
  absent : perm.signExtend 64 &&& pteP = 0#64 → mapPa pa perm &&& pteP = 0#64
  flags : (perm &&& ~~~s.it.perm_).signExtend 64 &&& (pteP ||| pteW ||| pteU) = 0#64

/-- The result of `try_map` once its tables are installed. -/
def mapLeaf (pa : Word) (perm : BitVec 32) : Bool × MapState → Int × MapState
  | (false, s) => (-1, s)
  | (true, s) =>
    (0, if s.it.level_ = 0 then { s with mem := s.mem.write s.it.pep_ (mapPa pa perm ||| perm.signExtend 64) } else s)

lemma tryMap_eq_map {pa : Word} {perm : BitVec 32} {s : MapState} (h : MapAsserts pa perm s) :
    tryMap pa perm s = (installTables perm s.it.level_ s).map (mapLeaf pa perm) := by
  unfold tryMap
  dsimp only
  rw [show (if pa = -1#64 ∧ perm = 0#32 then 0#64 else pa) = mapPa pa perm from rfl,
    if_neg (not_not.2 h.aligned), if_neg (fun hpa => (h.address hpa.1).1 hpa.2),
    if_neg (fun hpa => hpa.2 (h.address hpa.1).2), if_neg (fun hpa => hpa.2 (h.absent hpa.1)),
    if_neg (not_not.2 h.flags)]
  cases installTables perm s.it.level_ s with
  | error e => rfl
  | ok t =>
    obtain ⟨b, s₁⟩ := t
    cases b with
    | false => rfl
    | true =>
      by_cases hlevel : s₁.it.level_ = 0
      · simp [Except.map, mapLeaf, hlevel]
      · simp [Except.map, mapLeaf, hlevel]

lemma tryMap_eq_ok_iff {pa : Word} {perm : BitVec 32} {s : MapState} {r : Int × MapState} :
    tryMap pa perm s = .ok r ↔ MapAsserts pa perm s ∧
      ∃ t, installTables perm s.it.level_ s = .ok t ∧ r = mapLeaf pa perm t := by
  constructor
  · intro h
    have hasserts : MapAsserts pa perm s := by
      unfold tryMap at h
      dsimp only at h
      rw [show (if pa = -1#64 ∧ perm = 0#32 then 0#64 else pa) = mapPa pa perm from rfl] at h
      split_ifs at h with h1 h2 h3 h4 h5
      exact ⟨not_not.1 h1, fun hP => ⟨fun hpa => h2 ⟨hP, hpa⟩, not_not.1 fun hpa => h3 ⟨hP, hpa⟩⟩,
        fun hP => not_not.1 fun hpa => h4 ⟨hP, hpa⟩, not_not.1 h5⟩
    rw [tryMap_eq_map hasserts] at h
    cases hi : installTables perm s.it.level_ s with
    | error e => simp [hi, Except.map] at h
    | ok t =>
      rw [hi, Except.map, Except.ok.injEq] at h
      exact ⟨hasserts, t, rfl, h.symm⟩
  · rintro ⟨hasserts, t, ht, rfl⟩
    rw [tryMap_eq_map hasserts, ht, Except.map]

lemma installTables_zero (fuel : Nat) (s : MapState) : installTables 0#32 fuel s = .ok (true, s) := by
  cases fuel with
  | zero => rfl
  | succ fuel =>
    rw [installTables, if_neg]
    simp

/-! ### Unmapped pages -/

/-- A fresh iterator at `va` finds nothing. -/
def Unmapped (m : Memory) (pt : PagePtr) (va : Word) : Prop :=
  ∃ it, Vmiter.new m pt va = .ok it ∧ it.present m = false ∧ it.perm m = 0#64

/-- The walk of the iterator has stopped at a large page. -/
def OnLargePage (m : Memory) (it : Vmiter) : Prop := 0 < it.level_ ∧ it.present m = true

section Unmap

variable {m : Memory} {pt : PagePtr} {va pa : Word} {perm : BitVec 32} {s : MapState}

lemma Vmiter.Settled.unmapped {it : Vmiter} (h : it.Settled m) (hP : (m.read it.pep_).getLsbD 0 = false)
    (hlow : ¬0x100000000#64 ≤ m.read it.pep_ &&& ptePamask) : Unmapped m it.pt_ it.va_ := by
  have hnew : Vmiter.new m it.pt_ it.va_ = .ok it := by
    rw [Vmiter.new_eq, ← h.eq_walked, Vmiter.check_eq_ok]
    exact ⟨hlow, rfl⟩
  refine ⟨it, hnew, by rw [Vmiter.present_eq, hP], ?_⟩
  rw [Vmiter.perm, if_neg]
  rw [and_pteP_ne_zero_iff, hP]
  exact Bool.false_ne_true

lemma mapPa_zero_iff (pa : Word) : mapPa pa 0#32 &&& pteP = 0#64 ↔ pa = -1#64 ∨ pa.getLsbD 0 = false := by
  unfold mapPa
  by_cases hpa : pa = -1#64
  · simp [hpa]
  · have hiff := and_pteP_ne_zero_iff pa
    rw [if_neg (fun h => hpa h.1), ← not_iff_not, ← Ne, hiff, not_or, Bool.not_eq_false]
    exact ⟨fun hbit => ⟨hpa, hbit⟩, fun h => h.2⟩

/-- The entry that unmaps a page is not present and names no address above 4 GiB. -/
lemma unmap_entry (hpa : pa.toNat < 2 ^ 32 ∨ pa = -1#64) (hperm : perm.toNat < 4096)
    (hP : perm.getLsbD 0 = false) (hasserts : MapAsserts pa perm s) :
    (mapPa pa perm ||| perm.signExtend 64).getLsbD 0 = false ∧
      ¬0x100000000#64 ≤ (mapPa pa perm ||| perm.signExtend 64) &&& ptePamask := by
  have hperm64 : (perm.signExtend 64).getLsbD 0 = false := by rw [getLsbD_signExtend_perm _ (by norm_num), hP]
  have hpaP : (mapPa pa perm).getLsbD 0 = false := by
    by_contra hbit
    rw [Bool.not_eq_false, ← and_pteP_ne_zero_iff] at hbit
    refine hbit (hasserts.absent ?_)
    by_contra hne
    exact Bool.false_ne_true (hperm64.symm.trans ((and_pteP_ne_zero_iff _).1 hne))
  refine ⟨by rw [BitVec.getLsbD_or, hpaP, hperm64, Bool.false_or], ?_⟩
  have hmap : (mapPa pa perm).toNat < 2 ^ 32 := by
    unfold mapPa at hpaP ⊢
    by_cases hzero : pa = -1#64 ∧ perm = 0#32
    · rw [if_pos hzero]
      exact Nat.two_pow_pos 32
    · rw [if_neg hzero] at hpaP ⊢
      cases hpa with
      | inl hlt => exact hlt
      | inr heq =>
        rw [heq] at hpaP
        exact absurd hpaP (by decide)
  have hwide : (perm.signExtend 64).toNat < 2 ^ 32 := by
    have hmsb : perm.msb = false := by
      rw [BitVec.msb_eq_false_iff_two_mul_lt]
      omega
    rw [BitVec.signExtend_eq_setWidth_of_msb_false hmsb, BitVec.toNat_setWidth]
    omega
  have hor : (mapPa pa perm ||| perm.signExtend 64).toNat < 2 ^ 32 := by
    rw [BitVec.toNat_or]
    exact Nat.or_lt_two_pow hmap hwide
  have hand : ((mapPa pa perm ||| perm.signExtend 64) &&& ptePamask).toNat ≤
      (mapPa pa perm ||| perm.signExtend 64).toNat := by
    rw [BitVec.toNat_and]
    exact Nat.and_le_left
  rw [BitVec.le_def, BitVec.toNat_ofNat]
  omega

/-- A call that has come to level 0 unmaps the page and nothing else. -/
lemma MapState.TreeInv.unmap_leaf (h : s.TreeInv pt va) (hc : vaIsCanonical va = true) (hlevel : s.it.level_ = 0)
    {e : Word} (hP : e.getLsbD 0 = false) (hlow : ¬0x100000000#64 ≤ e &&& ptePamask) :
    Unmapped (s.mem.write s.it.pep_ e) pt va ∧
      ∀ va', va'.toNat / 4096 ≠ va.toNat / 4096 → SameView s.mem (s.mem.write s.it.pep_ e) pt va' := by
  have hleaf := (h.inv.writeLeaf hlevel e).settled
  have hunmapped := hleaf.unmapped (by rw [Memory.read_write_self]; exact hP)
    (by rw [Memory.read_write_self]; exact hlow)
  rw [h.root, h.at_va] at hunmapped
  exact ⟨hunmapped, fun va' hva' => h.sameView_write_leaf hc hlevel e hva'⟩

/-- A call that stops above level 0, at nothing. -/
lemma MapState.TreeInv.unmapped (h : s.TreeInv pt va) (hpresent : s.it.present s.mem = false) : Unmapped s.mem pt va := by
  rw [Vmiter.present_eq] at hpresent
  have hunmapped := h.settled.unmapped hpresent h.low
  rwa [h.root, h.at_va] at hunmapped

end Unmap

/-- A call of `try_map` without `PTE_P` that returns 0 has unmapped the page of `va` and nothing else, exactly
when it is not one with permissions of zero on a large page. -/
theorem tryMap_unmaps_iff (m : Memory) (pt : PagePtr) (free : List PagePtr) (hz : m.zeroPe = 0#64)
    (htree : TablesFormTree m pt) (hnodup : free.Nodup) (hfree : ∀ p ∈ free, ¬UsedAsTable m pt p)
    (va pa : Word) (perm : BitVec 32) (hva : va.toNat % 4096 = 0) (hc : vaIsCanonical va = true)
    (hpa : pa.toNat < 2 ^ 32 ∨ pa = -1#64) (hperm : perm.toNat < 4096) (hP : perm.getLsbD 0 = false)
    (it : Vmiter) (hnew : Vmiter.new m pt va = .ok it) :
    (∀ s', tryMap pa perm ⟨m, free, it⟩ = .ok (0, s') → Unmapped s'.mem pt va ∧
      ∀ va', va'.toNat / 4096 ≠ va.toNat / 4096 → SameView m s'.mem pt va') ↔
    ¬(perm = 0#32 ∧ (pa = -1#64 ∨ pa.getLsbD 0 = false) ∧ OnLargePage m it) := by
  obtain ⟨hsettled, hpt, hitva⟩ := Vmiter.new_settled hnew
  have hlow := hnew
  rw [Vmiter.new_eq, Vmiter.check_eq_ok] at hlow
  have hinit : MapState.TreeInv pt va ⟨m, free, it⟩ :=
    ⟨hsettled, hpt, hitva, by rw [hlow.2]; exact hlow.1, hz, htree, hnodup, hfree⟩
  constructor
  · rintro hunmaps ⟨rfl, habsent, hlevel, hpresent⟩
    have hasserts : MapAsserts pa 0#32 ⟨m, free, it⟩ := by
      refine ⟨?_, fun hne => absurd hne (by decide), fun _ => (mapPa_zero_iff pa).2 habsent, by simp⟩
      apply BitVec.eq_of_toNat_eq
      dsimp only
      rw [hitva, show pageoffmaskBase = lowMask 64 12 from rfl, toNat_and_lowMask (by norm_num)]
      exact hva
    have hmap : tryMap pa 0#32 ⟨m, free, it⟩ = .ok (0, ⟨m, free, it⟩) := by
      rw [tryMap_eq_ok_iff]
      refine ⟨hasserts, _, installTables_zero _ _, ?_⟩
      rw [mapLeaf, if_neg (by dsimp only; omega)]
    obtain ⟨⟨it', hit', hpresent', _⟩, _⟩ := hunmaps _ hmap
    dsimp only at hit' hpresent'
    rw [hnew, Except.ok.injEq] at hit'
    rw [← hit', hpresent] at hpresent'
    cases hpresent'
  · intro hnot s' hmap
    rw [tryMap_eq_ok_iff] at hmap
    obtain ⟨hasserts, ⟨b, s₁⟩, hinstall, hresult⟩ := hmap
    cases b with
    | false => simp [mapLeaf] at hresult
    | true =>
      rw [mapLeaf, Prod.mk.injEq] at hresult
      obtain ⟨hbit, hlow'⟩ := unmap_entry hpa hperm hP hasserts
      by_cases hzero : perm = 0#32
      · rw [hzero, installTables_zero, Except.ok.injEq, Prod.mk.injEq] at hinstall
        rw [← hinstall.2] at hresult
        by_cases hlevel : it.level_ = 0
        · rw [if_pos hlevel] at hresult
          rw [hresult.2]
          exact hinit.unmap_leaf hc hlevel hbit hlow'
        · rw [if_neg hlevel] at hresult
          rw [hresult.2]
          refine ⟨hinit.unmapped ?_, fun _ _ => ⟨rfl, rfl⟩⟩
          by_contra hpresent
          have habsent := hasserts.absent (by rw [hzero]; decide)
          exact hnot ⟨hzero, (mapPa_zero_iff pa).1 (hzero ▸ habsent), by omega, Bool.not_eq_false _ ▸ hpresent⟩
      · obtain ⟨hinv, hlevel, _, hview⟩ := hinit.installTables hc hzero le_rfl hinstall
        rw [if_pos hlevel] at hresult
        rw [hresult.2]
        obtain ⟨hunmapped, hothers⟩ := hinv.unmap_leaf hc hlevel hbit hlow'
        exact ⟨hunmapped, fun va' hva' => (hview va').trans (hothers va' hva')⟩

/-- A page table at 0x1000 that maps the pages at 0x5000 and 0x6000. -/
def twoPages : Memory where
  word := fun a =>
    if a = 0x1000#64 then 0x2007#64
    else if a = 0x2000#64 then 0x3007#64
    else if a = 0x3000#64 then 0x4007#64
    else if a = 0x4028#64 then 0x7007#64
    else if a = 0x4030#64 then 0x8007#64
    else 0#64
  zeroPe := 0#64

/-- The tables follow each other in memory, and each is linked by the first entry of the one before. -/
lemma twoPages_tableAt {q : List (Fin 512)} {t : PagePtr} (hq : q.length ≤ 3) (h : tableAt twoPages sampleTable q = some t) :
    q = List.replicate q.length 0 ∧ t.addr.toNat = 0x1000 * (q.length + 1) := by
  induction q using List.reverseRecOn generalizing t with
  | nil =>
    rw [tableAt, Option.some.injEq] at h
    rw [← h]
    exact ⟨rfl, rfl⟩
  | append_singleton q i ih =>
    rw [List.length_append, List.length_singleton] at hq ⊢
    rw [tableAt_snoc_iff] at h
    obtain ⟨r, hr, htable, rfl⟩ := h
    obtain ⟨hzeros, haddr⟩ := ih (by omega) hr
    have hentry := r.toNat_entry i.isLt
    have hne : ∀ c : Nat, c < 2 ^ 64 → r.addr.toNat + 8 * i.val ≠ c → r.entry i ≠ BitVec.ofNat 64 c := by
      intro c hc hdiff heq
      rw [heq, BitVec.toNat_ofNat, Nat.mod_eq_of_lt hc] at hentry
      exact hdiff hentry.symm
    have hlt := i.isLt
    -- behind the first entry of one of the first three tables there is nothing
    have hi : i.val = 0 := by
      by_contra hpos
      refine absurd htable ?_
      rw [twoPages]
      dsimp only
      rw [if_neg (hne 0x1000 (by decide) (by omega)), if_neg (hne 0x2000 (by decide) (by omega)),
        if_neg (hne 0x3000 (by decide) (by omega)), if_neg (hne 0x4028 (by decide) (by omega)),
        if_neg (hne 0x4030 (by decide) (by omega))]
      exact not_isTable_zero
    obtain rfl : i = 0 := Fin.ext hi
    have hfirst : r.entry (0 : Fin 512) = BitVec.ofNat 64 (0x1000 * (q.length + 1)) := by
      apply BitVec.eq_of_toNat_eq
      rw [hentry, haddr, BitVec.toNat_ofNat, Nat.mod_eq_of_lt (by omega)]
      rfl
    refine ⟨?_, ?_⟩
    · rw [List.replicate_succ', ← hzeros]
    · rw [hfirst]
      obtain hlen | hlen | hlen : q.length = 0 ∨ q.length = 1 ∨ q.length = 2 := by omega
      all_goals
        rw [hlen]
        decide

lemma twoPages_tree : TablesFormTree twoPages sampleTable := by
  intro p q t hp hq h h'
  obtain ⟨hzeros, haddr⟩ := twoPages_tableAt hp h
  obtain ⟨hzeros', haddr'⟩ := twoPages_tableAt hq h'
  have hlength : p.length = q.length := by omega
  rw [hzeros, hzeros', hlength]

/-- The page at 0x5000 is unmapped, the one at 0x6000 is not. -/
theorem tryMap_unmaps_sample : ∃ (it : Vmiter) (s' : MapState),
    Vmiter.new twoPages sampleTable 0x5000#64 = .ok it ∧ it.pa twoPages = 0x7000#64 ∧
      tryMap (-1#64) 0#32 ⟨twoPages, [], it⟩ = .ok (0, s') ∧ Unmapped s'.mem sampleTable 0x5000#64 ∧
        mmuTranslate s'.mem sampleTable 0x6000#64 = some 0x8000#64 := by
  have hnew : Vmiter.new twoPages sampleTable 0x5000#64 = .ok ⟨sampleTable, .entry 0x4028#64, 0, 7#32, 0x5000#64⟩ := by
    decide
  have hmap : tryMap (-1#64) 0#32 ⟨twoPages, [], ⟨sampleTable, .entry 0x4028#64, 0, 7#32, 0x5000#64⟩⟩ =
      .ok (0, ⟨twoPages.write (.entry 0x4028#64) 0#64, [], ⟨sampleTable, .entry 0x4028#64, 0, 7#32, 0x5000#64⟩⟩) := rfl
  obtain ⟨hunmapped, hothers⟩ := (tryMap_unmaps_iff twoPages sampleTable [] rfl twoPages_tree List.nodup_nil (by simp)
    0x5000#64 (-1#64) 0#32 (by decide) (by decide) (Or.inr rfl) (by decide) (by decide) _ hnew).2
    (fun hlarge => absurd hlarge.2.2.1 (by decide)) _ hmap
  exact ⟨_, _, hnew, by decide, hmap, hunmapped, (hothers 0x6000#64 (by decide)).2.trans (by decide)⟩

/-- A page table at 0x1000 with a 1 GiB page at 0. -/
def largeMemory : Memory :=
  (emptyMemory.link (.entry (sampleTable.entry (0 : Fin 512))) ⟨0xB000#64, by decide⟩).write (.entry 0xB000#64) 0x87#64

/-- An entry that refers to no table takes tables away. -/
lemma tableAt_write_of_not_isTable {m : Memory} {pt s : PagePtr} {r : EntryPtr} {e : Word} (he : ¬IsTable e)
    {q : List (Fin 512)} (h : tableAt (m.write r e) pt q = some s) : tableAt m pt q = some s := by
  induction q using List.reverseRecOn generalizing s with
  | nil => exact h
  | append_singleton q i ih =>
    rw [tableAt_snoc_iff] at h ⊢
    obtain ⟨t, ht, htable, hs⟩ := h
    have hne : EntryPtr.entry (t.entry i) ≠ r := by
      rintro rfl
      have hread := Memory.read_write_self m (.entry (t.entry i)) e
      rw [Memory.read_entry] at hread
      rw [hread] at htable
      exact he htable
    have hread := Memory.read_write_of_ne m hne e
    rw [Memory.read_entry, Memory.read_entry] at hread
    rw [hread] at htable hs
    exact ⟨t, ih ht, htable, hs⟩

lemma largeMemory_tree : TablesFormTree largeMemory sampleTable := by
  have hunused : ¬UsedAsTable emptyMemory sampleTable ⟨0xB000#64, by decide⟩ := emptyMemory_unused (by decide)
  have hlink : TablesFormTree (emptyMemory.link (.entry (sampleTable.entry (0 : Fin 512))) ⟨0xB000#64, by decide⟩)
      sampleTable :=
    (emptyMemory_tree sampleTable).link hunused (show ([] : List (Fin 512)).length ≤ 2 by norm_num) rfl
  intro p q t hp hq h h'
  exact hlink p q t hp hq (tableAt_write_of_not_isTable (by decide) h) (tableAt_write_of_not_isTable (by decide) h')

/-- Unmapping an address in a large page reports success. -/
theorem tryMap_unmaps_fails : ¬ ∀ (m : Memory) (pt : PagePtr) (free : List PagePtr) (va pa : Word) (perm : BitVec 32)
    (it : Vmiter) (s' : MapState), m.zeroPe = 0#64 → TablesFormTree m pt → free.Nodup →
    (∀ p ∈ free, ¬UsedAsTable m pt p) → va.toNat % 4096 = 0 → vaIsCanonical va = true →
    (pa.toNat < 2 ^ 32 ∨ pa = -1#64) → perm.toNat < 4096 → perm.getLsbD 0 = false → Vmiter.new m pt va = .ok it →
    tryMap pa perm ⟨m, free, it⟩ = .ok (0, s') → Unmapped s'.mem pt va := by
  intro h
  have hnew : Vmiter.new largeMemory sampleTable 0x5000#64 =
      .ok ⟨sampleTable, .entry 0xB000#64, 2, 7#32, 0x5000#64⟩ := by decide
  have hmap : tryMap (-1#64) 0#32 ⟨largeMemory, [], ⟨sampleTable, .entry 0xB000#64, 2, 7#32, 0x5000#64⟩⟩ =
      .ok (0, ⟨largeMemory, [], ⟨sampleTable, .entry 0xB000#64, 2, 7#32, 0x5000#64⟩⟩) := rfl
  obtain ⟨it, hit, hpresent, _⟩ := h _ _ _ _ _ _ _ _ rfl largeMemory_tree List.nodup_nil (by simp) (by decide)
    (by decide) (Or.inr rfl) (by decide) (by decide) hnew hmap
  dsimp only at hit hpresent
  rw [hnew, Except.ok.injEq] at hit
  rw [← hit] at hpresent
  exact absurd hpresent (by decide)

end Cs300Projects.WeensyOS
