import Cs300Projects.WeensyOS.Vmiter
import Mathlib.Data.BitVec

/-!
# The walk behind a cached iterator

`Slot m pt va l r perm` says that the walk of `va` from the root `pt` consults the entry `r` at
level `l`, below entries whose permissions intersect to `perm`. An iterator is settled when its
cached fields are the last slot of the walk of its address. Settled iterators are exactly the
results of a walk from the root, and `real_find` keeps them settled by its short cut.
-/

namespace Cs300Projects.WeensyOS
open BitField

def topEntry (pt : PagePtr) (va : Word) : EntryPtr :=
  if vaIsCanonical va then .entry (pt.entry (pageindex va 3)) else .zeroPe

def topPerm (va : Word) : BitVec 32 := if vaIsCanonical va then initialPerm else 0#32

inductive Slot (m : Memory) (pt : PagePtr) (va : Word) : Nat → EntryPtr → BitVec 32 → Prop where
  | top : Slot m pt va 3 (topEntry pt va) (topPerm va)
  | down {l : Nat} {r : EntryPtr} {perm : BitVec 32} (h : Slot m pt va (l + 1) r perm)
      (ht : IsTable (m.read r)) :
      Slot m pt va l (.entry ((tableOf (m.read r)).entry (pageindex va l))) (andPerm perm (m.read r))

section Slots

variable {m : Memory} {pt : PagePtr} {va va' : Word} {l k : Nat} {r r' : EntryPtr}
  {perm perm' : BitVec 32}

lemma Slot.level_le (h : Slot m pt va l r perm) : l ≤ 3 := by
  induction h with
  | top => exact le_rfl
  | down _ _ ih => omega

lemma Slot.of_lt (h : Slot m pt va l r perm) (hl : l < 3) : ∃ r' perm', Slot m pt va (l + 1) r' perm' ∧
    IsTable (m.read r') ∧ r = .entry ((tableOf (m.read r')).entry (pageindex va l)) ∧
    perm = andPerm perm' (m.read r') := by
  cases h with
  | top => omega
  | down h ht => exact ⟨_, _, h, ht, rfl, rfl⟩

lemma Slot.unique (h : Slot m pt va l r perm) (h' : Slot m pt va l r' perm') :
    r = r' ∧ perm = perm' := by
  induction h generalizing r' perm' with
  | top =>
    cases h' with
    | top => exact ⟨rfl, rfl⟩
    | down h' _ =>
      have := h'.level_le
      omega
  | down h _ ih =>
    have hl := h.level_le
    obtain ⟨s, q, hs, _, rfl, rfl⟩ := h'.of_lt (by omega)
    obtain ⟨rfl, rfl⟩ := ih hs
    exact ⟨rfl, rfl⟩

/-- Every level above a slot has a slot, which refers to a table. -/
lemma Slot.above (h : Slot m pt va l r perm) (hlk : l < k) (hk : k ≤ 3) :
    ∃ r' perm', Slot m pt va k r' perm' ∧ IsTable (m.read r') := by
  induction h with
  | top => omega
  | @down l r perm h ht ih =>
    rcases Nat.lt_or_ge (l + 1) k with hlt | hge
    · exact ih hlt
    · obtain rfl : k = l + 1 := by omega
      exact ⟨r, perm, h, ht⟩

lemma Slot.congr (h : Slot m pt va l r perm)
    (hb : va.toNat / pageSpan l = va'.toNat / pageSpan l) : Slot m pt va' l r perm := by
  induction h with
  | top =>
    have htop : topEntry pt va = topEntry pt va' := by
      rw [topEntry, topEntry, vaIsCanonical_congr hb, pageindex_congr hb]
    have hperm : topPerm va = topPerm va' := by rw [topPerm, topPerm, vaIsCanonical_congr hb]
    rw [htop, hperm]
    exact .top
  | down h ht ih =>
    rw [pageindex_congr hb]
    exact .down (ih (same_block_mono (Nat.le_succ _) hb)) ht

lemma Slot.zeroPe_level (h : Slot m pt va l .zeroPe perm) : l = 3 := by
  by_contra hl
  have := h.level_le
  obtain ⟨_, _, _, _, he, _⟩ := h.of_lt (by omega)
  exact EntryPtr.noConfusion he

/-- The slots of a canonical address are entries of the tables on its index path. -/
lemma Slot.tableAt (h : Slot m pt va l r perm) (hc : vaIsCanonical va = true) :
    ∃ t, tableAt m pt (vaPath va l) = some t ∧ r = .entry (t.entry (pageindex va l)) := by
  induction h with
  | top => exact ⟨pt, rfl, by rw [topEntry, if_pos hc]⟩
  | @down l r perm h ht ih =>
    have hl := h.level_le
    obtain ⟨t, hpath, rfl⟩ := ih
    refine ⟨tableOf (m.word (t.entry (pageindex va (l + 1)))), ?_, rfl⟩
    rw [vaPath_succ va (by omega), tableAt_snoc_iff]
    exact ⟨t, hpath, ht, rfl⟩

end Slots

/-! ### Settled iterators -/

namespace Vmiter

/-- The cached fields are a slot of the walk of `va_`. -/
def OnWalk (m : Memory) (it : Vmiter) : Prop := Slot m it.pt_ it.va_ it.level_ it.pep_ it.perm_

/-- The cached fields are the last slot of the walk of `va_`. -/
structure Settled (m : Memory) (it : Vmiter) : Prop where
  onWalk : it.OnWalk m
  last : 0 < it.level_ → ¬IsTable (m.read it.pep_)

@[simp] lemma descend_pt (m : Memory) (fuel : Nat) (it : Vmiter) :
    (descend m fuel it).pt_ = it.pt_ := by
  induction fuel generalizing it with
  | zero => rfl
  | succ fuel ih =>
    rw [descend]
    split
    · rw [ih]
    · rfl

@[simp] lemma descend_va (m : Memory) (fuel : Nat) (it : Vmiter) :
    (descend m fuel it).va_ = it.va_ := by
  induction fuel generalizing it with
  | zero => rfl
  | succ fuel ih =>
    rw [descend]
    split
    · rw [ih]
    · rfl

lemma descend_settled {m : Memory} {it : Vmiter} (h : it.OnWalk m) :
    (descend m it.level_ it).Settled m := by
  obtain ⟨n, hn⟩ : ∃ n, it.level_ = n := ⟨_, rfl⟩
  rw [hn]
  induction n generalizing it with
  | zero => exact ⟨h, fun hpos => absurd hpos (by rw [descend, hn]; omega)⟩
  | succ n ih =>
    rw [descend]
    by_cases ht : IsTable (m.read it.pep_)
    · rw [if_pos ht]
      apply ih
      · rw [OnWalk, hn] at h
        exact h.down ht
      · rfl
    · rw [if_neg ht]
      exact ⟨h, fun _ => ht⟩

lemma Settled.eq {m : Memory} {it it' : Vmiter} (h : it.Settled m) (h' : it'.Settled m)
    (hpt : it.pt_ = it'.pt_) (hva : it.va_ = it'.va_) : it = it' := by
  have hw := h.onWalk
  have hw' := h'.onWalk
  rw [OnWalk, hpt, hva] at hw
  rw [OnWalk] at hw'
  have hlevel : it.level_ = it'.level_ := by
    rcases Nat.lt_trichotomy it.level_ it'.level_ with hlt | heq | hgt
    · obtain ⟨r, perm, hr, ht⟩ := hw.above hlt hw'.level_le
      rw [(hr.unique hw').1] at ht
      exact absurd ht (h'.last (by omega))
    · exact heq
    · obtain ⟨r, perm, hr, ht⟩ := hw'.above hgt hw.level_le
      rw [(hr.unique hw).1] at ht
      exact absurd ht (h.last (by omega))
  rw [hlevel] at hw
  obtain ⟨hpep, hperm⟩ := hw.unique hw'
  cases it
  cases it'
  simp_all

/-! ### The walk from the root -/

/-- The iterator that a walk from the root leaves, before the test for uninitialized memory. -/
def walked (m : Memory) (pt : PagePtr) (va : Word) : Vmiter :=
  descend m 3 ⟨pt, topEntry pt va, 3, topPerm va, va⟩

lemma walked_settled (m : Memory) (pt : PagePtr) (va : Word) : (walked m pt va).Settled m := by
  have htop : OnWalk m ⟨pt, topEntry pt va, 3, topPerm va, va⟩ := Slot.top
  exact descend_settled htop

@[simp] lemma walked_pt (m : Memory) (pt : PagePtr) (va : Word) : (walked m pt va).pt_ = pt :=
  descend_pt m 3 _

@[simp] lemma walked_va (m : Memory) (pt : PagePtr) (va : Word) : (walked m pt va).va_ = va :=
  descend_va m 3 _

lemma Settled.eq_walked {m : Memory} {it : Vmiter} (h : it.Settled m) :
    it = walked m it.pt_ it.va_ :=
  h.eq (walked_settled m it.pt_ it.va_) (walked_pt _ _ _).symm (walked_va _ _ _).symm

lemma new_eq (m : Memory) (pt : PagePtr) (va : Word) : new m pt va = check m (walked m pt va) := by
  rw [new, realFind, if_pos (Or.inl rfl)]
  cases hc : vaIsCanonical va <;> simp [down, walked, topEntry, topPerm, hc]

lemma check_eq_ok {m : Memory} {it it' : Vmiter} : check m it = .ok it' ↔
    ¬0x100000000#64 ≤ m.read it.pep_ &&& ptePamask ∧ it' = it := by
  rw [check]
  by_cases h : 0x100000000#64 ≤ m.read it.pep_ &&& ptePamask
  · simp [h]
  · simp [h, eq_comm]

lemma new_settled {m : Memory} {pt : PagePtr} {va : Word} {it : Vmiter}
    (h : new m pt va = .ok it) : it.Settled m ∧ it.pt_ = pt ∧ it.va_ = va := by
  rw [new_eq, check_eq_ok] at h
  rw [h.2]
  exact ⟨walked_settled m pt va, walked_pt m pt va, walked_va m pt va⟩

/-! ### The short cut -/

lemma index_entry (t : PagePtr) {i : Nat} (hi : i < 512) : (EntryPtr.entry (t.entry i)).index = i := by
  have hmask : pageoffmaskBase = lowMask 64 12 := rfl
  have := t.toNat_entry hi
  have := t.addr_mod
  rw [EntryPtr.index, hmask, BitVec.toNat_ushiftRight, toNat_and_lowMask (by norm_num),
    Nat.shiftRight_eq_div_pow]
  omega

lemma add_entry (t : PagePtr) {i j : Nat} :
    (EntryPtr.entry (t.entry i)).add ((j : Int) - i) = .entry (t.entry j) := by
  rw [EntryPtr.add, PagePtr.entry, PagePtr.entry, sub_eq_add_neg, BitVec.ofInt_add, BitVec.ofInt_neg,
    BitVec.ofInt_natCast, BitVec.ofInt_natCast]
  congr 1
  ring

/-- From a settled iterator `real_find` is a walk from the root, whichever branch it takes. -/
theorem realFind_eq_new {m : Memory} {it : Vmiter} (h : it.Settled m) (va : Word) :
    it.realFind m va = new m it.pt_ va := by
  by_cases hfar : it.level_ = 3 ∨ (it.va_ ^^^ va) &&& ~~~pageoffmask (it.level_ + 1) ≠ 0#64
  · rw [new_eq, realFind, if_pos hfar]
    cases hc : vaIsCanonical va <;> simp [down, walked, topEntry, topPerm, hc]
  · obtain ⟨hlevel, hnear⟩ := not_or.mp hfar
    rw [not_not] at hnear
    have hle := h.onWalk.level_le
    rw [same_block_iff (by omega)] at hnear
    obtain ⟨r, perm, hr, ht, hpep, hperm⟩ := h.onWalk.of_lt (by omega)
    -- the slot above is shared, so moving the pointer gives the slot of `va`
    have hslot : Slot m it.pt_ va it.level_
        (.entry ((tableOf (m.read r)).entry (pageindex va it.level_))) it.perm_ := by
      rw [hperm]
      exact (hr.congr hnear).down ht
    have hmoved : it.pep_.add ((pageindex va it.level_ : Int) - it.pep_.index) =
        .entry ((tableOf (m.read r)).entry (pageindex va it.level_)) := by
      rw [hpep, index_entry _ (pageindex_lt _ _), add_entry]
    rw [new_eq, realFind, if_neg hfar, hmoved, down]
    have hwalk : OnWalk m { it with
        pep_ := .entry ((tableOf (m.read r)).entry (pageindex va it.level_)), va_ := va } := hslot
    rw [(descend_settled hwalk).eq_walked]
    simp

end Vmiter

end Cs300Projects.WeensyOS
