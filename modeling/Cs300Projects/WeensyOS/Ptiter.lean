import Cs300Projects.Lib.Loop
import Cs300Projects.WeensyOS.PageTable

/-!
# `ptiter`: the page table page iterator

The class `ptiter` of `k-vmiter.hh` and `k-vmiter.cc`, and the arithmetic of the ranges that its
positions cover. The entries that refer to tables are ordered by the end of their range, deeper
levels first; `down` moves to the first such entry at or after a given point of this order.
-/

namespace Cs300Projects.WeensyOS
open Loop

structure Ptiter where
  pt_ : PagePtr
  pep_ : Word
  level_ : Nat
  va_ : Word
  deriving DecidableEq

namespace Ptiter

/-- The iterator and the local variables of `down`. -/
structure DownState where
  it : Ptiter
  stopLevel : Nat
  skip : Bool

def downRound (m : Memory) (s : DownState) : Round DownState Ptiter :=
  if IsTable (m.word s.it.pep_) ∧ s.skip = false then
    if s.it.level_ = s.stopLevel then .done s.it
    else .next { s with it := { s.it with
      level_ := s.it.level_ - 1
      pep_ := (tableOf (m.word s.it.pep_)).entry (pageindex s.it.va_ (s.it.level_ - 1)) } }
  else
    let va := (s.it.va_ ||| pageoffmask s.it.level_) + 1#64
    if (va ^^^ s.it.va_) &&& ~~~pageoffmask (s.it.level_ + 1) ≠ 0#64 then
      -- up one level
      if s.it.level_ = 3 then .done { s.it with va_ := vaNoncanonmax + 1#64 }
      else .next {
        it := { s.it with level_ := 3, pep_ := s.it.pt_.entry (pageindex s.it.va_ 3) }
        stopLevel := s.it.level_ + 1
        skip := false }
    else .next { s with it := { s.it with pep_ := s.it.pep_ + 8#64, va_ := va }, skip := false }

def down (fuel : Nat) (m : Memory) (skip : Bool) (it : Ptiter) : Option Ptiter :=
  run (downRound m) fuel ⟨it, 1, skip⟩

def go (fuel : Nat) (m : Memory) (va : Word) (it : Ptiter) : Option Ptiter :=
  down fuel m false { it with level_ := 3, pep_ := it.pt_.entry (pageindex va 3), va_ := va }

/-- `ptiter(pt, va)` -/
def new (fuel : Nat) (m : Memory) (pt : PagePtr) (va : Word) : Option Ptiter :=
  go fuel m va ⟨pt, pt.addr, 3, 0#64⟩

def next (fuel : Nat) (m : Memory) (it : Ptiter) : Option Ptiter := down fuel m true it

def va (it : Ptiter) : Word := it.va_ &&& ~~~pageoffmask it.level_

def lastVa (it : Ptiter) : Word := (it.va_ ||| pageoffmask it.level_) + 1#64

def active (it : Ptiter) : Bool := decide (it.va_ ≤ vaNoncanonmax)

def low (it : Ptiter) : Bool := decide (it.va_ ≤ vaLowmax)

def level (it : Ptiter) : Nat := it.level_ - 1

def pa (m : Memory) (it : Ptiter) : Word := m.word it.pep_ &&& ptePamask

def kptr (m : Memory) (it : Ptiter) : PagePtr := tableOf (m.word it.pep_)

end Ptiter

/-! ### Ends of blocks -/

/-- The end of the block of `va` at a level. -/
def blockEnd (level : Nat) (va : Word) : Nat := (va.toNat / pageSpan level + 1) * pageSpan level

lemma pageSpan_dvd {l k : Nat} (h : l ≤ k) : pageSpan l ∣ pageSpan k :=
  Nat.pow_dvd_pow 2 (by omega)

lemma lt_blockEnd (level : Nat) (va : Word) : va.toNat < blockEnd level va := by
  rw [blockEnd, Nat.add_mul, Nat.one_mul, Nat.mul_comm]
  have := Nat.div_add_mod va.toNat (pageSpan level)
  have := Nat.mod_lt va.toNat (pageSpan_pos level)
  omega

/-- A block that ends above `va` ends at or above the end of any smaller block of `va`. -/
lemma blockEnd_le {l k : Nat} (hlk : l ≤ k) {va a : Word} (h : va.toNat < blockEnd k a) :
    blockEnd l va ≤ blockEnd k a := by
  obtain ⟨c, hc⟩ := Nat.dvd_trans (pageSpan_dvd hlk) (Nat.dvd_mul_left (pageSpan k) (a.toNat / pageSpan k + 1))
  rw [blockEnd, hc, Nat.mul_comm] at h
  rw [blockEnd, blockEnd, hc, Nat.mul_comm (pageSpan l)]
  apply Nat.mul_le_mul_right
  exact (Nat.div_lt_iff_lt_mul (pageSpan_pos l)).2 h

lemma same_block_of_blockEnd {l : Nat} {va a : Word} (h : blockEnd l va = blockEnd l a) :
    va.toNat / pageSpan l = a.toNat / pageSpan l := by
  have := Nat.eq_of_mul_eq_mul_right (pageSpan_pos l) h
  omega

/-- A smaller block that ends inside the block of `va`, after `va`, lies in it. -/
lemma same_block_of_end {l k : Nat} (hlk : l ≤ k) {va a : Word} (h1 : va.toNat < blockEnd l a)
    (h2 : blockEnd l a ≤ blockEnd k va) : a.toNat / pageSpan k = va.toNat / pageSpan k := by
  apply Nat.le_antisymm
  · have hlt := (Nat.div_lt_iff_lt_mul (pageSpan_pos k)).2 (lt_of_lt_of_le (lt_blockEnd l a) h2)
    omega
  · have hle := blockEnd_le hlk (lt_blockEnd k a)
    have hlt := (Nat.div_lt_iff_lt_mul (pageSpan_pos k)).2 (lt_of_lt_of_le h1 hle)
    omega

lemma blockEnd_le_end {l : Nat} (hl : l ≤ 3) {va : Word} (hva : va.toNat < 2 ^ 48) :
    blockEnd l va ≤ 2 ^ 48 := by
  rw [blockEnd]
  interval_cases l <;> simp only [pageSpan] <;> omega

/-- The point of an entry in the order of the visits: the end of its range, then its level. -/
def visitKey (level : Nat) (va : Word) : Nat := blockEnd level va * 4 + level

lemma visitKey_inj {l k : Nat} (hl : l ≤ 3) (hk : k ≤ 3) {va a : Word}
    (h : visitKey l va = visitKey k a) : l = k ∧ va.toNat / pageSpan l = a.toNat / pageSpan l := by
  rw [visitKey, visitKey] at h
  have hlk : l = k := by omega
  subst hlk
  exact ⟨rfl, same_block_of_blockEnd (by omega)⟩

lemma vaPath_congr {l : Nat} {va a : Word} (h : va.toNat / pageSpan (l + 1) = a.toNat / pageSpan (l + 1)) :
    vaPath va l = vaPath a l := by
  unfold vaPath
  apply List.map_congr_left
  intro k hk
  rw [List.mem_range] at hk
  exact Fin.ext (pageindex_congr (same_block_mono (by omega) h))

/-! ### Entries that refer to tables -/

/-- The entry at level `l` on the path of `a` is reached, and refers to the table `t`. -/
structure TableEntry (m : Memory) (pt : PagePtr) (l : Nat) (a : Word) (t : PagePtr) : Prop where
  pos : 1 ≤ l
  le : l ≤ 3
  lt : a.toNat < 2 ^ 48
  path : tableAt m pt (vaPath a (l - 1)) = some t

section Entries

variable {m : Memory} {pt t : PagePtr} {l k : Nat} {a va : Word}

lemma tableEntry_iff (hl : 1 ≤ l) (hl3 : l ≤ 3) (ha : a.toNat < 2 ^ 48) : TableEntry m pt l a t ↔
    ∃ s, tableAt m pt (vaPath a l) = some s ∧ IsTable (m.word (s.entry (pageindex a l))) ∧
      tableOf (m.word (s.entry (pageindex a l))) = t := by
  have hpath : vaPath a (l - 1) = vaPath a l ++ [vaIndex a l] := by
    rw [vaPath_succ a (show l - 1 < 3 by omega), show l - 1 + 1 = l by omega]
  constructor
  · intro h
    have hp := h.path
    rw [hpath, tableAt_snoc_iff] at hp
    exact hp
  · intro h
    refine ⟨hl, hl3, ha, ?_⟩
    rw [hpath, tableAt_snoc_iff]
    exact h

/-- Above an entry that refers to a table all entries refer to tables. -/
lemma TableEntry.above (h : TableEntry m pt l a t) (hlk : l ≤ k) (hk : k ≤ 3) :
    ∃ s, TableEntry m pt k a s := by
  induction k with
  | zero => exact absurd (h.pos.trans hlk) (by omega)
  | succ k ih =>
    rcases Nat.lt_or_ge k l with hlt | hge
    · have hkl : k + 1 = l := by omega
      rw [hkl]
      exact ⟨t, h⟩
    · obtain ⟨s, hs⟩ := ih hge (by omega)
      obtain ⟨r, hr, _⟩ := (tableEntry_iff hs.pos hs.le hs.lt).1 hs
      exact ⟨r, by omega, hk, hs.lt, hr⟩

lemma TableEntry.congr (h : TableEntry m pt l a t) (hva : va.toNat < 2 ^ 48)
    (hb : a.toNat / pageSpan l = va.toNat / pageSpan l) : TableEntry m pt l va t := by
  have hl := h.pos
  refine ⟨hl, h.le, hva, ?_⟩
  have hb' : a.toNat / pageSpan (l - 1 + 1) = va.toNat / pageSpan (l - 1 + 1) := by
    rw [show l - 1 + 1 = l by omega]
    exact hb
  rw [← vaPath_congr hb']
  exact h.path

end Entries

/-! ### The loop of `down` -/

namespace Ptiter

/-- The pointer refers to the entry of `va_` at the iterator's level. -/
structure OnPath (m : Memory) (pt : PagePtr) (it : Ptiter) : Prop where
  root : it.pt_ = pt
  pos : 1 ≤ it.level_
  le : it.level_ ≤ 3
  lt : it.va_.toNat < 2 ^ 48
  entry : ∃ t, tableAt m pt (vaPath it.va_ it.level_) = some t ∧
    it.pep_ = t.entry (pageindex it.va_ it.level_)

/-- The point from which the loop of `down` still looks for a table. -/
def DownState.point (s : DownState) : Nat :=
  if s.skip then visitKey s.it.level_ s.it.va_ + 1
  else if s.stopLevel = 1 then (s.it.va_.toNat + 1) * 4
  else visitKey s.stopLevel s.it.va_

/-- The loop of `down` has passed no table from the point `K` on. -/
structure DownInv (m : Memory) (pt : PagePtr) (K : Nat) (s : DownState) : Prop where
  onPath : s.it.OnPath m pt
  stop_pos : 1 ≤ s.stopLevel
  stop_le : s.stopLevel ≤ s.it.level_
  skip_stop : s.skip = true → s.stopLevel = 1
  /-- Once the loop has gone up it walks down to a table that it has been in. -/
  stop_table : s.stopLevel ≠ 1 → ∃ t, TableEntry m pt s.stopLevel s.it.va_ t
  le_point : K ≤ s.point
  none_before : ∀ l a t, TableEntry m pt l a t → K ≤ visitKey l a → s.point ≤ visitKey l a

section DownRound

variable {m : Memory} {pt : PagePtr} {K : Nat} {s : DownState}

lemma OnPath.tableEntry_iff {it : Ptiter} (h : it.OnPath m pt) (t : PagePtr) :
    TableEntry m pt it.level_ it.va_ t ↔ IsTable (m.word it.pep_) ∧ it.kptr m = t := by
  obtain ⟨s, hs, hpep⟩ := h.entry
  rw [WeensyOS.tableEntry_iff h.pos h.le h.lt, hpep, kptr, hpep]
  constructor
  · rintro ⟨r, hr, ht⟩
    obtain rfl : s = r := Option.some.inj (hs.symm.trans hr)
    exact ht
  · exact fun ht => ⟨s, hs, ht⟩

/-- There are no tables inside the block of an entry that does not refer to a table. -/
lemma OnPath.no_table_inside {it : Ptiter} (h : it.OnPath m pt) (hnt : ¬IsTable (m.word it.pep_))
    {l : Nat} {a : Word} {t : PagePtr} (hl : l ≤ it.level_)
    (hb : a.toNat / pageSpan it.level_ = it.va_.toNat / pageSpan it.level_) :
    ¬TableEntry m pt l a t := by
  intro hentry
  obtain ⟨r, hr⟩ := hentry.above hl h.le
  exact hnt ((h.tableEntry_iff r).1 (hr.congr h.lt hb)).1

lemma toNat_block_end {it : Ptiter} (h : it.OnPath m pt) :
    it.lastVa.toNat = blockEnd it.level_ it.va_ := by
  have hle := h.le
  have hend := blockEnd_le_end hle h.lt
  rw [lastVa, toNat_next_block (by omega)]
  exact Nat.mod_eq_of_lt (lt_of_le_of_lt hend (by norm_num))

/-- The code goes up when the block is the last one of the block above. -/
lemma up_iff {it : Ptiter} (h : it.OnPath m pt) :
    (it.lastVa ^^^ it.va_) &&& ~~~pageoffmask (it.level_ + 1) ≠ 0#64 ↔
      blockEnd it.level_ it.va_ = blockEnd (it.level_ + 1) it.va_ := by
  have hle := h.le
  have hup : blockEnd it.level_ it.va_ ≤ blockEnd (it.level_ + 1) it.va_ :=
    blockEnd_le (Nat.le_succ it.level_) (lt_blockEnd (it.level_ + 1) it.va_)
  have hlt := lt_blockEnd it.level_ it.va_
  rw [Ne, same_block_iff (by omega), toNat_block_end h]
  constructor
  · intro hne
    by_contra hend
    apply hne
    have h1 := (Nat.div_lt_iff_lt_mul (pageSpan_pos (it.level_ + 1))).2 (lt_of_le_of_ne hup hend)
    have h2 := Nat.div_le_div_right (c := pageSpan (it.level_ + 1)) hlt.le
    omega
  · intro hend heq
    rw [hend, blockEnd, Nat.mul_div_cancel _ (pageSpan_pos _)] at heq
    omega

/-- Going down to the next table does not change the point. -/
lemma DownInv.into (h : DownInv m pt K s) (ht : IsTable (m.word s.it.pep_)) (hskip : s.skip = false)
    (hstop : s.it.level_ ≠ s.stopLevel) : DownInv m pt K { s with it := { s.it with
      level_ := s.it.level_ - 1
      pep_ := (tableOf (m.word s.it.pep_)).entry (pageindex s.it.va_ (s.it.level_ - 1)) } } := by
  have hle := h.stop_le
  have hpos := h.stop_pos
  have hpoint : DownState.point { s with it := { s.it with
      level_ := s.it.level_ - 1
      pep_ := (tableOf (m.word s.it.pep_)).entry (pageindex s.it.va_ (s.it.level_ - 1)) } } = s.point := by
    simp only [DownState.point, hskip, Bool.false_eq_true, if_false]
  have hlevel := h.onPath.le
  refine ⟨⟨h.onPath.root, ?_, ?_, h.onPath.lt, ?_⟩, hpos, ?_, h.skip_stop, h.stop_table, ?_, ?_⟩
  · dsimp only
    omega
  · dsimp only
    omega
  · have hentry := (h.onPath.tableEntry_iff _).2 ⟨ht, rfl⟩
    exact ⟨_, hentry.path, rfl⟩
  · dsimp only
    omega
  · rw [hpoint]
    exact h.le_point
  · rw [hpoint]
    exact h.none_before

/-- At the stop level the loop has found the first table from `K` on. -/
lemma DownInv.stop (h : DownInv m pt K s) (hskip : s.skip = false)
    (hstop : s.it.level_ = s.stopLevel) : K ≤ visitKey s.it.level_ s.it.va_ ∧
      ∀ l a t, TableEntry m pt l a t → K ≤ visitKey l a → visitKey s.it.level_ s.it.va_ ≤ visitKey l a := by
  have hpoint := h.le_point
  have hbefore := h.none_before
  by_cases h1 : s.stopLevel = 1
  · have heq : s.point = (s.it.va_.toNat + 1) * 4 := by
      rw [DownState.point, hskip, h1]
      rfl
    rw [heq] at hpoint hbefore
    rw [hstop, h1]
    have hlt := lt_blockEnd 1 s.it.va_
    refine ⟨by rw [visitKey]; omega, fun l a t hentry hK => ?_⟩
    have hkey := hbefore l a t hentry hK
    have hl := hentry.le
    have hpos := hentry.pos
    rw [visitKey] at hkey ⊢
    have := blockEnd_le hpos (show s.it.va_.toNat < blockEnd l a by omega)
    rw [visitKey]
    omega
  · have heq : s.point = visitKey s.it.level_ s.it.va_ := by
      rw [DownState.point, hskip, if_neg h1, hstop]
      rfl
    rw [heq] at hpoint hbefore
    exact ⟨hpoint, hbefore⟩

/-- When the loop does not go down, it looks for tables after the end of the block. -/
lemma DownInv.leave (h : DownInv m pt K s) (hcond : ¬(IsTable (m.word s.it.pep_) ∧ s.skip = false)) :
    s.stopLevel = 1 ∧ s.point ≤ visitKey s.it.level_ s.it.va_ + 1 ∧
      ∀ l a t, TableEntry m pt l a t → K ≤ visitKey l a →
        visitKey s.it.level_ s.it.va_ + 1 ≤ visitKey l a := by
  have hlt := lt_blockEnd s.it.level_ s.it.va_
  have hle := h.onPath.le
  cases hskip : s.skip
  · have hnt : ¬IsTable (m.word s.it.pep_) := fun ht => hcond ⟨ht, hskip⟩
    have hstop : s.stopLevel = 1 := by
      by_contra hne
      obtain ⟨t, ht⟩ := h.stop_table hne
      exact h.onPath.no_table_inside hnt h.stop_le rfl ht
    have heq : s.point = (s.it.va_.toNat + 1) * 4 := by
      rw [DownState.point, hskip, hstop]
      rfl
    have hbefore := h.none_before
    rw [heq] at hbefore
    refine ⟨hstop, by rw [heq, visitKey]; omega, fun l a t hentry hK => ?_⟩
    have hkey := hbefore l a t hentry hK
    have hl := hentry.le
    rw [visitKey] at hkey ⊢
    by_contra hge
    have hend : blockEnd l a ≤ blockEnd s.it.level_ s.it.va_ := by rw [visitKey] at hge; omega
    rcases Nat.lt_or_ge s.it.level_ l with hup | hdown
    · have := blockEnd_le hup.le (show s.it.va_.toNat < blockEnd l a by omega)
      rw [visitKey] at hge
      omega
    · exact h.onPath.no_table_inside hnt hdown (same_block_of_end hdown (by omega) hend) hentry
  · have heq : s.point = visitKey s.it.level_ s.it.va_ + 1 := by
      rw [DownState.point, hskip]
      rfl
    have hbefore := h.none_before
    rw [heq] at hbefore
    exact ⟨h.skip_stop hskip, heq.le, hbefore⟩

/-- Going up leads to the table that was left. -/
lemma DownInv.up (h : DownInv m pt K s) (hcond : ¬(IsTable (m.word s.it.pep_) ∧ s.skip = false))
    (hend : blockEnd s.it.level_ s.it.va_ = blockEnd (s.it.level_ + 1) s.it.va_)
    (hlevel : s.it.level_ ≠ 3) : DownInv m pt K {
      it := { s.it with level_ := 3, pep_ := s.it.pt_.entry (pageindex s.it.va_ 3) }
      stopLevel := s.it.level_ + 1
      skip := false } := by
  obtain ⟨_, hpoint, hafter⟩ := h.leave hcond
  have hpos := h.onPath.pos
  have hle := h.onPath.le
  obtain ⟨t, hpath, _⟩ := h.onPath.entry
  have heq : DownState.point {
      it := { s.it with level_ := 3, pep_ := s.it.pt_.entry (pageindex s.it.va_ 3) }
      stopLevel := s.it.level_ + 1
      skip := false } = visitKey s.it.level_ s.it.va_ + 1 := by
    simp only [DownState.point, Bool.false_eq_true, if_false]
    rw [if_neg (by omega), visitKey, visitKey, hend]
    omega
  refine ⟨⟨h.onPath.root, by norm_num, le_rfl, h.onPath.lt, pt, rfl, ?_⟩, by dsimp only; omega,
    by dsimp only; omega, fun hskip => Bool.noConfusion hskip, fun _ => ⟨t, ?_⟩, ?_, ?_⟩
  · rw [h.onPath.root]
  · exact ⟨by dsimp only; omega, by dsimp only; omega, h.onPath.lt, hpath⟩
  · rw [heq]
    exact h.le_point.trans hpoint
  · rw [heq]
    exact hafter

/-- The next entry of a table covers the next block. -/
lemma OnPath.sibling {it : Ptiter} (h : it.OnPath m pt)
    (hend : blockEnd it.level_ it.va_ ≠ blockEnd (it.level_ + 1) it.va_) :
    it.lastVa.toNat < blockEnd (it.level_ + 1) it.va_ ∧
      OnPath m pt { it with pep_ := it.pep_ + 8#64, va_ := it.lastVa } := by
  obtain ⟨t, hpath, hpep⟩ := h.entry
  have hle := h.le
  have hup : blockEnd it.level_ it.va_ ≤ blockEnd (it.level_ + 1) it.va_ :=
    blockEnd_le (Nat.le_succ it.level_) (lt_blockEnd (it.level_ + 1) it.va_)
  have hlast := toNat_block_end h
  have hlt : it.lastVa.toNat < blockEnd (it.level_ + 1) it.va_ := by omega
  -- no carry into the index above
  have habove : it.va_.toNat / pageSpan (it.level_ + 1) = it.lastVa.toNat / pageSpan (it.level_ + 1) := by
    apply Nat.le_antisymm
    · apply Nat.div_le_div_right
      rw [hlast]
      exact (lt_blockEnd it.level_ it.va_).le
    · have := (Nat.div_lt_iff_lt_mul (pageSpan_pos (it.level_ + 1))).2 hlt
      omega
  have hblock : it.lastVa.toNat / pageSpan it.level_ = it.va_.toNat / pageSpan it.level_ + 1 := by
    rw [hlast, blockEnd, Nat.mul_div_cancel _ (pageSpan_pos _)]
  have hindex : pageindex it.lastVa it.level_ = pageindex it.va_ it.level_ + 1 := by
    rw [pageSpan_succ, ← Nat.div_div_eq_div_mul, ← Nat.div_div_eq_div_mul, hblock] at habove
    rw [pageindex_eq, pageindex_eq, hblock]
    omega
  refine ⟨hlt, h.root, h.pos, h.le, ?_, t, ?_, ?_⟩
  · have hend4 : blockEnd (it.level_ + 1) it.va_ ≤ 2 ^ 48 := by
      have h4 := blockEnd_le (k := 4) (show it.level_ + 1 ≤ 4 by omega) (lt_blockEnd 4 it.va_)
      have hlt48 := h.lt
      have : blockEnd 4 it.va_ = 2 ^ 48 := by
        rw [blockEnd]
        simp only [pageSpan]
        omega
      omega
    exact lt_of_lt_of_le hlt hend4
  · rw [← vaPath_congr habove]
    exact hpath
  · dsimp only
    rw [hindex, hpep, PagePtr.entry, PagePtr.entry, BitVec.ofNat_add, BitVec.mul_add, BitVec.add_assoc,
      BitVec.mul_one]

lemma DownInv.sibling (h : DownInv m pt K s) (hcond : ¬(IsTable (m.word s.it.pep_) ∧ s.skip = false))
    (hend : blockEnd s.it.level_ s.it.va_ ≠ blockEnd (s.it.level_ + 1) s.it.va_) : DownInv m pt K
      { s with it := { s.it with pep_ := s.it.pep_ + 8#64, va_ := s.it.lastVa }, skip := false } := by
  obtain ⟨hstop, hpoint, hafter⟩ := h.leave hcond
  obtain ⟨hlt, hpath⟩ := h.onPath.sibling hend
  have hlast := toNat_block_end h.onPath
  have hle := h.onPath.le
  have heq : DownState.point
      { s with it := { s.it with pep_ := s.it.pep_ + 8#64, va_ := s.it.lastVa }, skip := false } =
      (blockEnd s.it.level_ s.it.va_ + 1) * 4 := by
    simp only [DownState.point, Bool.false_eq_true, if_false]
    rw [if_pos hstop, hlast]
  refine ⟨hpath, h.stop_pos, h.stop_le, fun hskip => Bool.noConfusion hskip,
    fun hne => absurd hstop hne, ?_, fun l a t hentry hK => ?_⟩
  · rw [heq]
    rw [visitKey] at hpoint
    have := h.le_point
    omega
  · rw [heq]
    have hkey := hafter l a t hentry hK
    have hl := hentry.le
    rw [visitKey, visitKey] at hkey
    rw [visitKey]
    -- a higher entry does not end where this block ends
    rcases Nat.lt_or_ge s.it.level_ l with hup | hdown
    · have h1 := lt_blockEnd s.it.level_ s.it.va_
      have h2 : blockEnd (s.it.level_ + 1) s.it.va_ ≤ blockEnd l a := blockEnd_le hup (by omega)
      omega
    · omega

/-- The point that the iterator stands at. -/
def front (it : Ptiter) : Nat :=
  if it.active then visitKey it.level_ it.va_ else 2 ^ 48 * 4 + 4

/-- The iterator stands at the first table from the point `K` on. -/
structure Found (m : Memory) (pt : PagePtr) (K : Nat) (it : Ptiter) : Prop where
  root : it.pt_ = pt
  onPath : it.active = true → it.OnPath m pt ∧ IsTable (m.word it.pep_)
  le_front : K ≤ it.front
  none_before : ∀ l a t, TableEntry m pt l a t → K ≤ visitKey l a → it.front ≤ visitKey l a

lemma visitKey_le {l : Nat} (hl : l ≤ 3) {a : Word} (ha : a.toNat < 2 ^ 48) :
    visitKey l a < 2 ^ 48 * 4 + 4 := by
  have := blockEnd_le_end hl ha
  rw [visitKey]
  omega

lemma active_iff (it : Ptiter) : it.active = true ↔ it.va_.toNat < 2 ^ 48 := by
  rw [active, decide_eq_true_iff, BitVec.le_def, vaNoncanonmax, BitVec.toNat_ofNat]
  omega

lemma OnPath.front_eq {it : Ptiter} (h : it.OnPath m pt) : it.front = visitKey it.level_ it.va_ := by
  rw [front, if_pos ((active_iff it).2 h.lt)]

/-- The rounds left: those that go down or sideways, then at most three after going up. -/
def DownState.measure (s : DownState) : Nat :=
  if s.stopLevel = 1 then (2 ^ 48 - s.it.va_.toNat) * 8 + s.it.level_ + 4 else s.it.level_

lemma downRound_next (h : DownInv m pt K s) {s' : DownState} (hs : downRound m s = .next s') :
    DownInv m pt K s' ∧ s'.measure < s.measure := by
  have hpos := h.onPath.pos
  have hle := h.onPath.le
  have hlt := h.onPath.lt
  unfold downRound at hs
  by_cases hcond : IsTable (m.word s.it.pep_) ∧ s.skip = false
  · rw [if_pos hcond] at hs
    by_cases hstop : s.it.level_ = s.stopLevel
    · simp [hstop] at hs
    · rw [if_neg hstop, Round.next.injEq] at hs
      rw [← hs]
      refine ⟨h.into hcond.1 hcond.2 hstop, ?_⟩
      unfold DownState.measure
      dsimp only
      split <;> omega
  · rw [if_neg hcond] at hs
    have hup := up_iff h.onPath
    unfold lastVa at hup
    have hstop := (h.leave hcond).1
    by_cases hend : blockEnd s.it.level_ s.it.va_ = blockEnd (s.it.level_ + 1) s.it.va_
    · dsimp only at hs
      rw [if_pos (hup.2 hend)] at hs
      by_cases hlevel : s.it.level_ = 3
      · simp [hlevel] at hs
      · rw [if_neg hlevel, Round.next.injEq] at hs
        rw [← hs]
        refine ⟨h.up hcond hend hlevel, ?_⟩
        unfold DownState.measure
        dsimp only
        rw [if_pos hstop, if_neg (by omega)]
        omega
    · dsimp only at hs
      rw [if_neg (fun hne => hend (hup.1 hne)), Round.next.injEq] at hs
      rw [← hs]
      refine ⟨h.sibling hcond hend, ?_⟩
      have hlast := toNat_block_end h.onPath
      have hblock := lt_blockEnd s.it.level_ s.it.va_
      unfold lastVa at hlast
      unfold DownState.measure
      dsimp only
      rw [if_pos hstop, if_pos hstop, hlast]
      omega

lemma downRound_done (h : DownInv m pt K s) {it : Ptiter} (hs : downRound m s = .done it) :
    Found m pt K it := by
  unfold downRound at hs
  by_cases hcond : IsTable (m.word s.it.pep_) ∧ s.skip = false
  · rw [if_pos hcond] at hs
    by_cases hstop : s.it.level_ = s.stopLevel
    · rw [if_pos hstop, Round.done.injEq] at hs
      rw [← hs]
      obtain ⟨hK, hmin⟩ := h.stop hcond.2 hstop
      refine ⟨h.onPath.root, fun _ => ⟨h.onPath, hcond.1⟩, ?_, ?_⟩
      · rw [h.onPath.front_eq]
        exact hK
      · rw [h.onPath.front_eq]
        exact hmin
    · simp [hstop] at hs
  · rw [if_neg hcond] at hs
    have hup := up_iff h.onPath
    unfold lastVa at hup
    obtain ⟨_, hpoint, hafter⟩ := h.leave hcond
    by_cases hend : blockEnd s.it.level_ s.it.va_ = blockEnd (s.it.level_ + 1) s.it.va_
    · dsimp only at hs
      rw [if_pos (hup.2 hend)] at hs
      by_cases hlevel : s.it.level_ = 3
      · rw [if_pos hlevel, Round.done.injEq] at hs
        have hinactive : it.active = false := by rw [← hs]; rfl
        have hfront : it.front = 2 ^ 48 * 4 + 4 := by rw [front, hinactive]; rfl
        have hlt := visitKey_le h.onPath.le h.onPath.lt
        refine ⟨by rw [← hs]; exact h.onPath.root, fun hactive => ?_, ?_, fun l a t hentry hK => ?_⟩
        · rw [hinactive] at hactive
          exact Bool.noConfusion hactive
        · have := h.le_point
          omega
        · -- the last block of the top level ends where all others do
          have hkey := hafter l a t hentry hK
          have hle := blockEnd_le_end hentry.le hentry.lt
          have hl := hentry.le
          have h4 : blockEnd (s.it.level_ + 1) s.it.va_ = 2 ^ 48 := by
            have := h.onPath.lt
            rw [blockEnd, hlevel]
            simp only [pageSpan]
            omega
          rw [visitKey, visitKey] at hkey
          omega
      · simp [hlevel] at hs
    · dsimp only at hs
      rw [if_neg (fun hne => hend (hup.1 hne))] at hs
      exact absurd hs (by simp)

lemma down_found {fuel : Nat} {it : Ptiter} {skip : Bool} (h : DownInv m pt K ⟨it, 1, skip⟩)
    (hfuel : 2 ^ 51 + 8 < fuel) : ∃ it', down fuel m skip it = some it' ∧ Found m pt K it' := by
  apply run_total (downRound m) (DownInv m pt K) (Found m pt K) DownState.measure
  · exact fun s s' h hs => downRound_next h hs
  · exact fun s it' h hs => downRound_done h hs
  · exact h
  · have := h.onPath.le
    unfold DownState.measure
    rw [if_pos rfl]
    omega

end DownRound

section Moves

variable {m : Memory} {pt : PagePtr} {K : Nat}

/-- A new iterator stands at the first table whose range ends above `va`. -/
lemma new_found (m : Memory) (pt : PagePtr) (va : Word) (hva : va.toNat < 2 ^ 48) {fuel : Nat}
    (hfuel : 2 ^ 51 + 8 < fuel) :
    ∃ it, new fuel m pt va = some it ∧ Found m pt ((va.toNat + 1) * 4) it := by
  apply down_found _ hfuel
  have heq : DownState.point ⟨⟨pt, pt.entry (pageindex va 3), 3, va⟩, 1, false⟩ = (va.toNat + 1) * 4 := rfl
  refine ⟨⟨rfl, by norm_num, le_rfl, hva, pt, rfl, rfl⟩, le_rfl, by norm_num, fun _ => rfl,
    fun hne => absurd rfl hne, le_rfl, fun l a t _ hK => ?_⟩
  rw [heq]
  exact hK

/-- `next` moves to the first table after the one that the iterator stands at. -/
lemma next_found {it : Ptiter} (h : Found m pt K it) (hactive : it.active = true) {fuel : Nat}
    (hfuel : 2 ^ 51 + 8 < fuel) : ∃ it', it.next fuel m = some it' ∧ Found m pt (it.front + 1) it' := by
  apply down_found _ hfuel
  obtain ⟨hpath, _⟩ := h.onPath hactive
  have heq : DownState.point ⟨it, 1, true⟩ = it.front + 1 := by
    rw [hpath.front_eq]
    rfl
  refine ⟨hpath, le_rfl, hpath.pos, fun _ => rfl, fun hne => absurd rfl hne, heq.ge,
    fun l a t _ hK => ?_⟩
  rw [heq]
  exact hK

end Moves

end Ptiter

end Cs300Projects.WeensyOS
