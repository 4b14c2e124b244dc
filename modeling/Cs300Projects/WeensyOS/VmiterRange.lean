import Cs300Projects.WeensyOS.Mmu

/-!
# Ranges of addresses

A settled iterator speaks for the whole block of addresses that its entry covers. The checks of
user ranges and the loops over the low half jump from block to block.
-/

namespace Cs300Projects.WeensyOS
open BitField Loop

/-- `va` is mapped, and every entry of its walk has the flags `p`. -/
def MmuMapped (m : Memory) (pt : PagePtr) (p va : Word) : Prop :=
  (mmuTranslate m pt va).isSome ∧ ∀ e ∈ mmuEntries m va 3 pt.addr.toNat, e &&& p = p

/-- The end of a block in the low half, where nothing wraps around. -/
lemma next_block_low {va : Word} {level : Nat} (hl : level ≤ 3) (hva : va.toNat < 2 ^ 47) :
    ((va ||| pageoffmask level) + 1#64).toNat = (va.toNat / pageSpan level + 1) * pageSpan level ∧
      va.toNat < (va.toNat / pageSpan level + 1) * pageSpan level ∧
      (va.toNat / pageSpan level + 1) * pageSpan level ≤ 2 ^ 47 ∧
      (va.toNat / pageSpan level + 1) * pageSpan level % 4096 = 0 := by
  rw [toNat_next_block (by omega)]
  interval_cases level <;> simp only [pageSpan] <;> omega

/-- The addresses from `va` to the end of its block are in the block. -/
lemma block_of_le {x a span : Nat} (hspan : 0 < span) (h1 : x ≤ a) (h2 : a < (x / span + 1) * span) :
    x / span = a / span := by
  apply Nat.le_antisymm
  · exact Nat.div_le_div_right h1
  · have := (Nat.div_lt_iff_lt_mul hspan).2 h2
    omega

namespace Vmiter

section Block

variable {m : Memory} {it : Vmiter}

lemma low_iff (it : Vmiter) : it.low = true ↔ it.va_.toNat < 2 ^ 47 := by
  rw [low, decide_eq_true_iff, BitVec.le_def, vaLowmax, BitVec.toNat_ofNat]
  omega

lemma canonical_of_low {va : Word} (h : va.toNat < 2 ^ 47) : vaIsCanonical va = true :=
  (vaIsCanonical_iff va).2 (Or.inl h)

lemma Settled.move (h : it.Settled m) {a : Word}
    (hb : it.va_.toNat / pageSpan it.level_ = a.toNat / pageSpan it.level_) :
    ({ it with va_ := a } : Vmiter).Settled m :=
  ⟨h.onWalk.congr hb, h.last⟩

lemma Settled.present_iff (h : it.Settled m) (hc : vaIsCanonical it.va_ = true) :
    (mmuTranslate m it.pt_ it.va_).isSome = true ↔ (m.read it.pep_).getLsbD 0 = true := by
  rw [h.mmuTranslate_eq, if_pos hc, mmuLeaf]
  cases (m.read it.pep_).getLsbD 0 <;> simp

lemma Settled.hasPerm_iff_mapped (h : it.Settled m) (hc : vaIsCanonical it.va_ = true) {p : Word}
    (hP : p.getLsbD 0 = true) (hp : ∀ i, p.getLsbD i = true → i < 12) :
    it.hasPerm m p = true ↔ MmuMapped m it.pt_ p it.va_ := by
  rw [MmuMapped, h.present_iff hc, h.eq_walked, walked_hasPerm_iff hc hp, walked_pt, walked_va,
    ← present_eq, walked_present_iff hc]
  constructor
  · intro hall
    exact ⟨fun e he => hall e he 0 hP, fun e he => (and_eq_right_iff e p).2 (hall e he)⟩
  · intro hall e he
    exact (and_eq_right_iff e p).1 (hall.2 e he)

/-- On a canonical address `perm()` is zero exactly when the page is not present. -/
lemma Settled.perm_eq_zero_iff (h : it.Settled m) (hc : vaIsCanonical it.va_ = true) :
    it.perm m = 0#64 ↔ (m.read it.pep_).getLsbD 0 = false := by
  have hflag := h.onWalk.perm_present hc
  rw [perm]
  cases hP : (m.read it.pep_).getLsbD 0
  · rw [if_neg (by rw [and_pteP_ne_zero_iff, hP]; exact Bool.false_ne_true)]
    exact ⟨fun _ => rfl, fun _ => rfl⟩
  · rw [if_pos (by rw [and_pteP_ne_zero_iff, hP])]
    constructor
    · intro hzero
      have hbit := congrArg (fun x => BitVec.getLsbD x 0) hzero
      simp only [BitVec.getLsbD_and, getLsbD_signExtend_perm _ (show 0 < 32 by norm_num), hP, hflag,
        BitVec.getLsbD_zero] at hbit
      exact absurd hbit (by decide)
    · intro hfalse
      exact absurd hfalse (by decide)

/-- The step that both range loops make inside the low half. -/
lemma Settled.lastVa_low (h : it.Settled m) (hva : it.va_.toNat < 2 ^ 47) :
    it.va_.toNat < it.lastVa.toNat ∧ it.lastVa.toNat ≤ 2 ^ 47 ∧ it.lastVa.toNat % 4096 = 0 ∧
      ∀ a : Word, it.va_.toNat ≤ a.toNat → a.toNat < it.lastVa.toNat →
        ({ it with va_ := a } : Vmiter).Settled m := by
  obtain ⟨hnext, hlt, hle, hmod⟩ := next_block_low h.onWalk.level_le hva
  rw [lastVa, hnext]
  refine ⟨hlt, hle, hmod, fun a h1 h2 => ?_⟩
  apply h.move
  exact block_of_le (pageSpan_pos _) h1 h2

/-- The addresses that an iterator speaks for have its permissions. -/
lemma Settled.hasPerm_block (h : it.Settled m) (hva : it.va_.toNat < 2 ^ 47) {p : Word}
    (hP : p.getLsbD 0 = true) (hp : ∀ i, p.getLsbD i = true → i < 12) (hperm : it.hasPerm m p = true)
    {a : Word} (h1 : it.va_.toNat ≤ a.toNat) (h2 : a.toNat < it.lastVa.toNat) :
    MmuMapped m it.pt_ p a := by
  obtain ⟨_, hle, _, hmove⟩ := h.lastVa_low hva
  have hc : vaIsCanonical a = true := canonical_of_low (by omega)
  exact ((hmove a h1 h2).hasPerm_iff_mapped hc hP hp).1 hperm

lemma new_walked {pt : PagePtr} (hok : ∀ va, ∃ it, new m pt va = .ok it) (va : Word) :
    new m pt va = .ok (walked m pt va) := by
  obtain ⟨it, hit⟩ := hok va
  have := hit
  rw [new_eq, check_eq_ok] at this
  rw [hit, this.2]

lemma Settled.realFind_walked {pt : PagePtr} (hok : ∀ va, ∃ it, new m pt va = .ok it)
    (h : it.Settled m) (hpt : it.pt_ = pt) (va : Word) : it.realFind m va = .ok (walked m pt va) := by
  rw [realFind_eq_new h, hpt, new_walked hok]

end Block

/-! ### User ranges -/

section UserRange

variable {m : Memory} {pt : PagePtr} {p : Word}

/-- The loop of `perm(last_va, p)` from the start of a range in the low half. -/
lemma permRange_total (hok : ∀ va, ∃ it, new m pt va = .ok it) (hP : p.getLsbD 0 = true)
    (hp : ∀ i, p.getLsbD i = true → i < 12) {first last : Word} (hlast : last.toNat ≤ 2 ^ 47)
    (hfirst : first.toNat < last.toNat) {fuel : Nat} (hfuel : 2 ^ 47 < fuel) :
    ∃ b it', (walked m pt first).permRange fuel m last p = some (.ok (b, it')) ∧
      (b = true ↔ ∀ a : Word, first.toNat ≤ a.toNat → a.toNat < last.toNat → MmuMapped m pt p a) := by
  have htotal := run_total (permRangeRound m last p)
    (fun it => it.Settled m ∧ it.pt_ = pt ∧ first.toNat ≤ it.va_.toNat ∧
      ∀ a : Word, first.toNat ≤ a.toNat → a.toNat < it.va_.toNat → MmuMapped m pt p a)
    (fun r => ∃ b it', r = .ok (b, it') ∧ (b = true ↔
      ∀ a : Word, first.toNat ≤ a.toNat → a.toNat < last.toNat → MmuMapped m pt p a))
    (fun it => last.toNat - it.va_.toNat) ?_ ?_ (n := fuel) (s := walked m pt first) ?_ ?_
  · obtain ⟨r, hrun, b, it', rfl, hb⟩ := htotal
    exact ⟨b, it', hrun, hb⟩
  · rintro it it' ⟨hset, hpt, hge, hmapped⟩ hbody
    unfold permRangeRound at hbody
    by_cases hlt : it.va_ < last
    · rw [BitVec.lt_def] at hlt
      obtain ⟨hadv, hle, _, _⟩ := hset.lastVa_low (by omega)
      cases hperm : it.hasPerm m p
      · simp [BitVec.lt_def, hlt, hperm] at hbody
      · have hnext : it.nextRange m = .ok (walked m pt it.lastVa) := hset.realFind_walked hok hpt _
        simp only [BitVec.lt_def, hlt, hperm, hnext, if_true, Round.next.injEq] at hbody
        rw [← hbody]
        refine ⟨⟨walked_settled _ _ _, walked_pt _ _ _, ?_, fun a h1 h2 => ?_⟩, ?_⟩
        · rw [walked_va]
          omega
        · rw [walked_va] at h2
          rcases Nat.lt_or_ge a.toNat it.va_.toNat with hbefore | hafter
          · exact hmapped a h1 hbefore
          · rw [← hpt]
            exact hset.hasPerm_block (by omega) hP hp hperm hafter h2
        · rw [walked_va]
          omega
    · simp [hlt] at hbody
  · rintro it r ⟨hset, hpt, hge, hmapped⟩ hbody
    unfold permRangeRound at hbody
    by_cases hlt : it.va_ < last
    · have hlt' := hlt
      rw [BitVec.lt_def] at hlt'
      cases hperm : it.hasPerm m p
      · simp only [hlt, hperm, if_true, Bool.false_eq_true, if_false, Round.done.injEq] at hbody
        refine ⟨false, it, hbody.symm, ?_⟩
        constructor
        · intro hfalse
          exact absurd hfalse (by decide)
        · intro hall
          have hmap := hall it.va_ hge hlt'
          rw [← hpt, ← hset.hasPerm_iff_mapped (canonical_of_low (by omega)) hP hp, hperm] at hmap
          exact hmap
      · have hnext : it.nextRange m = .ok (walked m pt it.lastVa) := hset.realFind_walked hok hpt _
        simp [hlt, hperm, hnext] at hbody
    · simp only [hlt, if_false, Round.done.injEq] at hbody
      rw [BitVec.lt_def] at hlt
      exact ⟨true, it, hbody.symm, fun _ a h1 h2 => hmapped a h1 (by omega), fun _ => rfl⟩
  · refine ⟨walked_settled _ _ _, walked_pt _ _ _, ?_, fun a h1 h2 => ?_⟩
    · rw [walked_va]
    · rw [walked_va] at h2
      omega
  · rw [walked_va]
    omega

/-- The two overloads of `low_perm` are the same function of the range. -/
lemma lowPermSize_eq (fuel : Nat) (m : Memory) (first size p : Word) (it : Vmiter) :
    it.lowPermSize fuel m first size p = it.lowPerm fuel m first (first + size) p := by
  have hrange : (first ≤ vaLowend ∧ size ≤ vaLowend - first) ↔
      (first ≤ first + size ∧ first + size ≤ vaLowend) := by
    have hend : vaLowend.toNat = 2 ^ 47 := rfl
    have := first.isLt
    have := size.isLt
    rw [BitVec.le_def, BitVec.le_def, BitVec.le_def, BitVec.toNat_add, BitVec.le_def, BitVec.toNat_add, hend]
    constructor
    · rintro ⟨hfirst, hsize⟩
      rw [BitVec.toNat_sub_of_le (by rw [BitVec.le_def, hend]; exact hfirst), hend] at hsize
      omega
    · rintro ⟨hle, hsum⟩
      have hfirst : first.toNat ≤ 2 ^ 47 := by omega
      rw [BitVec.toNat_sub_of_le (by rw [BitVec.le_def, hend]; exact hfirst), hend]
      omega
  have hempty : first = first + size ↔ size = 0#64 := by
    rw [← BitVec.toNat_inj, ← BitVec.toNat_inj, BitVec.toNat_add, BitVec.toNat_ofNat]
    have := first.isLt
    have := size.isLt
    omega
  unfold lowPermSize lowPerm
  by_cases hr : first ≤ vaLowend ∧ size ≤ vaLowend - first
  · rw [if_pos hr, if_pos (hrange.1 hr)]
    by_cases hs : size = 0#64
    · rw [if_pos hs, if_pos (hempty.2 hs)]
    · rw [if_neg hs, if_neg (fun h => hs (hempty.1 h))]
  · rw [if_neg hr, if_neg (fun h => hr (hrange.2 h))]

end UserRange

end Vmiter

/-- `low_perm` tests exactly that the range is well formed, lies in the low half and is mapped
with the permissions `p` everywhere, from wherever the iterator stands; and the overload with a
size is the overload with the end of the range. -/
theorem lowPerm_iff (m : Memory) (pt : PagePtr) (hok : ∀ va, ∃ it, Vmiter.new m pt va = .ok it)
    (p : Word) (hP : p &&& pteP = pteP) (hp : p &&& (pteP ||| pteW ||| pteU) = p) (fuel : Nat)
    (hfuel : 2 ^ 47 < fuel) (va₀ : Word) (it : Vmiter) (hnew : Vmiter.new m pt va₀ = .ok it)
    (first : Word) :
    (∀ last, ∃ b it', it.lowPerm fuel m first last p = some (.ok (b, it')) ∧
      (b = true ↔ first.toNat ≤ last.toNat ∧ last.toNat ≤ 2 ^ 47 ∧
        ∀ a : Word, first.toNat ≤ a.toNat → a.toNat < last.toNat → MmuMapped m pt p a)) ∧
    (∀ size, ∃ b it', it.lowPermSize fuel m first size p = some (.ok (b, it')) ∧
      (b = true ↔ first.toNat + size.toNat ≤ 2 ^ 47 ∧
        ∀ a : Word, first.toNat ≤ a.toNat → a.toNat < first.toNat + size.toNat →
          MmuMapped m pt p a)) ∧
    (∀ size, it.lowPermSize fuel m first size p = it.lowPerm fuel m first (first + size) p) := by
  have hbit : p.getLsbD 0 = true := by
    have h0 := congrArg (fun x => BitVec.getLsbD x 0) hP
    simpa [getLsbD_pteP] using h0
  have hbits : ∀ i, p.getLsbD i = true → i < 12 := by
    intro i hi
    have hi64 := BitVec.lt_of_getLsbD hi
    have hmem := (and_eq_right_iff (pteP ||| pteW ||| pteU) p).1 (by rw [BitVec.and_comm]; exact hp) i hi
    rw [getLsbD_pwu hi64, decide_eq_true_iff] at hmem
    omega
  have hlow : ∀ last, ∃ b it', it.lowPerm fuel m first last p = some (.ok (b, it')) ∧
      (b = true ↔ first.toNat ≤ last.toNat ∧ last.toNat ≤ 2 ^ 47 ∧
        ∀ a : Word, first.toNat ≤ a.toNat → a.toNat < last.toNat → MmuMapped m pt p a) := by
    intro last
    unfold Vmiter.lowPerm
    by_cases hrange : first ≤ last ∧ last ≤ vaLowend
    · rw [if_pos hrange]
      obtain ⟨hle, hend⟩ := hrange
      rw [BitVec.le_def] at hle
      rw [BitVec.le_def, vaLowend, BitVec.toNat_ofNat] at hend
      by_cases heq : first = last
      · rw [if_pos heq]
        refine ⟨true, it, rfl, fun _ => ⟨hle, by omega, fun a h1 h2 => ?_⟩, fun _ => rfl⟩
        rw [heq] at h1
        omega
      · rw [if_neg heq]
        have hlt : first.toNat < last.toNat := by
          have hne : first.toNat ≠ last.toNat := fun h => heq (BitVec.eq_of_toNat_eq h)
          omega
        obtain ⟨hset, hpt, _⟩ := Vmiter.new_settled hnew
        have hend' : last.toNat ≤ 2 ^ 47 := by omega
        obtain ⟨b, it', hrun, hb⟩ := Vmiter.permRange_total hok hbit hbits hend' hlt hfuel
        refine ⟨b, it', ?_, ?_⟩
        · rw [Vmiter.findPermRange, Vmiter.find, hset.realFind_walked hok hpt]
          exact hrun
        · rw [hb]
          exact ⟨fun hall => ⟨hle, by omega, hall⟩, fun hall => hall.2.2⟩
    · rw [if_neg hrange]
      refine ⟨false, it, rfl, fun hfalse => absurd hfalse (by decide), fun hall => absurd ?_ hrange⟩
      rw [BitVec.le_def, BitVec.le_def, vaLowend, BitVec.toNat_ofNat]
      omega
  refine ⟨hlow, fun size => ?_, fun size => Vmiter.lowPermSize_eq fuel m first size p it⟩
  obtain ⟨b, it', hrun, hb⟩ := hlow (first + size)
  refine ⟨b, it', by rw [Vmiter.lowPermSize_eq, hrun], ?_⟩
  have := first.isLt
  have := size.isLt
  rw [hb, BitVec.toNat_add]
  constructor
  · rintro ⟨hle, hend, hall⟩
    have hsum : (first.toNat + size.toNat) % 2 ^ 64 = first.toNat + size.toNat := by omega
    rw [hsum] at hend hall
    exact ⟨hend, hall⟩
  · rintro ⟨hend, hall⟩
    have hsum : (first.toNat + size.toNat) % 2 ^ 64 = first.toNat + size.toNat := by omega
    rw [hsum]
    exact ⟨by omega, hend, hall⟩

/-- Two bytes across the boundary of a user page and a kernel page. -/
theorem lowPerm_iff_sample : ∃ it it', Vmiter.new sampleMemory sampleTable 0#64 = .ok it ∧
    it.lowPermSize (2 ^ 47 + 1) sampleMemory 0x1FFFFF#64 2#64 5#64 = some (.ok (false, it')) := by
  have hok := fun va => (⟨_, new_eq_ok rfl sampleMemory_wellFormed va⟩ :
    ∃ it, Vmiter.new sampleMemory sampleTable va = .ok it)
  obtain ⟨it, hnew⟩ := hok 0#64
  obtain ⟨b, it', hrun, hb⟩ := (lowPerm_iff sampleMemory sampleTable hok 5#64 (by decide) (by decide)
    (2 ^ 47 + 1) (by omega) 0#64 it hnew 0x1FFFFF#64).2.1 2#64
  refine ⟨it, it', hnew, ?_⟩
  cases b with
  | false => exact hrun
  | true =>
    have hlast := ((hb.1 rfl).2 0x200000#64 (by decide) (by decide)).2
    have hentries : mmuEntries sampleMemory 0x200000#64 3 sampleTable.addr.toNat =
        [0x2007#64, 0x3007#64, 0x4007#64, 0x5003#64] := by decide
    rw [hentries] at hlast
    exact absurd (hlast 0x5003#64 (by simp)) (by decide)

/-! ### Loops over the low half -/

namespace Vmiter

/-- `for (vmiter it(pt, 0); it.low(); step(it))`, with the iterators visited and the last one. -/
def lowLoop (fuel : Nat) (m : Memory) (pt : PagePtr) (step : Memory → Vmiter → Except Stop Vmiter) :
    Option (Except Stop (List Vmiter × Vmiter)) :=
  match new m pt 0#64 with
  | .ok it => run (visitRound low id (fun _ => step m)) fuel ([], it)
  | .error e => some (.error e)

section LowLoop

variable {m : Memory} {pt : PagePtr}

/-- Between two neighbours of a `next` loop no page is present. -/
def NoneBetween (m : Memory) (pt : PagePtr) (x y : Vmiter) : Prop :=
  x.va_.toNat < y.va_.toNat ∧ ∀ a : Word, a.toNat % 4096 = 0 → x.va_.toNat < a.toNat →
    a.toNat < y.va_.toNat → mmuTranslate m pt a = none

/-- The neighbour of an iterator in a `next_range` loop is at the end of its range. -/
def Adjacent (x y : Vmiter) : Prop :=
  x.va_.toNat < y.va_.toNat ∧ y.va_ = x.lastVa

/-- The iterators that the loops visit: fresh and at the start of a page. -/
structure Fresh (m : Memory) (pt : PagePtr) (it : Vmiter) : Prop where
  settled : it.Settled m
  root : it.pt_ = pt
  aligned : it.va_.toNat % 4096 = 0
  le : it.va_.toNat ≤ 2 ^ 47

lemma walked_fresh {va : Word} (haligned : va.toNat % 4096 = 0) (hle : va.toNat ≤ 2 ^ 47) :
    Fresh m pt (walked m pt va) :=
  ⟨walked_settled m pt va, walked_pt m pt va, by rw [walked_va, haligned], by rw [walked_va]; exact hle⟩

/-- `next` moves past the current page, or past a block in which nothing is present. -/
lemma next_spec (hok : ∀ va, ∃ it, new m pt va = .ok it) {it : Vmiter} (h : Fresh m pt it)
    (hlow : it.va_.toNat < 2 ^ 47) : ∃ it', it.next m = .ok it' ∧ Fresh m pt it' ∧ NoneBetween m pt it it' := by
  by_cases hskip : 0 < it.level_ ∧ it.perm m = 0#64
  · obtain ⟨hlt, hle, hmod, hmove⟩ := h.settled.lastVa_low hlow
    refine ⟨walked m pt it.lastVa, ?_, walked_fresh hmod hle, ?_, fun a _ h1 h2 => ?_⟩
    · rw [next, if_pos hskip]
      exact h.settled.realFind_walked hok h.root _
    · rw [walked_va]
      exact hlt
    · rw [walked_va] at h2
      have hset := hmove a (by omega) h2
      have hP := (h.settled.perm_eq_zero_iff (canonical_of_low hlow)).1 hskip.2
      have htranslate := hset.mmuTranslate_eq
      dsimp only at htranslate
      rw [h.root, mmuLeaf, hP] at htranslate
      rw [htranslate]
      simp
  · obtain ⟨hnext, hlt, hle, hmod⟩ := next_block_low (show 0 ≤ 3 by omega) hlow
    rw [← hnext] at hlt hle hmod
    refine ⟨walked m pt ((it.va_ ||| pageoffmask 0) + 1#64), ?_, walked_fresh hmod hle, ?_,
      fun a ha h1 h2 => ?_⟩
    · rw [next, if_neg hskip]
      exact h.settled.realFind_walked hok h.root _
    · rw [walked_va]
      exact hlt
    · -- the next page starts at the end of this one
      rw [walked_va, hnext] at h2
      have haligned := h.aligned
      simp only [pageSpan] at h2
      omega

lemma nextRange_spec (hok : ∀ va, ∃ it, new m pt va = .ok it) {it : Vmiter} (h : Fresh m pt it)
    (hlow : it.va_.toNat < 2 ^ 47) : ∃ it', it.nextRange m = .ok it' ∧ Fresh m pt it' ∧ Adjacent it it' := by
  obtain ⟨hlt, hle, hmod, _⟩ := h.settled.lastVa_low hlow
  refine ⟨walked m pt it.lastVa, h.settled.realFind_walked hok h.root _, walked_fresh hmod hle, ?_, ?_⟩
  · rw [walked_va]
    exact hlt
  · rw [walked_va]

/-- A loop whose step moves up along `R` visits a chain from 0 to the end of the low half. -/
lemma lowLoop_total (hok : ∀ va, ∃ it, new m pt va = .ok it) {step : Memory → Vmiter → Except Stop Vmiter}
    {R : Vmiter → Vmiter → Prop} (hR : ∀ x y, R x y → x.va_.toNat < y.va_.toNat)
    (hstep : ∀ it, Fresh m pt it → it.va_.toNat < 2 ^ 47 →
      ∃ it', step m it = .ok it' ∧ Fresh m pt it' ∧ R it it') {fuel : Nat} (hfuel : 2 ^ 47 < fuel) :
    ∃ visited last, lowLoop fuel m pt step = some (.ok (visited, last)) ∧ last.va_.toNat = 2 ^ 47 ∧
      List.IsChain R (visited ++ [last]) ∧ (∀ x, (visited ++ [last]).head? = some x → x.va_ = 0#64) ∧
      ∀ x ∈ visited, Fresh m pt x ∧ x.va_.toNat < 2 ^ 47 := by
  have hinit : Fresh m pt (walked m pt 0#64) := walked_fresh rfl (by decide)
  rw [lowLoop, new_walked hok]
  have htotal := visit_total low id (fun _ => step m)
    (fun visited it => Fresh m pt it ∧ List.IsChain R (visited ++ [it]) ∧
      (∀ x, (visited ++ [it]).head? = some x → x.va_ = 0#64) ∧
      ∀ x ∈ visited, Fresh m pt x ∧ x.va_.toNat < 2 ^ 47)
    (fun it => 2 ^ 47 - it.va_.toNat) ?_ (n := fuel) (l := []) (s := walked m pt 0#64) ?_ (by omega)
  · obtain ⟨visited, last, hrun, ⟨hfresh, hchain, hhead, hall⟩, hlow⟩ := htotal
    refine ⟨visited, last, hrun, ?_, hchain, hhead, hall⟩
    have hle := hfresh.le
    have hge : ¬last.va_.toNat < 2 ^ 47 := by rw [← low_iff, hlow]; exact Bool.false_ne_true
    omega
  · rintro visited it ⟨hfresh, hchain, hhead, hall⟩ hlow
    rw [low_iff] at hlow
    obtain ⟨it', hit', hfresh', hrel⟩ := hstep it hfresh hlow
    have hlt := hR it it' hrel
    refine ⟨it', hit', ⟨hfresh', ?_, ?_, ?_⟩, by omega⟩
    · rw [id, List.append_assoc, List.singleton_append, List.isChain_append_cons_cons]
      exact ⟨hchain, hrel, List.isChain_singleton it'⟩
    · intro x hx
      apply hhead x
      cases visited with
      | nil => exact hx
      | cons y visited => exact hx
    · intro x hx
      rw [id, List.mem_append, List.mem_singleton] at hx
      rcases hx with hx | rfl
      · exact hall x hx
      · exact ⟨hfresh, hlow⟩
  · refine ⟨hinit, List.isChain_singleton _, fun x hx => ?_, fun x hx => absurd hx (by simp)⟩
    rw [List.nil_append, List.head?_cons, Option.some.injEq] at hx
    rw [← hx, walked_va]

/-- Neighbours in order are in order throughout. -/
lemma pairwise_of_chain {R T : Vmiter → Vmiter → Prop} {visited : List Vmiter} {last : Vmiter}
    (h : List.IsChain R (visited ++ [last])) (himp : ∀ x y, R x y → T x y)
    (htrans : ∀ x y z, T x y → T y z → T x z) : visited.Pairwise T := by
  have : IsTrans Vmiter T := ⟨htrans⟩
  have hpairwise := (List.isChain_iff_pairwise (R := T)).1 (h.imp himp)
  exact (List.pairwise_append.1 hpairwise).1

end LowLoop

end Vmiter

/-- The loop with `next` visits every present page of the low half, in order; the ranges visited
by the loop with `next_range` partition the low half, and one entry covers each. -/
theorem lowLoops_cover (m : Memory) (pt : PagePtr) (hok : ∀ va, ∃ it, Vmiter.new m pt va = .ok it)
    (fuel : Nat) (hfuel : 2 ^ 47 < fuel) :
    (∃ visited last,
      Vmiter.lowLoop fuel m pt (fun m it => it.next m) = some (.ok (visited, last)) ∧
      visited.Pairwise (fun x y => x.va_.toNat < y.va_.toNat) ∧
      (∀ x ∈ visited, Vmiter.new m pt x.va_ = .ok x ∧ x.va_.toNat < 2 ^ 47) ∧
      (∀ a : Word, a.toNat < 2 ^ 47 → a.toNat % 4096 = 0 → (mmuTranslate m pt a).isSome →
        ∃ x ∈ visited, x.va_ = a) ∧
      ∀ l₁ x y l₂, visited = l₁ ++ x :: y :: l₂ → ∀ a : Word, a.toNat % 4096 = 0 →
        x.va_.toNat < a.toNat → a.toNat < y.va_.toNat → mmuTranslate m pt a = none) ∧
    (∃ visited last,
      Vmiter.lowLoop fuel m pt (fun m it => it.nextRange m) = some (.ok (visited, last)) ∧
      visited.Pairwise (fun x y => x.lastVa.toNat ≤ y.va_.toNat) ∧
      (∀ a : Word, a.toNat < 2 ^ 47 →
        ∃ x ∈ visited, x.va_.toNat ≤ a.toNat ∧ a.toNat < x.lastVa.toNat) ∧
      ∀ x ∈ visited, x.lastVa.toNat ≤ 2 ^ 47 ∧ ∀ a : Word, x.va_.toNat ≤ a.toNat →
        a.toNat < x.lastVa.toNat → ∃ it, Vmiter.new m pt a = .ok it ∧ it.pep_ = x.pep_ ∧
          it.perm m = x.perm m) := by
  constructor
  · obtain ⟨visited, last, hrun, hlast, hchain, hhead, hall⟩ := Vmiter.lowLoop_total hok
      (fun _ _ h => h.1) (fun _ => Vmiter.next_spec hok) hfuel
    refine ⟨visited, last, hrun, ?_, fun x hx => ⟨?_, (hall x hx).2⟩, fun a ha halign hpresent => ?_, ?_⟩
    · exact Vmiter.pairwise_of_chain hchain (fun _ _ h => h.1) (fun _ _ _ h h' => h.trans h')
    · have hfresh := (hall x hx).1
      have hwalk := hfresh.settled.eq_walked
      rw [hfresh.root] at hwalk
      rw [Vmiter.new_walked hok, ← hwalk]
    · obtain ⟨x, y, hx, hbetween, hle, hlt⟩ := chain_interval (fun it : Vmiter => it.va_.toNat) hchain
        (a := a.toNat) (fun x hx => by rw [hhead x hx]; exact Nat.zero_le _) (by omega)
      refine ⟨x, hx, BitVec.eq_of_toNat_eq ?_⟩
      by_contra hne
      have hnone := hbetween.2 a halign (by omega) hlt
      rw [hnone] at hpresent
      exact absurd hpresent (by decide)
    · rintro l₁ x y l₂ rfl a halign h1 h2
      rw [List.append_assoc, List.cons_append, List.cons_append, List.isChain_append_cons_cons] at hchain
      exact hchain.2.1.2 a halign h1 h2
  · obtain ⟨visited, last, hrun, hlast, hchain, hhead, hall⟩ := Vmiter.lowLoop_total hok
      (fun _ _ h => h.1) (fun _ => Vmiter.nextRange_spec hok) hfuel
    refine ⟨visited, last, hrun, ?_, fun a ha => ?_, fun x hx => ?_⟩
    · have hpairwise := Vmiter.pairwise_of_chain
        (T := fun x y => x.va_.toNat < x.lastVa.toNat ∧ x.lastVa.toNat ≤ y.va_.toNat) hchain
        (fun x y h => by rw [← h.2]; exact ⟨h.1, le_rfl⟩) (fun x y z h h' => by omega)
      exact hpairwise.imp (fun h => h.2)
    · obtain ⟨x, y, hx, hadjacent, hle, hlt⟩ := chain_interval (fun it : Vmiter => it.va_.toNat) hchain
        (a := a.toNat) (fun x hx => by rw [hhead x hx]; exact Nat.zero_le _) (by omega)
      exact ⟨x, hx, hle, by rw [← hadjacent.2]; exact hlt⟩
    · obtain ⟨hfresh, hlow⟩ := hall x hx
      obtain ⟨_, hend, _, hmove⟩ := hfresh.settled.lastVa_low hlow
      refine ⟨hend, fun a h1 h2 => ⟨{ x with va_ := a }, ?_, rfl, rfl⟩⟩
      rw [Vmiter.new_walked hok, ← hfresh.root]
      exact congrArg Except.ok (hmove a h1 h2).eq_walked.symm

theorem lowLoops_cover_sample : ∃ visited last, Vmiter.lowLoop (2 ^ 47 + 1) sampleMemory sampleTable
    (fun m it => it.next m) = some (.ok (visited, last)) ∧ ∃ x ∈ visited, x.va_ = 0x200000#64 := by
  have hok := fun va => (⟨_, new_eq_ok rfl sampleMemory_wellFormed va⟩ :
    ∃ it, Vmiter.new sampleMemory sampleTable va = .ok it)
  obtain ⟨visited, last, hrun, _, _, hcover, _⟩ :=
    (lowLoops_cover sampleMemory sampleTable hok (2 ^ 47 + 1) (by omega)).1
  exact ⟨visited, last, hrun, hcover 0x200000#64 (by decide) (by decide) (by decide)⟩

end Cs300Projects.WeensyOS
