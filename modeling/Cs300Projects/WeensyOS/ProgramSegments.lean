import Cs300Projects.WeensyOS.KernelPages

/-!
# Loading segments

The two passes of `process_setup` over the segments of a program. The first one claims the pages that the segments
touch, and its assertion fails where two of them share a page. So the second one fills all segments without writing
over one that is already there.
-/

namespace Cs300Projects.WeensyOS.Kernel

open State

variable {L : Layout} {s s' t : State} {seg : Segment} {segments : List Segment}

/-- The page has bytes of the segment. -/
def Segment.Touches (seg : Segment) (page : Nat) : Prop :=
  page * pagesize < seg.va + seg.size ∧ seg.va < (page + 1) * pagesize

/-- The bytes of the segment: its data, and null bytes behind it. -/
def Segment.contents (seg : Segment) (k : Nat) : UInt8 := (seg.data[k]?).getD 0

/-- What the linker guarantees of a segment in application memory. -/
structure Segment.InApplication (seg : Segment) : Prop where
  pos : 0 < seg.size
  data_le : seg.data.length ≤ seg.size
  start : procStartAddr ≤ seg.va
  fits : seg.va + seg.size ≤ memsizePhysical

/-- The pages with `P` were unused and have been claimed; nothing else has changed. -/
structure Claimed (L : Layout) (P : Nat → Prop) (s s' : State) : Prop where
  unused : ∀ page, P page → s.mem (L.pages + page) = 0
  claimed : ∀ page, P page → s'.mem (L.pages + page) = 1
  frame : ∀ x, (∀ page, P page → x ≠ L.pages + page) → s'.mem x = s.mem x

namespace Claimed

variable {P Q : Nat → Prop}

lemma refl (s : State) (hP : ∀ page, ¬ P page) : Claimed L P s s :=
  ⟨fun page h => absurd h (hP page), fun page h => absurd h (hP page), fun _ _ => rfl⟩

lemma congr (h : Claimed L P s s') (hPQ : ∀ page, Q page ↔ P page) : Claimed L Q s s' :=
  ⟨fun page hQ => h.unused page ((hPQ page).1 hQ), fun page hQ => h.claimed page ((hPQ page).1 hQ),
    fun x hx => h.frame x fun page hP => hx page ((hPQ page).2 hP)⟩

lemma other (h : Claimed L P s s') {page : Nat} (hpage : ¬ P page) : s'.mem (L.pages + page) = s.mem (L.pages + page) := by
  apply h.frame
  intro page' hP heq
  exact hpage (Nat.add_left_cancel heq ▸ hP)

lemma disjoint (h : Claimed L P s t) (h' : Claimed L Q t s') {page : Nat} (hP : P page) : ¬ Q page := by
  intro hQ
  have hone := h.claimed page hP
  rw [h'.unused page hQ] at hone
  cases hone

lemma trans (h : Claimed L P s t) (h' : Claimed L Q t s') : Claimed L (fun page => P page ∨ Q page) s s' := by
  constructor
  · rintro page (hP | hQ)
    · exact h.unused page hP
    · rw [← h.other fun hP => h.disjoint h' hP hQ]
      exact h'.unused page hQ
  · rintro page (hP | hQ)
    · rw [h'.other (h.disjoint h' hP)]
      exact h.claimed page hP
    · exact h'.claimed page hQ
  · intro x hx
    rw [h'.frame x fun page hQ => hx page (Or.inr hQ)]
    exact h.frame x fun page hP => hx page (Or.inl hP)

end Claimed

lemma claimed_claim (s : State) {page : Nat} (h : s.used L page = false) :
    Claimed L (fun page' => page' = page) s ((s.claim L page).event (.claimed page)) := by
  constructor
  · rintro _ rfl
    simpa [State.used] using h
  · rintro _ rfl
    exact Bytes.fill_inside (Nat.le_refl _) (Nat.lt_succ_self _)
  · intro x hx
    apply Bytes.fill_outside
    have hne := hx page rfl
    unfold Bytes.Outside
    omega

/-! ### The first pass -/

lemma claimed_claimSegment {fuel : Nat} (hfits : seg.va + seg.size ≤ memsizePhysical)
    (h : s.claimSegment L fuel seg = some s') : Claimed L seg.Touches s s' := by
  unfold State.claimSegment at h
  rw [Option.join_eq_some_iff] at h
  -- after `k` rounds, the first `k` pages are claimed
  let I (r : State × Nat) : Prop := ∃ k, r.2 = (seg.va / pagesize + k) * pagesize ∧
    (∀ j, j < k → (seg.va / pagesize + j) * pagesize < seg.va + seg.size) ∧
    Claimed L (fun page => seg.va / pagesize ≤ page ∧ page < seg.va / pagesize + k) s r.1
  have hstart : I (s, roundDown seg.va pagesize) := by
    refine ⟨0, ?_, fun j hj => absurd hj (Nat.not_lt_zero j), Claimed.refl s fun page hpage => ?_⟩
    · unfold roundDown pagesize
      omega
    · omega
  have hnowrap : (seg.va + seg.size) % 2 ^ 64 = seg.va + seg.size := by
    apply Nat.mod_eq_of_lt
    unfold memsizePhysical at hfits
    omega
  refine Loop.run_invariant (State.claimRound L seg) I (fun r => ∀ t, r = some t → Claimed L seg.Touches s t) ?_ ?_
    hstart h s' rfl
  · rintro ⟨t, a⟩ r ⟨k, ha, hbefore, hclaimed⟩ hround
    dsimp only at ha hclaimed
    obtain ⟨hlt, hfree, rfl⟩ := claimRound_next hround
    have hpage : a / pagesize = seg.va / pagesize + k := by
      rw [ha, Nat.mul_div_cancel _ (by decide)]
    rw [hnowrap] at hlt
    have hnext := hclaimed.trans (claimed_claim t hfree)
    refine ⟨k + 1, ?_, ?_, hnext.congr fun page => ?_⟩
    · dsimp only
      unfold pagesize memsizePhysical at *
      omega
    · intro j hj
      rcases Nat.lt_succ_iff_lt_or_eq.1 hj with hbelow | rfl
      · exact hbefore j hbelow
      · exact ha ▸ hlt
    · omega
  · rintro ⟨t, a⟩ r ⟨k, ha, hbefore, hclaimed⟩ hround t' rfl
    dsimp only at ha hclaimed
    obtain ⟨hge, rfl⟩ := claimRound_done hround
    rw [hnowrap] at hge
    refine hclaimed.congr fun page => ?_
    unfold Segment.Touches
    constructor
    · rintro ⟨hend, hstart⟩
      unfold pagesize at *
      omega
    · rintro ⟨hle, hlt⟩
      have hin := hbefore (page - seg.va / pagesize) (by omega)
      rw [Nat.add_sub_cancel' hle] at hin
      refine ⟨hin, ?_⟩
      unfold pagesize at *
      omega

lemma claimed_claimSegments {fuel : Nat} (hfits : ∀ seg ∈ segments, seg.va + seg.size ≤ memsizePhysical)
    (h : segments.foldlM (State.claimSegment L fuel) s = some s') :
    Claimed L (fun page => ∃ seg ∈ segments, seg.Touches page) s s' ∧
      segments.Pairwise fun a b => ∀ page, a.Touches page → ¬ b.Touches page := by
  induction segments generalizing s with
  | nil =>
    cases h
    exact ⟨Claimed.refl _ (by simp), List.Pairwise.nil⟩
  | cons seg segments ih =>
    rw [List.foldlM_cons, Option.bind_eq_bind, Option.bind_eq_some_iff] at h
    obtain ⟨t, hfirst, hrest⟩ := h
    have hseg := claimed_claimSegment (hfits seg List.mem_cons_self) hfirst
    obtain ⟨hclaimed, hpairwise⟩ := ih (fun seg' hmem => hfits seg' (List.mem_cons_of_mem _ hmem)) hrest
    refine ⟨(hseg.trans hclaimed).congr fun page => by simp, List.pairwise_cons.2 ⟨?_, hpairwise⟩⟩
    intro seg' hmem page htouches htouches'
    exact hseg.disjoint hclaimed htouches ⟨seg', hmem, htouches'⟩

/-- A segment whose pages are unused is claimed. -/
lemma claimSegment_total {fuel : Nat} (hseg : seg.InApplication) (hunused : ∀ page, seg.Touches page → s.mem (L.pages + page) = 0)
    (hfuel : 512 < fuel) : ∃ s', s.claimSegment L fuel seg = some s' := by
  have hpos := hseg.pos
  have hstart := hseg.start
  have hfits := hseg.fits
  have hnowrap : (seg.va + seg.size) % 2 ^ 64 = seg.va + seg.size := by
    apply Nat.mod_eq_of_lt
    unfold memsizePhysical at hfits
    omega
  -- the pages that are still to be claimed are unused
  let I (r : State × Nat) : Prop := (∃ k, r.2 = (seg.va / pagesize + k) * pagesize) ∧ seg.va < r.2 + pagesize ∧
    r.2 < seg.va + seg.size + pagesize ∧
    ∀ page, seg.Touches page → r.2 ≤ page * pagesize → r.1.mem (L.pages + page) = 0
  have hinit : I (s, roundDown seg.va pagesize) := by
    refine ⟨⟨0, ?_⟩, ?_, ?_, fun page htouches _ => hunused page htouches⟩
    · unfold roundDown pagesize
      omega
    · unfold roundDown pagesize
      omega
    · unfold roundDown pagesize
      omega
  have hloop : ∃ r, Loop.run (State.claimRound L seg) fuel (s, roundDown seg.va pagesize) = some r ∧ r.isSome = true := by
    refine Loop.run_total (State.claimRound L seg) I (fun r => r.isSome = true)
      (fun r => (seg.va + seg.size + pagesize - r.2) / pagesize) ?_ ?_ hinit ?_
    · rintro ⟨t, a⟩ r ⟨⟨k, ha⟩, hlow, hhigh, hrest⟩ hround
      dsimp only at ha hlow hhigh hrest
      obtain ⟨hlt, hfree, rfl⟩ := claimRound_next hround
      rw [hnowrap] at hlt
      have hnext : (a + pagesize) % 2 ^ 64 = a + pagesize := by
        unfold pagesize memsizePhysical at *
        omega
      have hpage : a / pagesize * pagesize = a := by
        rw [ha, Nat.mul_div_cancel _ (by decide)]
      dsimp only
      rw [hnext]
      refine ⟨⟨⟨k + 1, ?_⟩, ?_, ?_, fun page htouches hge => ?_⟩, ?_⟩
      · rw [ha]
        unfold pagesize
        omega
      · omega
      · omega
      · rw [(claimed_claim t hfree).other]
        · exact hrest page htouches (by omega)
        · rintro rfl
          unfold pagesize at *
          omega
      · unfold pagesize at *
        omega
    · rintro ⟨t, a⟩ r ⟨⟨k, ha⟩, hlow, hhigh, hrest⟩ hround
      dsimp only at ha hlow hhigh hrest
      unfold State.claimRound at hround
      dsimp only at hround
      rw [hnowrap] at hround
      split at hround
      · rename_i hlt
        have hpage : a / pagesize * pagesize = a := by
          rw [ha, Nat.mul_div_cancel _ (by decide)]
        have hzero : t.mem (L.pages + a / pagesize) = 0 := by
          apply hrest
          · unfold Segment.Touches
            unfold pagesize at *
            omega
          · omega
        have hfree : State.used L t (a / pagesize) = false := by
          unfold State.used
          rw [hzero]
          rfl
        rw [hfree] at hround
        cases hround
      · cases hround
        rfl
    · dsimp only
      unfold roundDown pagesize memsizePhysical procStartAddr at *
      omega
  obtain ⟨r, hrun, hsome⟩ := hloop
  obtain ⟨s', rfl⟩ := Option.isSome_iff_exists.1 hsome
  exact ⟨s', by rw [State.claimSegment, hrun]; rfl⟩

lemma claimSegments_total {fuel : Nat} (hsegs : ∀ seg ∈ segments, seg.InApplication)
    (hapart : segments.Pairwise fun a b => ∀ page, a.Touches page → ¬b.Touches page)
    (hunused : ∀ seg ∈ segments, ∀ page, seg.Touches page → s.mem (L.pages + page) = 0) (hfuel : 512 < fuel) :
    ∃ s', segments.foldlM (State.claimSegment L fuel) s = some s' := by
  induction segments generalizing s with
  | nil => exact ⟨s, rfl⟩
  | cons seg segments ih =>
    obtain ⟨hfirst, hrest⟩ := List.pairwise_cons.1 hapart
    obtain ⟨s₁, hclaim⟩ := claimSegment_total (hsegs seg List.mem_cons_self) (hunused seg List.mem_cons_self) hfuel
    have hclaimed := claimed_claimSegment (hsegs seg List.mem_cons_self).fits hclaim
    obtain ⟨s', hs'⟩ := ih (s := s₁) (fun seg' hmem => hsegs seg' (List.mem_cons_of_mem _ hmem)) hrest
      fun seg' hmem page htouches => by
        rw [hclaimed.other fun hboth => hfirst seg' hmem page hboth htouches]
        exact hunused seg' (List.mem_cons_of_mem _ hmem) page htouches
    exact ⟨s', by rw [List.foldlM_cons, hclaim]; exact hs'⟩

/-! ### The second pass -/

lemma Segment.touches_of_mem {k : Nat} (hk : k < seg.size) : seg.Touches ((seg.va + k) / pagesize) := by
  unfold Segment.Touches pagesize
  omega

lemma Segment.contents_of_ge {k : Nat} (h : seg.data.length ≤ k) : seg.contents k = 0 := by
  unfold Segment.contents
  rw [List.getElem?_eq_none h, Option.getD_none]

lemma loadSegment_contents (s : State) (hdata : seg.data.length ≤ seg.size) :
    (∀ k, k < seg.size → (s.loadSegment seg).mem (seg.va + k) = seg.contents k) ∧
      ∀ x, Bytes.Outside x seg.va seg.size → (s.loadSegment seg).mem x = s.mem x := by
  constructor
  · intro k hk
    change Bytes.copy (Bytes.fill s.mem seg.va 0 seg.size) seg.va seg.data (seg.va + k) = _
    unfold Bytes.copy Segment.contents
    rw [if_pos (Nat.le_add_right _ _), Nat.add_sub_cancel_left, Bytes.fill_inside (Nat.le_add_right _ _) (by omega)]
  · intro x hx
    have houtside : Bytes.Outside x seg.va seg.data.length := by
      unfold Bytes.Outside at *
      omega
    exact (Bytes.copy_outside houtside).trans (Bytes.fill_outside hx)

lemma loadSegments_contents (hdata : ∀ seg ∈ segments, seg.data.length ≤ seg.size)
    (hpairwise : segments.Pairwise fun a b => ∀ page, a.Touches page → ¬ b.Touches page) (s : State) :
    (∀ seg ∈ segments, ∀ k, k < seg.size → (segments.foldl State.loadSegment s).mem (seg.va + k) = seg.contents k) ∧
      ∀ x, (∀ seg ∈ segments, Bytes.Outside x seg.va seg.size) → (segments.foldl State.loadSegment s).mem x = s.mem x := by
  induction segments generalizing s with
  | nil => exact ⟨by simp, fun _ _ => rfl⟩
  | cons seg segments ih =>
    obtain ⟨hapart, hrest⟩ := List.pairwise_cons.1 hpairwise
    obtain ⟨hcontents, hframe⟩ := loadSegment_contents s (hdata seg List.mem_cons_self)
    obtain ⟨hall, hkeep⟩ := ih (fun seg' hmem => hdata seg' (List.mem_cons_of_mem _ hmem)) hrest (s.loadSegment seg)
    rw [List.foldl_cons]
    constructor
    · intro seg' hmem k hk
      rcases List.mem_cons.1 hmem with rfl | hmem
      · rw [hkeep (seg'.va + k) ?_]
        · exact hcontents k hk
        · intro other hother
          by_contra hin
          have hpage := hapart other hother _ (Segment.touches_of_mem hk)
          unfold Bytes.Outside at hin
          have htouches : other.Touches ((other.va + (seg'.va + k - other.va)) / pagesize) :=
            Segment.touches_of_mem (by omega)
          rw [Nat.add_sub_cancel' (by omega)] at htouches
          exact hpage htouches
      · exact hall seg' hmem k hk
    · intro x hx
      rw [hkeep x fun other hother => hx other (List.mem_cons_of_mem _ hother)]
      exact hframe x (hx seg List.mem_cons_self)

end Cs300Projects.WeensyOS.Kernel
