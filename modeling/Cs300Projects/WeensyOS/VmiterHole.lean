import Cs300Projects.WeensyOS.VmiterUnmap
import Mathlib.Logic.Function.Basic

/-!
# The shared entry of the non-canonical addresses

All iterators at non-canonical addresses point at `zero_pe`. Runs of any number of iterators on any page
tables, between which other code changes memory: `zero_pe` stays zero as long as no call of `try_map` there
asks for permissions without `PTE_P`, `PTE_W` and `PTE_U`, which its assertion does not stop. No page table
reaches the object `zero_pe` itself.
-/

namespace Cs300Projects.WeensyOS
open BitField

/-- The kernel's iterators, memory, and the pages that `kalloc` has left. -/
structure VmSystem (ι : Type*) where
  mem : Memory
  free : List PagePtr
  its : ι → Option Vmiter

/-- What the kernel does with an iterator; other code changes memory and frees pages. -/
inductive VmAction (ι : Type*) where
  | construct (i : ι) (pt : PagePtr) (va : Word)
  | call (i : ι) (op : VmiterOp)
  | other (word : Word → Word) (free : List PagePtr)

section Systems

variable {ι : Type*} [DecidableEq ι]

namespace VmSystem

def step (s : VmSystem ι) : VmAction ι → Except Stop (VmSystem ι)
  | .construct i pt va =>
    match Vmiter.new s.mem pt va with
    | .ok it => .ok { s with its := Function.update s.its i (some it) }
    | .error e => .error e
  | .call i op =>
    match s.its i with
    | none => .ok s
    | some it =>
      match MapState.step ⟨s.mem, s.free, it⟩ op with
      | .ok t => .ok ⟨t.mem, t.free, Function.update s.its i (some t.it)⟩
      | .error e => .error e
  | .other word free => .ok { s with mem := { s.mem with word := word }, free := free }

/-- The action calls `try_map(pa, perm)` on an iterator at a non-canonical address. -/
def MapsHole (s : VmSystem ι) : VmAction ι → Prop
  | .call i (.tryMap _ _) => ∃ it, s.its i = some it ∧ vaIsCanonical it.va_ = false
  | _ => False

/-- The call passes the assertions with permissions that are not zero, and there is a page for it. -/
def Harmful (s : VmSystem ι) : VmAction ι → Prop
  | .call i (.tryMap pa perm) => ∃ it, s.its i = some it ∧ vaIsCanonical it.va_ = false ∧
      it.va_ &&& pageoffmaskBase = 0#64 ∧ perm ≠ 0#32 ∧ perm.signExtend 64 &&& (pteP ||| pteW ||| pteU) = 0#64 ∧
      pa &&& pteP = 0#64 ∧ s.free ≠ []
  | _ => False

/-- The shared entry is 0, and every iterator at a non-canonical address finds nothing. -/
structure HoleUnmapped (s : VmSystem ι) : Prop where
  zeroPe : s.mem.zeroPe = 0#64
  iterators : ∀ i it, s.its i = some it → vaIsCanonical it.va_ = false → it.present s.mem = false ∧ it.pa s.mem = -1#64
  fresh : ∀ pt va, vaIsCanonical va = false → ∃ it, Vmiter.new s.mem pt va = .ok it ∧ it.present s.mem = false ∧
    it.pa s.mem = -1#64

/-- The hole is unmapped in every state of the run, and no call of `try_map` there changes memory. -/
def HoleRun (s : VmSystem ι) : List (VmAction ι) → Prop
  | [] => s.HoleUnmapped
  | a :: actions => s.HoleUnmapped ∧ ∀ s', s.step a = .ok s' → (s.MapsHole a → s'.mem = s.mem) ∧ s'.HoleRun actions

/-- No action that the run takes is harmful in its state. -/
def HarmlessRun (s : VmSystem ι) : List (VmAction ι) → Prop
  | [] => True
  | a :: actions => ∀ s', s.step a = .ok s' → ¬s.Harmful a ∧ s'.HarmlessRun actions

end VmSystem

/-! ### Iterators and the shared entry -/

/-- The iterator points at the shared entry exactly when its address is not canonical. -/
structure Vmiter.Anchored (it : Vmiter) : Prop where
  hole : vaIsCanonical it.va_ = false → it.pep_ = .zeroPe ∧ it.level_ = 3 ∧ it.perm_ = 0#32
  entry : vaIsCanonical it.va_ = true → ∃ a, it.pep_ = .entry a
  level_le : it.level_ ≤ 3

section Anchored

variable {m : Memory} {it it' : Vmiter} {s s' : MapState}

lemma Vmiter.descend_entry (m : Memory) (fuel : Nat) {it : Vmiter} (h : ∃ a, it.pep_ = .entry a) :
    ∃ a, (descend m fuel it).pep_ = .entry a := by
  induction fuel generalizing it with
  | zero => exact h
  | succ fuel ih =>
    rw [descend]
    split
    · exact ih ⟨_, rfl⟩
    · exact h

lemma Vmiter.descend_level_le (m : Memory) (fuel : Nat) {it : Vmiter} (h : it.level_ ≤ 3) (hfuel : fuel ≤ 3) :
    (descend m fuel it).level_ ≤ 3 := by
  induction fuel generalizing it with
  | zero => exact h
  | succ fuel ih =>
    rw [descend]
    split
    · exact ih (show fuel ≤ 3 by omega) (by omega)
    · exact h

lemma Vmiter.Anchored.of_canonical (hc : vaIsCanonical it.va_ = true) (hentry : ∃ a, it.pep_ = .entry a)
    (hle : it.level_ ≤ 3) : it.Anchored :=
  ⟨fun hc' => absurd (hc.symm.trans hc') (by decide), fun _ => hentry, hle⟩

lemma Vmiter.Anchored.of_hole (hc : vaIsCanonical it.va_ = false) (hpep : it.pep_ = .zeroPe) (hlevel : it.level_ = 3)
    (hperm : it.perm_ = 0#32) : it.Anchored :=
  ⟨fun _ => ⟨hpep, hlevel, hperm⟩, fun hc' => absurd (hc.symm.trans hc') (by decide), hlevel.le⟩

lemma Vmiter.Anchored.down (h : it.Anchored) (hz : m.zeroPe = 0#64) (hd : it.down m = .ok it') : it'.Anchored := by
  rw [Vmiter.down, Vmiter.check_eq_ok] at hd
  rw [hd.2]
  refine ⟨fun hc => ?_, fun hc => ?_, Vmiter.descend_level_le m _ h.level_le h.level_le⟩
  · rw [Vmiter.descend_va] at hc
    obtain ⟨hpep, hlevel, hperm⟩ := h.hole hc
    rw [hlevel, Vmiter.descend, hpep, Memory.read_zeroPe, hz, if_neg not_isTable_zero]
    exact ⟨hpep, hlevel, hperm⟩
  · rw [Vmiter.descend_va] at hc
    exact Vmiter.descend_entry m _ (h.entry hc)

lemma Vmiter.Anchored.realFind (h : it.Anchored) (hz : m.zeroPe = 0#64) {va : Word}
    (hf : it.realFind m va = .ok it') : it'.Anchored := by
  rw [Vmiter.realFind] at hf
  by_cases hfar : it.level_ = 3 ∨ (it.va_ ^^^ va) &&& ~~~pageoffmask (it.level_ + 1) ≠ 0#64
  · rw [if_pos hfar] at hf
    cases hc : vaIsCanonical va with
    | true =>
      rw [hc, if_pos rfl] at hf
      refine Anchored.down ?_ hz hf
      exact .of_canonical hc ⟨_, rfl⟩ le_rfl
    | false =>
      rw [hc, if_neg (by decide)] at hf
      refine Anchored.down ?_ hz hf
      exact .of_hole hc rfl rfl rfl
  · rw [if_neg hfar] at hf
    obtain ⟨hlevel, hnear⟩ := not_or.mp hfar
    rw [not_not] at hnear
    have hle := h.level_le
    rw [same_block_iff (by omega)] at hnear
    have hcanonical : vaIsCanonical va = true := by
      rw [← vaIsCanonical_congr (same_block_mono (by omega) hnear), ← Bool.not_eq_false]
      exact fun hc => hlevel (h.hole hc).2.1
    have hold : vaIsCanonical it.va_ = true := by
      rw [← Bool.not_eq_false]
      exact fun hc => hlevel (h.hole hc).2.1
    obtain ⟨a, hpep⟩ := h.entry hold
    refine Anchored.down ?_ hz hf
    exact .of_canonical hcanonical ⟨_, by rw [hpep]; rfl⟩ hle

lemma Vmiter.new_anchored (hz : m.zeroPe = 0#64) {pt : PagePtr} {va : Word} (hnew : Vmiter.new m pt va = .ok it) :
    it.Anchored := by
  have hstart : Anchored ⟨pt, .entry (pt.entry 0), 3, initialPerm, 0#64⟩ :=
    .of_canonical (by decide : vaIsCanonical 0#64 = true) ⟨_, rfl⟩ le_rfl
  exact hstart.realFind hz hnew

/-- Below an entry of a table, `try_map` writes entries of tables. -/
lemma installTables_entry {perm : BitVec 32} {fuel : Nat} {b : Bool} (h : ∃ a, s.it.pep_ = .entry a)
    (hlevel : s.it.level_ ≤ 3) (hs : installTables perm fuel s = .ok (b, s')) :
    s'.mem.zeroPe = s.mem.zeroPe ∧ (∃ a, s'.it.pep_ = .entry a) ∧ s'.it.level_ ≤ 3 ∧ s'.it.va_ = s.it.va_ := by
  have hinstalls := installTables_installs hs
  clear hs
  induction hinstalls with
  | done _ => exact ⟨rfl, h, hlevel, rfl⟩
  | noPage _ _ _ => exact ⟨rfl, h, hlevel, rfl⟩
  | @link fuel s s' p free it b _ _ _ hd _ ih =>
    rw [Vmiter.down, Vmiter.check_eq_ok] at hd
    have hpep : ∃ a, it.pep_ = .entry a := by
      rw [hd.2]
      exact Vmiter.descend_entry _ _ h
    have hle : it.level_ ≤ 3 := by
      rw [hd.2]
      exact Vmiter.descend_level_le _ _ hlevel hlevel
    obtain ⟨hzero, hentry, hle', hva⟩ := ih hpep hle
    refine ⟨hzero.trans ?_, hentry, hle', hva.trans ?_⟩
    · obtain ⟨a, ha⟩ := h
      rw [ha]
      rfl
    · dsimp only
      rw [hd.2]
      exact Vmiter.descend_va _ _ _

/-- A call of `try_map` at a canonical address. -/
lemma tryMap_canonical {pa : Word} {perm : BitVec 32} {r : Int} (h : s.it.Anchored) (hc : vaIsCanonical s.it.va_ = true)
    (hmap : tryMap pa perm s = .ok (r, s')) : s'.mem.zeroPe = s.mem.zeroPe ∧ s'.it.Anchored := by
  obtain ⟨b, s₁, hi, hcases⟩ := tryMap_cases hmap
  obtain ⟨hzero, hentry, hle, hva⟩ := installTables_entry (h.entry hc) h.level_le hi
  have hanchored : s₁.it.Anchored := .of_canonical (hva ▸ hc) hentry hle
  rcases hcases with ⟨_, _, rfl⟩ | ⟨_, _, _, rfl⟩ | ⟨_, _, _, e, rfl⟩
  · exact ⟨hzero, hanchored⟩
  · exact ⟨hzero, hanchored⟩
  · obtain ⟨a, ha⟩ := hentry
    refine ⟨?_, hanchored⟩
    dsimp only
    rw [ha, ← hzero]
    rfl

/-- A call of `try_map` in the hole that passes its assertions without permissions that are not zero, or finds
no page, changes nothing. -/
lemma tryMap_hole {pa : Word} {perm : BitVec 32} {r : Int} (h : s.it.Anchored) (hc : vaIsCanonical s.it.va_ = false)
    (hz : s.mem.zeroPe = 0#64) (hharmless : ¬(s.it.va_ &&& pageoffmaskBase = 0#64 ∧ perm ≠ 0#32 ∧
      perm.signExtend 64 &&& (pteP ||| pteW ||| pteU) = 0#64 ∧ pa &&& pteP = 0#64 ∧ s.free ≠ []))
    (hmap : tryMap pa perm s = .ok (r, s')) : s' = s := by
  obtain ⟨hpep, hlevel, hperm⟩ := h.hole hc
  rw [tryMap_eq_ok_iff] at hmap
  obtain ⟨hasserts, ⟨b, s₁⟩, hinstall, hresult⟩ := hmap
  have hflags := hasserts.flags
  rw [hperm, show ~~~0#32 = BitVec.allOnes 32 from rfl, BitVec.and_allOnes] at hflags
  have habove : ¬(s.it.level_ = 0) := by omega
  by_cases hzero : perm = 0#32
  · rw [hzero, installTables_zero, Except.ok.injEq, Prod.mk.injEq] at hinstall
    rw [← hinstall.1, ← hinstall.2, mapLeaf, if_neg habove, Prod.mk.injEq] at hresult
    exact hresult.2
  · have hP : perm.signExtend 64 &&& pteP = 0#64 := by
      rw [show pteP = (pteP ||| pteW ||| pteU) &&& pteP by decide, ← BitVec.and_assoc, hflags, BitVec.zero_and]
    have hpa : mapPa pa perm = pa := if_neg fun hcond => hzero hcond.2
    have habsent := hasserts.absent hP
    rw [hpa] at habsent
    have hfree : s.free = [] := by
      by_contra hfree
      exact hharmless ⟨hasserts.aligned, hzero, hflags, habsent, hfree⟩
    have hread : ¬(s.mem.read s.it.pep_ &&& pteP ≠ 0#64) := by
      rw [hpep, Memory.read_zeroPe, hz]
      decide
    rw [hlevel, installTables, if_pos ⟨by omega, hzero⟩, if_neg hread, hfree, Except.ok.injEq, Prod.mk.injEq] at hinstall
    rw [← hinstall.1, ← hinstall.2, mapLeaf, Prod.mk.injEq] at hresult
    exact hresult.2

/-- A call of `try_map` in the hole that asks for permissions and finds a page links it at the shared entry. -/
lemma tryMap_links_hole {pa : Word} {perm : BitVec 32} {r : Int} (h : s.it.Anchored)
    (hc : vaIsCanonical s.it.va_ = false) (hzero : perm ≠ 0#32) (hfree : s.free ≠ [])
    (hmap : tryMap pa perm s = .ok (r, s')) : s'.mem.zeroPe ≠ 0#64 := by
  obtain ⟨hpep, hlevel, _⟩ := h.hole hc
  obtain ⟨b, s₁, hi, hcases⟩ := tryMap_cases hmap
  obtain ⟨p, free, hp⟩ := List.exists_cons_of_ne_nil hfree
  have hlink : (s.mem.clearPage p).write s.it.pep_ (p.addr ||| pteP ||| pteW ||| pteU) = s.mem.link s.it.pep_ p := rfl
  rw [hlevel, installTables, if_pos ⟨by omega, hzero⟩] at hi
  by_cases hP : s.mem.read s.it.pep_ &&& pteP ≠ 0#64
  · simp [hP] at hi
  · rw [if_neg hP, hp] at hi
    dsimp only at hi
    rw [hlink] at hi
    cases hd : s.it.down (s.mem.link s.it.pep_ p) with
    | error e => simp [hd] at hi
    | ok it =>
      rw [hd] at hi
      dsimp only at hi
      rw [Vmiter.down, Vmiter.check_eq_ok, hlevel] at hd
      have hentry : ∃ a, it.pep_ = .entry a := by
        rw [hd.2, Vmiter.descend, read_link_self, if_pos (isTable_linkEntry p)]
        exact Vmiter.descend_entry _ _ ⟨_, rfl⟩
      have hle : it.level_ ≤ 3 := by
        rw [hd.2]
        exact Vmiter.descend_level_le _ _ h.level_le le_rfl
      obtain ⟨hsame, ⟨a, ha⟩, _, _⟩ := installTables_entry hentry hle hi
      have hlinked : (s.mem.link s.it.pep_ p).zeroPe = linkEntry p := by
        rw [hpep]
        rfl
      have hne : s₁.mem.zeroPe ≠ 0#64 := by
        intro h0
        rw [hsame] at h0
        have hflag := linkEntry_flag p (show 0 < 12 by omega)
        rw [← hlinked, h0] at hflag
        exact absurd hflag (by decide)
      rcases hcases with ⟨_, _, rfl⟩ | ⟨_, _, _, rfl⟩ | ⟨_, _, _, e, rfl⟩
      · exact hne
      · exact hne
      · dsimp only
        rw [ha]
        exact hne

end Anchored

/-! ### Runs -/

/-- The shared entry is 0, and all iterators keep to it. -/
structure VmSystem.Inv (s : VmSystem ι) : Prop where
  zeroPe : s.mem.zeroPe = 0#64
  anchored : ∀ i it, s.its i = some it → it.Anchored

section Runs

variable {s s' : VmSystem ι} {a : VmAction ι}

omit [DecidableEq ι] in
lemma VmSystem.Inv.holeUnmapped (h : s.Inv) : s.HoleUnmapped := by
  have hnone : ∀ it : Vmiter, it.pep_ = .zeroPe → it.present s.mem = false ∧ it.pa s.mem = -1#64 := by
    intro it hpep
    have hP : (s.mem.read it.pep_).getLsbD 0 = false := by
      rw [hpep, Memory.read_zeroPe, h.zeroPe]
      rfl
    exact ⟨by rw [Vmiter.present_eq, hP], Vmiter.pa_of_not_present hP⟩
  refine ⟨h.zeroPe, fun i it hit hc => hnone it ((h.anchored i it hit).hole hc).1, fun pt va hc => ?_⟩
  refine ⟨⟨pt, .zeroPe, 3, 0#32, va⟩, ?_, hnone _ rfl⟩
  rw [Vmiter.new_eq, Vmiter.walked_of_not_canonical h.zeroPe hc, Vmiter.check_eq_ok]
  refine ⟨?_, rfl⟩
  rw [Memory.read_zeroPe, h.zeroPe]
  decide

lemma VmSystem.Inv.update {m : Memory} {free : List PagePtr} {i : ι} {it : Vmiter} (h : s.Inv) (hz : m.zeroPe = 0#64)
    (hit : it.Anchored) : VmSystem.Inv ⟨m, free, Function.update s.its i (some it)⟩ := by
  refine ⟨hz, fun j it' hj => ?_⟩
  dsimp only at hj
  by_cases hij : j = i
  · rw [hij, Function.update_self, Option.some.injEq] at hj
    exact hj ▸ hit
  · rw [Function.update_of_ne hij] at hj
    exact h.anchored j it' hj

/-- A call on an iterator moves it, or is `try_map`. -/
lemma MapState.step_cases {t t' : MapState} {op : VmiterOp} (hstep : t.step op = .ok t') :
    (∃ va it, t.it.realFind t.mem va = .ok it ∧ t' = { t with it := it }) ∨
      ∃ pa perm r, op = .tryMap pa perm ∧ WeensyOS.tryMap pa perm t = .ok (r, t') := by
  have hmoves : ∀ {f : Memory → Vmiter → Except Stop Vmiter}, (∃ va, f t.mem t.it = t.it.realFind t.mem va) →
      t.move f = .ok t' → ∃ va it, t.it.realFind t.mem va = .ok it ∧ t' = { t with it := it } := by
    rintro f ⟨va, hva⟩ hmove
    unfold MapState.move at hmove
    rw [hva] at hmove
    cases hf : t.it.realFind t.mem va with
    | error e => simp [hf] at hmove
    | ok it =>
      rw [hf, Except.ok.injEq] at hmove
      exact ⟨va, it, hf, hmove.symm⟩
  cases op with
  | find va =>
    unfold MapState.step at hstep
    exact Or.inl (hmoves ⟨va, rfl⟩ hstep)
  | advance delta =>
    unfold MapState.step at hstep
    exact Or.inl (hmoves ⟨_, rfl⟩ hstep)
  | retreat delta =>
    unfold MapState.step at hstep
    exact Or.inl (hmoves ⟨_, rfl⟩ hstep)
  | next =>
    unfold MapState.step at hstep
    exact Or.inl (hmoves ⟨_, rfl⟩ hstep)
  | nextRange =>
    unfold MapState.step at hstep
    exact Or.inl (hmoves ⟨_, rfl⟩ hstep)
  | tryMap pa perm =>
    unfold MapState.step at hstep
    cases hmap : WeensyOS.tryMap pa perm t with
    | error e => simp [hmap] at hstep
    | ok r =>
      obtain ⟨r, t₁⟩ := r
      simp only [hmap, Except.ok.injEq] at hstep
      exact Or.inr ⟨pa, perm, r, rfl, hstep ▸ hmap⟩

lemma VmSystem.Inv.step (h : s.Inv) (hharmless : ¬s.Harmful a) (hs : s.step a = .ok s') :
    (s.MapsHole a → s'.mem = s.mem) ∧ s'.Inv := by
  cases a with
  | construct i pt va =>
    unfold VmSystem.step at hs
    cases hnew : Vmiter.new s.mem pt va with
    | error e => simp [hnew] at hs
    | ok it =>
      simp only [hnew, Except.ok.injEq] at hs
      rw [← hs]
      exact ⟨fun hmaps => hmaps.elim, h.update h.zeroPe (Vmiter.new_anchored h.zeroPe hnew)⟩
  | other word free =>
    unfold VmSystem.step at hs
    rw [Except.ok.injEq] at hs
    rw [← hs]
    exact ⟨fun hmaps => hmaps.elim, h.zeroPe, h.anchored⟩
  | call i op =>
    unfold VmSystem.step at hs
    cases hit : s.its i with
    | none =>
      simp only [hit, Except.ok.injEq] at hs
      exact hs ▸ ⟨fun _ => rfl, h⟩
    | some it =>
      have hanchored := h.anchored i it hit
      simp only [hit] at hs
      cases hstep : MapState.step ⟨s.mem, s.free, it⟩ op with
      | error e => simp [hstep] at hs
      | ok t =>
        simp only [hstep, Except.ok.injEq] at hs
        rw [← hs]
        rcases MapState.step_cases hstep with ⟨va, it', hfind, rfl⟩ | ⟨pa, perm, r, rfl, hmap⟩
        · exact ⟨fun _ => rfl, h.update h.zeroPe (hanchored.realFind h.zeroPe hfind)⟩
        · cases hc : vaIsCanonical it.va_ with
          | true =>
            obtain ⟨hzero, hit'⟩ := tryMap_canonical (s := ⟨s.mem, s.free, it⟩) hanchored hc hmap
            refine ⟨?_, h.update (hzero.trans h.zeroPe) hit'⟩
            rintro ⟨it₀, hit₀, hc₀⟩
            rw [hit, Option.some.injEq] at hit₀
            rw [← hit₀, hc] at hc₀
            cases hc₀
          | false =>
            have hsame := tryMap_hole (s := ⟨s.mem, s.free, it⟩) hanchored hc h.zeroPe
              (fun hcond => hharmless ⟨it, hit, hc, hcond⟩) hmap
            rw [hsame]
            exact ⟨fun _ => rfl, h.update h.zeroPe hanchored⟩

lemma VmSystem.Inv.harmful (h : s.Inv) (hs : s.step a = .ok s') (hharmful : s.Harmful a) : ¬s'.HoleUnmapped := by
  intro hhole
  cases a with
  | construct i pt va => exact hharmful
  | other word free => exact hharmful
  | call i op =>
    cases op with
    | find va => exact hharmful
    | advance delta => exact hharmful
    | retreat delta => exact hharmful
    | next => exact hharmful
    | nextRange => exact hharmful
    | tryMap pa perm =>
      obtain ⟨it, hit, hc, _, hzero, _, _, hfree⟩ := hharmful
      unfold VmSystem.step at hs
      simp only [hit, MapState.step] at hs
      cases hmap : WeensyOS.tryMap pa perm ⟨s.mem, s.free, it⟩ with
      | error e => simp [hmap] at hs
      | ok r =>
        obtain ⟨r, t⟩ := r
        simp only [hmap, Except.ok.injEq] at hs
        have hzeroPe := hhole.zeroPe
        rw [← hs] at hzeroPe
        exact tryMap_links_hole (s := ⟨s.mem, s.free, it⟩) (h.anchored i it hit) hc hzero hfree hmap hzeroPe

/-- What one harmless action preserves, a harmless run preserves, and the first harmful action shows. -/
lemma VmSystem.Inv.run_iff (h : s.Inv) (actions : List (VmAction ι)) : s.HoleRun actions ↔ s.HarmlessRun actions := by
  induction actions generalizing s with
  | nil => exact iff_of_true h.holeUnmapped trivial
  | cons a actions ih =>
    constructor
    · rintro ⟨_, hrun⟩ s' hs
      obtain ⟨_, hrest⟩ := hrun s' hs
      have hharmless : ¬s.Harmful a := by
        intro hharmful
        refine h.harmful hs hharmful ?_
        cases actions with
        | nil => exact hrest
        | cons a' actions => exact hrest.1
      exact ⟨hharmless, (ih (h.step hharmless hs).2).1 hrest⟩
    · intro hrun
      refine ⟨h.holeUnmapped, fun s' hs => ?_⟩
      obtain ⟨hharmless, hrest⟩ := hrun s' hs
      obtain ⟨hmem, hinv⟩ := h.step hharmless hs
      exact ⟨hmem, (ih hinv).2 hrest⟩

end Runs

/-- From any memory with a shared entry of 0 and before any iterator: the hole is unmapped in every state of a run
and no call of `try_map` there changes memory, exactly when no call of the run is harmful. -/
theorem hole_unmapped_iff (m : Memory) (hz : m.zeroPe = 0#64) (free : List PagePtr) (actions : List (VmAction ι)) :
    VmSystem.HoleRun ⟨m, free, fun _ => none⟩ actions ↔ VmSystem.HarmlessRun ⟨m, free, fun _ => none⟩ actions := by
  have hstart : VmSystem.Inv (⟨m, free, fun _ => none⟩ : VmSystem ι) := ⟨hz, fun i it hit => by cases hit⟩
  exact hstart.run_iff actions

end Systems

/-- An iterator of a page table of zeroes is put at the first non-canonical address. -/
def sampleHole (perm : BitVec 32) : List (VmAction Unit) :=
  [.construct () sampleTable 0x800000000000#64, .call () (.tryMap 0#64 perm)]

/-- A call with `PTE_U` stops in the assertion. -/
theorem hole_unmapped_sample : VmSystem.HoleRun ⟨emptyMemory, sampleFree, fun _ => none⟩ (sampleHole 4#32) := by
  rw [hole_unmapped_iff emptyMemory rfl]
  intro s _
  refine ⟨fun h => h, fun s' _ => ⟨?_, trivial⟩⟩
  rintro ⟨_, _, _, _, _, hflags, _⟩
  exact absurd hflags (by decide)

/-- A call with the bit of value 0x20 maps the hole. -/
theorem hole_becomes_mapped : ¬∀ (m : Memory) (free : List PagePtr) (actions : List (VmAction Unit)),
    m.zeroPe = 0#64 → VmSystem.HoleRun ⟨m, free, fun _ => none⟩ actions := by
  intro h
  have hrun := h emptyMemory sampleFree (sampleHole 0x20#32) rfl
  have hzero := ((hrun.2 _ rfl).2.2 _ rfl).2.zeroPe
  exact absurd hzero (by decide)

end Cs300Projects.WeensyOS
