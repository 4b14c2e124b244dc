import Cs300Projects.WeensyOS.PtiterTeardown
import Cs300Projects.WeensyOS.VmiterUnmap

/-!
# Running out of memory in try_map

A call of `try_map` that returns -1 has linked every page that it was given, in tables that are empty, and
stands where the walk of its address now ends. A second call goes on from there.
-/

namespace Cs300Projects.WeensyOS
open BitField

section Tables

variable {m : Memory} {pt p t₀ : PagePtr} {p₀ : List (Fin 512)} {i₀ : Fin 512}

/-- Linking an unused page at an entry that refers to no table keeps every table. -/
lemma tableAt_link_of (hp : ¬UsedAsTable m pt p) (hentry : ¬IsTable (m.word (t₀.entry i₀))) {q : List (Fin 512)}
    {s : PagePtr} (hq : q.length ≤ 3) (h : tableAt m pt q = some s) :
    tableAt (m.link (.entry (t₀.entry i₀)) p) pt q = some s := by
  induction q using List.reverseRecOn generalizing s with
  | nil => exact h
  | append_singleton q i ih =>
    rw [List.length_append, List.length_singleton] at hq
    rw [tableAt_snoc_iff] at h ⊢
    obtain ⟨r, hr, htable, hs⟩ := h
    have hrp : r ≠ p := by
      rintro rfl
      exact hp ⟨q, by omega, hr⟩
    have hne : EntryPtr.entry (r.entry i) ≠ .entry (t₀.entry i₀) := by
      intro he
      rw [EntryPtr.entry.injEq] at he
      rw [he] at htable
      exact hentry htable
    have hread : (m.link (.entry (t₀.entry i₀)) p).word (r.entry i) = m.word (r.entry i) :=
      (Memory.read_write_of_ne (m.clearPage p) hne (linkEntry p)).trans
        (Memory.word_overwritePage_of_ne m hrp _ i.isLt)
    exact ⟨r, ih (by omega) hr, by rw [hread]; exact htable, by rw [hread]; exact hs⟩

/-- The linked page is a table. -/
lemma tableAt_link_self (hp : ¬UsedAsTable m pt p) (hentry : ¬IsTable (m.word (t₀.entry i₀)))
    (hlen : p₀.length ≤ 2) (hpath : tableAt m pt p₀ = some t₀) :
    tableAt (m.link (.entry (t₀.entry i₀)) p) pt (p₀ ++ [i₀]) = some p := by
  have hread := read_link_self (m := m) (r := .entry (t₀.entry i₀)) (p := p)
  rw [Memory.read_entry] at hread
  rw [tableAt_snoc_iff]
  exact ⟨t₀, tableAt_link_of hp hentry (by omega) hpath, by rw [hread]; exact isTable_linkEntry p,
    by rw [hread, tableOf_linkEntry]⟩

end Tables

section Fail

variable {pt : PagePtr} {va : Word} {s s' : MapState}

/-- The round that links a page, with what becomes of the tables. -/
lemma MapState.TreeInv.linkRound_tables (h : s.TreeInv pt va) (hc : vaIsCanonical va = true) {p : PagePtr}
    {free : List PagePtr} (hfree : s.free = p :: free) {L : Nat} (hlevel : s.it.level_ = L + 1)
    (hP : (s.mem.read s.it.pep_).getLsbD 0 = false) :
    UsedAsTable (s.mem.link s.it.pep_ p) pt p ∧
      ∀ t, UsedAsTable s.mem pt t → UsedAsTable (s.mem.link s.it.pep_ p) pt t := by
  obtain ⟨t₀, hpath, hpep⟩ := h.entry hc
  have hp : ¬UsedAsTable s.mem pt p := h.unused p (by rw [hfree]; exact List.mem_cons_self)
  have hle := h.settled.onWalk.level_le
  have hlen : (vaPath va s.it.level_).length ≤ 2 := by rw [length_vaPath]; omega
  have hentry : ¬IsTable (s.mem.word (t₀.entry (vaIndex va s.it.level_))) := by
    have hnot := not_isTable_of_not_present hP
    rwa [hpep, Memory.read_entry] at hnot
  rw [hpep]
  refine ⟨⟨_, ?_, tableAt_link_self hp hentry hlen hpath⟩, ?_⟩
  · rw [List.length_append, List.length_singleton]
    omega
  · rintro t ⟨q, hq, ht⟩
    exact ⟨q, hq, tableAt_link_of hp hentry hq ht⟩

/-- A run of the loop that finds no more pages, and how it goes on when there are some. -/
lemma installTables_fail (h : s.TreeInv pt va) (hc : vaIsCanonical va = true) {perm : BitVec 32}
    (hs : installTables perm s.it.level_ s = .ok (false, s')) :
    s'.TreeInv pt va ∧ s'.free = [] ∧ (∀ p ∈ s.free, UsedAsTable s'.mem pt p) ∧
      (∀ t, UsedAsTable s.mem pt t → UsedAsTable s'.mem pt t) ∧
      (∀ i, i < 3 → s.it.perm_.getLsbD i = true → s'.it.perm_.getLsbD i = true) ∧
      (∀ va', SameView s.mem s'.mem pt va') ∧
      ∀ more, installTables perm s'.it.level_ { s' with free := more } =
        installTables perm s.it.level_ { s with free := s.free ++ more } := by
  obtain ⟨fuel, hfuel⟩ : ∃ fuel, s.it.level_ = fuel := ⟨_, rfl⟩
  rw [hfuel] at hs ⊢
  obtain ⟨b, hfalse⟩ : ∃ b, b = false := ⟨false, rfl⟩
  rw [← hfalse] at hs
  have hinstalls := installTables_installs hs
  clear hs
  induction hinstalls with
  | done _ => cases hfalse
  | @noPage fuel s _ _ hfree =>
    refine ⟨h, hfree, by simp [hfree], fun _ ht => ht, fun _ _ hb => hb, fun _ => ⟨rfl, rfl⟩, fun more => ?_⟩
    rw [hfuel, hfree, List.nil_append]
  | @link L s s' p free it b hcond hP hfree hd _ ih =>
    obtain ⟨it', hd', hlevel, hflags, hinv, hview⟩ := h.linkRound hc hfree hfuel hP
    rw [hd, Except.ok.injEq] at hd'
    subst hd'
    obtain ⟨hself, hmono⟩ := h.linkRound_tables hc hfree hfuel hP
    obtain ⟨hinv', hnone, hused, hmono', hflags', hview', hretry⟩ := ih hinv hlevel hfalse
    refine ⟨hinv', hnone, ?_, fun t ht => hmono' t (hmono t ht), fun i hi hb => hflags' i hi (hflags i hi hb),
      fun va' => (hview va').trans (hview' va'), fun more => ?_⟩
    · intro q hq
      rw [hfree, List.mem_cons] at hq
      cases hq with
      | inl hq => exact hq ▸ hmono' p hself
      | inr hq => exact hused q hq
    · have hlink : (s.mem.clearPage p).write s.it.pep_ (p.addr ||| pteP ||| pteW ||| pteU) =
        s.mem.link s.it.pep_ p := rfl
      have habsent : ¬ s.mem.read s.it.pep_ &&& pteP ≠ 0#64 := by
        rw [and_pteP_ne_zero_iff, hP]
        exact Bool.false_ne_true
      rw [hretry more, installTables, if_pos hcond]
      dsimp only
      rw [if_neg habsent, hfree, List.cons_append]
      dsimp only
      rw [hlink, hd]

/-- The assertions that a call has passed hold when it is repeated. -/
lemma MapAsserts.again {pa : Word} {perm : BitVec 32} (h : MapAsserts pa perm s) (hva : s'.it.va_ = s.it.va_)
    (hflags : ∀ i, i < 3 → s.it.perm_.getLsbD i = true → s'.it.perm_.getLsbD i = true) : MapAsserts pa perm s' := by
  refine ⟨hva ▸ h.aligned, h.address, h.absent, ?_⟩
  apply BitVec.eq_of_getLsbD_eq
  intro i hi
  have hbit := congrArg (fun x => BitVec.getLsbD x i) h.flags
  simp only [BitVec.getLsbD_and, getLsbD_pwu hi, BitVec.getLsbD_zero] at hbit ⊢
  by_cases hi3 : i < 3
  · rw [getLsbD_signExtend_perm _ (show i < 32 by omega), BitVec.getLsbD_and, BitVec.getLsbD_not] at hbit ⊢
    have hflag := hflags i hi3
    cases hs : s.it.perm_.getLsbD i with
    | true => simp [hflag hs]
    | false =>
      rw [hs] at hbit
      cases hperm : perm.getLsbD i with
      | false => simp
      | true =>
        rw [hperm, decide_eq_true (show i < 32 by omega), decide_eq_true hi3] at hbit
        exact absurd hbit (by decide)
  · simp [hi3]

end Fail

/-- A call of `try_map` that returns -1 has changed no translation and no permission, and all the pages that it
was given are tables now, which a teardown frees. Its iterator is a fresh one, and repeating the call with
more pages does what one call does that is given all of them. -/
theorem tryMap_out_of_memory (m : Memory) (pt : PagePtr) (free : List PagePtr) (hz : m.zeroPe = 0#64)
    (htree : TablesFormTree m pt) (hnodup : free.Nodup) (hfree : ∀ p ∈ free, ¬UsedAsTable m pt p)
    (va pa : Word) (perm : BitVec 32) (hc : vaIsCanonical va = true) (it : Vmiter)
    (hnew : Vmiter.new m pt va = .ok it) (s' : MapState) (hmap : tryMap pa perm ⟨m, free, it⟩ = .ok (-1, s')) :
    (∀ va', SameView m s'.mem pt va') ∧ s'.free = [] ∧ (∀ p ∈ free, UsedAsTable s'.mem pt p) ∧
    (∃ freed, (∀ junk, teardown (2 ^ 52) junk s'.mem pt = some freed) ∧ ∀ p ∈ free, p ∈ freed) ∧
    Vmiter.new s'.mem pt va = .ok s'.it ∧
    ∀ more, tryMap pa perm { s' with free := more } = tryMap pa perm ⟨m, free ++ more, it⟩ := by
  obtain ⟨hsettled, hpt, hitva⟩ := Vmiter.new_settled hnew
  have hlow := hnew
  rw [Vmiter.new_eq, Vmiter.check_eq_ok] at hlow
  have hinit : MapState.TreeInv pt va ⟨m, free, it⟩ :=
    ⟨hsettled, hpt, hitva, by rw [hlow.2]; exact hlow.1, hz, htree, hnodup, hfree⟩
  rw [tryMap_eq_ok_iff] at hmap
  obtain ⟨hasserts, ⟨b, s₁⟩, hinstall, hresult⟩ := hmap
  cases b with
  | true => simp [mapLeaf] at hresult
  | false =>
    rw [mapLeaf, Prod.mk.injEq] at hresult
    obtain ⟨_, rfl⟩ := hresult
    obtain ⟨hinv, hnone, hused, _, hflags, hview, hretry⟩ := installTables_fail hinit hc hinstall
    obtain ⟨visits, last, _, hteardown, hmem⟩ := teardown_total hinv.tree (show 2 ^ 51 + 8 < 2 ^ 52 by norm_num)
    refine ⟨hview, hnone, hused, ⟨_, hteardown, fun p hp => (hmem p).2 (hused p hp)⟩, ?_, fun more => ?_⟩
    · have hwalk := hinv.settled.eq_walked
      rw [hinv.root, hinv.at_va] at hwalk
      rw [Vmiter.new_eq, ← hwalk, Vmiter.check_eq_ok]
      exact ⟨hinv.low, rfl⟩
    · have hagain : MapAsserts pa perm { s' with free := more } :=
        hasserts.again (hinv.at_va.trans hitva.symm) hflags
      have hfirst : MapAsserts pa perm ⟨m, free ++ more, it⟩ := hasserts.again rfl fun _ _ hb => hb
      rw [tryMap_eq_map hagain, tryMap_eq_map hfirst]
      exact congrArg _ (hretry more)

/-- Two pages for three tables, and a third one for the second call. -/
theorem tryMap_out_of_memory_sample : ∃ s' : MapState, (∀ va', SameView emptyMemory s'.mem sampleTable va') ∧
    (∃ freed, (∀ junk, teardown (2 ^ 52) junk s'.mem sampleTable = some freed) ∧ ∀ p ∈ sampleFree.take 2, p ∈ freed) ∧
    (tryMap 0x7000#64 7#32 { s' with free := sampleFree.drop 2 }).map Prod.fst = .ok 0 := by
  have hnew : Vmiter.new emptyMemory sampleTable 0x5000#64 =
      .ok ⟨sampleTable, .entry 0x1000#64, 3, initialPerm, 0x5000#64⟩ := by decide
  have hsample : (tryMap 0x7000#64 7#32 ⟨emptyMemory, sampleFree.take 2,
      ⟨sampleTable, .entry 0x1000#64, 3, initialPerm, 0x5000#64⟩⟩).map Prod.fst = .ok (-1) := by decide
  cases hmap : tryMap 0x7000#64 7#32 ⟨emptyMemory, sampleFree.take 2,
      ⟨sampleTable, .entry 0x1000#64, 3, initialPerm, 0x5000#64⟩⟩ with
  | error e =>
    rw [hmap] at hsample
    exact absurd hsample (by simp [Except.map])
  | ok rs =>
    obtain ⟨r, s'⟩ := rs
    rw [hmap, Except.map, Except.ok.injEq] at hsample
    dsimp only at hsample
    subst hsample
    obtain ⟨hview, _, _, hfreed, _, hagain⟩ := tryMap_out_of_memory emptyMemory sampleTable (sampleFree.take 2) rfl
      (emptyMemory_tree sampleTable) (by decide)
      (fun p hp => emptyMemory_unused (by rintro rfl; revert hp; decide)) 0x5000#64 0x7000#64 7#32
      (by decide) _ hnew s' hmap
    exact ⟨s', hview, hfreed, by rw [hagain]; decide⟩

end Cs300Projects.WeensyOS
