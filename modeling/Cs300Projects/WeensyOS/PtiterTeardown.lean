import Cs300Projects.WeensyOS.PtiterVisits
import Cs300Projects.WeensyOS.VmiterTryMap

/-!
# Tearing down a page table

`for (ptiter it(pt); it.active(); it.next()) { kfree(it.kptr()); } kfree(pt);`. The pages may hold
anything once they are freed: the loop only reads tables whose turn is still to come.
-/

namespace Cs300Projects.WeensyOS
open Loop

/-- The loop that frees, with the pages freed so far. `junk` is what becomes of a freed page. -/
def freeLoop (fuel : Nat) (junk : List PagePtr → Word → Word) (it : Ptiter) (m : Memory) :
    Option (Except Unit (List PagePtr × Ptiter × Memory)) :=
  run (visitRound (fun s : Ptiter × Memory => s.1.active) (fun s => s.1.kptr s.2)
    (fun freed s =>
      let mem := s.2.overwritePage (s.1.kptr s.2) (junk freed)
      (s.1.next fuel mem).elim (.error ()) (fun it => .ok (it, mem)))) fuel ([], (it, m))

/-- The pages that the teardown of `pt` frees, in order. -/
def teardown (fuel : Nat) (junk : List PagePtr → Word → Word) (m : Memory) (pt : PagePtr) :
    Option (List PagePtr) :=
  match Ptiter.new fuel m pt 0#64 with
  | some it => ((freeLoop fuel junk it m).bind Except.toOption).map (fun r => r.1 ++ [pt])
  | none => none

/-! ### What the loop still reads -/

/-- The two memories have the same entries in the root and in the tables from the point `K` on. -/
structure AgreeFrom (m m' : Memory) (pt : PagePtr) (K : Nat) : Prop where
  root : ∀ i, i < 512 → m'.word (pt.entry i) = m.word (pt.entry i)
  table : ∀ l a t, TableEntry m pt l a t → K ≤ visitKey l a →
    ∀ i, i < 512 → m'.word (t.entry i) = m.word (t.entry i)

namespace Ptiter

section Agree

variable {m m' : Memory} {pt : PagePtr} {K : Nat}

lemma OnPath.word_eq {it : Ptiter} (h : it.OnPath m pt) (hagree : AgreeFrom m m' pt K)
    (hK : it.level_ < 3 → K ≤ visitKey (it.level_ + 1) it.va_) :
    m'.word it.pep_ = m.word it.pep_ := by
  obtain ⟨t, hpath, hpep⟩ := h.entry
  have hi := pageindex_lt it.va_ it.level_
  have hle := h.le
  rw [hpep]
  by_cases hlevel : it.level_ = 3
  · rw [hlevel, vaPath_three, tableAt, Option.some.injEq] at hpath
    rw [← hpath]
    exact hagree.root _ hi
  · exact hagree.table (it.level_ + 1) it.va_ t ⟨by omega, by omega, h.lt, hpath⟩ (hK (by omega)) _ hi

lemma DownInv.word_eq {s : DownState} (h : DownInv m pt K s) (hagree : AgreeFrom m m' pt K) :
    m'.word s.it.pep_ = m.word s.it.pep_ := by
  apply h.onPath.word_eq hagree
  intro _
  have hpoint := h.le_point
  have hstop := h.stop_le
  have hup : ∀ l, l ≤ s.it.level_ + 1 →
      blockEnd l s.it.va_ ≤ blockEnd (s.it.level_ + 1) s.it.va_ := by
    intro l hl
    exact blockEnd_le hl (lt_blockEnd _ _)
  have h1 := hup s.it.level_ (by omega)
  have h2 := hup s.stopLevel (by omega)
  have h3 := lt_blockEnd (s.it.level_ + 1) s.it.va_
  unfold DownState.point at hpoint
  rw [visitKey]
  cases hskip : s.skip
  · rw [hskip, if_neg Bool.false_ne_true] at hpoint
    by_cases hone : s.stopLevel = 1
    · rw [if_pos hone] at hpoint
      omega
    · rw [if_neg hone, visitKey] at hpoint
      omega
  · rw [hskip, if_pos rfl, visitKey] at hpoint
    omega

lemma next_congr {it : Ptiter} (h : it.OnPath m pt) (hagree : AgreeFrom m m' pt (it.front + 1))
    (fuel : Nat) : it.next fuel m' = it.next fuel m := by
  have hinv : DownInv m pt (it.front + 1) ⟨it, 1, true⟩ := by
    have heq : DownState.point ⟨it, 1, true⟩ = it.front + 1 := by
      rw [h.front_eq]
      rfl
    refine ⟨h, le_rfl, h.pos, fun _ => rfl, fun hne => absurd rfl hne, heq.ge, fun l a t _ hK => ?_⟩
    rw [heq]
    exact hK
  apply run_congr (downRound m) (DownInv m pt (it.front + 1))
  · intro s hs
    unfold downRound
    rw [hs.word_eq hagree]
  · exact fun s s' hs hnext => (downRound_next hs hnext).1
  · exact hinv

end Agree

end Ptiter

/-! ### Trees of tables -/

/-- The range of a path lies within the range of any path above it. -/
lemma pathEnd_append_le (p r : List (Fin 512)) (hlen : (p ++ r).length ≤ 4) :
    pathEnd (p ++ r) ≤ pathEnd p := by
  induction r using List.reverseRecOn with
  | nil => rw [List.append_nil]
  | append_singleton r i ih =>
    rw [← List.append_assoc, List.length_append, List.length_singleton] at hlen
    have hi := i.isLt
    have hblock : pathBlock (p ++ r ++ [i]) = pathBlock (p ++ r) * 512 + i.val := by
      rw [pathBlock, List.foldl_append]
      rfl
    have hspan : pageSpan (4 - (p ++ r).length) = pageSpan (4 - (p ++ r ++ [i]).length) * 512 := by
      rw [@List.length_append _ (p ++ r), List.length_singleton,
        show 4 - (p ++ r).length = 4 - ((p ++ r).length + 1) + 1 by omega, pageSpan_succ]
    rw [← List.append_assoc]
    refine le_trans ?_ (ih (by omega))
    rw [pathEnd, pathEnd, hblock, hspan, Nat.mul_comm (pageSpan _) 512, ← Nat.mul_assoc]
    apply Nat.mul_le_mul_right
    omega

section Tree

variable {m : Memory} {pt : PagePtr}

/-- In a tree the point of a table is determined by its page. -/
lemma TableEntry.visitKey_eq (htree : TablesFormTree m pt) {l k : Nat} {a b : Word} {t : PagePtr}
    (h : TableEntry m pt l a t) (h' : TableEntry m pt k b t) : visitKey l a = visitKey k b := by
  have hl := h.pos
  have hk := h'.pos
  have hle := h.le
  have hle' := h'.le
  have hlen := h.length_path
  have hlen' := h'.length_path
  have hpath := htree _ _ t (by omega) (by omega) h.path h'.path
  rw [hpath, hlen'] at hlen
  have hend := h.pathEnd_eq
  rw [hpath, h'.pathEnd_eq] at hend
  rw [visitKey, visitKey, hend]
  omega

lemma TableEntry.ne_root (htree : TablesFormTree m pt) {l : Nat} {a : Word} {t : PagePtr}
    (h : TableEntry m pt l a t) : t ≠ pt := by
  rintro rfl
  have hpos := h.pos
  have hle := h.le
  have hlen := h.length_path
  have hpath := htree (vaPath a (l - 1)) [] t (by omega) (by norm_num) h.path rfl
  rw [hpath, List.length_nil] at hlen
  omega

/-- Freeing the page whose turn it is changes no table whose turn is to come. -/
lemma AgreeFrom.free (htree : TablesFormTree m pt) {mem : Memory} {l : Nat} {a : Word} {t : PagePtr}
    (h : AgreeFrom m mem pt (visitKey l a)) (hentry : TableEntry m pt l a t) (contents : Word → Word) :
    AgreeFrom m (mem.overwritePage t contents) pt (visitKey l a + 1) := by
  constructor
  · intro i hi
    rw [Memory.word_overwritePage_of_ne _ (hentry.ne_root htree).symm _ hi, h.root i hi]
  · intro k b t' hentry' hK i hi
    have hne : t' ≠ t := by
      rintro rfl
      have := hentry'.visitKey_eq htree hentry
      omega
    rw [Memory.word_overwritePage_of_ne _ hne _ hi, h.table k b t' hentry' (by omega) i hi]

lemma AgreeFrom.mono {mem : Memory} {K K' : Nat} (h : AgreeFrom m mem pt K) (hK : K ≤ K') :
    AgreeFrom m mem pt K' :=
  ⟨h.root, fun l a t hentry hle => h.table l a t hentry (hK.trans hle)⟩

/-- The iterator of the freeing loop is the iterator of the plain loop, over memory that agrees
with the plain loop's on what is still to be read. -/
structure Freeing (m : Memory) (pt : PagePtr) (visits : List Ptiter) (it : Ptiter)
    (s : Ptiter × Memory) : Prop where
  same : s.1 = it
  visiting : Ptiter.Visiting m pt 4 visits it
  agree : AgreeFrom m s.2 pt it.front

lemma Freeing.step (htree : TablesFormTree m pt) {visits : List Ptiter} {it : Ptiter}
    {s : Ptiter × Memory} (h : Freeing m pt visits it s) (hactive : it.active = true) {fuel : Nat}
    (hfuel : 2 ^ 51 + 8 < fuel) (contents : Word → Word) : s.1.kptr s.2 = it.kptr m ∧
      ∀ it', it.next fuel m = some it' → s.1.next fuel (s.2.overwritePage (s.1.kptr s.2) contents) = some it' ∧
        Freeing m pt (visits ++ [it]) it' (it', s.2.overwritePage (s.1.kptr s.2) contents) := by
  obtain ⟨K, _, hfound⟩ := h.visiting.found
  obtain ⟨hpath, htable⟩ := hfound.onPath hactive
  have hentry := (hpath.tableEntry_iff _).2 ⟨htable, rfl⟩
  have hfront := hpath.front_eq
  have hword : s.2.word it.pep_ = m.word it.pep_ := by
    apply hpath.word_eq h.agree
    intro _
    have := blockEnd_le (Nat.le_succ it.level_) (lt_blockEnd (it.level_ + 1) it.va_)
    rw [hfront, visitKey, visitKey]
    simp only [Nat.succ_eq_add_one] at this
    omega
  have hkptr : s.1.kptr s.2 = it.kptr m := by
    rw [h.same, Ptiter.kptr, Ptiter.kptr, hword]
  refine ⟨hkptr, fun it' hit' => ?_⟩
  rw [hkptr, h.same]
  have hagree := h.agree
  rw [hfront] at hagree
  have hfree := hagree.free htree hentry contents
  rw [← hfront] at hfree
  obtain ⟨it'', hit'', hvisiting, hlt⟩ := h.visiting.next hactive hfuel
  obtain rfl : it' = it'' := Option.some.inj (hit'.symm.trans hit'')
  refine ⟨by rw [Ptiter.next_congr hpath hfree, hit'], rfl, hvisiting, hfree.mono hlt⟩

/-- Whatever becomes of the freed pages, the freeing loop frees the pages that the plain loop
visits. -/
lemma teardown_eq (htree : TablesFormTree m pt) {fuel : Nat} (hfuel : 2 ^ 51 + 8 < fuel)
    {visits : List Ptiter} {last : Ptiter} (hrun : Ptiter.forEach fuel m pt 0#64 = some (visits, last))
    (junk : List PagePtr → Word → Word) :
    teardown fuel junk m pt = some (visits.map (Ptiter.kptr m) ++ [pt]) := by
  obtain ⟨it, hit, hfound⟩ := Ptiter.new_found m pt 0#64 (by decide) hfuel
  have hinit : Freeing m pt [] it (it, m) := by
    refine ⟨rfl, ⟨⟨4, le_rfl, hfound⟩, fun x hx => absurd hx (by simp), List.Pairwise.nil,
      fun l a t hentry hkey hlt => ?_⟩, fun _ _ => rfl, fun _ _ _ _ _ _ _ => rfl⟩
    have := hfound.none_before l a t hentry hkey
    omega
  rw [Ptiter.forEach, hit] at hrun
  dsimp only at hrun
  obtain ⟨r, hloop, hr⟩ := Option.bind_eq_some_iff.1 hrun
  have hplain : r = .ok (visits, last) := by
    cases r with
    | error e => simp [Except.toOption] at hr
    | ok r => exact congrArg Except.ok (Option.some.inj hr)
  rw [hplain] at hloop
  obtain ⟨s, hfree, _⟩ := visit_simulation Ptiter.active id _
    (fun s : Ptiter × Memory => s.1.active) (fun s => s.1.kptr s.2)
    (fun freed s => (s.1.next fuel (s.2.overwritePage (s.1.kptr s.2) (junk freed))).elim (.error ())
      (fun it => .ok (it, s.2.overwritePage (s.1.kptr s.2) (junk freed))))
    (Ptiter.kptr m) (Freeing m pt)
    (fun visits it s h => by rw [h.same])
    (by
      intro visits it s h hactive
      obtain ⟨hkptr, hnext⟩ := h.step htree hactive hfuel
        (junk ((visits ++ [it]).map (Ptiter.kptr m)))
      refine ⟨hkptr, fun it' hit' => ?_⟩
      cases hn : it.next fuel m with
      | none =>
        rw [hn] at hit'
        simp at hit'
      | some it'' =>
        rw [hn, Option.elim, Except.ok.injEq] at hit'
        subst hit'
        obtain ⟨hsame, hfreeing⟩ := hnext it'' hn
        exact ⟨_, by rw [id, hsame]; rfl, hfreeing⟩)
    hinit hloop
  rw [teardown, hit]
  dsimp only
  rw [freeLoop]
  rw [List.map_nil] at hfree
  rw [hfree]
  rfl

/-- Distinct positions of a tree refer to distinct pages, and no page comes before a page below it. -/
lemma kptr_order (htree : TablesFormTree m pt) {visits : List Ptiter} {last : Ptiter}
    (h : Ptiter.Visiting m pt 4 visits last) : (visits.map (Ptiter.kptr m) ++ [pt]).Pairwise
      (fun t t' => ∀ p q, p.length ≤ 3 → q.length ≤ 3 → tableAt m pt p = some t →
        tableAt m pt q = some t' → ¬p <+: q) := by
  have hpath : ∀ x ∈ visits, x.path.length ≤ 3 ∧ 1 ≤ x.path.length ∧
      tableAt m pt x.path = some (x.kptr m) := by
    intro x hx
    obtain ⟨hpath, htable, _, _⟩ := h.visited x hx
    have hentry := (hpath.tableEntry_iff _).2 ⟨htable, rfl⟩
    have hlen := hentry.length_path
    have := hentry.pos
    have := hentry.le
    exact ⟨by rw [Ptiter.path]; omega, by rw [Ptiter.path]; omega, hentry.path⟩
  rw [List.pairwise_append]
  refine ⟨?_, List.pairwise_singleton _ _, ?_⟩
  · rw [List.pairwise_map]
    have hsorted := h.sorted_paths
    rw [List.pairwise_map] at hsorted
    apply hsorted.imp_of_mem
    intro x y hx hy hlt p q hp hq hpt hqt hbelow
    obtain ⟨hlen, _, hxt⟩ := hpath x hx
    obtain ⟨hlen', _, hyt⟩ := hpath y hy
    obtain rfl := htree p x.path _ hp hlen hpt hxt
    obtain rfl := htree q y.path _ hq hlen' hqt hyt
    obtain ⟨r, hr⟩ := hbelow
    rw [← hr, List.length_append] at hlt hlen'
    have hle := pathEnd_append_le x.path r (by rw [List.length_append]; omega)
    omega
  · intro t ht t' ht' p q hp hq hpt hqt hbelow
    rw [List.mem_singleton] at ht'
    subst ht'
    obtain ⟨x, hx, rfl⟩ := List.mem_map.1 ht
    obtain ⟨hlen, hpos, hxt⟩ := hpath x hx
    have hq0 := htree q [] t' hq (by norm_num) hqt rfl
    have hpx := htree p x.path _ hp hlen hpt hxt
    rw [hq0, List.prefix_nil, hpx] at hbelow
    rw [hbelow, List.length_nil] at hpos
    omega

/-- The teardown frees exactly the table pages. -/
lemma teardown_total (htree : TablesFormTree m pt) {fuel : Nat} (hfuel : 2 ^ 51 + 8 < fuel) :
    ∃ visits last, Ptiter.forEach fuel m pt 0#64 = some (visits, last) ∧
      (∀ junk, teardown fuel junk m pt = some (visits.map (Ptiter.kptr m) ++ [pt])) ∧
      ∀ t, t ∈ visits.map (Ptiter.kptr m) ++ [pt] ↔ UsedAsTable m pt t := by
  obtain ⟨visits, last, hrun, hvisiting, hactive⟩ := Ptiter.forEach_total m pt 0#64 (by decide) hfuel
  exact ⟨visits, last, hrun, teardown_eq htree hfuel hrun, hvisiting.mem_tables_iff hactive⟩

end Tree

/-- The teardown of a tree of tables frees the same pages whatever the freed pages come to hold:
every table page once, and no page before a page below it. -/
theorem teardown_frees_tables (m : Memory) (pt : PagePtr) (htree : TablesFormTree m pt) (fuel : Nat)
    (hfuel : 2 ^ 51 + 8 < fuel) : ∃ visits last freed,
      Ptiter.forEach fuel m pt 0#64 = some (visits, last) ∧
      freed = visits.map (Ptiter.kptr m) ++ [pt] ∧
      (∀ junk, teardown fuel junk m pt = some freed) ∧
      freed.Nodup ∧
      (∀ t, t ∈ freed ↔ UsedAsTable m pt t) ∧
      freed.Pairwise (fun t t' => ∀ p q, p.length ≤ 3 → q.length ≤ 3 → tableAt m pt p = some t →
        tableAt m pt q = some t' → ¬p <+: q) := by
  obtain ⟨visits, last, hrun, hteardown, hmem⟩ := teardown_total htree hfuel
  obtain ⟨visits', last', hrun', hvisiting, _⟩ := Ptiter.forEach_total m pt 0#64 (by decide) hfuel
  rw [hrun, Option.some.injEq, Prod.mk.injEq] at hrun'
  obtain ⟨rfl, rfl⟩ := hrun'
  have horder := kptr_order htree hvisiting
  refine ⟨visits, last, _, hrun, rfl, hteardown, ?_, hmem, horder⟩
  apply horder.imp_of_mem
  intro t t' ht _ hbelow heq
  obtain ⟨p, hp, hpt⟩ := (hmem t).1 ht
  exact hbelow p p hp hp hpt (heq ▸ hpt) (List.prefix_refl p)

theorem teardown_frees_tables_linked : ∃ freed, (∀ junk, teardown (2 ^ 52) junk
    (emptyMemory.link (.entry (sampleTable.entry 0)) ⟨0x2000#64, by decide⟩) sampleTable = some freed) ∧
      freed.Nodup ∧ ⟨0x2000#64, by decide⟩ ∈ freed := by
  have hunused : ¬UsedAsTable emptyMemory sampleTable ⟨0x2000#64, by decide⟩ :=
    emptyMemory_unused (by decide)
  have htree : TablesFormTree (emptyMemory.link (.entry (sampleTable.entry (0 : Fin 512))) ⟨0x2000#64, by decide⟩)
      sampleTable :=
    (emptyMemory_tree sampleTable).link hunused (show ([] : List (Fin 512)).length ≤ 2 by norm_num) rfl
  obtain ⟨_, _, freed, _, _, hfreed, hnodup, hmem, _⟩ :=
    teardown_frees_tables _ sampleTable htree (2 ^ 52) (by omega)
  exact ⟨freed, hfreed, hnodup, (hmem _).2 ⟨[0], by norm_num, by decide⟩⟩

end Cs300Projects.WeensyOS
