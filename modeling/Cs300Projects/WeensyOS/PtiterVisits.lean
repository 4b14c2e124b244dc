import Cs300Projects.WeensyOS.Ptiter

/-!
# The visits of `ptiter`

The loop `for (ptiter it(pt, va); it.active(); it.next())` visits the entries that refer to tables
and whose ranges end above `va`, one by one in the order of the ends of their ranges.
-/

namespace Cs300Projects.WeensyOS
open Loop

/-! ### Ranges of index paths -/

/-- The number of the block that the entry at the end of an index path covers. -/
def pathBlock (p : List (Fin 512)) : Nat := p.foldl (fun b i => b * 512 + i.val) 0

def pathStart (p : List (Fin 512)) : Nat := pathBlock p * pageSpan (4 - p.length)

def pathEnd (p : List (Fin 512)) : Nat := (pathBlock p + 1) * pageSpan (4 - p.length)

lemma pathBlock_vaPath {va : Word} (hva : va.toNat < 2 ^ 48) {l : Nat} (hpos : 1 ≤ l) (hl : l ≤ 3) :
    pathBlock (vaPath va (l - 1)) = va.toNat / pageSpan l := by
  interval_cases l <;>
    simp only [vaPath, pathBlock, vaIndex, pageindex_eq, pageSpan, List.range_succ, List.range_zero,
      List.map_cons, List.map_nil, List.nil_append, List.foldl_cons, List.foldl_nil, List.cons_append,
      Nat.add_one_sub_one, Nat.sub_zero] <;>
    omega

/-- Every index path is the path of an address. -/
lemma exists_vaPath {p : List (Fin 512)} (hpos : 1 ≤ p.length) (hlen : p.length ≤ 3) :
    ∃ va : Word, va.toNat < 2 ^ 48 ∧ vaPath va (3 - p.length) = p := by
  have hva : ∀ i j k : Fin 512, (BitVec.ofNat 64 (i.val * 2 ^ 39 + j.val * 2 ^ 30 + k.val * 2 ^ 21)).toNat =
      i.val * 2 ^ 39 + j.val * 2 ^ 30 + k.val * 2 ^ 21 := by
    intro i j k
    rw [BitVec.toNat_ofNat]
    omega
  obtain ⟨i, j, k, hp⟩ : ∃ i j k, p = [i] ∨ p = [i, j] ∨ p = [i, j, k] := by
    match p with
    | [i] => exact ⟨i, 0, 0, Or.inl rfl⟩
    | [i, j] => exact ⟨i, j, 0, Or.inr (Or.inl rfl)⟩
    | [i, j, k] => exact ⟨i, j, k, Or.inr (Or.inr rfl)⟩
    | _ :: _ :: _ :: _ :: p =>
      simp only [List.length_cons] at hlen
      omega
  refine ⟨BitVec.ofNat 64 (i.val * 2 ^ 39 + j.val * 2 ^ 30 + k.val * 2 ^ 21), by rw [hva]; omega, ?_⟩
  rcases hp with rfl | rfl | rfl <;>
    simp only [vaPath, vaIndex, pageindex_eq, hva, pageSpan, List.length_cons, List.length_nil,
      List.range_succ, List.range_zero, List.map_cons, List.map_nil, List.nil_append,
      List.cons_append, List.cons.injEq, and_true, Fin.ext_iff] <;>
    omega

section Entry

variable {m : Memory} {pt t : PagePtr} {l : Nat} {a : Word}

lemma TableEntry.length_path (h : TableEntry m pt l a t) : (vaPath a (l - 1)).length = 4 - l := by
  have := h.pos
  have := h.le
  rw [length_vaPath]
  omega

lemma TableEntry.pathEnd_eq (h : TableEntry m pt l a t) : pathEnd (vaPath a (l - 1)) = blockEnd l a := by
  have := h.le
  rw [pathEnd, pathBlock_vaPath h.lt h.pos h.le, h.length_path, show 4 - (4 - l) = l by omega, blockEnd]

end Entry

namespace Ptiter

/-- `for (ptiter it(pt, va); it.active(); it.next())`, with the positions and the last state. -/
def forEach (fuel : Nat) (m : Memory) (pt : PagePtr) (va : Word) : Option (List Ptiter × Ptiter) :=
  match new fuel m pt va with
  | some it => (run (visitRound active id (fun _ it => (it.next fuel m).elim (.error ()) .ok)) fuel
      ([], it)).bind Except.toOption
  | none => none

/-- The loop that started at the point `E` has visited exactly the tables before the iterator. -/
structure Visiting (m : Memory) (pt : PagePtr) (E : Nat) (visits : List Ptiter) (it : Ptiter) : Prop where
  found : ∃ K, E ≤ K ∧ Found m pt K it
  visited : ∀ x ∈ visits, x.OnPath m pt ∧ IsTable (m.word x.pep_) ∧ E ≤ x.front ∧ x.front < it.front
  sorted : visits.Pairwise (fun x y => x.front < y.front)
  covered : ∀ l a t, TableEntry m pt l a t → E ≤ visitKey l a → visitKey l a < it.front →
    ∃ x ∈ visits, x.front = visitKey l a

section Loop

variable {m : Memory} {pt : PagePtr} {E : Nat} {visits : List Ptiter} {it : Ptiter}

lemma Visiting.next (h : Visiting m pt E visits it) (hactive : it.active = true) {fuel : Nat}
    (hfuel : 2 ^ 51 + 8 < fuel) : ∃ it', it.next fuel m = some it' ∧ Visiting m pt E (visits ++ [it]) it' ∧
      it.front < it'.front := by
  obtain ⟨K, hEK, hfound⟩ := h.found
  obtain ⟨it', hit', hfound'⟩ := next_found hfound hactive hfuel
  have hfront : it.front < it'.front := hfound'.le_front
  have hE : E ≤ it.front := hEK.trans hfound.le_front
  refine ⟨it', hit', ⟨⟨_, by omega, hfound'⟩, ?_, ?_, ?_⟩, hfront⟩
  · intro x hx
    rw [List.mem_append, List.mem_singleton] at hx
    rcases hx with hx | rfl
    · obtain ⟨hpath, htable, hEx, hlt⟩ := h.visited x hx
      exact ⟨hpath, htable, hEx, hlt.trans hfront⟩
    · obtain ⟨hpath, htable⟩ := hfound.onPath hactive
      exact ⟨hpath, htable, hE, hfront⟩
  · rw [List.pairwise_append]
    refine ⟨h.sorted, List.pairwise_singleton _ _, fun x hx y hy => ?_⟩
    rw [List.mem_singleton] at hy
    rw [hy]
    exact (h.visited x hx).2.2.2
  · intro l a t hentry hkey hlt
    rcases Nat.lt_trichotomy (visitKey l a) it.front with hbefore | heq | hafter
    · obtain ⟨x, hx, hxkey⟩ := h.covered l a t hentry hkey hbefore
      exact ⟨x, List.mem_append_left _ hx, hxkey⟩
    · exact ⟨it, List.mem_append_right _ List.mem_cons_self, heq.symm⟩
    · have := hfound'.none_before l a t hentry hafter
      omega

lemma Visiting.active_lt (h : Visiting m pt E visits it) (hactive : it.active = true) :
    it.front < 2 ^ 48 * 4 + 4 := by
  obtain ⟨K, _, hfound⟩ := h.found
  have hpath := (hfound.onPath hactive).1
  rw [hpath.front_eq]
  exact visitKey_le hpath.le hpath.lt

lemma forEach_total (m : Memory) (pt : PagePtr) (va : Word) (hva : va.toNat < 2 ^ 48) {fuel : Nat}
    (hfuel : 2 ^ 51 + 8 < fuel) : ∃ visits last, forEach fuel m pt va = some (visits, last) ∧
      Visiting m pt ((va.toNat + 1) * 4) visits last ∧ last.active = false := by
  obtain ⟨it, hit, hfound⟩ := new_found m pt va hva hfuel
  have hinit : Visiting m pt ((va.toNat + 1) * 4) [] it := by
    refine ⟨⟨_, le_rfl, hfound⟩, fun x hx => absurd hx (by simp), List.Pairwise.nil,
      fun l a t hentry hkey hlt => ?_⟩
    have := hfound.none_before l a t hentry hkey
    omega
  obtain ⟨visits, last, hrun, hvisiting, hactive⟩ := visit_total active id
    (fun _ it => (it.next fuel m).elim (.error ()) .ok) (Visiting m pt ((va.toNat + 1) * 4))
    (fun it => 2 ^ 48 * 4 + 4 - it.front)
    (by
      intro visits it h hactive
      obtain ⟨it', hit', hnext, hfront⟩ := h.next hactive hfuel
      have hlt := h.active_lt hactive
      exact ⟨it', by rw [hit']; rfl, hnext, by omega⟩)
    (n := fuel) hinit (by omega)
  refine ⟨visits, last, ?_, hvisiting, hactive⟩
  rw [forEach, hit]
  dsimp only
  rw [hrun]
  rfl

/-- The index path of the entry that the iterator stands at. -/
def path (it : Ptiter) : List (Fin 512) := vaPath it.va_ (it.level_ - 1)

/-- What the observers of a visited iterator return. -/
lemma Visiting.observers (h : Visiting m pt E visits it) {x : Ptiter} (hx : x ∈ visits) :
    x.active = true ∧ x.level + x.path.length = 3 ∧ x.va.toNat = pathStart x.path ∧
      x.lastVa.toNat = pathEnd x.path ∧ ∃ t, tableAt m pt x.path = some t ∧ x.pa m = t.addr := by
  obtain ⟨hpath, htable, _, _⟩ := h.visited x hx
  have hentry := (hpath.tableEntry_iff _).2 ⟨htable, rfl⟩
  have hpos := hpath.pos
  have hle := hpath.le
  have hlen := hentry.length_path
  refine ⟨(active_iff x).2 hpath.lt, ?_, ?_, ?_, _, hentry.path, rfl⟩
  · rw [level, path, hlen]
    omega
  · rw [va, toNat_and_not_pageoffmask (by omega), pathStart, path, hlen, pathBlock_vaPath hpath.lt hpos hle,
      show 4 - (4 - x.level_) = x.level_ by omega]
  · rw [toNat_block_end hpath, path, hentry.pathEnd_eq]

/-- The visits are the tables whose ranges end above the start. -/
lemma Visiting.mem_paths_iff {va : Word} (h : Visiting m pt ((va.toNat + 1) * 4) visits it)
    (hactive : it.active = false) (p : List (Fin 512)) : p ∈ visits.map path ↔
      1 ≤ p.length ∧ p.length ≤ 3 ∧ (tableAt m pt p).isSome ∧ va.toNat < pathEnd p := by
  rw [List.mem_map]
  constructor
  · rintro ⟨x, hx, rfl⟩
    obtain ⟨hpath, htable, hE, _⟩ := h.visited x hx
    have hentry := (hpath.tableEntry_iff _).2 ⟨htable, rfl⟩
    have hpos := hpath.pos
    have hle := hpath.le
    have hlen := hentry.length_path
    have hend := hentry.pathEnd_eq
    rw [hpath.front_eq, visitKey] at hE
    rw [path, hlen, hentry.path, hend]
    exact ⟨by omega, by omega, rfl, by omega⟩
  · rintro ⟨hpos, hlen, hsome, hend⟩
    obtain ⟨t, ht⟩ := Option.isSome_iff_exists.1 hsome
    obtain ⟨a, ha, hpath⟩ := exists_vaPath hpos hlen
    have hentry : TableEntry m pt (4 - p.length) a t :=
      ⟨by omega, by omega, ha, by rw [show 4 - p.length - 1 = 3 - p.length by omega, hpath]; exact ht⟩
    have hblock := hentry.pathEnd_eq
    rw [show 4 - p.length - 1 = 3 - p.length by omega, hpath] at hblock
    have hkey : visitKey (4 - p.length) a < it.front := by
      rw [front, hactive]
      exact visitKey_le hentry.le hentry.lt
    obtain ⟨x, hx, hxkey⟩ := h.covered _ a t hentry (by rw [visitKey]; omega) hkey
    obtain ⟨hxpath, _, _, _⟩ := h.visited x hx
    rw [hxpath.front_eq] at hxkey
    obtain ⟨hl, hb⟩ := visitKey_inj hxpath.le hentry.le hxkey
    have hxpos := hxpath.pos
    refine ⟨x, hx, ?_⟩
    rw [path, vaPath_congr (a := a) (by rw [show x.level_ - 1 + 1 = x.level_ by omega]; exact hb), hl,
      show 4 - p.length - 1 = 3 - p.length by omega, hpath]

/-- With the root, the visits of a loop over all addresses are the table pages. -/
lemma Visiting.mem_tables_iff (h : Visiting m pt (((0#64).toNat + 1) * 4) visits it) (hactive : it.active = false)
    (t : PagePtr) : t ∈ visits.map (kptr m) ++ [pt] ↔ UsedAsTable m pt t := by
  rw [List.mem_append, List.mem_singleton, List.mem_map]
  constructor
  · rintro (⟨x, hx, rfl⟩ | rfl)
    · have hpaths := (h.mem_paths_iff hactive x.path).1 (List.mem_map_of_mem hx)
      obtain ⟨hpath, htable, _, _⟩ := h.visited x hx
      exact ⟨x.path, hpaths.2.1, ((hpath.tableEntry_iff _).2 ⟨htable, rfl⟩).path⟩
    · exact ⟨[], by norm_num, rfl⟩
  · rintro ⟨p, hp, hpt⟩
    rcases Nat.eq_zero_or_pos p.length with hzero | hpos
    · rw [List.length_eq_zero_iff.1 hzero, tableAt, Option.some.injEq] at hpt
      exact Or.inr hpt.symm
    · have hend : 0 < pathEnd p := Nat.mul_pos (Nat.succ_pos _) (pageSpan_pos _)
      obtain ⟨x, hx, hxp⟩ := List.mem_map.1 ((h.mem_paths_iff hactive p).2 ⟨hpos, hp, by rw [hpt]; rfl, hend⟩)
      obtain ⟨hpath, htable, _, _⟩ := h.visited x hx
      have hentry := ((hpath.tableEntry_iff _).2 ⟨htable, rfl⟩).path
      change tableAt m pt x.path = some (x.kptr m) at hentry
      rw [hxp, hpt, Option.some.injEq] at hentry
      exact Or.inl ⟨x, hx, hentry.symm⟩

/-- Positions in the order of the visits: by the end of the range, deeper levels first. -/
lemma Visiting.sorted_paths (h : Visiting m pt E visits it) : (visits.map path).Pairwise
    (fun p q => pathEnd p < pathEnd q ∨ (pathEnd p = pathEnd q ∧ q.length < p.length)) := by
  rw [List.pairwise_map]
  apply h.sorted.imp_of_mem
  intro x y hx hy hlt
  obtain ⟨hpath, htable, _, _⟩ := h.visited x hx
  obtain ⟨hpath', htable', _, _⟩ := h.visited y hy
  have hentry := (hpath.tableEntry_iff _).2 ⟨htable, rfl⟩
  have hentry' := (hpath'.tableEntry_iff _).2 ⟨htable', rfl⟩
  rw [hpath.front_eq, hpath'.front_eq, visitKey, visitKey] at hlt
  have hle := hpath.le
  have hle' := hpath'.le
  rw [path, path, hentry.pathEnd_eq, hentry'.pathEnd_eq, hentry.length_path, hentry'.length_path]
  omega

end Loop

end Ptiter

/-- On any memory the loop of `ptiter` ends, and it visits exactly the index paths of length 1 to
3 that lead to tables and end above `va`, by the end of their range and deeper levels first. -/
theorem ptiter_visits (m : Memory) (pt : PagePtr) (va : Word) (hva : va.toNat < 2 ^ 48) (fuel : Nat)
    (hfuel : 2 ^ 51 + 8 < fuel) : ∃ paths visits last,
      Ptiter.forEach fuel m pt va = some (visits, last) ∧ last.active = false ∧
      List.Forall₂ (fun p it => it.active = true ∧ it.level + p.length = 3 ∧
        it.va.toNat = pathStart p ∧ it.lastVa.toNat = pathEnd p ∧
        ∃ t, tableAt m pt p = some t ∧ it.pa m = t.addr) paths visits ∧
      paths.Pairwise (fun p q => pathEnd p < pathEnd q ∨ (pathEnd p = pathEnd q ∧ q.length < p.length)) ∧
      ∀ p, p ∈ paths ↔
        1 ≤ p.length ∧ p.length ≤ 3 ∧ (tableAt m pt p).isSome ∧ va.toNat < pathEnd p := by
  obtain ⟨visits, last, hrun, hvisiting, hactive⟩ := Ptiter.forEach_total m pt va hva hfuel
  refine ⟨visits.map Ptiter.path, visits, last, hrun, hactive, ?_, hvisiting.sorted_paths,
    hvisiting.mem_paths_iff hactive⟩
  rw [List.forall₂_map_left_iff, List.forall₂_same]
  intro x hx
  exact hvisiting.observers hx

/-- A table whose first entry refers to itself. -/
def cyclicMemory : Memory := ⟨fun a => if a = 0x1000#64 then 0x1007#64 else 0#64, 0#64⟩

theorem ptiter_visits_cyclic : ∃ visits last,
    Ptiter.forEach (2 ^ 52) cyclicMemory sampleTable 0#64 = some (visits, last) ∧ visits ≠ [] := by
  obtain ⟨paths, visits, last, hrun, _, hforall, _, hmem⟩ :=
    ptiter_visits cyclicMemory sampleTable 0#64 (by decide) (2 ^ 52) (by omega)
  refine ⟨visits, last, hrun, ?_⟩
  rintro rfl
  rw [List.forall₂_nil_right_iff] at hforall
  have hcycle := (hmem [0, 0, 0]).2 ⟨by decide, by decide, by decide, by decide⟩
  rw [hforall] at hcycle
  exact absurd hcycle (by simp)

end Cs300Projects.WeensyOS
