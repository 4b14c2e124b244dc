import Cs300Projects.WeensyOS.Paging
import Mathlib.Data.List.Basic
import Mathlib.Tactic.IntervalCases

/-!
# Page tables in memory

The memory that the page table iterators read and write, the pages reached from a root by
index paths, and the architectural page walk of a 4-level table.
-/

namespace Cs300Projects.WeensyOS
open BitField

/-- What an `x86_64_pageentry_t*` of `vmiter` points at: the shared entry `vmiter::zero_pe`,
or the page table entry at a physical address. -/
inductive EntryPtr where
  | zeroPe
  | entry (addr : Word)
  deriving DecidableEq

/-- Physical memory as 64-bit words by byte address, and the static object `vmiter::zero_pe`. -/
structure Memory where
  word : Word → Word
  zeroPe : Word

namespace Memory

def read (m : Memory) : EntryPtr → Word
  | .zeroPe => m.zeroPe
  | .entry a => m.word a

def write (m : Memory) : EntryPtr → Word → Memory
  | .zeroPe, e => { m with zeroPe := e }
  | .entry a, e => { m with word := Function.update m.word a e }

/-- The page `t` with new contents. -/
def overwritePage (m : Memory) (t : PagePtr) (contents : Word → Word) : Memory :=
  { m with word := fun a =>
      if t.addr.toNat ≤ a.toNat ∧ a.toNat < t.addr.toNat + 4096 then contents a else m.word a }

/-- `memset(pt, 0, PAGESIZE)`. -/
def clearPage (m : Memory) (t : PagePtr) : Memory := m.overwritePage t (fun _ => 0#64)

@[simp] lemma read_zeroPe (m : Memory) : m.read .zeroPe = m.zeroPe := rfl

@[simp] lemma read_entry (m : Memory) (a : Word) : m.read (.entry a) = m.word a := rfl

@[simp] lemma read_write_self (m : Memory) (r : EntryPtr) (e : Word) : (m.write r e).read r = e := by
  cases r <;> simp [read, write]

lemma read_write_of_ne (m : Memory) {r s : EntryPtr} (h : s ≠ r) (e : Word) :
    (m.write r e).read s = m.read s := by
  cases r <;> cases s <;> simp_all [read, write]

lemma word_clearPage_self (m : Memory) (t : PagePtr) {i : Nat} (hi : i < 512) :
    (m.clearPage t).word (t.entry i) = 0#64 := by
  have := t.toNat_entry hi
  simp only [clearPage, overwritePage, this]
  rw [if_pos (by omega)]

lemma word_overwritePage_of_ne (m : Memory) {s t : PagePtr} (h : s ≠ t) (contents : Word → Word)
    {i : Nat} (hi : i < 512) : (m.overwritePage t contents).word (s.entry i) = m.word (s.entry i) := by
  have hne : s.addr.toNat ≠ t.addr.toNat := by
    intro he
    apply h
    cases s
    cases t
    simpa using BitVec.eq_of_toNat_eq he
  have := s.addr_mod
  have := t.addr_mod
  simp only [overwritePage, s.toNat_entry hi]
  rw [if_neg (by omega)]

end Memory

/-! ### Tables and index paths -/

/-- The entry refers to a lower-level table: present and not a large page. -/
def IsTable (e : Word) : Prop := e &&& (pteP ||| ptePs) = pteP

instance (e : Word) : Decidable (IsTable e) := inferInstanceAs (Decidable (_ = _))

/-- The page that the address field of an entry names. -/
def tableOf (e : Word) : PagePtr := ⟨e &&& ptePamask, by rw [BitVec.and_assoc, BitVec.and_self]⟩

/-- The table reached from `t` by following the entries with the given indices. -/
def tableAt (m : Memory) : PagePtr → List (Fin 512) → Option PagePtr
  | t, [] => some t
  | t, i :: p =>
    if IsTable (m.word (t.entry i)) then tableAt m (tableOf (m.word (t.entry i))) p else none

/-- Every table page is reached from the root by one index path. -/
def TablesFormTree (m : Memory) (pt : PagePtr) : Prop :=
  ∀ p q t, p.length ≤ 3 → q.length ≤ 3 → tableAt m pt p = some t → tableAt m pt q = some t → p = q

/-- The page is the root or a lower-level table of the page table. -/
def UsedAsTable (m : Memory) (pt t : PagePtr) : Prop := ∃ p, p.length ≤ 3 ∧ tableAt m pt p = some t

lemma getLsbD_pteP (i : Nat) : pteP.getLsbD i = decide (i = 0) := by
  rw [pteP, BitVec.getLsbD_ofNat]
  rcases i with _ | i <;> simp [Nat.testBit_succ]

lemma getLsbD_pteP_or_ptePs (i : Nat) :
    (pteP ||| ptePs).getLsbD i = (decide (i = 0) || decide (i = 7)) := by
  change (129#64).getLsbD i = _
  rw [BitVec.getLsbD_ofNat]
  rcases i with _ | _ | _ | _ | _ | _ | _ | _ | i <;> simp [Nat.testBit_succ]

lemma isTable_iff (e : Word) : IsTable e ↔ e.getLsbD 0 = true ∧ e.getLsbD 7 = false := by
  constructor
  · intro h
    have h0 := congrArg (fun x => BitVec.getLsbD x 0) h
    have h7 := congrArg (fun x => BitVec.getLsbD x 7) h
    simp only [BitVec.getLsbD_and, getLsbD_pteP_or_ptePs, getLsbD_pteP] at h0 h7
    exact ⟨by simpa using h0, by simpa using h7⟩
  · rintro ⟨h0, h7⟩
    apply BitVec.eq_of_getLsbD_eq
    intro i _
    rw [BitVec.getLsbD_and, getLsbD_pteP_or_ptePs, getLsbD_pteP]
    by_cases hi0 : i = 0
    · simp [hi0, h0]
    · by_cases hi7 : i = 7
      · rw [hi7, h7]
        rfl
      · simp [hi0, hi7]

@[simp] lemma not_isTable_zero : ¬IsTable 0#64 := by decide

lemma tableAt_append (m : Memory) (t : PagePtr) (p q : List (Fin 512)) :
    tableAt m t (p ++ q) = (tableAt m t p).bind (fun s => tableAt m s q) := by
  induction p generalizing t with
  | nil => rfl
  | cons i p ih =>
    simp only [List.cons_append, tableAt]
    by_cases h : IsTable (m.word (t.entry i))
    · rw [if_pos h, if_pos h, ih]
    · rw [if_neg h, if_neg h]
      rfl

/-- One more index: the last table's entry must refer to a table. -/
lemma tableAt_snoc_iff (m : Memory) (t s : PagePtr) (p : List (Fin 512)) (i : Fin 512) :
    tableAt m t (p ++ [i]) = some s ↔
      ∃ r, tableAt m t p = some r ∧ IsTable (m.word (r.entry i)) ∧ tableOf (m.word (r.entry i)) = s := by
  rw [tableAt_append]
  cases h : tableAt m t p with
  | none => simp
  | some r =>
    simp only [Option.bind_some, tableAt, Option.some.injEq, exists_eq_left']
    by_cases ht : IsTable (m.word (r.entry i)) <;> simp [ht]

/-- A page of zeroes refers to no table. -/
lemma tableAt_of_zero {m : Memory} {t s : PagePtr} (h : ∀ i : Fin 512, m.word (t.entry i) = 0#64)
    {p : List (Fin 512)} (hp : tableAt m t p = some s) : p = [] ∧ s = t := by
  cases p with
  | nil =>
    rw [tableAt, Option.some.injEq] at hp
    exact ⟨rfl, hp.symm⟩
  | cons i p =>
    rw [tableAt, h i, if_neg not_isTable_zero] at hp
    exact absurd hp (by simp)

/-- Memory of zeroes. -/
def emptyMemory : Memory := ⟨fun _ => 0#64, 0#64⟩

def sampleTable : PagePtr := ⟨0x1000#64, by decide⟩

lemma emptyMemory_tree (pt : PagePtr) : TablesFormTree emptyMemory pt := by
  intro p q t _ _ hp hq
  rw [(tableAt_of_zero (fun _ => rfl) hp).1, (tableAt_of_zero (fun _ => rfl) hq).1]

lemma emptyMemory_unused {pt t : PagePtr} (h : t ≠ pt) : ¬UsedAsTable emptyMemory pt t := by
  rintro ⟨p, _, hp⟩
  exact h (tableAt_of_zero (fun _ => rfl) hp).2

/-! ### The index path of an address -/

def vaIndex (va : Word) (level : Nat) : Fin 512 := ⟨pageindex va level, pageindex_lt va level⟩

/-- The indices used above `level` on the walk of `va`. -/
def vaPath (va : Word) (level : Nat) : List (Fin 512) :=
  (List.range (3 - level)).map (fun k => vaIndex va (3 - k))

@[simp] lemma length_vaPath (va : Word) (level : Nat) : (vaPath va level).length = 3 - level := by
  simp [vaPath]

@[simp] lemma vaPath_three (va : Word) : vaPath va 3 = [] := rfl

lemma vaPath_succ (va : Word) {level : Nat} (h : level < 3) :
    vaPath va level = vaPath va (level + 1) ++ [vaIndex va (level + 1)] := by
  obtain ⟨k, hk⟩ : ∃ k, 3 - level = k + 1 := ⟨2 - level, by omega⟩
  simp only [vaPath, hk, show 3 - (level + 1) = k by omega, List.range_succ, List.map_append,
    List.map_cons, List.map_nil, show 3 - k = level + 1 by omega]

/-- Canonical addresses with the same indices down to a level lie in the same block. -/
lemma same_block_of_vaPath_eq {va va' : Word} {level : Nat} (hl : level ≤ 3)
    (hc : vaIsCanonical va = true) (hc' : vaIsCanonical va' = true)
    (hpath : vaPath va level = vaPath va' level) (hindex : pageindex va level = pageindex va' level) :
    va.toNat / pageSpan level = va'.toNat / pageSpan level := by
  rw [vaIsCanonical_iff] at hc hc'
  have hv := va.isLt
  have hv' := va'.isLt
  simp only [pageindex_eq] at hindex
  have hget : ∀ k, level < k → k ≤ 3 → pageindex va k = pageindex va' k := by
    intro k hk hk3
    have h := congrArg (fun p : List (Fin 512) => p[3 - k]?) hpath
    simp only [vaPath, List.getElem?_map, List.getElem?_range (show 3 - k < 3 - level by omega),
      Option.map_some, Option.some.injEq, show 3 - (3 - k) = k by omega] at h
    simpa [vaIndex] using congrArg Fin.val h
  simp only [pageindex_eq] at hget
  interval_cases level
  · have h1 := hget 1 (by omega) (by omega)
    have h2 := hget 2 (by omega) (by omega)
    have h3 := hget 3 (by omega) (by omega)
    simp only [pageSpan] at *
    omega
  · have h2 := hget 2 (by omega) (by omega)
    have h3 := hget 3 (by omega) (by omega)
    simp only [pageSpan] at *
    omega
  · have h3 := hget 3 (by omega) (by omega)
    simp only [pageSpan] at *
    omega
  · simp only [pageSpan] at *
    omega

end Cs300Projects.WeensyOS
