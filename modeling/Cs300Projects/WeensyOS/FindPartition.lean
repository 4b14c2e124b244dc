import Cs300Projects.Lib.Bytes
import Cs300Projects.Lib.Descent

/-!
# The search for the kernel partition

`find_partition` follows extended partitions from table to table, with no record of the tables that it has been to. A
call is named by the sector of its table and the base of the extended partitions in it, which is 0 outside of all extended
partitions. Sector numbers have 64 bits, but `readsect` takes 32.
-/

namespace Cs300Projects.WeensyOS

open Bytes Relation

namespace Mkbootdisk

abbrev Sector := Nat → UInt8

/-- A disk: the sectors that can be read, and those that can be sought. -/
structure Disk where
  read : Nat → Option Sector
  seeks : Nat → Bool

/-- A table entry; the other fields are not used. -/
structure Partitiondesc where
  type : UInt8
  lbaStart : Nat
  lbaLength : Nat

def ptableOffset : Nat := 446
def ptableMagicOffset : Nat := 510
def ptypeJosKern : UInt8 := 0x27

/-- `ptable[i]` -/
def ptable (buf : Sector) (i : Nat) : Partitiondesc :=
  ⟨buf (ptableOffset + 16 * i + 4), readLE buf (ptableOffset + 16 * i + 8) 4, readLE buf (ptableOffset + 16 * i + 12) 4⟩

def hasMagic (buf : Sector) : Bool := buf ptableMagicOffset = 0x55 ∧ buf (ptableMagicOffset + 1) = 0xAA

/-- One of the identifiers of an extended partition. -/
def isExtended (type : UInt8) : Bool := type = 0x05 ∨ type = 0x0F ∨ type = 0x85

/-- The sector number is a `uint32_t`. -/
def readsect (disk : Disk) (sectno : Nat) : Option Sector := disk.read (sectno % 2 ^ 32)

/-- The exit with an error, 0, or 1 with the start sector, the length and the number of the partition. -/
inductive Search where
  | exit
  | absent
  | found (start length number : Nat)

/-- The call for an extended partition in a table with the base `c.2`. -/
def inner (c : Nat × Nat) (d : Partitiondesc) : Nat × Nat :=
  (d.lbaStart + c.2, if c.2 = 0 then d.lbaStart else c.2)

/-- The loop over the last `left` entries of a table; `recur` makes the recursive calls. -/
def searchEntries (disk : Disk) (recur : Nat × Nat → Option Search) (buf : Sector) (c : Nat × Nat) (partoff : Nat) :
    Nat → Option Search
  | 0 => some .absent
  | left + 1 =>
    let i := 4 - (left + 1)
    let d := ptable buf i
    if d.lbaLength = 0 then searchEntries disk recur buf c partoff left
    else if d.type = ptypeJosKern then
      if disk.seeks (c.1 + d.lbaStart) then some (.found (c.1 + d.lbaStart) d.lbaLength (partoff + i + 1)) else some .exit
    else if isExtended d.type then
      match recur (inner c d) with
      | some .absent => searchEntries disk recur buf c partoff left
      | r => r
    else searchEntries disk recur buf c partoff left

/-- `find_partition(c.1, c.2, partoff)`; `none` where the calls are nested more deeply than the fuel. -/
def findPartition (disk : Disk) : Nat → Nat × Nat → Nat → Option Search
  | 0, _, _ => none
  | fuel + 1, c, partoff =>
    match readsect disk c.1 with
    | none => some .exit
    | some buf =>
      if ¬ hasMagic buf then some .absent
      else searchEntries disk (fun c' => findPartition disk fuel c' (if partoff ≠ 0 then partoff + 1 else 4)) buf c partoff 4

/-! ### The tables of a disk -/

section Tables

variable (disk : Disk)

/-- The call finds a partition table. -/
def Opens (c : Nat × Nat) (buf : Sector) : Prop := readsect disk c.1 = some buf ∧ hasMagic buf = true

def IsKernel (d : Partitiondesc) : Prop := d.lbaLength ≠ 0 ∧ d.type = ptypeJosKern
def IsLink (d : Partitiondesc) : Prop := d.lbaLength ≠ 0 ∧ isExtended d.type = true

instance (d : Partitiondesc) : Decidable (IsKernel d) := inferInstanceAs (Decidable (_ ∧ _))
instance (d : Partitiondesc) : Decidable (IsLink d) := inferInstanceAs (Decidable (_ ∧ _))

/-- There is no kernel partition in the table and in those below it, which all can be read. -/
inductive Barren : Nat × Nat → Prop
  | noTable {c : Nat × Nat} {buf : Sector} (hread : readsect disk c.1 = some buf) (hmagic : hasMagic buf = false) : Barren c
  | table {c : Nat × Nat} {buf : Sector} (hopens : Opens disk c buf) (hkernel : ∀ i, i < 4 → ¬ IsKernel (ptable buf i))
      (hlink : ∀ i, i < 4 → IsLink (ptable buf i) → Barren (inner c (ptable buf i))) : Barren c

/-- The search goes past the entry. -/
def Passed (c : Nat × Nat) (buf : Sector) (i : Nat) : Prop :=
  ¬ IsKernel (ptable buf i) ∧ (IsLink (ptable buf i) → Barren disk (inner c (ptable buf i)))

/-- The search goes from a table to the table of an entry, past the entries before it. -/
inductive Step : Nat × Nat → Nat × Nat → Prop
  | link {c : Nat × Nat} {buf : Sector} {i : Nat} (hopens : Opens disk c buf) (hi : i < 4) (hlink : IsLink (ptable buf i))
      (hpassed : ∀ j, j < i → Passed disk c buf j) : Step c (inner c (ptable buf i))

/-- The tables to which the search may come. -/
def Reached (c : Nat × Nat) : Prop := ReflTransGen (Step disk) (0, 0) c

/-- No table to which the search comes lies below itself. -/
def Acyclic : Prop := ∀ c, Reached disk c → ¬ TransGen (Step disk) c c

/-- The tables to which the search comes have numbers of 32 bits, apart from those at and below which there is nothing. -/
def Narrow : Prop := ∀ c, Reached disk c → ¬ Barren disk c → c.1 < 2 ^ 32

/-! ### What the search is for -/

/-- The tables that are reached from sector 0 through extended partitions, with the start of the outermost one. -/
inductive Chain : Nat → Option Nat → Prop
  | root : Chain 0 none
  | outermost {sect i : Nat} {buf : Sector} (h : Chain sect none) (hread : disk.read sect = some buf) (hi : i < 4)
      (hlink : isExtended (ptable buf i).type = true) : Chain (ptable buf i).lbaStart (some (ptable buf i).lbaStart)
  | nested {sect base i : Nat} {buf : Sector} (h : Chain sect (some base)) (hread : disk.read sect = some buf) (hi : i < 4)
      (hlink : isExtended (ptable buf i).type = true) : Chain ((ptable buf i).lbaStart + base) (some base)

/-- The start sector of a kernel partition of one of these tables. -/
def KernelStart (start : Nat) : Prop :=
  ∃ sect outer buf i, Chain disk sect outer ∧ disk.read sect = some buf ∧ i < 4 ∧ (ptable buf i).type = ptypeJosKern ∧
    start = sect + (ptable buf i).lbaStart

/-- `find_partition(0, 0, 0)` ends. -/
def Terminates : Prop := ∃ fuel r, findPartition disk fuel (0, 0) 0 = some r

/-- It ends, and when it returns 1, it has chosen a kernel partition. -/
def SearchRight : Prop :=
  Terminates disk ∧ ∀ fuel start length number,
    findPartition disk fuel (0, 0) 0 = some (.found start length number) → KernelStart disk start

end Tables

section

variable {disk : Disk} {recur recur' : Nat × Nat → Option Search} {buf : Sector} {c c' : Nat × Nat} {partoff fuel i left : Nat}
  {d : Partitiondesc} {r : Search}

/-! ### One table -/

lemma IsLink.not_kernel (h : IsLink d) : ¬ IsKernel d := by
  intro hkernel
  have hext := h.2
  rw [hkernel.2] at hext
  exact absurd hext (by decide)

lemma searchEntries_skip (hi : i = 4 - (left + 1)) (hkernel : ¬ IsKernel (ptable buf i)) (hlink : ¬ IsLink (ptable buf i)) :
    searchEntries disk recur buf c partoff (left + 1) = searchEntries disk recur buf c partoff left := by
  subst hi
  rw [searchEntries]
  split_ifs with hlength htype hseeks hext
  · rfl
  · exact absurd ⟨hlength, htype⟩ hkernel
  · exact absurd ⟨hlength, htype⟩ hkernel
  · exact absurd ⟨hlength, hext⟩ hlink
  · rfl

lemma searchEntries_kernel (hi : i = 4 - (left + 1)) (hkernel : IsKernel (ptable buf i)) :
    searchEntries disk recur buf c partoff (left + 1) =
      if disk.seeks (c.1 + (ptable buf i).lbaStart) then
        some (.found (c.1 + (ptable buf i).lbaStart) (ptable buf i).lbaLength (partoff + i + 1))
      else some .exit := by
  subst hi
  rw [searchEntries]
  rw [if_neg hkernel.1, if_pos hkernel.2]

lemma searchEntries_link (hi : i = 4 - (left + 1)) (hlink : IsLink (ptable buf i)) :
    searchEntries disk recur buf c partoff (left + 1) =
      match recur (inner c (ptable buf i)) with
      | some .absent => searchEntries disk recur buf c partoff left
      | r => r := by
  subst hi
  rw [searchEntries]
  rw [if_neg hlink.1, if_neg (fun htype => hlink.not_kernel ⟨hlink.1, htype⟩), if_pos hlink.2]

/-- What the loop has done at an entry when it has a result: it has left with a kernel partition or with the result of
the call, or it has gone on. -/
lemma searchEntries_cases (hi : i = 4 - (left + 1)) (h : searchEntries disk recur buf c partoff (left + 1) = some r) :
    IsKernel (ptable buf i) ∧
        (r = .found (c.1 + (ptable buf i).lbaStart) (ptable buf i).lbaLength (partoff + i + 1) ∨ r = .exit) ∨
      IsLink (ptable buf i) ∧ recur (inner c (ptable buf i)) = some r ∧ r ≠ .absent ∨
      ¬ IsKernel (ptable buf i) ∧ (IsLink (ptable buf i) → recur (inner c (ptable buf i)) = some .absent) ∧
        searchEntries disk recur buf c partoff left = some r := by
  by_cases hkernel : IsKernel (ptable buf i)
  · rw [searchEntries_kernel hi hkernel] at h
    left
    refine ⟨hkernel, ?_⟩
    split_ifs at h
    · exact Or.inl (Option.some.inj h).symm
    · exact Or.inr (Option.some.inj h).symm
  · right
    by_cases hlink : IsLink (ptable buf i)
    · rw [searchEntries_link hi hlink] at h
      cases hcall : recur (inner c (ptable buf i)) with
      | none =>
        rw [hcall] at h
        cases h
      | some s =>
        rw [hcall] at h
        cases s with
        | absent => exact Or.inr ⟨hkernel, fun _ => rfl, h⟩
        | exit => exact Or.inl ⟨hlink, h, by rw [← Option.some.inj h]; exact Search.noConfusion⟩
        | found start length number => exact Or.inl ⟨hlink, h, by rw [← Option.some.inj h]; exact Search.noConfusion⟩
    · rw [searchEntries_skip hi hkernel hlink] at h
      exact Or.inr ⟨hkernel, fun hl => absurd hl hlink, h⟩

lemma searchEntries_mono (hrecur : ∀ c r, recur c = some r → recur' c = some r)
    (h : searchEntries disk recur buf c partoff left = some r) : searchEntries disk recur' buf c partoff left = some r := by
  induction left with
  | zero => exact h
  | succ left ih =>
    rcases searchEntries_cases rfl h with ⟨hkernel, -⟩ | ⟨hlink, hcall, hr⟩ | ⟨hkernel, hcall, hrest⟩
    · rw [searchEntries_kernel rfl hkernel] at h ⊢
      exact h
    · rw [searchEntries_link rfl hlink, hrecur _ _ hcall]
      cases r with
      | absent => exact absurd rfl hr
      | exit => rfl
      | found start length number => rfl
    · by_cases hlink : IsLink (ptable buf (4 - (left + 1)))
      · rw [searchEntries_link rfl hlink, hrecur _ _ (hcall hlink)]
        exact ih hrest
      · rw [searchEntries_skip rfl hkernel hlink]
        exact ih hrest

/-- The loop goes on behind the entry, if the call for it ends. -/
def GoesPast (recur : Nat × Nat → Option Search) (c : Nat × Nat) (buf : Sector) (i : Nat) : Prop :=
  ¬ IsKernel (ptable buf i) ∧ (IsLink (ptable buf i) → ∀ r, recur (inner c (ptable buf i)) = some r → r = .absent)

lemma searchEntries_goesPast (hpast : GoesPast recur c buf (4 - (left + 1)))
    (h : searchEntries disk recur buf c partoff (left + 1) = some r) : searchEntries disk recur buf c partoff left = some r := by
  rcases searchEntries_cases rfl h with ⟨hkernel, -⟩ | ⟨hlink, hcall, hr⟩ | ⟨-, -, hrest⟩
  · exact absurd hkernel hpast.1
  · exact absurd (hpast.2 hlink r hcall) hr
  · exact hrest

lemma searchEntries_absent (hleft : left ≤ 4) (hpast : ∀ i, i < 4 → GoesPast recur c buf i)
    (h : searchEntries disk recur buf c partoff left = some r) : r = .absent := by
  induction left with
  | zero => exact (Option.some.inj h).symm
  | succ left ih => exact ih (by omega) (searchEntries_goesPast (hpast _ (by omega)) h)

/-- A search that has come to the end of the table has passed all entries. -/
lemma passed_of_absent (hrecur : ∀ c, recur c = some .absent → Barren disk c) (hleft : left ≤ 4)
    (h : searchEntries disk recur buf c partoff left = some .absent) : ∀ i, 4 - left ≤ i → i < 4 → Passed disk c buf i := by
  induction left with
  | zero =>
    intro i hi hi'
    omega
  | succ left ih =>
    rcases searchEntries_cases rfl h with ⟨-, hr | hr⟩ | ⟨-, -, hr⟩ | ⟨hkernel, hcall, hrest⟩
    · cases hr
    · cases hr
    · exact absurd rfl hr
    · intro i hi hi'
      by_cases heq : i = 4 - (left + 1)
      · rw [heq]
        exact ⟨hkernel, fun hlink => hrecur _ (hcall hlink)⟩
      · exact ih (by omega) hrest i (by omega) hi'

/-- The loop makes the call for an entry before which it goes past all. -/
lemma searchEntries_calls (hleft : left ≤ 4) (hi : 4 - left ≤ i) (hi' : i < 4) (hpast : ∀ j, j < i → GoesPast recur c buf j)
    (hlink : IsLink (ptable buf i)) (h : searchEntries disk recur buf c partoff left = some r) :
    ∃ r', recur (inner c (ptable buf i)) = some r' := by
  induction left with
  | zero => omega
  | succ left ih =>
    by_cases heq : i = 4 - (left + 1)
    · rcases searchEntries_cases heq h with ⟨hkernel, -⟩ | ⟨-, hcall, -⟩ | ⟨-, hcall, -⟩
      · exact absurd hkernel hlink.not_kernel
      · exact ⟨r, hcall⟩
      · exact ⟨.absent, hcall hlink⟩
    · exact ih (by omega) (by omega) (searchEntries_goesPast (hpast _ (by omega)) h)

lemma passed_next (hpassed : ∀ j, j < 4 - (left + 1) → Passed disk c buf j) (hfirst : Passed disk c buf (4 - (left + 1))) :
    ∀ j, j < 4 - left → Passed disk c buf j := by
  intro j hj
  by_cases heq : j = 4 - (left + 1)
  · exact heq ▸ hfirst
  · exact hpassed j (by omega)

/-- A partition is found in the table, or by the call for one of its entries. -/
lemma searchEntries_found {start length number : Nat} (hrecur : ∀ c, recur c = some .absent → Barren disk c) (hleft : left ≤ 4)
    (hpassed : ∀ j, j < 4 - left → Passed disk c buf j)
    (h : searchEntries disk recur buf c partoff left = some (.found start length number)) :
    ∃ i, i < 4 ∧ (∀ j, j < i → Passed disk c buf j) ∧
      (IsKernel (ptable buf i) ∧ start = c.1 + (ptable buf i).lbaStart ∨
        IsLink (ptable buf i) ∧ recur (inner c (ptable buf i)) = some (.found start length number)) := by
  induction left with
  | zero => cases h
  | succ left ih =>
    rcases searchEntries_cases rfl h with ⟨hkernel, hr | hr⟩ | ⟨hlink, hcall, -⟩ | ⟨hkernel, hcall, hrest⟩
    · rw [Search.found.injEq] at hr
      exact ⟨_, by omega, hpassed, Or.inl ⟨hkernel, hr.1⟩⟩
    · cases hr
    · exact ⟨_, by omega, hpassed, Or.inr ⟨hlink, hcall⟩⟩
    · exact ih (by omega) (passed_next hpassed ⟨hkernel, fun hlink => hrecur _ (hcall hlink)⟩) hrest

/-! ### The recursion -/

/-- The part of the partition number that a call passes on. -/
def nextPartoff (partoff : Nat) : Nat := if partoff ≠ 0 then partoff + 1 else 4

lemma findPartition_unreadable (h : readsect disk c.1 = none) : findPartition disk (fuel + 1) c partoff = some .exit := by
  rw [findPartition, h]

lemma findPartition_noTable (h : readsect disk c.1 = some buf) (hmagic : hasMagic buf = false) :
    findPartition disk (fuel + 1) c partoff = some .absent := by
  rw [findPartition, h]
  dsimp only
  rw [if_pos (by rw [hmagic]; exact Bool.false_ne_true)]

lemma findPartition_opens (h : Opens disk c buf) : findPartition disk (fuel + 1) c partoff =
    searchEntries disk (fun c' => findPartition disk fuel c' (nextPartoff partoff)) buf c partoff 4 := by
  rw [findPartition, h.1]
  dsimp only
  rw [if_neg (not_not.2 h.2)]
  rfl

lemma opens_cases (disk : Disk) (c : Nat × Nat) : readsect disk c.1 = none ∨
    (∃ buf, readsect disk c.1 = some buf ∧ hasMagic buf = false) ∨ ∃ buf, Opens disk c buf := by
  cases hread : readsect disk c.1 with
  | none => exact Or.inl rfl
  | some buf =>
    cases hmagic : hasMagic buf with
    | false => exact Or.inr (Or.inl ⟨buf, rfl, hmagic⟩)
    | true => exact Or.inr (Or.inr ⟨buf, hread, hmagic⟩)

lemma findPartition_mono {fuel' : Nat} (hfuel : fuel ≤ fuel') (h : findPartition disk fuel c partoff = some r) :
    findPartition disk fuel' c partoff = some r := by
  induction fuel generalizing fuel' c partoff r with
  | zero => cases h
  | succ fuel ih =>
    obtain ⟨fuel', rfl⟩ : ∃ n, fuel' = n + 1 := ⟨fuel' - 1, by omega⟩
    rcases opens_cases disk c with hread | ⟨buf, hread, hmagic⟩ | ⟨buf, hopens⟩
    · rw [findPartition_unreadable hread] at h ⊢
      exact h
    · rw [findPartition_noTable hread hmagic] at h ⊢
      exact h
    · rw [findPartition_opens hopens] at h ⊢
      exact searchEntries_mono (fun c r hcall => ih (by omega) hcall) h

lemma Barren.absent (hbarren : Barren disk c) (h : findPartition disk fuel c partoff = some r) : r = .absent := by
  induction hbarren generalizing fuel partoff r with
  | noTable hread hmagic =>
    cases fuel with
    | zero => cases h
    | succ fuel =>
      rw [findPartition_noTable hread hmagic] at h
      exact (Option.some.inj h).symm
  | @table c buf hopens hkernel hlink ih =>
    cases fuel with
    | zero => cases h
    | succ fuel =>
      rw [findPartition_opens hopens] at h
      exact searchEntries_absent (Nat.le_refl 4) (fun i hi => ⟨hkernel i hi, fun hl s hs => ih i hi hl hs⟩) h

lemma barren_of_absent (h : findPartition disk fuel c partoff = some .absent) : Barren disk c := by
  induction fuel generalizing c partoff with
  | zero => cases h
  | succ fuel ih =>
    rcases opens_cases disk c with hread | ⟨buf, hread, hmagic⟩ | ⟨buf, hopens⟩
    · rw [findPartition_unreadable hread] at h
      cases h
    · exact Barren.noTable hread hmagic
    · rw [findPartition_opens hopens] at h
      have hpassed := passed_of_absent (fun c hcall => ih hcall) (Nat.le_refl 4) h
      exact Barren.table hopens (fun i hi => (hpassed i (by omega) hi).1) fun i hi => (hpassed i (by omega) hi).2

/-- A call ends within the fuel. -/
def EndsWithin (disk : Disk) (fuel : Nat) (c : Nat × Nat) : Prop := ∃ partoff r, findPartition disk fuel c partoff = some r

lemma not_endsWithin_zero (c : Nat × Nat) : ¬ EndsWithin disk 0 c := by
  rintro ⟨partoff, r, h⟩
  cases h

/-- A call that ends makes its own calls, and they end within less fuel. -/
lemma endsWithin_step (hstep : Step disk c c') (h : EndsWithin disk (fuel + 1) c) : EndsWithin disk fuel c' := by
  obtain ⟨partoff, r, h⟩ := h
  obtain ⟨hopens, hi, hlink, hpassed⟩ := hstep
  rw [findPartition_opens hopens] at h
  obtain ⟨r', hcall⟩ := searchEntries_calls (Nat.le_refl 4) (by omega) hi
    (fun j hj => ⟨(hpassed j hj).1, fun hl s hs => ((hpassed j hj).2 hl).absent hs⟩) hlink h
  exact ⟨_, r', hcall⟩

/-- A call ends where all its calls do. -/
lemma ends_of_calls (h : ∀ c', Step disk c c' → ∀ partoff, ∃ fuel r, findPartition disk fuel c' partoff = some r) (partoff : Nat) :
    ∃ fuel r, findPartition disk fuel c partoff = some r := by
  rcases opens_cases disk c with hread | ⟨buf, hread, hmagic⟩ | ⟨buf, hopens⟩
  · exact ⟨1, _, findPartition_unreadable hread⟩
  · exact ⟨1, _, findPartition_noTable hread hmagic⟩
  · have hloop : ∀ left, left ≤ 4 → (∀ j, j < 4 - left → Passed disk c buf j) → ∃ fuel r,
        searchEntries disk (fun c' => findPartition disk fuel c' (nextPartoff partoff)) buf c partoff left = some r := by
      intro left
      induction left with
      | zero => exact fun _ _ => ⟨0, _, rfl⟩
      | succ left ih =>
        intro hleft hpassed
        by_cases hkernel : IsKernel (ptable buf (4 - (left + 1)))
        · refine ⟨0, ?_⟩
          rw [searchEntries_kernel rfl hkernel]
          split_ifs
          · exact ⟨_, rfl⟩
          · exact ⟨_, rfl⟩
        · by_cases hlink : IsLink (ptable buf (4 - (left + 1)))
          · obtain ⟨fuel, r, hcall⟩ := h _ (Step.link hopens (by omega) hlink hpassed) (nextPartoff partoff)
            cases r with
            | absent =>
              obtain ⟨fuel', r', hrest⟩ := ih (by omega) (passed_next hpassed ⟨hkernel, fun _ => barren_of_absent hcall⟩)
              refine ⟨max fuel fuel', r', ?_⟩
              rw [searchEntries_link rfl hlink, findPartition_mono (Nat.le_max_left fuel fuel') hcall]
              exact searchEntries_mono (fun c r hc => findPartition_mono (Nat.le_max_right fuel fuel') hc) hrest
            | exit =>
              refine ⟨fuel, .exit, ?_⟩
              rw [searchEntries_link rfl hlink, hcall]
            | found start length number =>
              refine ⟨fuel, .found start length number, ?_⟩
              rw [searchEntries_link rfl hlink, hcall]
          · obtain ⟨fuel, r, hrest⟩ := ih (by omega) (passed_next hpassed ⟨hkernel, fun h => absurd h hlink⟩)
            refine ⟨fuel, r, ?_⟩
            rw [searchEntries_skip rfl hkernel hlink, hrest]
    obtain ⟨fuel, r, hrun⟩ := hloop 4 (Nat.le_refl 4) fun j hj => absurd hj (by omega)
    refine ⟨fuel + 1, r, ?_⟩
    rw [findPartition_opens hopens, hrun]

/-! ### Whole searches -/

lemma lbaStart_lt (buf : Sector) (i : Nat) : (ptable buf i).lbaStart < 2 ^ 32 := readLE_lt buf _ 4

lemma reached_finite (disk : Disk) : {c | Reached disk c}.Finite := by
  apply ((Set.finite_lt_nat (2 ^ 33)).prod (Set.finite_lt_nat (2 ^ 32))).subset
  intro c hc
  have hbound : c.1 < 2 ^ 33 ∧ c.2 < 2 ^ 32 := by
    induction hc with
    | refl => decide
    | tail _ hstep ih =>
      cases hstep with
      | @link buf i hopens hi hlink hpassed =>
        have hlt := lbaStart_lt buf i
        unfold inner
        constructor
        · dsimp only
          omega
        · dsimp only
          split <;> omega
  exact hbound

/-- The search ends exactly where no table lies below itself. -/
lemma terminates_iff (disk : Disk) : Terminates disk ↔ Acyclic disk := by
  constructor
  · rintro ⟨fuel, r, h⟩ c hc
    have hroot : EndsWithin disk fuel (0, 0) := ⟨0, r, h⟩
    have hends : ∃ n, EndsWithin disk n c := by
      rcases reflTransGen_iff_eq_or_transGen.1 hc with rfl | hbelow
      · exact ⟨fuel, hroot⟩
      · obtain ⟨n, -, hn⟩ :=
          Descent.transGen_descends not_endsWithin_zero (fun n a b hab => endsWithin_step hab) hbelow hroot
        exact ⟨n, hn⟩
    obtain ⟨n, hn⟩ := hends
    exact Descent.no_cycle not_endsWithin_zero (fun n a b hab => endsWithin_step hab) hn
  · intro hacyclic
    have hends : ∀ c, Acc (fun b a => Step disk a b) c → ∀ partoff, ∃ fuel r, findPartition disk fuel c partoff = some r := by
      intro c hacc
      induction hacc with
      | intro c _ ih => exact ends_of_calls fun c' hstep => ih c' hstep
    exact hends _ (Descent.acc_of_acyclic (reached_finite disk) hacyclic ReflTransGen.refl) 0

/-- The call stands for a table of the chain. -/
def OnChain (disk : Disk) (c : Nat × Nat) : Prop :=
  ∃ outer, Chain disk c.1 outer ∧ c.2 = outer.getD 0 ∧ outer ≠ some 0

lemma readsect_narrow (h : c.1 < 2 ^ 32) : readsect disk c.1 = disk.read c.1 := by
  rw [readsect, Nat.mod_eq_of_lt h]

/-- An extended partition leads from one table of the chain to another one. -/
lemma OnChain.inner (h : OnChain disk c) (hread : disk.read c.1 = some buf) (hi : i < 4) (hlink : IsLink (ptable buf i)) :
    OnChain disk (inner c (ptable buf i)) := by
  obtain ⟨outer, hchain, hbase, hne⟩ := h
  cases outer with
  | none =>
    have hzero : c.2 = 0 := hbase
    have hcall : Mkbootdisk.inner c (ptable buf i) = ((ptable buf i).lbaStart, (ptable buf i).lbaStart) := by
      rw [Mkbootdisk.inner, hzero, Nat.add_zero, if_pos rfl]
    rw [hcall]
    by_cases hstart : (ptable buf i).lbaStart = 0
    · -- an outermost extended partition at sector 0 leads back to the first call
      rw [hstart]
      exact ⟨none, Chain.root, rfl, Option.some_ne_none 0 ∘ Eq.symm⟩
    · exact ⟨some _, Chain.outermost hchain hread hi hlink.2, rfl, fun heq => hstart (Option.some.inj heq)⟩
  | some base =>
    have hself : c.2 = base := hbase
    have hcall : Mkbootdisk.inner c (ptable buf i) = ((ptable buf i).lbaStart + base, base) := by
      rw [Mkbootdisk.inner, hself, if_neg (fun hzero => hne (congrArg some hzero))]
    rw [hcall]
    exact ⟨some base, Chain.nested hchain hread hi hlink.2, rfl, hne⟩

/-- What a search finds, if it comes to it through tables with numbers of 32 bits. -/
lemma kernelStart_of_found {start length number : Nat} (hnarrow : Narrow disk) (hreached : Reached disk c) (hchain : OnChain disk c)
    (h : findPartition disk fuel c partoff = some (.found start length number)) : KernelStart disk start := by
  induction fuel generalizing c partoff with
  | zero => cases h
  | succ fuel ih =>
    have hlt : c.1 < 2 ^ 32 := hnarrow c hreached fun hbarren => Search.noConfusion (hbarren.absent h)
    rcases opens_cases disk c with hread | ⟨buf, hread, hmagic⟩ | ⟨buf, hopens⟩
    · rw [findPartition_unreadable hread] at h
      cases h
    · rw [findPartition_noTable hread hmagic] at h
      cases h
    · rw [findPartition_opens hopens] at h
      obtain ⟨i, hi, hpassed, ⟨hkernel, hstart⟩ | ⟨hlink, hcall⟩⟩ :=
        searchEntries_found (fun c hcall => barren_of_absent hcall) (Nat.le_refl 4) (fun j hj => absurd hj (by omega)) h
      · obtain ⟨outer, hc, -⟩ := hchain
        exact ⟨c.1, outer, buf, i, hc, (readsect_narrow hlt).symm.trans hopens.1, hi, hkernel.2, hstart⟩
      · have hread := (readsect_narrow hlt).symm.trans hopens.1
        exact ih (hreached.tail (Step.link hopens hi hlink hpassed)) (hchain.inner hread hi hlink) hcall

/-- The search ends if and only if it comes to no table that lies below itself. Where the tables have numbers of 32 bits,
this is also when it does all that it should. -/
theorem findPartition_right (disk : Disk) :
    (Terminates disk ↔ Acyclic disk) ∧ (Narrow disk → (SearchRight disk ↔ Acyclic disk)) := by
  refine ⟨terminates_iff disk, fun hnarrow => ?_⟩
  rw [← terminates_iff]
  constructor
  · exact fun h => h.1
  · intro hends
    refine ⟨hends, fun fuel start length number hfound => ?_⟩
    have hroot : OnChain disk (0, 0) := ⟨none, Chain.root, rfl, Option.some_ne_none 0 ∘ Eq.symm⟩
    exact kernelStart_of_found hnarrow ReflTransGen.refl hroot hfound

/-- A partition sector whose first entry is an extended partition at sector 0. -/
def loopSector : Sector := fun a =>
  if a = ptableOffset + 4 then 0x05 else if a = ptableOffset + 12 then 1 else if a = ptableMagicOffset then 0x55
  else if a = ptableMagicOffset + 1 then 0xAA else 0

/-- The search comes back to sector 0 again and again. -/
theorem findPartition_loops : ¬ ∀ disk, SearchRight disk := by
  intro h
  have hends := (h ⟨fun _ => some loopSector, fun _ => true⟩).1
  have hacyclic := (terminates_iff _).1 hends (0, 0) ReflTransGen.refl
  apply hacyclic
  apply TransGen.single
  have hopens : Opens ⟨fun _ => some loopSector, fun _ => true⟩ (0, 0) loopSector := ⟨rfl, by decide⟩
  exact Step.link (i := 0) hopens (by decide) ⟨by decide, by decide⟩ fun j hj => absurd hj (Nat.not_lt_zero j)

end

end Mkbootdisk

end Cs300Projects.WeensyOS
