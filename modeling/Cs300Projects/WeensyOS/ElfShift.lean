import Cs300Projects.Lib.Column
import Cs300Projects.WeensyOS.ElfFrame

/-!
# Shifting sections

`shift_sections` on a valid image whose tables of headers are apart: the bytes of the file move as they are but for
the fields of headers that are updated, and sections and segments are found where their headers say.
-/

namespace Cs300Projects.WeensyOS.Elf

open Bytes Loop

/-- Where the byte `x` of the file is after `diff` bytes were inserted at `offset`. -/
def moved (offset diff x : Nat) : Nat := if offset ≤ x then x + diff else x

namespace File

variable (f : File)

/-- The fields `p_offset` and `sh_offset` of all headers. -/
def programOffsets : Column := ⟨ePhoff f.data 0, elfProgramSize, 0x08, 8, by decide⟩
def sectionOffsets : Column := ⟨eShoff f.data 0, elfSectionSize, 0x18, 8, by decide⟩

/-- A byte of a field that `shift_sections` updates: `e_shoff`, `p_offset` and `sh_offset`. -/
def FieldByte (x : Nat) : Prop :=
  ¬ Outside x 0x28 8 ∨ (∃ i, i < ePhnum f.data 0 ∧ ¬ Outside x (f.programOffsets.addr i) 8) ∨
    ∃ i, i < eShnum f.data 0 ∧ ¬ Outside x (f.sectionOffsets.addr i) 8

/-- The ELF header and the two tables of headers have no byte in common. -/
structure TablesApart : Prop where
  programs : elfHeaderSize ≤ ePhoff f.data 0
  sections : elfHeaderSize ≤ eShoff f.data 0
  tables : Apart (ePhoff f.data 0) (elfProgramSize * ePhnum f.data 0) (eShoff f.data 0) (elfSectionSize * eShnum f.data 0)

/-- The offset of the program header `i`. -/
def pht (i : Nat) : Nat := ePhoff f.data 0 + elfProgramSize * i

/-- `g` is `f` with `diff` null bytes inserted at `offset`, and the headers point to what they pointed to. -/
structure Shifted (f g : File) (offset diff : Nat) : Prop where
  size : g.size = f.size + diff
  bytes : ∀ x, x < f.size → ¬ f.FieldByte x → g.data (moved offset diff x) = f.data x
  gap : ∀ x, offset ≤ x → x < offset + diff → g.data x = 0
  shoff : eShoff g.data 0 = moved offset diff (eShoff f.data 0)
  programs : ∀ i, i < ePhnum f.data 0 →
    pOffset g.data (g.pht i) = moved offset diff (pOffset f.data (f.pht i)) % 2 ^ 64
  headers : ∀ i, i < eShnum f.data 0 → ∀ k, k < elfSectionSize → Outside k 0x18 8 →
    g.data (g.sht i + k) = f.data (f.sht i + k)
  sections : ∀ i, i < eShnum f.data 0 → g.offset i = moved offset diff (f.offset i) % 2 ^ 64
  contents : ∀ i, f.Stored i → ∀ k, k < f.sectionSize i → ¬ f.FieldByte (f.offset i + k) →
    g.data (g.offset i + k) = f.data (f.offset i + k)
  segments : ∀ i, i < ePhnum f.data 0 → pOffset f.data (f.pht i) + pFilesz f.data (f.pht i) < 2 ^ 64 →
    ∀ k, k < pFilesz f.data (f.pht i) → pOffset f.data (f.pht i) + k < f.size →
      ¬ f.FieldByte (pOffset f.data (f.pht i) + k) →
        g.data (pOffset g.data (g.pht i) + k) = f.data (pOffset f.data (f.pht i) + k)

end File

namespace ElfInfo

/-- `eh_`, `pht_` and `sht_` point to the header and the tables, in the current buffer. -/
structure Current (ei : ElfInfo) : Prop where
  eh : ei.eh = ⟨ei.buffer, 0⟩
  pht : ei.pht = ⟨ei.buffer, ePhoff ei.data 0⟩
  sht : ei.sht = ⟨ei.buffer, eShoff ei.data 0⟩

lemma current_ofFile (f : File) (capacity : Nat) : (ofFile f capacity).Current := ⟨rfl, rfl, rfl⟩

/-! ### The loops over the headers -/

variable {f : File} {m : Nat → UInt8} {offset diff : Nat}

/-- A header field after the loop. -/
def shiftedField (offset diff v : Nat) : Nat := moved offset diff v % 2 ^ 64

lemma shiftedField_low {v : Nat} (h : ¬ offset ≤ v) (hv : v < 2 ^ 64) : shiftedField offset diff v = v := by
  rw [shiftedField, moved, if_neg h, Nat.mod_eq_of_lt hv]

lemma shiftedField_high {v : Nat} (h : offset ≤ v) : shiftedField offset diff v = (v + diff) % 2 ^ 64 := by
  rw [shiftedField, moved, if_pos h]

/-- The fields of the ELF header are kept by an update of a column behind it. -/
lemma updated_header {c : Column} {g : Nat → Nat} {m m' : Nat → UInt8} {k : Nat} (h : c.Updated g m m' k)
    (hc : elfHeaderSize ≤ c.base) {a n : Nat} (ha : a + n ≤ elfHeaderSize) : readLE m' a n = readLE m a n :=
  h.readLE fun j _ => Or.inl (Nat.le_trans ha (Nat.le_trans hc (Column.base_le_addr j)))

lemma shiftPrograms_updated (hapart : f.TablesApart) (hrun : shiftPrograms f.data (ePhoff f.data 0) offset diff = some m) :
    f.programOffsets.Updated (shiftedField offset diff) f.data m (ePhnum f.data 0) ∧
      ∀ i, i < ePhnum f.data 0 → offset ≤ pOffset f.data (f.pht i) ∨
        (pOffset f.data (f.pht i) + pFilesz f.data (f.pht i)) % 2 ^ 64 ≤ offset := by
  rw [shiftPrograms, Option.join_eq_some_iff] at hrun
  refine Column.run_updated ?_ hrun
  intro i m' hi hupdated
  have hphnum : ePhnum m' 0 = ePhnum f.data 0 := updated_header hupdated hapart.programs (by decide)
  have hoffset : pOffset m' (f.pht i) = pOffset f.data (f.pht i) := hupdated.get_later
  have hfilesz : pFilesz m' (f.pht i) = pFilesz f.data (f.pht i) := hupdated.readLE_later (Nat.le_add_right _ _)
  have hbody : programRound (ePhoff f.data 0) offset diff (i, m') =
      if i = ePhnum m' 0 then .done (some m')
      else if offset ≤ pOffset m' (f.pht i) then
        .next (i + 1, writeLE m' (f.pht i + 0x08) 8 (pOffset m' (f.pht i) + diff))
      else if offset < (pOffset m' (f.pht i) + pFilesz m' (f.pht i)) % 2 ^ 64 then .done none
      else .next (i + 1, m') := rfl
  rw [hbody, hphnum, hoffset, hfilesz]
  by_cases hend : i = ePhnum f.data 0
  · rw [if_pos hend]
    exact Or.inr (Or.inl ⟨hend, rfl⟩)
  rw [if_neg hend]
  have hlt := Nat.lt_of_le_of_ne hi hend
  by_cases hshift : offset ≤ pOffset f.data (f.pht i)
  · rw [if_pos hshift]
    exact Or.inr (Or.inr ⟨hlt, Or.inl hshift, _, rfl, hupdated.set (shiftedField_high hshift).symm⟩)
  rw [if_neg hshift]
  by_cases hspans : offset < (pOffset f.data (f.pht i) + pFilesz f.data (f.pht i)) % 2 ^ 64
  · rw [if_pos hspans]
    exact Or.inl rfl
  · rw [if_neg hspans]
    exact Or.inr (Or.inr ⟨hlt, Or.inr (Nat.not_lt.1 hspans), m', rfl,
      hupdated.keep (shiftedField_low hshift (readLE_lt f.data _ 8))⟩)

/-- The section headers are those of the file `f`, of which the program headers were updated before. -/
lemma shiftHeaders_updated (hapart : f.TablesApart) {m₁ : Nat → UInt8} {g : Nat → Nat}
    (hprograms : f.programOffsets.Updated g f.data m₁ (ePhnum f.data 0))
    (hrun : shiftHeaders m₁ (eShoff f.data 0) offset diff = some m) :
    f.sectionOffsets.Updated (shiftedField offset diff) m₁ m (eShnum f.data 0) ∧
      ∀ i, i < eShnum f.data 0 → offset ≤ f.offset i ∨ f.type i = elfShtNull ∨ f.type i = elfShtNobits ∨
        (f.offset i + f.sectionSize i) % 2 ^ 64 ≤ offset := by
  have hfields : ∀ i, i < eShnum f.data 0 → ∀ a n, f.sht i ≤ a → a + n ≤ f.sht i + elfSectionSize →
      readLE m₁ a n = readLE f.data a n := by
    intro i hi a n ha hn
    apply hprograms.readLE
    intro j hj
    have htables := hapart.tables
    have haddr : f.programOffsets.addr j = ePhoff f.data 0 + elfProgramSize * j + 8 := rfl
    have hwidth : f.programOffsets.width = 8 := rfl
    unfold Apart at htables ⊢
    unfold File.sht elfSectionSize elfProgramSize at *
    omega
  rw [shiftHeaders, Option.join_eq_some_iff] at hrun
  refine Column.run_updated ?_ hrun
  intro i m' hi hupdated
  have hshnum : eShnum m' 0 = eShnum f.data 0 :=
    (updated_header hupdated hapart.sections (by decide)).trans (updated_header hprograms hapart.programs (by decide))
  have hbody : sectionRound (eShoff f.data 0) offset diff (i, m') =
      if i = eShnum m' 0 then .done (some m')
      else if offset ≤ shOffset m' (f.sht i) then
        .next (i + 1, writeLE m' (f.sht i + 0x18) 8 (shOffset m' (f.sht i) + diff))
      else if shType m' (f.sht i) ≠ elfShtNull ∧ shType m' (f.sht i) ≠ elfShtNobits ∧
          offset < (shOffset m' (f.sht i) + shSize m' (f.sht i)) % 2 ^ 64 then .done none
      else .next (i + 1, m') := rfl
  rw [hbody, hshnum]
  by_cases hend : i = eShnum f.data 0
  · rw [if_pos hend]
    exact Or.inr (Or.inl ⟨hend, rfl⟩)
  rw [if_neg hend]
  have hlt := Nat.lt_of_le_of_ne hi hend
  have hget : f.sectionOffsets.get m₁ i = f.offset i := by
    refine hfields i hlt _ _ (Nat.le_add_right _ _) ?_
    change f.sht i + 0x18 + 8 ≤ _
    unfold elfSectionSize
    omega
  have hoffset : shOffset m' (f.sht i) = f.offset i := hupdated.get_later.trans hget
  have htype : shType m' (f.sht i) = f.type i := by
    exact (hupdated.readLE_later (Nat.le_add_right _ _)).trans
      (hfields i hlt (f.sht i + 0x04) 4 (Nat.le_add_right _ _) (by unfold elfSectionSize; omega))
  have hsize : shSize m' (f.sht i) = f.sectionSize i := by
    exact (hupdated.readLE_later (Nat.le_add_right _ _)).trans
      (hfields i hlt (f.sht i + 0x20) 8 (Nat.le_add_right _ _) (by unfold elfSectionSize; omega))
  rw [hoffset, htype, hsize]
  by_cases hshift : offset ≤ f.offset i
  · rw [if_pos hshift]
    refine Or.inr (Or.inr ⟨hlt, Or.inl hshift, _, rfl, hupdated.set ?_⟩)
    rw [hget]
    exact (shiftedField_high hshift).symm
  rw [if_neg hshift]
  by_cases hspans : f.type i ≠ elfShtNull ∧ f.type i ≠ elfShtNobits ∧ offset < (f.offset i + f.sectionSize i) % 2 ^ 64
  · rw [if_pos hspans]
    exact Or.inl rfl
  · rw [if_neg hspans]
    refine Or.inr (Or.inr ⟨hlt, ?_, m', rfl, hupdated.keep ?_⟩)
    · by_contra hbad
      simp only [not_or, Nat.not_le] at hbad
      exact hspans ⟨hbad.2.1, hbad.2.2.1, hbad.2.2.2⟩
    · rw [hget]
      exact shiftedField_low hshift (readLE_lt f.data _ 8)

/-! ### The move -/

variable {ei ei' : ElfInfo}

lemma grow_data (ei : ElfInfo) (capacity : Nat) : (ei.grow capacity).data = ei.data := by
  unfold grow
  split
  · rfl
  · rfl

lemma grow_size (ei : ElfInfo) (capacity : Nat) : (ei.grow capacity).size = ei.size := by
  unfold grow
  split
  · rfl
  · rfl

lemma Current.grow (h : ei.Current) (capacity : Nat) : (ei.grow capacity).Current := by
  unfold ElfInfo.grow
  split
  · exact ⟨rfl, rfl, rfl⟩
  · exact h

lemma moveData_data (ei : ElfInfo) (h : ei.size + diff < 2 ^ 64) (x : Nat) :
    (ei.moveData offset diff h).data x =
      if offset ≤ x ∧ x < offset + diff then 0
      else if offset + diff ≤ x ∧ x < offset + diff + (ei.size - offset) then ei.data (offset + (x - (offset + diff)))
      else ei.data x := by
  unfold moveData
  simp only [grow_data, grow_size]
  rfl

/-- A change of the contents behind the ELF header. -/
lemma Current.of_header {data : Nat → UInt8} {size : Nat} {hsize : size < 2 ^ 64} (h : ei.Current)
    (hphoff : ePhoff data 0 = ePhoff ei.data 0) (hshoff : eShoff data 0 = eShoff ei.data 0) (changed : Bool) :
    Current { ei with data := data, size := size, size_lt := hsize, changed := changed } := by
  refine ⟨h.eh, ?_, ?_⟩
  · rw [hphoff]
    exact h.pht
  · rw [hshoff]
    exact h.sht

/-- The steps of `shift_sections`, when it does not exit. -/
lemma shiftSections_cases (hvalid : ei.toFile.Valid) (hcurrent : ei.Current)
    (hrun : ei.shiftSections offset diff = some ei') :
    offset < ei.size ∧ 0 < diff ∧ ePhoff ei.data 0 + elfProgramSize * ePhnum ei.data 0 < offset ∧
      ∃ m₁ m₂, shiftPrograms ei.data (ePhoff ei.data 0) offset diff = some m₁ ∧
        shiftHeaders m₁ (eShoff ei.data 0) offset diff = some m₂ ∧
        ∃ h : ei.size + diff < 2 ^ 64, ∃ moved, moved = moveData { ei with data := m₂ } offset diff h ∧
          (offset ≤ eShoff moved.data 0 ∧
              ei' = { moved with
                data := writeLE moved.data 0x28 8 (eShoff moved.data 0 + diff)
                sht := ⟨moved.buffer, eShoff (writeLE moved.data 0x28 8 (eShoff moved.data 0 + diff)) 0⟩ } ∨
            ¬ offset ≤ eShoff moved.data 0 ∧ ei' = moved) := by
  have hheader := hvalid.header
  have hphoff := hheader.phoff
  have hprograms := hheader.programs
  have hsize := ei.size_lt
  have hwrap : (ePhoff ei.data 0 + ei.phnum * elfProgramSize) % 2 ^ 64 =
      ePhoff ei.data 0 + elfProgramSize * ePhnum ei.data 0 := by
    rw [phnum, Nat.mul_comm]
    apply Nat.mod_eq_of_lt
    unfold elfProgramSize at *
    omega
  have hlive : ¬ (ei.eh.buffer ≠ ei.buffer ∨ ei.pht.buffer ≠ ei.buffer ∨ ei.sht.buffer ≠ ei.buffer) := by
    rw [hcurrent.eh, hcurrent.pht, hcurrent.sht]
    simp
  have hpht : ei.pht.offset = ePhoff ei.data 0 := by rw [hcurrent.pht]
  have hsht : ei.sht.offset = eShoff ei.data 0 := by rw [hcurrent.sht]
  unfold shiftSections at hrun
  rw [hwrap, hpht, hsht] at hrun
  by_cases hassert : offset < ei.size ∧ 0 < diff
  swap
  · rw [if_pos hassert] at hrun
    cases hrun
  rw [if_neg (not_not.2 hassert), if_neg hlive] at hrun
  by_cases hspans : offset ≤ ePhoff ei.data 0 + elfProgramSize * ePhnum ei.data 0
  · rw [if_pos hspans] at hrun
    cases hrun
  rw [if_neg hspans, Option.bind_eq_some_iff] at hrun
  obtain ⟨m₁, hm₁, hrun⟩ := hrun
  rw [Option.bind_eq_some_iff] at hrun
  obtain ⟨m₂, hm₂, hrun⟩ := hrun
  refine ⟨hassert.1, hassert.2, Nat.not_le.1 hspans, m₁, m₂, hm₁, hm₂, ?_⟩
  by_cases h : ei.size + diff < 2 ^ 64
  swap
  · rw [dif_neg h] at hrun
    cases hrun
  rw [dif_pos h] at hrun
  refine ⟨h, _, rfl, ?_⟩
  simp only at hrun
  split at hrun
  · cases hrun
  split at hrun
  · rename_i hafter
    exact Or.inl ⟨hafter, (Option.some.inj hrun).symm⟩
  · rename_i hbefore
    exact Or.inr ⟨hbefore, (Option.some.inj hrun).symm⟩

/-- `m` is the contents of `f` with its headers updated. -/
structure HeadersShifted (f : File) (m : Nat → UInt8) (offset diff : Nat) : Prop where
  kept : ∀ x, (∀ i, i < ePhnum f.data 0 → Outside x (f.programOffsets.addr i) 8) →
    (∀ i, i < eShnum f.data 0 → Outside x (f.sectionOffsets.addr i) 8) → m x = f.data x
  programs : ∀ i, i < ePhnum f.data 0 →
    pOffset m (f.pht i) = shiftedField offset diff (pOffset f.data (f.pht i))
  sections : ∀ i, i < eShnum f.data 0 → shOffset m (f.sht i) = shiftedField offset diff (f.offset i)

lemma HeadersShifted.header (h : HeadersShifted f m offset diff) (hapart : f.TablesApart) {x : Nat}
    (hx : x < elfHeaderSize) : m x = f.data x := by
  apply h.kept
  · intro i _
    have hbase : elfHeaderSize ≤ f.programOffsets.base := hapart.programs
    exact Or.inl (Nat.lt_of_lt_of_le hx (Nat.le_trans hbase (Column.base_le_addr i)))
  · intro i _
    have hbase : elfHeaderSize ≤ f.sectionOffsets.base := hapart.sections
    exact Or.inl (Nat.lt_of_lt_of_le hx (Nat.le_trans hbase (Column.base_le_addr i)))

/-- A field of one table is apart from the fields of the other. -/
lemma fields_apart (hapart : f.TablesApart) {i j : Nat} (hi : i < ePhnum f.data 0) (hj : j < eShnum f.data 0) :
    Apart (f.programOffsets.addr i) 8 (f.sectionOffsets.addr j) 8 := by
  have htables := hapart.tables
  have hprogram : f.programOffsets.addr i = ePhoff f.data 0 + elfProgramSize * i + 8 := rfl
  have hsection : f.sectionOffsets.addr j = eShoff f.data 0 + elfSectionSize * j + 0x18 := rfl
  unfold Apart at htables ⊢
  unfold elfSectionSize elfProgramSize at *
  omega

lemma headers_shifted (hapart : f.TablesApart) {m₁ m₂ : Nat → UInt8}
    (h₁ : f.programOffsets.Updated (shiftedField offset diff) f.data m₁ (ePhnum f.data 0))
    (h₂ : f.sectionOffsets.Updated (shiftedField offset diff) m₁ m₂ (eShnum f.data 0)) :
    HeadersShifted f m₂ offset diff := by
  constructor
  · intro x hprograms hsections
    exact (h₂.rest x hsections).trans (h₁.rest x hprograms)
  · intro i hi
    have hkept : f.programOffsets.get m₂ i = f.programOffsets.get m₁ i :=
      h₂.readLE fun j hj => fields_apart hapart hi hj
    exact hkept.trans (h₁.fields i hi)
  · intro i hi
    have hkept : f.sectionOffsets.get m₁ i = f.sectionOffsets.get f.data i :=
      h₁.readLE fun j hj => (fields_apart hapart hj hi).symm
    exact (h₂.fields i hi).trans (congrArg _ hkept)

/-- `d` is `m` with `diff` null bytes inserted, and `e_shoff` moved. -/
structure Inserted (m d : Nat → UInt8) (size offset diff : Nat) : Prop where
  before : ∀ x, x < offset → Outside x 0x28 8 → d x = m x
  gap : ∀ x, offset ≤ x → x < offset + diff → d x = 0
  after : ∀ x, offset ≤ x → x < size → d (x + diff) = m x
  shoff : eShoff d 0 = moved offset diff (eShoff m 0)

/-- A range that is not cut is moved as a whole. -/
lemma Inserted.range {m d : Nat → UInt8} {size a n k : Nat} (h : Inserted m d size offset diff)
    (hcut : a + n ≤ offset ∨ offset ≤ a) (hn : a + n ≤ size) (hshoff : Apart a n 0x28 8)
    (hk : k < n) : d (moved offset diff a + k) = m (a + k) := by
  unfold moved
  by_cases hle : offset ≤ a
  · rw [if_pos hle, Nat.add_right_comm]
    exact h.after (a + k) (by omega) (by omega)
  · rw [if_neg hle]
    exact h.before (a + k) (by omega) (hshoff.outside (by omega) (by omega))

lemma Inserted.readLE {m d : Nat → UInt8} {size a n k j : Nat} (h : Inserted m d size offset diff)
    (hcut : a + n ≤ offset ∨ offset ≤ a) (hn : a + n ≤ size) (hshoff : Apart a n 0x28 8)
    (hk : k + j ≤ n) : Bytes.readLE d (moved offset diff a + k) j = Bytes.readLE m (a + k) j := by
  apply readLE_shift
  intro i hi
  rw [Nat.add_assoc, Nat.add_assoc]
  exact h.range hcut hn hshoff (by omega)

/-- The move inserts the null bytes, and the pointers are to the tables in the current buffer. -/
lemma shiftSections_inserted {m₂ : Nat → UInt8} {h : ei.size + diff < 2 ^ 64} {moved' : ElfInfo}
    (hoffset : elfHeaderSize ≤ offset) (hlt : offset < ei.size) (hshoff : eShoff ei.data 0 < ei.size)
    (hcurrent : ei.Current) (hsame : ∀ x, x < elfHeaderSize → m₂ x = ei.data x)
    (hmoved : moved' = moveData { ei with data := m₂ } offset diff h)
    (hei : offset ≤ eShoff moved'.data 0 ∧
          ei' = { moved' with
            data := writeLE moved'.data 0x28 8 (eShoff moved'.data 0 + diff)
            sht := ⟨moved'.buffer, eShoff (writeLE moved'.data 0x28 8 (eShoff moved'.data 0 + diff)) 0⟩ } ∨
        ¬ offset ≤ eShoff moved'.data 0 ∧ ei' = moved') :
    Inserted m₂ ei'.data ei.size offset diff ∧ ei'.size = ei.size + diff ∧ ei'.Current := by
  unfold elfHeaderSize at hoffset hsame
  have hdata : ∀ x, moved'.data x =
      if offset ≤ x ∧ x < offset + diff then 0
      else if offset + diff ≤ x ∧ x < offset + diff + (ei.size - offset) then m₂ (offset + (x - (offset + diff)))
      else m₂ x := by
    intro x
    rw [hmoved]
    exact moveData_data { ei with data := m₂ } h x
  have hheader : ∀ x, x < 64 → moved'.data x = ei.data x := by
    intro x hx
    rw [hdata, if_neg (by omega), if_neg (by omega)]
    exact hsame x hx
  have hfield : ∀ (d : Nat → UInt8), (∀ x, x < 64 → d x = ei.data x) → ∀ a n, a + n ≤ 64 →
      Bytes.readLE d a n = Bytes.readLE ei.data a n :=
    fun d hd a n ha => readLE_congr fun x _ hlt => hd x (by omega)
  have hshoffMoved : eShoff moved'.data 0 = eShoff ei.data 0 := hfield _ hheader _ _ (by decide)
  have hshoffBefore : eShoff m₂ 0 = eShoff ei.data 0 := hfield _ hsame _ _ (by decide)
  have hsize : moved'.size = ei.size + diff := by
    rw [hmoved]
    change (ElfInfo.grow _ _).size + diff = _
    rw [grow_size]
  have hcurrent' : moved'.Current := by
    have hstart : Current { ei with data := m₂ } :=
      hcurrent.of_header (hfield _ hsame _ _ (by decide)) hshoffBefore ei.changed
    have hphoffGrown : ePhoff moved'.data 0 = ePhoff (ElfInfo.grow { ei with data := m₂ } (ei.size + diff)).data 0 := by
      rw [grow_data]
      exact (hfield _ hheader _ _ (by decide)).trans (hfield _ hsame _ _ (by decide)).symm
    have hshoffGrown : eShoff moved'.data 0 = eShoff (ElfInfo.grow { ei with data := m₂ } (ei.size + diff)).data 0 := by
      rw [grow_data]
      exact hshoffMoved.trans hshoffBefore.symm
    rw [hmoved] at hphoffGrown hshoffGrown ⊢
    exact (hstart.grow _).of_header hphoffGrown hshoffGrown true
  rcases hei with ⟨hafter, rfl⟩ | ⟨hbefore, rfl⟩
  · rw [hshoffMoved] at hafter
    have hfits : eShoff ei.data 0 + diff < 256 ^ 8 := by omega
    have houtside : ∀ x, Outside x 0x28 8 →
        writeLE moved'.data 0x28 8 (eShoff moved'.data 0 + diff) x = moved'.data x := fun x hx => writeLE_outside hx
    have hnew : eShoff (writeLE moved'.data 0x28 8 (eShoff moved'.data 0 + diff)) 0 = eShoff ei.data 0 + diff := by
      rw [hshoffMoved]
      exact readLE_writeLE_of_lt hfits
    refine ⟨⟨?_, ?_, ?_, ?_⟩, hsize, ⟨hcurrent'.eh, ?_, rfl⟩⟩
    · intro x hx hxshoff
      refine (houtside x hxshoff).trans ?_
      rw [hdata, if_neg (by omega), if_neg (by omega)]
    · intro x hx hlt'
      refine (houtside x (Or.inr (by omega))).trans ?_
      rw [hdata, if_pos ⟨hx, hlt'⟩]
    · intro x hx hlt'
      refine (houtside _ (Or.inr (by omega))).trans ?_
      rw [hdata, if_neg (by omega), if_pos (by omega), show offset + (x + diff - (offset + diff)) = x by omega]
    · rw [moved, hshoffBefore, if_pos hafter]
      exact hnew
    · have hphoff : ePhoff (writeLE moved'.data 0x28 8 (eShoff moved'.data 0 + diff)) 0 = ePhoff moved'.data 0 :=
        (within_writeLE moved'.data 0x28 8 _).readLE (Or.inl (by decide))
      rw [hphoff]
      exact hcurrent'.pht
  · rw [hshoffMoved] at hbefore
    refine ⟨⟨?_, ?_, ?_, ?_⟩, hsize, hcurrent'⟩
    · intro x hx _
      rw [hdata, if_neg (by omega), if_neg (by omega)]
    · intro x hx hlt'
      rw [hdata, if_pos ⟨hx, hlt'⟩]
    · intro x hx hlt'
      rw [hdata, if_neg (by omega), if_pos (by omega), show offset + (x + diff - (offset + diff)) = x by omega]
    · rw [moved, hshoffBefore, if_neg hbefore]
      exact hshoffMoved

lemma moved_add {a k : Nat} (h : offset ≤ a ∨ a + k < offset) :
    moved offset diff (a + k) = moved offset diff a + k := by
  unfold moved
  rcases h with hle | hlt
  · rw [if_pos hle, if_pos (by omega), Nat.add_right_comm]
  · rw [if_neg (by omega), if_neg (by omega)]

/-- From the two loops and the move to the file as a whole. -/
lemma shifted_of_inserted {g : File} {m : Nat → UInt8} (hvalid : f.Valid) (hapart : f.TablesApart)
    (hpht : ePhoff f.data 0 + elfProgramSize * ePhnum f.data 0 < offset) (hlt : offset < f.size)
    (hsht : eShoff f.data 0 + elfSectionSize * eShnum f.data 0 ≤ offset ∨ offset ≤ eShoff f.data 0)
    (hprograms : ∀ i, i < ePhnum f.data 0 → offset ≤ pOffset f.data (f.pht i) ∨
      (pOffset f.data (f.pht i) + pFilesz f.data (f.pht i)) % 2 ^ 64 ≤ offset)
    (hsections : ∀ i, i < eShnum f.data 0 → offset ≤ f.offset i ∨ f.type i = elfShtNull ∨ f.type i = elfShtNobits ∨
      (f.offset i + f.sectionSize i) % 2 ^ 64 ≤ offset)
    (hm : HeadersShifted f m offset diff) (hg : Inserted m g.data f.size offset diff) (hsize : g.size = f.size + diff) :
    f.Shifted g offset diff := by
  have hphoff := hapart.programs
  have hshoff := hapart.sections
  have hinside : eShoff f.data 0 + elfSectionSize * eShnum f.data 0 ≤ f.size := by
    have hle := hvalid.header.sections
    have hlt' := hvalid.header.shoff
    unfold elfSectionSize at *
    omega
  have hfits := g.size_lt
  unfold elfHeaderSize at hphoff hshoff
  have hheader : ∀ x, x < 64 → m x = f.data x := fun x hx => hm.header hapart hx
  have hfield : ∀ a n, a + n ≤ 64 → readLE m a n = readLE f.data a n :=
    fun a n ha => readLE_congr fun x _ hx => hheader x (by omega)
  have hbytes : ∀ x, x < f.size → ¬ f.FieldByte x → g.data (moved offset diff x) = f.data x := by
    intro x hx hfree
    simp only [File.FieldByte, not_or, not_not, not_exists, not_and] at hfree
    rw [← hm.kept x hfree.2.1 hfree.2.2, moved]
    by_cases hle : offset ≤ x
    · rw [if_pos hle]
      exact hg.after x hle hx
    · rw [if_neg hle]
      exact hg.before x (Nat.not_le.1 hle) hfree.1
  have hphoffSame : ePhoff g.data 0 = ePhoff f.data 0 := by
    have hkept : readLE g.data 0x20 8 = readLE m 0x20 8 := by
      apply readLE_congr
      exact fun x _ hx => hg.before x (by omega) (Or.inl hx)
    exact hkept.trans (hfield 0x20 8 (by decide))
  have hshoffMoved : eShoff g.data 0 = moved offset diff (eShoff f.data 0) := by
    rw [hg.shoff]
    exact congrArg _ (hfield 0x28 8 (by decide))
  have hpht' : ∀ i, g.pht i = f.pht i := fun i => congrArg (· + elfProgramSize * i) hphoffSame
  have hoffsets : ∀ i, i < ePhnum f.data 0 →
      pOffset g.data (g.pht i) = moved offset diff (pOffset f.data (f.pht i)) % 2 ^ 64 := by
    intro i hi
    have hkept : readLE g.data (f.pht i + 0x08) 8 = readLE m (f.pht i + 0x08) 8 := by
      apply readLE_congr
      intro x hx hx'
      unfold File.pht elfProgramSize at *
      exact hg.before x (by omega) (Or.inr (by omega))
    rw [hpht']
    exact hkept.trans (hm.programs i hi)
  have hcell : ∀ i k, i < eShnum f.data 0 → k < elfSectionSize → g.data (g.sht i + k) = m (f.sht i + k) := by
    intro i k hi hk
    have hin : elfSectionSize * i + k < elfSectionSize * eShnum f.data 0 := by
      unfold elfSectionSize at *
      omega
    have hrange := hg.range hsht hinside (Or.inr (by omega)) hin
    unfold File.sht
    rw [hshoffMoved, Nat.add_assoc, Nat.add_assoc]
    exact hrange
  have hoffset : ∀ i, i < eShnum f.data 0 → g.offset i = moved offset diff (f.offset i) % 2 ^ 64 := by
    intro i hi
    have hkept : readLE g.data (g.sht i + 0x18) 8 = readLE m (f.sht i + 0x18) 8 := by
      apply readLE_shift
      intro k hk
      rw [Nat.add_assoc, Nat.add_assoc]
      exact hcell i (0x18 + k) hi (by unfold elfSectionSize; omega)
    exact hkept.trans (hm.sections i hi)
  have hmovedBytes : ∀ a k, offset ≤ a ∨ a + k < offset → a + k < f.size → ¬ f.FieldByte (a + k) →
      g.data (moved offset diff a % 2 ^ 64 + k) = f.data (a + k) := by
    intro a k hcut hin hfree
    have hsmall : moved offset diff a < 2 ^ 64 := by
      unfold moved
      split
      · omega
      · omega
    rw [Nat.mod_eq_of_lt hsmall, ← moved_add hcut]
    exact hbytes (a + k) hin hfree
  refine ⟨hsize, hbytes, hg.gap, hshoffMoved, hoffsets, ?_, hoffset, ?_, ?_⟩
  · -- the other fields of a section header belong to no updated field
    intro i hi k hk houtside
    rw [hcell i k hi hk]
    apply hm.kept
    · intro j hj
      have htables := hapart.tables
      have haddr : f.programOffsets.addr j = ePhoff f.data 0 + elfProgramSize * j + 8 := rfl
      unfold Apart at htables
      unfold Outside File.sht elfSectionSize elfProgramSize at *
      omega
    · intro j _
      have haddr : f.sectionOffsets.addr j = eShoff f.data 0 + elfSectionSize * j + 0x18 := rfl
      unfold Outside File.sht elfSectionSize at *
      omega
  · intro i hi k hk hfree
    obtain ⟨hstart, hend⟩ := hvalid.bounds hi
    rw [hoffset i hi.lt]
    refine hmovedBytes (f.offset i) k ?_ (by omega) hfree
    rcases hsections i hi.lt with hle | hnull | hnobits | hcut
    · exact Or.inl hle
    · exact absurd hnull hi.notNull
    · exact absurd hnobits hi.notNobits
    · rw [Nat.mod_eq_of_lt (by omega)] at hcut
      exact Or.inr (by omega)
  · intro i hi hnowrap k hk hin hfree
    rw [hoffsets i hi]
    refine hmovedBytes (pOffset f.data (f.pht i)) k ?_ hin hfree
    rcases hprograms i hi with hle | hcut
    · exact Or.inl hle
    · rw [Nat.mod_eq_of_lt hnowrap] at hcut
      exact Or.inr (by omega)

/-- No header that is not moved has contents that go past the offset. -/
structure Cut (f : File) (offset : Nat) : Prop where
  inside : offset < f.size
  programs : ePhoff f.data 0 + elfProgramSize * ePhnum f.data 0 < offset
  sections : ∀ i, i < eShnum f.data 0 → offset ≤ f.offset i ∨ f.type i = elfShtNull ∨ f.type i = elfShtNobits ∨
    (f.offset i + f.sectionSize i) % 2 ^ 64 ≤ offset

lemma shiftSections_shifted (hvalid : ei.toFile.Valid) (hcurrent : ei.Current) (hapart : ei.toFile.TablesApart)
    (hsht : eShoff ei.data 0 + elfSectionSize * eShnum ei.data 0 ≤ offset ∨ offset ≤ eShoff ei.data 0)
    (hrun : ei.shiftSections offset diff = some ei') :
    Cut ei.toFile offset ∧ ei.toFile.Shifted ei'.toFile offset diff ∧ ei'.Current := by
  obtain ⟨hlt, -, hpht, m₁, m₂, hm₁, hm₂, h, moved', hmoved, hei⟩ := shiftSections_cases hvalid hcurrent hrun
  obtain ⟨h₁, hprograms⟩ := shiftPrograms_updated hapart hm₁
  obtain ⟨h₂, hsections⟩ := shiftHeaders_updated hapart h₁ hm₂
  have hheaders := headers_shifted hapart h₁ h₂
  have hoffset : elfHeaderSize ≤ offset := by
    have hphoff := hapart.programs
    omega
  obtain ⟨hinserted, hsize, hcurrent'⟩ :=
    shiftSections_inserted hoffset hlt hvalid.header.shoff hcurrent (fun x hx => hheaders.header hapart hx) hmoved hei
  exact ⟨⟨hlt, hpht, hsections⟩,
    shifted_of_inserted hvalid hapart hpht hlt hsht hprograms hsections hheaders hinserted hsize, hcurrent'⟩

/-- `shift_sections` inserts null bytes, and updates the headers so that they point to what they pointed to; its own
pointers are to the tables in the current buffer. -/
theorem shiftSections_moves (hvalid : ei.toFile.validate = .ok true) (hcurrent : ei.Current)
    (hapart : ei.toFile.TablesApart)
    (hsht : eShoff ei.data 0 + elfSectionSize * eShnum ei.data 0 ≤ offset ∨ offset ≤ eShoff ei.data 0)
    (hrun : ei.shiftSections offset diff = some ei') :
    ei.toFile.Shifted ei'.toFile offset diff ∧ ei'.Current :=
  (shiftSections_shifted (ei.toFile.validate_true.1 hvalid) hcurrent hapart hsht hrun).2

/-- An image with a table of section names at 120, a section of 8 bytes at 128 and the section headers behind it. Its
program headers are at `phoff`; the header at 64 has the given offset and size. -/
def segmentFile (phoff offset filesz : Nat) : File where
  data :=
    [(0, 4, elfMagic), (0x20, 8, phoff), (0x28, 8, 136), (0x36, 2, elfProgramSize), (0x38, 2, 1),
      (0x3A, 2, elfSectionSize), (0x3C, 2, 3), (0x3E, 2, 1), (64 + 0x08, 8, offset), (64 + 0x20, 8, filesz),
      (128, 8, 0x1111111111111111), (200 + 0x04, 4, elfShtStrtab), (200 + 0x18, 8, 120), (200 + 0x20, 8, 8),
      (264 + 0x04, 4, elfShtProgbits), (264 + 0x18, 8, 128), (264 + 0x20, 8, 8)].foldl
        (fun m w => writeLE m w.1 w.2.1 w.2.2) fun _ => 0
  size := 328
  size_lt := by decide

lemma segmentFile_free : ¬ (segmentFile 64 128 8).FieldByte 128 := by
  have hphoff : ePhoff (segmentFile 64 128 8).data 0 = 64 := by decide +kernel
  have hshoff : eShoff (segmentFile 64 128 8).data 0 = 136 := by decide +kernel
  have hphnum : ePhnum (segmentFile 64 128 8).data 0 = 1 := by decide +kernel
  rintro (hfield | ⟨i, hi, hfield⟩ | ⟨i, -, hfield⟩)
  · exact hfield (Or.inr (by decide))
  · rw [hphnum] at hi
    have haddr : (segmentFile 64 128 8).programOffsets.addr i = 64 + elfProgramSize * i + 8 :=
      congrArg (· + elfProgramSize * i + 8) hphoff
    rw [haddr, Nat.lt_one_iff.1 hi] at hfield
    exact hfield (Or.inr (by decide))
  · have haddr : (segmentFile 64 128 8).sectionOffsets.addr i = 136 + elfSectionSize * i + 0x18 :=
      congrArg (· + elfSectionSize * i + 0x18) hshoff
    rw [haddr] at hfield
    exact hfield (Or.inl (by omega))

/-- A segment of the 8 bytes at 128 moves with them, to a new buffer. -/
theorem shiftSections_moves_sample : ∃ ei', (ofFile (segmentFile 64 128 8) 0).shiftSections 128 8 = some ei' ∧
    pOffset ei'.data (ei'.toFile.pht 0) = 136 ∧ ei'.data 136 = 0x11 ∧ ei'.sht = ⟨ei'.buffer, 144⟩ := by
  have hsome : ((ofFile (segmentFile 64 128 8) 0).shiftSections 128 8).isSome = true := by decide +kernel
  obtain ⟨ei', hrun⟩ := Option.isSome_iff_exists.1 hsome
  obtain ⟨hshifted, hcurrent⟩ := shiftSections_moves (by decide +kernel) (current_ofFile _ 0)
    ⟨by decide +kernel, by decide +kernel, Or.inl (by decide +kernel)⟩ (Or.inr (by decide +kernel)) hrun
  have hshoff : eShoff ei'.data 0 = 144 := hshifted.shoff.trans (by decide +kernel)
  refine ⟨ei', hrun, (hshifted.programs 0 (by decide +kernel)).trans (by decide +kernel), ?_, ?_⟩
  · exact (hshifted.bytes 128 (by decide +kernel) segmentFile_free).trans (by decide +kernel)
  · rw [hcurrent.sht, hshoff]

/-- The section header table is found, and all sections and segments have exactly the bytes that they had. -/
structure ShiftedExactly (f g : File) : Prop where
  headers : ∀ i, i < eShnum f.data 0 → g.type i = f.type i
  contents : ∀ i, f.Stored i → ∀ k, k < f.sectionSize i → g.data (g.offset i + k) = f.data (f.offset i + k)
  segments : ∀ i, i < ePhnum f.data 0 → ∀ k, k < pFilesz f.data (f.pht i) →
    g.data (pOffset g.data (g.pht i) + k) = f.data (pOffset f.data (f.pht i) + k)

/-- A valid image whose section header table is behind the offset 128 and apart from the sections, but which
`shift_sections` does not keep exactly. -/
structure ShiftMisses (f : File) : Prop where
  valid : f.validate = .ok true
  table : 128 ≤ eShoff f.data 0
  apart : ∀ i, f.Stored i → Apart (eShoff f.data 0) (elfSectionSize * eShnum f.data 0) (f.offset i) (f.sectionSize i)
  misses : ∃ ei', (ofFile f 0).shiftSections 128 8 = some ei' ∧ ¬ ShiftedExactly f ei'.toFile

lemma sections_apart (f : File) (hshnum : eShnum f.data 0 = 3) (hnull : f.type 0 = elfShtNull)
    (h₁ : f.offset 1 + f.sectionSize 1 ≤ eShoff f.data 0) (h₂ : f.offset 2 + f.sectionSize 2 ≤ eShoff f.data 0) :
    ∀ i, f.Stored i → Apart (eShoff f.data 0) (elfSectionSize * eShnum f.data 0) (f.offset i) (f.sectionSize i) := by
  intro i hi
  have hlt := hshnum ▸ hi.lt
  obtain rfl | rfl | rfl : i = 0 ∨ i = 1 ∨ i = 2 := by omega
  · exact absurd hnull hi.notNull
  · exact Or.inr h₁
  · exact Or.inr h₂

/-- A segment that contains the ELF header, a segment whose end wraps around and is not seen to span the offset, and
a program header table that overlaps the ELF header. -/
theorem shiftSections_misses :
    ShiftMisses (segmentFile 64 0 64) ∧ ShiftMisses (segmentFile 64 100 (2 ^ 64 - 50)) ∧ ShiftMisses (segmentFile 32 0 0) := by
  have hread : ∀ f, ∀ r : ElfInfo → Nat, ∀ v, ((ofFile f 0).shiftSections 128 8).map r = some v →
      ∃ ei', (ofFile f 0).shiftSections 128 8 = some ei' ∧ r ei' = v := by
    intro f r v h
    obtain ⟨ei', hrun, hr⟩ := Option.map_eq_some_iff.1 h
    exact ⟨ei', hrun, hr⟩
  refine ⟨⟨by decide +kernel, by decide +kernel, ?_, ?_⟩, ⟨by decide +kernel, by decide +kernel, ?_, ?_⟩,
    ⟨by decide +kernel, by decide +kernel, ?_, ?_⟩⟩
  · exact sections_apart _ (by decide +kernel) (by decide +kernel) (by decide +kernel) (by decide +kernel)
  · -- the segment sees the new `e_shoff`
    obtain ⟨ei', hrun, hbyte⟩ := hread (segmentFile 64 0 64)
      (fun ei => (ei.data (pOffset ei.data (ei.toFile.pht 0) + 0x28)).toNat) 144 (by decide +kernel)
    refine ⟨ei', hrun, fun hexact => ?_⟩
    rw [hexact.segments 0 (by decide +kernel) 0x28 (by decide +kernel)] at hbyte
    revert hbyte
    decide +kernel
  · exact sections_apart _ (by decide +kernel) (by decide +kernel) (by decide +kernel) (by decide +kernel)
  · -- the byte at 130 of the segment is now one of the inserted ones
    obtain ⟨ei', hrun, hbyte⟩ := hread (segmentFile 64 100 (2 ^ 64 - 50))
      (fun ei => (ei.data (pOffset ei.data (ei.toFile.pht 0) + 30)).toNat) 0 (by decide +kernel)
    refine ⟨ei', hrun, fun hexact => ?_⟩
    rw [hexact.segments 0 (by decide +kernel) 30 (by decide +kernel)] at hbyte
    revert hbyte
    decide +kernel
  · exact sections_apart _ (by decide +kernel) (by decide +kernel) (by decide +kernel) (by decide +kernel)
  · -- `p_offset` is `e_shoff`, and both updates are made
    obtain ⟨ei', hrun, htype⟩ := hread (segmentFile 32 0 0) (fun ei => ei.toFile.type 1) 0 (by decide +kernel)
    refine ⟨ei', hrun, fun hexact => ?_⟩
    rw [hexact.headers 1 (by decide +kernel)] at htype
    revert htype
    decide +kernel

end ElfInfo

end Cs300Projects.WeensyOS.Elf
