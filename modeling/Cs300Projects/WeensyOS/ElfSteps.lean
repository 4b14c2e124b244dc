import Cs300Projects.WeensyOS.ElfFill
import Cs300Projects.WeensyOS.ElfPrograms

/-!
# The steps of `main` after the references

Sorting the table, marking it as allocated and adding a program header, on a laid out image: each of them changes what it
is for, and nothing else.
-/

namespace Cs300Projects.WeensyOS.Elf

open Bytes Loop Symtab

/-! ### Writing a program header -/

section writeProgram

variable {m : Nat → UInt8} {ph off va filesz : Nat}

lemma within_writeProgram (m : Nat → UInt8) (ph off va filesz : Nat) :
    Within m (writeProgram m ph off va filesz) ph elfProgramSize := by
  have hfield : ∀ m o n v, o + n ≤ elfProgramSize → Within m (writeLE m (ph + o) n v) ph elfProgramSize :=
    fun m o n v ho => (within_writeLE m (ph + o) n v).mono (Nat.le_add_right ph o) (by omega)
  unfold writeProgram
  exact ((((((((hfield _ 0 4 _ (by decide)).trans (hfield _ 0x04 4 _ (by decide))).trans (hfield _ 0x08 8 _ (by decide))).trans
    (hfield _ 0x18 8 _ (by decide))).trans (hfield _ 0x10 8 _ (by decide))).trans (hfield _ 0x20 8 _ (by decide))).trans
    (hfield _ 0x28 8 _ (by decide))).trans (hfield _ 0x30 8 _ (by decide)))

lemma pType_writeProgram : pType (writeProgram m ph off va filesz) ph = elfPtypeLoad := by
  unfold pType writeProgram
  rw [(within_writeLE _ _ 8 _).readLE (Or.inl (by omega)), (within_writeLE _ _ 8 _).readLE (Or.inl (by omega)),
    (within_writeLE _ _ 8 _).readLE (Or.inl (by omega)), (within_writeLE _ _ 8 _).readLE (Or.inl (by omega)),
    (within_writeLE _ _ 8 _).readLE (Or.inl (by omega)), (within_writeLE _ _ 8 _).readLE (Or.inl (by omega)),
    (within_writeLE _ _ 4 _).readLE (Or.inl (by omega))]
  exact readLE_writeLE_of_lt (by decide)

lemma pOffset_writeProgram (h : off < 2 ^ 64) : pOffset (writeProgram m ph off va filesz) ph = off := by
  unfold pOffset writeProgram
  rw [(within_writeLE _ _ 8 _).readLE (Or.inl (by omega)), (within_writeLE _ _ 8 _).readLE (Or.inl (by omega)),
    (within_writeLE _ _ 8 _).readLE (Or.inl (by omega)), (within_writeLE _ _ 8 _).readLE (Or.inl (by omega)),
    (within_writeLE _ _ 8 _).readLE (Or.inl (by omega))]
  exact readLE_writeLE_of_lt h

lemma pVa_writeProgram (h : va < 2 ^ 64) : pVa (writeProgram m ph off va filesz) ph = va := by
  unfold pVa writeProgram
  rw [(within_writeLE _ _ 8 _).readLE (Or.inl (by omega)), (within_writeLE _ _ 8 _).readLE (Or.inl (by omega)),
    (within_writeLE _ _ 8 _).readLE (Or.inl (by omega))]
  exact readLE_writeLE_of_lt h

lemma pFilesz_writeProgram (h : filesz < 2 ^ 64) : pFilesz (writeProgram m ph off va filesz) ph = filesz := by
  unfold pFilesz writeProgram
  rw [(within_writeLE _ _ 8 _).readLE (Or.inl (by omega)), (within_writeLE _ _ 8 _).readLE (Or.inl (by omega))]
  exact readLE_writeLE_of_lt h

end writeProgram

lemma foldl_min_le (g : Nat → Nat) (is : List Nat) (a : Nat) :
    is.foldl (fun o i => min o (g i)) a ≤ a ∧ ∀ i, i ∈ is → is.foldl (fun o i => min o (g i)) a ≤ g i := by
  induction is generalizing a with
  | nil => exact ⟨Nat.le_refl a, fun _ hi => absurd hi (List.not_mem_nil)⟩
  | cons j is ih =>
    obtain ⟨hstart, hrest⟩ := ih (min a (g j))
    refine ⟨Nat.le_trans hstart (Nat.min_le_left _ _), fun i hi => ?_⟩
    rcases List.mem_cons.1 hi with rfl | hi
    · exact Nat.le_trans hstart (Nat.min_le_right _ _)
    · exact hrest i hi

namespace ElfInfo

variable {e ei : ElfInfo} {k i j l off size : Nat} {J : Nat → Prop}

/-! ### The steps of `main` -/

lemma Indexed.inPlace (he : Indexed e k) (hin : File.InPlace J e.toFile ei.toFile) (hsame : SamePointers e ei)
    (hvalid : ei.toFile.Valid) (hphnum : ePhnum ei.data 0 = ePhnum e.data 0) (hJ : ¬ J e.toFile.shstrndx) :
    Indexed ei k := by
  have hpht : ei.pht.offset = e.pht.offset := by rw [hsame.pht]
  have hsht : ei.sht.offset = e.sht.offset := by rw [hsame.sht]
  exact ⟨he.toReady.inPlace hin hvalid hphnum hpht hsht hJ, he.table.inPlace he.symtabAt hin hsame⟩

lemma Ready.indexed (h : Ready ei k) (hfresh : ei.symtab = none ∧ ei.nsymtab = 0) :
    ei.Opened ∧ Indexed ei.loadSymtab k := by
  have hopen : ei.Opened := ⟨h.valid, h.sht, Or.inl hfresh⟩
  obtain ⟨-, hloaded⟩ := hopen.lookupSymtab
  have hfile := hloaded.sameFile
  have hpht : ei.loadSymtab.pht = ei.pht := by
    unfold loadSymtab
    split
    · rfl
    · simp only
      split
      · rfl
      · rfl
  have hsection : ei.toFile.SymtabSection k := symtabSection_iff.2 ⟨h.found.symm, h.symtabAt.pos, h.symtabAt.type⟩
  refine ⟨hopen, ⟨hfile ▸ h.valid, hfile ▸ h.layout, ?_, hloaded.sht, hfile ▸ h.found, hfile ▸ h.symtabAt⟩,
    hloaded.found k (hfile ▸ hsection)⟩
  rw [hpht, hfile]
  exact h.pht

lemma Indexed.sectionNames (he : Indexed e k) :
    e.toFile.shstrndx ≠ k ∧ e.toFile.type e.toFile.shstrndx ≠ elfShtProgbits := by
  have htype := he.valid.names.type
  constructor
  · intro heq
    rw [heq, he.symtabAt.type] at htype
    exact absurd htype (by decide)
  · rw [htype]
    decide

lemma Kept.indexed (h : Kept e ei) (he : Indexed e k) : Indexed ei k := by
  have hin := h.inPlace he
  have hvalid : ei.toFile.Valid := by
    refine hin.valid he.valid ?_ ?_
    · intro i htype hprogbits
      exact absurd (htype.symm.trans hprogbits) (by decide)
    · intro i _ hprogbits htype
      exact absurd (htype.symm.trans hprogbits) (by decide)
  exact he.inPlace hin h.same hvalid (h.frame.phnum_contents he.layout) he.sectionNames.2

/-! ### Sorting -/

lemma TableAt.symbols (h : e.TableAt k) : e.symbols = e.toFile.symbols k := by
  have hcount : e.nsymtab = e.toFile.symbolCount k := h.nsymtab
  unfold ElfInfo.symbols File.symbols
  rw [hcount]
  exact List.map_congr_left fun j _ => h.symbol j

/-- The table is sorted, and nothing else of the file changes. -/
structure Sorted (e : ElfInfo) (k : Nat) (ei : ElfInfo) : Prop where
  same : SamePointers e ei
  inPlace : File.InPlace (· = k) e.toFile ei.toFile
  indexed : Indexed ei k
  table : File.SameTable e.toFile ei.toFile
  symbols : ei.toFile.symbols k = Symtab.sortSymtab (e.toFile.symbols k)

lemma sortSymtab_loaded (h : e.symtab.isSome) : e.sortSymtab = if inOrder e.symbols.tail then e else
    { e with data := writeSymbols e.data (e.symbol 0) (Symtab.sortSymtab e.symbols), changed := true } := by
  simp only [sortSymtab, loadSymtab_of_isSome h]

lemma Indexed.sorted (he : Indexed e k) : Sorted e k e.sortSymtab := by
  have hsome : e.symtab.isSome := by
    rw [he.table.symtab]
    rfl
  have hload : e.loadSymtab = e := loadSymtab_of_isSome hsome
  have hsame : SamePointers e e.sortSymtab := by
    rw [sortSymtab_loaded hsome]
    split
    · exact .refl e
    · exact (SamePointers.refl e).write _ _
  have hwithin : Within e.data e.sortSymtab.data (e.toFile.offset k) (elfSymbolSize * e.toFile.symbolCount k) := by
    rw [sortSymtab_loaded hsome]
    split
    · exact fun _ _ => rfl
    · have hwrite := within_writeSymbols e.data (e.symbol 0) (Symtab.sortSymtab e.symbols)
      have hcount : e.nsymtab = e.toFile.symbolCount k := he.table.nsymtab
      have hstart : e.symbol 0 = e.toFile.offset k := by
        unfold ElfInfo.symbol
        rw [he.table.symtab, Option.getD_some, Nat.mul_zero, Nat.add_zero]
      rw [(sortSymtab_sorted e.symbols).length, symbols_length, hcount, hstart] at hwrite
      rw [hstart]
      exact hwrite
  have hframe : File.Frame (e.toFile.Contents (· = k)) e.toFile e.sortSymtab.toFile := by
    constructor
    · exact hsame.size
    · intro y hy
      apply hwithin
      by_contra hin
      have hsize := e.toFile.symbolCount_le k
      unfold Outside at hin
      exact hy ⟨k, he.symtabAt.stored, rfl, by omega, by omega⟩
  have hmutable : ∀ j, j = k → e.toFile.Mutable j := by
    rintro j rfl
    exact Or.inl he.symtabAt.type
  have hin := hframe.inPlace_contents he.valid he.layout hmutable
  have htable := he.table.inPlace he.symtabAt hin hsame
  have hsymbols : e.sortSymtab.toFile.symbols k = Symtab.sortSymtab (e.toFile.symbols k) := by
    rw [← htable.symbols, symbols_sortSymtab, hload, he.table.symbols]
  have hvalid : e.sortSymtab.toFile.Valid := by
    refine hin.valid he.valid ?_ ?_
    · rintro i htype rfl
      exact absurd (htype.symm.trans he.symtabAt.type) (by decide)
    · rintro i hstored rfl htype j hj
      by_cases hcount : j < e.toFile.symbolCount i
      · have hmem : e.sortSymtab.toFile.symbol i j ∈ e.sortSymtab.toFile.symbols i := by
          refine File.mem_symbols.2 ⟨j, ?_, rfl⟩
          rw [hin.symbolCount he.symtabAt]
          exact hcount
        rw [hsymbols, (sortSymtab_perm _).mem_iff] at hmem
        have hlt := he.valid.stName_lt he.symtabAt hmem
        rwa [File.symbol_stName] at hlt
      · have hname := ((he.valid.good i hstored.lt).content.symtab htype).2.2 j hj
        have hkept : stName e.sortSymtab.data (e.sortSymtab.toFile.offset i + elfSymbolSize * j) =
            stName e.data (e.toFile.offset i + elfSymbolSize * j) := by
          rw [hin.offset i hstored.lt]
          apply hwithin.readLE
          refine Or.inr ?_
          unfold elfSymbolSize at *
          omega
        rw [hkept]
        exact hname
  exact ⟨hsame, hin, he.inPlace hin hsame hvalid (hframe.phnum_contents he.layout) he.sectionNames.1,
    .of_contents he.valid he.layout hmutable hframe, hsymbols⟩

/-! ### Marking -/

/-- The section `i` is marked as allocated, and nothing else of the file changes but its address. -/
structure Marked (e : ElfInfo) (k i : Nat) (ei : ElfInfo) : Prop where
  same : SamePointers e ei
  inPlace : File.InPlace (fun _ => False) e.toFile ei.toFile
  indexed : Indexed ei k
  table : File.SameTable e.toFile ei.toFile
  flags : ei.toFile.flags i &&& elfShfAlloc ≠ 0
  others : ∀ j, j < eShnum e.data 0 → j ≠ i → ei.toFile.flags j = e.toFile.flags j

lemma or_alloc_and_ne_zero (n : Nat) : (n ||| elfShfAlloc) &&& elfShfAlloc ≠ 0 := by
  rw [Nat.and_or_distrib_right, Nat.and_self]
  intro hzero
  have hright := (Nat.or_eq_zero_iff.1 hzero).2
  exact absurd hright (by decide)

lemma Indexed.refl_inPlace (he : Indexed e k) : File.InPlace (fun _ => False) e.toFile e.toFile :=
  File.Frame.inPlace_contents he.valid he.layout (fun _ => False.elim) ⟨rfl, fun _ _ => rfl⟩

lemma Indexed.marked (he : Indexed e k) (hi : i < eShnum e.data 0) (htype : e.toFile.type i ≠ elfShtProgbits) (addr : Nat) :
    Marked e k i (e.markAllocated i addr) := by
  have hshdr := he.toReady.shdr i
  unfold markAllocated
  simp only
  split
  · rename_i hclear
    set data := writeLE (writeLE e.data (e.shdr i + 0x08) 8 (shFlags e.data (e.shdr i) ||| elfShfAlloc))
      (e.shdr i + 0x10) 8 addr with hdata
    have hwithin : Within e.data data (e.toFile.sht i + 0x08) 0x10 := by
      rw [hdata, hshdr]
      exact ((within_writeLE e.data _ 8 _).mono (by omega) (by omega)).trans
        ((within_writeLE _ _ 8 addr).mono (by omega) (by omega))
    have hframe : File.Frame (e.toFile.MetaBytes i) e.toFile ({ e with data := data, changed := true } : ElfInfo).toFile := by
      refine ⟨rfl, fun x hx => hwithin x ?_⟩
      by_contra hin
      unfold Outside at hin
      refine hx ⟨x - e.toFile.sht i, ?_, Or.inl ⟨?_, ?_⟩, ?_⟩
      · unfold elfSectionSize
        omega
      · omega
      · omega
      · omega
    have hsht : ∀ j, e.toFile.sht j = eShoff e.data 0 + elfSectionSize * j := fun j => rfl
    have hin := hframe.inPlace_meta he.valid he.layout hi htype
    have hkept : ∀ j, ({ e with data := data, changed := true } : ElfInfo).toFile.sht j = e.toFile.sht j := by
      intro j
      unfold File.sht
      rw [hin.shoff]
    have hphnum := hframe.phnum_meta he.layout
    have hvalid : ({ e with data := data, changed := true } : ElfInfo).toFile.Valid :=
      hin.valid he.valid (fun _ _ => id) fun _ _ hfalse => hfalse.elim
    have hsame : SamePointers e { e with data := data, changed := true } := (SamePointers.refl e).write data true
    refine ⟨hsame, hin, he.inPlace hin hsame hvalid hphnum id,
      .of_meta he.valid he.layout hi hframe htype, ?_, ?_⟩
    · have hflags : shFlags data (e.toFile.sht i) = shFlags e.data (e.shdr i) ||| elfShfAlloc := by
        have hlt : shFlags e.data (e.shdr i) ||| elfShfAlloc < 256 ^ 8 :=
          Nat.or_lt_two_pow (n := 64) (readLE_lt e.data _ 8) (by decide)
        unfold shFlags
        rw [hdata, hshdr, (within_writeLE _ _ 8 addr).readLE (Or.inl (by omega))]
        rw [hshdr] at hlt
        exact readLE_writeLE_of_lt hlt
      unfold File.flags
      rw [hkept, hflags]
      exact or_alloc_and_ne_zero _
    · intro j hj hji
      unfold File.flags
      rw [hkept]
      apply hwithin.readLE
      rw [hsht, hsht]
      unfold Apart elfSectionSize
      omega
  · rename_i hset
    refine ⟨.refl e, he.refl_inPlace, he, ⟨rfl, fun _ _ _ _ => rfl⟩, ?_, fun _ _ _ => rfl⟩
    unfold File.flags
    rw [← hshdr]
    exact hset

lemma markAllocated_of_flags (hsht : e.shdr i = e.toFile.sht i) (hflags : e.toFile.flags i &&& elfShfAlloc ≠ 0) (addr : Nat) :
    e.markAllocated i addr = e := by
  unfold markAllocated
  rw [hsht]
  exact if_neg hflags

/-! ### A new program header -/

lemma firstOffset_le (hsht : e.sht.offset = eShoff e.data 0) (hi : e.toFile.Stored i) :
    e.firstOffset ≤ e.toFile.offset i := by
  unfold firstOffset
  simp only [shdr_eq hsht]
  refine (foldl_min_le _ _ _).2 i (List.mem_filter.2 ⟨List.mem_range.2 hi.lt, ?_⟩)
  exact decide_eq_true ⟨hi.notNull, hi.notNobits⟩

lemma program_eq (hpht : e.pht.offset = ePhoff e.data 0) (i : Nat) : e.program i = e.toFile.pht i := by
  unfold ElfInfo.program File.pht
  rw [hpht]

/-- A header is found, or there is no room for another one, or one is inserted. -/
lemma addProgram_cases (hpht : e.pht.offset = ePhoff e.data 0) :
    (e.toFile.HasProgram l off size → e.addProgram l off size = some e) ∧
    (¬ e.toFile.HasProgram l off size → e.addProgram l off size = none ∨
      ((ePhoff e.data 0 + (ePhnum e.data 0 + 1) * elfProgramSize) % 2 ^ 64 ≤ e.firstOffset ∧
        e.firstOffset < eShoff e.data 0 ∧
        e.addProgram l off size = some (e.insertProgram (e.toFile.findProgram l) off l size))) := by
  have hfind : e.findProgram l = e.toFile.findProgram l := by
    unfold findProgram File.findProgram File.endsFrom
    simp only [program_eq hpht]
    rfl
  have hprogram : e.program (e.toFile.findProgram l) = e.toFile.pht (e.toFile.findProgram l) := program_eq hpht _
  have hle : e.toFile.findProgram l ≤ e.phnum := e.toFile.findProgram_le
  unfold addProgram
  rw [hfind]
  simp only
  rw [hprogram]
  constructor
  · intro hfound
    exact if_pos ⟨Nat.ne_of_lt hfound.lt, hfound.va, hfound.offset, hfound.filesz⟩
  · intro hnot
    rw [if_neg fun h => hnot ⟨Nat.lt_of_le_of_ne hle h.1, h.2.1, h.2.2.1, h.2.2.2⟩]
    split
    · exact Or.inl rfl
    · rename_i hroom
      simp only [not_or, Nat.not_lt, Nat.not_le] at hroom
      exact Or.inr ⟨hroom.1, hroom.2, rfl⟩

lemma insertProgram_phnum (hpht : e.pht.offset = ePhoff e.data 0) (hheader : elfHeaderSize ≤ ePhoff e.data 0) :
    ePhnum (e.insertProgram i off l size).data 0 = (ePhnum e.data 0 + 1) % 2 ^ 16 := by
  have hph : e.program i = ePhoff e.data 0 + elfProgramSize * i := program_eq hpht i
  have hbehind : 0x38 + 2 ≤ e.program i := by
    unfold elfHeaderSize at hheader
    omega
  have hold : ePhnum (blit e.data (e.program i + elfProgramSize) ((e.phnum - i) * elfProgramSize)
      fun k => e.data (e.program i + k)) 0 = ePhnum e.data 0 := (within_blit _ _ _ _).readLE (Or.inl (by omega))
  rw [← hold]
  exact ((within_writeProgram _ _ off l size).readLE (Or.inl hbehind)).trans (readLE_writeLE _ 0x38 2 _)

/-- A program header is inserted, and nothing else of the file changes. -/
structure HeaderInserted (e : ElfInfo) (i l off size : Nat) (ei : ElfInfo) : Prop where
  same : SamePointers e ei
  inPlace : File.InPlace (fun _ => False) e.toFile ei.toFile
  layout : ei.toFile.Layout
  program : File.ProgramInserted e.toFile ei.toFile i l off size
  flags : ∀ j, j < eShnum e.data 0 → ei.toFile.flags j = e.toFile.flags j

lemma Indexed.headerInserted (he : Indexed e k) (hi : i ≤ ePhnum e.data 0) (hphnum : ePhnum e.data 0 + 1 < 2 ^ 16)
    (hroom : ePhoff e.data 0 + elfProgramSize * (ePhnum e.data 0 + 1) ≤ e.firstOffset)
    (hafter : e.firstOffset < eShoff e.data 0) (hl : l < 2 ^ 64) (hoff : off < 2 ^ 64) (hsize : size < 2 ^ 64) :
    HeaderInserted e i l off size (e.insertProgram i off l size) := by
  have hlayout := he.layout
  have hprograms := hlayout.programs
  have hph : e.program i = ePhoff e.data 0 + elfProgramSize * i := program_eq he.pht i
  have hcontents : ∀ j, e.toFile.Stored j →
      ePhoff e.data 0 + elfProgramSize * (ePhnum e.data 0 + 1) ≤ e.toFile.offset j :=
    fun j hj => Nat.le_trans hroom (firstOffset_le he.sht hj)
  -- the memory after each of the three writes
  set ph := e.program i with hphdef
  set m₁ := blit e.data (ph + elfProgramSize) ((e.phnum - i) * elfProgramSize) (fun k => e.data (ph + k)) with hm₁
  set m₂ := writeLE m₁ 0x38 2 (ePhnum m₁ 0 + 1) with hm₂
  have hdata : (e.insertProgram i off l size).data = writeProgram m₂ ph off l size := rfl
  have hcount : (e.phnum - i) * elfProgramSize = elfProgramSize * (ePhnum e.data 0 - i) := Nat.mul_comm _ _
  have hmoved : Within e.data m₁ (ph + elfProgramSize) (elfProgramSize * (ePhnum e.data 0 - i)) := by
    rw [hm₁, hcount]
    exact within_blit _ _ _ _
  have hnumber : Within m₁ m₂ 0x38 2 := within_writeLE _ _ _ _
  have hwritten := within_writeProgram m₂ ph off l size
  unfold elfHeaderSize elfProgramSize at *
  have hkept : ∀ x, ¬ (0x38 ≤ x ∧ x < 0x3A) →
      ¬ (ePhoff e.data 0 ≤ x ∧ x < ePhoff e.data 0 + 56 * (ePhnum e.data 0 + 1)) →
        (e.insertProgram i off l size).data x = e.data x := by
    intro x hx hx'
    rw [hdata, hwritten x (by unfold Outside; omega), hnumber x (by unfold Outside; omega), hmoved x (by unfold Outside; omega)]
  have hframe : File.Frame (fun x => (0x38 ≤ x ∧ x < 0x3A) ∨
      (ePhoff e.data 0 ≤ x ∧ x < ePhoff e.data 0 + 56 * (ePhnum e.data 0 + 1))) e.toFile
        (e.insertProgram i off l size).toFile :=
    ⟨rfl, fun x hx => hkept x (fun h => hx (Or.inl h)) (fun h => hx (Or.inr h))⟩
  have hnew : ePhnum (e.insertProgram i off l size).data 0 = ePhnum e.data 0 + 1 := by
    rw [insertProgram_phnum he.pht hlayout.programs, Nat.mod_eq_of_lt hphnum]
  have hin : File.InPlace (fun _ => False) e.toFile (e.insertProgram i off l size).toFile := by
    have hshoff := he.valid.header.shoff
    apply hframe.inPlace he.valid
    · intro x hx hne
      unfold elfHeaderSize at hx
      omega
    · rw [hnew]
      exact Nat.succ_ne_zero _
    · rw [hnew]
      unfold elfProgramSize
      omega
    · intro j _ o _ _
      unfold File.sht
      omega
    · intro j hj _ x hx _
      have hle := hcontents j hj
      omega
  have hpht : ∀ j, (e.insertProgram i off l size).toFile.pht j = ePhoff e.data 0 + 56 * j := by
    intro j
    unfold File.pht
    rw [hin.phoff]
    rfl
  have hpht' : ∀ j, e.toFile.pht j = ePhoff e.data 0 + 56 * j := fun _ => rfl
  refine ⟨(SamePointers.refl e).write _ true, hin, ?_, ⟨hnew, ?_, ?_, ?_, ?_, ?_, ?_⟩, ?_⟩
  · apply hin.layout_of hlayout
    · rw [hnew]
      unfold Apart elfProgramSize
      omega
    · intro j hj
      have hle := hcontents j hj
      rw [hnew]
      unfold Apart elfProgramSize
      omega
  · intro j hj x hx
    unfold elfProgramSize at hx
    rw [hpht, hpht', hdata, hwritten _ (by unfold Outside; omega), hnumber _ (by unfold Outside; omega),
      hmoved _ (by unfold Outside; omega)]
  · intro j hij hj x hx
    unfold elfProgramSize at hx
    have hsource : ph + (ePhoff e.data 0 + 56 * (j + 1) + x - (ph + 56)) = ePhoff e.data 0 + 56 * j + x := by omega
    rw [hpht, hpht', hdata, hwritten _ (by unfold Outside; omega), hnumber _ (by unfold Outside; omega), hm₁,
      blit_inside (by omega) (by rw [hcount]; omega), hsource]
  · rw [hpht, ← hph]
    exact pType_writeProgram
  · rw [hpht, ← hph]
    exact pVa_writeProgram hl
  · rw [hpht, ← hph]
    exact pOffset_writeProgram hoff
  · rw [hpht, ← hph]
    exact pFilesz_writeProgram hsize
  · intro j hj
    have hsht : (e.insertProgram i off l size).toFile.sht j = e.toFile.sht j := by
      unfold File.sht
      rw [hin.shoff]
    unfold File.flags
    rw [hsht]
    apply readLE_congr
    intro x hx _
    unfold File.sht at hx
    exact hkept x (by omega) (by omega)

end ElfInfo

end Cs300Projects.WeensyOS.Elf
