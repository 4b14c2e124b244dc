import Cs300Projects.WeensyOS.ElfEmbed

/-!
# Running `mkchickadeesymtab` twice

A run on the output of a run changes nothing, if it finds the program header that the first run has found or added. It
does not find one whose end wraps around to an address before its start.
-/

namespace Cs300Projects.WeensyOS.Elf

open Bytes Loop Symtab

namespace File

variable {f g : File} {i k l size : Nat}

/-- The size of the range from the symbols to the end of their names, when the symbols have been moved. -/
def alignedSize (f : File) (k : Nat) : Nat :=
  sub64 ((moved (f.offset k) (f.padding k) (f.offset (k + 1)) + f.sectionSize (k + 1)) % 2 ^ 64) (f.offset k + f.padding k)

end File

namespace ElfInfo

variable {a e ei : ElfInfo} {f : File} {i k l size : Nat} {o : Options} {capacity : Nat}

/-! ### The aligned image -/

lemma Aligned.offset_symtab (h : Aligned f k a) (hk : f.SymtabAt k) : a.toFile.offset k = f.offset k + f.padding k := by
  rw [h.offset k hk.stored]
  exact if_pos (Nat.le_refl _)

lemma Aligned.page (h : Aligned f k a) (hk : f.SymtabAt k) : a.toFile.offset k % 0x1000 = 0 := by
  rw [h.offset_symtab hk]
  unfold File.padding
  omega

lemma Aligned.tableSize (h : Aligned f k a) (hk : f.SymtabAt k) : a.toFile.tableSize k = f.alignedSize k := by
  have hstrtab : f.Stored (k + 1) := File.stored_of_type hk.lt hk.strtab (by decide) (by decide)
  unfold File.tableSize File.alignedSize
  rw [h.offset_symtab hk, h.offset (k + 1) hstrtab, h.carries.sectionSize (k + 1) hk.lt]

lemma Aligned.type (h : Aligned f k a) (hi : i < ePhnum f.data 0) : pType a.data (a.toFile.pht i) = pType f.data (f.pht i) := by
  have htype := h.programField i hi 0 4 (by decide) (Or.inl (by decide))
  rwa [Nat.add_zero, Nat.add_zero] at htype

lemma Aligned.va (h : Aligned f k a) (hi : i < ePhnum f.data 0) : pVa a.data (a.toFile.pht i) = pVa f.data (f.pht i) :=
  h.programField i hi 0x10 8 (by decide) (Or.inr (by decide))

lemma Aligned.filesz (h : Aligned f k a) (hi : i < ePhnum f.data 0) :
    pFilesz a.data (a.toFile.pht i) = pFilesz f.data (f.pht i) :=
  h.programField i hi 0x20 8 (by decide) (Or.inr (by decide))

lemma Aligned.findProgram (h : Aligned f k a) (l : Nat) : a.toFile.findProgram l = f.findProgram l := by
  unfold File.findProgram
  rw [h.phnum]
  apply seek_congr
  intro i _ hi
  unfold File.endsFrom
  rw [h.va (by omega), h.filesz (by omega)]

/-- The header that is found in the aligned image was found before. -/
lemma Aligned.hasProgram_iff (h : Aligned f k a) (hk : f.SymtabAt k) :
    a.toFile.HasProgram l (a.toFile.offset k) size ↔ f.HasProgram l (f.offset k) size := by
  have hbound : f.offset k + f.padding k < 2 ^ 64 := by
    rw [← h.offset_symtab hk]
    exact readLE_lt a.data _ 8
  have hpadding : f.padding k < 0x1000 := Nat.mod_lt _ (by decide)
  have hfind := h.findProgram l
  have hword : pOffset f.data (f.pht (f.findProgram l)) < 2 ^ 64 := readLE_lt f.data _ 8
  -- only what was at the table is moved to where the table is now
  have hmoved : ∀ p, p < 2 ^ 64 →
      (moved (f.offset k) (f.padding k) p % 2 ^ 64 = f.offset k + f.padding k ↔ p = f.offset k) := by
    intro p hp
    unfold moved
    split
    · omega
    · omega
  constructor
  · rintro ⟨hlt, hva, hoffset, hfilesz⟩
    rw [hfind] at hlt hva hoffset hfilesz
    rw [h.phnum] at hlt
    rw [h.va hlt] at hva
    rw [h.programOffset _ hlt, h.offset_symtab hk, hmoved _ hword] at hoffset
    rw [h.filesz hlt] at hfilesz
    exact ⟨hlt, hva, hoffset, hfilesz⟩
  · rintro ⟨hlt, hva, hoffset, hfilesz⟩
    refine ⟨?_, ?_, ?_, ?_⟩
    · rw [hfind, h.phnum]
      exact hlt
    · rw [hfind, h.va hlt]
      exact hva
    · rw [hfind, h.programOffset _ hlt, h.offset_symtab hk, hmoved _ hword]
      exact hoffset
    · rw [hfind, h.filesz hlt]
      exact hfilesz

/-! ### A run on its own output -/

/-- A run on the image succeeds and changes no byte. -/
def Unchanged (o : Options) (f : File) : Prop :=
  ∀ capacity, ∃ ei, mkchickadeesymtab o capacity f = some ei ∧ ei.toFile = f ∧ ei.changed = false

lemma Embedded.unchanged_iff (h : Embedded o k l f) :
    Unchanged o f ↔ l = 0 ∨ f.HasProgram l (f.offset k) (f.tableSize k) := by
  have hload : ∀ capacity, (ofFile f capacity).loadSymtab.toFile = f ∧ (ofFile f capacity).loadSymtab.changed = false :=
    fun capacity => (ofFile f capacity).loadSymtab_file
  have hpht : ∀ capacity, (ofFile f capacity).loadSymtab.pht.offset = ePhoff (ofFile f capacity).loadSymtab.data 0 :=
    fun capacity => ((h.ready capacity).indexed ⟨rfl, rfl⟩).2.pht
  constructor
  · intro hsame
    by_contra hnone
    simp only [not_or] at hnone
    obtain ⟨hl, hmissing⟩ := hnone
    obtain ⟨ei, hrun, -, hchanged⟩ := hsame 0
    rw [h.rerun, if_neg hl] at hrun
    rcases (addProgram_cases (hpht 0)).2 (by rw [(hload 0).1]; exact hmissing) with hfail | ⟨-, -, hnew⟩
    · rw [hfail] at hrun
      cases hrun
    · rw [hnew] at hrun
      obtain rfl := Option.some.inj hrun
      cases hchanged
  · rintro hfound capacity
    refine ⟨(ofFile f capacity).loadSymtab, ?_, hload capacity⟩
    rw [h.rerun]
    by_cases hl : l = 0
    · rw [if_pos hl]
    · rw [if_neg hl]
      apply (addProgram_cases (hpht capacity)).1
      rw [(hload capacity).1]
      exact hfound.resolve_left hl

lemma HeaderInserted.embedded {off va filesz : Nat} (h : HeaderInserted e i va off filesz ei) (he : Indexed e k)
    (hembedded : Embedded o k l e.toFile) :
    Embedded o k l ei.toFile ∧ File.SameSymtab e.toFile ei.toFile k o.lsymtabName := by
  have hin := h.inPlace
  have hk := he.symtabAt
  have hlt := Nat.lt_of_succ_lt hk.lt
  have hsymbols := hin.symbols hk id
  have hmem : ∀ sym, sym ∈ ei.toFile.symbols k ↔ sym ∈ e.toFile.symbols k := fun sym => by rw [hsymbols]
  have hsame := hin.sameSymtab he.valid hk o.nul id hmem
  have hvalid : ei.toFile.Valid := hin.valid he.valid (fun _ _ => id) fun _ _ hfalse => hfalse.elim
  refine ⟨⟨hvalid, h.layout, ?_, hin.symtabAt hk, ?_, ?_, ?_, ?_, ?_, ?_⟩, hsame⟩
  · rw [hin.findSection he.valid id (by decide)]
    exact he.found
  · rw [hsame.offset]
    exact hembedded.aligned
  · rw [hsame.tableRef]
    exact hin.filledReferences he.valid hvalid hk o.nul (fun _ _ => id) hembedded.filled hmem
  · rintro (hgiven | hnone)
    · exact hembedded.loadaddr (Or.inl hgiven)
    · exact hembedded.loadaddr (Or.inr fun sym href => hnone sym ((hsame.references sym).2 href))
  · intro hset
    obtain ⟨sym, href⟩ := hembedded.named hset
    exact ⟨sym, (hsame.references sym).2 href⟩
  · rw [hsymbols]
    exact hembedded.sorted
  · rw [h.flags k hlt, h.flags (k + 1) hk.lt]
    exact hembedded.flags

/-! ### A run on an image -/

/-- The parts of the image are apart, and so are the objects that are filled in. No file is larger than `off_t` has it. -/
structure Regular (o : Options) (f : File) : Prop where
  size : f.size < 2 ^ 63
  layout : f.Layout
  plain : f.PlainReferences (f.findSection symtabName) o.lsymtabName o.loadaddr.toNat

/-- The address that the table is to be loaded at. -/
def symtabAddr (o : Options) (f : File) : Nat :=
  f.loadAddress (f.findSection symtabName) o.lsymtabName o.loadaddr.toNat

/-- What a run does before it comes to the program header, and that header. -/
structure RunOn (o : Options) (f : File) (k l : Nat) (a m ei : ElfInfo) : Prop where
  valid : f.Valid
  symtabAt : f.SymtabAt k
  aligned : Aligned f k a
  prepared : Prepared a o k l m
  embedded : Embedded o k l m.toFile
  program : if l = 0 then ei = m else m.addProgram l (m.toFile.offset k) (m.toFile.tableSize k) = some ei

lemma Regular.run (hregular : Regular o f) (hrun : mkchickadeesymtab o capacity f = some ei) :
    ∃ a m, RunOn o f (f.findSection symtabName) (symtabAddr o f) a m ei := by
  obtain ⟨hvalid, hk, hrun⟩ := mkchickadeesymtab_eq_some_iff.1 hrun
  have hplain := hregular.plain
  unfold symtabAddr
  generalize hfound : f.findSection symtabName = k at *
  obtain ⟨a, halign, hembed⟩ := Option.bind_eq_some_iff.1 hrun
  have hready : Ready (ofFile f capacity) k := ⟨hvalid, hregular.layout, rfl, rfl, hfound, hk⟩
  have ha := hready.aligned halign
  have hvalid' := ha.ready.valid
  have hsymbols := ha.carries.symbols hk id
  have hplain' := ha.carries.plainReferences hvalid hvalid' hk o.nul (fun _ _ => id) hplain hsymbols
  have hl : a.toFile.loadAddress k o.lsymtabName o.loadaddr.toNat = f.loadAddress k o.lsymtabName o.loadaddr.toNat :=
    ha.carries.loadAddress hvalid hvalid' hk o.nul (fun _ _ => id) hplain.toPlacedReferences hsymbols
  simp only [ha.ready.shdr] at hembed
  obtain ⟨m, hprepared, hembedded, hprogram⟩ := ha.ready.embed_prepared ha.fresh (ha.page hk) hplain' hl rfl hembed
  refine ⟨a, m, hvalid, hk, ha, hprepared, hembedded, ?_⟩
  rw [hprepared.same.offset, hprepared.same.tableSize]
  exact hprogram

section RunOn

variable (h : RunOn o f k l a m ei)
include h

lemma RunOn.tableSize : m.toFile.tableSize k = f.alignedSize k :=
  h.prepared.same.tableSize.trans (h.aligned.tableSize h.symtabAt)

lemma RunOn.phnum : ePhnum m.data 0 = ePhnum f.data 0 := h.prepared.programs.phnum.trans h.aligned.phnum

lemma RunOn.hasProgram_iff : m.toFile.HasProgram l (m.toFile.offset k) (m.toFile.tableSize k) ↔
    f.HasProgram l (f.offset k) (f.alignedSize k) := by
  rw [h.prepared.same.offset, h.tableSize, h.prepared.programs.hasProgram]
  exact h.aligned.hasProgram_iff h.symtabAt

/-- The header was there, or it is inserted. -/
lemma RunOn.program_cases (hfile : f.size < 2 ^ 63) (hl : l ≠ 0) (hl64 : l < 2 ^ 64) :
    (f.HasProgram l (f.offset k) (f.alignedSize k) ∧ ei = m) ∨
    (¬ f.HasProgram l (f.offset k) (f.alignedSize k) ∧ ePhnum ei.data 0 = (ePhnum f.data 0 + 1) % 2 ^ 16 ∧
      (ePhnum f.data 0 + 1 < 2 ^ 16 →
        HeaderInserted m (m.toFile.findProgram l) l (m.toFile.offset k) (m.toFile.tableSize k) ei)) := by
  have he := h.prepared.indexed
  have hprogram := h.program
  rw [if_neg hl] at hprogram
  rw [← h.hasProgram_iff, ← h.phnum]
  by_cases hhas : m.toFile.HasProgram l (m.toFile.offset k) (m.toFile.tableSize k)
  · rw [(addProgram_cases he.pht).1 hhas] at hprogram
    exact Or.inl ⟨hhas, (Option.some.inj hprogram).symm⟩
  rcases (addProgram_cases he.pht).2 hhas with hnone | ⟨hroom, hafter, hinsert⟩
  · rw [hnone] at hprogram
    cases hprogram
  rw [hinsert] at hprogram
  obtain rfl := Option.some.inj hprogram
  refine Or.inr ⟨hhas, insertProgram_phnum he.pht he.layout.programs, fun hcount => ?_⟩
  have hoff64 : m.toFile.offset k < 2 ^ 64 := readLE_lt m.data _ 8
  have hsize64 : m.toFile.tableSize k < 2 ^ 64 := sub64_lt _ _
  refine he.headerInserted m.toFile.findProgram_le hcount ?_ hafter hl64 hoff64 hsize64
  have hgrown : m.size = f.size + f.padding k := h.prepared.same.size.trans h.aligned.size
  have hpadding : f.padding k < 0x1000 := Nat.mod_lt _ (by decide)
  have hphoff := he.valid.header.phoff
  have hprograms := he.valid.header.programs
  unfold elfProgramSize at *
  omega

end RunOn

/-- The header that is there, or the one that a run adds, is found by the next run. -/
def Reusable (o : Options) (f : File) : Prop :=
  let k := f.findSection symtabName
  let l := symtabAddr o f
  l = 0 ∨ f.HasProgram l (f.offset k) (f.alignedSize k) ∨ l + f.alignedSize k < 2 ^ 64 ∧ ePhnum f.data 0 + 1 < 2 ^ 16

lemma unchanged_valid (h : Unchanged o f) : f.Valid := by
  obtain ⟨ei, hrun, -⟩ := h 0
  exact (mkchickadeesymtab_eq_some_iff.1 hrun).1

lemma symtabAddr_lt (o : Options) (f : File) : symtabAddr o f < 2 ^ 64 := loadAddress_lt f _ _ _

/-- A run on the output of a run changes nothing exactly if the program header is found again. -/
theorem mkchickadeesymtab_idempotent (hregular : Regular o f) (hrun : mkchickadeesymtab o capacity f = some ei) :
    Unchanged o ei.toFile ↔ Reusable o f := by
  obtain ⟨a, m, h⟩ := hregular.run hrun
  unfold Reusable
  simp only
  have hl64 := symtabAddr_lt o f
  generalize symtabAddr o f = l at *
  generalize f.findSection symtabName = k at *
  by_cases hnull : l = 0
  · have hei : ei = m := by
      have hprogram := h.program
      rwa [if_pos hnull] at hprogram
    rw [hei, h.embedded.unchanged_iff]
    exact ⟨fun _ => Or.inl hnull, fun _ => Or.inl hnull⟩
  rcases h.program_cases hregular.size hnull hl64 with ⟨hhas, rfl⟩ | ⟨hnone, hphnum, hinserted⟩
  · rw [h.embedded.unchanged_iff]
    exact ⟨fun _ => Or.inr (Or.inl hhas), fun _ => Or.inr (h.hasProgram_iff.2 hhas)⟩
  by_cases hcount : ePhnum f.data 0 + 1 < 2 ^ 16
  · have hins := hinserted hcount
    have hsize64 : m.toFile.tableSize k < 2 ^ 64 := sub64_lt _ _
    obtain ⟨hembedded, hsame⟩ := hins.embedded h.prepared.indexed h.embedded
    rw [hembedded.unchanged_iff, hsame.offset, hsame.tableSize,
      hins.program.hasProgram_iff (mt h.hasProgram_iff.1 hnone) hl64 hsize64, h.tableSize]
    constructor
    · exact fun hfound => hfound.imp_right fun hfits => Or.inr ⟨hfits, hcount⟩
    · exact fun hfound => hfound.imp_right fun hfits => (hfits.resolve_left hnone).1
  · -- the number of headers wraps around to 0, which `validate` rejects
    have hwrap : ePhnum ei.data 0 = 0 := by
      have hlt : ePhnum f.data 0 < 2 ^ 16 := readLE_lt f.data _ 2
      omega
    constructor
    · exact fun hsame => absurd hwrap (unchanged_valid hsame).header.phnum
    · rintro (hzero | hold | ⟨-, hnumber⟩)
      · exact absurd hzero hnull
      · exact absurd hold hnone
      · exact absurd hnumber hcount

/-- An image with an object `symtab` in section 4. The symbols are at 0x1000, and their names at `strtab`. -/
def symtabFile (strtab : Nat) : File where
  data :=
    [(0, 4, elfMagic), (0x20, 8, 64), (0x28, 8, 0x1040), (0x36, 2, elfProgramSize), (0x38, 2, 1), (0x3A, 2, elfSectionSize),
      (0x3C, 2, 5), (0x3E, 2, 1), (0x101, 7, 0x6261746D79732E), (strtab + 1, 6, 0x6261746D7973), (0x1018, 4, 1),
      (0x101C, 1, 1), (0x101E, 2, 4), (0x1020, 8, 0x1000), (0x1028, 8, 32), (0x1080 + 0x04, 4, elfShtStrtab),
      (0x1080 + 0x18, 8, 0x100), (0x1080 + 0x20, 8, 9), (0x10C0, 4, 1), (0x10C0 + 0x04, 4, elfShtSymtab),
      (0x10C0 + 0x18, 8, 0x1000), (0x10C0 + 0x20, 8, 48), (0x10C0 + 0x28, 4, 3), (0x1100 + 0x04, 4, elfShtStrtab),
      (0x1100 + 0x18, 8, strtab), (0x1100 + 0x20, 8, 8), (0x1140 + 0x04, 4, elfShtProgbits), (0x1140 + 0x10, 8, 0x1000),
      (0x1140 + 0x18, 8, 0x120), (0x1140 + 0x20, 8, 40)].foldl (fun m w => writeLE m w.1 w.2.1 w.2.2) fun _ => 0
  size := 0x1180
  size_lt := by decide

def symtabOptions : Options := ⟨0x100000, [0x73, 0x79, 0x6D, 0x74, 0x61, 0x62], true, by decide⟩

/-- The names are before the symbols: the size of the range wraps around, and a second run adds a second header. -/
theorem mkchickadeesymtab_not_idempotent : ∃ ei, mkchickadeesymtab symtabOptions 0 (symtabFile 0x110) = some ei ∧
    ¬ Unchanged symtabOptions ei.toFile := by
  have htwice : ((mkchickadeesymtab symtabOptions 0 (symtabFile 0x110)).bind fun ei =>
      (mkchickadeesymtab symtabOptions 0 ei.toFile).map fun ei => ei.changed) = some true := by decide +kernel
  obtain ⟨ei, hrun, hagain⟩ := Option.bind_eq_some_iff.1 htwice
  refine ⟨ei, hrun, fun hsame => ?_⟩
  obtain ⟨ei', hrun', -, hchanged⟩ := hsame 0
  rw [hrun', Option.map_some, hchanged] at hagain
  cases hagain

lemma symtabFile_layout : (symtabFile 0x1030).Layout := by
  have hshnum : eShnum (symtabFile 0x1030).data 0 = 5 := by decide +kernel
  have hnull : (symtabFile 0x1030).type 0 = elfShtNull := by decide +kernel
  have hphoff : ePhoff (symtabFile 0x1030).data 0 = 64 := by decide +kernel
  have hshoff : eShoff (symtabFile 0x1030).data 0 = 0x1040 := by decide +kernel
  have hphnum : ePhnum (symtabFile 0x1030).data 0 = 1 := by decide +kernel
  have hranges : ∀ i, (symtabFile 0x1030).Stored i →
      (i, (symtabFile 0x1030).offset i, (symtabFile 0x1030).sectionSize i) ∈
        [(1, 0x100, 9), (2, 0x1000, 48), (3, 0x1030, 8), (4, 0x120, 40)] := by
    intro i hi
    have hlt := hshnum ▸ hi.lt
    obtain rfl | rfl | rfl | rfl | rfl : i = 0 ∨ i = 1 ∨ i = 2 ∨ i = 3 ∨ i = 4 := by omega
    · exact absurd hnull hi.notNull
    · decide +kernel
    · decide +kernel
    · decide +kernel
    · decide +kernel
  simp only [List.mem_cons, Prod.mk.injEq, List.not_mem_nil, or_false] at hranges
  constructor
  case programs => rw [hphoff]; decide
  case sections => rw [hshoff]; decide
  case tables => rw [hphoff, hphnum, hshoff, hshnum]; exact Or.inl (by decide)
  case header_content =>
    intro i hi
    have hrange := hranges i hi
    unfold Apart elfHeaderSize
    omega
  case programs_content =>
    intro i hi
    have hrange := hranges i hi
    rw [hphoff, hphnum]
    unfold Apart elfProgramSize
    omega
  case sections_content =>
    intro i hi
    have hrange := hranges i hi
    rw [hshoff, hshnum]
    unfold Apart elfSectionSize
    omega
  case contents =>
    intro i j hi hj hij
    have hrange := hranges i hi
    have hrange' := hranges j hj
    unfold Apart
    omega

lemma symtabFile_regular : Regular symtabOptions (symtabFile 0x1030) := by
  have hfound : (symtabFile 0x1030).findSection symtabName = 2 := by decide +kernel
  refine ⟨by decide +kernel, symtabFile_layout, ?_⟩
  rw [hfound]
  refine ⟨⟨?_, ?_⟩, ?_⟩
  · have hall : ∀ sym ∈ (symtabFile 0x1030).symbols 2, (symtabFile 0x1030).Accepts sym →
        symtabrefSize ≤ (symtabFile 0x1030).addr sym.stShndx.toNat + (symtabFile 0x1030).sectionSize sym.stShndx.toNat := by
      decide +kernel
    exact fun sym href haccepts => hall sym href.mem haccepts
  · have hall : ∀ sym ∈ (symtabFile 0x1030).symbols 2, ∀ sym' ∈ (symtabFile 0x1030).symbols 2,
        (symtabFile 0x1030).IsReference 2 symtabOptions.lsymtabName sym →
          (symtabFile 0x1030).IsReference 2 symtabOptions.lsymtabName sym' → sym.stValue = sym'.stValue := by
      decide +kernel
    exact fun sym sym' href href' _ => Or.inl (hall sym href.mem sym' href'.mem href.toIsReference href'.toIsReference)
  · intro hnull
    exact absurd hnull (by decide +kernel)

/-- The names are behind the symbols: a second run changes nothing. -/
theorem mkchickadeesymtab_idempotent_sample : ∃ ei, mkchickadeesymtab symtabOptions 0 (symtabFile 0x1030) = some ei ∧
    Unchanged symtabOptions ei.toFile := by
  have hsome : (mkchickadeesymtab symtabOptions 0 (symtabFile 0x1030)).isSome = true := by decide +kernel
  obtain ⟨ei, hrun⟩ := Option.isSome_iff_exists.1 hsome
  refine ⟨ei, hrun, (mkchickadeesymtab_idempotent symtabFile_regular hrun).2 ?_⟩
  exact Or.inr (Or.inr ⟨by decide +kernel, by decide +kernel⟩)

end ElfInfo

end Cs300Projects.WeensyOS.Elf
