import Cs300Projects.WeensyOS.ElfPrograms

/-!
# Aligning the symbol table

`main` moves `.symtab` to a page boundary. The image that this leaves carries all sections, is laid out, and has the same
program headers but for their offsets.
-/

namespace Cs300Projects.WeensyOS.Elf

open Bytes Loop Symtab

namespace File

variable {f g : File} {i k offset diff : Nat}

lemma Carries.trans {h : File} {J : Nat → Prop} (hg : Carries J f g) (hh : Carries J g h) : Carries J f h := by
  have hlt : ∀ i, i < eShnum f.data 0 → i < eShnum g.data 0 := fun i hi => hg.shnum.symm ▸ hi
  constructor
  case header => exact hh.header
  case shnum => exact hh.shnum.trans hg.shnum
  case shstrndx => exact hh.shstrndx.trans hg.shstrndx
  case name => exact fun i hi => (hh.name i (hlt i hi)).trans (hg.name i hi)
  case type => exact fun i hi => (hh.type i (hlt i hi)).trans (hg.type i hi)
  case sectionSize => exact fun i hi => (hh.sectionSize i (hlt i hi)).trans (hg.sectionSize i hi)
  case link => exact fun i hi => (hh.link i (hlt i hi)).trans (hg.link i hi)
  case addr => exact fun i hi htype => (hh.addr i (hlt i hi) ((hg.type i hi).trans htype)).trans (hg.addr i hi htype)
  case bounds =>
    intro i hi
    rw [← hg.sectionSize i hi.lt]
    exact hh.bounds i (hg.stored_iff.2 hi)
  case content =>
    intro i hi hJ x hx
    rw [hh.content i (hg.stored_iff.2 hi) hJ x (by rw [hg.sectionSize i hi.lt]; exact hx)]
    exact hg.content i hi hJ x hx

/-! ### A shifted image -/

section Shifted

variable (hvalid : f.Valid) (hlayout : f.Layout) (hcut : ElfInfo.Cut f offset) (hshifted : f.Shifted g offset diff)

lemma Layout.tablesApart (h : f.Layout) : f.TablesApart := ⟨h.programs, h.sections, h.tables⟩

include hvalid hcut in
/-- The contents of a section are moved as a whole. -/
lemma cut_stored (hi : f.Stored i) : offset ≤ f.offset i ∨ f.offset i + f.sectionSize i ≤ offset := by
  have hbounds := hvalid.bounds hi
  have hsize := f.size_lt
  rcases hcut.sections i hi.lt with hle | hnull | hnobits | hend
  · exact Or.inl hle
  · exact absurd hnull hi.notNull
  · exact absurd hnobits hi.notNobits
  · rw [Nat.mod_eq_of_lt (by omega)] at hend
    exact Or.inr hend

include hvalid hshifted in
lemma Shifted.offset_stored (hi : f.Stored i) : g.offset i = moved offset diff (f.offset i) := by
  have hbounds := hvalid.bounds hi
  have hsize := hshifted.size
  have hfits := g.size_lt
  rw [hshifted.sections i hi.lt]
  apply Nat.mod_eq_of_lt
  unfold moved
  split
  · omega
  · omega

/-! The bytes that are not updated -/

variable {x : Nat}

lemma fieldByte_cases (h : f.FieldByte x) : (0x28 ≤ x ∧ x < 0x30) ∨
    (∃ i, i < ePhnum f.data 0 ∧ f.pht i + 0x08 ≤ x ∧ x < f.pht i + 0x10) ∨
      ∃ i, i < eShnum f.data 0 ∧ f.sht i + 0x18 ≤ x ∧ x < f.sht i + 0x20 := by
  unfold FieldByte Outside at h
  rcases h with hshoff | ⟨i, hi, hfield⟩ | ⟨i, hi, hfield⟩
  · exact Or.inl (by omega)
  · have haddr : f.programOffsets.addr i = f.pht i + 0x08 := rfl
    exact Or.inr (Or.inl ⟨i, hi, by omega, by omega⟩)
  · have haddr : f.sectionOffsets.addr i = f.sht i + 0x18 := rfl
    exact Or.inr (Or.inr ⟨i, hi, by omega, by omega⟩)

include hlayout

lemma Layout.header_not_field (hx : x < elfHeaderSize) (hout : ¬ (0x28 ≤ x ∧ x < 0x30)) : ¬ f.FieldByte x := by
  intro h
  have hprograms := hlayout.programs
  have hsections := hlayout.sections
  rcases fieldByte_cases h with hshoff | ⟨i, -, hle, -⟩ | ⟨i, -, hle, -⟩
  · exact hout hshoff
  · unfold pht at hle
    omega
  · unfold sht at hle
    omega

lemma Layout.content_not_field (hi : f.Stored i) (hx : f.offset i ≤ x) (hlt : x < f.offset i + f.sectionSize i) :
    ¬ f.FieldByte x := by
  intro h
  have hheader := hlayout.header_content i hi
  have hprograms := hlayout.programs_content i hi
  have hsections := hlayout.sections_content i hi
  unfold Apart elfHeaderSize elfProgramSize elfSectionSize at *
  rcases fieldByte_cases h with hshoff | ⟨j, hj, hle, hlt'⟩ | ⟨j, hj, hle, hlt'⟩
  · omega
  · unfold pht elfProgramSize at *
    omega
  · unfold sht elfSectionSize at *
    omega

lemma Layout.program_not_field (hi : i < ePhnum f.data 0) (hx : f.pht i ≤ x) (hlt : x < f.pht i + elfProgramSize)
    (hout : ¬ (f.pht i + 0x08 ≤ x ∧ x < f.pht i + 0x10)) : ¬ f.FieldByte x := by
  intro h
  have hprograms := hlayout.programs
  have htables := hlayout.tables
  unfold Apart elfHeaderSize at *
  unfold pht elfProgramSize at *
  rcases fieldByte_cases h with hshoff | ⟨j, hj, hle, hlt'⟩ | ⟨j, hj, hle, hlt'⟩
  · omega
  · unfold pht elfProgramSize at *
    omega
  · unfold sht elfSectionSize at *
    omega

include hcut hshifted

omit hlayout in
lemma Shifted.before (hx : x < offset) (hfree : ¬ f.FieldByte x) : g.data x = f.data x := by
  have hbytes := hshifted.bytes x (Nat.lt_trans hx hcut.inside) hfree
  unfold moved at hbytes
  rwa [if_neg (by omega)] at hbytes

lemma Shifted.headerField {a n : Nat} (ha : a + n ≤ elfHeaderSize) (hapart : Apart a n 0x28 8) :
    Bytes.readLE g.data a n = Bytes.readLE f.data a n := by
  have hprograms := hlayout.programs
  have hoffset := hcut.programs
  apply readLE_congr
  intro x hx hlt
  unfold Apart at hapart
  exact hshifted.before hcut (by omega) (hlayout.header_not_field (by omega) (by omega))

omit hcut hlayout in
lemma Shifted.sectionField (hi : i < eShnum f.data 0) {o n : Nat} (ho : o + n ≤ elfSectionSize) (hapart : Apart o n 0x18 8) :
    Bytes.readLE g.data (g.sht i + o) n = Bytes.readLE f.data (f.sht i + o) n := by
  apply readLE_shift
  intro x hx
  unfold Apart at hapart
  rw [Nat.add_assoc, Nat.add_assoc]
  exact hshifted.headers i hi (o + x) (by omega) (by unfold Outside; omega)

include hvalid

/-- The sections are carried over. -/
lemma Shifted.carries : Carries (fun _ => False) f g := by
  have h := hvalid.header
  have hsize := hshifted.size
  have hfield : ∀ a n, a + n ≤ elfHeaderSize → Apart a n 0x28 8 → Bytes.readLE g.data a n = Bytes.readLE f.data a n :=
    fun a n ha hapart => hshifted.headerField hlayout hcut ha hapart
  have hphoff : ePhoff g.data 0 = ePhoff f.data 0 := hfield 0x20 8 (by decide) (Or.inl (by decide))
  have hphnum : ePhnum g.data 0 = ePhnum f.data 0 := hfield 0x38 2 (by decide) (Or.inr (by decide))
  have hshnum : eShnum g.data 0 = eShnum f.data 0 := hfield 0x3C 2 (by decide) (Or.inr (by decide))
  have hsection : ∀ i o n, i < eShnum f.data 0 → o + n ≤ elfSectionSize → Apart o n 0x18 8 →
      Bytes.readLE g.data (g.sht i + o) n = Bytes.readLE f.data (f.sht i + o) n :=
    fun i o n hi ho hapart => hshifted.sectionField hi ho hapart
  have hshoff := hshifted.shoff
  have hmoved : moved offset diff (eShoff f.data 0) ≤ eShoff f.data 0 + diff := by
    unfold moved
    split
    · exact Nat.le_refl _
    · exact Nat.le_add_right _ _
  constructor
  case header =>
    have hprograms := h.programs
    have hsections := h.sections
    have hshoff' := h.shoff
    have hphoff' := h.phoff
    have hheader := h.size
    constructor
    case size => omega
    case magic => exact (hfield 0 4 (by decide) (Or.inl (by decide))).trans h.magic
    case phentsize => exact (hfield 0x36 2 (by decide) (Or.inr (by decide))).trans h.phentsize
    case shentsize => exact (hfield 0x3A 2 (by decide) (Or.inr (by decide))).trans h.shentsize
    case phnum => exact hphnum ▸ h.phnum
    case shnum => exact hshnum ▸ h.shnum
    case phoff =>
      rw [hphoff]
      omega
    case programs =>
      rw [hphoff, hphnum]
      unfold elfProgramSize at *
      omega
    case shoff =>
      rw [hshoff]
      omega
    case sections =>
      rw [hshoff, hshnum]
      unfold elfSectionSize at *
      omega
  case shnum => exact hshnum
  case shstrndx => exact hfield 0x3E 2 (by decide) (Or.inr (by decide))
  case name =>
    intro i hi
    have hname := hsection i 0 4 hi (by decide) (Or.inl (by decide))
    rwa [Nat.add_zero, Nat.add_zero] at hname
  case type => exact fun i hi => hsection i 0x04 4 hi (by decide) (Or.inl (by decide))
  case sectionSize => exact fun i hi => hsection i 0x20 8 hi (by decide) (Or.inr (by decide))
  case link => exact fun i hi => hsection i 0x28 4 hi (by decide) (Or.inr (by decide))
  case addr => exact fun i hi _ => hsection i 0x10 8 hi (by decide) (Or.inl (by decide))
  case bounds =>
    intro i hi
    have hbounds := hvalid.bounds hi
    rw [hshifted.offset_stored hvalid hi, hsize]
    unfold moved
    split
    · omega
    · omega
  case content =>
    intro i hi _ x hx
    exact hshifted.contents i hi x hx (hlayout.content_not_field hi (Nat.le_add_right _ _) (by omega))

/-- The parts of the image stay apart. -/
lemma Shifted.layout (hsht : eShoff f.data 0 + elfSectionSize * eShnum f.data 0 ≤ offset ∨ offset ≤ eShoff f.data 0) :
    g.Layout := by
  have hcarries := hshifted.carries hvalid hlayout hcut
  have hphoff : ePhoff g.data 0 = ePhoff f.data 0 := hshifted.headerField hlayout hcut (by decide) (Or.inl (by decide))
  have hphnum : ePhnum g.data 0 = ePhnum f.data 0 := hshifted.headerField hlayout hcut (by decide) (Or.inr (by decide))
  have hshoff := hshifted.shoff
  have hshnum := hcarries.shnum
  have hprograms := hlayout.programs
  have hsections := hlayout.sections
  have htables := hlayout.tables
  have hend := hcut.programs
  have hstored : ∀ i, g.Stored i → f.Stored i ∧ g.offset i = moved offset diff (f.offset i) ∧
      g.sectionSize i = f.sectionSize i := by
    intro i hi
    have hf := hcarries.stored_iff.1 hi
    exact ⟨hf, hshifted.offset_stored hvalid hf, hcarries.sectionSize i hf.lt⟩
  have hmoved : ∀ a, (offset ≤ a ∧ moved offset diff a = a + diff) ∨ (a < offset ∧ moved offset diff a = a) := by
    intro a
    unfold moved
    split
    · exact Or.inl ⟨‹_›, rfl⟩
    · exact Or.inr ⟨by omega, rfl⟩
  have hmovedTable := hmoved (eShoff f.data 0)
  unfold Apart at htables
  constructor
  case programs =>
    rw [hphoff]
    exact hprograms
  case sections =>
    rw [hshoff]
    omega
  case tables =>
    rw [hphoff, hphnum, hshoff, hshnum]
    unfold Apart
    omega
  case header_content =>
    intro i hi
    obtain ⟨hf, hoffset, hsize⟩ := hstored i hi
    have hapart := hlayout.header_content i hf
    have hmoved' := hmoved (f.offset i)
    rw [hoffset, hsize]
    unfold Apart at *
    omega
  case programs_content =>
    intro i hi
    obtain ⟨hf, hoffset, hsize⟩ := hstored i hi
    have hapart := hlayout.programs_content i hf
    have hmoved' := hmoved (f.offset i)
    rw [hphoff, hphnum, hoffset, hsize]
    unfold Apart at *
    omega
  case sections_content =>
    intro i hi
    obtain ⟨hf, hoffset, hsize⟩ := hstored i hi
    have hapart := hlayout.sections_content i hf
    have hmoved' := hmoved (f.offset i)
    have hcut' := cut_stored hvalid hcut hf
    rw [hshoff, hshnum, hoffset, hsize]
    unfold Apart at *
    rcases hsht with hbefore | hbehind
    · omega
    · omega
  case contents =>
    intro i j hi hj hij hmutable hpos hpos'
    obtain ⟨hf, hoffset, hsize⟩ := hstored i hi
    obtain ⟨hf', hoffset', hsize'⟩ := hstored j hj
    rw [File.Mutable, hcarries.type i hf.lt] at hmutable
    rw [hsize] at hpos
    rw [hsize'] at hpos'
    have hapart := hlayout.contents i j hf hf' hij hmutable hpos hpos'
    have hmoved' := hmoved (f.offset i)
    have hmoved'' := hmoved (f.offset j)
    have hcut' := cut_stored hvalid hcut hf
    have hcut'' := cut_stored hvalid hcut hf'
    rw [hoffset, hsize, hoffset', hsize']
    unfold Apart at *
    omega

end Shifted

/-- How far `.symtab` is from the next page boundary. -/
def padding (f : File) (k : Nat) : Nat := (0x1000 - f.offset k % 0x1000) % 0x1000

end File

namespace ElfInfo

variable {a ei ei' : ElfInfo} {f : File} {k capacity offset diff : Nat}

/-- The image `f` with `.symtab` moved to a page boundary. -/
structure Aligned (f : File) (k : Nat) (a : ElfInfo) : Prop where
  ready : Ready a k
  fresh : a.symtab = none ∧ a.nsymtab = 0
  carries : File.Carries (fun _ => False) f a.toFile
  size : a.size = f.size + f.padding k
  offset : ∀ i, f.Stored i → a.toFile.offset i = moved (f.offset k) (f.padding k) (f.offset i)
  phnum : ePhnum a.data 0 = ePhnum f.data 0
  programField : ∀ i, i < ePhnum f.data 0 → ∀ o n, o + n ≤ elfProgramSize → Apart o n 0x08 8 →
    readLE a.data (a.toFile.pht i + o) n = readLE f.data (f.pht i + o) n
  programOffset : ∀ i, i < ePhnum f.data 0 →
    pOffset a.data (a.toFile.pht i) = moved (f.offset k) (f.padding k) (pOffset f.data (f.pht i)) % 2 ^ 64

lemma grow_fresh (hfresh : ei.symtab = none ∧ ei.nsymtab = 0) (capacity : Nat) :
    (ei.grow capacity).symtab = none ∧ (ei.grow capacity).nsymtab = 0 := by
  unfold grow
  split
  · exact ⟨rfl, rfl⟩
  · exact hfresh

lemma shiftSections_fresh (hvalid : ei.toFile.Valid) (hcurrent : ei.Current) (hrun : ei.shiftSections offset diff = some ei')
    (hfresh : ei.symtab = none ∧ ei.nsymtab = 0) : ei'.symtab = none ∧ ei'.nsymtab = 0 := by
  obtain ⟨-, -, -, -, m₂, -, -, h, moved', rfl, hei⟩ := shiftSections_cases hvalid hcurrent hrun
  have hfresh₂ : ({ ei with data := m₂ } : ElfInfo).symtab = none ∧ ({ ei with data := m₂ } : ElfInfo).nsymtab = 0 :=
    hfresh
  have hmoved := grow_fresh hfresh₂ (ei.size + diff)
  rcases hei with ⟨-, rfl⟩ | ⟨-, rfl⟩
  · exact hmoved
  · exact hmoved

lemma moved_zero (offset x : Nat) : moved offset 0 x = x := by
  unfold moved
  split
  · rfl
  · rfl

lemma Ready.alignSymtab (h : Ready a k) (haligned : a.toFile.offset k % 0x1000 = 0) : a.alignSymtab k = some a := by
  have hoffset : shOffset a.data (a.shdr k) = a.toFile.offset k := by
    rw [h.shdr]
    rfl
  unfold ElfInfo.alignSymtab
  simp only [hoffset, if_pos haligned]

lemma aligned_of_aligned (hready : Ready (ofFile f capacity) k) (haligned : f.offset k % 0x1000 = 0) :
    Aligned f k (ofFile f capacity) := by
  have hpadding : f.padding k = 0 := by
    unfold File.padding
    omega
  refine ⟨hready, ⟨rfl, rfl⟩, ?_, ?_, ?_, rfl, fun _ _ _ _ _ _ => rfl, ?_⟩
  · exact (File.Frame.inPlace_contents hready.valid hready.layout (fun _ => False.elim) ⟨rfl, fun _ _ => rfl⟩).toCarries
  · rw [hpadding]
    rfl
  · intro i _
    rw [hpadding, moved_zero]
    rfl
  · intro i _
    rw [hpadding, moved_zero]
    exact (Nat.mod_eq_of_lt (readLE_lt f.data _ 8)).symm

lemma Ready.withAddralign (h : Ready a k) : Ready (a.withAddralign k) k ∧
    File.InPlace (fun _ => False) a.toFile (a.withAddralign k).toFile ∧
      File.SameTable a.toFile (a.withAddralign k).toFile := by
  have hlt := Nat.lt_of_succ_lt h.symtabAt.lt
  have htype : a.toFile.type k ≠ elfShtProgbits := by
    rw [h.symtabAt.type]
    decide
  have hframe : File.Frame (a.toFile.MetaBytes k) a.toFile (a.withAddralign k).toFile := by
    refine ⟨rfl, fun x hx => ?_⟩
    apply writeLE_outside
    rw [h.shdr]
    by_contra hin
    unfold Outside at hin
    refine hx ⟨x - a.toFile.sht k, ?_, Or.inr ?_, ?_⟩
    · unfold elfSectionSize
      omega
    · omega
    · omega
  have hin := hframe.inPlace_meta h.valid h.layout hlt htype
  have hvalid : (a.withAddralign k).toFile.Valid := hin.valid h.valid (fun _ _ => id) fun _ _ hfalse => hfalse.elim
  exact ⟨h.inPlace hin hvalid (hframe.phnum_meta h.layout) rfl rfl id, hin, .of_meta h.valid h.layout hlt hframe htype⟩

lemma aligned_of_shifted (hready : Ready (ofFile f capacity) k) (hpage : f.offset k % 0x1000 ≠ 0)
    (hrun : ((ofFile f capacity).withAddralign k).shiftSections (f.offset k) (0x1000 - f.offset k % 0x1000) = some a) :
    Aligned f k a := by
  obtain ⟨hready', hin, htable⟩ : _ ∧ File.InPlace _ f _ ∧ File.SameTable f _ := hready.withAddralign
  generalize hei : (ofFile f capacity).withAddralign k = ei at *
  have hcurrent : ei.Current := by
    refine ⟨?_, ?_, ?_⟩
    · rw [← hei]
      rfl
    · rw [← hready'.pht, ← hei]
      rfl
    · rw [← hready'.sht, ← hei]
      rfl
  have hfresh : ei.symtab = none ∧ ei.nsymtab = 0 := by
    rw [← hei]
    exact ⟨rfl, rfl⟩
  have hk := hready'.symtabAt
  have hvalid := hready'.valid
  have hlayout := hready'.layout
  have hoffset : ∀ i, i < eShnum f.data 0 → ei.toFile.offset i = f.offset i := hin.offset
  have hpadding : 0x1000 - f.offset k % 0x1000 = f.padding k := by
    unfold File.padding
    omega
  have hsht : eShoff ei.data 0 + elfSectionSize * eShnum ei.data 0 ≤ f.offset k ∨ f.offset k ≤ eShoff ei.data 0 := by
    have hapart := hlayout.sections_content k hk.stored
    rw [hoffset k (Nat.lt_of_succ_lt hready.symtabAt.lt)] at hapart
    unfold Apart at hapart
    omega
  rw [hpadding] at hrun
  obtain ⟨hcut, hshifted, hcurrent'⟩ := shiftSections_shifted hvalid hcurrent hlayout.tablesApart hsht hrun
  have hcarries := hshifted.carries hvalid hlayout hcut
  have hvalid' : a.toFile.Valid := hcarries.valid hvalid (fun _ _ => id) fun _ _ hfalse => hfalse.elim
  have hphnum : ePhnum a.data 0 = ePhnum ei.data 0 := hshifted.headerField hlayout hcut (by decide) (Or.inr (by decide))
  have hphoff : ePhoff a.data 0 = ePhoff ei.data 0 := hshifted.headerField hlayout hcut (by decide) (Or.inl (by decide))
  have hprogram : ∀ i, i < ePhnum f.data 0 → ∀ o n, o + n ≤ elfProgramSize → Apart o n 0x08 8 →
      readLE a.data (a.toFile.pht i + o) n = readLE f.data (f.pht i + o) n := by
    intro i hi o n ho hapart
    unfold Apart at hapart
    have hi' : i < ePhnum ei.data 0 := htable.phnum.symm ▸ hi
    have hpht : a.toFile.pht i = ei.toFile.pht i := congrArg (· + elfProgramSize * i) hphoff
    have hend := hcut.programs
    rw [← (htable.program i hi).readLE ho, hpht]
    apply readLE_congr
    intro x hx hlt
    unfold elfProgramSize at *
    refine hshifted.before hcut ?_ (hlayout.program_not_field hi' (by omega) (by unfold elfProgramSize; omega) (by omega))
    unfold File.pht elfProgramSize at *
    omega
  refine ⟨⟨hvalid', hshifted.layout hvalid hlayout hcut hsht, ?_, ?_, ?_, hcarries.symtabAt hk⟩,
    shiftSections_fresh hvalid hcurrent hrun hfresh, hin.toCarries.trans hcarries, ?_, ?_, ?_, ?_, ?_⟩
  · rw [hcurrent'.pht]
  · rw [hcurrent'.sht]
  · rw [hcarries.findSection hvalid id (by decide)]
    exact hready'.found
  · rw [hshifted.size, hin.size]
  · intro i hi
    rw [hshifted.offset_stored hvalid (hin.stored_iff.2 hi), hoffset i hi.lt]
  · exact hphnum.trans htable.phnum
  · exact hprogram
  · intro i hi
    rw [hshifted.programs i (htable.phnum.symm ▸ hi), (htable.program i hi).offset]

lemma Ready.aligned (hready : Ready (ofFile f capacity) k) (hrun : (ofFile f capacity).alignSymtab k = some a) :
    Aligned f k a := by
  by_cases hpage : f.offset k % 0x1000 = 0
  · rw [hready.alignSymtab hpage] at hrun
    obtain rfl := Option.some.inj hrun
    exact aligned_of_aligned hready hpage
  · have hoffset : shOffset (ofFile f capacity).data ((ofFile f capacity).shdr k) = f.offset k := rfl
    apply aligned_of_shifted hready hpage
    unfold ElfInfo.alignSymtab at hrun
    simp only [hoffset, if_neg hpage] at hrun
    split at hrun
    · exact hrun
    · cases hrun

end ElfInfo

end Cs300Projects.WeensyOS.Elf
