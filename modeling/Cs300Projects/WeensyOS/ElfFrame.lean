import Cs300Projects.WeensyOS.ElfLayout

/-!
# Changes in place

An ELF image that is changed outside of the fields and the contents that matter keeps them.
-/

namespace Cs300Projects.WeensyOS.Elf

open Bytes Loop Symtab

namespace File

variable {f g : File} {i j k : Nat} {J R : Nat → Prop}

/-- `g` differs from `f` in bytes of `R` at most. -/
structure Frame (R : Nat → Prop) (f g : File) : Prop where
  size : g.size = f.size
  data : ∀ x, ¬ R x → g.data x = f.data x

/-- `g` carries the sections of `f` at the same places. -/
structure InPlace (J : Nat → Prop) (f g : File) : Prop extends Carries J f g where
  size : g.size = f.size
  phoff : ePhoff g.data 0 = ePhoff f.data 0
  shoff : eShoff g.data 0 = eShoff f.data 0
  offset : ∀ i, i < eShnum f.data 0 → g.offset i = f.offset i

lemma Frame.readLE {a n : Nat} (h : Frame R f g) (hR : ∀ x, a ≤ x → x < a + n → ¬ R x) :
    Bytes.readLE g.data a n = Bytes.readLE f.data a n :=
  readLE_congr fun x hx hlt => h.data x (hR x hx hlt)

/-- All fields of the ELF header but `e_phnum` are kept. -/
structure SameHeader (f g : File) : Prop where
  magic : eMagic g.data 0 = eMagic f.data 0
  phoff : ePhoff g.data 0 = ePhoff f.data 0
  shoff : eShoff g.data 0 = eShoff f.data 0
  phentsize : ePhentsize g.data 0 = ePhentsize f.data 0
  shentsize : eShentsize g.data 0 = eShentsize f.data 0
  shnum : eShnum g.data 0 = eShnum f.data 0
  shstrndx : g.shstrndx = f.shstrndx

lemma Frame.sameHeader (h : Frame R f g)
    (hheader : ∀ x, x < elfHeaderSize → ¬ (0x38 ≤ x ∧ x < 0x3A) → ¬ R x) : SameHeader f g := by
  have hfield : ∀ a n, a + n ≤ elfHeaderSize → Apart a n 0x38 2 → ∀ x, a ≤ x → x < a + n → ¬ R x := by
    intro a n ha hapart x hx hlt
    unfold Apart at hapart
    exact hheader x (by omega) (by omega)
  constructor
  case magic =>
    apply h.readLE
    exact hfield _ _ (by decide) (Or.inl (by decide))
  case phoff =>
    apply h.readLE
    exact hfield _ _ (by decide) (Or.inl (by decide))
  case shoff =>
    apply h.readLE
    exact hfield _ _ (by decide) (Or.inl (by decide))
  case phentsize =>
    apply h.readLE
    exact hfield _ _ (by decide) (Or.inl (by decide))
  case shentsize =>
    apply h.readLE
    exact hfield _ _ (by decide) (Or.inr (by decide))
  case shnum =>
    apply h.readLE
    exact hfield _ _ (by decide) (Or.inr (by decide))
  case shstrndx =>
    apply h.readLE
    exact hfield _ _ (by decide) (Or.inr (by decide))

lemma SameHeader.headerOk (h : SameHeader f g) (hf : f.HeaderOk) (hsize : g.size = f.size)
    (hphnum : ePhnum g.data 0 ≠ 0) (hprograms : ePhoff f.data 0 + elfProgramSize * ePhnum g.data 0 ≤ f.size) :
    g.HeaderOk := by
  constructor
  case size => exact hsize ▸ hf.size
  case magic => exact h.magic.trans hf.magic
  case phentsize => exact h.phentsize.trans hf.phentsize
  case shentsize => exact h.shentsize.trans hf.shentsize
  case phnum => exact hphnum
  case shnum =>
    rw [h.shnum]
    exact hf.shnum
  case phoff =>
    rw [h.phoff, hsize]
    exact hf.phoff
  case programs =>
    rw [h.phoff, hsize, Nat.le_div_iff_mul_le (by decide), Nat.mul_comm]
    omega
  case shoff =>
    rw [h.shoff, hsize]
    exact hf.shoff
  case sections =>
    rw [h.shoff, h.shnum, hsize]
    exact hf.sections

/-- A byte of the flags, the address or the alignment of a section header. -/
def MetaByte (o : Nat) : Prop := (0x08 ≤ o ∧ o < 0x18) ∨ 0x30 ≤ o

/-- The other fields of a section header are kept. -/
structure SameSection (f g : File) (i : Nat) : Prop where
  name : g.name i = f.name i
  type : g.type i = f.type i
  offset : g.offset i = f.offset i
  sectionSize : g.sectionSize i = f.sectionSize i
  link : g.link i = f.link i

lemma Frame.sameSection (h : Frame R f g) (hsht : g.sht i = f.sht i)
    (hsection : ∀ o, o < elfSectionSize → ¬ MetaByte o → ¬ R (f.sht i + o)) : SameSection f g i := by
  have hfield : ∀ o n, o + n ≤ 0x30 → Apart o n 0x08 0x10 → ∀ x, f.sht i + o ≤ x → x < f.sht i + o + n → ¬ R x := by
    intro o n ho hapart x hx hlt
    unfold MetaByte elfSectionSize at hsection
    unfold Apart at hapart
    rw [show x = f.sht i + (x - f.sht i) by omega]
    exact hsection (x - f.sht i) (by omega) (by omega)
  constructor
  case name =>
    unfold name shName
    rw [hsht]
    apply h.readLE
    intro x hx hlt
    exact hfield 0 4 (by decide) (Or.inl (by decide)) x (by omega) (by omega)
  case type =>
    unfold type shType
    rw [hsht]
    apply h.readLE
    exact hfield 0x04 _ (by decide) (Or.inl (by decide))
  case offset =>
    unfold offset shOffset
    rw [hsht]
    apply h.readLE
    exact hfield 0x18 _ (by decide) (Or.inr (by decide))
  case sectionSize =>
    unfold sectionSize shSize
    rw [hsht]
    apply h.readLE
    exact hfield 0x20 _ (by decide) (Or.inr (by decide))
  case link =>
    unfold link shLink
    rw [hsht]
    apply h.readLE
    exact hfield 0x28 _ (by decide) (Or.inr (by decide))

lemma Frame.inPlace (hvalid : f.Valid) (hframe : Frame R f g)
    (hheader : ∀ x, x < elfHeaderSize → ¬ (0x38 ≤ x ∧ x < 0x3A) → ¬ R x) (hphnum : ePhnum g.data 0 ≠ 0)
    (hprograms : ePhoff f.data 0 + elfProgramSize * ePhnum g.data 0 ≤ f.size)
    (hsections : ∀ i, i < eShnum f.data 0 → ∀ o, o < elfSectionSize →
      (f.type i = elfShtProgbits ∧ o < 0x30) ∨ ¬ MetaByte o → ¬ R (f.sht i + o))
    (hcontent : ∀ i, f.Stored i → ¬ J i → ∀ x, f.offset i ≤ x → x < f.offset i + f.sectionSize i → ¬ R x) :
    InPlace J f g := by
  have hsame := hframe.sameHeader hheader
  have hsht : ∀ i, g.sht i = f.sht i := by
    intro i
    unfold sht
    rw [hsame.shoff]
  have hsection : ∀ i, i < eShnum f.data 0 → SameSection f g i := by
    intro i hi
    exact hframe.sameSection (hsht i) fun o ho hout => hsections i hi o ho (Or.inr hout)
  constructor
  case toCarries =>
    constructor
    case header => exact hsame.headerOk hvalid.header hframe.size hphnum hprograms
    case shnum => exact hsame.shnum
    case shstrndx => exact hsame.shstrndx
    case name => exact fun i hi => (hsection i hi).name
    case type => exact fun i hi => (hsection i hi).type
    case sectionSize => exact fun i hi => (hsection i hi).sectionSize
    case link => exact fun i hi => (hsection i hi).link
    case addr =>
      intro i hi htype
      unfold addr shAddr
      rw [hsht]
      apply hframe.readLE
      intro x hx hlt
      unfold elfSectionSize at hsections
      rw [show x = f.sht i + (x - f.sht i) by omega]
      exact hsections i hi (x - f.sht i) (by omega) (Or.inl ⟨htype, by omega⟩)
    case bounds =>
      intro i hi
      rw [(hsection i hi.lt).offset, hframe.size]
      exact hvalid.bounds hi
    case content =>
      intro i hi hJ x hx
      rw [(hsection i hi.lt).offset]
      exact hframe.data _ (hcontent i hi hJ _ (Nat.le_add_right _ _) (by omega))
  case size => exact hframe.size
  case phoff => exact hsame.phoff
  case shoff => exact hsame.shoff
  case offset => exact fun i hi => (hsection i hi).offset

lemma InPlace.layout_of (h : InPlace J f g) (hlayout : f.Layout)
    (htables : Apart (ePhoff f.data 0) (elfProgramSize * ePhnum g.data 0) (eShoff f.data 0) (elfSectionSize * eShnum f.data 0))
    (hcontent : ∀ i, f.Stored i → Apart (ePhoff f.data 0) (elfProgramSize * ePhnum g.data 0) (f.offset i) (f.sectionSize i)) :
    g.Layout := by
  have hstored : ∀ i, g.Stored i → f.Stored i ∧ g.offset i = f.offset i ∧ g.sectionSize i = f.sectionSize i := by
    intro i hi
    have hf := h.stored_iff.1 hi
    exact ⟨hf, h.offset i hf.lt, h.sectionSize i hf.lt⟩
  constructor
  case programs =>
    rw [h.phoff]
    exact hlayout.programs
  case sections =>
    rw [h.shoff]
    exact hlayout.sections
  case tables =>
    rw [h.phoff, h.shoff, h.shnum]
    exact htables
  case header_content =>
    intro i hi
    obtain ⟨hf, hoffset, hsize⟩ := hstored i hi
    rw [hoffset, hsize]
    exact hlayout.header_content i hf
  case programs_content =>
    intro i hi
    obtain ⟨hf, hoffset, hsize⟩ := hstored i hi
    rw [hoffset, hsize, h.phoff]
    exact hcontent i hf
  case sections_content =>
    intro i hi
    obtain ⟨hf, hoffset, hsize⟩ := hstored i hi
    rw [hoffset, hsize, h.shoff, h.shnum]
    exact hlayout.sections_content i hf
  case contents =>
    intro i j hi hj hij hmutable hpos hpos'
    obtain ⟨hf, hoffset, hsize⟩ := hstored i hi
    obtain ⟨hf', hoffset', hsize'⟩ := hstored j hj
    rw [File.Mutable, h.type i hf.lt] at hmutable
    rw [hsize] at hpos
    rw [hsize'] at hpos'
    rw [hoffset, hsize, hoffset', hsize']
    exact hlayout.contents i j hf hf' hij hmutable hpos hpos'

lemma InPlace.layout (h : InPlace J f g) (hlayout : f.Layout) (hphnum : ePhnum g.data 0 = ePhnum f.data 0) : g.Layout := by
  apply h.layout_of hlayout
  · rw [hphnum]
    exact hlayout.tables
  · intro i hi
    rw [hphnum]
    exact hlayout.programs_content i hi

/-! ### Changes of section headers -/

/-- The bytes of the header of section `i` that hold its flags, its address and its alignment. -/
def MetaBytes (f : File) (i x : Nat) : Prop := ∃ o, o < elfSectionSize ∧ MetaByte o ∧ x = f.sht i + o

section MetaBytes

variable (hvalid : f.Valid) (hlayout : f.Layout) (hi : i < eShnum f.data 0) (h : Frame (f.MetaBytes i) f g)
include hlayout h

lemma Frame.phnum_meta : ePhnum g.data 0 = ePhnum f.data 0 := by
  apply h.readLE
  rintro x - hlt ⟨o, -, -, rfl⟩
  have hsections := hlayout.sections
  unfold sht elfHeaderSize at *
  omega

include hvalid hi

/-- A change of these bytes keeps the sections, unless the address counts. -/
lemma Frame.inPlace_meta (htype : f.type i ≠ elfShtProgbits) : InPlace (fun _ => False) f g := by
  have hheader := hvalid.header
  have hsections := hlayout.sections
  have hphnum := h.phnum_meta hlayout
  apply h.inPlace hvalid
  · rintro x hx - ⟨o, -, -, rfl⟩
    unfold sht at hx
    omega
  · exact hphnum ▸ hheader.phnum
  · have hphoff := hheader.phoff
    have hprograms := hheader.programs
    rw [hphnum]
    unfold elfProgramSize at *
    omega
  · rintro j hj o ho hout ⟨o', ho', hmeta, heq⟩
    unfold sht elfSectionSize at *
    obtain rfl : j = i := by omega
    obtain rfl : o = o' := by omega
    rcases hout with ⟨hprogbits, -⟩ | hmeta'
    · exact htype hprogbits
    · exact hmeta' hmeta
  · rintro j hj - x hx hlt ⟨o, ho, -, rfl⟩
    have hapart := hlayout.sections_content j hj
    unfold sht Apart elfSectionSize at *
    omega

end MetaBytes

/-! ### Changes of the contents of sections -/

/-- The bytes of the sections in `J`. -/
def Contents (f : File) (J : Nat → Prop) (x : Nat) : Prop :=
  ∃ i, f.Stored i ∧ J i ∧ f.offset i ≤ x ∧ x < f.offset i + f.sectionSize i

section Contents

variable (hvalid : f.Valid) (hlayout : f.Layout) (hJ : ∀ j, J j → f.Mutable j) (hframe : Frame (f.Contents J) f g)
include hlayout

lemma Layout.header_not_contents {x : Nat} (hx : x < elfHeaderSize) : ¬ f.Contents J x := by
  rintro ⟨i, hi, -, hle, hlt⟩
  have hapart := hlayout.header_content i hi
  unfold Apart at hapart
  omega

lemma Layout.section_not_contents {x : Nat} (hi : i < eShnum f.data 0) (hx : f.sht i ≤ x)
    (hlt : x < f.sht i + elfSectionSize) : ¬ f.Contents J x := by
  rintro ⟨j, hj, -, hle, hlt'⟩
  have hapart := hlayout.sections_content j hj
  unfold sht at *
  unfold Apart elfSectionSize at *
  omega

include hJ in
lemma Layout.content_not_contents {x : Nat} (hi : f.Stored i) (hout : ¬ J i) (hx : f.offset i ≤ x)
    (hlt : x < f.offset i + f.sectionSize i) : ¬ f.Contents J x := by
  rintro ⟨j, hj, hJj, hle, hlt'⟩
  have hji : j ≠ i := by
    rintro rfl
    exact hout hJj
  have hapart := hlayout.contents j i hj hi hji (hJ j hJj) (by omega) (by omega)
  unfold Apart at hapart
  omega

include hframe in
lemma Frame.phnum_contents : ePhnum g.data 0 = ePhnum f.data 0 :=
  hframe.readLE fun x _ hlt => hlayout.header_not_contents (by unfold elfHeaderSize; omega)

include hvalid hJ hframe in
lemma Frame.inPlace_contents : InPlace J f g := by
  have h := hvalid.header
  have hphnum := hframe.phnum_contents hlayout
  apply hframe.inPlace hvalid
  · exact fun x hx _ => hlayout.header_not_contents hx
  · rw [hphnum]
    exact h.phnum
  · have hphoff := h.phoff
    have hprograms := h.programs
    rw [hphnum]
    unfold elfProgramSize at *
    omega
  · exact fun i hi o ho _ => hlayout.section_not_contents hi (Nat.le_add_right _ _) (by omega)
  · exact fun i hi hout x hx hlt => hlayout.content_not_contents hJ hi hout hx hlt

end Contents

/-! ### Looking up sections -/

def sectionNamed (f : File) (name : List UInt8) (i : Nat) : Bool :=
  Elf.streq f.data (f.offset f.shstrndx + f.name i) name

def findSection (f : File) (name : List UInt8) : Nat :=
  let i := seek (f.sectionNamed name) (eShnum f.data 0) 0
  if i < eShnum f.data 0 then i else 0

lemma Carries.findSection (h : Carries J f g) (hvalid : f.Valid) (hJ : ¬ J f.shstrndx) {name : List UInt8}
    (hname : 0 ∉ name) : g.findSection name = f.findSection name := by
  have hseek : seek (g.sectionNamed name) (eShnum f.data 0) 0 = seek (f.sectionNamed name) (eShnum f.data 0) 0 := by
    apply seek_congr
    intro i _ hi
    have hlt : i < eShnum f.data 0 := by omega
    unfold sectionNamed
    rw [h.shstrndx, h.name i hlt]
    exact h.streq hvalid hvalid.names.lt hvalid.names.type hJ hname (hvalid.good i hlt).name
  unfold File.findSection
  rw [h.shnum, hseek]

end File

/-! ### The state of a run -/

namespace ElfInfo

variable {ei ei' : ElfInfo} {k : Nat} {J : Nat → Prop}

/-- The state of a run on a laid out image whose `.symtab` is section `k`. -/
structure Ready (ei : ElfInfo) (k : Nat) : Prop where
  valid : ei.toFile.Valid
  layout : ei.toFile.Layout
  pht : ei.pht.offset = ePhoff ei.data 0
  sht : ei.sht.offset = eShoff ei.data 0
  found : ei.toFile.findSection symtabName = k
  symtabAt : ei.toFile.SymtabAt k

lemma shdr_eq (hsht : ei.sht.offset = eShoff ei.data 0) (i : Nat) : ei.shdr i = ei.toFile.sht i := by
  unfold ElfInfo.shdr File.sht
  rw [hsht]

lemma Ready.shdr (h : Ready ei k) (i : Nat) : ei.shdr i = ei.toFile.sht i := shdr_eq h.sht i

lemma findSection_eq (hsht : ei.sht.offset = eShoff ei.data 0) (name : List UInt8) :
    ei.findSection name = ei.toFile.findSection name := by
  have hshdr : ei.shdr = ei.toFile.sht := by
    funext i
    exact shdr_eq hsht i
  unfold findSection File.findSection shstrtab
  rw [hshdr]
  rfl

lemma Ready.inPlace (h : Ready ei k) (hin : File.InPlace J ei.toFile ei'.toFile) (hvalid : ei'.toFile.Valid)
    (hphnum : ePhnum ei'.data 0 = ePhnum ei.data 0) (hpht : ei'.pht.offset = ei.pht.offset) (hsht : ei'.sht.offset = ei.sht.offset)
    (hJ : ¬ J ei.toFile.shstrndx) : Ready ei' k := by
  refine ⟨hvalid, hin.layout h.layout hphnum, ?_, ?_, ?_, hin.symtabAt h.symtabAt⟩
  · rw [hpht, h.pht]
    exact hin.phoff.symm
  · rw [hsht, h.sht]
    exact hin.shoff.symm
  · rw [hin.findSection h.valid hJ (by decide)]
    exact h.found

end ElfInfo

end Cs300Projects.WeensyOS.Elf
