import Cs300Projects.WeensyOS.BootLoad
import Cs300Projects.WeensyOS.ElfIdempotent

/-!
# What the kernel reads

When the boot loader has loaded the program header of the symbol table, the references that `mkchickadeesymtab` has filled
in are a faithful view of the table, if its strings are behind its symbols.
-/

namespace Cs300Projects.WeensyOS.Elf

open Bytes Loop Symtab Boot

namespace ElfInfo

variable {a m ei : ElfInfo} {f g : File} {i k l : Nat} {o : Options} {capacity : Nat} {mem : Nat → UInt8} {r : Symtabref}

/-! ### What the kernel reads -/

/-- The name of `sym` is a string in memory, inside the range of the reference, and is the one in the file. -/
def NameLoaded (g : File) (k : Nat) (r : Symtabref) (sym : Symbol) (mem : Nat → UInt8) : Prop :=
  let p := (r.strtab + sym.stName.toNat) % 2 ^ 64
  let q := g.offset (g.link k) + sym.stName.toNat
  ∃ n, r.sym ≤ p ∧ p + n < r.sym + r.size ∧ (∀ j, j < n → g.data (q + j) ≠ 0) ∧ g.data (q + n) = 0 ∧
    ∀ j, j ≤ n → mem (p + j) = g.data (q + j)

/-- The reference is a faithful view of the table in section `k` of `g`. -/
structure FaithfulView (g : File) (k : Nat) (r : Symtabref) (mem : Nat → UInt8) : Prop where
  range : r.sym + r.size ≤ 2 ^ 64
  nsym : r.nsym = g.sectionSize k / elfSymbolSize
  sym : ∀ j, j < r.nsym → symbolAt mem (r.sym + elfSymbolSize * j) = g.symbol k j ∧ elfSymbolSize * (j + 1) ≤ r.size
  name : ∀ j, j < r.nsym → NameLoaded g k r (g.symbol k j) mem

/-- There is a program header for the boot loader, and all references are faithful when it is loaded. -/
def Faithful (o : Options) (k l : Nat) (g : File) : Prop :=
  ∃ i, i < ePhnum g.data 0 ∧ pType g.data (g.pht i) = elfPtypeLoad ∧
    pVa g.data (g.pht i) % sectorsize = pOffset g.data (g.pht i) % sectorsize ∧
      ∀ mem, SegmentLoaded g.data mem i → ∀ sym, g.Reference k o.lsymtabName sym →
        (symtabrefAt g.data (g.referenceOffset sym)).sym = l ∧
          FaithfulView g k (symtabrefAt g.data (g.referenceOffset sym)) mem

lemma sub64_eq {x y : Nat} (h : y ≤ x) (hx : x < 2 ^ 64) : sub64 x y = x - y := by
  unfold sub64
  omega

/-- The strings are behind the symbols. -/
lemma Embedded.range (h : Embedded o k l g) (horder : g.offset k ≤ g.offset (k + 1)) :
    g.offset k + g.sectionSize k ≤ g.offset (k + 1) ∧
      g.tableSize k = g.offset (k + 1) + g.sectionSize (k + 1) - g.offset k ∧
      g.offset (k + 1) + g.sectionSize (k + 1) < 2 ^ 64 ∧ 0 < g.sectionSize (k + 1) := by
  have hk := h.symtabAt
  have hstrtab : g.Stored (k + 1) := File.stored_of_type hk.lt hk.strtab (by decide) (by decide)
  have hbounds := (h.valid.bounds hstrtab).2
  have hsize := g.size_lt
  have hpos := ((h.valid.good (k + 1) hk.lt).content.strtab hk.strtab).1
  have hapart := fun hfilled =>
    h.layout.contents k (k + 1) hk.stored hstrtab (Nat.ne_of_lt (Nat.lt_succ_self k)) (Or.inl hk.type) hfilled
      (Nat.pos_of_ne_zero hpos)
  unfold Apart at hapart
  refine ⟨by omega, ?_, by omega, by omega⟩
  unfold File.tableSize
  rw [Nat.mod_eq_of_lt (by omega), sub64_eq (by omega) (by omega)]

/-- A string in a table of strings ends inside it. -/
lemma string_ends (hvalid : g.Valid) (hi : i < eShnum g.data 0) (htype : g.type i = elfShtStrtab) {s : Nat}
    (hs : s < g.sectionSize i) : ∃ n, s + n < g.sectionSize i ∧ (∀ j, j < n → g.data (g.offset i + s + j) ≠ 0) ∧
      g.data (g.offset i + s + n) = 0 := by
  have hlast := ((hvalid.good i hi).content.strtab htype).2.2
  have hend : ∃ n, g.data (g.offset i + s + n) = 0 := by
    refine ⟨g.sectionSize i - 1 - s, ?_⟩
    rw [show g.offset i + s + (g.sectionSize i - 1 - s) = g.offset i + g.sectionSize i - 1 by omega]
    exact hlast
  refine ⟨Nat.find hend, ?_, fun j hj => Nat.find_min hend hj, Nat.find_spec hend⟩
  have hle : Nat.find hend ≤ g.sectionSize i - 1 - s := by
    apply Nat.find_min'
    rw [show g.offset i + s + (g.sectionSize i - 1 - s) = g.offset i + g.sectionSize i - 1 by omega]
    exact hlast
  omega

/-- When the range is in memory, what the references say is right. -/
lemma Embedded.faithfulView (h : Embedded o k l g) (horder : g.offset k ≤ g.offset (k + 1))
    (hrange : l + g.tableSize k ≤ 2 ^ 64) (hcount : g.sectionSize k / elfSymbolSize < 2 ^ 32)
    (hmem : ∀ x, x < g.tableSize k → mem (l + x) = g.data (g.offset k + x)) : FaithfulView g k (g.tableRef k l) mem := by
  obtain ⟨hbehind, hsize, hfits, hpos⟩ := h.range horder
  have hk := h.symtabAt
  have hlink : g.link k = k + 1 := hk.link
  have hnsym : g.symbolCount k = g.sectionSize k / elfSymbolSize := Nat.mod_eq_of_lt hcount
  have hentries := g.symbolCount_le k
  have hdist : sub64 (g.offset (k + 1)) (g.offset k) = g.offset (k + 1) - g.offset k := sub64_eq horder (by omega)
  constructor
  case range => exact hrange
  case nsym => exact hnsym
  case sym =>
    intro j hj
    have hj' : elfSymbolSize * (j + 1) ≤ elfSymbolSize * g.symbolCount k := Nat.mul_le_mul_left _ hj
    rw [Nat.mul_succ] at hj'
    constructor
    · apply File.symbolAt_shift
      intro x hx
      have hbyte := hmem (elfSymbolSize * j + x) (by omega)
      rwa [← Nat.add_assoc, ← Nat.add_assoc] at hbyte
    · change elfSymbolSize * (j + 1) ≤ g.tableSize k
      rw [Nat.mul_succ]
      omega
  case name =>
    intro j hj
    have hname := h.valid.stName_lt hk (File.mem_symbols.2 ⟨j, hj, rfl⟩)
    rw [hlink] at hname
    obtain ⟨n, hn, hbefore, hzero⟩ := string_ends h.valid hk.lt hk.strtab hname
    unfold NameLoaded
    simp only
    generalize (g.symbol k j).stName.toNat = s at *
    have hp : ((g.tableRef k l).strtab + s) % 2 ^ 64 = l + (g.offset (k + 1) - g.offset k + s) := by
      change ((l + sub64 (g.offset (k + 1)) (g.offset k)) % 2 ^ 64 + s) % 2 ^ 64 = _
      rw [hdist]
      omega
    have hsym : (g.tableRef k l).sym = l := rfl
    have hend : (g.tableRef k l).size = g.tableSize k := rfl
    rw [hp, hlink, hsym, hend]
    refine ⟨n, Nat.le_add_right _ _, by omega, hbefore, hzero, ?_⟩
    intro y hy
    have hplace : g.offset (k + 1) + s + y = g.offset k + (g.offset (k + 1) - g.offset k + s + y) := by omega
    rw [hplace, Nat.add_assoc l]
    exact hmem _ (by omega)

/-! ### The program header of the output -/

lemma exists_loaded (f : Nat → UInt8) (i : Nat) : ∃ mem, SegmentLoaded f mem i := by
  refine ⟨fun x => if x - pVa f (phAt f i) < pFilesz f (phAt f i)
    then f (pOffset f (phAt f i) + (x - pVa f (phAt f i))) else 0, ?_, ?_⟩
  · intro x hx
    simp only [Nat.add_sub_cancel_left]
    rw [if_pos hx]
  · intro x hx _
    simp only [Nat.add_sub_cancel_left]
    rw [if_neg (Nat.not_lt.2 hx)]

/-- The strings are behind the symbols, there are fewer than 2³² symbols, the range has addresses, and a header can be
added if it has to be. -/
structure TableFits (f : File) (k l : Nat) : Prop where
  order : f.offset k ≤ f.offset (k + 1)
  count : f.sectionSize k / elfSymbolSize < 2 ^ 32
  range : l + f.alignedSize k ≤ 2 ^ 64
  added : ¬ f.HasProgram l (f.offset k) (f.alignedSize k) → ePhnum f.data 0 + 1 < 2 ^ 16

/-- A header that is there already is a loadable one. -/
def FoundLoadable (f : File) (k l : Nat) : Prop :=
  f.HasProgram l (f.offset k) (f.alignedSize k) → pType f.data (f.pht (f.findProgram l)) = elfPtypeLoad

/-- A loadable header has the range of the table loaded at `l`. -/
structure TableProgram (g : File) (k l i : Nat) : Prop where
  lt : i < ePhnum g.data 0
  type : pType g.data (g.pht i) = elfPtypeLoad
  va : pVa g.data (g.pht i) = l
  offset : pOffset g.data (g.pht i) = g.offset k
  filesz : g.tableSize k ≤ pFilesz g.data (g.pht i)

lemma Embedded.faithful (h : Embedded o k l g) (hi : TableProgram g k l i) (horder : g.offset k ≤ g.offset (k + 1))
    (hrange : l + g.tableSize k ≤ 2 ^ 64) (hcount : g.sectionSize k / elfSymbolSize < 2 ^ 32) (hl : l % sectorsize = 0) :
    Faithful o k l g := by
  have haligned := h.aligned
  refine ⟨i, hi.lt, hi.type, ?_, ?_⟩
  · rw [hi.va, hi.offset, hl]
    unfold sectorsize
    omega
  · intro mem hloaded sym href
    rw [h.filled.object sym href]
    refine ⟨rfl, h.faithfulView horder hrange hcount fun x hx => ?_⟩
    have hbyte := hloaded.1 x (Nat.lt_of_lt_of_le hx hi.filesz)
    rw [show phAt g.data i = g.pht i from rfl, hi.va, hi.offset] at hbyte
    exact hbyte

/-- What a faithful view needs. -/
lemma Embedded.fits_of_faithful (h : Embedded o k l g) (hfaithful : Faithful o k l g) {sym : Symbol}
    (href : g.Reference k o.lsymtabName sym) (hlow : g.offset k ≤ l) :
    g.offset k ≤ g.offset (k + 1) ∧ g.sectionSize k / elfSymbolSize < 2 ^ 32 ∧ l + g.tableSize k ≤ 2 ^ 64 := by
  obtain ⟨i, -, -, -, hview⟩ := hfaithful
  obtain ⟨mem, hloaded⟩ := exists_loaded g.data i
  obtain ⟨-, hrange, hnsym, -, hname⟩ := hview mem hloaded sym href
  obtain ⟨j, hj, -⟩ := File.mem_symbols.1 href.mem
  rw [h.filled.object sym href] at hrange hnsym hname
  have hcount : g.symbolCount k = g.sectionSize k / elfSymbolSize := hnsym
  refine ⟨?_, ?_, hrange⟩
  · by_contra horder
    have hk := h.symtabAt
    have hstrtab : g.Stored (k + 1) := File.stored_of_type hk.lt hk.strtab (by decide) (by decide)
    have hpos := ((h.valid.good (k + 1) hk.lt).content.strtab hk.strtab).1
    have hcounted := g.symbolCount_le k
    have hfilled : 0 < g.sectionSize k := by
      unfold elfSymbolSize at hcounted
      omega
    have hapart := h.layout.contents k (k + 1) hk.stored hstrtab (Nat.ne_of_lt (Nat.lt_succ_self k)) (Or.inl hk.type) hfilled
      (Nat.pos_of_ne_zero hpos)
    have hoffset : g.offset k < 2 ^ 64 := readLE_lt g.data _ 8
    have hstName := h.valid.stName_lt hk (File.mem_symbols.2 ⟨j, hj, rfl⟩)
    have hlink : g.link k = k + 1 := hk.link
    rw [hlink] at hstName
    obtain ⟨n, hle, -⟩ := hname j hj
    -- the name is below the range
    have hstrtab' : (g.tableRef k l).strtab = (l + sub64 (g.offset (k + 1)) (g.offset k)) % 2 ^ 64 := rfl
    have hsym : (g.tableRef k l).sym = l := rfl
    rw [hstrtab', hsym] at hle
    unfold sub64 at hle
    unfold Apart at hapart
    generalize (g.symbol k j).stName.toNat = s at *
    have hfits : l < 2 ^ 64 := by
      rw [← h.loadAddress]
      exact loadAddress_lt g k _ _
    omega
  · rw [← hcount]
    exact Nat.mod_lt _ (by decide)

section RunOn

variable (h : RunOn o f k l a m ei) (hfile : f.size < 2 ^ 63) (hl : l ≠ 0) (hl64 : l < 2 ^ 64)
include h

/-- If the strings are behind the symbols, they are so in the output. -/
lemma RunOn.order_iff : m.toFile.offset k ≤ m.toFile.offset (k + 1) ↔ f.offset k ≤ f.offset (k + 1) := by
  have hk := h.symtabAt
  have hstrtab : f.Stored (k + 1) := File.stored_of_type hk.lt hk.strtab (by decide) (by decide)
  rw [h.prepared.same.offset, h.prepared.same.strtab, h.aligned.offset_symtab hk, h.aligned.offset (k + 1) hstrtab]
  unfold moved
  split
  · omega
  · omega

lemma RunOn.sectionSize : m.toFile.sectionSize k = f.sectionSize k :=
  h.prepared.same.sectionSize.trans (h.aligned.carries.sectionSize k (Nat.lt_of_succ_lt h.symtabAt.lt))

include hfile hl hl64

/-- What is embedded stays when a header is added. -/
lemma RunOn.output (hcount : ¬ f.HasProgram l (f.offset k) (f.alignedSize k) → ePhnum f.data 0 + 1 < 2 ^ 16) :
    Embedded o k l ei.toFile ∧ File.SameSymtab m.toFile ei.toFile k o.lsymtabName := by
  rcases h.program_cases hfile hl hl64 with ⟨-, rfl⟩ | ⟨hnone, -, hinserted⟩
  · exact ⟨h.embedded, .refl _ _ _⟩
  · exact (hinserted (hcount hnone)).embedded h.prepared.indexed h.embedded

lemma RunOn.tableProgram (hcount : ¬ f.HasProgram l (f.offset k) (f.alignedSize k) → ePhnum f.data 0 + 1 < 2 ^ 16)
    (hfound : FoundLoadable f k l) : ∃ i, TableProgram ei.toFile k l i := by
  rcases h.program_cases hfile hl hl64 with ⟨hhas, rfl⟩ | ⟨hnone, -, hinserted⟩
  · obtain ⟨hlt, hva, hoffset, hfilesz⟩ := h.hasProgram_iff.2 hhas
    refine ⟨_, hlt, ?_, hva, hoffset, hfilesz⟩
    have ha := h.aligned
    have hfind : ei.toFile.findProgram l = f.findProgram l := (h.prepared.programs.findProgram l).trans (ha.findProgram l)
    have hsame := h.prepared.programs.program (f.findProgram l) (ha.phnum.symm ▸ hhas.lt)
    rw [hfind, hsame.type, ha.type hhas.lt]
    exact hfound hhas
  · have hins := hinserted (hcount hnone)
    have hsame := (hins.embedded h.prepared.indexed h.embedded).2
    have hle := m.toFile.findProgram_le (l := l)
    refine ⟨m.toFile.findProgram l, ?_, hins.program.type, hins.program.va, ?_, ?_⟩
    · rw [hins.program.phnum]
      omega
    · rw [hsame.offset]
      exact hins.program.offset
    · rw [hsame.tableSize]
      exact Nat.le_of_eq hins.program.filesz.symm

end RunOn

/-- The output of a run is a faithful image if the table fits and a header that is there already is a loadable one; an
image with references is faithful only if the table fits. -/
theorem mkchickadeesymtab_faithful (hregular : Regular o f) (hrun : mkchickadeesymtab o capacity f = some ei)
    (hl : symtabAddr o f ≠ 0) (hsector : symtabAddr o f % sectorsize = 0) :
    (TableFits f (f.findSection symtabName) (symtabAddr o f) ∧ FoundLoadable f (f.findSection symtabName) (symtabAddr o f) →
      Faithful o (f.findSection symtabName) (symtabAddr o f) ei.toFile) ∧
    ((∃ sym, f.Reference (f.findSection symtabName) o.lsymtabName sym) →
      f.offset (f.findSection symtabName) + f.padding (f.findSection symtabName) ≤ symtabAddr o f →
      Faithful o (f.findSection symtabName) (symtabAddr o f) ei.toFile →
        TableFits f (f.findSection symtabName) (symtabAddr o f)) := by
  obtain ⟨a, m, h⟩ := hregular.run hrun
  have hl64 := symtabAddr_lt o f
  generalize symtabAddr o f = l at *
  generalize f.findSection symtabName = k at *
  have hfile := hregular.size
  constructor
  · rintro ⟨⟨horder, hcount, hrange, hadded⟩, hfound⟩
    obtain ⟨hembedded, hsame⟩ := h.output hfile hl hl64 hadded
    obtain ⟨i, hi⟩ := h.tableProgram hfile hl hl64 hadded hfound
    apply hembedded.faithful hi ?_ ?_ ?_ hsector
    · rw [hsame.offset, hsame.strtab]
      exact h.order_iff.2 horder
    · rw [hsame.tableSize, h.tableSize]
      exact hrange
    · rw [hsame.sectionSize, h.sectionSize]
      exact hcount
  · rintro ⟨sym, href⟩ hlow hfaithful
    have hadded : ¬ f.HasProgram l (f.offset k) (f.alignedSize k) → ePhnum f.data 0 + 1 < 2 ^ 16 := by
      intro hnone
      by_contra hcount
      obtain ⟨i, hi, -⟩ := hfaithful
      rcases h.program_cases hfile hl hl64 with ⟨hhas, -⟩ | ⟨-, hphnum, -⟩
      · exact hnone hhas
      · have hlt : ePhnum f.data 0 < 2 ^ 16 := readLE_lt f.data _ 2
        omega
    obtain ⟨hembedded, hsame⟩ := h.output hfile hl hl64 hadded
    have hk := h.symtabAt
    have hsymbols := h.aligned.carries.symbols hk id
    have href' : ei.toFile.Reference k o.lsymtabName sym := by
      rw [hsame.references, h.prepared.same.references]
      exact (h.aligned.carries.reference h.valid hk id o.nul (fun sym => by rw [hsymbols]) sym).2 href
    have hbelow : ei.toFile.offset k ≤ l := by
      rw [hsame.offset, h.prepared.same.offset, h.aligned.offset_symtab hk]
      exact hlow
    obtain ⟨horder, hcount, hrange⟩ := hembedded.fits_of_faithful hfaithful href' hbelow
    rw [hsame.offset, hsame.strtab, h.order_iff] at horder
    rw [hsame.sectionSize, h.sectionSize] at hcount
    rw [hsame.tableSize, h.tableSize] at hrange
    exact ⟨horder, hcount, hrange, hadded⟩

/-- The names are behind the symbols. -/
theorem mkchickadeesymtab_faithful_sample : ∃ ei, mkchickadeesymtab symtabOptions 0 (symtabFile 0x1030) = some ei ∧
    Faithful symtabOptions 2 0x100000 ei.toFile := by
  have hsome : (mkchickadeesymtab symtabOptions 0 (symtabFile 0x1030)).isSome = true := by decide +kernel
  have hfound : (symtabFile 0x1030).findSection symtabName = 2 := by decide +kernel
  have haddr : symtabAddr symtabOptions (symtabFile 0x1030) = 0x100000 := by decide +kernel
  have hnone : ¬ (symtabFile 0x1030).findProgram 0x100000 < ePhnum (symtabFile 0x1030).data 0 := by decide +kernel
  obtain ⟨ei, hrun⟩ := Option.isSome_iff_exists.1 hsome
  have hfaithful := (mkchickadeesymtab_faithful symtabFile_regular hrun (by decide +kernel) (by decide +kernel)).1
  rw [hfound, haddr] at hfaithful
  refine ⟨ei, hrun, hfaithful ⟨⟨by decide +kernel, by decide +kernel, by decide +kernel, fun _ => by decide +kernel⟩, ?_⟩⟩
  exact fun hhas => absurd hhas.lt hnone

/-- The names end where the symbols start: the range is empty, and the first symbol is not in it. -/
theorem mkchickadeesymtab_not_faithful : ∃ ei, mkchickadeesymtab symtabOptions 0 (symtabFile 0xFF8) = some ei ∧
    ¬ Faithful symtabOptions 2 0x100000 ei.toFile := by
  have hview : (mkchickadeesymtab symtabOptions 0 (symtabFile 0xFF8)).map (fun ei =>
      let sym := ei.toFile.symbol 2 1
      let r := symtabrefAt ei.data (ei.toFile.referenceOffset sym)
      (decide (ei.toFile.IsReference 2 symtabOptions.lsymtabName sym), ei.toFile.symbolCount 2, r.nsym, r.size)) =
        some (true, 2, 2, 0) := by decide +kernel
  obtain ⟨ei, hrun, hvalues⟩ := Option.map_eq_some_iff.1 hview
  simp only [Prod.mk.injEq, decide_eq_true_eq] at hvalues
  obtain ⟨href, hcount, hnsym, hsize⟩ := hvalues
  refine ⟨ei, hrun, ?_⟩
  rintro ⟨i, -, -, -, hfaithful⟩
  obtain ⟨mem, hloaded⟩ := exists_loaded ei.data i
  have hmem : ei.toFile.symbol 2 1 ∈ ei.toFile.symbols 2 := File.mem_symbols.2 ⟨1, by omega, rfl⟩
  have hsym := (hfaithful mem hloaded _ ⟨href, hmem⟩).2.sym 0 (by omega)
  unfold elfSymbolSize at hsym
  omega

end ElfInfo

end Cs300Projects.WeensyOS.Elf
