import Mathlib.Data.List.Find
import Cs300Projects.WeensyOS.ElfFrame
import Cs300Projects.WeensyOS.ElfRewrite

/-!
# The references of an image

The objects that `rewrite_symtabref` fills in and the address that it gives them, read off the file. An image that carries
the sections of another one has the same references.
-/

namespace Cs300Projects.WeensyOS.Elf

open Bytes Loop Symtab

namespace File

variable (f : File) (k : Nat) (name : List UInt8)

/-- The number of entries of the symbol table in section `k` that fits into `nsymtab_`. -/
def symbolCount : Nat := f.sectionSize k / elfSymbolSize % 2 ^ 32

def symbol (j : Nat) : Symbol := symbolAt f.data (f.offset k + elfSymbolSize * j)

def symbols : List Symbol := (List.range (f.symbolCount k)).map (f.symbol k)

/-- The name of the symbol, in the strings of the table. -/
def Named (sym : Symbol) : Prop := streq f.data (f.offset (f.link k) + sym.stName.toNat) name = true

/-- The symbol is one that the loop considers: an object in a section. -/
structure IsReference (sym : Symbol) : Prop where
  named : f.Named k name sym
  object : sym.stInfo &&& elfSttMask = elfSttObject
  inSection : sym.stShndx.toNat < eShnum f.data 0

instance (sym : Symbol) : Decidable (f.IsReference k name sym) :=
  decidable_of_iff ((streq f.data (f.offset (f.link k) + sym.stName.toNat) name = true) ∧
      sym.stInfo &&& elfSttMask = elfSttObject ∧ sym.stShndx.toNat < eShnum f.data 0)
    ⟨fun ⟨hnamed, hobject, hin⟩ => ⟨hnamed, hobject, hin⟩, fun h => ⟨h.named, h.object, h.inSection⟩⟩

/-- A reference of the table. -/
structure Reference (sym : Symbol) : Prop extends f.IsReference k name sym where
  mem : sym ∈ f.symbols k

/-- Where the object is in the file. -/
def referenceOffset (sym : Symbol) : Nat :=
  (f.offset sym.stShndx.toNat + (sym.stValue.toNat - f.addr sym.stShndx.toNat)) % 2 ^ 64

/-- Neither the size nor the address of the object is reported as an error. -/
structure Accepts (sym : Symbol) : Prop where
  size : sym.stSize.toNat = symtabrefSize
  type : f.type sym.stShndx.toNat = elfShtProgbits
  start : f.addr sym.stShndx.toNat ≤ sym.stValue.toNat
  last : sym.stValue.toNat <
    sub64 ((f.addr sym.stShndx.toNat + f.sectionSize sym.stShndx.toNat) % 2 ^ 64) symtabrefSize

instance (sym : Symbol) : Decidable (f.Accepts sym) :=
  decidable_of_iff (sym.stSize.toNat = symtabrefSize ∧ f.type sym.stShndx.toNat = elfShtProgbits ∧
      f.addr sym.stShndx.toNat ≤ sym.stValue.toNat ∧ sym.stValue.toNat <
        sub64 ((f.addr sym.stShndx.toNat + f.sectionSize sym.stShndx.toNat) % 2 ^ 64) symtabrefSize)
    ⟨fun ⟨hsize, htype, hstart, hlast⟩ => ⟨hsize, htype, hstart, hlast⟩, fun h => ⟨h.size, h.type, h.start, h.last⟩⟩

/-- The first reference of the table that is accepted. -/
def firstReference : Option Symbol := (f.symbols k).find? fun sym => decide (f.IsReference k name sym ∧ f.Accepts sym)

/-- The address that the references get: the given one, or the one that the first of them has. -/
def loadAddress (loadaddr : Nat) : Nat :=
  if loadaddr = 0 then
    match f.firstReference k name with
    | some sym => readLE f.data (f.referenceOffset sym) 8
    | none => 0
  else loadaddr

/-- The references are in sections that end at an address from 32 on, and no two of them overlap. -/
structure PlacedReferences : Prop where
  low : ∀ sym, f.Reference k name sym → f.Accepts sym →
    symtabrefSize ≤ f.addr sym.stShndx.toNat + f.sectionSize sym.stShndx.toNat
  apart : ∀ sym sym', f.Reference k name sym → f.Reference k name sym' → sym.stShndx = sym'.stShndx →
    sym.stValue = sym'.stValue ∨ Apart sym.stValue.toNat symtabrefSize sym'.stValue.toNat symtabrefSize

/-- If the references get no address, none has one. -/
structure PlainReferences (loadaddr : Nat) : Prop extends f.PlacedReferences k name where
  word : f.loadAddress k name loadaddr = 0 → ∀ sym, f.Reference k name sym → f.Accepts sym →
    readLE f.data (f.referenceOffset sym) 8 = 0

/-- All references have the value `x`. -/
structure FilledReferences (x : Symtabref) : Prop extends f.PlacedReferences k name where
  accepted : ∀ sym, f.Reference k name sym → f.Accepts sym
  object : ∀ sym, f.Reference k name sym → symtabrefAt f.data (f.referenceOffset sym) = x

section

variable {f k name} {sym sym' : Symbol} {g : File}

lemma symbolCount_le (f : File) (k : Nat) : elfSymbolSize * f.symbolCount k ≤ f.sectionSize k :=
  (Nat.mul_le_mul_left _ (Nat.mod_le _ _)).trans (Nat.mul_div_le _ _)

lemma mem_symbols : sym ∈ f.symbols k ↔ ∃ j, j < f.symbolCount k ∧ f.symbol k j = sym := by
  simp [symbols]

lemma loadAddress_given {loadaddr : Nat} (h : loadaddr ≠ 0) : f.loadAddress k name loadaddr = loadaddr :=
  if_neg h

lemma loadAddress_unreferenced {loadaddr : Nat} (h : ∀ sym, ¬ f.Reference k name sym) :
    f.loadAddress k name loadaddr = loadaddr := by
  by_cases hzero : loadaddr = 0
  · have hnone : f.firstReference k name = none := by
      apply List.find?_eq_none.2
      intro sym hmem href
      exact h sym ⟨(of_decide_eq_true href).1, hmem⟩
    rw [loadAddress, if_pos hzero, hnone, hzero]
  · exact loadAddress_given hzero

lemma firstReference_eq {j : Nat} (hj : j < f.symbolCount k) (href : f.IsReference k name (f.symbol k j))
    (haccepts : f.Accepts (f.symbol k j)) (hbefore : ∀ i, i < j → ¬ f.IsReference k name (f.symbol k i)) :
    f.firstReference k name = some (f.symbol k j) := by
  unfold firstReference symbols
  rw [List.find?_map, Option.map_eq_some_iff]
  refine ⟨j, List.find?_range_eq_some.2 ⟨?_, List.mem_range.2 hj, ?_⟩, rfl⟩
  · exact decide_eq_true ⟨href, haccepts⟩
  · intro i hi
    simpa using Or.inl (hbefore i hi)

lemma mem_of_firstReference (h : f.firstReference k name = some sym) : f.Reference k name sym ∧ f.Accepts sym := by
  have hsym := of_decide_eq_true (List.find?_some (p := fun sym => decide (f.IsReference k name sym ∧ f.Accepts sym)) h)
  exact ⟨⟨hsym.1, List.mem_of_find?_eq_some h⟩, hsym.2⟩

/-- An accepted object is inside its section. -/
lemma Accepts.inside (h : f.Accepts sym) (hlow : symtabrefSize ≤ f.addr sym.stShndx.toNat + f.sectionSize sym.stShndx.toNat) :
    sym.stValue.toNat + symtabrefSize ≤ f.addr sym.stShndx.toNat + f.sectionSize sym.stShndx.toNat := by
  have hstart := h.start
  have hlast := h.last
  have hsize : f.sectionSize sym.stShndx.toNat < 2 ^ 64 := readLE_lt f.data _ 8
  unfold sub64 symtabrefSize at *
  omega

lemma Accepts.stored (h : f.Accepts sym) (hlt : sym.stShndx.toNat < eShnum f.data 0) : f.Stored sym.stShndx.toNat :=
  stored_of_type hlt h.type (by decide) (by decide)

/-- The object is in the contents of its section. -/
lemma Accepts.offset_eq (h : f.Accepts sym) (hvalid : f.Valid) (hlt : sym.stShndx.toNat < eShnum f.data 0)
    (hlow : symtabrefSize ≤ f.addr sym.stShndx.toNat + f.sectionSize sym.stShndx.toNat) :
    f.referenceOffset sym = f.offset sym.stShndx.toNat + (sym.stValue.toNat - f.addr sym.stShndx.toNat) ∧
      sym.stValue.toNat - f.addr sym.stShndx.toNat + symtabrefSize ≤ f.sectionSize sym.stShndx.toNat := by
  have hbounds := (hvalid.bounds (h.stored hlt)).2
  have hinside := h.inside hlow
  have hstart := h.start
  have hfile := f.size_lt
  refine ⟨Nat.mod_eq_of_lt ?_, by omega⟩
  unfold symtabrefSize at hinside
  omega

/-! ### Images with the same sections -/

section Carries

variable {J : Nat → Prop}

lemma symbol_stName (f : File) (k j : Nat) :
    (f.symbol k j).stName.toNat = stName f.data (f.offset k + elfSymbolSize * j) := by
  have hbound : stName f.data (f.offset k + elfSymbolSize * j) < UInt32.size := readLE_lt f.data _ 4
  exact UInt32.toNat_ofNat_of_lt' hbound

/-- The name of an entry is in the table of strings. -/
lemma Valid.stName_lt (hvalid : f.Valid) (hk : f.SymtabAt k) (hsym : sym ∈ f.symbols k) :
    sym.stName.toNat < f.sectionSize (f.link k) := by
  obtain ⟨j, hj, rfl⟩ := mem_symbols.1 hsym
  have hlt := Nat.lt_of_succ_lt hk.lt
  have hcount : j < f.sectionSize k / elfSymbolSize := Nat.lt_of_lt_of_le hj (Nat.mod_le _ _)
  have hname := ((hvalid.good k hlt).content.symtab hk.type).2.2 j hcount
  rw [symbol_stName]
  exact hname

lemma symbolAt_shift {m m' : Nat → UInt8} {a b : Nat} (h : ∀ x, x < elfSymbolSize → m' (b + x) = m (a + x)) :
    symbolAt m' b = symbolAt m a := by
  have hfield : ∀ o n, o + n ≤ elfSymbolSize → Bytes.readLE m' (b + o) n = Bytes.readLE m (a + o) n := by
    intro o n ho
    apply readLE_shift
    intro x hx
    rw [Nat.add_assoc, Nat.add_assoc]
    exact h (o + x) (by omega)
  unfold symbolAt stName
  rw [hfield 0x06 2 (by decide), hfield 0x08 8 (by decide), hfield 0x10 8 (by decide), h 0x04 (by decide), h 0x05 (by decide),
    show Bytes.readLE m' b 4 = Bytes.readLE m a 4 from hfield 0 4 (by decide)]

lemma Carries.symbolCount (h : Carries J f g) (hk : f.SymtabAt k) : g.symbolCount k = f.symbolCount k := by
  unfold File.symbolCount
  rw [h.sectionSize k (Nat.lt_of_succ_lt hk.lt)]

lemma Carries.symbol (h : Carries J f g) (hk : f.SymtabAt k) (hJ : ¬ J k) {j : Nat} (hj : j < f.symbolCount k) :
    g.symbol k j = f.symbol k j := by
  have hsize := f.symbolCount_le k
  refine symbolAt_shift fun x hx => ?_
  rw [Nat.add_assoc, Nat.add_assoc]
  apply h.content k hk.stored hJ
  unfold elfSymbolSize at *
  omega

lemma Carries.symbols (h : Carries J f g) (hk : f.SymtabAt k) (hJ : ¬ J k) : g.symbols k = f.symbols k := by
  unfold File.symbols
  rw [h.symbolCount hk]
  exact List.map_congr_left fun j hj => h.symbol hk hJ (List.mem_range.1 hj)

lemma Carries.named (h : Carries J f g) (hvalid : f.Valid) (hk : f.SymtabAt k) (hJ : ¬ J (k + 1)) (hname : 0 ∉ name)
    (hsym : sym.stName.toNat < f.sectionSize (f.link k)) : g.Named k name sym ↔ f.Named k name sym := by
  have hlink : f.link k = k + 1 := hk.link
  unfold Named
  rw [h.link k (Nat.lt_of_succ_lt hk.lt), hlink, h.streq hvalid hk.lt hk.strtab hJ hname (hlink ▸ hsym)]

lemma Carries.isReference (h : Carries J f g) (hvalid : f.Valid) (hk : f.SymtabAt k) (hJ : ¬ J (k + 1)) (hname : 0 ∉ name)
    (hsym : sym.stName.toNat < f.sectionSize (f.link k)) : g.IsReference k name sym ↔ f.IsReference k name sym := by
  have hnamed := h.named hvalid hk hJ hname hsym
  constructor
  · rintro ⟨hn, hobject, hlt⟩
    exact ⟨hnamed.1 hn, hobject, h.shnum ▸ hlt⟩
  · rintro ⟨hn, hobject, hlt⟩
    exact ⟨hnamed.2 hn, hobject, h.shnum.symm ▸ hlt⟩

/-- The references are those of the other image, if the symbols are. -/
lemma Carries.reference (h : Carries J f g) (hvalid : f.Valid) (hk : f.SymtabAt k) (hJ : ¬ J (k + 1)) (hname : 0 ∉ name)
    (hmem : ∀ sym, sym ∈ g.symbols k ↔ sym ∈ f.symbols k) (sym : Symbol) :
    g.Reference k name sym ↔ f.Reference k name sym := by
  constructor
  · rintro ⟨href, hsym⟩
    have hsym' := (hmem sym).1 hsym
    exact ⟨(h.isReference hvalid hk hJ hname (hvalid.stName_lt hk hsym')).1 href, hsym'⟩
  · rintro ⟨href, hsym⟩
    exact ⟨(h.isReference hvalid hk hJ hname (hvalid.stName_lt hk hsym)).2 href, (hmem sym).2 hsym⟩

lemma Carries.accepts (h : Carries J f g) (hlt : sym.stShndx.toNat < eShnum f.data 0) : g.Accepts sym ↔ f.Accepts sym := by
  have htype := h.type _ hlt
  have hsize := h.sectionSize _ hlt
  constructor
  · rintro ⟨hstSize, htype', hstart, hlast⟩
    have haddr := h.addr _ hlt (htype ▸ htype')
    rw [haddr] at hstart
    rw [haddr, hsize] at hlast
    exact ⟨hstSize, htype ▸ htype', hstart, hlast⟩
  · rintro ⟨hstSize, htype', hstart, hlast⟩
    have haddr := h.addr _ hlt htype'
    rw [← haddr] at hstart
    rw [← haddr, ← hsize] at hlast
    exact ⟨hstSize, htype.trans htype', hstart, hlast⟩

/-- The bytes of an accepted object are carried over. -/
lemma Carries.referenceBytes (h : Carries J f g) (hvalid : f.Valid) (hvalid' : g.Valid) (haccepts : f.Accepts sym)
    (hlt : sym.stShndx.toNat < eShnum f.data 0)
    (hlow : symtabrefSize ≤ f.addr sym.stShndx.toNat + f.sectionSize sym.stShndx.toNat)
    (hJ : ¬ J sym.stShndx.toNat) {x : Nat} (hx : x < symtabrefSize) :
    g.data (g.referenceOffset sym + x) = f.data (f.referenceOffset sym + x) := by
  have haddr := h.addr _ hlt haccepts.type
  have hsize := h.sectionSize _ hlt
  obtain ⟨hoffset, hinside⟩ := haccepts.offset_eq hvalid hlt hlow
  obtain ⟨hoffset', -⟩ :=
    ((h.accepts hlt).2 haccepts).offset_eq hvalid' (h.shnum.symm ▸ hlt) (by rw [haddr, hsize]; exact hlow)
  rw [hoffset, hoffset', haddr, Nat.add_assoc, Nat.add_assoc]
  exact h.content _ (haccepts.stored hlt) hJ _ (by omega)

/-! ### Images with the same references -/

lemma symtabrefAt_shift {m m' : Nat → UInt8} {a b : Nat} (h : ∀ o, o < symtabrefSize → m' (b + o) = m (a + o)) :
    symtabrefAt m' b = symtabrefAt m a := by
  have hword : ∀ o, o + 8 ≤ symtabrefSize → Bytes.readLE m' (b + o) 8 = Bytes.readLE m (a + o) 8 := by
    intro o ho
    apply readLE_shift
    intro x hx
    rw [Nat.add_assoc, Nat.add_assoc]
    exact h (o + x) (by omega)
  unfold symtabrefAt
  rw [show Bytes.readLE m' b 8 = Bytes.readLE m a 8 from hword 0 (by decide), hword 0x08 (by decide),
    hword 0x10 (by decide), hword 0x18 (by decide)]

lemma Carries.placedReferences (h : Carries J f g) (hvalid : f.Valid) (hk : f.SymtabAt k) (hname : 0 ∉ name)
    (hJ : ¬ J (k + 1)) (hplaced : f.PlacedReferences k name) (hmem : ∀ sym, sym ∈ g.symbols k ↔ sym ∈ f.symbols k) :
    (∀ sym, g.Reference k name sym ↔ f.Reference k name sym) ∧ g.PlacedReferences k name := by
  have href := h.reference hvalid hk hJ hname hmem
  refine ⟨href, ?_, ?_⟩
  · intro sym hsym haccepts
    have hsym' := (href sym).1 hsym
    have haccepts' := (h.accepts hsym'.inSection).1 haccepts
    rw [h.addr _ hsym'.inSection haccepts'.type, h.sectionSize _ hsym'.inSection]
    exact hplaced.low sym hsym' haccepts'
  · intro sym sym' hsym hsym'
    exact hplaced.apart sym sym' ((href sym).1 hsym) ((href sym').1 hsym')

lemma SymtabAt.not_strtab (hk : f.SymtabAt k) (hJ : ∀ i, f.type i ≠ elfShtSymtab → ¬ J i) : ¬ J (k + 1) := by
  refine hJ _ ?_
  rw [hk.strtab]
  decide

section

variable {loadaddr : Nat} {x : Symtabref} (h : Carries J f g) (hvalid : f.Valid) (hvalid' : g.Valid) (hk : f.SymtabAt k)
  (hname : 0 ∉ name) (hJ : ∀ i, f.type i ≠ elfShtSymtab → ¬ J i) (hplaced : f.PlacedReferences k name)
include h hvalid hvalid' hJ hplaced

/-- The objects are the same. -/
lemma Carries.objectBytes (href : f.Reference k name sym) (haccepts : f.Accepts sym) {o : Nat} (ho : o < symtabrefSize) :
    g.data (g.referenceOffset sym + o) = f.data (f.referenceOffset sym + o) := by
  refine h.referenceBytes hvalid hvalid' haccepts href.inSection (hplaced.low sym href haccepts) (hJ _ ?_) ho
  rw [haccepts.type]
  decide

lemma Carries.objectWord (href : f.Reference k name sym) (haccepts : f.Accepts sym) :
    Bytes.readLE g.data (g.referenceOffset sym) 8 = Bytes.readLE f.data (f.referenceOffset sym) 8 := by
  apply readLE_shift
  intro o ho
  exact h.objectBytes hvalid hvalid' hJ hplaced href haccepts (by unfold symtabrefSize; omega)

include hk hname

/-- If the symbols are in the same order, the references get the same address. -/
lemma Carries.loadAddress (hsymbols : g.symbols k = f.symbols k) :
    g.loadAddress k name loadaddr = f.loadAddress k name loadaddr := by
  have hfirst : g.firstReference k name = f.firstReference k name := by
    unfold firstReference
    rw [hsymbols]
    apply List.find?_congr
    intro sym hmem
    have hsame := h.isReference hvalid hk (hk.not_strtab hJ) hname (hvalid.stName_lt hk hmem)
    apply decide_eq_decide.2
    constructor
    · rintro ⟨href, haccepts⟩
      have href' := hsame.1 href
      exact ⟨href', (h.accepts href'.inSection).1 haccepts⟩
    · rintro ⟨href, haccepts⟩
      exact ⟨hsame.2 href, (h.accepts href.inSection).2 haccepts⟩
  unfold File.loadAddress
  rw [hfirst]
  split
  · split
    · rename_i sym hsym
      obtain ⟨href, haccepts⟩ := mem_of_firstReference hsym
      exact h.objectWord hvalid hvalid' hJ hplaced href haccepts
    · rfl
  · rfl

end

section

variable {loadaddr : Nat} {x : Symtabref} (h : Carries J f g) (hvalid : f.Valid) (hvalid' : g.Valid) (hk : f.SymtabAt k)
  (hname : 0 ∉ name) (hJ : ∀ i, f.type i ≠ elfShtSymtab → ¬ J i)
include h hvalid hvalid' hk hname hJ

lemma Carries.plainReferences (hplain : f.PlainReferences k name loadaddr) (hsymbols : g.symbols k = f.symbols k) :
    g.PlainReferences k name loadaddr := by
  have hplaced := hplain.toPlacedReferences
  obtain ⟨href, hplaced'⟩ := h.placedReferences hvalid hk hname (hk.not_strtab hJ) hplaced fun sym => by rw [hsymbols]
  refine ⟨hplaced', ?_⟩
  rw [h.loadAddress hvalid hvalid' hk hname hJ hplaced hsymbols]
  intro hnull sym hsym haccepts
  have hsym' := (href sym).1 hsym
  have haccepts' := (h.accepts hsym'.inSection).1 haccepts
  rw [h.objectWord hvalid hvalid' hJ hplaced hsym' haccepts']
  exact hplain.word hnull sym hsym' haccepts'

lemma Carries.filledReferences (hfilled : f.FilledReferences k name x)
    (hmem : ∀ sym, sym ∈ g.symbols k ↔ sym ∈ f.symbols k) : g.FilledReferences k name x := by
  have hplaced := hfilled.toPlacedReferences
  obtain ⟨href, hplaced'⟩ := h.placedReferences hvalid hk hname (hk.not_strtab hJ) hplaced hmem
  refine ⟨hplaced', ?_, ?_⟩
  · intro sym hsym
    have hsym' := (href sym).1 hsym
    exact (h.accepts hsym'.inSection).2 (hfilled.accepted sym hsym')
  · intro sym hsym
    have hsym' := (href sym).1 hsym
    rw [← hfilled.object sym hsym']
    exact symtabrefAt_shift fun o ho => h.objectBytes hvalid hvalid' hJ hplaced hsym' (hfilled.accepted sym hsym') ho

end

end Carries

end

end File

end Cs300Projects.WeensyOS.Elf
