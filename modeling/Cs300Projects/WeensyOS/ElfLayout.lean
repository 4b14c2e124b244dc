import Cs300Projects.WeensyOS.ElfInfo

/-!
# The layout of an ELF image

A valid image, as `validate` accepts it, is laid out when no byte belongs to two of its headers and
sections. An image carries the sections of another one when it has the same sections, perhaps at other
offsets; it is then valid as well, and has the same names.
-/

namespace Cs300Projects.WeensyOS.Elf

open Bytes Loop Symtab

lemma streq_congr {m m' : Nat → UInt8} {a b n : Nat} {s : List UInt8} (hs : 0 ∉ s)
    (h : ∀ x, x < n → m' (b + x) = m (a + x)) (hnul : ∃ x, x < n ∧ m (a + x) = 0) :
    streq m' b s = streq m a s := by
  obtain ⟨x, hx, hzero⟩ := hnul
  have hfirst : m' b = m a := h 0 (by omega)
  induction s generalizing a b n x with
  | nil => rw [streq, streq, hfirst]
  | cons c s ih =>
    rw [streq, streq, hfirst]
    by_cases hc : m a = c
    · have hne : x ≠ 0 := by
        rintro rfl
        rw [Nat.add_zero] at hzero
        exact hs (hzero ▸ hc ▸ List.mem_cons_self)
      have hsucc : ∀ y, y < n - 1 → m' (b + 1 + y) = m (a + 1 + y) := by
        intro y hy
        rw [Nat.add_assoc, Nat.add_assoc, Nat.add_comm 1 y]
        exact h (y + 1) (by omega)
      rw [ih (fun hmem => hs (List.mem_cons_of_mem c hmem)) hsucc (x - 1) (by omega)
        (by rw [show a + 1 + (x - 1) = a + x by omega]; exact hzero) (hsucc 0 (by omega))]
    · have hfalse : (m a == c) = false := beq_eq_false_iff_ne.2 hc
      rw [hfalse, Bool.false_and, Bool.false_and]

namespace File

variable {f g : File} {i j k : Nat}

def addr (f : File) (i : Nat) : Nat := shAddr f.data (f.sht i)
def flags (f : File) (i : Nat) : Nat := shFlags f.data (f.sht i)

/-- The section has contents in the file. -/
structure Stored (f : File) (i : Nat) : Prop where
  lt : i < eShnum f.data 0
  notNull : f.type i ≠ elfShtNull
  notNobits : f.type i ≠ elfShtNobits

lemma stored_of_type (hi : i < eShnum f.data 0) (htype : f.type i = j) (hnull : j ≠ elfShtNull)
    (hnobits : j ≠ elfShtNobits) : f.Stored i :=
  ⟨hi, htype ▸ hnull, htype ▸ hnobits⟩

/-- What `validate` accepts. -/
structure Valid (f : File) : Prop where
  header : f.HeaderOk
  names : f.NamesStrtab
  good : ∀ i, i < eShnum f.data 0 → f.Good i

lemma Valid.bounds (h : f.Valid) (hi : f.Stored i) : f.offset i < f.size ∧ f.offset i + f.sectionSize i ≤ f.size := by
  have hbounds := (h.good i hi.lt).content.bounds hi.notNull hi.notNobits
  omega

lemma checkSections_true (h : f.HeaderOk) (n i : Nat) (hn : i + n = eShnum f.data 0) :
    f.checkSections (f.offset f.shstrndx) (f.sectionSize f.shstrndx) i n = .ok true ↔
      ∀ k, i ≤ k → k < i + n → f.Safe k ∧ f.Good k := by
  induction n generalizing i with
  | zero => exact ⟨fun _ k hle hlt => absurd hlt (Nat.not_lt.2 hle), fun _ => rfl⟩
  | succ n ih =>
    rw [checkSections]
    rcases checkSection_outcome h (i := i) (by omega) with ⟨hsafe, b, hb, hgood⟩ | ⟨hnotSafe, e, he⟩
    · rw [hb, bind_ok]
      cases b with
      | true =>
        rw [if_pos rfl, ih (i + 1) (by omega)]
        constructor
        · intro hrest k hle hlt
          rcases Nat.lt_or_eq_of_le hle with hik | rfl
          · exact hrest k hik (by omega)
          · exact ⟨hsafe, hgood.1 rfl⟩
        · exact fun hall k hle hlt => hall k (by omega) (by omega)
      | false =>
        rw [if_neg (by decide)]
        constructor
        · rintro ⟨⟩
        · exact fun hall => absurd (hgood.2 (hall i (Nat.le_refl i) (by omega)).2) (by decide)
    · rw [he, bind_error]
      constructor
      · rintro ⟨⟩
      · exact fun hall => absurd (hall i (Nat.le_refl i) (by omega)).1 hnotSafe

/-- The string table of the section names, and what follows for a valid file. -/
lemma Valid.shstrtab (h : f.Valid) : f.offset f.shstrndx + f.sectionSize f.shstrndx ≤ f.size ∧
    f.data (f.offset f.shstrndx) = 0 ∧ f.lastName = f.offset f.shstrndx + f.sectionSize f.shstrndx - 1 ∧
      f.data f.lastName = 0 := by
  have hstored : f.Stored f.shstrndx := stored_of_type h.names.lt h.names.type (by decide) (by decide)
  have hbounds := (h.bounds hstored).2
  have hstrtab := (h.good _ h.names.lt).content.strtab h.names.type
  have hlast : f.lastName = f.offset f.shstrndx + f.sectionSize f.shstrndx - 1 :=
    Nat.mod_eq_of_lt (by have := f.size_lt; omega)
  refine ⟨hbounds, hstrtab.2.1, hlast, ?_⟩
  rw [hlast]
  exact hstrtab.2.2

lemma validate_true (f : File) : f.validate = .ok true ↔ f.Valid := by
  obtain ⟨b, hb, hheader⟩ := checkHeader_spec (f := f)
  unfold validate
  rw [hb, bind_ok]
  by_cases h : f.HeaderOk
  swap
  · rw [if_neg (fun htrue => h (hheader.1 htrue))]
    constructor
    · rintro ⟨⟩
    · exact fun hvalid => absurd hvalid.header h
  rw [if_pos (hheader.2 h)]
  by_cases hnamed : f.NamesStrtab
  swap
  · rw [checkShstrtab_unnamed h hnamed, bind_ok]
    constructor
    · rintro ⟨⟩
    · exact fun hvalid => absurd hvalid.names hnamed
  rw [checkShstrtab_named h hnamed]
  constructor
  · intro hrun
    refine ⟨h, hnamed, ?_⟩
    by_cases hfirst : f.offset f.shstrndx + 1 ≤ f.size
    swap
    · rw [get_error hfirst] at hrun
      cases hrun
    rw [get_ok hfirst, bind_ok] at hrun
    split at hrun
    · cases hrun
    by_cases hlast : f.lastName + 1 ≤ f.size
    swap
    · unfold lastName at hlast
      rw [get_error hlast] at hrun
      cases hrun
    unfold lastName at hlast
    rw [get_ok hlast, bind_ok] at hrun
    split at hrun
    · cases hrun
    change (do
      let n ← f.get 0x3C 2
      f.checkSections (f.offset f.shstrndx) (f.sectionSize f.shstrndx) 0 n) = Except.ok true at hrun
    rw [h.getShnum, bind_ok, checkSections_true h _ _ (Nat.zero_add _)] at hrun
    exact fun i hi => (hrun i (Nat.zero_le i) (by omega)).2
  · intro hvalid
    obtain ⟨hbounds, hfirst, hlast, hzero⟩ := hvalid.shstrtab
    have hpos := hnamed.size
    have hread : f.get (f.offset f.shstrndx) 1 = .ok (Bytes.readLE f.data (f.offset f.shstrndx) 1) :=
      get_ok (by omega)
    have hread' : f.get ((f.offset f.shstrndx + f.sectionSize f.shstrndx - 1) % 2 ^ 64) 1 =
        .ok (Bytes.readLE f.data f.lastName 1) := get_ok (by
      change f.lastName + 1 ≤ f.size
      omega)
    rw [hread, bind_ok, if_neg (not_not.2 (readLE_one_eq_zero.2 hfirst)), hread', bind_ok,
      if_neg (not_not.2 (readLE_one_eq_zero.2 hzero))]
    change (do
      let n ← f.get 0x3C 2
      f.checkSections (f.offset f.shstrndx) (f.sectionSize f.shstrndx) 0 n) = Except.ok true
    rw [h.getShnum, bind_ok, checkSections_true h _ _ (Nat.zero_add _)]
    intro k _ hk
    refine ⟨?_, hvalid.good k (by omega)⟩
    exact (namesInFile_of_inside hnamed hbounds).2 hfirst |>.2 hzero k (by omega) fun j hj =>
      hvalid.good j (by omega)

/-! ### Layout -/

/-- A section whose contents a run may change: the symbol table, or one that may hold references. -/
def Mutable (f : File) (i : Nat) : Prop := f.type i = elfShtSymtab ∨ f.type i = elfShtProgbits

/-- No byte belongs to two of the ELF header, the tables of headers and the contents of the sections. Only sections that no run
changes may share theirs. -/
structure Layout (f : File) : Prop where
  programs : elfHeaderSize ≤ ePhoff f.data 0
  sections : elfHeaderSize ≤ eShoff f.data 0
  tables : Apart (ePhoff f.data 0) (elfProgramSize * ePhnum f.data 0) (eShoff f.data 0) (elfSectionSize * eShnum f.data 0)
  header_content : ∀ i, f.Stored i → Apart 0 elfHeaderSize (f.offset i) (f.sectionSize i)
  programs_content : ∀ i, f.Stored i →
    Apart (ePhoff f.data 0) (elfProgramSize * ePhnum f.data 0) (f.offset i) (f.sectionSize i)
  sections_content : ∀ i, f.Stored i →
    Apart (eShoff f.data 0) (elfSectionSize * eShnum f.data 0) (f.offset i) (f.sectionSize i)
  contents : ∀ i j, f.Stored i → f.Stored j → i ≠ j → f.Mutable i → 0 < f.sectionSize i → 0 < f.sectionSize j →
    Apart (f.offset i) (f.sectionSize i) (f.offset j) (f.sectionSize j)

/-- `.symtab` is section `k`, and its strings are the next section. -/
structure SymtabAt (f : File) (k : Nat) : Prop where
  pos : k ≠ 0
  lt : k + 1 < eShnum f.data 0
  type : f.type k = elfShtSymtab
  link : f.link k = k + 1
  strtab : f.type (k + 1) = elfShtStrtab

lemma SymtabAt.stored (h : f.SymtabAt k) : f.Stored k :=
  stored_of_type (Nat.lt_of_succ_lt h.lt) h.type (by decide) (by decide)

/-! ### Images with the same sections -/

/-- `g` has the sections of `f`, and their contents but for those in `J`. -/
structure Carries (J : Nat → Prop) (f g : File) : Prop where
  header : g.HeaderOk
  shnum : eShnum g.data 0 = eShnum f.data 0
  shstrndx : g.shstrndx = f.shstrndx
  name : ∀ i, i < eShnum f.data 0 → g.name i = f.name i
  type : ∀ i, i < eShnum f.data 0 → g.type i = f.type i
  sectionSize : ∀ i, i < eShnum f.data 0 → g.sectionSize i = f.sectionSize i
  link : ∀ i, i < eShnum f.data 0 → g.link i = f.link i
  addr : ∀ i, i < eShnum f.data 0 → f.type i = elfShtProgbits → g.addr i = f.addr i
  bounds : ∀ i, f.Stored i → g.offset i < g.size ∧ g.offset i + f.sectionSize i ≤ g.size
  content : ∀ i, f.Stored i → ¬ J i → ∀ x, x < f.sectionSize i → g.data (g.offset i + x) = f.data (f.offset i + x)

section Carries

variable {J : Nat → Prop} {s : List UInt8} {o : Nat}

lemma Carries.stored_iff (h : Carries J f g) : g.Stored i ↔ f.Stored i := by
  constructor
  · intro hi
    have hlt := h.shnum ▸ hi.lt
    exact ⟨hlt, h.type i hlt ▸ hi.notNull, h.type i hlt ▸ hi.notNobits⟩
  · intro hi
    exact ⟨h.shnum.symm ▸ hi.lt, (h.type i hi.lt).symm ▸ hi.notNull, (h.type i hi.lt).symm ▸ hi.notNobits⟩

lemma Carries.readLE {n : Nat} (h : Carries J f g) (hi : f.Stored i) (hJ : ¬ J i) (ho : o + n ≤ f.sectionSize i) :
    Bytes.readLE g.data (g.offset i + o) n = Bytes.readLE f.data (f.offset i + o) n := by
  apply readLE_shift
  intro x hx
  rw [Nat.add_assoc, Nat.add_assoc]
  exact h.content i hi hJ (o + x) (by omega)

/-- A string of a string table is the same in both images. -/
lemma Carries.streq (h : Carries J f g) (hvalid : f.Valid) (hi : i < eShnum f.data 0)
    (htype : f.type i = elfShtStrtab) (hJ : ¬ J i) (hs : 0 ∉ s) (ho : o < f.sectionSize i) :
    streq g.data (g.offset i + o) s = streq f.data (f.offset i + o) s := by
  have hstored : f.Stored i := stored_of_type hi htype (by decide) (by decide)
  have hlast := ((hvalid.good i hi).content.strtab htype).2.2
  apply streq_congr (n := f.sectionSize i - o) hs
  · intro x hx
    rw [Nat.add_assoc, Nat.add_assoc]
    exact h.content i hstored hJ (o + x) (by omega)
  · refine ⟨f.sectionSize i - o - 1, by omega, ?_⟩
    rw [show f.offset i + o + (f.sectionSize i - o - 1) = f.offset i + f.sectionSize i - 1 by omega]
    exact hlast

lemma Carries.symtabAt (h : Carries J f g) (hk : f.SymtabAt k) : g.SymtabAt k := by
  have hlt := Nat.lt_of_succ_lt hk.lt
  exact ⟨hk.pos, h.shnum.symm ▸ hk.lt, (h.type k hlt).trans hk.type, (h.link k hlt).trans hk.link,
    (h.type (k + 1) hk.lt).trans hk.strtab⟩

/-- The image is valid, when the string tables are kept and the names of the symbols stay in them. -/
lemma Carries.valid (h : Carries J f g) (hvalid : f.Valid) (hJ : ∀ i, f.type i = elfShtStrtab → ¬ J i)
    (hsymbols : ∀ i, f.Stored i → J i → f.type i = elfShtSymtab → ∀ j, j < f.sectionSize i / elfSymbolSize →
      stName g.data (g.offset i + elfSymbolSize * j) < f.sectionSize (f.link i)) : g.Valid := by
  have hlt := hvalid.names.lt
  refine ⟨h.header, ⟨?_, ?_, ?_, ?_⟩, ?_⟩
  · rw [h.shstrndx]
    exact hvalid.names.pos
  · rw [h.shstrndx, h.shnum]
    exact hlt
  · rw [h.shstrndx, h.type _ hlt]
    exact hvalid.names.type
  · rw [h.shstrndx, h.sectionSize _ hlt]
    exact hvalid.names.size
  · intro i hi
    rw [h.shnum] at hi
    have hgood := hvalid.good i hi
    refine ⟨fun h0 => (h.type i hi).trans (hgood.null h0), ?_, ⟨?_, ?_, ?_⟩⟩
    · rw [h.name i hi, h.shstrndx, h.sectionSize _ hlt]
      exact hgood.name
    · rw [h.type i hi, h.sectionSize i hi]
      intro hnull hnobits
      have hbounds := h.bounds i ⟨hi, hnull, hnobits⟩
      omega
    · rw [h.type i hi, h.sectionSize i hi, h.link i hi, h.shnum]
      intro htype
      obtain ⟨hlink, hstrtab, hnames⟩ := hgood.content.symtab htype
      have hstored : f.Stored i := stored_of_type hi htype (by decide) (by decide)
      refine ⟨hlink, (h.type _ hlink).trans hstrtab, ?_⟩
      intro j hj
      rw [h.sectionSize _ hlink]
      by_cases hJi : J i
      · exact hsymbols i hstored hJi htype j hj
      · have hsame : stName g.data (g.offset i + elfSymbolSize * j) =
            stName f.data (f.offset i + elfSymbolSize * j) :=
          h.readLE hstored hJi (by unfold elfSymbolSize at *; omega)
        rw [hsame]
        exact hnames j hj
    · rw [h.type i hi, h.sectionSize i hi]
      intro htype
      obtain ⟨hsize, hfirst, hlast⟩ := hgood.content.strtab htype
      have hstored : f.Stored i := stored_of_type hi htype (by decide) (by decide)
      have hcontent := h.content i hstored (hJ i htype)
      have hzero := hcontent 0 (by omega)
      have hend := hcontent (f.sectionSize i - 1) (by omega)
      rw [Nat.add_zero, Nat.add_zero] at hzero
      rw [← Nat.add_sub_assoc (by omega), ← Nat.add_sub_assoc (by omega)] at hend
      exact ⟨hsize, hzero.trans hfirst, hend.trans hlast⟩

end Carries

end File

end Cs300Projects.WeensyOS.Elf
