import Cs300Projects.WeensyOS.ElfFrame

/-!
# Looking up sections and symbols

The lookups of `elf_info` with every read of the file checked, as in `validate`. After `validate` has returned
true, no sequence of them reads outside the file, and they find what the unchecked lookups find.
-/

namespace Cs300Projects.WeensyOS.Elf

open Bytes Loop

/-- `strcmp(data_ + a, s) == 0`. -/
def File.strcmp (f : File) : Nat → List UInt8 → Except Nat Bool
  | a, [] => do return (← f.get a 1) = 0
  | a, c :: s => do
    let b ← f.get a 1
    if b ≠ c.toNat then return false
    else if b = 0 then return true
    else strcmp f (a + 1) s

namespace ElfInfo

variable (ei : ElfInfo)

def readShstrtab : Except Nat Nat := do
  let shstrndx ← ei.get 0x3E 2
  ei.get (ei.shdr shstrndx + 0x18) 8

/-- The name of a section, by its offset. -/
inductive DisplayName where
  | unnamed
  | at (offset : Nat)

/-- `section_display_name`; `none` when its assertion fails. -/
def readDisplayName (i : Nat) : Except Nat (Option DisplayName) := do
  if (← ei.get 0x3C 2) ≤ i then return none
  else
    let shstrtab ← ei.readShstrtab
    let name ← ei.get (ei.shdr i) 4
    if (← ei.get (shstrtab + name) 1) = 0 then return some .unnamed else return some (.at (shstrtab + name))

/-- The loop of `find_section` from section `i` on, of which `n` remain. -/
def searchSections (shstrtab : Nat) (name : List UInt8) : Nat → Nat → Except Nat Nat
  | _, 0 => pure 0
  | i, n + 1 => do
    let secname ← ei.get (ei.shdr i) 4
    if ← ei.strcmp (shstrtab + secname) name then return i else searchSections shstrtab name (i + 1) n

def lookupSection (name : List UInt8) : Except Nat Nat := do
  let shstrtab ← ei.readShstrtab
  ei.searchSections shstrtab name 0 (← ei.get 0x3C 2)

/-- The loop of `first_offset`. -/
def searchOffsets : Nat → Nat → Nat → Except Nat Nat
  | o, _, 0 => pure o
  | o, i, n + 1 => do
    let type ← ei.get (ei.shdr i + 0x04) 4
    if type ≠ elfShtNull ∧ type ≠ elfShtNobits then
      let offset ← ei.get (ei.shdr i + 0x18) 8
      searchOffsets (min o offset) (i + 1) n
    else searchOffsets o (i + 1) n

def lookupFirstOffset : Except Nat Nat := do ei.searchOffsets (2 ^ 64 - 1) 0 (← ei.get 0x3C 2)

/-- `symtab()`. -/
def lookupSymtab : Except Nat ElfInfo := do
  if ei.symtab.isSome then return ei
  else
    let i ← ei.lookupSection symtabName
    if i = 0 then return ei
    else if (← ei.get (ei.shdr i + 0x04) 4) ≠ elfShtSymtab then return ei
    else
      let offset ← ei.get (ei.shdr i + 0x18) 8
      let size ← ei.get (ei.shdr i + 0x20) 8
      let strtabndx ← ei.get (ei.shdr i + 0x28) 4
      let symstrtab ← ei.get (ei.shdr strtabndx + 0x18) 8
      return { ei with symtab := some offset, nsymtab := size / elfSymbolSize % 2 ^ 32, symstrtab := symstrtab }

/-- The loop of `find_symbol` from symbol `i` on, of which `n` remain. -/
def searchSymbols (name : List UInt8) : Nat → Nat → Except Nat (Option Nat)
  | _, 0 => pure none
  | i, n + 1 => do
    let stName ← ei.get (ei.symbol i) 4
    if ← ei.strcmp (ei.symstrtab + stName) name then return some i else searchSymbols name (i + 1) n

/-- The index behind a symbol that was returned before. -/
def symbolsFrom : Option Nat → Nat
  | none => 0
  | some after => (after + 1) % 2 ^ 32

def lookupSymbol (name : List UInt8) (after : Option Nat) : Except Nat (ElfInfo × Option Nat) := do
  let i := symbolsFrom after
  let ei ← ei.lookupSymtab
  let sym ← ei.searchSymbols name i (ei.nsymtab - i)
  return (ei, sym)

end ElfInfo

/-! ### Sequences of lookups -/

/-- A call of a lookup; names have no null byte. -/
inductive Lookup where
  | findSection (name : List UInt8) (nul : 0 ∉ name)
  | sectionDisplayName (i : Nat)
  | firstOffset
  | symtab
  | findSymbol (name : List UInt8) (nul : 0 ∉ name) (after : Option Nat)

/-- The open file and the symbols that were returned. -/
structure Session where
  ei : ElfInfo
  returned : List Nat

namespace Session

def perform (s : Session) : Lookup → Except Nat Session
  | .findSection name _ => do
    let _ ← s.ei.lookupSection name
    return s
  | .sectionDisplayName i => do
    let _ ← s.ei.readDisplayName i
    return s
  | .firstOffset => do
    let _ ← s.ei.lookupFirstOffset
    return s
  | .symtab => do
    let ei ← s.ei.lookupSymtab
    return ⟨ei, s.returned⟩
  | .findSymbol name _ after => do
    let (ei, sym) ← s.ei.lookupSymbol name after
    return ⟨ei, sym.toList ++ s.returned⟩

/-- A search goes on from a symbol that was returned. -/
def Allowed (s : Session) : Lookup → Prop
  | .findSymbol _ _ (some after) => after ∈ s.returned
  | _ => True

/-- The states that lookups lead to, from the file as `validate` has left it. -/
inductive Reachable (f : File) (capacity : Nat) : Session → Prop where
  | validated : Reachable f capacity ⟨ElfInfo.ofFile f capacity, []⟩
  | lookup {s s' : Session} {l : Lookup} : Reachable f capacity s → s.Allowed l → s.perform l = .ok s' →
      Reachable f capacity s'

end Session

/-! ### What is found -/

namespace File

variable (f : File)

/-- The string at `o` of the string table in section `t` ends in the table, which is inside the file. -/
structure InTable (t o : Nat) : Prop where
  inside : f.offset t + f.sectionSize t ≤ f.size
  ends : ∃ k, o ≤ k ∧ k < f.sectionSize t ∧ f.data (f.offset t + k) = 0

/-- The first section with the name `.symtab`, if it is a symbol table and not section 0. -/
structure SymtabSection (i : Nat) : Prop where
  lt : i < eShnum f.data 0
  pos : i ≠ 0
  named : f.sectionNamed ElfInfo.symtabName i
  first : ∀ j, j < i → ¬ f.sectionNamed ElfInfo.symtabName j
  type : f.type i = elfShtSymtab

/-- The symbol table that `symtab()` has found, with all entries and their names. -/
structure SymtabLoaded (ei : ElfInfo) (i : Nat) : Prop where
  symtab : ei.symtab = some (f.offset i)
  symstrtab : ei.symstrtab = f.offset (f.link i)
  count : ei.nsymtab = f.sectionSize i / elfSymbolSize
  inside : f.offset i + elfSymbolSize * ei.nsymtab ≤ f.size
  names : ∀ j, j < ei.nsymtab → f.InTable (f.link i) (stName f.data (f.offset i + elfSymbolSize * j))

/-- What the lookups do on a file that `validate` has accepted. -/
structure LookupsSafe (capacity : Nat) : Prop where
  reads : ∀ s, Session.Reachable f capacity s → ∀ l, s.Allowed l → ∃ s', s.perform l = .ok s'
  sectionNames : ∀ i, i < eShnum f.data 0 → f.InTable f.shstrndx (f.name i)
  symtab : ∀ s, Session.Reachable f capacity s → ∃ ei, s.ei.lookupSymtab = .ok ei ∧
    (∀ i, f.SymtabSection i → f.SymtabLoaded ei i) ∧ ((∀ i, ¬ f.SymtabSection i) → ei.symtab = none ∧ ei.nsymtab = 0)

end File

/-! ### The searches -/

open File (bind_ok bind_error get_ok readLE_one readLE_one_eq_zero)

/-- `strcmp` on a string that ends in the file, and a name. -/
lemma File.strcmp_eq {f : File} {a k : Nat} {s : List UInt8} (hs : 0 ∉ s) (ha : a ≤ k) (hk : k < f.size)
    (hzero : f.data k = 0) : f.strcmp a s = .ok (streq f.data a s) := by
  induction s generalizing a with
  | nil =>
    have hnul : ((f.data a).toNat = 0) = (f.data a = 0) := by
      rw [← UInt8.toNat_inj]
      rfl
    rw [strcmp, get_ok (by omega), bind_ok, readLE_one]
    simp only [hnul]
    rfl
  | cons c s ih =>
    rw [strcmp, get_ok (by omega), bind_ok, streq, readLE_one]
    by_cases hc : f.data a = c
    · have hne : c ≠ 0 := fun h0 => hs (h0 ▸ List.mem_cons_self)
      have hlt : a ≠ k := by
        rintro rfl
        exact hne (hc.symm.trans hzero)
      have hnat : ¬ c.toNat = 0 := fun h0 => hne (UInt8.toNat_inj.1 h0)
      rw [hc, if_neg (not_not.2 rfl), if_neg hnat, ih (fun hmem => hs (List.mem_cons_of_mem c hmem)) (by omega), beq_self_eq_true,
        Bool.true_and]
    · have hnat : (f.data a).toNat ≠ c.toNat := fun h => hc (UInt8.toNat_inj.1 h)
      rw [if_pos hnat, beq_eq_false_iff_ne.2 hc, Bool.false_and]
      rfl

namespace ElfInfo

/-- The table that `symtab()` finds in the section `i`. -/
structure TableAt (ei : ElfInfo) (i : Nat) : Prop where
  symtab : ei.symtab = some (ei.toFile.offset i)
  nsymtab : ei.nsymtab = ei.toFile.sectionSize i / elfSymbolSize % 2 ^ 32
  symstrtab : ei.symstrtab = ei.toFile.offset (ei.toFile.link i)

/-- `elf_info` as `validate` leaves it, perhaps with the symbol table that `symtab()` has found. -/
structure Opened (ei : ElfInfo) : Prop where
  valid : ei.toFile.Valid
  sht : ei.sht.offset = eShoff ei.data 0
  table : (ei.symtab = none ∧ ei.nsymtab = 0) ∨ ∃ i, ei.toFile.SymtabSection i ∧ ei.TableAt i

lemma opened_ofFile {f : File} (h : f.Valid) (capacity : Nat) : Opened (ofFile f capacity) :=
  ⟨h, rfl, Or.inl ⟨rfl, rfl⟩⟩

variable {ei : ElfInfo}

lemma Opened.shdr (h : Opened ei) (i : Nat) : ei.shdr i = ei.toFile.sht i := by
  unfold ElfInfo.shdr File.sht
  rw [h.sht]

/-- The name of a section ends in the table of section names. -/
lemma Opened.sectionName (h : Opened ei) {i : Nat} (hi : i < eShnum ei.data 0) :
    ei.toFile.InTable ei.toFile.shstrndx (ei.toFile.name i) := by
  obtain ⟨hbounds, -, hlast, hzero⟩ := h.valid.shstrtab
  have hname := (h.valid.good i hi).name
  rw [hlast] at hzero
  refine ⟨hbounds, ei.toFile.sectionSize ei.toFile.shstrndx - 1, by omega, by omega, ?_⟩
  rw [← Nat.add_sub_assoc (by omega)]
  exact hzero

lemma Opened.readShstrtab (h : Opened ei) : ei.readShstrtab = .ok (ei.toFile.offset ei.toFile.shstrndx) := by
  unfold ElfInfo.readShstrtab
  rw [h.valid.header.getShstrndx, bind_ok, h.shdr]
  exact h.valid.header.getOffset h.valid.names.lt

lemma Opened.compareName (h : Opened ei) {i : Nat} (hi : i < eShnum ei.data 0) {name : List UInt8} (hname : 0 ∉ name) :
    ei.strcmp (ei.toFile.offset ei.toFile.shstrndx + ei.toFile.name i) name = .ok (ei.toFile.sectionNamed name i) := by
  obtain ⟨hinside, k, hle, hlt, hzero⟩ := h.sectionName hi
  exact File.strcmp_eq hname (Nat.add_le_add_left hle _) (by omega) hzero

lemma Opened.searchSections (h : Opened ei) {name : List UInt8} (hname : 0 ∉ name) (n i : Nat)
    (hi : i + n = eShnum ei.data 0) : ei.searchSections (ei.toFile.offset ei.toFile.shstrndx) name i n =
      .ok (if seek (ei.toFile.sectionNamed name) n i < i + n then seek (ei.toFile.sectionNamed name) n i else 0) := by
  induction n generalizing i with
  | zero =>
    rw [ElfInfo.searchSections, seek, if_neg (by omega)]
    rfl
  | succ n ih =>
    rw [ElfInfo.searchSections, h.shdr]
    change (do
      let secname ← ei.toFile.getName i
      _) = _
    rw [h.valid.header.getName (by omega), bind_ok, h.compareName (by omega) hname, bind_ok, seek]
    by_cases hnamed : ei.toFile.sectionNamed name i = true
    · rw [if_pos hnamed, if_pos hnamed, if_pos (by omega)]
      rfl
    · rw [if_neg hnamed, if_neg hnamed, ih (i + 1) (by omega), show i + 1 + n = i + (n + 1) by omega]

lemma Opened.lookupSection (h : Opened ei) {name : List UInt8} (hname : 0 ∉ name) :
    ei.lookupSection name = .ok (ei.findSection name) := by
  rw [ElfInfo.lookupSection, h.readShstrtab, bind_ok, h.valid.header.getShnum, bind_ok,
    h.searchSections hname _ 0 (Nat.zero_add _), Nat.zero_add, findSection_eq h.sht]
  rfl

lemma Opened.readDisplayName (h : Opened ei) (i : Nat) : ∃ r, ei.readDisplayName i = .ok r := by
  rw [ElfInfo.readDisplayName, h.valid.header.getShnum, bind_ok]
  by_cases hi : eShnum ei.data 0 ≤ i
  · rw [if_pos hi]
    exact ⟨none, rfl⟩
  · rw [Nat.not_le] at hi
    obtain ⟨hinside, k, hle, hlt, hzero⟩ := h.sectionName hi
    rw [if_neg (Nat.not_le.2 hi), h.readShstrtab, bind_ok, h.shdr]
    change ∃ r, (do
      let name ← ei.toFile.getName i
      _) = Except.ok r
    rw [h.valid.header.getName hi, bind_ok, get_ok (by omega), bind_ok]
    split
    · exact ⟨_, rfl⟩
    · exact ⟨_, rfl⟩

lemma Opened.searchOffsets (h : Opened ei) (n i o : Nat) (hi : i + n = eShnum ei.data 0) :
    ∃ r, ei.searchOffsets o i n = .ok r := by
  induction n generalizing i o with
  | zero => exact ⟨o, rfl⟩
  | succ n ih =>
    rw [ElfInfo.searchOffsets, h.shdr]
    change ∃ r, (do
      let type ← ei.toFile.getType i
      _) = Except.ok r
    rw [h.valid.header.getType (by omega), bind_ok]
    split
    · change ∃ r, (do
        let offset ← ei.toFile.getOffset i
        _) = Except.ok r
      rw [h.valid.header.getOffset (by omega), bind_ok]
      exact ih (i + 1) _ (by omega)
    · exact ih (i + 1) o (by omega)

lemma Opened.lookupFirstOffset (h : Opened ei) : ∃ r, ei.lookupFirstOffset = .ok r := by
  rw [ElfInfo.lookupFirstOffset, h.valid.header.getShnum, bind_ok]
  exact h.searchOffsets _ 0 _ (Nat.zero_add _)

/-- `find_section` finds the first section with the name. -/
lemma findSection_first {f : File} {name : List UInt8} {i : Nat} (hi : i < eShnum f.data 0) (hnamed : f.sectionNamed name i)
    (hfirst : ∀ j, j < i → ¬ f.sectionNamed name j) : f.findSection name = i := by
  have hseek : seek (f.sectionNamed name) (eShnum f.data 0) 0 = i := by
    apply seek_eq
    refine ⟨Nat.zero_le i, by omega, ?_, fun _ => hnamed⟩
    exact fun j _ hj => Bool.eq_false_iff.2 (hfirst j hj)
  unfold File.findSection
  rw [hseek, if_pos hi]

lemma findSection_found {f : File} {name : List UInt8} (h : f.findSection name ≠ 0) :
    f.findSection name < eShnum f.data 0 ∧ f.sectionNamed name (f.findSection name) ∧
      ∀ j, j < f.findSection name → ¬ f.sectionNamed name j := by
  have hsought := seek_sought (f.sectionNamed name) (eShnum f.data 0) 0
  unfold File.findSection at h ⊢
  by_cases hlt : seek (f.sectionNamed name) (eShnum f.data 0) 0 < eShnum f.data 0
  · simp only [if_pos hlt]
    refine ⟨hlt, hsought.here (by omega), ?_⟩
    intro j hj hnamed
    rw [hsought.before j (Nat.zero_le j) hj] at hnamed
    cases hnamed
  · simp only [if_neg hlt] at h
    exact absurd rfl h

/-- The section that `symtab()` takes. -/
lemma symtabSection_iff {f : File} {i : Nat} : f.SymtabSection i ↔
    i = f.findSection symtabName ∧ i ≠ 0 ∧ f.type i = elfShtSymtab := by
  constructor
  · rintro ⟨hlt, hpos, hnamed, hfirst, htype⟩
    exact ⟨(findSection_first hlt hnamed hfirst).symm, hpos, htype⟩
  · rintro ⟨rfl, hpos, htype⟩
    obtain ⟨hlt, hnamed, hfirst⟩ := findSection_found hpos
    exact ⟨hlt, hpos, hnamed, hfirst, htype⟩

/-- `elf_info` behind a call of `symtab()`. -/
structure Loaded (ei : ElfInfo) : Prop extends Opened ei where
  found : ∀ i, ei.toFile.SymtabSection i → ei.TableAt i
  missing : (∀ i, ¬ ei.toFile.SymtabSection i) → ei.symtab = none ∧ ei.nsymtab = 0

lemma symtabSection_unique {f : File} {i j : Nat} (hi : f.SymtabSection i) (hj : f.SymtabSection j) : j = i :=
  (symtabSection_iff.1 hj).1.trans (symtabSection_iff.1 hi).1.symm

lemma Opened.loaded_of_table {i : Nat} (h : Opened ei) (hi : ei.toFile.SymtabSection i) (htable : ei.TableAt i) :
    Loaded ei :=
  ⟨h, fun _ hj => symtabSection_unique hi hj ▸ htable, fun hnone => absurd hi (hnone i)⟩

lemma Opened.loaded_of_missing (h : Opened ei) (hmissing : ∀ i, ¬ ei.toFile.SymtabSection i)
    (htable : ei.symtab = none ∧ ei.nsymtab = 0) : Loaded ei :=
  ⟨h, fun i hi => absurd hi (hmissing i), fun _ => htable⟩

/-- What a call of `symtab()` leaves. -/
structure LoadedFrom (ei ei' : ElfInfo) : Prop extends Loaded ei' where
  sameFile : ei'.toFile = ei.toFile
  sameSht : ei'.sht = ei.sht

lemma Opened.lookupSymtab (h : Opened ei) : ei.lookupSymtab = .ok ei.loadSymtab ∧ LoadedFrom ei ei.loadSymtab := by
  unfold ElfInfo.lookupSymtab ElfInfo.loadSymtab
  cases hsymtab : ei.symtab with
  | some o =>
    refine ⟨rfl, ?_, rfl, rfl⟩
    rcases h.table with ⟨hnone, -⟩ | ⟨i, hi, htable⟩
    · rw [hsymtab] at hnone
      cases hnone
    · exact h.loaded_of_table hi htable
  | none =>
    have htable : ei.symtab = none ∧ ei.nsymtab = 0 := by
      rcases h.table with hnone | ⟨i, -, hat⟩
      · exact hnone
      · rw [hat.symtab] at hsymtab
        cases hsymtab
    have heq := findSection_eq h.sht symtabName
    simp only [Option.isSome_none, Bool.false_eq_true, if_false]
    rw [h.lookupSection (by decide), bind_ok, heq, h.shdr]
    by_cases h0 : ei.toFile.findSection symtabName = 0
    · rw [if_pos h0, if_neg (fun hand => hand.1 h0)]
      exact ⟨rfl, h.loaded_of_missing (fun i hi => hi.pos ((symtabSection_iff.1 hi).1.trans h0)) htable, rfl, rfl⟩
    · obtain ⟨hlt, -, -⟩ := findSection_found h0
      rw [if_neg h0]
      change (do
        let type ← ei.toFile.getType (ei.toFile.findSection symtabName)
        _) = _ ∧ _
      rw [h.valid.header.getType hlt, bind_ok]
      by_cases htype : ei.toFile.type (ei.toFile.findSection symtabName) = elfShtSymtab
      swap
      · rw [if_pos htype, if_neg (fun hand => htype hand.2)]
        refine ⟨rfl, h.loaded_of_missing (fun i hi => htype ?_) htable, rfl, rfl⟩
        rw [← (symtabSection_iff.1 hi).1]
        exact hi.type
      · have hsection := symtabSection_iff.2 ⟨rfl, h0, htype⟩
        have hlink := ((h.valid.good _ hlt).content.symtab htype).1
        rw [if_neg (not_not.2 htype), if_pos ⟨h0, htype⟩]
        have hoffset : ∀ j, j < eShnum ei.data 0 → ei.get (ei.toFile.sht j + 0x18) 8 = .ok (ei.toFile.offset j) :=
          fun j hj => h.valid.header.getOffset hj
        have hsize : ei.get (ei.toFile.sht (ei.toFile.findSection symtabName) + 0x20) 8 = .ok _ :=
          h.valid.header.getSize hlt
        have hlinkOf : ei.get (ei.toFile.sht (ei.toFile.findSection symtabName) + 0x28) 4 = .ok _ :=
          h.valid.header.getLink hlt
        rw [hoffset _ hlt, bind_ok, hsize, bind_ok, hlinkOf, bind_ok, h.shdr, hoffset _ hlink, bind_ok, h.shdr]
        have htable : TableAt { ei with
            symtab := some (shOffset ei.data (ei.toFile.sht (ei.toFile.findSection symtabName)))
            nsymtab := shSize ei.data (ei.toFile.sht (ei.toFile.findSection symtabName)) / elfSymbolSize % 2 ^ 32
            symstrtab := shOffset ei.data (ei.toFile.sht (shLink ei.data (ei.toFile.sht
              (ei.toFile.findSection symtabName)))) } (ei.toFile.findSection symtabName) := ⟨rfl, rfl, rfl⟩
        exact ⟨rfl, Opened.loaded_of_table ⟨h.valid, h.sht, Or.inr ⟨_, hsection, htable⟩⟩ hsection htable, rfl, rfl⟩

/-- The name of a symbol ends in its string table, and the entries of the table are inside the file. -/
lemma Loaded.symbol {i j : Nat} (h : Loaded ei) (hi : ei.toFile.SymtabSection i)
    (hj : j < ei.toFile.sectionSize i / elfSymbolSize) :
    ei.toFile.offset i + elfSymbolSize * (j + 1) ≤ ei.size ∧
      ei.toFile.InTable (ei.toFile.link i) (stName ei.data (ei.toFile.offset i + elfSymbolSize * j)) := by
  have hgood := (h.valid.good i hi.lt).content
  obtain ⟨hlink, hstrtab, hnames⟩ := hgood.symtab hi.type
  have hbounds := (h.valid.bounds (File.stored_of_type hi.lt hi.type (by decide) (by decide))).2
  have hstrings := (h.valid.bounds (File.stored_of_type hlink hstrtab (by decide) (by decide))).2
  obtain ⟨-, -, hlast⟩ := (h.valid.good _ hlink).content.strtab hstrtab
  have hname := hnames j hj
  refine ⟨?_, hstrings, ei.toFile.sectionSize (ei.toFile.link i) - 1, by omega, by omega, ?_⟩
  · unfold elfSymbolSize at *
    omega
  · rw [← Nat.add_sub_assoc (by omega)]
    exact hlast

/-- All entries are found if their number fits. -/
lemma Loaded.symtabLoaded {i : Nat} (h : Loaded ei) (hi : ei.toFile.SymtabSection i)
    (hlt : ei.toFile.sectionSize i / elfSymbolSize < 2 ^ 32) : ei.toFile.SymtabLoaded ei i := by
  have htable := h.found i hi
  have hcount : ei.nsymtab = ei.toFile.sectionSize i / elfSymbolSize := htable.nsymtab.trans (Nat.mod_eq_of_lt hlt)
  have hbounds := (h.valid.bounds (File.stored_of_type hi.lt hi.type (by decide) (by decide))).2
  refine ⟨htable.symtab, htable.symstrtab, hcount, ?_, fun j hj => (h.symbol hi (hcount ▸ hj)).2⟩
  rw [hcount]
  unfold elfSymbolSize
  omega

lemma Loaded.searchSymbols (h : Loaded ei) {name : List UInt8} (hname : 0 ∉ name) (n i : Nat) (hi : i + n ≤ ei.nsymtab) :
    ei.searchSymbols name i n = .ok
      (let j := seek (fun i => streq ei.data (ei.symstrtab + stName ei.data (ei.symbol i)) name) n i
        if i + n ≤ j then none else some j) := by
  induction n generalizing i with
  | zero => simp [ElfInfo.searchSymbols, seek, pure, Except.pure]
  | succ n ih =>
    obtain ⟨k, hk⟩ : ∃ k, ei.toFile.SymtabSection k := by
      by_contra hnone
      have hzero := (h.missing fun k hk => hnone ⟨k, hk⟩).2
      omega
    have htable := h.found k hk
    have hcount : ei.nsymtab ≤ ei.toFile.sectionSize k / elfSymbolSize := by
      rw [htable.nsymtab]
      exact Nat.mod_le _ _
    obtain ⟨hinside, hstrings, e, hle, hlt, hzero⟩ := h.symbol hk (j := i) (by omega)
    have hsymbol : ei.symbol i = ei.toFile.offset k + elfSymbolSize * i := by
      unfold ElfInfo.symbol
      rw [htable.symtab, Option.getD_some]
    have hread : ei.get (ei.symbol i) 4 = .ok (stName ei.data (ei.symbol i)) := by
      apply get_ok
      rw [hsymbol]
      unfold elfSymbolSize at *
      omega
    rw [← hsymbol] at hle
    have hcompare : ei.strcmp (ei.symstrtab + stName ei.data (ei.symbol i)) name =
        .ok (streq ei.data (ei.symstrtab + stName ei.data (ei.symbol i)) name) := by
      rw [htable.symstrtab]
      exact File.strcmp_eq hname (Nat.add_le_add_left hle _) (by omega) hzero
    rw [ElfInfo.searchSymbols, hread, bind_ok, hcompare, bind_ok, seek]
    by_cases heq : streq ei.data (ei.symstrtab + stName ei.data (ei.symbol i)) name = true
    · rw [if_pos heq, if_pos heq]
      simp [pure, Except.pure]
    · rw [if_neg heq, if_neg heq, ih (i + 1) (by omega), show i + 1 + n = i + (n + 1) by omega]

/-- The checked search finds the same symbol, from a symbol on that was returned or from the start. -/
lemma Opened.lookupSymbol (h : Opened ei) {name : List UInt8} (hname : 0 ∉ name) (after : Option Nat) :
    ei.lookupSymbol name after = .ok (ei.loadSymtab, ei.loadSymtab.findSymbol name (symbolsFrom after)) := by
  obtain ⟨hlookup, hloaded⟩ := h.lookupSymtab
  have hsearch : ei.loadSymtab.searchSymbols name (symbolsFrom after) (ei.loadSymtab.nsymtab - symbolsFrom after) =
      .ok (ei.loadSymtab.findSymbol name (symbolsFrom after)) := by
    unfold findSymbol
    by_cases hle : symbolsFrom after ≤ ei.loadSymtab.nsymtab
    · rw [hloaded.searchSymbols hname _ _ (by omega), Nat.add_sub_cancel' hle]
    · rw [Nat.sub_eq_zero_of_le (by omega), ElfInfo.searchSymbols, seek]
      simp only
      rw [if_pos (by omega)]
      rfl
  rw [ElfInfo.lookupSymbol, hlookup, bind_ok, hsearch]
  rfl

end ElfInfo

/-! ### Main results -/

namespace Session

variable {f : File} {capacity : Nat} {s : Session}

lemma perform_ok (h : s.ei.Opened) (l : Lookup) :
    ∃ s', s.perform l = .ok s' ∧ (s'.ei = s.ei ∨ s'.ei = s.ei.loadSymtab) := by
  cases l with
  | findSection name nul =>
    rw [perform, h.lookupSection nul]
    exact ⟨s, rfl, Or.inl rfl⟩
  | sectionDisplayName i =>
    obtain ⟨r, hr⟩ := h.readDisplayName i
    rw [perform, hr]
    exact ⟨s, rfl, Or.inl rfl⟩
  | firstOffset =>
    obtain ⟨r, hr⟩ := h.lookupFirstOffset
    rw [perform, hr]
    exact ⟨s, rfl, Or.inl rfl⟩
  | symtab =>
    rw [perform, h.lookupSymtab.1]
    exact ⟨_, rfl, Or.inr rfl⟩
  | findSymbol name nul after =>
    rw [perform, h.lookupSymbol nul after]
    exact ⟨_, rfl, Or.inr rfl⟩

/-- Every state that lookups lead to is an open file. -/
lemma Reachable.opened (hvalid : f.Valid) (h : Reachable f capacity s) : s.ei.Opened ∧ s.ei.toFile = f := by
  induction h with
  | validated => exact ⟨ElfInfo.opened_ofFile hvalid capacity, rfl⟩
  | lookup _ _ hstep ih =>
    rename_i s s' l _ _
    obtain ⟨t, hperform, hei⟩ := perform_ok ih.1 l
    obtain rfl : t = s' := Except.ok.inj (hperform.symm.trans hstep)
    rcases hei with hei | hei
    · rw [hei]
      exact ih
    · have hloaded := ih.1.lookupSymtab.2
      rw [hei]
      exact ⟨hloaded.toOpened, hloaded.sameFile.trans ih.2⟩

end Session

/-- After `validate` has returned true, all lookups, in any order, stay inside the file and the strings that they
compare end in their tables. `symtab()` finds all entries unless there are 2³² of them or more. -/
theorem lookups_safe_iff {f : File} (h : f.validate = .ok true) (capacity : Nat) :
    f.LookupsSafe capacity ↔ ∀ i, f.SymtabSection i → f.sectionSize i / elfSymbolSize < 2 ^ 32 := by
  have hvalid := f.validate_true.1 h
  constructor
  · intro hsafe i hi
    obtain ⟨ei, hlookup, hfound, -⟩ := hsafe.symtab _ .validated
    obtain ⟨heq, hloaded⟩ := (ElfInfo.opened_ofFile hvalid capacity).lookupSymtab
    obtain rfl : ei = _ := Except.ok.inj (hlookup.symm.trans heq)
    have htable := hloaded.found i (hloaded.sameFile.symm ▸ hi)
    rw [← (hfound i hi).count, htable.nsymtab]
    exact Nat.mod_lt _ (by decide)
  · intro hcount
    have hopen : (ElfInfo.ofFile f capacity).Opened := ElfInfo.opened_ofFile hvalid capacity
    refine ⟨?_, fun i hi => hopen.sectionName hi, ?_⟩
    · intro s hs l _
      obtain ⟨s', hs', -⟩ := Session.perform_ok (hs.opened hvalid).1 l
      exact ⟨s', hs'⟩
    · intro s hs
      obtain ⟨hopened, hfile⟩ := hs.opened hvalid
      obtain ⟨heq, hloaded⟩ := hopened.lookupSymtab
      have hsame := hloaded.sameFile.trans hfile
      refine ⟨_, heq, ?_, ?_⟩
      · intro i hi
        rw [← hsame] at hi hcount ⊢
        exact hloaded.symtabLoaded hi (hcount i hi)
      · intro hnone
        rw [← hsame] at hnone
        exact hloaded.missing hnone

/-- A symbol table of 2³² empty entries behind the headers and the strings. -/
def hugeFile : File where
  data x := if x < 512 then
      ([(0, 4, elfMagic), (0x20, 8, 64), (0x28, 8, 120), (0x36, 2, elfProgramSize), (0x38, 2, 1),
        (0x3A, 2, elfSectionSize), (0x3C, 2, 3), (0x3E, 2, 1), (184 + 0x04, 4, elfShtStrtab), (184 + 0x18, 8, 312),
        (184 + 0x20, 8, 9), (248, 4, 1), (248 + 0x04, 4, elfShtSymtab), (248 + 0x18, 8, 512),
        (248 + 0x20, 8, 24 * 2 ^ 32), (248 + 0x28, 4, 1), (313, 7, 0x6261746D79732E)].foldl
          (fun m w => writeLE m w.1 w.2.1 w.2.2) fun _ => 0) x
    else 0
  size := 512 + 24 * 2 ^ 32
  size_lt := by decide

lemma hugeFile_zero {x : Nat} (hx : 512 ≤ x) : hugeFile.data x = 0 := if_neg (Nat.not_lt.2 hx)

lemma hugeFile_valid : hugeFile.Valid := by
  constructor
  case header => constructor <;> decide +kernel
  case names => constructor <;> decide +kernel
  case good =>
    intro i (hi : i < 3)
    have hnames : ∀ j, stName hugeFile.data (512 + elfSymbolSize * j) = 0 := by
      intro j
      unfold stName
      simp only [readLE]
      rw [hugeFile_zero (by omega), hugeFile_zero (by omega), hugeFile_zero (by omega), hugeFile_zero (by omega)]
      rfl
    obtain rfl | rfl | rfl : i = 0 ∨ i = 1 ∨ i = 2 := by omega
    · exact ⟨by decide +kernel, by decide +kernel, by decide +kernel, by decide +kernel, by decide +kernel⟩
    · exact ⟨by decide +kernel, by decide +kernel, by decide +kernel, by decide +kernel, by decide +kernel⟩
    · refine ⟨by decide +kernel, by decide +kernel, by decide +kernel, fun _ => ⟨by decide +kernel, by decide +kernel, ?_⟩,
        by decide +kernel⟩
      intro j _
      have hoffset : hugeFile.offset 2 = 512 := by decide +kernel
      rw [hoffset, hnames j]
      decide +kernel

/-- The number of entries does not fit in `nsymtab_`: `symtab()` finds none of them. -/
theorem lookups_miss_entries : hugeFile.validate = .ok true ∧ ¬ hugeFile.LookupsSafe 0 := by
  refine ⟨hugeFile.validate_true.2 hugeFile_valid, ?_⟩
  intro hsafe
  obtain ⟨ei, hlookup, hfound, -⟩ := hsafe.symtab _ .validated
  obtain ⟨heq, -⟩ := (ElfInfo.opened_ofFile hugeFile_valid 0).lookupSymtab
  obtain rfl : ei = _ := Except.ok.inj (hlookup.symm.trans heq)
  have hsection : hugeFile.SymtabSection 2 := by
    refine ⟨by decide +kernel, by decide, by decide +kernel, ?_, by decide +kernel⟩
    intro j hj
    obtain rfl | rfl : j = 0 ∨ j = 1 := by omega
    · decide +kernel
    · decide +kernel
  have hcount := (hfound 2 hsection).count
  revert hcount
  decide +kernel

/-- A symbol table of two entries, with its strings behind the names of the sections. -/
def smallFile : File where
  data :=
    [(0, 4, elfMagic), (0x20, 8, 64), (0x28, 8, 120), (0x36, 2, elfProgramSize), (0x38, 2, 1), (0x3A, 2, elfSectionSize),
      (0x3C, 2, 4), (0x3E, 2, 1), (184 + 0x04, 4, elfShtStrtab), (184 + 0x18, 8, 376), (184 + 0x20, 8, 9), (248, 4, 1),
      (248 + 0x04, 4, elfShtSymtab), (248 + 0x18, 8, 392), (248 + 0x20, 8, 48), (248 + 0x28, 4, 3),
      (312 + 0x04, 4, elfShtStrtab), (312 + 0x18, 8, 440), (312 + 0x20, 8, 6), (377, 7, 0x6261746D79732E), (416, 4, 1),
      (416 + 0x08, 8, 0x1000), (441, 4, 0x6E69616D)].foldl (fun m w => writeLE m w.1 w.2.1 w.2.2) fun _ => 0
  size := 448
  size_lt := by decide

/-- `.symtab` is section 2, and `symtab()` finds both entries. -/
theorem lookups_safe_sample : smallFile.SymtabSection 2 ∧ smallFile.LookupsSafe 0 := by
  have hsection : smallFile.SymtabSection 2 := by
    refine ⟨by decide +kernel, by decide, by decide +kernel, ?_, by decide +kernel⟩
    intro j hj
    obtain rfl | rfl : j = 0 ∨ j = 1 := by omega
    · decide +kernel
    · decide +kernel
  refine ⟨hsection, (lookups_safe_iff (f := smallFile) (by decide +kernel) 0).2 ?_⟩
  intro i hi
  obtain rfl := ElfInfo.symtabSection_unique hsection hi
  decide +kernel

end Cs300Projects.WeensyOS.Elf
