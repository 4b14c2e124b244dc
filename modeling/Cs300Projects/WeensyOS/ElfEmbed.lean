import Cs300Projects.WeensyOS.ElfAlign
import Cs300Projects.WeensyOS.ElfSteps

/-!
# Embedding the symbol table in an aligned image

What a run has done when it comes to the program header, and that a run on such an image comes to it with nothing changed.
-/

namespace Cs300Projects.WeensyOS.Elf

open Bytes Loop Symtab

namespace File

variable (f : File) (k : Nat)

/-- The size of the range from the symbols to the end of their names. -/
def tableSize : Nat := sub64 ((f.offset (k + 1) + f.sectionSize (k + 1)) % 2 ^ 64) (f.offset k)

/-- What the references to a table that is loaded at `l` are filled in with. -/
def tableRef (l : Nat) : Symtabref :=
  ElfInfo.xstref l (f.symbolCount k) (sub64 (f.offset (k + 1)) (f.offset k)) (f.tableSize k)

/-! ### Images with the same table -/

/-- `g` has the size of `f`, the table of symbols in section `k` where `f` has it, and the same references to it. -/
structure SameSymtab (f g : File) (k : Nat) (name : List UInt8) : Prop where
  size : g.size = f.size
  references : ∀ sym, g.Reference k name sym ↔ f.Reference k name sym
  offset : g.offset k = f.offset k
  strtab : g.offset (k + 1) = f.offset (k + 1)
  sectionSize : g.sectionSize k = f.sectionSize k
  tableSize : g.tableSize k = f.tableSize k
  tableRef : ∀ l, g.tableRef k l = f.tableRef k l

section

variable {f g : File} {k : Nat} {name : List UInt8} {J : Nat → Prop}

lemma SameSymtab.refl (f : File) (k : Nat) (name : List UInt8) : SameSymtab f f k name :=
  ⟨rfl, fun _ => Iff.rfl, rfl, rfl, rfl, rfl, fun _ => rfl⟩

lemma SameSymtab.trans {h : File} (hg : SameSymtab f g k name) (hh : SameSymtab g h k name) : SameSymtab f h k name :=
  ⟨hh.size.trans hg.size, fun sym => (hh.references sym).trans (hg.references sym), hh.offset.trans hg.offset,
    hh.strtab.trans hg.strtab, hh.sectionSize.trans hg.sectionSize, hh.tableSize.trans hg.tableSize,
    fun l => (hh.tableRef l).trans (hg.tableRef l)⟩

lemma InPlace.sameSymtab (h : InPlace J f g) (hvalid : f.Valid) (hk : f.SymtabAt k) (hname : 0 ∉ name) (hJ : ¬ J (k + 1))
    (hmem : ∀ sym, sym ∈ g.symbols k ↔ sym ∈ f.symbols k) : SameSymtab f g k name := by
  have hoffset := h.offset k (Nat.lt_of_succ_lt hk.lt)
  have hsize : g.tableSize k = f.tableSize k := by
    unfold File.tableSize
    rw [hoffset, h.offset (k + 1) hk.lt, h.sectionSize (k + 1) hk.lt]
  refine ⟨h.size, h.reference hvalid hk hJ hname hmem, hoffset, h.offset (k + 1) hk.lt,
    h.sectionSize k (Nat.lt_of_succ_lt hk.lt), hsize, fun l => ?_⟩
  unfold File.tableRef
  rw [hsize, hoffset, h.offset (k + 1) hk.lt, h.symbolCount hk]

end

end File

namespace ElfInfo

variable {a e ei : ElfInfo} {f : File} {k l : Nat} {o : Options} {capacity : Nat}

/-- All that a run does but for the program header has been done, with `l` as the address. -/
structure Embedded (o : Options) (k l : Nat) (f : File) : Prop where
  valid : f.Valid
  layout : f.Layout
  found : f.findSection symtabName = k
  symtabAt : f.SymtabAt k
  aligned : f.offset k % 0x1000 = 0
  filled : f.FilledReferences k o.lsymtabName (f.tableRef k l)
  loadaddr : o.loadaddr.toNat ≠ 0 ∨ (∀ sym, ¬ f.Reference k o.lsymtabName sym) → l = o.loadaddr.toNat
  named : o.lsymtabSet = true → ∃ sym, f.Reference k o.lsymtabName sym
  sorted : inOrder (f.symbols k).tail = true
  flags : l ≠ 0 → f.flags k &&& elfShfAlloc ≠ 0 ∧ f.flags (k + 1) &&& elfShfAlloc ≠ 0

lemma Embedded.referenceWord (h : Embedded o k l f) {sym : Symbol} (href : f.Reference k o.lsymtabName sym) :
    readLE f.data (f.referenceOffset sym) 8 = l := congrArg Symtabref.sym (h.filled.object sym href)

lemma Embedded.loadAddress (h : Embedded o k l f) : f.loadAddress k o.lsymtabName o.loadaddr.toNat = l := by
  by_cases hgiven : o.loadaddr.toNat = 0
  · cases hfirst : f.firstReference k o.lsymtabName with
    | none =>
      have hnone : ∀ sym, ¬ f.Reference k o.lsymtabName sym := by
        intro sym href
        exact List.find?_eq_none.1 hfirst sym href.mem (decide_eq_true ⟨href.toIsReference, h.filled.accepted sym href⟩)
      rw [File.loadAddress_unreferenced hnone, h.loadaddr (Or.inr hnone)]
    | some sym =>
      unfold File.loadAddress
      rw [if_pos hgiven, hfirst]
      exact h.referenceWord (File.mem_of_firstReference hfirst).1
  · rw [File.loadAddress_given hgiven, h.loadaddr (Or.inl hgiven)]

lemma Embedded.plain (h : Embedded o k l f) : f.PlainReferences k o.lsymtabName o.loadaddr.toNat := by
  refine ⟨h.filled.toPlacedReferences, fun hnull sym href _ => ?_⟩
  rw [h.referenceWord href, ← h.loadAddress, hnull]

/-! ### The steps of `main` -/

lemma mkchickadeesymtab_eq_some_iff : mkchickadeesymtab o capacity f = some ei ↔
    f.Valid ∧ f.SymtabAt (f.findSection symtabName) ∧
      ((ofFile f capacity).alignSymtab (f.findSection symtabName)).bind (fun a =>
        let first := shOffset a.data (a.shdr (f.findSection symtabName))
        let strtab := shOffset a.data (a.shdr (f.findSection symtabName + 1))
        a.embed o (f.findSection symtabName) first strtab
          ((strtab + shSize a.data (a.shdr (f.findSection symtabName + 1))) % 2 ^ 64)) = some ei := by
  have hsht : (ofFile f capacity).sht.offset = eShoff (ofFile f capacity).data 0 := rfl
  have hfind : (ofFile f capacity).findSection symtabName = f.findSection symtabName := findSection_eq hsht symtabName
  have hshdr : ∀ i, (ofFile f capacity).shdr i = f.sht i := fun _ => rfl
  unfold mkchickadeesymtab
  by_cases hvalid : f.validate = .ok true
  · rw [hvalid]
    simp only [hfind, hshdr]
    have hvalid' := f.validate_true.1 hvalid
    generalize f.findSection symtabName = k
    by_cases hk : f.SymtabAt k
    · have hlink : shLink (ofFile f capacity).data (f.sht k) = k + 1 := hk.link
      rw [if_neg, if_neg]
      · exact ⟨fun h => ⟨hvalid', hk, h⟩, fun h => h.2.2⟩
      · rintro (hlt | hne | htype)
        · rw [hlink] at hlt
          exact absurd hk.lt (Nat.not_lt.2 hlt)
        · exact hne hlink
        · rw [hlink] at htype
          exact htype hk.strtab
      · rintro (hzero | htype)
        · exact hk.pos hzero
        · exact htype hk.type
    · constructor
      · intro hrun
        split at hrun
        · cases hrun
        rename_i hsymtab
        split at hrun
        · cases hrun
        rename_i hlinks
        simp only [not_or, not_not] at hsymtab hlinks
        obtain ⟨hlt, hlink, hstrtab⟩ := hlinks
        rw [hlink] at hlt hstrtab
        exact absurd ⟨hsymtab.1, Nat.not_le.1 hlt, hsymtab.2, hlink, hstrtab⟩ hk
      · exact fun h => absurd h.2.1 hk
  · constructor
    · intro hrun
      split at hrun
      · exact absurd ‹_› hvalid
      · cases hrun
    · exact fun h => absurd (f.validate_true.2 h.1) hvalid

/-- What follows on the references: `l` is the address. -/
def finish (o : Options) (k l first strtab size : Nat) (r : Rewriting) : Option ElfInfo :=
  if r.nfound = 0 ∧ o.lsymtabSet then none
  else if l = 0 then some r.ei.sortSymtab
  else ((r.ei.sortSymtab.markAllocated k l).markAllocated (k + 1) (sub64 (l + strtab) first)).addProgram l first size

lemma sub64_lt (x y : Nat) : sub64 x y < 2 ^ 64 := Nat.mod_lt _ (by decide)

lemma loadAddress_lt (f : File) (k : Nat) (name : List UInt8) (loadaddr : UInt64) :
    f.loadAddress k name loadaddr.toNat < 2 ^ 64 := by
  unfold File.loadAddress
  split
  · split
    · exact readLE_lt f.data _ 8
    · decide
  · exact loadaddr.toNat_lt

/-- A run fills in the references and goes on, or one of them is not accepted. -/
lemma Ready.embed_cases (h : Ready a k) (hfresh : a.symtab = none ∧ a.nsymtab = 0)
    (hplain : a.toFile.PlainReferences k o.lsymtabName o.loadaddr.toNat)
    (hl : a.toFile.loadAddress k o.lsymtabName o.loadaddr.toNat = l) {last : Nat}
    (hlast : last = (a.toFile.offset (k + 1) + a.toFile.sectionSize (k + 1)) % 2 ^ 64) :
    (∃ r, FilledIn a.loadSymtab k o.lsymtabName (a.toFile.tableRef k l) r ∧
      a.embed o k (a.toFile.offset k) (a.toFile.offset (k + 1)) last =
        finish o k l (a.toFile.offset k) (a.toFile.offset (k + 1)) (a.toFile.tableSize k) r) ∨
    (a.embed o k (a.toFile.offset k) (a.toFile.offset (k + 1)) last = none ∧
      ∃ sym, a.toFile.Reference k o.lsymtabName sym ∧ ¬ a.toFile.Accepts sym) := by
  obtain ⟨hopen, he⟩ := h.indexed hfresh
  have hspec := rewriteSymtabref_spec (x := a.toFile.tableRef k l) hopen he o.nul hplain hl rfl
    (hl ▸ loadAddress_lt a.toFile k o.lsymtabName o.loadaddr) (sub64_lt _ _)
    (sub64_lt (a.toFile.offset (k + 1)) (a.toFile.offset k))
  have hembed : a.embed o k (a.toFile.offset k) (a.toFile.offset (k + 1)) last =
      (a.rewriteSymtabref o.lsymtabName o.loadaddr.toNat (sub64 (a.toFile.offset (k + 1)) (a.toFile.offset k))
        (a.toFile.tableSize k)).bind fun r =>
          finish o k r.loadaddr (a.toFile.offset k) (a.toFile.offset (k + 1)) (a.toFile.tableSize k) r := by
    rw [hlast]
    rfl
  rcases hspec with ⟨r, hrun, hr⟩ | ⟨hrun, hbad⟩
  · refine Or.inl ⟨r, hr, ?_⟩
    rw [hembed, hrun, Option.bind_some, hr.loadaddr]
    rfl
  · refine Or.inr ⟨?_, hbad⟩
    rw [hembed, hrun]
    rfl

lemma Indexed.sortSymtab_eq (he : Indexed e k) (hsorted : inOrder (e.toFile.symbols k).tail = true) : e.sortSymtab = e := by
  have hsome : e.symtab.isSome := by
    rw [he.table.symtab]
    rfl
  rw [sortSymtab_loaded hsome, he.table.symbols, if_pos hsorted]

lemma Embedded.ready (h : Embedded o k l f) (capacity : Nat) : Ready (ofFile f capacity) k :=
  ⟨h.valid, h.layout, rfl, rfl, h.found, h.symtabAt⟩

/-- A run on its own output comes to the program header with nothing changed. -/
lemma Embedded.rerun (h : Embedded o k l f) (capacity : Nat) : mkchickadeesymtab o capacity f =
    if l = 0 then some (ofFile f capacity).loadSymtab
    else (ofFile f capacity).loadSymtab.addProgram l (f.offset k) (f.tableSize k) := by
  have hready := h.ready capacity
  obtain ⟨-, he⟩ := hready.indexed ⟨rfl, rfl⟩
  have hfile : (ofFile f capacity).loadSymtab.toFile = f := (ofFile f capacity).loadSymtab_file.1
  have hrun : mkchickadeesymtab o capacity f = (ofFile f capacity).embed o k (f.offset k) (f.offset (k + 1))
      ((f.offset (k + 1) + f.sectionSize (k + 1)) % 2 ^ 64) := by
    apply Option.ext
    intro ei
    rw [mkchickadeesymtab_eq_some_iff, h.found, hready.alignSymtab h.aligned]
    exact ⟨fun hrun => hrun.2.2, fun hrun => ⟨h.valid, h.symtabAt, hrun⟩⟩
  rw [hrun]
  rcases hready.embed_cases ⟨rfl, rfl⟩ h.plain h.loadAddress rfl with ⟨r, hr, hembed⟩ | ⟨-, sym, href, hbad⟩
  · rw [show (ofFile f capacity).toFile = f from rfl] at hembed hr
    have hei : r.ei = (ofFile f capacity).loadSymtab := by
      apply hr.unchanged
      rw [hfile]
      exact h.filled.object
    have hnamed : ¬ (r.nfound = 0 ∧ o.lsymtabSet = true) := by
      rintro ⟨hzero, hset⟩
      obtain ⟨sym, href⟩ := h.named hset
      have hnone := hr.nfound.1 hzero sym
      rw [hfile] at hnone
      exact hnone href
    rw [hembed, finish, if_neg hnamed, hei, he.sortSymtab_eq (by rw [hfile]; exact h.sorted)]
    by_cases hnull : l = 0
    · rw [if_pos hnull, if_pos hnull]
    · obtain ⟨hflags, hflags'⟩ := h.flags hnull
      rw [if_neg hnull, if_neg hnull, markAllocated_of_flags (he.toReady.shdr k) (by rw [hfile]; exact hflags),
        markAllocated_of_flags (he.toReady.shdr (k + 1)) (by rw [hfile]; exact hflags')]
  · exact absurd (h.filled.accepted sym href) hbad

/-! ### A run -/

lemma FilledIn.filledReferences {name : List UInt8} {x : Symtabref} {r : Rewriting} (h : FilledIn e k name x r)
    (he : Indexed e k) (hname : 0 ∉ name) (hplaced : e.toFile.PlacedReferences k name) :
    r.ei.toFile.FilledReferences k name x := by
  have hin := h.kept.inPlace he
  have hsymbols : r.ei.toFile.symbols k = e.toFile.symbols k := hin.symbols he.symtabAt he.not_progbits.1
  obtain ⟨href, hplaced'⟩ :=
    hin.placedReferences he.valid he.symtabAt hname he.not_progbits.2 hplaced fun sym => by rw [hsymbols]
  refine ⟨hplaced', ?_, ?_⟩
  · intro sym hsym
    have hsym' := (href sym).1 hsym
    exact (hin.accepts hsym'.inSection).2 (h.accepted sym hsym')
  · intro sym hsym
    have hsym' := (href sym).1 hsym
    have haccepts := h.accepted sym hsym'
    have hoffset : r.ei.toFile.referenceOffset sym = e.toFile.referenceOffset sym := by
      unfold File.referenceOffset
      rw [hin.offset _ hsym'.inSection, hin.addr _ hsym'.inSection haccepts.type]
    rw [hoffset]
    exact h.object sym hsym'

/-- A state of a run in which the references are filled in. -/
structure Filled (a : ElfInfo) (o : Options) (k l : Nat) (ei : ElfInfo) : Prop where
  indexed : Indexed ei k
  same : File.SameSymtab a.toFile ei.toFile k o.lsymtabName
  programs : File.SameTable a.toFile ei.toFile
  filled : ei.toFile.FilledReferences k o.lsymtabName (a.toFile.tableRef k l)

lemma Filled.carry {J : Nat → Prop} (h : Filled a o k l e) (hin : File.InPlace J e.toFile ei.toFile) (hei : Indexed ei k)
    (hJ : ∀ i, e.toFile.type i ≠ elfShtSymtab → ¬ J i)
    (hmem : ∀ sym, sym ∈ ei.toFile.symbols k ↔ sym ∈ e.toFile.symbols k)
    (hprograms : File.SameTable e.toFile ei.toFile) : Filled a o k l ei := by
  have he := h.indexed
  exact ⟨hei, h.same.trans (hin.sameSymtab he.valid he.symtabAt o.nul (he.symtabAt.not_strtab hJ) hmem),
    h.programs.trans hprograms, hin.filledReferences he.valid hei.valid he.symtabAt o.nul hJ h.filled hmem⟩

/-- The state before a program header is searched for. -/
structure Prepared (a : ElfInfo) (o : Options) (k l : Nat) (ei : ElfInfo) : Prop extends Filled a o k l ei where
  sorted : inOrder (ei.toFile.symbols k).tail = true
  flags : l ≠ 0 → ei.toFile.flags k &&& elfShfAlloc ≠ 0 ∧ ei.toFile.flags (k + 1) &&& elfShfAlloc ≠ 0

lemma Filled.sorted (h : Filled a o k l e) : Filled a o k l e.sortSymtab ∧
    inOrder (e.sortSymtab.toFile.symbols k).tail = true := by
  have hs := h.indexed.sorted
  constructor
  · refine h.carry hs.inPlace hs.indexed ?_ ?_ hs.table
    · rintro i htype rfl
      exact htype h.indexed.symtabAt.type
    · intro sym
      rw [hs.symbols, (sortSymtab_perm _).mem_iff]
  · rw [hs.symbols]
    exact inOrder_iff_ordered.2 (sortSymtab_sorted _).rest.ordered

lemma Filled.marked (h : Filled a o k l e) (hsorted : inOrder (e.toFile.symbols k).tail = true) (addr addr' : Nat) :
    Prepared a o k l ((e.markAllocated k addr).markAllocated (k + 1) addr') := by
  have hk := h.indexed.symtabAt
  have hlt := Nat.lt_of_succ_lt hk.lt
  have hm := h.indexed.marked hlt (by rw [hk.type]; decide) addr
  have hk' := hm.indexed.symtabAt
  have hm' := hm.indexed.marked hk'.lt (by rw [hk'.strtab]; decide) addr'
  have hsymbols := hm.inPlace.symbols hk id
  have hsymbols' := hm'.inPlace.symbols hk' id
  have hfilled := h.carry hm.inPlace hm.indexed (fun _ _ => id) (fun sym => by rw [hsymbols]) hm.table
  have hfilled' := hfilled.carry hm'.inPlace hm'.indexed (fun _ _ => id) (fun sym => by rw [hsymbols']) hm'.table
  refine ⟨hfilled', ?_, fun _ => ⟨?_, hm'.flags⟩⟩
  · rw [hsymbols', hsymbols]
    exact hsorted
  · rw [hm'.others k (Nat.lt_of_succ_lt hk'.lt) (Nat.ne_of_lt (Nat.lt_succ_self k))]
    exact hm.flags

/-- What the run leaves before the program header. -/
lemma Prepared.embedded (h : Prepared a o k l ei) (haligned : a.toFile.offset k % 0x1000 = 0)
    (hl : a.toFile.loadAddress k o.lsymtabName o.loadaddr.toNat = l)
    (hnamed : o.lsymtabSet = true → ∃ sym, a.toFile.Reference k o.lsymtabName sym) : Embedded o k l ei.toFile := by
  have he := h.indexed
  have hsame := h.same
  refine ⟨he.valid, he.layout, he.found, he.symtabAt, ?_, ?_, ?_, ?_, h.sorted, h.flags⟩
  · rw [hsame.offset]
    exact haligned
  · rw [hsame.tableRef]
    exact h.filled
  · rintro (hgiven | hnone)
    · rw [← hl, File.loadAddress_given hgiven]
    · rw [← hl, File.loadAddress_unreferenced fun sym href => hnone sym ((hsame.references sym).2 href)]
  · intro hset
    obtain ⟨sym, href⟩ := hnamed hset
    exact ⟨sym, (hsame.references sym).2 href⟩

/-- A run on an aligned image comes to the program header with everything else done. -/
lemma Ready.embed_prepared (h : Ready a k) (hfresh : a.symtab = none ∧ a.nsymtab = 0)
    (haligned : a.toFile.offset k % 0x1000 = 0) (hplain : a.toFile.PlainReferences k o.lsymtabName o.loadaddr.toNat)
    (hl : a.toFile.loadAddress k o.lsymtabName o.loadaddr.toNat = l) {last : Nat}
    (hlast : last = (a.toFile.offset (k + 1) + a.toFile.sectionSize (k + 1)) % 2 ^ 64)
    (hrun : a.embed o k (a.toFile.offset k) (a.toFile.offset (k + 1)) last = some ei) :
    ∃ m, Prepared a o k l m ∧ Embedded o k l m.toFile ∧
      if l = 0 then ei = m else m.addProgram l (a.toFile.offset k) (a.toFile.tableSize k) = some ei := by
  rcases h.embed_cases hfresh hplain hl hlast with ⟨r, hr, hembed⟩ | ⟨hnone, -⟩
  swap
  · rw [hnone] at hrun
    cases hrun
  obtain ⟨-, he⟩ := h.indexed hfresh
  have hfile : a.loadSymtab.toFile = a.toFile := a.loadSymtab_file.1
  have hplaced : a.loadSymtab.toFile.PlacedReferences k o.lsymtabName := hfile ▸ hplain.toPlacedReferences
  have hin := hr.kept.inPlace he
  have hsymbols : r.ei.toFile.symbols k = a.loadSymtab.toFile.symbols k := hin.symbols he.symtabAt he.not_progbits.1
  have hsame := hin.sameSymtab he.valid he.symtabAt o.nul he.not_progbits.2 (fun sym => by rw [hsymbols])
  have hprograms := File.SameTable.of_contents he.valid he.layout (fun _ => Or.inr) hr.kept.frame
  have hfilled : Filled a o k l r.ei :=
    ⟨hr.kept.indexed he, hfile ▸ hsame, hfile ▸ hprograms, hr.filledReferences he o.nul hplaced⟩
  obtain ⟨hs, hsorted⟩ := hfilled.sorted
  have hnamed : o.lsymtabSet = true → ∃ sym, a.toFile.Reference k o.lsymtabName sym := by
    intro hset
    by_contra hnone
    have hzero : r.nfound = 0 := by
      rw [hr.nfound, hfile]
      exact fun sym href => hnone ⟨sym, href⟩
    rw [hembed, finish, if_pos ⟨hzero, hset⟩] at hrun
    cases hrun
  rw [hembed, finish] at hrun
  split at hrun
  · cases hrun
  by_cases hnull : l = 0
  · rw [if_pos hnull] at hrun
    have hprepared : Prepared a o k l r.ei.sortSymtab := ⟨hs, hsorted, fun hne => absurd hnull hne⟩
    refine ⟨_, hprepared, hprepared.embedded haligned hl hnamed, ?_⟩
    rw [if_pos hnull]
    exact (Option.some.inj hrun).symm
  · rw [if_neg hnull] at hrun
    have hprepared := hs.marked hsorted l (sub64 (l + a.toFile.offset (k + 1)) (a.toFile.offset k))
    refine ⟨_, hprepared, hprepared.embedded haligned hl hnamed, ?_⟩
    rw [if_neg hnull]
    exact hrun

end ElfInfo

end Cs300Projects.WeensyOS.Elf
