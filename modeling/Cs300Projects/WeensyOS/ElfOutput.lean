import Cs300Projects.WeensyOS.ElfIdempotent

/-!
# What `mkchickadeesymtab` keeps

The sections of the output are those of the input. Their contents are as they were, but for the objects that refer to the
symbol table, which are filled in, and for the symbols, which are sorted. The program headers are as they were, but for the
offsets of what has been moved, and for the new one.
-/

namespace Cs300Projects.WeensyOS.Elf

open Bytes Loop Symtab

namespace File

variable {f g h : File} {k : Nat} {name : List UInt8}

/-- The byte is in none of the objects that are filled in. -/
def Untouched (f : File) (k : Nat) (name : List UInt8) (y : Nat) : Prop :=
  ∀ sym, f.Reference k name sym → f.Accepts sym → Outside y (f.referenceOffset sym) symtabrefSize

/-- `g` has the sections of `f`, with their contents but for the symbols and the objects that refer to them. -/
structure Keeps (name : List UInt8) (k : Nat) (f g : File) : Prop where
  carries : Carries (fun i => i = k ∨ f.type i = elfShtProgbits) f g
  objects : ∀ i x, f.Stored i → f.type i = elfShtProgbits → x < f.sectionSize i →
    (∀ sym, f.Reference k name sym → sym.stShndx.toNat = i → Outside (f.addr i + x) sym.stValue.toNat symtabrefSize) →
      g.data (g.offset i + x) = f.data (f.offset i + x)

lemma Carries.mono {J J' : Nat → Prop} (hg : Carries J f g) (hJ : ∀ i, J i → J' i) : Carries J' f g :=
  { hg with content := fun i hi hnot => hg.content i hi fun hin => hnot (hJ i hin) }

/-- Only the symbols change. -/
lemma Keeps.carried {J : Nat → Prop} (hg : Keeps name k f g) (hh : Carries J g h) (hk : f.SymtabAt k) (hJ : ∀ i, J i → i = k) :
    Keeps name k f h := by
  refine ⟨hg.carries.trans (hh.mono fun i hi => Or.inl (hJ i hi)), ?_⟩
  intro i x hi htype hx hout
  have hstored := hg.carries.stored_iff.2 hi
  have hnot : ¬ J i := by
    intro hin
    rw [hJ i hin, hk.type] at htype
    exact absurd htype (by decide)
  rw [hh.content i hstored hnot x (by rw [hg.carries.sectionSize i hi.lt]; exact hx)]
  exact hg.objects i x hi htype hx hout

/-- The image was moved before. -/
lemma Keeps.moved (hf : Carries (fun _ => False) f g) (hg : Keeps name k g h) (hvalid : f.Valid) (hk : f.SymtabAt k)
    (hname : 0 ∉ name) : Keeps name k f h := by
  have hsymbols := hf.symbols hk id
  have href := hf.reference hvalid hk id hname fun sym => by rw [hsymbols]
  have hcarries : Carries (fun i => i = k ∨ f.type i = elfShtProgbits) f h := by
    refine { (hf.mono fun _ => False.elim).trans hg.carries with content := ?_ }
    intro i hi hnot x hx
    have hnot' : ¬ (i = k ∨ g.type i = elfShtProgbits) := by
      rw [hf.type i hi.lt]
      exact hnot
    rw [hg.carries.content i (hf.stored_iff.2 hi) hnot' x (by rw [hf.sectionSize i hi.lt]; exact hx)]
    exact hf.content i hi id x hx
  refine ⟨hcarries, ?_⟩
  intro i x hi htype hx hout
  have htype' : g.type i = elfShtProgbits := (hf.type i hi.lt).trans htype
  rw [hg.objects i x (hf.stored_iff.2 hi) htype' (by rw [hf.sectionSize i hi.lt]; exact hx), hf.content i hi id x hx]
  intro sym hsym hin
  rw [hf.addr i hi.lt htype]
  exact hout sym ((href sym).1 hsym) hin

/-- A byte of a section is in no object that is filled in, if its address is in none. -/
lemma untouched_of_address (hvalid : f.Valid) (hlayout : f.Layout) (hplaced : f.PlacedReferences k name) {i x : Nat}
    (hi : f.Stored i) (hx : x < f.sectionSize i)
    (hout : ∀ sym, f.Reference k name sym → sym.stShndx.toNat = i → Outside (f.addr i + x) sym.stValue.toNat symtabrefSize) :
    f.Untouched k name (f.offset i + x) := by
  intro sym href haccepts
  obtain ⟨hoffset, hinside⟩ := haccepts.offset_eq hvalid href.inSection (hplaced.low sym href haccepts)
  have hstart := haccepts.start
  by_cases hin : sym.stShndx.toNat = i
  · have hapart := hout sym href hin
    rw [hin] at hstart hoffset
    rw [hoffset]
    unfold Outside at hapart ⊢
    omega
  · have hpos : 0 < symtabrefSize := by decide
    have hapart := hlayout.contents _ i (haccepts.stored href.inSection) hi hin (Or.inr haccepts.type) (by omega) (by omega)
    rw [hoffset]
    unfold Apart at hapart
    unfold Outside
    omega

end File

namespace ElfInfo

variable {a e ei m : ElfInfo} {f : File} {i k l strtabOff size loadaddr : Nat} {o : Options} {capacity : Nat}
  {name : List UInt8} {x : Symtabref} {t t' : Rewriting}

/-! ### The loop that fills in the objects -/

lemma Filling.fits (h : Filling e k name loadaddr x t) (he : Indexed e k) (hload : loadaddr < 2 ^ 64) (hx : x.sym < 2 ^ 64) :
    Fits t := by
  constructor
  case loadaddr =>
    rcases Nat.eq_zero_or_pos t.nfound with hzero | hpos
    · rw [(h.unfound hzero).1]
      exact hload
    · rw [(h.found hpos).1]
      exact hx
  case nsymtab =>
    have hcount : t.ei.nsymtab = t.ei.toFile.symbolCount k := (h.kept.tableAt he).nsymtab
    rw [hcount]
    exact Nat.mod_lt _ (by decide)

/-- A round of the loop changes no byte outside the objects. -/
lemma Filling.touched {strtabOff size : UInt64} (h : Filling e k name loadaddr x t) (he : Indexed e k) (hfits : Fits t)
    (hstep : rewriteRound name strtabOff.toNat size.toNat t = .next t') {y : Nat} (hy : e.toFile.Untouched k name y) :
    t'.ei.data y = t.ei.data y := by
  obtain ⟨-, -, hskipped | ⟨sym, hfilled⟩⟩ := rewriteRound_next hfits hstep
  · rw [hskipped.ei]
  · obtain ⟨i, hi, hsym⟩ := hfilled.considered.current
    obtain ⟨hlt, hnamed⟩ := h.current i hi
    have hcurrent : symbolAt t.ei.data (t.ei.symbol i) = e.toFile.symbol k i :=
      ((h.kept.tableAt he).symbol i).trans (h.kept.symbol he hlt)
    obtain rfl : sym = e.toFile.symbol k i := hsym.symm.trans hcurrent
    obtain ⟨htype, hshndx⟩ := (h.kept.isObject he).1 hfilled.considered.object
    have haccepts := (h.kept.accepted he hshndx).1 hfilled.accepted
    apply hfilled.within
    rw [h.kept.symtabrefOffset he hshndx haccepts]
    exact hy _ ⟨⟨hnamed, htype, hshndx⟩, File.mem_symbols.2 ⟨i, hlt, rfl⟩⟩ haccepts

/-- What the loop leaves, and what it does not touch. -/
lemma rewriteSymtabref_touched {addr : UInt64} {r : Rewriting} (hopen : a.Opened) (he : Indexed a.loadSymtab k)
    (hname : 0 ∉ name) (hplain : a.toFile.PlainReferences k name addr.toNat)
    (hl : a.toFile.loadAddress k name addr.toNat = x.sym) (hx : x = xstref x.sym (a.toFile.symbolCount k) strtabOff size)
    (hsym64 : x.sym < 2 ^ 64) (hsize64 : size < 2 ^ 64) (hstrtab64 : strtabOff < 2 ^ 64)
    (hrun : a.rewriteSymtabref name addr.toNat strtabOff size = some r) :
    ∀ y, a.toFile.Untouched k name y → r.ei.data y = a.data y := by
  have hfile := a.loadSymtab_file.1
  obtain ⟨result, hresult⟩ : ∃ result, run (rewriteRound name (UInt64.ofNat strtabOff).toNat (UInt64.ofNat size).toNat)
      (a.loadSymtab.nsymtab + 1) (a.startRewriting name addr) = some result := rewriting_ends hopen
  have hwhole : result = some r := by
    rw [UInt64.toNat_ofNat_of_lt' hstrtab64, UInt64.toNat_ofNat_of_lt' hsize64] at hresult
    exact (congrArg Option.join hresult).symm.trans hrun
  rw [hwhole] at hresult
  have hstep64 : strtabOff = (UInt64.ofNat strtabOff).toNat := (UInt64.toNat_ofNat_of_lt' hstrtab64).symm
  have hsize64' : size = (UInt64.ofNat size).toNat := (UInt64.toNat_ofNat_of_lt' hsize64).symm
  have hround : ∀ t, Filling a.loadSymtab k name addr.toNat x t → ∀ t',
      rewriteRound name (UInt64.ofNat strtabOff).toNat (UInt64.ofNat size).toNat t = .next t' →
        Filling a.loadSymtab k name addr.toNat x t' := by
    intro t ht t' hstep
    rw [← hstep64, ← hsize64'] at hstep
    cases hi : t.sym with
    | none => simp [rewriteRound, hi] at hstep
    | some i =>
      rcases ht.round he hname (hfile ▸ hplain) (hfile ▸ hl) (hfile ▸ hx) hsym64 hsize64 hi with ⟨u, hnext, hu⟩ | ⟨hdone, -⟩
      · rw [hstep, Round.next.injEq] at hnext
        exact hnext ▸ hu
      · rw [hstep] at hdone
        cases hdone
  have hinv := run_invariant _ (fun t => Filling a.loadSymtab k name addr.toNat x t ∧
      ∀ y, a.toFile.Untouched k name y → t.ei.data y = a.data y)
    (fun result => ∀ r, result = some r → ∀ y, a.toFile.Untouched k name y → r.ei.data y = a.data y) ?_ ?_
    ⟨filling_start he hname x, fun y _ => congrFun (congrArg File.data hfile) y⟩ hresult
  · exact hinv r rfl
  · rintro t t' ⟨ht, hsame⟩ hstep
    refine ⟨hround t ht t' hstep, fun y hy => ?_⟩
    rw [ht.touched he (ht.fits he addr.toNat_lt hsym64) hstep (hfile ▸ hy)]
    exact hsame y hy
  · rintro t result' ⟨-, hsame⟩ hdone r' rfl
    cases hi : t.sym with
    | none =>
      simp only [rewriteRound, hi, Round.done.injEq, Option.some.injEq] at hdone
      rw [← hdone]
      exact hsame
    | some i =>
      simp only [rewriteRound, hi] at hdone
      split at hdone
      · split at hdone
        · cases hdone
        · cases hdone
      · cases hdone

/-! ### The steps of a run -/

/-- Filling in the objects keeps everything else. -/
lemma FilledIn.keeps {r : Rewriting} (h : FilledIn a.loadSymtab k name x r) (he : Indexed a.loadSymtab k)
    (hplaced : a.toFile.PlacedReferences k name) (htouched : ∀ y, a.toFile.Untouched k name y → r.ei.data y = a.data y) :
    File.Keeps name k a.toFile r.ei.toFile ∧ r.ei.toFile.symbols k = a.toFile.symbols k := by
  have hfile : a.loadSymtab.toFile = a.toFile := a.loadSymtab_file.1
  have hin := h.kept.inPlace he
  have hsymbols := hin.symbols he.symtabAt he.not_progbits.1
  have hvalid := he.valid
  have hlayout := he.layout
  unfold InProgbits at hin
  rw [hfile] at hin hsymbols hvalid hlayout
  refine ⟨⟨hin.mono fun i hi => Or.inr hi, ?_⟩, hsymbols⟩
  intro i y hi htype hy hout
  rw [hin.offset i hi.lt]
  exact htouched _ (File.untouched_of_address hvalid hlayout hplaced hi hy hout)

/-- A run on an aligned image comes to the program header with the sections kept and the symbols sorted. -/
lemma Ready.embed_keeps (h : Ready a k) (hfresh : a.symtab = none ∧ a.nsymtab = 0)
    (haligned : a.toFile.offset k % 0x1000 = 0) (hplain : a.toFile.PlainReferences k o.lsymtabName o.loadaddr.toNat)
    (hl : a.toFile.loadAddress k o.lsymtabName o.loadaddr.toNat = l) {last : Nat}
    (hlast : last = (a.toFile.offset (k + 1) + a.toFile.sectionSize (k + 1)) % 2 ^ 64)
    (hrun : a.embed o k (a.toFile.offset k) (a.toFile.offset (k + 1)) last = some ei) :
    ∃ m, File.Keeps o.lsymtabName k a.toFile m.toFile ∧ m.toFile.symbols k = Symtab.sortSymtab (a.toFile.symbols k) ∧
      Prepared a o k l m ∧ Embedded o k l m.toFile ∧
        if l = 0 then ei = m else m.addProgram l (a.toFile.offset k) (a.toFile.tableSize k) = some ei := by
  obtain ⟨hopen, he⟩ := h.indexed hfresh
  have hfile : a.loadSymtab.toFile = a.toFile := a.loadSymtab_file.1
  have hl64 : l < 2 ^ 64 := hl ▸ loadAddress_lt a.toFile k o.lsymtabName o.loadaddr
  have hsize64 : a.toFile.tableSize k < 2 ^ 64 := sub64_lt _ _
  have hstrtab64 := sub64_lt (a.toFile.offset (k + 1)) (a.toFile.offset k)
  -- the loop
  have hembed : a.embed o k (a.toFile.offset k) (a.toFile.offset (k + 1)) last =
      (a.rewriteSymtabref o.lsymtabName o.loadaddr.toNat (sub64 (a.toFile.offset (k + 1)) (a.toFile.offset k))
        (a.toFile.tableSize k)).bind fun r =>
          finish o k r.loadaddr (a.toFile.offset k) (a.toFile.offset (k + 1)) (a.toFile.tableSize k) r := by
    rw [hlast]
    rfl
  rw [hembed] at hrun
  obtain ⟨r, hloop, hfinish⟩ := Option.bind_eq_some_iff.1 hrun
  have htouched := rewriteSymtabref_touched (x := a.toFile.tableRef k l) hopen he o.nul hplain hl rfl hl64 hsize64 hstrtab64 hloop
  have hr : FilledIn a.loadSymtab k o.lsymtabName (a.toFile.tableRef k l) r := by
    rcases rewriteSymtabref_spec (x := a.toFile.tableRef k l) hopen he o.nul hplain hl rfl hl64 hsize64 hstrtab64 with
      ⟨r', hrun', hr'⟩ | ⟨hnone, -⟩
    · obtain rfl : r = r' := Option.some.inj (hloop.symm.trans hrun')
      exact hr'
    · rw [hnone] at hloop
      cases hloop
  obtain ⟨hkeeps, hsymbols⟩ := hr.keeps he hplain.toPlacedReferences htouched
  have hplaced : a.loadSymtab.toFile.PlacedReferences k o.lsymtabName := hfile ▸ hplain.toPlacedReferences
  have hin := hr.kept.inPlace he
  have hsame := hin.sameSymtab he.valid he.symtabAt o.nul he.not_progbits.2
    (fun sym => by rw [hin.symbols he.symtabAt he.not_progbits.1])
  have hprograms := File.SameTable.of_contents he.valid he.layout (fun _ => Or.inr) hr.kept.frame
  have hfilled : Filled a o k l r.ei :=
    ⟨hr.kept.indexed he, hfile ▸ hsame, hfile ▸ hprograms, hr.filledReferences he o.nul hplaced⟩
  -- sorting
  have hk : a.toFile.SymtabAt k := h.symtabAt
  have hsort := hfilled.indexed.sorted
  obtain ⟨hs, hsorted⟩ := hfilled.sorted
  have hkeeps' := hkeeps.carried hsort.inPlace.toCarries hk fun i hi => hi
  have hsymbols' : r.ei.sortSymtab.toFile.symbols k = Symtab.sortSymtab (a.toFile.symbols k) :=
    hsort.symbols.trans (congrArg Symtab.sortSymtab hsymbols)
  have hnamed : o.lsymtabSet = true → ∃ sym, a.toFile.Reference k o.lsymtabName sym := by
    intro hset
    by_contra hnone
    have hzero : r.nfound = 0 := by
      rw [hr.nfound, hfile]
      exact fun sym href => hnone ⟨sym, href⟩
    rw [finish, if_pos ⟨hzero, hset⟩] at hfinish
    cases hfinish
  have haddr : r.loadaddr = l := hr.loadaddr
  rw [haddr, finish] at hfinish
  split at hfinish
  · cases hfinish
  by_cases hnull : l = 0
  · rw [if_pos hnull] at hfinish
    have hprepared : Prepared a o k l r.ei.sortSymtab := ⟨hs, hsorted, fun hne => absurd hnull hne⟩
    refine ⟨_, hkeeps', hsymbols', hprepared, hprepared.embedded haligned hl hnamed, ?_⟩
    rw [if_pos hnull]
    exact (Option.some.inj hfinish).symm
  · rw [if_neg hnull] at hfinish
    have hprepared := hs.marked hsorted l (sub64 (l + a.toFile.offset (k + 1)) (a.toFile.offset k))
    -- marking the two sections
    have hlt := Nat.lt_of_succ_lt hs.indexed.symtabAt.lt
    have hm := hs.indexed.marked hlt (by rw [hs.indexed.symtabAt.type]; decide) l
    have hk' := hm.indexed.symtabAt
    have hm' := hm.indexed.marked hk'.lt (by rw [hk'.strtab]; decide)
      (sub64 (l + a.toFile.offset (k + 1)) (a.toFile.offset k))
    have hmarked := (hkeeps'.carried hm.inPlace.toCarries hk fun _ => False.elim).carried hm'.inPlace.toCarries hk fun _ => False.elim
    refine ⟨_, hmarked, ?_, hprepared, hprepared.embedded haligned hl hnamed, ?_⟩
    · rw [hm'.inPlace.symbols hk' id, hm.inPlace.symbols hs.indexed.symtabAt id]
      exact hsymbols'
    · rw [if_neg hnull]
      exact hfinish

/-- The image that a run leaves before it comes to the program header has the sections of the input. -/
structure KeepsRun (o : Options) (f : File) (k l : Nat) (a m ei : ElfInfo) : Prop extends RunOn o f k l a m ei where
  keeps : File.Keeps o.lsymtabName k f m.toFile
  symbols : m.toFile.symbols k = Symtab.sortSymtab (f.symbols k)

lemma Regular.keepsRun (hregular : Regular o f) (hrun : mkchickadeesymtab o capacity f = some ei) :
    ∃ a m, KeepsRun o f (f.findSection symtabName) (symtabAddr o f) a m ei := by
  obtain ⟨hvalid, hk, hrun⟩ := mkchickadeesymtab_eq_some_iff.1 hrun
  have hplain := hregular.plain
  unfold symtabAddr
  generalize hfound : f.findSection symtabName = k at *
  obtain ⟨a, halign, hembed⟩ := Option.bind_eq_some_iff.1 hrun
  have hready : Ready (ofFile f capacity) k := ⟨hvalid, hregular.layout, rfl, rfl, hfound, hk⟩
  have ha := hready.aligned halign
  have hvalid' := ha.ready.valid
  have hsymbols := ha.carries.symbols hk id
  have hplain' := ha.carries.plainReferences hvalid hvalid' hk o.nul (fun _ _ => id) hplain hsymbols
  have hl : a.toFile.loadAddress k o.lsymtabName o.loadaddr.toNat = f.loadAddress k o.lsymtabName o.loadaddr.toNat :=
    ha.carries.loadAddress hvalid hvalid' hk o.nul (fun _ _ => id) hplain.toPlacedReferences hsymbols
  simp only [ha.ready.shdr] at hembed
  obtain ⟨m, hkeeps, hsorted, hprepared, hembedded, hprogram⟩ :=
    ha.ready.embed_keeps ha.fresh (ha.page hk) hplain' hl rfl hembed
  refine ⟨a, m, ⟨hvalid, hk, ha, hprepared, hembedded, ?_⟩, File.Keeps.moved ha.carries hkeeps hvalid hk o.nul, ?_⟩
  · rw [hprepared.same.offset, hprepared.same.tableSize]
    exact hprogram
  · rw [hsorted, hsymbols]

/-- The header `j` of `g` is the header `i` of `f`, but for the offset of what has been moved with the section `k`. -/
structure HeaderKept (f g : File) (k i j : Nat) : Prop where
  field : ∀ o n, o + n ≤ elfProgramSize → Apart o n 0x08 8 →
    readLE g.data (g.pht j + o) n = readLE f.data (f.pht i + o) n
  offset : pOffset g.data (g.pht j) = moved (f.offset k) (f.padding k) (pOffset f.data (f.pht i)) % 2 ^ 64

/-- What the output has of the input. -/
structure Output (o : Options) (k l : Nat) (f g : File) : Prop where
  valid : g.Valid
  keeps : File.Keeps o.lsymtabName k f g
  symbols : g.symbols k = Symtab.sortSymtab (f.symbols k)
  references : ∀ sym, f.Reference k o.lsymtabName sym → symtabrefAt g.data (g.referenceOffset sym) = g.tableRef k l
  headers : ∀ i, i < ePhnum f.data 0 → ∃ j, j < ePhnum g.data 0 ∧ HeaderKept f g k i j

/-- A program header can be added if one has to be. -/
def RoomForHeader (f : File) (k l : Nat) : Prop :=
  l = 0 ∨ f.HasProgram l (f.offset k) (f.alignedSize k) ∨ ePhnum f.data 0 + 1 < 2 ^ 16

lemma Aligned.headerKept {i j : Nat} {g : File} (h : Aligned f k a) (hi : i < ePhnum f.data 0)
    (hsame : File.SameProgram a.toFile g i j) : HeaderKept f g k i j :=
  ⟨fun o n ho hapart => (hsame.readLE ho).trans (h.programField i hi o n ho hapart), hsame.offset.trans (h.programOffset i hi)⟩

lemma KeepsRun.references (h : KeepsRun o f k l a m ei) {g : File} (hg : Embedded o k l g)
    (hsame : File.SameSymtab m.toFile g k o.lsymtabName) {sym : Symbol} (href : f.Reference k o.lsymtabName sym) :
    symtabrefAt g.data (g.referenceOffset sym) = g.tableRef k l := by
  have hk := h.symtabAt
  have hsymbols := h.aligned.carries.symbols hk id
  apply hg.filled.object
  rw [hsame.references, h.prepared.same.references]
  exact (h.aligned.carries.reference h.valid hk id o.nul (fun sym => by rw [hsymbols]) sym).2 href

lemma KeepsRun.output (h : KeepsRun o f k l a m ei) (hfile : f.size < 2 ^ 63) (hl64 : l < 2 ^ 64)
    (hroom : RoomForHeader f k l) : Output o k l f ei.toFile := by
  have hprograms := h.prepared.programs
  have hunchanged : Output o k l f m.toFile := by
    refine ⟨h.embedded.valid, h.keeps, h.symbols, fun sym href => h.references h.embedded (.refl _ _ _) href, ?_⟩
    intro i hi
    have hi' : i < ePhnum a.data 0 := h.aligned.phnum.symm ▸ hi
    exact ⟨i, hprograms.phnum.symm ▸ hi', h.aligned.headerKept hi (hprograms.program i hi')⟩
  by_cases hl : l = 0
  · have hprogram := h.program
    rw [if_pos hl] at hprogram
    rw [hprogram]
    exact hunchanged
  rcases h.program_cases hfile hl hl64 with ⟨-, rfl⟩ | ⟨hnone, -, hinserted⟩
  · exact hunchanged
  have hins := hinserted ((hroom.resolve_left hl).resolve_left hnone)
  have hk := h.symtabAt
  obtain ⟨hembedded, hsame⟩ := hins.embedded h.prepared.indexed h.embedded
  refine ⟨hembedded.valid, h.keeps.carried hins.inPlace.toCarries hk fun _ => False.elim, ?_,
    fun sym href => h.references hembedded hsame href, ?_⟩
  · rw [hins.inPlace.symbols h.prepared.indexed.symtabAt id]
    exact h.symbols
  · intro i hi
    have hi' : i < ePhnum a.data 0 := h.aligned.phnum.symm ▸ hi
    have hi'' : i < ePhnum m.data 0 := hprograms.phnum.symm ▸ hi'
    have hfirst := hprograms.program i hi'
    have hphnum := hins.program.phnum
    by_cases hbefore : i < m.toFile.findProgram l
    · refine ⟨i, by omega, h.aligned.headerKept hi fun y hy => ?_⟩
      rw [hins.program.before i hbefore y hy]
      exact hfirst y hy
    · refine ⟨i + 1, by omega, h.aligned.headerKept hi fun y hy => ?_⟩
      rw [hins.program.after i (Nat.le_of_not_lt hbefore) hi'' y hy]
      exact hfirst y hy

/-- The output of a run is a valid image with the sections and the program headers of the input: all contents are kept, but
for the objects that refer to the symbol table, which are all filled in alike, and for the symbols, which are sorted. -/
theorem mkchickadeesymtab_keeps (hregular : Regular o f) (hrun : mkchickadeesymtab o capacity f = some ei)
    (hroom : RoomForHeader f (f.findSection symtabName) (symtabAddr o f)) :
    Output o (f.findSection symtabName) (symtabAddr o f) f ei.toFile := by
  obtain ⟨a, m, h⟩ := hregular.keepsRun hrun
  exact h.output hregular.size (symtabAddr_lt o f) hroom

/-- A program header is added for the table. -/
theorem mkchickadeesymtab_keeps_sample : ∃ ei, mkchickadeesymtab symtabOptions 0 (symtabFile 0x1030) = some ei ∧
    Output symtabOptions 2 0x100000 (symtabFile 0x1030) ei.toFile := by
  have hsome : (mkchickadeesymtab symtabOptions 0 (symtabFile 0x1030)).isSome = true := by decide +kernel
  have hfound : (symtabFile 0x1030).findSection symtabName = 2 := by decide +kernel
  have haddr : symtabAddr symtabOptions (symtabFile 0x1030) = 0x100000 := by decide +kernel
  obtain ⟨ei, hrun⟩ := Option.isSome_iff_exists.1 hsome
  have houtput := mkchickadeesymtab_keeps symtabFile_regular hrun (Or.inr (Or.inr (by decide +kernel)))
  rw [hfound, haddr] at houtput
  exact ⟨ei, hrun, houtput⟩

end ElfInfo

end Cs300Projects.WeensyOS.Elf
