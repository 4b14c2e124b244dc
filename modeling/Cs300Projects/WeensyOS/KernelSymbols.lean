import Cs300Projects.WeensyOS.DiskBoot
import Cs300Projects.WeensyOS.ElfFaithful
import Cs300Projects.WeensyOS.ElfOutput
import Cs300Projects.WeensyOS.KernelMemory
import Cs300Projects.WeensyOS.LookupSymbol

/-!
# From the linked kernel to its symbols in memory

The kernel is linked, `mkchickadeesymtab` embeds its symbol table, `mkbootdisk` writes it to the disk, `boot` loads it, the
kernel makes its page table and runs, and `lookup_symbol` looks an address up in what it sees through that table: it finds the
symbol of the linked kernel.
-/

namespace Cs300Projects.WeensyOS.Elf

open Bytes Loop Symtab Boot Mkbootdisk

namespace File

/-- The bytes of the file, as they are written. -/
def bytes (g : File) : List UInt8 := (List.range g.size).map g.data

lemma length_bytes (g : File) : g.bytes.length = g.size := by
  unfold bytes
  rw [List.length_map, List.length_range]

lemma bytesOf_bytes {g : File} {x : Nat} (hx : x < g.size) : bytesOf g.bytes x = g.data x := by
  unfold bytesOf bytes
  rw [List.getElem?_map, List.getElem?_range hx, Option.map_some, Option.getD_some]

/-- The headers that are read from the bytes are those of the file. -/
lemma Valid.sameHeaders {g : File} (h : g.Valid) : SameHeaders g.data (bytesOf g.bytes) := by
  have hphoff := h.header.phoff
  have hprograms := h.header.programs
  refine sameHeaders_of_bytes (fun x hx => bytesOf_bytes hx) h.header.size ?_
  unfold elfProgramSize at *
  omega

end File

namespace ElfInfo

variable {f g : File} {k l i : Nat} {o : Options} {r : Symtabref} {mem : Nat → UInt8} {ref sym : Symbol} {syms : List Symbol}
  {addr : UInt64} {view : Nat → Option UInt8}

/-- A program header has the object loaded at its address. -/
structure ObjectLoaded (g : File) (ref : Symbol) (i : Nat) : Prop where
  lt : i < ePhnum g.data 0
  first : pOffset g.data (g.pht i) ≤ g.referenceOffset ref
  last : g.referenceOffset ref + symtabrefSize ≤ pOffset g.data (g.pht i) + pFilesz g.data (g.pht i)
  value : ref.stValue.toNat = pVa g.data (g.pht i) + (g.referenceOffset ref - pOffset g.data (g.pht i))

/-- The object in memory is the one in the file. -/
lemma ObjectLoaded.symtabrefAt (h : ObjectLoaded g ref i) (hloaded : SegmentLoaded g.data mem i) :
    Elf.symtabrefAt mem ref.stValue.toNat = Elf.symtabrefAt g.data (g.referenceOffset ref) := by
  apply File.symtabrefAt_shift
  intro x hx
  have hfirst := h.first
  have hlast := h.last
  have hbyte := hloaded.1 (g.referenceOffset ref - pOffset g.data (g.pht i) + x) (by
    change _ < pFilesz g.data (g.pht i)
    omega)
  have hplace : pOffset g.data (g.pht i) + (g.referenceOffset ref - pOffset g.data (g.pht i) + x) =
      g.referenceOffset ref + x := by omega
  rw [show phAt g.data i = g.pht i from rfl, hplace] at hbyte
  rw [h.value, Nat.add_assoc, hbyte]

/-- The name that is seen is the string of the symbol in the linked kernel. -/
def NameAt (f : File) (k : Nat) (sym : Symbol) (view : Nat → Option UInt8) (p : Nat) : Prop :=
  ∃ n, (∀ j, j < n → f.data (f.offset (f.link k) + sym.stName.toNat + j) ≠ 0) ∧
    f.data (f.offset (f.link k) + sym.stName.toNat + n) = 0 ∧
    ∀ j, j ≤ n → view (p + j) = some (f.data (f.offset (f.link k) + sym.stName.toNat + j))

/-- A name is seen as the linked kernel has it, if the string table was kept. -/
lemma NameLoaded.nameAt {name : List UInt8} (h : NameLoaded g k r sym mem) (hview : SeenAs view mem r.sym r.size)
    (hkeeps : File.Keeps name k f g) (hvalid : f.Valid) (hk : f.SymtabAt k)
    (hname : sym.stName.toNat < f.sectionSize (f.link k)) : NameAt f k sym view ((r.strtab + sym.stName.toNat) % 2 ^ 64) := by
  obtain ⟨n, hlow, hhigh, hbefore, hzero, hmem⟩ := h
  have hlink : f.link k = k + 1 := hk.link
  have hlink' : g.link k = k + 1 := (hkeeps.carries.link k (Nat.lt_of_succ_lt hk.lt)).trans hlink
  have hlast := ((hvalid.good (k + 1) hk.lt).content.strtab hk.strtab).2.2
  have hstored : f.Stored (k + 1) := File.stored_of_type hk.lt hk.strtab (by decide) (by decide)
  unfold NameAt
  rw [hlink] at hname ⊢
  rw [hlink'] at hbefore hzero hmem
  generalize sym.stName.toNat = s at *
  generalize (r.strtab + s) % 2 ^ 64 = p at *
  have hkept : ∀ y, s + y < f.sectionSize (k + 1) → g.data (g.offset (k + 1) + s + y) = f.data (f.offset (k + 1) + s + y) := by
    intro y hy
    rw [Nat.add_assoc, Nat.add_assoc]
    refine hkeeps.carries.content (k + 1) hstored ?_ (s + y) hy
    rw [hk.strtab]
    rintro (heq | htype)
    · exact Nat.succ_ne_self k heq
    · exact absurd htype (by decide)
  -- the name ends inside the table, whose last byte is zero
  have hinside : s + n < f.sectionSize (k + 1) := by
    by_contra hout
    have hend : f.sectionSize (k + 1) - 1 - s < n := by omega
    apply hbefore _ hend
    have hplace : f.offset (k + 1) + s + (f.sectionSize (k + 1) - 1 - s) =
        f.offset (k + 1) + f.sectionSize (k + 1) - 1 := by omega
    rw [hkept _ (by omega), hplace, hlast]
  refine ⟨n, ?_, ?_, ?_⟩
  · intro j hj
    rw [← hkept j (by omega)]
    exact hbefore j hj
  · rw [← hkept n hinside]
    exact hzero
  · intro j hj
    rw [hview (p + j) (by omega) (by omega), ← hkept j (by omega)]
    exact congrArg some (hmem j hj)

/-- What `lookup_symbol` says of an address: it is in a symbol of the linked kernel that starts where `sym` does. No read
faults. -/
def LooksUp (f : File) (k : Nat) (view : Nat → Option UInt8) (symtab : Nat) (addr : UInt64) (sym : Symbol) : Prop :=
  ∃ a ∈ f.symbols k, a.stValue = sym.stValue ∧
    ∃ p, lookupSymbolSeen view symtab addr = some (some (p, sym.stValue)) ∧ NameAt f k a view p.toNat

/-- A faithful view of the sorted table finds the symbols. -/
lemma FaithfulView.looksUp (h : FaithfulView g k (g.tableRef k l) mem) (hg : Output o k l f g) (hvalid : f.Valid)
    (hk : f.SymtabAt k) {symtab : Nat} (hsymtab : symtabrefAt mem symtab = g.tableRef k l)
    (hobject : SeenAs view mem symtab symtabrefSize) (hview : SeenAs view mem (g.tableRef k l).sym (g.tableRef k l).size)
    (hsyms : f.symbols k = .null :: syms) (hsized : sym.Sized) (hmem : sym ∈ syms) (hholds : sym.Holds addr)
    (hclear : Unobstructed (f.symbols k) addr sym) : LooksUp f k view symtab addr sym := by
  have htable : symbolsAt mem (g.tableRef k l) = g.symbols k :=
    List.map_congr_left fun j hj => (h.sym j (List.mem_range.1 hj)).1
  have hentries : elfSymbolSize * (g.tableRef k l).nsym ≤ (g.tableRef k l).size := by
    rcases Nat.eq_zero_or_pos (g.tableRef k l).nsym with hzero | hpos
    · rw [hzero]
      exact Nat.zero_le _
    · have hlast := (h.sym ((g.tableRef k l).nsym - 1) (by omega)).2
      rwa [Nat.sub_add_cancel hpos] at hlast
  have hseen : TableSeen view mem symtab := by
    refine ⟨hobject.mono (Nat.le_refl _) (by unfold symtabrefSize; omega), ?_⟩
    rw [hsymtab]
    exact hview.mono (Nat.le_refl _) (by omega)
  rw [hsyms] at hclear
  obtain ⟨place, hplaced⟩ := sortSymtab_placed hsized hmem hholds hclear
  obtain ⟨a, ha, hvalue, hlookup⟩ := hplaced.found (UInt64.ofNat (g.tableRef k l).strtab)
  rw [← hsyms, ← hg.symbols] at ha hlookup
  have ha' : a ∈ f.symbols k := by
    rw [hg.symbols, (sortSymtab_perm _).mem_iff] at ha
    exact ha
  obtain ⟨j, hj, hsymbol⟩ := File.mem_symbols.1 ha
  have hname := h.name j hj
  rw [hsymbol] at hname
  refine ⟨a, ha', hvalue, UInt64.ofNat (g.tableRef k l).strtab + a.stName.toUInt64, ?_, ?_⟩
  · rw [hseen.lookupSymbol, hsymtab, htable]
    exact congrArg some hlookup
  · have hpointer : (UInt64.ofNat (g.tableRef k l).strtab + a.stName.toUInt64).toNat =
        ((g.tableRef k l).strtab + a.stName.toNat) % 2 ^ 64 := by
      rw [UInt64.toNat_add, UInt64.toNat_ofNat', UInt32.toNat_toUInt64, Nat.mod_add_mod]
    rw [hpointer]
    exact hname.nameAt hview hg.keeps hvalid hk (hvalid.stName_lt hk ha')

/-! ### The kernel on the disk -/

section Build

variable {capacity : Nat} {ei : ElfInfo} {files : List UInt8 → Option (List UInt8)} {argv0 kernel : List UInt8}
  {rest : List (List UInt8)} {replies : List Reply} {out : Mkbootdisk.Output} {d : Disks}

/-- The steps of the build: the symbol table of the linked kernel `f` is embedded, and the image is written to the disk. -/
structure Built (o : Options) (f : File) (ei : ElfInfo) (files : List UInt8 → Option (List UInt8)) (argv0 kernel : List UInt8)
    (rest : List (List UInt8)) (out : Mkbootdisk.Output) : Prop where
  embedded : ∃ capacity, mkchickadeesymtab o capacity f = some ei
  name : skipToSector kernel = none
  file : files kernel = some ei.toFile.bytes
  disk : ∃ replies, mkbootdisk files (argv0 :: kernel :: rest) replies = some out

/-- What is asked of the linked kernel: the table can be embedded at an address that `boot` can load it to, and the image is
one that `boot` can load. -/
structure Linked (o : Options) (f : File) (ei : ElfInfo) : Prop where
  regular : Regular o f
  addr : symtabAddr o f ≠ 0
  sector : symtabAddr o f % sectorsize = 0
  fits : TableFits f (f.findSection symtabName) (symtabAddr o f)
  loadable : FoundLoadable f (f.findSection symtabName) (symtabAddr o f)
  null : (f.symbols (f.findSection symtabName)).head? = some .null
  kernel : KernelFile ei.toFile.bytes

/-- A segment of the image on the disk is a segment of the image. -/
lemma KernelFile.segmentLoaded {g : File} (h : KernelFile g.bytes) (hvalid : g.Valid) (hi : i < ePhnum g.data 0)
    (hloaded : SegmentLoaded (bytesOf g.bytes) mem i) : SegmentLoaded g.data mem i := by
  have hsame := hvalid.sameHeaders
  have hsegment := h.segments i (hsame.phnum.symm ▸ hi)
  rw [hsame.offset hi, hsame.filesz hi, g.length_bytes] at hsegment
  exact hsame.segmentLoaded hi (fun x hx => File.bytesOf_bytes (by omega)) hloaded

lemma Linked.valid (hf : Linked o f ei) (hrun : mkchickadeesymtab o capacity f = some ei) : ei.toFile.Valid := by
  obtain ⟨a, m, h⟩ := hf.regular.keepsRun hrun
  exact (h.toRunOn.output hf.regular.size hf.addr (symtabAddr_lt o f) hf.fits.added).1.valid

/-- The bytes that `lookup_symbol` may read: of the object and of the table. -/
def SymtabBytes (o : Options) (f : File) (ref : Symbol) (x : Nat) : Prop :=
  (ref.stValue.toNat ≤ x ∧ x < ref.stValue.toNat + symtabrefSize) ∨
    (symtabAddr o f ≤ x ∧ x < symtabAddr o f + f.alignedSize (f.findSection symtabName))

/-- When the segments of the image are in memory and what `lookup_symbol` reads is seen, it finds the symbols of the linked
kernel. -/
lemma Linked.looksUp (hf : Linked o f ei) (hrun : mkchickadeesymtab o capacity f = some ei)
    (href : f.Reference (f.findSection symtabName) o.lsymtabName ref) (hobject : ObjectLoaded ei.toFile ref i)
    (hloaded : ∀ j, j < ePhnum ei.data 0 → SegmentLoaded ei.data mem j)
    (hseen : ∀ x, SymtabBytes o f ref x → view x = some (mem x)) (hmem : sym ∈ f.symbols (f.findSection symtabName))
    (hsized : sym.Sized) (hholds : sym.Holds addr) (hclear : Unobstructed (f.symbols (f.findSection symtabName)) addr sym) :
    LooksUp f (f.findSection symtabName) view ref.stValue.toNat addr sym := by
  have hobjectSeen : SeenAs view mem ref.stValue.toNat symtabrefSize := fun x hx hlt => hseen x (Or.inl ⟨hx, hlt⟩)
  have htableSeen : SeenAs view mem (symtabAddr o f) (f.alignedSize (f.findSection symtabName)) :=
    fun x hx hlt => hseen x (Or.inr ⟨hx, hlt⟩)
  obtain ⟨hregular, hl, hsector, ⟨horder, hcount, hrange, hadded⟩, hfound, hnull, -⟩ := hf
  obtain ⟨a, m, h⟩ := hregular.keepsRun hrun
  have hl64 := symtabAddr_lt o f
  have hfile := hregular.size
  generalize symtabAddr o f = l at *
  generalize f.findSection symtabName = k at *
  have hroom : RoomForHeader f k l := by
    by_cases hhas : f.HasProgram l (f.offset k) (f.alignedSize k)
    · exact Or.inr (Or.inl hhas)
    · exact Or.inr (Or.inr (hadded hhas))
  have houtput := h.output hfile hl64 hroom
  obtain ⟨hembedded, hsame⟩ := h.toRunOn.output hfile hl hl64 hadded
  obtain ⟨j, hj⟩ := h.tableProgram hfile hl hl64 hadded hfound
  -- the table is in memory at its address
  have hview : FaithfulView ei.toFile k (ei.toFile.tableRef k l) mem := by
    refine hembedded.faithfulView ?_ ?_ ?_ fun x hx => ?_
    · rw [hsame.offset, hsame.strtab]
      exact h.order_iff.2 horder
    · rw [hsame.tableSize, h.tableSize]
      exact hrange
    · rw [hsame.sectionSize, h.sectionSize]
      exact hcount
    · have hbyte := (hloaded j hj.lt).1 x (Nat.lt_of_lt_of_le hx hj.filesz)
      rw [show phAt ei.data j = ei.toFile.pht j from rfl, hj.va, hj.offset] at hbyte
      exact hbyte
  have hsymtab : symtabrefAt mem ref.stValue.toNat = ei.toFile.tableRef k l :=
    (hobject.symtabrefAt (hloaded i hobject.lt)).trans (houtput.references ref href)
  obtain ⟨syms, hsyms⟩ : ∃ syms, f.symbols k = .null :: syms := by
    cases hlist : f.symbols k with
    | nil =>
      rw [hlist] at hnull
      cases hnull
    | cons first syms =>
      rw [hlist] at hnull
      exact ⟨syms, by rw [Option.some.inj hnull]⟩
  have hne : sym ≠ .null := by
    rintro rfl
    exact hsized.2 rfl
  have hrest : sym ∈ syms := by
    rw [hsyms] at hmem
    exact (List.mem_cons.1 hmem).resolve_left hne
  have htable : SeenAs view mem (ei.toFile.tableRef k l).sym (ei.toFile.tableRef k l).size := by
    change SeenAs view mem l (ei.toFile.tableSize k)
    rw [hsame.tableSize, h.tableSize]
    exact htableSeen
  exact hview.looksUp houtput h.valid h.symtabAt hsymtab hobjectSeen htable hsyms hsized hrest hholds hclear

/-- The kernel boots from the disk that the build makes of it, and runs. At any time `lookup_symbol`, which reads through the
page table, finds the symbols of the linked kernel, with their starts and their names, if the object and the table are in
memory that the table maps and that nothing was stored to. -/
theorem booted_kernel_looksUp (hb : Built o f ei files argv0 kernel rest out) (hf : Linked o f ei)
    (href : f.Reference (f.findSection symtabName) o.lsymtabName ref) (hobject : ObjectLoaded ei.toFile ref i)
    (hd : d.Holds out.written) (m : Nat → UInt8) {D : KernelData} (B : KernelBss D)
    (hplaced : ∀ x, SymtabBytes o f ref x → KernelPagetable.Readable x ∧ D.Lasting x) {n : Nat} (hn : 512 < n)
    {events : List MemoryEvent} (hevents : ∀ e ∈ events, B.tables.Spares (SymtabBytes o f ref) e) :
    (∃ fuel r, boot d fuel m = some r) ∧
    ∀ fuel entry mem, boot d fuel m = some (entry, mem) → entry = eEntry ei.data 0 ∧
      ∃ mem', D.runMemory B n mem events = some (.ok mem') ∧
        ∀ addr sym, sym ∈ f.symbols (f.findSection symtabName) → sym.Sized → sym.Holds addr →
          Unobstructed (f.symbols (f.findSection symtabName)) addr sym →
            LooksUp f (f.findSection symtabName) (B.tables.seen (B.tables.symtabMapped mem')) ref.stValue.toNat addr sym := by
  obtain ⟨capacity, hrun⟩ := hb.embedded
  obtain ⟨replies, hdisk⟩ := hb.disk
  have hvalid : ei.toFile.Valid := hf.valid hrun
  have hheaders := hvalid.sameHeaders
  obtain ⟨hboots, hall⟩ := hf.kernel.boots (fun _ hx => holds_kernel hdisk hb.name hb.file hd hx) m
  refine ⟨hboots, ?_⟩
  intro fuel entry mem hboot
  obtain ⟨hentry, hsegments⟩ := hall fuel entry mem hboot
  have hloaded : ∀ j, j < ePhnum ei.data 0 → SegmentLoaded ei.data mem j :=
    fun j hj => KernelFile.segmentLoaded hf.kernel hvalid hj (hsegments j (hheaders.phnum.symm ▸ hj))
  obtain ⟨mem', hmem', hkeeps⟩ := D.runMemory_keeps B mem hn (fun x hx => (hplaced x hx).2) hevents
  refine ⟨hentry.trans hheaders.entry, mem', hmem', ?_⟩
  intro addr sym hmem hsized hholds hclear
  have hseen : ∀ x, SymtabBytes o f ref x → B.tables.seen (B.tables.symtabMapped mem') x = some (mem x) :=
    fun x hx => hkeeps.seen (hplaced x hx).1 hx ((hplaced x hx).2.not_inTable B)
  exact hf.looksUp hrun href hobject hloaded hseen hmem hsized hholds hclear

end Build

/-! ### A kernel with one object -/

/-- The table is loaded to `SYMTAB_ADDR`. -/
def kernelOptions : Options := { symtabOptions with loadaddr := 0x1000000 }

/-- The image of the samples, with a program header that has the object loaded at 0x40120. -/
def kernelFile : File where
  data := [(0x40, 4, elfPtypeLoad), (0x50, 8, 0x40000), (0x60, 8, 0x200), (0x68, 8, 0x300), (0x1020, 8, 0x40120),
    (0x1140 + 0x10, 8, 0x40120)].foldl (fun m w => writeLE m w.1 w.2.1 w.2.2) (symtabFile 0x1030).data
  size := 0x1180
  size_lt := (symtabFile 0x1030).size_lt

lemma kernelFile_layout : kernelFile.Layout := by
  have hshnum : eShnum kernelFile.data 0 = 5 := by decide +kernel
  have hnull : kernelFile.type 0 = elfShtNull := by decide +kernel
  have hphoff : ePhoff kernelFile.data 0 = 64 := by decide +kernel
  have hshoff : eShoff kernelFile.data 0 = 0x1040 := by decide +kernel
  have hphnum : ePhnum kernelFile.data 0 = 1 := by decide +kernel
  have hranges : ∀ i, kernelFile.Stored i → (i, kernelFile.offset i, kernelFile.sectionSize i) ∈
      [(1, 0x100, 9), (2, 0x1000, 48), (3, 0x1030, 8), (4, 0x120, 40)] := by
    intro i hi
    have hlt := hshnum ▸ hi.lt
    obtain rfl | rfl | rfl | rfl | rfl : i = 0 ∨ i = 1 ∨ i = 2 ∨ i = 3 ∨ i = 4 := by omega
    · exact absurd hnull hi.notNull
    · decide +kernel
    · decide +kernel
    · decide +kernel
    · decide +kernel
  simp only [List.mem_cons, Prod.mk.injEq, List.not_mem_nil, or_false] at hranges
  constructor
  case programs => rw [hphoff]; decide
  case sections => rw [hshoff]; decide
  case tables => rw [hphoff, hphnum, hshoff, hshnum]; exact Or.inl (by decide)
  case header_content =>
    intro i hi
    have hrange := hranges i hi
    unfold Apart elfHeaderSize
    omega
  case programs_content =>
    intro i hi
    have hrange := hranges i hi
    rw [hphoff, hphnum]
    unfold Apart elfProgramSize
    omega
  case sections_content =>
    intro i hi
    have hrange := hranges i hi
    rw [hshoff, hshnum]
    unfold Apart elfSectionSize
    omega
  case contents =>
    intro i j hi hj hij
    have hrange := hranges i hi
    have hrange' := hranges j hj
    unfold Apart
    omega

lemma kernelFile_regular : Regular kernelOptions kernelFile := by
  have hfound : kernelFile.findSection symtabName = 2 := by decide +kernel
  refine ⟨by decide +kernel, kernelFile_layout, ?_⟩
  rw [hfound]
  refine ⟨⟨?_, ?_⟩, ?_⟩
  · have hall : ∀ sym ∈ kernelFile.symbols 2, kernelFile.Accepts sym →
        symtabrefSize ≤ kernelFile.addr sym.stShndx.toNat + kernelFile.sectionSize sym.stShndx.toNat := by
      decide +kernel
    exact fun sym href haccepts => hall sym href.mem haccepts
  · have hall : ∀ sym ∈ kernelFile.symbols 2, ∀ sym' ∈ kernelFile.symbols 2,
        kernelFile.IsReference 2 kernelOptions.lsymtabName sym →
          kernelFile.IsReference 2 kernelOptions.lsymtabName sym' → sym.stValue = sym'.stValue := by
      decide +kernel
    exact fun sym sym' href href' _ => Or.inl (hall sym href.mem sym' href'.mem href.toIsReference href'.toIsReference)
  · intro hnull
    exact absurd hnull (by decide +kernel)

/-- The program headers of the output: of the object, and of the table. -/
structure KernelHeaders (f : Nat → UInt8) : Prop where
  magic : eMagic f 0 = elfMagic
  phoff : ePhoff f 0 = 64
  phnum : ePhnum f 0 = 2
  object : pVa f (phAt f 0) = 0x40000 ∧ pOffset f (phAt f 0) = 0 ∧ pFilesz f (phAt f 0) = 0x200 ∧ pMemsz f (phAt f 0) = 0x300
  table : pVa f (phAt f 1) = 0x1000000 ∧ pOffset f (phAt f 1) = 0x1000 ∧ pFilesz f (phAt f 1) = 56 ∧ pMemsz f (phAt f 1) = 56

section KernelHeaders

variable {m : Nat → UInt8}

lemma KernelHeaders.cases (h : KernelHeaders m) (hi : i < ePhnum m 0) : i = 0 ∨ i = 1 := by
  have hphnum := h.phnum
  omega

lemma KernelHeaders.inDest (h : KernelHeaders m) (hi : i < ePhnum m 0) {x : Nat} (hx : InDest m i x) :
    (i = 0 ∧ 0x40000 ≤ x ∧ x < 0x40400) ∨ (i = 1 ∧ 0x1000000 ≤ x ∧ x < 0x1000200) := by
  obtain ⟨hva, -, hfilesz, hmemsz⟩ := h.object
  obtain ⟨hva', -, hfilesz', hmemsz'⟩ := h.table
  rcases h.cases hi with rfl | rfl
  · simp only [InDest, destStart, destEnd, hva, hfilesz, hmemsz, sectorsize] at hx
    omega
  · simp only [InDest, destStart, destEnd, hva', hfilesz', hmemsz', sectorsize] at hx
    omega

lemma KernelHeaders.image (h : KernelHeaders m) : Image m := by
  obtain ⟨hva, hoffset, -⟩ := h.object
  obtain ⟨hva', hoffset', -⟩ := h.table
  constructor
  case magic => exact h.magic
  case table =>
    rw [h.phoff, h.phnum]
    decide
  case aligned =>
    intro i hi
    rcases h.cases hi with rfl | rfl
    · rw [hva, hoffset]
      rfl
    · rw [hva', hoffset']
      rfl
  case disjoint =>
    intro i j x hi hj hij hx hx'
    have hrange := h.inDest hi hx
    have hrange' := h.inDest hj hx'
    omega
  case scratch =>
    intro i x hi hx
    have hrange := h.inDest hi hx
    simp only [Outside, elfhdr, Boot.pagesize]
    omega

lemma KernelHeaders.addressable (h : KernelHeaders m) : Addressable m := by
  obtain ⟨hva, hoffset, hfilesz, hmemsz⟩ := h.object
  obtain ⟨hva', hoffset', hfilesz', hmemsz'⟩ := h.table
  constructor
  case dest =>
    intro i hi
    rcases h.cases hi with rfl | rfl
    · rw [hva, hfilesz, hmemsz]
      decide
    · rw [hva', hfilesz', hmemsz']
      decide
  case sectors =>
    intro i y hi hy
    rcases h.cases hi with rfl | rfl
    · rw [hva, hfilesz] at hy
      rw [hoffset]
      simp only [sectorsize, kernelStartSector] at hy ⊢
      omega
    · rw [hva', hfilesz'] at hy
      rw [hoffset']
      simp only [sectorsize, kernelStartSector] at hy ⊢
      omega

lemma KernelHeaders.kernelFile (h : KernelHeaders g.data) (hvalid : g.Valid) (hsize : g.size = 0x1180) : KernelFile g.bytes := by
  obtain ⟨-, hoffset, hfilesz, -⟩ := h.object
  obtain ⟨-, hoffset', hfilesz', -⟩ := h.table
  have hsame := hvalid.sameHeaders
  constructor
  case image => exact hsame.image h.image
  case addressable => exact hsame.addressable h.addressable
  case header =>
    rw [g.length_bytes, hsize]
    decide
  case reachable =>
    refine hsame.reachable fun i x hi hx => ?_
    have hrange := h.inDest hi hx
    unfold Writable LoaderMemory bootMapped elfhdr Boot.pagesize
    omega
  case programs =>
    rw [hsame.phoff, hsame.phnum, h.phoff, h.phnum, g.length_bytes, hsize]
    decide
  case segments =>
    intro i hi
    rw [hsame.phnum] at hi
    rw [hsame.offset hi, hsame.filesz hi, g.length_bytes, hsize]
    rcases h.cases hi with rfl | rfl
    · rw [hoffset, hfilesz]
      decide
    · rw [hoffset', hfilesz']
      decide

end KernelHeaders

/-- A boot block and the image. -/
def kernelFiles (s : List UInt8) (name : List UInt8) : Option (List UInt8) := if name = [] then some [0xEB, 0xFE] else some s

/-- The data segment is what is loaded of the first header. -/
def kernelData : KernelData where
  dataStart := 0x40000
  edata := 0x40200
  kernelEnd := 0x5C000
  kernelStart_le := by decide
  dataStart_le := by decide
  edata_le := by decide
  kernelEnd_le := by decide

def kernelBss : KernelBss kernelData where
  tables := KernelPagetable.sampleKernelPagetable
  segments := 0x4F000
  taskstate := 0x4E000#64
  tables_bounds := by decide
  segments_bounds := by decide

/-- The loop of `kernel`, and a byte that is stored to the screen. -/
def kernelEvents : List MemoryEvent := [.remap, .store 0xB8000#64 0x41]

/-- The object is itself the symbol that is looked up. -/
theorem booted_kernel_looksUp_sample : ∃ ei replies out, mkchickadeesymtab kernelOptions 0 kernelFile = some ei ∧
    mkbootdisk (kernelFiles ei.toFile.bytes) [[], [ch 'k']] replies = some out ∧ ∃ d : Disks, d.Holds out.written ∧
      ∃ fuel entry mem, boot d fuel (fun _ => 0xFF) = some (entry, mem) ∧
        ∃ mem', kernelData.runMemory kernelBss 513 mem kernelEvents = some (.ok mem') ∧
          LooksUp kernelFile 2 (kernelBss.tables.seen (kernelBss.tables.symtabMapped mem')) 0x40120 0x40130
            (kernelFile.symbol 2 1) := by
  have hview : (mkchickadeesymtab kernelOptions 0 kernelFile).map (fun ei =>
      ([eMagic ei.data 0, ePhoff ei.data 0, ePhnum ei.data 0, ei.size, ei.toFile.referenceOffset (kernelFile.symbol 2 1)],
        [0, 1].map fun i => [pVa ei.data (phAt ei.data i), pOffset ei.data (phAt ei.data i), pFilesz ei.data (phAt ei.data i),
          pMemsz ei.data (phAt ei.data i)])) =
      some ([elfMagic, 64, 2, 0x1180, 0x120], [[0x40000, 0, 0x200, 0x300], [0x1000000, 0x1000, 56, 56]]) := by decide +kernel
  have hfound : kernelFile.findSection symtabName = 2 := by decide +kernel
  have haddr : symtabAddr kernelOptions kernelFile = 0x1000000 := by decide +kernel
  have haligned : kernelFile.alignedSize 2 = 56 := by decide +kernel
  have hvalue : (kernelFile.symbol 2 1).stValue.toNat = 0x40120 := by decide +kernel
  have hother : pVa kernelFile.data (kernelFile.pht (kernelFile.findProgram 0x1000000)) ≠ 0x1000000 := by decide +kernel
  obtain ⟨ei, hrun, hvalues⟩ := Option.map_eq_some_iff.1 hview
  simp only [List.map_cons, List.map_nil, Prod.mk.injEq, List.cons.injEq, and_true] at hvalues
  obtain ⟨⟨hmagic, hphoff, hphnum, hsize, hoffset⟩, hobject, htable⟩ := hvalues
  have hheaders : KernelHeaders ei.data := ⟨hmagic, hphoff, hphnum, hobject, htable⟩
  have hfits : TableFits kernelFile 2 0x1000000 :=
    ⟨by decide +kernel, by decide +kernel, by decide +kernel, fun _ => by decide +kernel⟩
  have hloadable : FoundLoadable kernelFile 2 0x1000000 := fun hhas => absurd hhas.va hother
  have hvalid : ei.toFile.Valid := by
    obtain ⟨a, m, h⟩ := kernelFile_regular.keepsRun hrun
    rw [hfound, haddr] at h
    exact (h.toRunOn.output (by decide +kernel) (by decide) (by decide) hfits.added).1.valid
  have hlinked : Linked kernelOptions kernelFile ei := by
    refine ⟨kernelFile_regular, ?_, ?_, ?_, ?_, ?_, hheaders.kernelFile hvalid hsize⟩
    · rw [haddr]
      decide
    · rw [haddr]
      decide
    · rw [hfound, haddr]
      exact hfits
    · rw [hfound, haddr]
      exact hloadable
    · rw [hfound]
      decide +kernel
  have hkernel : kernelFiles ei.toFile.bytes [ch 'k'] = some ei.toFile.bytes := if_neg (by decide)
  obtain ⟨replies, out, hdisk⟩ :=
    mkbootdisk_kernel_total (show kernelFiles ei.toFile.bytes [] = some [0xEB, 0xFE] from rfl) (by decide) rfl hkernel
  let d : Disks := ⟨fun i => if i < out.written.length then bytesOf out.written i else 0xFF, fun _ => 0xFF⟩
  have hd : d.Holds out.written := fun i hi => if_pos hi
  have href : kernelFile.Reference (kernelFile.findSection symtabName) kernelOptions.lsymtabName (kernelFile.symbol 2 1) := by
    rw [hfound]
    exact ⟨by decide +kernel, by decide +kernel⟩
  have hloaded : ObjectLoaded ei.toFile (kernelFile.symbol 2 1) 0 := by
    obtain ⟨hva, hoff, hfilesz, -⟩ := hobject
    have hpht : ei.toFile.pht 0 = phAt ei.data 0 := rfl
    refine ⟨?_, ?_, ?_, ?_⟩
    · omega
    · rw [hpht, hoff]
      exact Nat.zero_le _
    · rw [hpht, hoff, hfilesz, hoffset]
      decide
    · rw [hpht, hoff, hva, hoffset, hvalue]
  have hbytes : ∀ x, SymtabBytes kernelOptions kernelFile (kernelFile.symbol 2 1) x →
      0x40120 ≤ x ∧ x < 0x40140 ∨ 0x1000000 ≤ x ∧ x < 0x1000038 := by
    intro x hx
    unfold SymtabBytes symtabrefSize at hx
    rw [hfound, haddr, haligned, hvalue] at hx
    exact hx
  have hplaced : ∀ x, SymtabBytes kernelOptions kernelFile (kernelFile.symbol 2 1) x →
      KernelPagetable.Readable x ∧ kernelData.Lasting x := by
    intro x hx
    have hrange := hbytes x hx
    have hstash : kernelData.dataStash = 0xFFFE00 := rfl
    have hsize : kernelData.dataSize = 0x200 := rfl
    have hedata : kernelData.edata = 0x40200 := rfl
    have hend : kernelData.kernelEnd = 0x5C000 := rfl
    constructor
    · unfold KernelPagetable.Readable
      omega
    · constructor
      all_goals unfold Outside
      · omega
      · omega
      · unfold Kernel.kernelStackTop Kernel.pagesize
        omega
  have hevents : ∀ e ∈ kernelEvents,
      kernelBss.tables.Spares (SymtabBytes kernelOptions kernelFile (kernelFile.symbol 2 1)) e := by
    unfold kernelEvents
    simp only [List.mem_cons, List.not_mem_nil, or_false, forall_eq_or_imp, forall_eq]
    refine ⟨trivial, fun _ => ⟨?_, fun hx => ?_⟩⟩
    · unfold KernelPagetable.InTable
      decide
    · have hrange := hbytes _ hx
      revert hrange
      decide
  obtain ⟨⟨fuel, ⟨entry, mem⟩, hboot⟩, hall⟩ :=
    booted_kernel_looksUp ⟨⟨0, hrun⟩, rfl, hkernel, replies, hdisk⟩ hlinked href hloaded hd (fun _ => 0xFF) kernelBss hplaced
      (show 512 < 513 by decide) hevents
  obtain ⟨-, mem', hmem', hlooks⟩ := hall fuel entry mem hboot
  have hlook := hlooks 0x40130 (kernelFile.symbol 2 1)
  rw [hfound, hvalue] at hlook
  refine ⟨ei, replies, out, hrun, hdisk, d, hd, fuel, entry, mem, hboot, mem', hmem', hlook ?_ ?_ ?_ ?_⟩
  · decide +kernel
  · exact ⟨by decide +kernel, by decide +kernel⟩
  · exact ⟨by decide +kernel, by decide +kernel⟩
  · refine ⟨by decide +kernel, by decide +kernel, by decide +kernel, by decide +kernel, by decide +kernel⟩

end ElfInfo

end Cs300Projects.WeensyOS.Elf
