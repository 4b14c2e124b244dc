import Cs300Projects.Lib.Loop
import Cs300Projects.WeensyOS.ElfValidate
import Cs300Projects.WeensyOS.Symtab

/-!
# Embedding the symbol table

`mkchickadeesymtab.cc` prepares the symbol table of an ELF image for the kernel: it moves the table to
a page boundary, fills in the objects that refer to it, sorts it, and adds a program header that has
it loaded. A run fails where the program exits with an error or at an assertion.
-/

namespace Cs300Projects.WeensyOS.Elf

open Bytes Loop Symtab

/-- The difference of two `uint64_t`. -/
def sub64 (a b : Nat) : Nat := (a + (2 ^ 64 - b)) % 2 ^ 64

/-- `strcmp` finds the string `s`, which has no null byte, at `a`. -/
def streq (m : Nat → UInt8) : Nat → List UInt8 → Bool
  | a, [] => m a == 0
  | a, c :: s => m a == c && streq m (a + 1) s

/-! ### Structures in the file -/

def symbolAt (m : Nat → UInt8) (a : Nat) : Symbol where
  stName := UInt32.ofNat (stName m a)
  stInfo := m (a + 0x04)
  stOther := m (a + 0x05)
  stShndx := UInt16.ofNat (readLE m (a + 0x06) 2)
  stValue := UInt64.ofNat (readLE m (a + 0x08) 8)
  stSize := UInt64.ofNat (readLE m (a + 0x10) 8)

def writeSymbol (m : Nat → UInt8) (a : Nat) (sym : Symbol) : Nat → UInt8 :=
  let m := writeLE m a 4 sym.stName.toNat
  let m := writeLE m (a + 0x04) 1 sym.stInfo.toNat
  let m := writeLE m (a + 0x05) 1 sym.stOther.toNat
  let m := writeLE m (a + 0x06) 2 sym.stShndx.toNat
  let m := writeLE m (a + 0x08) 8 sym.stValue.toNat
  writeLE m (a + 0x10) 8 sym.stSize.toNat

def writeSymbols (m : Nat → UInt8) (a : Nat) : List Symbol → Nat → UInt8
  | [] => m
  | sym :: syms => writeSymbols (writeSymbol m a sym) (a + elfSymbolSize) syms

/-- `elf_symtabref`. -/
structure Symtabref where
  sym : Nat
  nsym : Nat
  strtab : Nat
  size : Nat
  deriving DecidableEq

def symtabrefSize : Nat := 32

def symtabrefAt (m : Nat → UInt8) (a : Nat) : Symtabref :=
  ⟨readLE m a 8, readLE m (a + 0x08) 8, readLE m (a + 0x10) 8, readLE m (a + 0x18) 8⟩

def writeSymtabref (m : Nat → UInt8) (a : Nat) (r : Symtabref) : Nat → UInt8 :=
  writeLE (writeLE (writeLE (writeLE m a 8 r.sym) (a + 0x08) 8 r.nsym) (a + 0x10) 8 r.strtab) (a + 0x18) 8 r.size

/-- A program header that has `filesz` bytes from `offset` on loaded at `va`, to be read. -/
def writeProgram (m : Nat → UInt8) (ph offset va filesz : Nat) : Nat → UInt8 :=
  let m := writeLE m ph 4 elfPtypeLoad
  let m := writeLE m (ph + 0x04) 4 elfPflagRead
  let m := writeLE m (ph + 0x08) 8 offset
  let m := writeLE m (ph + 0x18) 8 va
  let m := writeLE m (ph + 0x10) 8 va
  let m := writeLE m (ph + 0x20) 8 filesz
  let m := writeLE m (ph + 0x28) 8 filesz
  writeLE m (ph + 0x30) 8 0x1000

/-! ### The open file -/

/-- A pointer into a buffer. A larger buffer is a new one, with a number of its own. -/
structure Pointer where
  buffer : Nat
  offset : Nat

/-- `elf_info` after `validate`, with `data_` in the buffer `buffer`. The pointers that `symtab()` keeps are offsets. -/
structure ElfInfo extends File where
  capacity : Nat
  changed : Bool
  buffer : Nat
  eh : Pointer
  pht : Pointer
  sht : Pointer
  symtab : Option Nat
  nsymtab : Nat
  symstrtab : Nat

namespace ElfInfo

/-- The file in a buffer of the given capacity, which depends on the kind of the file. -/
def ofFile (f : File) (capacity : Nat) : ElfInfo where
  toFile := f
  capacity := capacity
  changed := false
  buffer := 0
  eh := ⟨0, 0⟩
  pht := ⟨0, ePhoff f.data 0⟩
  sht := ⟨0, eShoff f.data 0⟩
  symtab := none
  nsymtab := 0
  symstrtab := 0

variable (ei : ElfInfo)

def phnum : Nat := ePhnum ei.data 0
def shnum : Nat := eShnum ei.data 0

/-- `pht_[i]`, `sht_[i]` and `symtab_[i]`. -/
def program (i : Nat) : Nat := ei.pht.offset + elfProgramSize * i
def shdr (i : Nat) : Nat := ei.sht.offset + elfSectionSize * i
def symbol (i : Nat) : Nat := ei.symtab.getD 0 + elfSymbolSize * i

/-- The contents are copied, and the pointers are set anew. -/
def grow (capacity : Nat) : ElfInfo :=
  if ei.capacity < capacity then
    { ei with
      capacity := max capacity (ei.capacity + 32768)
      buffer := ei.buffer + 1
      eh := ⟨ei.buffer + 1, 0⟩
      pht := ⟨ei.buffer + 1, ePhoff ei.data 0⟩
      sht := ⟨ei.buffer + 1, eShoff ei.data 0⟩
      symtab := none
      nsymtab := 0 }
  else ei

def shstrtab : Nat := shOffset ei.data (ei.shdr (eShstrndx ei.data 0))

def findSection (name : List UInt8) : Nat :=
  let i := seek (fun i => streq ei.data (ei.shstrtab + shName ei.data (ei.shdr i)) name) ei.shnum 0
  if i < ei.shnum then i else 0

def firstOffset : Nat :=
  ((List.range ei.shnum).filter fun i =>
    shType ei.data (ei.shdr i) ≠ elfShtNull ∧ shType ei.data (ei.shdr i) ≠ elfShtNobits).foldl
      (fun o i => min o (shOffset ei.data (ei.shdr i))) (2 ^ 64 - 1)

/-- The bytes of `.symtab`. -/
def symtabName : List UInt8 := [0x2E, 0x73, 0x79, 0x6D, 0x74, 0x61, 0x62]

/-- `symtab()` keeps what it has found. -/
def loadSymtab : ElfInfo :=
  if ei.symtab.isSome then ei
  else
    let i := ei.findSection symtabName
    if i ≠ 0 ∧ shType ei.data (ei.shdr i) = elfShtSymtab then
      { ei with
        symtab := some (shOffset ei.data (ei.shdr i))
        nsymtab := shSize ei.data (ei.shdr i) / elfSymbolSize % 2 ^ 32
        symstrtab := shOffset ei.data (ei.shdr (shLink ei.data (ei.shdr i))) }
    else ei

/-- `find_symbol` in a loaded symbol table, from index `i` on. -/
def findSymbol (name : List UInt8) (i : Nat) : Option Nat :=
  let i := seek (fun i => streq ei.data (ei.symstrtab + stName ei.data (ei.symbol i)) name) (ei.nsymtab - i) i
  if ei.nsymtab ≤ i then none else some i

/-- The entries `symtab_[0]` to `symtab_[nsymtab_ - 1]`. -/
def symbols : List Symbol := (List.range ei.nsymtab).map fun i => symbolAt ei.data (ei.symbol i)

def sortSymtab : ElfInfo :=
  let ei := ei.loadSymtab
  if inOrder ei.symbols.tail then ei
  else { ei with data := writeSymbols ei.data (ei.symbol 0) (Symtab.sortSymtab ei.symbols), changed := true }

/-! ### `shift_sections` -/

/-- A round of the loop over program headers. -/
def programRound (pht offset diff : Nat) :
    Nat × (Nat → UInt8) → Round (Nat × (Nat → UInt8)) (Option (Nat → UInt8))
  | (i, m) =>
    let ph := pht + elfProgramSize * i
    if i = ePhnum m 0 then .done (some m)
    else if offset ≤ pOffset m ph then .next (i + 1, writeLE m (ph + 0x08) 8 (pOffset m ph + diff))
    else if offset < (pOffset m ph + pFilesz m ph) % 2 ^ 64 then .done none
    else .next (i + 1, m)

/-- A round of the loop over section headers. -/
def sectionRound (sht offset diff : Nat) :
    Nat × (Nat → UInt8) → Round (Nat × (Nat → UInt8)) (Option (Nat → UInt8))
  | (i, m) =>
    let sh := sht + elfSectionSize * i
    if i = eShnum m 0 then .done (some m)
    else if offset ≤ shOffset m sh then .next (i + 1, writeLE m (sh + 0x18) 8 (shOffset m sh + diff))
    else if shType m sh ≠ elfShtNull ∧ shType m sh ≠ elfShtNobits ∧
        offset < (shOffset m sh + shSize m sh) % 2 ^ 64 then .done none
    else .next (i + 1, m)

/-- The numbers of headers have 16 bits: after more rounds a loop would have left the file. -/
def shiftPrograms (m : Nat → UInt8) (pht offset diff : Nat) : Option (Nat → UInt8) :=
  (run (programRound pht offset diff) (2 ^ 16) (0, m)).join

def shiftHeaders (m : Nat → UInt8) (sht offset diff : Nat) : Option (Nat → UInt8) :=
  (run (sectionRound sht offset diff) (2 ^ 16) (0, m)).join

/-- The bytes of the file from `offset` on make room for `diff` null bytes. -/
def moveData (offset diff : Nat) (h : ei.size + diff < 2 ^ 64) : ElfInfo :=
  let ei := ei.grow (ei.size + diff)
  let m := blit ei.data (offset + diff) (ei.size - offset) fun k => ei.data (offset + k)
  { ei with
    data := fill m offset 0 diff
    size := ei.size + diff
    size_lt := by
      change (grow _ _).size + diff < _
      unfold grow
      split <;> exact h
    changed := true }

/-- A pointer to an old buffer is not followed. -/
def shiftSections (offset diff : Nat) : Option ElfInfo :=
  if ¬ (offset < ei.size ∧ 0 < diff) then none
  else if ei.eh.buffer ≠ ei.buffer ∨ ei.pht.buffer ≠ ei.buffer ∨ ei.sht.buffer ≠ ei.buffer then none
  else if offset ≤ (ePhoff ei.data 0 + ei.phnum * elfProgramSize) % 2 ^ 64 then none
  else
    (shiftPrograms ei.data ei.pht.offset offset diff).bind fun m =>
    (shiftHeaders m ei.sht.offset offset diff).bind fun m =>
    if h : ei.size + diff < 2 ^ 64 then
      let ei := moveData { ei with data := m } offset diff h
      if ei.eh.buffer ≠ ei.buffer then none
      else if offset ≤ eShoff ei.data 0 then
        let m := writeLE ei.data 0x28 8 (eShoff ei.data 0 + diff)
        some { ei with data := m, sht := ⟨ei.buffer, eShoff m 0⟩ }
      else some ei
    else none

/-! ### `rewrite_symtabref` -/

/-- The state of the loop over the symbols with the name. -/
structure Rewriting where
  ei : ElfInfo
  sym : Option Nat
  loadaddr : Nat
  nfound : Nat

/-- The symbol is an object in a section. -/
def IsObject (sym : Symbol) : Prop := sym.stInfo &&& elfSttMask = elfSttObject ∧ sym.stShndx.toNat < ei.shnum

instance (sym : Symbol) : Decidable (ei.IsObject sym) := inferInstanceAs (Decidable (_ ∧ _))

/-- Neither the size nor the address of the object is reported as an error. -/
def Accepted (sym : Symbol) : Prop :=
  let sh := ei.shdr sym.stShndx.toNat
  sym.stSize.toNat = symtabrefSize ∧ shType ei.data sh = elfShtProgbits ∧ shAddr ei.data sh ≤ sym.stValue.toNat ∧
    sym.stValue.toNat < sub64 ((shAddr ei.data sh + shSize ei.data sh) % 2 ^ 64) symtabrefSize

instance (sym : Symbol) : Decidable (ei.Accepted sym) := inferInstanceAs (Decidable (_ ∧ _))

/-- `stref_off`. -/
def symtabrefOffset (sym : Symbol) : Nat :=
  let sh := ei.shdr sym.stShndx.toNat
  (shOffset ei.data sh + (sym.stValue.toNat - shAddr ei.data sh)) % 2 ^ 64

/-- What is written: `strtabOff` is the distance of the strings from the symbols. -/
def xstref (loadaddr nsymtab strtabOff size : Nat) : Symtabref :=
  ⟨loadaddr, nsymtab, (loadaddr + strtabOff) % 2 ^ 64, size⟩

def rewriteRound (name : List UInt8) (strtabOff size : Nat) (r : Rewriting) :
    Round Rewriting (Option Rewriting) :=
  match r.sym with
  | none => .done (some r)
  | some i =>
    let sym := symbolAt r.ei.data (r.ei.symbol i)
    if r.ei.IsObject sym then
      if r.ei.Accepted sym then
        let off := r.ei.symtabrefOffset sym
        let loadaddr := if r.loadaddr = 0 then readLE r.ei.data off 8 else r.loadaddr
        let x := xstref loadaddr r.ei.nsymtab strtabOff size
        let ei :=
          if symtabrefAt r.ei.data off = x then r.ei
          else { r.ei with data := writeSymtabref r.ei.data off x, changed := true }
        .next ⟨ei, ei.findSymbol name (i + 1), loadaddr, r.nfound + 1⟩
      else .done none
    else .next { r with sym := r.ei.findSymbol name (i + 1) }

/-- Every round but the last is for a symbol of its own. -/
def rewriteSymtabref (name : List UInt8) (loadaddr strtabOff size : Nat) : Option Rewriting :=
  let ei := ei.loadSymtab
  (run (rewriteRound name strtabOff size) (ei.nsymtab + 1) ⟨ei, ei.findSymbol name 0, loadaddr, 0⟩).join

/-! ### `main` -/

def alignSymtab (symtabndx : Nat) : Option ElfInfo :=
  let sh := ei.shdr symtabndx
  if shOffset ei.data sh % 0x1000 = 0 then some ei
  else if shAddralign ei.data sh < 0x1000 then
    shiftSections { ei with data := writeLE ei.data (sh + 0x30) 8 0x1000, changed := true }
      (shOffset ei.data sh) (0x1000 - shOffset ei.data sh % 0x1000)
  else none

/-- The header of `.symtab` gets the new alignment. -/
def withAddralign (symtabndx : Nat) : ElfInfo :=
  { ei with data := writeLE ei.data (ei.shdr symtabndx + 0x30) 8 0x1000, changed := true }

def markAllocated (i addr : Nat) : ElfInfo :=
  let sh := ei.shdr i
  if shFlags ei.data sh &&& elfShfAlloc = 0 then
    let m := writeLE ei.data (sh + 0x08) 8 (shFlags ei.data sh ||| elfShfAlloc)
    { ei with data := writeLE m (sh + 0x10) 8 addr, changed := true }
  else ei

/-- The first program header that does not end before `loadaddr`. -/
def findProgram (loadaddr : Nat) : Nat :=
  seek (fun i => loadaddr ≤ (pVa ei.data (ei.program i) + pFilesz ei.data (ei.program i)) % 2 ^ 64) ei.phnum 0

def insertProgram (i offset va filesz : Nat) : ElfInfo :=
  let ph := ei.program i
  let m := blit ei.data (ph + elfProgramSize) ((ei.phnum - i) * elfProgramSize) fun k => ei.data (ph + k)
  let m := writeLE m 0x38 2 (ePhnum m 0 + 1)
  { ei with data := writeProgram m ph offset va filesz, changed := true }

def addProgram (loadaddr offset filesz : Nat) : Option ElfInfo :=
  let i := ei.findProgram loadaddr
  let ph := ei.program i
  if i ≠ ei.phnum ∧ pVa ei.data ph = loadaddr ∧ pOffset ei.data ph = offset ∧ filesz ≤ pFilesz ei.data ph then some ei
  else if ei.firstOffset < (ePhoff ei.data 0 + (ei.phnum + 1) * elfProgramSize) % 2 ^ 64 ∨
      eShoff ei.data 0 ≤ ei.firstOffset then none
  else some (ei.insertProgram i offset loadaddr filesz)

/-- The options of the command line; `symtab` is the default of `lsymtabName`. -/
structure Options where
  loadaddr : UInt64
  lsymtabName : List UInt8
  lsymtabSet : Bool
  nul : 0 ∉ lsymtabName

/-- What `main` does with the aligned image: `first`, `strtab` and `last` are offsets. -/
def embed (o : Options) (symtabndx first strtab last : Nat) : Option ElfInfo :=
  (ei.rewriteSymtabref o.lsymtabName o.loadaddr.toNat (sub64 strtab first) (sub64 last first)).bind fun r =>
  if r.nfound = 0 ∧ o.lsymtabSet then none
  else
    let ei := r.ei.sortSymtab
    if r.loadaddr = 0 then some ei
    else
      let ei := ei.markAllocated symtabndx r.loadaddr
      let ei := ei.markAllocated (symtabndx + 1) (sub64 (r.loadaddr + strtab) first)
      ei.addProgram r.loadaddr first (sub64 last first)

/-- The image that `main` leaves, with `changed` when it is written. -/
def mkchickadeesymtab (o : Options) (capacity : Nat) (f : File) : Option ElfInfo :=
  match f.validate with
  | .ok true =>
    let ei := ofFile f capacity
    let symtabndx := ei.findSection symtabName
    let sh := ei.shdr symtabndx
    if symtabndx = 0 ∨ shType ei.data sh ≠ elfShtSymtab then none
    else if ei.shnum ≤ shLink ei.data sh ∨ shLink ei.data sh ≠ symtabndx + 1 ∨
        shType ei.data (ei.shdr (shLink ei.data sh)) ≠ elfShtStrtab then none
    else
      (ei.alignSymtab symtabndx).bind fun ei =>
      let first := shOffset ei.data (ei.shdr symtabndx)
      let strtab := shOffset ei.data (ei.shdr (symtabndx + 1))
      ei.embed o symtabndx first strtab ((strtab + shSize ei.data (ei.shdr (symtabndx + 1))) % 2 ^ 64)
  | _ => none

end ElfInfo

end Cs300Projects.WeensyOS.Elf
