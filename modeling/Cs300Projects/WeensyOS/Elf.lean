import Cs300Projects.Lib.Bytes

/-!
# ELF structures

The fields of the structures of `elf.h`, read from memory or from a file at a given address.
-/

namespace Cs300Projects.WeensyOS.Elf

open Bytes

def elfMagic : Nat := 0x464C457F

def elfHeaderSize : Nat := 64
def elfProgramSize : Nat := 56
def elfSectionSize : Nat := 64
def elfSymbolSize : Nat := 24

def elfPtypeLoad : Nat := 1
def elfPflagRead : Nat := 4

def elfShtNull : Nat := 0
def elfShtProgbits : Nat := 1
def elfShtSymtab : Nat := 2
def elfShtStrtab : Nat := 3
def elfShtNobits : Nat := 8
def elfShfAlloc : Nat := 2

/-! ### `elf_header` -/

def eMagic (m : Nat → UInt8) (a : Nat) : Nat := readLE m a 4
def eEntry (m : Nat → UInt8) (a : Nat) : Nat := readLE m (a + 0x18) 8
def ePhoff (m : Nat → UInt8) (a : Nat) : Nat := readLE m (a + 0x20) 8
def eShoff (m : Nat → UInt8) (a : Nat) : Nat := readLE m (a + 0x28) 8
def ePhentsize (m : Nat → UInt8) (a : Nat) : Nat := readLE m (a + 0x36) 2
def ePhnum (m : Nat → UInt8) (a : Nat) : Nat := readLE m (a + 0x38) 2
def eShentsize (m : Nat → UInt8) (a : Nat) : Nat := readLE m (a + 0x3A) 2
def eShnum (m : Nat → UInt8) (a : Nat) : Nat := readLE m (a + 0x3C) 2
def eShstrndx (m : Nat → UInt8) (a : Nat) : Nat := readLE m (a + 0x3E) 2

/-! ### `elf_program` -/

def pType (m : Nat → UInt8) (a : Nat) : Nat := readLE m a 4
def pOffset (m : Nat → UInt8) (a : Nat) : Nat := readLE m (a + 0x08) 8
def pVa (m : Nat → UInt8) (a : Nat) : Nat := readLE m (a + 0x10) 8
def pFilesz (m : Nat → UInt8) (a : Nat) : Nat := readLE m (a + 0x20) 8
def pMemsz (m : Nat → UInt8) (a : Nat) : Nat := readLE m (a + 0x28) 8

/-! ### `elf_section` -/

def shName (m : Nat → UInt8) (a : Nat) : Nat := readLE m a 4
def shType (m : Nat → UInt8) (a : Nat) : Nat := readLE m (a + 0x04) 4
def shFlags (m : Nat → UInt8) (a : Nat) : Nat := readLE m (a + 0x08) 8
def shAddr (m : Nat → UInt8) (a : Nat) : Nat := readLE m (a + 0x10) 8
def shOffset (m : Nat → UInt8) (a : Nat) : Nat := readLE m (a + 0x18) 8
def shSize (m : Nat → UInt8) (a : Nat) : Nat := readLE m (a + 0x20) 8
def shLink (m : Nat → UInt8) (a : Nat) : Nat := readLE m (a + 0x28) 4
def shAddralign (m : Nat → UInt8) (a : Nat) : Nat := readLE m (a + 0x30) 8

/-! ### `elf_symbol` -/

def stName (m : Nat → UInt8) (a : Nat) : Nat := readLE m a 4

end Cs300Projects.WeensyOS.Elf
