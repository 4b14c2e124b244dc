import Cs300Projects.Lib.Loop
import Cs300Projects.WeensyOS.Elf
import Mathlib.Tactic.IntervalCases

/-!
# The boot loader

`boot` reads the kernel's ELF image from the first disk, one sector at a time through the ATA
registers of the drive. Memory is addressed by 64-bit numbers, sectors by 32-bit numbers. Only the
first GiB is mapped, and the loader runs in the memory that it loads the kernel to: there is no
result where it faults, or stores to its own page table, stack or code.
-/

namespace Cs300Projects.WeensyOS.Boot

open Bytes Loop Elf

def sectorsize : Nat := 512
def elfhdr : Nat := 0x3000
def kernelStartSector : Nat := 1
def pagesize : Nat := 4096

/-- The page table that `bootentry.S` sets up maps the first GiB. -/
def bootMapped : Nat := 2 ^ 30

/-- The page table at 0x1000, the stack, which grows from 0x7C00 down to the scratch page, and the code at 0x7C00. -/
def LoaderMemory (x : Nat) : Prop := 0x1000 ≤ x ∧ x < 0x3000 ∨ elfhdr + pagesize ≤ x ∧ x < 0x7E00

/-- A byte that the loader can store to and go on. -/
def Writable (x : Nat) : Prop := x < bootMapped ∧ ¬LoaderMemory x

def AllWritable (dst n : Nat) : Prop := ∀ x, dst ≤ x → x < dst + n → Writable x

instance (dst n : Nat) : Decidable (AllWritable dst n) :=
  decidable_of_iff (n = 0 ∨ dst + n ≤ 2 ^ 30 ∧ (dst + n ≤ 0x1000 ∨ 0x3000 ≤ dst) ∧ (dst + n ≤ 0x4000 ∨ 0x7E00 ≤ dst)) (by
    unfold AllWritable Writable LoaderMemory bootMapped elfhdr pagesize
    constructor
    · intro h x hx hlt
      omega
    · intro h
      by_contra hnot
      have hlast := h (dst + n - 1) (by omega) (by omega)
      have hfirst := h (max dst (min 0x1000 (dst + n - 1))) (by omega) (by omega)
      have hstack := h (max dst (min 0x4000 (dst + n - 1))) (by omega) (by omega)
      omega)

/-- The memory `m` after a store to `n` bytes. -/
def stored (dst n : Nat) (m : Nat → UInt8) : Option (Nat → UInt8) := if AllWritable dst n then some m else none

/-- The registers of a drive that a 28-bit read command uses. -/
structure Ata where
  lbaLow : UInt8
  lbaMid : UInt8
  lbaHigh : UInt8
  device : UInt8

/-- The sector number: 24 bits in three registers, four bits in the device register. -/
def Ata.lba (r : Ata) : Nat :=
  r.lbaLow.toNat + 2 ^ 8 * r.lbaMid.toNat + 2 ^ 16 * r.lbaHigh.toNat +
    2 ^ 24 * (r.device &&& 0x0F).toNat

/-- The contents of the two disks that share the registers. -/
structure Disks where
  first : Nat → UInt8
  second : Nat → UInt8

/-- Command 0x20 with a count of one: bit 4 of the device register selects the disk. -/
def Disks.readSector (d : Disks) (r : Ata) (k : Nat) : UInt8 :=
  if r.device &&& 0x10 = 0 then d.first (sectorsize * r.lba + k)
  else d.second (sectorsize * r.lba + k)

def bootReadsect (d : Disks) (m : Nat → UInt8) (dst : Nat) (srcSect : UInt32) : Option (Nat → UInt8) :=
  let r : Ata := {
    lbaLow := srcSect.toUInt8
    lbaMid := (srcSect >>> 8).toUInt8
    lbaHigh := (srcSect >>> 16).toUInt8
    device := ((srcSect >>> 24) ||| 0xE0).toUInt8 }
  stored dst sectorsize (blit m dst sectorsize (d.readSector r))

/-- One round of the loop that reads sectors. -/
def sectorRound (d : Disks) (endPtr : Nat) :
    Nat × UInt32 × (Nat → UInt8) → Round (Nat × UInt32 × (Nat → UInt8)) (Option (Nat → UInt8))
  | (ptr, srcSect, m) =>
    if ptr < endPtr then
      match bootReadsect d m ptr srcSect with
      | none => .done none
      | some m' => .next ((ptr + sectorsize) % 2 ^ 64, srcSect + 1, m')
    else .done (some m)

/-- One round of the loop that clears the bss segment. -/
def clearRound (memEnd : Nat) :
    Nat × (Nat → UInt8) → Round (Nat × (Nat → UInt8)) (Option (Nat → UInt8))
  | (endPtr, m) =>
    if endPtr < memEnd then
      match stored endPtr 1 (fill m endPtr 0 1) with
      | none => .done none
      | some m' => .next ((endPtr + 1) % 2 ^ 64, m')
    else .done (some m)

def bootReadseg (d : Disks) (fuel : Nat) (m : Nat → UInt8) (ptr : Nat) (srcSect : UInt32)
    (filesz memsz : Nat) : Option (Nat → UInt8) :=
  let endPtr := (ptr + filesz) % 2 ^ 64
  let memEnd := (memsz + ptr) % 2 ^ 64
  -- `ptr &= ~(SECTORSIZE - 1)`
  let start := ptr - ptr % sectorsize
  match run (sectorRound d endPtr) fuel (start, srcSect, m) with
  | some (some m') => (run (clearRound memEnd) fuel (endPtr, m')).join
  | _ => none

/-- One round of the loop over the program headers. -/
def programRound (d : Disks) (fuel eph : Nat) :
    Nat × (Nat → UInt8) → Round (Nat × (Nat → UInt8)) (Option (Nat → UInt8))
  | (ph, m) =>
    if ph < eph then
      -- a header that is not mapped cannot be read
      if bootMapped < ph + elfProgramSize then .done none
      else
        match bootReadseg d fuel m (pVa m ph)
            (UInt32.ofNat (kernelStartSector + pOffset m ph / sectorsize))
            (pFilesz m ph) (pMemsz m ph) with
        | none => .done none
        | some m' => .next ((ph + elfProgramSize) % 2 ^ 64, m')
    else .done (some m)

/-- The entry point that `boot` jumps to, and the memory at that time. -/
def boot (d : Disks) (fuel : Nat) (m : Nat → UInt8) : Option (Nat × (Nat → UInt8)) :=
  match bootReadseg d fuel m elfhdr (UInt32.ofNat kernelStartSector) pagesize pagesize with
  | none => none
  | some m₁ =>
    -- boot waits forever for the magic number
    if eMagic m₁ elfhdr ≠ elfMagic then none
    else
      let ph := (elfhdr + ePhoff m₁ elfhdr) % 2 ^ 64
      let eph := (ph + elfProgramSize * ePhnum m₁ elfhdr) % 2 ^ 64
      match run (programRound d fuel eph) fuel (ph, m₁) with
      | some (some m₂) => some (eEntry m₂ elfhdr, m₂)
      | _ => none

/-! ### Reading sectors -/

lemma deviceByte {n : Nat} (hn : n < 16) :
    (((UInt32.ofNat n ||| 0xE0).toUInt8 &&& 0x0F).toNat = n) ∧
      (UInt32.ofNat n ||| 0xE0).toUInt8 &&& 0x10 = 0 := by
  interval_cases n <;> decide

lemma shiftRight_ofNat {s k : Nat} (hs : s < 2 ^ 32) (hk : k < 32) :
    UInt32.ofNat s >>> UInt32.ofNat k = UInt32.ofNat (s / 2 ^ k) := by
  apply UInt32.toNat.inj
  have hdiv : s / 2 ^ k ≤ s := Nat.div_le_self s _
  rw [UInt32.toNat_shiftRight, UInt32.toNat_ofNat_of_lt' hs,
    UInt32.toNat_ofNat_of_lt' (show k < 2 ^ 32 by omega),
    UInt32.toNat_ofNat_of_lt' (show s / 2 ^ k < 2 ^ 32 by omega), Nat.mod_eq_of_lt hk,
    Nat.shiftRight_eq_div_pow]

lemma toUInt8_ofNat (s : Nat) : (UInt32.ofNat s).toUInt8.toNat = s % 256 := by
  simp

/-- Up to 2²⁸ the registers address the sector on the first disk. -/
lemma bootReadsect_eq (d : Disks) (m : Nat → UInt8) (dst : Nat) {s : Nat} (hs : s < 2 ^ 28) :
    bootReadsect d m dst (UInt32.ofNat s) =
      stored dst sectorsize (blit m dst sectorsize (fun k => d.first (sectorsize * s + k))) := by
  have hshift : ∀ k, k < 32 → UInt32.ofNat s >>> UInt32.ofNat k = UInt32.ofNat (s / 2 ^ k) :=
    fun k hk => shiftRight_ofNat (by omega) hk
  have hdevice := deviceByte (n := s / 2 ^ 24) (by omega)
  have hlba : s % 256 + 2 ^ 8 * (s / 2 ^ 8 % 256) + 2 ^ 16 * (s / 2 ^ 16 % 256) +
      2 ^ 24 * (s / 2 ^ 24) = s := by omega
  simp only [bootReadsect]
  congr 2
  funext k
  rw [Disks.readSector, Ata.lba]
  rw [show (8 : UInt32) = UInt32.ofNat 8 from rfl, show (16 : UInt32) = UInt32.ofNat 16 from rfl,
    show (24 : UInt32) = UInt32.ofNat 24 from rfl, hshift 8 (by omega), hshift 16 (by omega),
    hshift 24 (by omega), if_pos hdevice.2, hdevice.1, toUInt8_ofNat, toUInt8_ofNat, toUInt8_ofNat]
  rw [hlba]
end Cs300Projects.WeensyOS.Boot
