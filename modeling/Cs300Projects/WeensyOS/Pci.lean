import Cs300Projects.Lib.Bytes
import Mathlib.Data.Nat.Bitwise

/-!
# Access to the PCI configuration space

The accessors of `pcistate` select four bytes of the configuration space by a write to the address port, and transfer
them, or some of them, through the data port. The narrow reads add the low bits of the address to the port, and the
narrow writes add them to the data.
-/

namespace Cs300Projects.WeensyOS

open Bytes

def regHostBridgeConfigAddr : Nat := 0xCF8
def regHostBridgeConfigData : Nat := 0xCFC

/-- The host bridge, with the value of its address port. -/
structure Pci where
  configAddr : UInt32
  config : Nat → UInt8

namespace Pci

variable (s : Pci)

/-! ### The ports -/

/-- Bit 31 of the address port enables the access. -/
def enabled : Bool := 2 ^ 31 ≤ s.configAddr.toNat

/-- The configuration byte that is reached through the byte lane `k` of the data port. -/
def lane (k : Nat) : Nat := s.configAddr.toNat % 2 ^ 31 / 4 * 4 + k

/-- The `n` bytes at the port are byte lanes of the data port. -/
def Lanes (port n : Nat) : Prop := regHostBridgeConfigData ≤ port ∧ port + n ≤ regHostBridgeConfigData + 4

instance (port n : Nat) : Decidable (Lanes port n) := inferInstanceAs (Decidable (_ ∧ _))

def out (port n v : Nat) : Pci :=
  if s.enabled ∧ Lanes port n then { s with config := writeLE s.config (s.lane (port - regHostBridgeConfigData)) n v } else s

/-- Nobody answers at other ports. -/
def inp (port n : Nat) : Nat :=
  if s.enabled ∧ Lanes port n then readLE s.config (s.lane (port - regHostBridgeConfigData)) n else 256 ^ n - 1

def outl (port : Nat) (v : UInt32) : Pci :=
  if port = regHostBridgeConfigAddr then { s with configAddr := v } else s.out port 4 v.toNat

def outw (port : Nat) (v : UInt16) : Pci := s.out port 2 v.toNat
def outb (port : Nat) (v : UInt8) : Pci := s.out port 1 v.toNat

def inl (port : Nat) : UInt32 := UInt32.ofNat (s.inp port 4)
def inw (port : Nat) : UInt16 := UInt16.ofNat (s.inp port 2)
def inb (port : Nat) : UInt8 := UInt8.ofNat (s.inp port 1)

/-! ### The accessors -/

/-- The `int` is not negative. -/
def NonNeg (addr : Nat) : Prop := addr < 2 ^ 31

instance (addr : Nat) : Decidable (NonNeg addr) := inferInstanceAs (Decidable (_ < _))

/-- `outl(reg_host_bridge_config_addr, 0x80000000U | addr)` -/
def select (addr : Nat) : Pci := s.outl regHostBridgeConfigAddr (0x80000000 ||| UInt32.ofNat addr)

/-- The accessors give no result where their assertion fails. -/
def readl (addr : Nat) : Option (UInt32 × Pci) :=
  if NonNeg addr ∧ addr &&& 3 = 0 then some ((s.select addr).inl regHostBridgeConfigData, s.select addr) else none

def readw (addr : Nat) : Option (UInt16 × Pci) :=
  if NonNeg addr ∧ addr &&& 1 = 0 then some ((s.select addr).inw (regHostBridgeConfigData + (addr &&& 3)), s.select addr)
  else none

def readb (addr : Nat) : Option (UInt8 × Pci) :=
  if NonNeg addr then some ((s.select addr).inb (regHostBridgeConfigData + (addr &&& 3)), s.select addr) else none

def writel (addr : Nat) (data : UInt32) : Option Pci :=
  if NonNeg addr ∧ addr &&& 3 = 0 then some ((s.select addr).outl regHostBridgeConfigData data) else none

def writew (addr : Nat) (data : UInt16) : Option Pci :=
  if NonNeg addr ∧ addr &&& 1 = 0 then
    some ((s.select addr).outw regHostBridgeConfigData (data + UInt16.ofNat (addr &&& 3)))
  else none

def writeb (addr : Nat) (data : UInt8) : Option Pci :=
  if NonNeg addr then some ((s.select addr).outb regHostBridgeConfigData (data + UInt8.ofNat (addr &&& 3))) else none

def configCommand : Nat := 4

/-- `enable(addr)`: I/O, memory and bus master. -/
def enable (addr : Nat) : Option Pci := s.writew (addr + configCommand) 0x0007

/-! ### What they read and write -/

variable {s} {addr n v k : Nat}

lemma select_config : (s.select addr).config = s.config := rfl

lemma select_addr (h : NonNeg addr) : (s.select addr).configAddr.toNat = 2 ^ 31 + addr := by
  unfold NonNeg at h
  have hor : 2 ^ 31 ||| addr = 2 ^ 31 + addr := by
    have heq := Nat.two_pow_add_eq_or_of_lt h 1
    rw [Nat.mul_one] at heq
    exact heq.symm
  change (0x80000000 ||| UInt32.ofNat addr).toNat = _
  rw [UInt32.toNat_or, UInt32.toNat_ofNat', Nat.mod_eq_of_lt (by omega)]
  exact hor

lemma select_enabled (h : NonNeg addr) : (s.select addr).enabled = true := by
  unfold enabled
  rw [select_addr h]
  exact decide_eq_true (Nat.le_add_right _ _)

lemma select_lane (h : NonNeg addr) : (s.select addr).lane k = addr / 4 * 4 + k := by
  unfold lane
  rw [select_addr h]
  unfold NonNeg at h
  omega

lemma out_select (h : NonNeg addr) (hn : k + n ≤ 4) :
    (s.select addr).out (regHostBridgeConfigData + k) n v =
      { s.select addr with config := writeLE s.config (addr / 4 * 4 + k) n v } := by
  have hlanes : Lanes (regHostBridgeConfigData + k) n := ⟨Nat.le_add_right _ _, by omega⟩
  unfold out
  rw [if_pos ⟨select_enabled h, hlanes⟩, Nat.add_sub_cancel_left, select_lane h]
  rfl

lemma in_select (h : NonNeg addr) (hn : k + n ≤ 4) :
    (s.select addr).inp (regHostBridgeConfigData + k) n = readLE s.config (addr / 4 * 4 + k) n := by
  have hlanes : Lanes (regHostBridgeConfigData + k) n := ⟨Nat.le_add_right _ _, by omega⟩
  unfold inp
  rw [if_pos ⟨select_enabled h, hlanes⟩, Nat.add_sub_cancel_left, select_lane h]
  rfl

/-! ### A write and the matching read -/

/-- The value of a `writel`, a `writew` or a `writeb`. -/
inductive Access where
  | long (data : UInt32)
  | word (data : UInt16)
  | byte (data : UInt8)

namespace Access

def width : Access → Nat
  | .long _ => 4
  | .word _ => 2
  | .byte _ => 1

def value : Access → Nat
  | .long data => data.toNat
  | .word data => data.toNat
  | .byte data => data.toNat

/-- The assertion of the accessors of this width. -/
def Accepted (addr : Nat) : Access → Prop
  | .long _ => NonNeg addr ∧ addr &&& 3 = 0
  | .word _ => NonNeg addr ∧ addr &&& 1 = 0
  | .byte _ => NonNeg addr

end Access

def write (s : Pci) (addr : Nat) : Access → Option Pci
  | .long data => s.writel addr data
  | .word data => s.writew addr data
  | .byte data => s.writeb addr data

/-- The read of the same width. -/
def readBack (s : Pci) (addr : Nat) : Access → Option (Access × Pci)
  | .long _ => (s.readl addr).map fun r => (.long r.1, r.2)
  | .word _ => (s.readw addr).map fun r => (.word r.1, r.2)
  | .byte _ => (s.readb addr).map fun r => (.byte r.1, r.2)

/-- The write is read back at the same address, and changes nothing else. -/
def AccessRight (s : Pci) (addr : Nat) (x : Access) : Prop :=
  ∃ s' s'', s.write addr x = some s' ∧ s'.readBack addr x = some (x, s'') ∧ Within s.config s'.config addr x.width ∧
    s''.config = s'.config

/-- The value stands at the address already, and what is written for it stands already at the first of the four bytes. -/
def AlreadyThere (s : Pci) (addr : Nat) (x : Access) : Prop :=
  readLE s.config addr x.width = x.value ∧
    readLE s.config (addr / 4 * 4) x.width = (x.value + addr % 4) % 256 ^ x.width

section AccessRight

variable {x y : Access}

lemma Access.Accepted.nonNeg (h : x.Accepted addr) : NonNeg addr := by
  cases x with
  | long data => exact h.1
  | word data => exact h.1
  | byte data => exact h

/-- The bytes of an accepted access are byte lanes of one selected group of four. -/
lemma Access.Accepted.lanes (h : x.Accepted addr) : addr % 4 + x.width ≤ 4 := by
  have hthree : addr &&& 3 = addr % 4 := Nat.and_two_pow_sub_one_eq_mod addr 2
  have hone : addr &&& 1 = addr % 2 := Nat.and_two_pow_sub_one_eq_mod addr 1
  cases x with
  | long data =>
    have hzero : addr &&& 3 = 0 := h.2
    simp only [Access.width]
    omega
  | word data =>
    have hzero : addr &&& 1 = 0 := h.2
    simp only [Access.width]
    omega
  | byte data =>
    simp only [Access.width]
    omega

/-- An access that is not at a multiple of four does not meet the first bytes of its group of four. -/
lemma Access.Accepted.apart (h : x.Accepted addr) (hoff : addr % 4 ≠ 0) : Apart (addr / 4 * 4) x.width addr x.width := by
  have hone : addr &&& 1 = addr % 2 := Nat.and_two_pow_sub_one_eq_mod addr 1
  left
  cases x with
  | long data =>
    have hlanes : addr % 4 + 4 ≤ 4 := h.lanes
    omega
  | word data =>
    have hzero : addr &&& 1 = 0 := h.2
    simp only [Access.width]
    omega
  | byte data =>
    simp only [Access.width]
    omega

lemma value_lt (x : Access) : x.value < 256 ^ x.width := by
  cases x with
  | long data => exact data.toNat_lt
  | word data => exact data.toNat_lt
  | byte data => exact data.toNat_lt

/-- What an accessor writes: the offset of the byte lane is in the value, and not in the place. -/
lemma write_eq (h : x.Accepted addr) : s.write addr x =
    some { s.select addr with config := writeLE s.config (addr / 4 * 4) x.width ((x.value + addr % 4) % 256 ^ x.width) } := by
  have hnon := h.nonNeg
  have hthree : addr &&& 3 = addr % 4 := Nat.and_two_pow_sub_one_eq_mod addr 2
  cases x with
  | long data =>
    have hzero : addr % 4 = 0 := hthree ▸ h.2
    have hout := out_select (s := s) (v := data.toNat) hnon (show 0 + 4 ≤ 4 by decide)
    rw [write, writel, if_pos ⟨hnon, h.2⟩, outl, if_neg (by decide)]
    rw [Nat.add_zero, Nat.add_zero] at hout
    rw [hout, hzero, Nat.add_zero, Nat.mod_eq_of_lt (value_lt (.long data))]
    rfl
  | word data =>
    have hout := out_select (s := s) (v := (data + UInt16.ofNat (addr % 4)).toNat) hnon (show 0 + 2 ≤ 4 by decide)
    rw [write, writew, if_pos ⟨hnon, h.2⟩, outw, hthree]
    rw [Nat.add_zero, Nat.add_zero] at hout
    rw [hout, UInt16.toNat_add, UInt16.toNat_ofNat', Nat.add_mod_mod]
    rfl
  | byte data =>
    have hout := out_select (s := s) (v := (data + UInt8.ofNat (addr % 4)).toNat) hnon (show 0 + 1 ≤ 4 by decide)
    rw [write, writeb, if_pos hnon, outb, hthree]
    rw [Nat.add_zero, Nat.add_zero] at hout
    rw [hout, UInt8.toNat_add, UInt8.toNat_ofNat', Nat.add_mod_mod]
    rfl

/-- What is read is what stands at the address. -/
lemma readBack_eq (h : x.Accepted addr) :
    ∃ y, s.readBack addr x = some (y, s.select addr) ∧ (y = x ↔ readLE s.config addr x.width = x.value) := by
  have hnon := h.nonNeg
  have hthree : addr &&& 3 = addr % 4 := Nat.and_two_pow_sub_one_eq_mod addr 2
  have hplace : addr / 4 * 4 + addr % 4 = addr := by omega
  have hread := in_select (s := s) hnon h.lanes
  rw [hplace] at hread
  cases x with
  | long data =>
    have hzero : addr % 4 = 0 := hthree ▸ h.2
    rw [hzero, Nat.add_zero] at hread
    refine ⟨.long (UInt32.ofNat (readLE s.config addr 4)), ?_, ?_⟩
    · rw [readBack, readl, if_pos ⟨hnon, h.2⟩, inl]
      exact congrArg (fun v => some (Access.long (UInt32.ofNat v), s.select addr)) hread
    · have hlt : readLE s.config addr 4 < 2 ^ 32 := readLE_lt s.config addr 4
      rw [Access.long.injEq, ← UInt32.toNat_inj, UInt32.toNat_ofNat', Nat.mod_eq_of_lt hlt]
      rfl
  | word data =>
    refine ⟨.word (UInt16.ofNat (readLE s.config addr 2)), ?_, ?_⟩
    · rw [readBack, readw, if_pos ⟨hnon, h.2⟩, inw, hthree]
      exact congrArg (fun v => some (Access.word (UInt16.ofNat v), s.select addr)) hread
    · have hlt : readLE s.config addr 2 < 2 ^ 16 := readLE_lt s.config addr 2
      rw [Access.word.injEq, ← UInt16.toNat_inj, UInt16.toNat_ofNat', Nat.mod_eq_of_lt hlt]
      rfl
  | byte data =>
    refine ⟨.byte (UInt8.ofNat (readLE s.config addr 1)), ?_, ?_⟩
    · rw [readBack, readb, if_pos hnon, inb, hthree]
      exact congrArg (fun v => some (Access.byte (UInt8.ofNat v), s.select addr)) hread
    · have hlt : readLE s.config addr 1 < 2 ^ 8 := readLE_lt s.config addr 1
      rw [Access.byte.injEq, ← UInt8.toNat_inj, UInt8.toNat_ofNat', Nat.mod_eq_of_lt hlt]
      rfl

/-- The access is right where the memory after the write says so. -/
lemma accessRight_iff_memory (h : x.Accepted addr) {m : Nat → UInt8}
    (hm : m = writeLE s.config (addr / 4 * 4) x.width ((x.value + addr % 4) % 256 ^ x.width)) :
    AccessRight s addr x ↔ readLE m addr x.width = x.value ∧ Within s.config m addr x.width := by
  subst hm
  constructor
  · rintro ⟨s', s'', hwrite, hread, hwithin, -⟩
    rw [write_eq h, Option.some.injEq] at hwrite
    obtain ⟨y, hback, hy⟩ := readBack_eq (s := s') h
    have hyx : y = x := congrArg Prod.fst (Option.some.inj (hback.symm.trans hread))
    subst hwrite
    exact ⟨hy.mp hyx, hwithin⟩
  · rintro ⟨hvalue, hwithin⟩
    obtain ⟨y, hback, hy⟩ := readBack_eq (s := { s.select addr with
      config := writeLE s.config (addr / 4 * 4) x.width ((x.value + addr % 4) % 256 ^ x.width) }) h
    rw [hy.mpr hvalue] at hback
    exact ⟨_, _, write_eq h, hback, hwithin, rfl⟩

lemma accessRight_of_aligned (h : x.Accepted addr) (hoff : addr % 4 = 0) : AccessRight s addr x := by
  have hlt := value_lt x
  have hplace : addr / 4 * 4 = addr := by omega
  rw [accessRight_iff_memory h rfl, hoff, hplace, Nat.add_zero, Nat.mod_eq_of_lt hlt, readLE_writeLE, Nat.mod_eq_of_lt hlt]
  exact ⟨rfl, within_writeLE _ _ _ _⟩

/-- `enable` writes the command register, and nothing else. -/
lemma enable_right (h : NonNeg (addr + configCommand)) (hoff : addr % 4 = 0) :
    AccessRight s (addr + configCommand) (.word 0x0007) := by
  have hmod : (addr + configCommand) % 4 = 0 := by
    unfold configCommand
    omega
  have hone : (addr + configCommand) &&& 1 = (addr + configCommand) % 2 := Nat.and_two_pow_sub_one_eq_mod _ 1
  exact accessRight_of_aligned ⟨h, by omega⟩ hmod

/-- A write and the matching read are right at multiples of four. At the other addresses they are right where both
values stand there before. -/
theorem accessRight_iff (s : Pci) (addr : Nat) (x : Access) (h : x.Accepted addr) :
    AccessRight s addr x ↔ addr % 4 = 0 ∨ AlreadyThere s addr x := by
  by_cases hoff : addr % 4 = 0
  · exact ⟨fun _ => Or.inl hoff, fun _ => accessRight_of_aligned h hoff⟩
  · -- the write and the read are in disjoint places
    have hapart := h.apart hoff
    have hread : readLE (writeLE s.config (addr / 4 * 4) x.width ((x.value + addr % 4) % 256 ^ x.width)) addr x.width =
        readLE s.config addr x.width := (within_writeLE _ _ _ _).readLE hapart.symm
    rw [accessRight_iff_memory h rfl, hread, or_iff_right hoff]
    constructor
    · rintro ⟨hvalue, hwithin⟩
      refine ⟨hvalue, ?_⟩
      rw [← hwithin.readLE hapart, readLE_writeLE, Nat.mod_mod]
    · rintro ⟨hvalue, hthere⟩
      refine ⟨hvalue, ?_⟩
      intro b hb
      rw [writeLE_eq_self (by rw [hthere, Nat.mod_mod])]

/-- Configuration space in which the word at 6 is already `0x1234`, and the one at 4 what a write of it at 6 puts there. -/
def sampleSpace (x : Nat) : UInt8 :=
  if x = 4 then 0x36 else if x = 5 ∨ x = 7 then 0x12 else if x = 6 then 0x34 else 0xFF

/-- A write that changes the command register of slot 1, and one at an address that is no multiple of four. -/
theorem accessRight_sample : AccessRight ⟨0, sampleSpace⟩ 0x804 (.word 0x0007) ∧ AccessRight ⟨0, sampleSpace⟩ 6 (.word 0x1234) := by
  have hcommand : Access.Accepted 0x804 (.word 0x0007) := by
    constructor <;> decide
  have hword : Access.Accepted 6 (.word 0x1234) := by
    constructor <;> decide
  have hthere : AlreadyThere ⟨0, sampleSpace⟩ 6 (.word 0x1234) := by
    unfold AlreadyThere
    decide
  exact ⟨(accessRight_iff _ 0x804 _ hcommand).2 (Or.inl (by decide)), (accessRight_iff _ 6 _ hword).2 (Or.inr hthere)⟩

/-- `writew(6, 0x1234)` writes `0x1236` at address 4. -/
theorem writew_not_right : ¬ ∀ (s : Pci) (addr : Nat) (x : Access), x.Accepted addr → AccessRight s addr x := by
  intro h
  have haccepted : Access.Accepted 6 (.word 0x1234) := by
    constructor <;> decide
  have hright := (accessRight_iff_memory haccepted rfl).mp (h ⟨0, fun _ => 0⟩ 6 (.word 0x1234) haccepted)
  exact absurd hright.1 (by decide)

end AccessRight

end Pci

end Cs300Projects.WeensyOS
