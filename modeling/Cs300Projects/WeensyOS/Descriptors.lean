import Cs300Projects.WeensyOS.Paging

/-!
# Segment and gate descriptors

`set_sys_segment` and `set_gate` put addresses, sizes and privileges into bit fields of two words. The descriptors are
decoded as the processor reads them: the limit of a segment has 20 bits, of which the upper four are lost.
-/

namespace Cs300Projects.WeensyOS

open BitField

def x86segP : Word := 1#64 <<< 47
def segselKernCode : BitVec 32 := 0x8#32

def setSysSegment (addr size type : Word) (dpl : BitVec 32) : Word × Word :=
  ((addr &&& 0x0000000000FFFFFF#64) <<< 16 ||| (addr &&& 0x00000000FF000000#64) <<< 32 ||| (size - 1#64) &&& 0x0FFFF#64 |||
      ((size - 1#64) &&& 0xF0000#64) <<< 48 ||| type ||| dpl.signExtend 64 <<< 45 ||| x86segP,
    addr >>> 32)

/-- The two words of the gate, when the assertion holds. -/
def setGate (addr : Word) (type dpl ist : BitVec 32) : Option (Word × Word) :=
  if type < 16#32 ∧ dpl < 4#32 ∧ ist < 8#32 then
    some (addr &&& 0x000000000000FFFF#64 ||| (segselKernCode <<< 16).signExtend 64 ||| ist.signExtend 64 <<< 32 |||
        type.signExtend 64 <<< 40 ||| dpl.signExtend 64 <<< 45 ||| x86segP ||| (addr &&& 0x00000000FFFF0000#64) <<< 32,
      addr >>> 32)
  else none

/-! ### The layout of the processor -/

/-- A system segment descriptor in 64-bit mode. -/
structure SystemSegment where
  base : BitVec 64
  limit : BitVec 20
  type : BitVec 4
  codeOrData : BitVec 1
  dpl : BitVec 2
  present : BitVec 1
  available : BitVec 1
  reserved : BitVec 2
  granularity : BitVec 1
  upper : BitVec 32
  deriving DecidableEq

def decodeSystemSegment (d : Word × Word) : SystemSegment where
  base := d.2.extractLsb' 0 32 ++ (d.1.extractLsb' 56 8 ++ d.1.extractLsb' 16 24)
  limit := d.1.extractLsb' 48 4 ++ d.1.extractLsb' 0 16
  type := d.1.extractLsb' 40 4
  codeOrData := d.1.extractLsb' 44 1
  dpl := d.1.extractLsb' 45 2
  present := d.1.extractLsb' 47 1
  available := d.1.extractLsb' 52 1
  reserved := d.1.extractLsb' 53 2
  granularity := d.1.extractLsb' 55 1
  upper := d.2.extractLsb' 32 32

/-- An interrupt gate in 64-bit mode. -/
structure Gate where
  offset : BitVec 64
  selector : BitVec 16
  ist : BitVec 3
  reserved : BitVec 5
  type : BitVec 4
  zero : BitVec 1
  dpl : BitVec 2
  present : BitVec 1
  upper : BitVec 32
  deriving DecidableEq

def decodeGate (d : Word × Word) : Gate where
  offset := d.2.extractLsb' 0 32 ++ (d.1.extractLsb' 48 16 ++ d.1.extractLsb' 0 16)
  selector := d.1.extractLsb' 16 16
  ist := d.1.extractLsb' 32 3
  reserved := d.1.extractLsb' 35 5
  type := d.1.extractLsb' 40 4
  zero := d.1.extractLsb' 44 1
  dpl := d.1.extractLsb' 45 2
  present := d.1.extractLsb' 47 1
  upper := d.2.extractLsb' 32 32

/-- The descriptor of a segment of `size` bytes at `base`. -/
def SystemSegment.expected (base size : Word) (type : BitVec 4) (dpl : BitVec 2) : SystemSegment :=
  ⟨base, (size - 1#64).setWidth 20, type, 0#1, dpl, 1#1, 0#1, 0#2, 0#1, 0#32⟩

def Gate.expected (offset : Word) (type : BitVec 4) (dpl : BitVec 2) (ist : BitVec 3) : Gate :=
  ⟨offset, segselKernCode.setWidth 16, ist, 0#5, type, 0#1, dpl, 1#1, 0#32⟩

/-! ### Fields of the words -/

section Fields

variable (addr size : Word) (type : BitVec 4) (dpl : BitVec 2) (ist : BitVec 3)

/-- An `int` that is not negative is shifted into place. -/
lemma signExtend_shiftLeft {n : Nat} (x : BitVec n) (hn : n < 32) (k : Nat) :
    (x.setWidth 32).signExtend 64 <<< k = place 64 k x := by
  have hpow : 2 ^ n ≤ 2 ^ 31 := Nat.pow_le_pow_right (by decide) (by omega)
  have hwide : (x.setWidth 32).toNat = x.toNat := by
    rw [BitVec.toNat_setWidth, Nat.mod_eq_of_lt (by have := x.isLt; omega)]
  have hmsb : (x.setWidth 32).msb = false := by
    rw [BitVec.msb_eq_decide, hwide]
    exact decide_eq_false (by have := x.isLt; omega)
  have hsame : (x.setWidth 32).signExtend 64 = x.setWidth 64 := by
    rw [BitVec.signExtend_eq_setWidth_of_msb_false hmsb]
    apply BitVec.eq_of_toNat_eq
    rw [BitVec.toNat_setWidth, hwide, BitVec.toNat_setWidth]
  rw [hsame, place]

lemma x86segP_eq : x86segP = place 64 47 1#1 := by decide

/-- The low word of a system segment: the upper four bits of the limit are missing. -/
lemma setSysSegment_low : (setSysSegment addr size (type.setWidth 64 <<< 40) (dpl.setWidth 32)).1 =
    place 64 16 (addr.extractLsb' 0 24) ||| place 64 56 (addr.extractLsb' 24 8) ||| place 64 0 ((size - 1#64).extractLsb' 0 16) |||
      place 64 40 type ||| place 64 45 dpl ||| place 64 47 1#1 := by
  have hlow := and_mask_shiftLeft (show 0 ≤ 24 by decide) (show 24 < 64 by decide) addr 16
  have hhigh := and_mask_shiftLeft (show 24 ≤ 32 by decide) (show 32 < 64 by decide) addr 32
  have hlimit := and_mask_shiftLeft (show 0 ≤ 16 by decide) (show 16 < 64 by decide) (size - 1#64) 0
  have hlost := and_mask_shiftLeft (show 16 ≤ 20 by decide) (show 20 < 64 by decide) (size - 1#64) 48
  rw [place_lost _ (by decide)] at hlost
  rw [BitVec.shiftLeft_zero] at hlimit
  have hmask : lowMask 64 24 &&& ~~~lowMask 64 0 = 0x0000000000FFFFFF#64 ∧ lowMask 64 32 &&& ~~~lowMask 64 24 = 0x00000000FF000000#64 ∧
      lowMask 64 16 &&& ~~~lowMask 64 0 = 0x0FFFF#64 ∧ lowMask 64 20 &&& ~~~lowMask 64 16 = 0xF0000#64 := by decide
  rw [hmask.1] at hlow
  rw [hmask.2.1] at hhigh
  rw [hmask.2.2.1] at hlimit
  rw [hmask.2.2.2] at hlost
  unfold setSysSegment
  rw [hlow, hhigh, hlimit, hlost, signExtend_shiftLeft dpl (by decide), x86segP_eq, BitVec.or_zero]
  rfl

lemma setGate_eq : setGate addr (type.setWidth 32) (dpl.setWidth 32) (ist.setWidth 32) =
    some (place 64 0 (addr.extractLsb' 0 16) ||| place 64 16 (segselKernCode.setWidth 16) ||| place 64 32 ist |||
      place 64 40 type ||| place 64 45 dpl ||| place 64 47 1#1 ||| place 64 48 (addr.extractLsb' 16 16), addr >>> 32) := by
  have hassert : type.setWidth 32 < 16#32 ∧ dpl.setWidth 32 < 4#32 ∧ ist.setWidth 32 < 8#32 := by
    have htype := type.isLt
    have hdpl := dpl.isLt
    have hist := ist.isLt
    simp only [BitVec.lt_def, BitVec.toNat_setWidth, BitVec.toNat_ofNat]
    omega
  have hlow := and_mask_shiftLeft (show 0 ≤ 16 by decide) (show 16 < 64 by decide) addr 0
  have hhigh := and_mask_shiftLeft (show 16 ≤ 32 by decide) (show 32 < 64 by decide) addr 32
  rw [BitVec.shiftLeft_zero, show lowMask 64 16 &&& ~~~lowMask 64 0 = 0x000000000000FFFF#64 by decide] at hlow
  rw [show lowMask 64 32 &&& ~~~lowMask 64 16 = 0x00000000FFFF0000#64 by decide] at hhigh
  have hselector : (segselKernCode <<< 16).signExtend 64 = place 64 16 (segselKernCode.setWidth 16) := by decide
  rw [setGate, if_pos hassert, hlow, hhigh, hselector, signExtend_shiftLeft ist (by decide), signExtend_shiftLeft type (by decide),
    signExtend_shiftLeft dpl (by decide), x86segP_eq]

/-- The high word holds the upper half of the address, and nothing else. -/
lemma append_halves : (addr >>> 32).extractLsb' 0 32 ++ addr.extractLsb' 0 32 = addr := by
  have hhigh : (addr >>> 32).extractLsb' 0 32 = addr.extractLsb' 32 32 := by
    apply BitVec.eq_of_getLsbD_eq
    intro i hi
    rw [BitVec.getLsbD_extractLsb', BitVec.getLsbD_extractLsb', BitVec.getLsbD_ushiftRight, Nat.zero_add]
  have hjoin : addr.extractLsb' 32 32 ++ addr.extractLsb' 0 32 = addr.extractLsb' 0 (32 + 32) :=
    BitVec.extractLsb'_append_extractLsb'_eq_extractLsb' rfl
  rw [hhigh, hjoin]
  exact BitVec.extractLsb'_eq_self

lemma upper_zero : (addr >>> 32).extractLsb' 32 32 = 0#32 := by
  apply BitVec.eq_of_getLsbD_eq
  intro i hi
  rw [BitVec.getLsbD_extractLsb', BitVec.getLsbD_ushiftRight, BitVec.getLsbD_of_ge addr _ (by omega), Bool.and_false,
    BitVec.getLsbD_zero]

/-- What the processor reads from a system segment: all fields but the limit are as they should be. -/
lemma decode_setSysSegment : decodeSystemSegment (setSysSegment addr size (type.setWidth 64 <<< 40) (dpl.setWidth 32)) =
    { SystemSegment.expected addr size type dpl with limit := 0#4 ++ (size - 1#64).extractLsb' 0 16 } := by
  have hhigh : (setSysSegment addr size (type.setWidth 64 <<< 40) (dpl.setWidth 32)).2 = addr >>> 32 := rfl
  have hbase : addr.extractLsb' 24 8 ++ addr.extractLsb' 0 24 = addr.extractLsb' 0 32 :=
    BitVec.extractLsb'_append_extractLsb'_eq_extractLsb' rfl
  unfold decodeSystemSegment SystemSegment.expected
  rw [setSysSegment_low, hhigh]
  simp (disch := decide) only [BitVec.extractLsb'_or, extract_place, extract_place_apart, BitVec.or_zero, BitVec.zero_or, hbase,
    upper_zero]
  rw [SystemSegment.mk.injEq]
  exact ⟨append_halves addr, rfl, rfl, rfl, rfl, rfl, rfl, rfl, rfl, rfl⟩

lemma decode_setGate : (setGate addr (type.setWidth 32) (dpl.setWidth 32) (ist.setWidth 32)).map decodeGate =
    some (Gate.expected addr type dpl ist) := by
  have hoffset : addr.extractLsb' 16 16 ++ addr.extractLsb' 0 16 = addr.extractLsb' 0 32 :=
    BitVec.extractLsb'_append_extractLsb'_eq_extractLsb' rfl
  rw [setGate_eq, Option.map_some]
  unfold decodeGate Gate.expected
  simp (disch := decide) only [BitVec.extractLsb'_or, extract_place, extract_place_apart, BitVec.or_zero, BitVec.zero_or, hoffset,
    upper_zero]
  rw [Option.some.injEq, Gate.mk.injEq]
  exact ⟨append_halves addr, rfl, rfl, rfl, rfl, rfl, rfl, rfl, rfl⟩

/-- The limit is right when it has no more than 16 bits. -/
lemma limit_eq_iff (h₁ : 1#64 ≤ size) (h₂ : size ≤ 0x100000#64) :
    0#4 ++ (size - 1#64).extractLsb' 0 16 = (size - 1#64).setWidth 20 ↔ size ≤ 0x10000#64 := by
  rw [BitVec.le_def, BitVec.toNat_ofNat] at h₁ h₂ ⊢
  have hsize : (size - 1#64).toNat = size.toNat - 1 := BitVec.toNat_sub_of_le h₁
  rw [← BitVec.toNat_inj, BitVec.toNat_append, BitVec.toNat_setWidth, BitVec.extractLsb'_toNat, hsize]
  simp only [BitVec.toNat_ofNat, Nat.zero_mod, Nat.zero_shiftLeft, Nat.zero_or, Nat.shiftRight_zero]
  omega

end Fields

/-- The processor reads back what the descriptors were built from. -/
structure DescriptorsRight (addr size : Word) (type : BitVec 4) (dpl : BitVec 2) (handler : Word) (gateType : BitVec 4)
    (gateDpl : BitVec 2) (ist : BitVec 3) : Prop where
  segment : decodeSystemSegment (setSysSegment addr size (type.setWidth 64 <<< 40) (dpl.setWidth 32)) =
    SystemSegment.expected addr size type dpl
  gate : (setGate handler (gateType.setWidth 32) (gateDpl.setWidth 32) (ist.setWidth 32)).map decodeGate =
    some (Gate.expected handler gateType gateDpl ist)

/-- A gate is always right, and a segment of at most 64 KiB. -/
theorem descriptors_right_iff (addr size : Word) (h₁ : 1#64 ≤ size) (h₂ : size ≤ 0x100000#64) (type : BitVec 4) (dpl : BitVec 2)
    (handler : Word) (gateType : BitVec 4) (gateDpl : BitVec 2) (ist : BitVec 3) :
    DescriptorsRight addr size type dpl handler gateType gateDpl ist ↔ size ≤ 0x10000#64 := by
  have hlimit := limit_eq_iff size h₁ h₂
  have hdecoded := decode_setSysSegment addr size type dpl
  constructor
  · rintro ⟨hsegment, -⟩
    rw [← hlimit]
    exact congrArg SystemSegment.limit (hdecoded.symm.trans hsegment)
  · intro hsize
    refine ⟨?_, decode_setGate handler gateType gateDpl ist⟩
    rw [hdecoded, hlimit.2 hsize]
    rfl

/-- The task state segment has type 9 and privilege 0. -/
theorem descriptors_right_sample :
    DescriptorsRight 0x123456789ABCDEF0#64 104#64 9#4 0#2 0xFFFF800000012345#64 14#4 3#2 7#3 :=
  (descriptors_right_iff _ _ (by decide) (by decide) _ _ _ _ _ _).2 (by decide)

/-- The limit of a segment of one byte more than 64 KiB is 0. -/
theorem descriptors_not_right : ¬ DescriptorsRight 0#64 0x10001#64 9#4 0#2 0#64 14#4 0#2 0#3 := by
  rintro ⟨hsegment, -⟩
  revert hsegment
  decide

end Cs300Projects.WeensyOS
