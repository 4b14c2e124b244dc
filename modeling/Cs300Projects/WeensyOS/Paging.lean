import Cs300Projects.Lib.BitField
import Mathlib.Tactic.NormNum
import Mathlib.Tactic.Linarith

/-!
# Paged memory constants and address arithmetic

The macros and inline functions of `x86-64.h` on 64-bit addresses. An entry at level `l` of a
page table covers a block of `pageSpan l` bytes; masking with `pageoffmask l` and extracting
`pageindex` are division and remainder by that size.
-/

namespace Cs300Projects.WeensyOS
open BitField

/-- `uintptr_t` and `x86_64_pageentry_t`. -/
abbrev Word := BitVec 64

def pageoffbits : Nat := 12
def pageindexbits : Nat := 9
def pagesize : Word := 1#64 <<< pageoffbits
def pageoffmaskBase : Word := pagesize - 1#64

def pteP : Word := 0x1#64
def pteW : Word := 0x2#64
def pteU : Word := 0x4#64
def ptePs : Word := 0x80#64
def ptePamask : Word := 0x000FFFFFFFFFF000#64

def vaLowmax : Word := 0x00007FFFFFFFFFFF#64
def vaLowend : Word := 0x0000800000000000#64
def vaHighmin : Word := 0xFFFF800000000000#64
def vaNoncanonmax : Word := 0x0000FFFFFFFFFFFF#64

/-- The `int` index is between 0 and 511. -/
def pageindex (addr : Word) (level : Nat) : Nat :=
  (((addr >>> (pageoffbits + level * pageindexbits)).setWidth 32) &&& 0x1FF#32).toNat

def pageoffmask (level : Nat) : Word :=
  (1#64 <<< (pageoffbits + level * pageindexbits)) - 1#64

def vaIsCanonical (va : Word) : Bool :=
  decide (va ≤ vaLowmax) || decide (vaHighmin ≤ va)

/-! ### Arithmetic of the masks -/

/-- The number of bytes that an entry at level `level` covers. -/
def pageSpan (level : Nat) : Nat := 2 ^ (12 + level * 9)

lemma pageSpan_pos (level : Nat) : 0 < pageSpan level := Nat.two_pow_pos _

lemma pageSpan_succ (level : Nat) : pageSpan (level + 1) = pageSpan level * 512 := by
  rw [pageSpan, pageSpan, show 12 + (level + 1) * 9 = 12 + level * 9 + 9 by ring, pow_add]
  norm_num

lemma pageoffmask_eq (level : Nat) : pageoffmask level = lowMask 64 (12 + level * 9) := rfl

lemma pageindex_eq (va : Word) (level : Nat) :
    pageindex va level = va.toNat / pageSpan level % 512 :=
  toNat_shift_and_lowMask (v := 32) (j := 9) (by norm_num) va

lemma pageindex_lt (va : Word) (level : Nat) : pageindex va level < 512 := by
  rw [pageindex_eq]
  exact Nat.mod_lt _ (by norm_num)

section Masks

variable {level : Nat} (hl : level ≤ 4) (va va' : Word)
include hl

lemma toNat_and_pageoffmask : (va &&& pageoffmask level).toNat = va.toNat % pageSpan level := by
  rw [pageoffmask_eq]
  exact toNat_and_lowMask (by omega) va

lemma toNat_and_not_pageoffmask :
    (va &&& ~~~pageoffmask level).toNat = va.toNat / pageSpan level * pageSpan level := by
  rw [pageoffmask_eq]
  exact toNat_and_not_lowMask (by omega) va

/-- The start of the block after that of `va`, modulo the size of the address space. -/
lemma toNat_next_block : ((va ||| pageoffmask level) + 1#64).toNat =
    (va.toNat / pageSpan level + 1) * pageSpan level % 2 ^ 64 := by
  rw [pageoffmask_eq]
  exact toNat_or_lowMask_add_one (by omega) va

lemma same_block_iff : (va ^^^ va') &&& ~~~pageoffmask level = 0#64 ↔
    va.toNat / pageSpan level = va'.toNat / pageSpan level := by
  rw [pageoffmask_eq]
  exact xor_and_not_lowMask_eq_zero (by omega) va va'

end Masks

/-- Addresses in one block at a level are in one block at every higher level. -/
lemma same_block_mono {x y l k : Nat} (hlk : l ≤ k) (h : x / pageSpan l = y / pageSpan l) :
    x / pageSpan k = y / pageSpan k :=
  div_eq_of_le (by omega) h

lemma pageindex_congr {va va' : Word} {l : Nat}
    (h : va.toNat / pageSpan l = va'.toNat / pageSpan l) : pageindex va l = pageindex va' l := by
  rw [pageindex_eq, pageindex_eq, h]

lemma vaIsCanonical_iff (va : Word) : vaIsCanonical va = true ↔
    va.toNat < 2 ^ 47 ∨ 2 ^ 64 - 2 ^ 47 ≤ va.toNat := by
  simp only [vaIsCanonical, vaLowmax, vaHighmin, Bool.or_eq_true, decide_eq_true_eq, BitVec.le_def,
    BitVec.toNat_ofNat]
  omega

/-- Canonicity is decided by the block of 512 GiB. -/
lemma vaIsCanonical_congr {va va' : Word}
    (h : va.toNat / pageSpan 3 = va'.toNat / pageSpan 3) : vaIsCanonical va = vaIsCanonical va' := by
  rw [Bool.eq_iff_iff, vaIsCanonical_iff, vaIsCanonical_iff]
  simp only [pageSpan] at h
  omega

/-! ### Physical pages and their entries -/

/-- The address of a physical page, as a page table entry can store it: `x86_64_pagetable*`. -/
structure PagePtr where
  addr : Word
  isPage : addr &&& ptePamask = addr
  deriving DecidableEq

lemma toNat_and_ptePamask (e : Word) :
    (e &&& ptePamask).toNat = e.toNat % 2 ^ 52 / 4096 * 4096 := by
  have hmask : ptePamask = lowMask 64 52 &&& ~~~lowMask 64 12 := by decide
  rw [hmask, ← BitVec.and_assoc, toNat_and_not_lowMask (by norm_num), toNat_and_lowMask (by norm_num)]
  norm_num

namespace PagePtr

lemma toNat_addr (t : PagePtr) : t.addr.toNat = t.addr.toNat % 2 ^ 52 / 4096 * 4096 := by
  conv_lhs => rw [← t.isPage, toNat_and_ptePamask]

lemma addr_lt (t : PagePtr) : t.addr.toNat < 2 ^ 52 := by
  have := t.toNat_addr
  omega

lemma addr_mod (t : PagePtr) : t.addr.toNat % 4096 = 0 := by
  have := t.toNat_addr
  omega

/-- `&pt->entry[i]`. -/
def entry (t : PagePtr) (i : Nat) : Word := t.addr + 8#64 * BitVec.ofNat 64 i

lemma toNat_entry (t : PagePtr) {i : Nat} (hi : i < 512) :
    (t.entry i).toNat = t.addr.toNat + 8 * i := by
  have := t.addr_lt
  simp only [entry, BitVec.toNat_add, BitVec.toNat_mul, BitVec.toNat_ofNat]
  omega

/-- Entries of different pages, and different entries of one page, do not overlap. -/
lemma entry_inj {t t' : PagePtr} {i j : Nat} (hi : i < 512) (hj : j < 512)
    (h : t.entry i = t'.entry j) : t = t' ∧ i = j := by
  have he := congrArg BitVec.toNat h
  rw [toNat_entry t hi, toNat_entry t' hj] at he
  have := t.addr_mod
  have := t'.addr_mod
  have haddr : t.addr = t'.addr := BitVec.eq_of_toNat_eq (by omega)
  refine ⟨?_, by omega⟩
  cases t
  cases t'
  simpa using haddr

end PagePtr

end Cs300Projects.WeensyOS
