import Cs300Projects.WeensyOS.KernelMemory
import Cs300Projects.WeensyOS.Keyboard

/-!
# The soft reboot

The kernel keeps a copy of its data segment below the symbol table. When the right key is typed, `check_keyboard` goes back to
the page table of the boot loader, restores the data segment, clears what is behind it, and enters the kernel again.
-/

namespace Cs300Projects.WeensyOS.Reboot

open Bytes Keyboard

/-- Where the linker has put the parts of the kernel, and the strings that `check_keyboard` names. -/
structure Image extends KernelData where
  fork : Nat
  allocators : Nat
  forkexit : Nat
  strings : fork < dataStart ∧ allocators < dataStart ∧ forkexit < dataStart

namespace Image

variable (I : Image)

/-- What becomes of a call of `check_keyboard`. -/
inductive Outcome where
  | returned (c : Int)
  | rebooted (argument : Nat)
  | poweredOff

/-- What `check_keyboard` does with a character. -/
def command (c : Int) : Outcome :=
  if c = asc 'a' ∨ c = asc 'f' ∨ c = asc 'e' then
    .rebooted (if c = asc 'a' then I.allocators else if c = asc 'e' then I.forkexit else I.fork)
  else if c = 3 ∨ c = asc 'q' then .poweredOff
  else .returned c

def checkKeyboard (s : Keyboard.State) (p : Ports) : Outcome × Keyboard.State :=
  let r := keyboardReadc s p
  (I.command r.1, r.2)

/-- Calls of `check_keyboard` until one does not return. -/
def keyboardLoop (s : Keyboard.State) : List Ports → Option Outcome
  | [] => none
  | p :: ps =>
    match I.checkKeyboard s p with
    | (.returned _, s) => keyboardLoop s ps
    | (o, _) => some o

end Image

/-! ### The way back into the kernel -/

/-- The temporary page table that `check_keyboard` installs. -/
def installPagetable (m : Nat → UInt8) : Nat → UInt8 :=
  let m := memset (Kernel.pagesize * 2) m 0x1000 0
  let m := writeLE m 0x1000 8 (0x2000 ||| 1 ||| 2)
  writeLE m 0x2000 8 (1 ||| 2 ||| 0x80)

/-- `kernel_entry`: the argument that `kernel` is called with, 0 if there is none. -/
def kernelEntry (eax rbx : Nat) (m : Nat → UInt8) : Nat × (Nat → UInt8) :=
  let m := kernelEntered m
  (if eax = 0x2BADB002 ∧ readLE m rbx 4 &&& 4 ≠ 0 then readLE m (rbx + 16) 4 else 0, m)

/-- What `check_keyboard` does from the temporary page table on, with `multiboot_info` at `info`. -/
def Image.softReboot (I : Image) (info argument : Nat) (m : Nat → UInt8) : Nat × (Nat → UInt8) :=
  let m := installPagetable m
  let m := writeLE m info 4 4
  let m := writeLE m (info + 16) 4 argument
  let m := I.stashKernelData true m
  let m := memcpy m I.dataStart I.dataStash I.dataSize
  let m := memset (I.kernelEnd - I.edata) m I.edata 0
  kernelEntry 0x2BADB002 info m

/-! ### Runs -/

/-- What happens between the first entry into the kernel and a soft reboot: an event in memory under the table that is there,
or the kernel is entered anew by a soft reboot. -/
inductive Event where
  | memory (e : MemoryEvent)
  | reboot (info argument : Nat)

namespace Image

variable (I : Image) (B : KernelBss I.toKernelData)

/-- The text, the other read-only data and the strings. -/
def InText (x : Nat) : Prop := Kernel.kernelStartAddr ≤ x ∧ x < I.dataStart

/-- The memory after an event; after a soft reboot, the kernel first makes its memory anew. -/
def step (fuel : Nat) (m : Nat → UInt8) : Event → Option (Except Stop (Nat → UInt8))
  | .memory e => B.tables.memoryStep fuel m e
  | .reboot info argument => I.initKernelMemory B fuel (I.softReboot info argument m).2

/-- The kernel starts in the memory that it was loaded to. -/
def run (fuel : Nat) (m : Nat → UInt8) (events : List Event) : Option (Except Stop (Nat → UInt8)) :=
  match I.initKernelMemory B fuel (kernelEntered m) with
  | some (.ok m') => runEvents (I.step B fuel) m' events
  | r => r

end Image

/-- `multiboot_info` is in the stack page, below the word that `kernel_entry` pushes. -/
def OnStack (info : Nat) : Prop :=
  Kernel.kernelStackTop - Kernel.pagesize ≤ info ∧ info + 20 ≤ Kernel.kernelStackTop - 8

/-- Nothing is stored to `kernel_pagetable` and to the text. -/
def Event.Allowed (I : Image) (B : KernelBss I.toKernelData) : Event → Prop
  | .memory e => B.tables.Spares I.InText e
  | .reboot info _ => OnStack info

/-! ### The temporary page table -/

def bootPagetable : PagePtr := ⟨0x1000, by decide⟩

section Table

variable {m : Nat → UInt8}

lemma installPagetable_within (m : Nat → UInt8) : Within m (installPagetable m) 0x1000 0x2000 := by
  intro x hx
  unfold Outside at hx
  unfold installPagetable
  rw [memset_eq, writeLE_outside (by unfold Outside; omega), writeLE_outside (by unfold Outside; omega),
    fill_outside (by unfold Outside Kernel.pagesize; omega)]

/-- The words of the two tables. -/
lemma installPagetable_word (m : Nat → UInt8) {a : Nat} (hlow : 0x1000 ≤ a) (ha : a + 8 ≤ 0x3000) (h8 : a % 8 = 0) :
    readLE (installPagetable m) a 8 = if a = 0x1000 then 0x2003 else if a = 0x2000 then 0x83 else 0 := by
  unfold installPagetable
  rw [memset_eq]
  by_cases h1 : a = 0x1000
  · rw [if_pos h1, (within_writeLE _ _ _ _).readLE (by unfold Apart; omega), h1, readLE_writeLE]
    rfl
  · rw [if_neg h1]
    by_cases h2 : a = 0x2000
    · rw [if_pos h2, h2, readLE_writeLE]
      rfl
    · rw [if_neg h2, (within_writeLE _ _ _ _).readLE (by unfold Apart; omega),
        (within_writeLE _ _ _ _).readLE (by unfold Apart; omega)]
      exact readLE_zero fun x hx hlt => fill_inside (by omega) (by unfold Kernel.pagesize; omega)

section Walk

variable {t : Memory} {va e : Word} {level table : Nat}

lemma mmuWalk_table (he : mmuEntry t va (level + 1) table = e) (hpresent : e.getLsbD 0 = true) (hps : e.getLsbD 7 = false) :
    mmuWalk t va (level + 1) table = mmuWalk t va level (mmuFrame e 0) := by
  rw [mmuWalk, he, hpresent, hps]
  rfl

lemma mmuWalk_large (he : mmuEntry t va (level + 1) table = e) (hpresent : e.getLsbD 0 = true) (hps : e.getLsbD 7 = true) :
    mmuWalk t va (level + 1) table =
      some (BitVec.ofNat 64 (mmuFrame e (level + 1) + va.toNat % pageSpan (level + 1))) := by
  rw [mmuWalk, he, hpresent, hps]
  rfl

lemma mmuWalk_absent (he : mmuEntry t va (level + 1) table = 0#64) : mmuWalk t va (level + 1) table = none := by
  rw [mmuWalk, he]
  rfl

end Walk

/-- The memory still has the temporary page table. -/
def HasBootTable (m : Nat → UInt8) : Prop := ∃ m₀, ∀ x, 0x1000 ≤ x → x < 0x3000 → m x = installPagetable m₀ x

lemma HasBootTable.entry (h : HasBootTable m) (va : Word) {level table : Nat} (hlow : 0x1000 ≤ table) (ha : table ≤ 0x2000)
    (hpage : table % 0x1000 = 0) :
    mmuEntry (tableMemory m) va level table =
      if va.toNat / 2 ^ (12 + level * 9) % 512 = 0 then BitVec.ofNat 64 (if table = 0x1000 then 0x2003 else 0x83) else 0#64 := by
  obtain ⟨m₀, hm₀⟩ := h
  have hindex : (va.extractLsb' (12 + level * 9) 9).toNat = va.toNat / 2 ^ (12 + level * 9) % 512 := by
    rw [BitVec.extractLsb'_toNat, Nat.shiftRight_eq_div_pow]
  generalize hj : va.toNat / 2 ^ (12 + level * 9) % 512 = j at hindex ⊢
  have hlt : j < 512 := hj ▸ Nat.mod_lt _ (by decide)
  have haddr : (BitVec.ofNat 64 (table + 8 * j)).toNat = table + 8 * j := by
    rw [BitVec.toNat_ofNat, Nat.mod_eq_of_lt (by omega)]
  have hread : readLE m (table + 8 * j) 8 = readLE (installPagetable m₀) (table + 8 * j) 8 :=
    readLE_congr fun x hx hlt => hm₀ x (by omega) (by omega)
  rw [mmuEntry, hindex, tableMemory]
  dsimp only
  rw [haddr, hread, installPagetable_word m₀ (by omega) (by omega) (by omega)]
  by_cases h0 : j = 0
  · rw [if_pos h0]
    by_cases htop : table = 0x1000
    · rw [if_pos (by omega), if_pos htop]
    · rw [if_neg (by omega), if_pos (by omega), if_neg htop]
  · rw [if_neg h0, if_neg (by omega), if_neg (by omega)]

/-- The temporary page table maps the first GiB to itself, and nothing else. -/
lemma HasBootTable.translate (h : HasBootTable m) (va : Word) :
    mmuTranslate (tableMemory m) bootPagetable va = if va.toNat < 2 ^ 30 then some va else none := by
  have htop : mmuEntry (tableMemory m) va 3 0x1000 = if va.toNat / 2 ^ 39 % 512 = 0 then 0x2003#64 else 0#64 :=
    h.entry va (by decide) (by decide) (by decide)
  have hnext : mmuEntry (tableMemory m) va 2 0x2000 = if va.toNat / 2 ^ 30 % 512 = 0 then 0x83#64 else 0#64 :=
    h.entry va (by decide) (by decide) (by decide)
  have hcanonical := mmuCanonical_iff va
  rw [vaIsCanonical_iff] at hcanonical
  have hframe : mmuFrame 0x2003#64 0 = 0x2000 := by decide
  have hbase : mmuFrame 0x83#64 2 = 0 := by decide
  change (if MmuCanonical va then mmuWalk (tableMemory m) va 3 0x1000 else none) = _
  by_cases h3 : va.toNat / 2 ^ 39 % 512 = 0
  · rw [if_pos h3] at htop
    rw [mmuWalk_table htop (by decide) (by decide), hframe]
    by_cases h2 : va.toNat / 2 ^ 30 % 512 = 0
    · rw [if_pos h2] at hnext
      rw [mmuWalk_large hnext (by decide) (by decide), hbase, Nat.zero_add]
      by_cases hva : va.toNat < 2 ^ 30
      · have hspan : va.toNat % pageSpan 2 = va.toNat := Nat.mod_eq_of_lt hva
        rw [if_pos (hcanonical.2 (by omega)), if_pos hva, hspan, BitVec.ofNat_toNat, BitVec.setWidth_eq]
      · rw [if_neg (fun hc => absurd (hcanonical.1 hc) (by omega)), if_neg hva]
    · rw [if_neg h2] at hnext
      rw [mmuWalk_absent hnext, if_neg (by omega : ¬va.toNat < 2 ^ 30), ite_self]
  · rw [if_neg h3] at htop
    rw [mmuWalk_absent htop, if_neg (by omega : ¬va.toNat < 2 ^ 30), ite_self]

end Table

/-! ### The stash -/

section Stash

variable {I : Image} {B : KernelBss I.toKernelData} {m m₀ : Nat → UInt8} {info argument fuel : Nat}

namespace Image

lemma memcpy_stash (I : Image) (m : Nat → UInt8) :
    memcpy m I.dataStart I.dataStash I.dataSize = blit m I.dataStart I.dataSize (fun i => m (I.dataStash + i)) := by
  have hstash := I.dataStash_bounds
  have hbounds := I.bounds
  exact copyUp_eq _ _ _ _ (by omega)

/-- What the kernel is entered with: the data segment and the text as they were loaded, zeros behind the data segment, and the
first GiB mapped to itself. -/
structure Restored (I : Image) (m₀ m : Nat → UInt8) : Prop where
  data : ∀ x, I.dataStart ≤ x → x < I.edata → m x = m₀ x
  bss : ∀ x, I.edata ≤ x → x < I.kernelEnd → m x = 0
  text : ∀ x, I.InText x → m x = m₀ x
  table : HasBootTable m

/-- The kernel runs, and the soft reboot finds what it needs. -/
structure Running (I : Image) (B : KernelBss I.toKernelData) (m₀ m : Nat → UInt8) : Prop where
  tables : ∃ sym, B.tables.Holds 512 sym (tableMemory m)
  stashed : I.Stashed m₀ m
  text : ∀ x, I.InText x → m x = m₀ x

/-- Copying the stash and clearing what is behind the data segment. -/
def restore (I : Image) (m : Nat → UInt8) : Nat → UInt8 :=
  memset (I.kernelEnd - I.edata) (memcpy m I.dataStart I.dataStash I.dataSize) I.edata 0

lemma restore_data (h : I.Stashed m₀ m) {x : Nat} (hlow : I.dataStart ≤ x) (hx : x < I.edata) : I.restore m x = m₀ x := by
  have hstash := I.dataStash_bounds
  have hcell := h (x - I.dataStart) (by omega)
  unfold restore
  rw [memset_eq, fill_outside (Or.inl hx), memcpy_stash, blit_inside hlow (by omega), hcell, Nat.add_sub_of_le hlow]

lemma restore_bss (I : Image) (m : Nat → UInt8) {x : Nat} (hlow : I.edata ≤ x) (hx : x < I.kernelEnd) : I.restore m x = 0 := by
  unfold restore
  rw [memset_eq, fill_inside hlow (by omega)]

lemma restore_outside (I : Image) (m : Nat → UInt8) {x : Nat} (hx : x < I.dataStart ∨ I.kernelEnd ≤ x) : I.restore m x = m x := by
  have hstash := I.dataStash_bounds
  have hbounds := I.bounds
  unfold restore
  rw [memset_eq, fill_outside (by unfold Outside; omega), memcpy_stash, blit_outside (by unfold Outside; omega)]

lemma stashed_restore (h : I.Stashed m₀ m) : I.Stashed m₀ (I.restore m) := by
  have hstash := I.dataStash_bounds
  have hbounds := I.bounds
  intro i hi
  rw [I.restore_outside m (by omega)]
  exact h i hi

/-- The memory before the data segment is restored. -/
def prepared (info argument : Nat) (m : Nat → UInt8) : Nat → UInt8 :=
  writeLE (writeLE (installPagetable m) info 4 4) (info + 16) 4 argument

lemma softReboot_eq (I : Image) (info argument : Nat) (m : Nat → UInt8) :
    I.softReboot info argument m = kernelEntry 0x2BADB002 info (I.restore (I.restore (prepared info argument m))) := rfl

lemma prepared_outside (hinfo : OnStack info) {x : Nat} (hx : 0x3000 ≤ x) (hstack : x < 0x7F000 ∨ 0x80000 ≤ x) :
    prepared info argument m x = m x := by
  unfold OnStack Kernel.kernelStackTop Kernel.pagesize at hinfo
  unfold prepared
  rw [writeLE_outside (by unfold Outside; omega), writeLE_outside (by unfold Outside; omega),
    installPagetable_within m x (by unfold Outside; omega)]

/-- `multiboot_info` survives until `kernel_entry` reads it. -/
lemma entry_word (I : Image) (m : Nat → UInt8) (argument : Nat) (hinfo : OnStack info) {a : Nat} (hlow : info ≤ a) (ha : a + 4 ≤ info + 20) :
    readLE (kernelEntered (I.restore (I.restore (prepared info argument m)))) a 4 =
      readLE (prepared info argument m) a 4 := by
  have hbounds := I.bounds
  unfold OnStack Kernel.kernelStackTop Kernel.pagesize at hinfo
  refine readLE_congr fun x hx hlt => ?_
  rw [kernelEntered, writeLE_outside (by unfold Outside Kernel.kernelStackTop; omega), I.restore_outside _ (by omega),
    I.restore_outside _ (by omega)]

lemma softReboot_command (hinfo : OnStack info) (harg : argument < 2 ^ 32) : (I.softReboot info argument m).1 = argument := by
  have hflags := entry_word I m argument hinfo (Nat.le_refl info) (by omega)
  have hpointer := entry_word I m argument hinfo (Nat.le_add_right info 16) (by omega)
  have hwritten : readLE (prepared info argument m) info 4 = 4 := by
    unfold prepared
    rw [(within_writeLE _ _ _ _).readLE (by unfold Apart; omega), readLE_writeLE]
    rfl
  have hread : readLE (prepared info argument m) (info + 16) 4 = argument := by
    unfold prepared
    exact readLE_writeLE_of_lt harg
  rw [softReboot_eq, kernelEntry, hflags, hpointer, hwritten, hread]
  have hset : 4 &&& 4 ≠ 0 := by decide
  dsimp only
  exact if_pos ⟨rfl, hset⟩

lemma Running.reboot (h : I.Running B m₀ m) (hinfo : OnStack info) : I.Restored m₀ (I.softReboot info argument m).2 := by
  have hstash := I.dataStash_bounds
  have hbounds := I.bounds
  have hstack : ∀ x, x < 0x7F000 ∨ 0x80000 ≤ x →
      (I.softReboot info argument m).2 x = I.restore (I.restore (prepared info argument m)) x := by
    intro x hx
    exact writeLE_outside (by unfold Outside Kernel.kernelStackTop; omega)
  have hprepared : I.Stashed m₀ (prepared info argument m) := by
    intro i hi
    rw [prepared_outside hinfo (by omega) (by omega)]
    exact h.stashed i hi
  constructor
  case data =>
    intro x hlow hx
    rw [hstack x (by omega), restore_data (stashed_restore hprepared) hlow hx]
  case bss =>
    intro x hlow hx
    rw [hstack x (by omega), restore_bss I _ hlow hx]
  case text =>
    intro x hx
    rw [← h.text x hx]
    unfold InText Kernel.kernelStartAddr at hx
    rw [hstack x (by omega), restore_outside I _ (by omega), restore_outside I _ (by omega),
      prepared_outside hinfo (by omega) (by omega)]
  case table =>
    unfold HasBootTable
    refine ⟨m, fun x hlow hx => ?_⟩
    unfold OnStack Kernel.kernelStackTop Kernel.pagesize at hinfo
    rw [hstack x (by omega), restore_outside I _ (by omega), restore_outside I _ (by omega), prepared,
      writeLE_outside (by unfold Outside; omega), writeLE_outside (by unfold Outside; omega)]

/-- `init_kernel_memory` in a memory that has the text and the data segment as they were loaded. -/
lemma running_start (hdata : ∀ x, I.dataStart ≤ x → x < I.edata → m x = m₀ x) (htext : ∀ x, I.InText x → m x = m₀ x)
    (hfuel : 512 < fuel) : ∃ m', I.initKernelMemory B fuel m = some (.ok m') ∧ I.Running B m₀ m' := by
  have hstash := I.dataStash_bounds
  have hbounds := I.bounds
  obtain ⟨m', hm', hholds, hframe⟩ := I.initKernelMemory_spec B m hfuel
  have hrest : ∀ x, Outside x I.edata (I.kernelEnd - I.edata) → m' x = I.stashKernelData false m x := by
    intro x hx
    obtain ⟨htable, hsegments⟩ := KernelData.outside_bss B hx
    exact hframe x htable hsegments
  refine ⟨m', hm', ⟨false, hholds⟩, fun i hi => ?_, fun x hx => ?_⟩
  · rw [hrest _ (by unfold Outside; omega), I.stashed_start m i hi]
    exact hdata _ (by omega) (by omega)
  · rw [← htext x hx]
    unfold InText Kernel.kernelStartAddr at hx
    rw [hrest _ (by unfold Outside; omega), KernelData.stashKernelData_false, blit_outside (by unfold Outside; omega)]

/-- No event changes the text, and none reaches the stash. -/
lemma Running.step (hfuel : 512 < fuel) (h : I.Running B m₀ m) {e : Event} (he : e.Allowed I B) :
    ∃ m', I.step B fuel m e = some (.ok m') ∧ I.Running B m₀ m' := by
  have hstash := I.dataStash_bounds
  have hbounds := I.bounds
  have htables := B.tables_bounds
  cases e with
  | memory e =>
    let P : Nat → Prop := fun x => I.InText x ∨ ∃ i, i < I.dataSize ∧ x = I.dataStash + i
    have hspares : B.tables.Spares P e := by
      cases e with
      | store va c =>
        intro hva
        refine ⟨(he hva).1, ?_⟩
        rintro (htext | ⟨i, hi, heq⟩)
        · exact (he hva).2 htext
        · unfold KernelPagetable.Mappable KernelPagetable.InMemory KernelPagetable.InDevices KernelPagetable.InSymtab
            Kernel.memsizePhysical at hva
          omega
      | remap => trivial
      | mapSymtab => trivial
    have hkeeps : B.tables.Keeps P m m := ⟨h.tables, fun _ _ _ => rfl⟩
    obtain ⟨m', hm', htables', hsame⟩ := hkeeps.memoryStep hfuel hspares
    refine ⟨m', hm', htables', fun i hi => ?_, fun x hx => ?_⟩
    · rw [hsame _ (Or.inr ⟨i, hi, rfl⟩) (by unfold KernelPagetable.InTable; omega)]
      exact h.stashed i hi
    · rw [← h.text x hx]
      refine hsame x (Or.inl hx) ?_
      unfold InText at hx
      unfold KernelPagetable.InTable
      omega
  | reboot info argument =>
    have hrestored : I.Restored m₀ (I.softReboot info argument m).2 := h.reboot he
    exact running_start hrestored.data hrestored.text hfuel

/-- From the first entry on, whatever happens, nothing stops and the kernel can be restarted. -/
lemma run_running (I : Image) (B : KernelBss I.toKernelData) (m₀ : Nat → UInt8) (hfuel : 512 < fuel) {events : List Event}
    (hevents : ∀ e ∈ events, e.Allowed I B) : ∃ m, I.run B fuel m₀ events = some (.ok m) ∧ I.Running B m₀ m := by
  have hbounds := I.bounds
  have hentered : ∀ x, x < I.kernelEnd → kernelEntered m₀ x = m₀ x := by
    intro x hx
    exact writeLE_outside (by unfold Outside Kernel.kernelStackTop; omega)
  have hdata : ∀ x, I.dataStart ≤ x → x < I.edata → kernelEntered m₀ x = m₀ x := fun x _ hx => hentered x (by omega)
  have htext : ∀ x, I.InText x → kernelEntered m₀ x = m₀ x := fun x hx => hentered x (by unfold InText at hx; omega)
  obtain ⟨m₁, hm₁, hstart⟩ := running_start (B := B) hdata htext hfuel
  obtain ⟨m, hm, hrunning⟩ := runEvents_invariant (I.Running B m₀) (Event.Allowed I B) (fun _ _ h he => h.step hfuel he) hstart
    hevents
  refine ⟨m, ?_, hrunning⟩
  rw [run, hm₁]
  exact hm

lemma command_rebooted {c : Int} (h : I.command c = .rebooted argument) :
    argument = I.fork ∨ argument = I.allocators ∨ argument = I.forkexit := by
  unfold command at h
  split at h
  · have harg := Outcome.rebooted.inj h
    split at harg
    · exact Or.inr (Or.inl harg.symm)
    · split at harg
      · exact Or.inr (Or.inr harg.symm)
      · exact Or.inl harg.symm
  · split at h <;> nomatch h

end Image

end Stash

/-- Whatever was stored since the kernel was booted, except to its page table and its text, and however often it was restarted,
a soft reboot enters the kernel with the argument of the key, with the data segment and the text as they were loaded, with
zeros behind the data segment, and with the first GiB mapped to itself. -/
theorem soft_reboot_restores (I : Image) (B : KernelBss I.toKernelData) (m₀ : Nat → UInt8) {fuel : Nat} (hfuel : 512 < fuel)
    {events : List Event} (hevents : ∀ e ∈ events, e.Allowed I B) {info argument : Nat} (hinfo : OnStack info) {c : Int}
    (hc : I.command c = .rebooted argument) :
    ∃ m, I.run B fuel m₀ events = some (.ok m) ∧
      let r := I.softReboot info argument m
      r.1 = argument ∧ (∀ x, I.dataStart ≤ x → x < I.edata → r.2 x = m₀ x) ∧
      (∀ x, I.edata ≤ x → x < I.kernelEnd → r.2 x = 0) ∧
      (∀ x, Kernel.kernelStartAddr ≤ x → x < I.dataStart → r.2 x = m₀ x) ∧
      ∀ va, mmuTranslate (tableMemory r.2) bootPagetable va = if va.toNat < 2 ^ 30 then some va else none := by
  have hbounds := I.bounds
  have hstrings := I.strings
  have hargument := Image.command_rebooted hc
  obtain ⟨m, hm, hrunning⟩ := Image.run_running I B m₀ hfuel hevents
  have hrestored : I.Restored m₀ (I.softReboot info argument m).2 := hrunning.reboot hinfo
  exact ⟨m, hm, Image.softReboot_command hinfo (by omega), hrestored.data, hrestored.bss,
    fun x hlow hx => hrestored.text x ⟨hlow, hx⟩, hrestored.table.translate⟩

/-! ### Two restarts -/

def sampleImage : Image where
  dataStart := 0x48000
  edata := 0x49000
  kernelEnd := 0x5E000
  fork := 0x41000
  allocators := 0x41010
  forkexit := 0x41020
  kernelStart_le := by decide
  dataStart_le := by decide
  edata_le := by decide
  kernelEnd_le := by decide
  strings := by decide

def sampleBss : KernelBss sampleImage.toKernelData where
  tables := KernelPagetable.sampleKernelPagetable
  segments := 0x4F000
  taskstate := 0x4E000#64
  tables_bounds := by decide
  segments_bounds := by decide

/-- The first byte of the data segment is overwritten before and after a first restart. -/
def sampleEvents : List Event :=
  [.memory (.store 0x48000#64 1), .memory .mapSymtab, .memory .remap, .reboot 0x7F000 0x41000, .memory (.store 0x48000#64 2)]

theorem soft_reboot_restores_sample : ∃ m, sampleImage.run sampleBss 513 (fun _ => 7) sampleEvents = some (.ok m) ∧
    (sampleImage.softReboot 0x7F000 0x41010 m).1 = 0x41010 ∧ (sampleImage.softReboot 0x7F000 0x41010 m).2 0x48000 = 7 := by
  have hinfo : OnStack 0x7F000 := by
    unfold OnStack
    decide
  have hstore : ∀ c, sampleBss.tables.Spares sampleImage.InText (.store 0x48000#64 c) := by
    intro c _
    unfold KernelPagetable.InTable Image.InText
    decide
  have hevents : ∀ e ∈ sampleEvents, e.Allowed sampleImage sampleBss := by
    unfold sampleEvents
    simp only [List.mem_cons, List.not_mem_nil, or_false, forall_eq_or_imp, forall_eq]
    exact ⟨hstore 1, trivial, trivial, hinfo, hstore 2⟩
  have hc : sampleImage.command (asc 'a') = .rebooted 0x41010 := rfl
  obtain ⟨m, hm, hargument, hdata, -⟩ :=
    soft_reboot_restores sampleImage sampleBss (fun _ => 7) (show 512 < 513 by decide) hevents hinfo hc
  exact ⟨m, hm, hargument, hdata 0x48000 (by decide) (by decide)⟩

/-! ### Typing commands -/

section Loop

variable (I : Image)

/-- A character that `check_keyboard` acts on. -/
def Image.acts (c : Int) : Option Image.Outcome :=
  match I.command c with
  | .returned _ => none
  | o => some o

lemma keyboardLoop_readcs (s : Keyboard.State) (ps : List Ports) : I.keyboardLoop s ps = (readcs s ps).findSome? I.acts := by
  induction ps generalizing s with
  | nil => rfl
  | cons p ps ih =>
    rw [Image.keyboardLoop, Image.checkKeyboard, readcs, List.findSome?_cons, ← ih, Image.acts]
    cases I.command (keyboardReadc s p).1 <;> rfl

lemma acts_of_nonpos {c : Int} (hc : c ≤ 0) : I.acts c = none := by
  have hne : ∀ x : Nat, 0 < x → c ≠ x := fun x hx => by omega
  unfold Image.acts Image.command
  rw [if_neg, if_neg]
  · rintro (h | h)
    · exact hne 3 (by decide) h
    · exact hne _ (by decide) h
  · rintro (h | h | h) <;> exact hne _ (by decide) h

lemma findSome_positive (cs : List Int) : (cs.filter (0 < ·)).findSome? I.acts = cs.findSome? I.acts := by
  induction cs with
  | nil => rfl
  | cons c cs ih =>
    by_cases hc : 0 < c
    · rw [List.filter_cons_of_pos (by simpa using hc), List.findSome?_cons, List.findSome?_cons, ih]
    · rw [List.filter_cons_of_neg (by simpa using hc), List.findSome?_cons, acts_of_nonpos I (by omega), ih]

/-- When a text is typed, the kernel does what its first command says and reads no further; without a command it goes on. -/
theorem typed_command {s : Keyboard.State} (hs : s.Plain) {text : List Nat} (htext : ∀ c ∈ text, Typeable c)
    {ps : List Ports} (hps : codes ps = typing s.capslock text) :
    I.keyboardLoop s ps = text.findSome? fun c : Nat => I.acts c := by
  have hread : readChars s ps = text.map Int.ofNat := by
    rw [(reads_codes s ps).1, hps, (readChars_typing hs htext).1]
  rw [keyboardLoop_readcs, ← findSome_positive, ← readChars, hread, List.findSome?_map]
  rfl

/-- `of` restarts the kernel with the argument `fork`. -/
theorem typed_command_sample : sampleImage.keyboardLoop State.boot ((typing false [111, 102]).map ready) =
    some (.rebooted 0x41000) := by
  have hplain : State.boot.Plain := ⟨rfl, rfl, rfl⟩
  have htext : ∀ c ∈ [111, 102], Typeable c := by
    intro c hc
    have hc' : c = 111 ∨ c = 102 := by simpa using hc
    unfold Typeable
    omega
  exact typed_command sampleImage hplain htext (by decide +kernel)

end Loop

end Cs300Projects.WeensyOS.Reboot
