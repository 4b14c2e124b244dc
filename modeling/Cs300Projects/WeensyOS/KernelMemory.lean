import Cs300Projects.WeensyOS.Descriptors
import Cs300Projects.WeensyOS.KernelTranslation
import Cs300Projects.WeensyOS.Memory

/-!
# The kernel's memory

`kernel_pagetable` is in the memory that it maps. `init_kernel_memory` copies the data segment below the symbol table and
writes the segment descriptors and the table. Bytes that are stored through the table later can change anything that it maps,
the table included.
-/

namespace Cs300Projects.WeensyOS

open Bytes

/-- Where the linker has put the data segment and the end of the kernel. -/
structure KernelData where
  dataStart : Nat
  edata : Nat
  kernelEnd : Nat
  kernelStart_le : Kernel.kernelStartAddr ≤ dataStart
  dataStart_le : dataStart ≤ edata
  edata_le : edata ≤ kernelEnd
  kernelEnd_le : kernelEnd ≤ Kernel.kernelStackTop - Kernel.pagesize

/-- What is behind the data segment: `kernel_pagetable`, `kernel_gdt_segments`, and the address of `kernel_taskstate`. -/
structure KernelBss (D : KernelData) where
  tables : KernelPagetable
  segments : Nat
  taskstate : Word
  tables_bounds : D.edata ≤ tables.addr.toNat ∧ tables.addr.toNat + 5 * 4096 ≤ D.kernelEnd
  segments_bounds : D.edata ≤ segments ∧ segments + 56 ≤ D.kernelEnd

/-- Memory as the page walk reads it. -/
def tableMemory (m : Nat → UInt8) : Memory := ⟨fun a => BitVec.ofNat 64 (readLE m a.toNat 8), 0⟩

namespace KernelData

variable (D : KernelData)

def dataSize : Nat := D.edata - D.dataStart

/-- `(uint8_t*) (SYMTAB_ADDR - data_size)` -/
def dataStash : Nat := symtabAddr.toNat - D.dataSize

def stashKernelData (reboot : Bool) (m : Nat → UInt8) : Nat → UInt8 :=
  if reboot then memset (D.kernelEnd - D.edata) (memcpy m D.dataStart D.dataStash D.dataSize) D.edata 0
  else memcpy m D.dataStash D.dataStart D.dataSize

end KernelData

/-! ### `init_kernel_memory` -/

def x86segS : Word := 1#64 <<< 44
def x86segL : Word := 1#64 <<< 53
def x86segW : Word := 0x2#64 <<< 40
def x86segX : Word := 0x8#64 <<< 40
def x86segTss : Word := 0x9#64 <<< 40

def setAppSegment (type : Word) (dpl : BitVec 32) : Word := type ||| x86segS ||| dpl.signExtend 64 <<< 45 ||| x86segP

/-- `kernel_gdt_segments[i] = w` for one word after the other. -/
def writeWords (m : Nat → UInt8) (a : Nat) : List Word → Nat → UInt8
  | [] => m
  | w :: ws => writeWords (writeLE m a 8 w.toNat) (a + 8) ws

/-- The words of `kernel_gdt_segments`; a `x86_64_taskstate` has 104 bytes. -/
def gdtSegments (taskstate : Word) : List Word :=
  let task := setSysSegment taskstate 104#64 x86segTss 0#32
  [0#64, setAppSegment (x86segX ||| x86segL) 0#32, setAppSegment x86segW 0#32, setAppSegment (x86segX ||| x86segL) 3#32,
    setAppSegment x86segW 3#32, task.1, task.2]

namespace KernelPagetable

variable (K : KernelPagetable)

/-- The byte is in `kernel_pagetable`. -/
def InTable (x : Nat) : Prop := K.addr.toNat ≤ x ∧ x < K.addr.toNat + 5 * 4096

instance (x : Nat) : Decidable (K.InTable x) := inferInstanceAs (Decidable (_ ∧ _))

/-- The words of the table are written back to memory. -/
def install (t : Memory) (m : Nat → UInt8) : Nat → UInt8 := fun x =>
  if K.InTable x then UInt8.ofNat ((t.word (BitVec.ofNat 64 (x - x % 8))).toNat / 256 ^ (x % 8)) else m x

/-- What the processor reads at an address when `cr3` has `kernel_pagetable`; `none` is a page fault. -/
def seen (m : Nat → UInt8) (x : Nat) : Option UInt8 :=
  (mmuTranslate (tableMemory m) K.top (BitVec.ofNat 64 x)).map fun pa => m pa.toNat

/-- A byte is stored. -/
def store (m : Nat → UInt8) (va : Word) (c : UInt8) : Nat → UInt8 :=
  match mmuTranslate (tableMemory m) K.top va with
  | some pa => Function.update m pa.toNat c
  | none => m

end KernelPagetable

/-- `init_kernel_memory` -/
def KernelData.initKernelMemory (D : KernelData) (B : KernelBss D) (fuel : Nat) (m : Nat → UInt8) :
    Option (Except Stop (Nat → UInt8)) :=
  let m := D.stashKernelData false m
  let m := writeWords m B.segments (gdtSegments B.taskstate)
  (B.tables.initKernelMemory fuel ⟨tableMemory m, []⟩).map (Except.map fun s => B.tables.install s.mem m)

/-! ### Afterwards -/

/-- What happens in memory after `init_kernel_memory`. -/
inductive MemoryEvent where
  | store (va : Word) (c : UInt8)
  /-- The loop of `kernel`. -/
  | remap
  /-- `lookup_symbol`, before it searches. -/
  | mapSymtab

namespace KernelPagetable

variable (K : KernelPagetable)

/-- Memory after `lookup_symbol` has mapped the symbol table. -/
def symtabMapped (m : Nat → UInt8) : Nat → UInt8 := K.install (K.mapSymtab (tableMemory m)) m

def memoryStep (fuel : Nat) (m : Nat → UInt8) : MemoryEvent → Option (Except Stop (Nat → UInt8))
  | .store va c => some (.ok (K.store m va c))
  | .remap => (K.remap fuel ⟨tableMemory m, []⟩).map (Except.map fun s => K.install s.mem m)
  | .mapSymtab => some (.ok (K.symtabMapped m))

end KernelPagetable

/-- One event after the other, until one of them stops. -/
def runEvents {σ ε : Type} (step : σ → ε → Option (Except Stop σ)) (s : σ) : List ε → Option (Except Stop σ)
  | [] => some (.ok s)
  | e :: es =>
    match step s e with
    | some (.ok s') => runEvents step s' es
    | r => r

/-- `pushq $0` of `kernel_entry` -/
def kernelEntered (m : Nat → UInt8) : Nat → UInt8 := writeLE m (Kernel.kernelStackTop - 8) 8 0

/-- The kernel starts in the memory that it was loaded to, and the events follow. -/
def KernelData.runMemory (D : KernelData) (B : KernelBss D) (fuel : Nat) (m : Nat → UInt8) (events : List MemoryEvent) :
    Option (Except Stop (Nat → UInt8)) :=
  match D.initKernelMemory B fuel (kernelEntered m) with
  | some (.ok m') => runEvents (B.tables.memoryStep fuel) m' events
  | r => r

/-- What every event keeps holds after all of them, and none stops. -/
lemma runEvents_invariant {σ ε : Type} {step : σ → ε → Option (Except Stop σ)} (I : σ → Prop) (A : ε → Prop)
    (hstep : ∀ s e, I s → A e → ∃ s', step s e = some (.ok s') ∧ I s') {s : σ} (hs : I s) {es : List ε}
    (hes : ∀ e ∈ es, A e) : ∃ s', runEvents step s es = some (.ok s') ∧ I s' := by
  induction es generalizing s with
  | nil => exact ⟨s, rfl, hs⟩
  | cons e es ih =>
    obtain ⟨s₁, hs₁, hI⟩ := hstep s e hs (hes e List.mem_cons_self)
    obtain ⟨s', hs', hI'⟩ := ih hI fun e' he' => hes e' (List.mem_cons_of_mem e he')
    refine ⟨s', ?_, hI'⟩
    rw [runEvents, hs₁]
    exact hs'

/-! ### The table in memory -/

namespace KernelPagetable

section Install

variable {K : KernelPagetable} {n : Nat} {sym : Bool} {t : Memory} {m : Nat → UInt8}

lemma install_outside {x : Nat} (hx : ¬K.InTable x) : K.install t m x = m x := if_neg hx

/-- The bytes of memory are those of the words, if no word elsewhere has changed. -/
lemma install_word (h : K.Elsewhere (tableMemory m) t) {a : Word} (ha : a.toNat % 8 = 0) :
    (tableMemory (K.install t m)).word a = t.word a := by
  have haligned := K.aligned
  by_cases hin : K.Inside a
  · have hword : readLE (K.install t m) a.toNat 8 = readLE (writeLE m a.toNat 8 (t.word a).toNat) a.toNat 8 := by
      refine readLE_congr fun x hx hlt => ?_
      have hbase : x - x % 8 = a.toNat := by omega
      have hbyte : x % 8 = x - a.toNat := by omega
      unfold Inside at hin
      unfold install writeLE
      rw [if_pos (by unfold InTable; omega), if_pos ⟨hx, hlt⟩, hbase, hbyte, BitVec.ofNat_toNat, BitVec.setWidth_eq]
    unfold tableMemory
    dsimp only
    rw [hword, readLE_writeLE_of_lt (t.word a).isLt, BitVec.ofNat_toNat, BitVec.setWidth_eq]
  · rw [h a hin]
    unfold tableMemory
    dsimp only
    rw [readLE_congr fun x hx hlt => install_outside ?_]
    unfold Inside at hin
    unfold InTable
    omega

lemma entry_aligned (K : KernelPagetable) (i : Fin 5) (j : Fin 512) : ((K.page i).entry j).toNat % 8 = 0 := by
  have haligned := K.aligned
  rw [PagePtr.toNat_entry _ j.isLt, page, toNat_addr]
  omega

lemma Holds.install (h : K.Holds n sym t) (helsewhere : K.Elsewhere (tableMemory m) t) :
    K.Holds n sym (tableMemory (K.install t m)) := by
  refine ⟨rfl, fun i j => ?_⟩
  rw [install_word helsewhere (K.entry_aligned i j)]
  exact h.2 i j

/-- The table does not change when no byte of it does. -/
lemma Holds.of_bytes {m' : Nat → UInt8} (h : K.Holds n sym (tableMemory m)) (hsame : ∀ x, K.InTable x → m' x = m x) :
    K.Holds n sym (tableMemory m') := by
  refine ⟨rfl, fun i j => ?_⟩
  rw [← h.2 i j]
  have haligned := K.entry_aligned i j
  have hin := K.inside_entry i j
  have hbase := K.aligned
  unfold Inside at hin
  unfold tableMemory
  dsimp only
  rw [readLE_congr fun x hx hlt => hsame x ?_]
  unfold InTable
  omega

end Install

/-! ### Memory through the table -/

/-- The addresses that are mapped when the symbol table is. -/
def Mappable (va : Word) : Prop := InMemory va ∨ InDevices va ∨ InSymtab va

/-- The kernel sees the byte of memory at the address, with the symbol table mapped. -/
def Readable (x : Nat) : Prop := (0x1000 ≤ x ∧ x < 0x200000) ∨ (0x1000000 ≤ x ∧ x < 0x1200000)

/-- What a store may not change: the table, and the bytes of `P`. -/
def Spares (K : KernelPagetable) (P : Nat → Prop) : MemoryEvent → Prop
  | .store va _ => Mappable va → ¬K.InTable va.toNat ∧ ¬P va.toNat
  | .remap => True
  | .mapSymtab => True

/-- The table is as the kernel has made it, and the bytes of `P` outside of it are those of `m₀`. -/
structure Keeps (K : KernelPagetable) (P : Nat → Prop) (m₀ m : Nat → UInt8) : Prop where
  tables : ∃ sym, K.Holds 512 sym (tableMemory m)
  same : ∀ x, P x → ¬K.InTable x → m x = m₀ x

section Run

variable {K : KernelPagetable} {P : Nat → Prop} {m₀ m : Nat → UInt8} {sym : Bool} {fuel : Nat}

lemma Holds.seen_eq (h : K.Holds 512 true (tableMemory m)) {x : Nat} (hx : Readable x) : K.seen m x = some (m x) := by
  unfold Readable at hx
  have htoNat : (BitVec.ofNat 64 x).toNat = x := by
    rw [BitVec.toNat_ofNat]
    omega
  have htranslate : mmuTranslate (tableMemory m) K.top (BitVec.ofNat 64 x) = some (BitVec.ofNat 64 x) := by
    refine ((h.outcome _).translate_iff _).2 ⟨rfl, ?_⟩
    unfold InMemory InSymtab Kernel.memsizePhysical
    rw [htoNat]
    exact hx.imp_right fun hsymtab => Or.inr ⟨rfl, hsymtab⟩
  rw [seen, htranslate, Option.map_some, htoNat]

/-- A store changes the byte at its address, if that is mapped, and no other. -/
lemma store_apply (h : K.Holds 512 sym (tableMemory m)) (va : Word) (c : UInt8) {x : Nat}
    (hx : Mappable va → x ≠ va.toNat) : K.store m va c x = m x := by
  unfold store
  cases htranslate : mmuTranslate (tableMemory m) K.top va with
  | none => rfl
  | some pa =>
    obtain ⟨rfl, hva⟩ := ((h.outcome va).translate_iff pa).1 htranslate
    exact Function.update_of_ne (hx (hva.imp_right fun hva => hva.imp_right And.right)) _ _

lemma Keeps.install {t : Memory} (h : K.Keeps P m₀ m) (ht : K.Holds 512 sym t) (helsewhere : K.Elsewhere (tableMemory m) t) :
    K.Keeps P m₀ (K.install t m) :=
  ⟨⟨sym, ht.install helsewhere⟩, fun x hP hx => (install_outside hx).trans (h.same x hP hx)⟩

lemma Keeps.symtabMapped (h : K.Keeps P m₀ m) : K.Keeps P m₀ (K.symtabMapped m) := by
  obtain ⟨sym, htables⟩ := h.tables
  exact h.install htables.mapSymtab (K.elsewhere_mapSymtab _)

/-- What was kept is seen when the symbol table is mapped. -/
lemma Keeps.seen (h : K.Keeps P m₀ m) {x : Nat} (hx : Readable x) (hP : P x) (htable : ¬K.InTable x) :
    K.seen (K.symtabMapped m) x = some (m₀ x) := by
  obtain ⟨sym, htables⟩ := h.tables
  have hholds : K.Holds 512 true (tableMemory (K.symtabMapped m)) := htables.mapSymtab.install (K.elsewhere_mapSymtab _)
  rw [hholds.seen_eq hx, h.symtabMapped.same x hP htable]

lemma Keeps.memoryStep (hfuel : 512 < fuel) (h : K.Keeps P m₀ m) {e : MemoryEvent} (he : K.Spares P e) :
    ∃ m', K.memoryStep fuel m e = some (.ok m') ∧ K.Keeps P m₀ m' := by
  obtain ⟨sym, htables⟩ := h.tables
  cases e with
  | store va c =>
    refine ⟨K.store m va c, rfl, ⟨sym, htables.of_bytes fun x hx => ?_⟩, fun x hP hx => ?_⟩
    · exact store_apply htables va c fun hva heq => (he hva).1 (heq ▸ hx)
    · exact (store_apply htables va c fun hva heq => (he hva).2 (heq ▸ hP)).trans (h.same x hP hx)
  | remap =>
    obtain ⟨s', hs', hholds, helsewhere⟩ := remap_holds (s := ⟨tableMemory m, []⟩) htables hfuel
    refine ⟨K.install s'.mem m, ?_, h.install hholds helsewhere⟩
    rw [KernelPagetable.memoryStep, hs']
    rfl
  | mapSymtab => exact ⟨_, rfl, h.symtabMapped⟩

/-- No event stops, and what is not to be changed stays. -/
lemma Keeps.run (hfuel : 512 < fuel) (h : K.Keeps P m₀ m) {events : List MemoryEvent}
    (hevents : ∀ e ∈ events, K.Spares P e) :
    ∃ m', runEvents (K.memoryStep fuel) m events = some (.ok m') ∧ K.Keeps P m₀ m' :=
  runEvents_invariant (K.Keeps P m₀) (K.Spares P) (fun _ _ hm he => hm.memoryStep hfuel he) h hevents

end Run

end KernelPagetable

/-! ### The stash -/

lemma writeWords_outside (ws : List Word) {m : Nat → UInt8} {a x : Nat} (hx : Outside x a (8 * ws.length)) :
    writeWords m a ws x = m x := by
  unfold Outside at hx
  induction ws generalizing m a with
  | nil => rfl
  | cons w ws ih =>
    rw [List.length_cons] at hx
    rw [writeWords, ih (by omega), writeLE_outside (by unfold Outside; omega)]

namespace KernelData

variable {D : KernelData} {m m₀ : Nat → UInt8}

lemma symtabAddr_toNat : symtabAddr.toNat = 0x1000000 := rfl

lemma bounds (D : KernelData) : 0x40000 ≤ D.dataStart ∧ D.dataStart ≤ D.edata ∧ D.edata ≤ D.kernelEnd ∧ D.kernelEnd ≤ 0x7F000 :=
  ⟨D.kernelStart_le, D.dataStart_le, D.edata_le, D.kernelEnd_le⟩

/-- The stash lies between the kernel's memory and the symbol table. -/
lemma dataStash_bounds (D : KernelData) : 0x200000 ≤ D.dataStash ∧ D.dataStash + D.dataSize = 0x1000000 ∧
    D.dataStart + D.dataSize = D.edata := by
  have hbounds := D.bounds
  unfold dataStash dataSize
  rw [symtabAddr_toNat]
  omega

lemma stashKernelData_false (D : KernelData) (m : Nat → UInt8) :
    D.stashKernelData false m = blit m D.dataStash D.dataSize (fun i => m (D.dataStart + i)) := by
  have hstash := D.dataStash_bounds
  have hbounds := D.bounds
  exact copyUp_eq _ _ _ _ (by omega)

/-- The stash holds the data segment that the kernel was loaded with. -/
def Stashed (D : KernelData) (m₀ m : Nat → UInt8) : Prop := ∀ i, i < D.dataSize → m (D.dataStash + i) = m₀ (D.dataStart + i)

lemma stashed_start (D : KernelData) (m : Nat → UInt8) : D.Stashed m (D.stashKernelData false m) := by
  intro i hi
  rw [stashKernelData_false, blit_inside (Nat.le_add_right _ _) (by omega), Nat.add_sub_cancel_left]

/-- `init_kernel_memory` makes the table, and changes nothing else but the stash and the segment descriptors. -/
lemma initKernelMemory_spec (B : KernelBss D) (m : Nat → UInt8) {fuel : Nat} (hfuel : 512 < fuel) :
    ∃ m', D.initKernelMemory B fuel m = some (.ok m') ∧ B.tables.Holds 512 false (tableMemory m') ∧
      ∀ x, ¬B.tables.InTable x → Outside x B.segments 56 → m' x = D.stashKernelData false m x := by
  obtain ⟨s', hs', hholds, helsewhere⟩ := KernelPagetable.initKernelMemory_holds (K := B.tables)
    (s := ⟨tableMemory (writeWords (D.stashKernelData false m) B.segments (gdtSegments B.taskstate)), []⟩) rfl hfuel
  refine ⟨_, ?_, hholds.install helsewhere, fun x htable hx => ?_⟩
  · rw [initKernelMemory, hs']
    rfl
  · rw [KernelPagetable.install_outside htable, writeWords_outside _ hx]

/-- Neither is outside of the memory behind the data segment. -/
lemma outside_bss (B : KernelBss D) {x : Nat} (hx : Outside x D.edata (D.kernelEnd - D.edata)) :
    ¬B.tables.InTable x ∧ Outside x B.segments 56 := by
  have htables := B.tables_bounds
  have hsegments := B.segments_bounds
  unfold Outside at *
  unfold KernelPagetable.InTable
  omega

/-- What is loaded to the address stays there when the kernel starts: it is not in the stash, behind the data segment, or on the
stack. -/
structure Lasting (D : KernelData) (x : Nat) : Prop where
  stash : Outside x D.dataStash D.dataSize
  bss : Outside x D.edata (D.kernelEnd - D.edata)
  stack : Outside x (Kernel.kernelStackTop - Kernel.pagesize) Kernel.pagesize

lemma Lasting.not_inTable {x : Nat} (h : D.Lasting x) (B : KernelBss D) : ¬B.tables.InTable x := (outside_bss B h.bss).1

/-- Nothing stops, and the bytes that no event stores to are still those that were loaded. -/
lemma runMemory_keeps (B : KernelBss D) (m : Nat → UInt8) {fuel : Nat} (hfuel : 512 < fuel) {P : Nat → Prop}
    (hP : ∀ x, P x → D.Lasting x) {events : List MemoryEvent} (hevents : ∀ e ∈ events, B.tables.Spares P e) :
    ∃ m', D.runMemory B fuel m events = some (.ok m') ∧ B.tables.Keeps P m m' := by
  obtain ⟨m₁, hm₁, hholds, hrest⟩ := D.initKernelMemory_spec B (kernelEntered m) hfuel
  have hkeeps : B.tables.Keeps P m m₁ := by
    refine ⟨⟨false, hholds⟩, fun x hx _ => ?_⟩
    have hstack := (hP x hx).stack
    unfold Outside Kernel.kernelStackTop Kernel.pagesize at hstack
    obtain ⟨htable, hsegments⟩ := outside_bss B (hP x hx).bss
    rw [hrest x htable hsegments, stashKernelData_false, blit_outside (hP x hx).stash, kernelEntered,
      writeLE_outside (by unfold Outside Kernel.kernelStackTop; omega)]
  obtain ⟨m', hm', hkept⟩ := hkeeps.run hfuel hevents
  refine ⟨m', ?_, hkept⟩
  rw [runMemory, hm₁]
  exact hm'

end KernelData

end Cs300Projects.WeensyOS
