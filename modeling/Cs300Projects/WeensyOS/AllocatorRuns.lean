import Cs300Projects.WeensyOS.Allocator

/-!
# Runs of the allocator processes

Nothing keeps the processes apart but what they do. Each one writes to its own region, and asks for pages between its data
and its stack only. So no assertion fails in any run, all pages of the heaps are fresh, and a process stops when its heap has
reached its stack.
-/

namespace Cs300Projects.WeensyOS.Allocator

open Bytes Kernel Processes

variable {S : SystemLayout} {B : ∀ i, Binary i} {fuel : Nat} {mem mem' : Nat → UInt8} {i : Fin 4}

/-! ### Regions -/

/-- The address is in the region of process `i + 1`. -/
def InRegion (i : Fin 4) (x : Nat) : Prop := regionStart i ≤ x ∧ x < regionStart i + procSize

lemma regionStart_eq (i : Fin 4) : regionStart i = 0x100000 + 0x40000 * i := rfl

lemma stackStart_eq (i : Fin 4) : stackStart i = regionStart i + 0x3F000 := by
  unfold stackStart regionStart procStartAddr procSize Kernel.pagesize
  omega

lemma InRegion.bounds {x : Nat} (h : InRegion i x) : procStartAddr ≤ x ∧ x < memsizePhysical := by
  have hi := i.isLt
  unfold InRegion at h
  rw [regionStart_eq] at h
  unfold procSize procStartAddr memsizePhysical at *
  omega

lemma InRegion.eq {j : Fin 4} {x : Nat} (h : InRegion i x) (h' : InRegion j x) : i = j := by
  have hi := regionStart_eq i
  have hj := regionStart_eq j
  unfold InRegion procSize at *
  omega

namespace Binary

variable (b : Binary i)

lemma heapStart_mod : b.heapStart % Kernel.pagesize = 0 := by
  unfold heapStart roundUp roundDown Kernel.pagesize
  omega

lemma heapStart_bounds : b.endAddr ≤ b.heapStart ∧ b.heapStart ≤ stackStart i ∧ regionStart i ≤ b.heapStart := by
  have hend := b.endAddr_le
  have hstart := b.heapTop_mem
  have hregion := regionStart_eq i
  have hstack := stackStart_eq i
  unfold heapStart roundUp roundDown Kernel.pagesize
  omega

/-- The pages of process `i + 1` when its heap has `n` pages. -/
def Owns (n page : Nat) : Prop :=
  ProgramPage b.program (i + 1) page ∨
    (b.heapStart / Kernel.pagesize ≤ page ∧ page < b.heapStart / Kernel.pagesize + n)

lemma stackPage_eq (i : Fin 4) : stackPage (i + 1) * Kernel.pagesize = stackStart i := by
  unfold stackPage stackStart procStartAddr procSize Kernel.pagesize
  omega

lemma programPage_below {page : Nat} (h : ProgramPage b.program (i + 1) page) :
    InRegion i (page * Kernel.pagesize) ∧ (page * Kernel.pagesize < b.endAddr ∨ page * Kernel.pagesize = stackStart i) := by
  have hend := b.endAddr_le
  have hstack := stackPage_eq i
  have hregion := regionStart_eq i
  have hstackStart := stackStart_eq i
  unfold InRegion procSize
  rcases h with ⟨seg, hseg, hlt, hgt⟩ | rfl
  · obtain ⟨-, -, hva, hfits⟩ := b.segments seg hseg
    unfold Kernel.pagesize at *
    omega
  · omega

lemma Owns.inRegion {n page : Nat} (h : b.Owns n page) (hn : b.heapStart + Kernel.pagesize * n ≤ stackStart i) :
    InRegion i (page * Kernel.pagesize) := by
  rcases h with hprogram | ⟨hlow, hhigh⟩
  · exact (b.programPage_below hprogram).1
  · obtain ⟨-, -, hstart⟩ := b.heapStart_bounds
    have haligned := b.heapStart_mod
    rw [stackStart_eq] at hn
    unfold InRegion procSize
    unfold Kernel.pagesize at *
    omega

lemma Owns.mono {b : Binary i} {n n' page : Nat} (h : b.Owns n page) (hn : n ≤ n') : b.Owns n' page :=
  h.imp_right fun hheap => ⟨hheap.1, by omega⟩

/-- The next page of the heap is free. -/
lemma not_owns_next {n : Nat} (hn : b.heapStart + Kernel.pagesize * n < stackStart i) :
    ¬b.Owns n (b.heapStart / Kernel.pagesize + n) := by
  have haligned := b.heapStart_mod
  obtain ⟨hend, -, -⟩ := b.heapStart_bounds
  rintro (hprogram | ⟨-, hlt⟩)
  · obtain ⟨-, hbelow | hstack⟩ := b.programPage_below hprogram
    · unfold Kernel.pagesize at *
      omega
    · unfold Kernel.pagesize at *
      omega
  · omega

end Binary

/-- The heap of `n` pages has reached the stack. -/
def Binary.Full (b : Binary i) (n : Nat) : Prop := b.heapStart + Kernel.pagesize * n = stackStart i

def Input.isRun : Input → Bool
  | .run .. => true
  | _ => false

/-- Process `i + 1` is about to ask for a page. -/
def System.Asks (s : System) (i : Fin 4) (input : Input) : Prop := (s.locals i).pc = .alloc ∧ input.isRun = true

/-! ### The invariant -/

/-- `heap_top` has been set. -/
def Pc.hasTop : Pc → Bool
  | .getpid | .setHeapTop => false
  | _ => true

/-- `stack_bottom` has been set. -/
def Pc.hasBottom : Pc → Bool
  | .getpid | .setHeapTop | .setStackBottom => false
  | _ => true

/-- `heap_top` is still the last page that was granted. -/
def Pc.granted : Pc → Bool
  | .storePid | .showPid | .advanceHeap => true
  | _ => false

/-- Process `i + 1` has a heap of `n` pages. -/
structure Progress (b : Binary i) (l : Local) (n : Nat) (mem : Nat → UInt8) : Prop where
  pid : l.pc ≠ .getpid → l.p = i + 1
  empty : l.pc.hasBottom = false → n = 0
  heapTop : l.pc.hasTop = true →
    readLE mem b.heapTop 8 = b.heapStart + Kernel.pagesize * (if l.pc.granted then n - 1 else n)
  stackBottom : l.pc.hasBottom = true → readLE mem b.stackBottom 8 = stackStart i
  pos : l.pc.granted = true → 0 < n
  bound : b.heapStart + Kernel.pagesize * n ≤ stackStart i
  full : l.pc = .idle → b.Full n
  contents : ∀ k, k < n → ∀ j, j < Kernel.pagesize → mem (b.heapStart + Kernel.pagesize * k + j) =
    if j = 0 ∧ ¬(k + 1 = n ∧ l.pc = .storePid) then UInt8.ofNat (i + 1) else 0

lemma Progress.congr {b : Binary i} {l : Local} {n : Nat} (h : Progress b l n mem)
    (hmem : ∀ x, InRegion i x → mem' x = mem x) : Progress b l n mem' := by
  have hend := b.endAddr_le
  have htop := b.heapTop_mem
  have hbottom := b.stackBottom_mem
  have hbound := h.bound
  obtain ⟨-, -, hstart⟩ := b.heapStart_bounds
  rw [stackStart_eq] at hend hbound
  have hregion : ∀ x, regionStart i ≤ x → x < regionStart i + 0x3F000 → mem' x = mem x := by
    intro x hx hlt
    apply hmem
    unfold InRegion procSize
    omega
  refine ⟨h.pid, h.empty, ?_, ?_, h.pos, h.bound, h.full, ?_⟩
  · intro hpc
    rw [← h.heapTop hpc]
    exact readLE_congr fun x hx hlt => hregion x (by omega) (by omega)
  · intro hpc
    rw [← h.stackBottom hpc]
    exact readLE_congr fun x hx hlt => hregion x (by omega) (by omega)
  · intro k hk j hj
    rw [← h.contents k hk j hj]
    unfold Kernel.pagesize at *
    exact hregion _ (by omega) (by omega)

/-- What holds in every state of a run; the heaps have `n` pages. -/
structure Inv (S : SystemLayout) (B : ∀ i, Binary i) (s : System) (n : Fin 4 → Nat) : Prop where
  halted : s.machine.halted = false
  user : ∃ i : Fin 4, User S.toProcLayout s.machine (i + 1)
  sound : Sound S s.machine.mem
  displays : Displays S s.machine.mem
  progress : ∀ i, Progress (B i) (s.locals i) (n i) s.machine.mem
  used : ∀ page, page < npages → page ≠ 1 → (s.machine.mem (S.pages + page) ≠ 0 ↔ ∃ i, (B i).Owns (n i) page)

/-! ### Steps of one process -/

namespace Progress

variable {b : Binary i} {l : Local} {n : Nat}

/-- Nothing but the program counter changes. -/
lemma goto {pc pc' : Pc} (h : Progress b l n mem) (hpc : l.pc = pc) (hpid : pc ≠ .getpid) (htop : pc.hasTop = true)
    (hbottom : pc'.hasBottom = pc.hasBottom) (hgranted : pc'.granted = pc.granted)
    (hstore : pc' = .storePid ↔ pc = .storePid) (hfull : pc' = .idle → b.Full n) :
    Progress b ⟨pc', l.p⟩ n mem := by
  subst hpc
  exact {
    pid := fun _ => h.pid hpid
    empty := fun hpc => h.empty (hbottom.symm.trans hpc)
    heapTop := fun _ => hgranted ▸ h.heapTop htop
    stackBottom := fun hpc => h.stackBottom (hbottom.symm.trans hpc)
    pos := fun hpc => h.pos (hgranted.symm.trans hpc)
    bound := h.bound
    full := hfull
    contents := fun k hk j hj => by
      simp only [hstore]
      exact h.contents k hk j hj }

lemma empty_contents {l' : Local} (hn : n = 0) : ∀ k, k < n → ∀ j, j < Kernel.pagesize →
    mem (b.heapStart + Kernel.pagesize * k + j) =
      if j = 0 ∧ ¬(k + 1 = n ∧ l'.pc = .storePid) then UInt8.ofNat (i + 1) else 0 := by
  intro k hk
  omega

lemma getpid (h : Progress b l n mem) (hpc : l.pc = .getpid) : Progress b ⟨.setHeapTop, i + 1⟩ n mem := by
  have hn := h.empty (by rw [hpc]; rfl)
  exact ⟨fun _ => rfl, fun _ => hn, nofun, nofun, nofun, h.bound, nofun, empty_contents hn⟩

lemma setHeapTop (h : Progress b l n mem) (hpc : l.pc = .setHeapTop) :
    Progress b ⟨.setStackBottom, l.p⟩ n (writeLE mem b.heapTop 8 b.heapStart) := by
  have hn := h.empty (by rw [hpc]; rfl)
  have hbound := h.bound
  have hlt : b.heapStart < 256 ^ 8 := by
    have hi := i.isLt
    rw [stackStart_eq, regionStart_eq] at hbound
    omega
  refine ⟨fun _ => h.pid (by rw [hpc]; nofun), fun _ => hn, fun _ => ?_, nofun, nofun, h.bound, nofun, empty_contents hn⟩
  rw [readLE_writeLE_of_lt hlt, hn]
  simp [Pc.granted]

lemma setStackBottom {rsp : Nat} (h : Progress b l n mem) (hpc : l.pc = .setStackBottom) (hlow : stackStart i < rsp)
    (hhigh : rsp ≤ stackStart i + Kernel.pagesize) :
    Progress b ⟨.loop, l.p⟩ n (writeLE mem b.stackBottom 8 (roundDown (rsp - 1) Kernel.pagesize)) := by
  have hn := h.empty (by rw [hpc]; rfl)
  have hround : roundDown (rsp - 1) Kernel.pagesize = stackStart i := by
    have hstack := stackStart_eq i
    have hregion := regionStart_eq i
    unfold roundDown Kernel.pagesize at *
    omega
  have hlt : stackStart i < 256 ^ 8 := by
    have hi := i.isLt
    rw [stackStart_eq, regionStart_eq]
    omega
  have htop := h.heapTop (by rw [hpc]; rfl)
  rw [hround]
  refine ⟨fun _ => h.pid (by rw [hpc]; nofun), nofun, fun _ => ?_, fun _ => readLE_writeLE_of_lt hlt, nofun, h.bound, nofun,
    empty_contents hn⟩
  rw [(within_writeLE _ _ _ _).readLE b.apart, htop, hpc]
  rfl

/-- The page behind the heap has been granted. -/
lemma grant (h : Progress b l n mem) (hpc : l.pc = .alloc) (hroom : b.heapStart + Kernel.pagesize * n < stackStart i)
    (hzero : ∀ x, b.heapStart + Kernel.pagesize * n ≤ x → x < b.heapStart + Kernel.pagesize * n + Kernel.pagesize →
      mem' x = 0)
    (hkeep : ∀ x, InRegion i x → Outside x (b.heapStart + Kernel.pagesize * n) Kernel.pagesize → mem' x = mem x) :
    Progress b ⟨.storePid, l.p⟩ (n + 1) mem' := by
  obtain ⟨hend, -, hstart⟩ := b.heapStart_bounds
  have htop := b.heapTop_mem
  have hbottom := b.stackBottom_mem
  have haligned := b.heapStart_mod
  have hstack := stackStart_eq i
  have hregion := regionStart_eq i
  -- what is below the page is not written
  have hbelow : ∀ x, regionStart i ≤ x → x < b.heapStart + Kernel.pagesize * n → mem' x = mem x := by
    intro x hx hlt
    apply hkeep
    · unfold InRegion procSize
      omega
    · exact Or.inl hlt
  refine ⟨fun _ => h.pid (by rw [hpc]; nofun), nofun, fun _ => ?_, fun _ => ?_, fun _ => Nat.succ_pos n, ?_, nofun, ?_⟩
  · have hold := h.heapTop (by rw [hpc]; rfl)
    rw [hpc] at hold
    exact (readLE_congr fun x hx hlt => hbelow x (by omega) (by omega)).trans hold
  · rw [← h.stackBottom (by rw [hpc]; rfl)]
    exact readLE_congr fun x hx hlt => hbelow x (by omega) (by omega)
  · unfold Kernel.pagesize at *
    omega
  · intro k hk j hj
    rcases Nat.lt_succ_iff_lt_or_eq.1 hk with hlt | rfl
    · have hne : k ≠ n := Nat.ne_of_lt hlt
      rw [hbelow _ (by omega) (by unfold Kernel.pagesize at *; omega), h.contents k hlt j hj, hpc]
      simp [hne]
    · rw [hzero _ (Nat.le_add_right _ _) (Nat.add_lt_add_left hj _), if_neg]
      exact fun hcase => hcase.2 ⟨rfl, rfl⟩

lemma storePid (h : Progress b l n mem) (hpc : l.pc = .storePid) :
    Progress b ⟨.showPid, l.p⟩ n (writeLE mem (b.heapStart + Kernel.pagesize * (n - 1)) 1 (i + 1)) := by
  obtain ⟨hend, -, hstart⟩ := b.heapStart_bounds
  have htop := b.heapTop_mem
  have hbottom := b.stackBottom_mem
  have hpos := h.pos (by rw [hpc]; rfl)
  have hwithin := within_writeLE mem (b.heapStart + Kernel.pagesize * (n - 1)) 1 (i + 1)
  refine ⟨fun _ => h.pid (by rw [hpc]; nofun), nofun, fun _ => ?_, fun _ => ?_, fun _ => hpos, h.bound, nofun, ?_⟩
  · have hold := h.heapTop (by rw [hpc]; rfl)
    rw [hpc] at hold
    exact (hwithin.readLE (Or.inl (by omega))).trans hold
  · rw [← h.stackBottom (by rw [hpc]; rfl)]
    exact hwithin.readLE (Or.inl (by omega))
  · intro k hk j hj
    have hold := h.contents k hk j hj
    rw [hpc] at hold
    by_cases hbyte : k = n - 1 ∧ j = 0
    · obtain ⟨rfl, rfl⟩ := hbyte
      rw [if_pos ⟨rfl, by simp⟩, Nat.add_zero]
      generalize b.heapStart + Kernel.pagesize * (n - 1) = a
      unfold writeLE
      rw [if_pos ⟨Nat.le_refl _, Nat.lt_succ_self _⟩, Nat.sub_self, Nat.pow_zero, Nat.div_one]
    · rw [hwithin, hold]
      · by_cases hj0 : j = 0
        · rw [if_pos ⟨hj0, by omega⟩, if_pos ⟨hj0, by simp⟩]
        · rw [if_neg (by omega), if_neg (by omega)]
      · unfold Outside Kernel.pagesize at *
        omega

lemma advanceHeap (h : Progress b l n mem) (hpc : l.pc = .advanceHeap) :
    Progress b ⟨.yield, l.p⟩ n (writeLE mem b.heapTop 8 (b.heapStart + Kernel.pagesize * (n - 1) + Kernel.pagesize)) := by
  obtain ⟨hend, -, hstart⟩ := b.heapStart_bounds
  have htop := b.heapTop_mem
  have hbound := h.bound
  have hpos := h.pos (by rw [hpc]; rfl)
  have hnext : b.heapStart + Kernel.pagesize * (n - 1) + Kernel.pagesize = b.heapStart + Kernel.pagesize * n := by
    unfold Kernel.pagesize
    omega
  have hlt : b.heapStart + Kernel.pagesize * n < 256 ^ 8 := by
    have hi := i.isLt
    rw [stackStart_eq, regionStart_eq] at hbound
    omega
  rw [hnext]
  have hwithin := within_writeLE mem b.heapTop 8 (b.heapStart + Kernel.pagesize * n)
  refine ⟨fun _ => h.pid (by rw [hpc]; nofun), nofun, fun _ => readLE_writeLE_of_lt hlt, fun _ => ?_, nofun, h.bound, nofun, ?_⟩
  · rw [hwithin.readLE b.apart.symm]
    exact h.stackBottom (by rw [hpc]; rfl)
  · intro k hk j hj
    rw [hwithin, h.contents k hk j hj, hpc]
    · simp
    · unfold Outside
      omega

/-- Stores of the compiled code elsewhere. -/
lemma scratch {a k : Nat} (h : Progress b l n mem) (hwithin : Within mem mem' a k) (hscratch : b.Scratch a k) :
    Progress b l n mem' := by
  obtain ⟨hend, -, hstart⟩ := b.heapStart_bounds
  have htop := b.heapTop_mem
  have hbottom := b.stackBottom_mem
  have hbound := h.bound
  have hstack := b.endAddr_le
  refine ⟨h.pid, h.empty, fun hpc => ?_, fun hpc => ?_, h.pos, h.bound, h.full, ?_⟩
  · rw [hwithin.readLE, h.heapTop hpc]
    unfold Binary.Scratch at hscratch
    unfold Apart
    omega
  · rw [hwithin.readLE, h.stackBottom hpc]
    unfold Binary.Scratch at hscratch
    unfold Apart
    omega
  · intro k' hk' j hj
    rw [hwithin, h.contents k' hk' j hj]
    unfold Binary.Scratch at hscratch
    unfold Outside Kernel.pagesize at *
    omega

end Progress

/-! ### Steps of the system -/

section Step

variable {s : System} {n : Fin 4 → Nat} {m' : Machine}

/-- What the kernel keeps for itself is not in a region. -/
lemma InRegion.outside {x a k : Nat} (h : InRegion i x) (ha : a + k ≤ S.kernelEnd) : Outside x a k := by
  have hlow := h.bounds.1
  have himage := S.image_le
  unfold kernelStackTop Kernel.pagesize procStartAddr at *
  exact Or.inr (by omega)

lemma InRegion.notEntry {x c : Nat} (h : InRegion i x) (hc : c < nproc) : ¬EntryArea S c x := by
  intro harea
  have hlow := h.bounds.1
  have hhigh := (harea.unprotected hc).image.2
  unfold kernelStackTop procStartAddr at *
  omega

lemma succ_lt_nproc (i : Fin 4) : i.val + 1 < nproc := by
  unfold nproc
  omega

lemma exists_user {m : Machine} {c : Nat} (h : User S.toProcLayout m c) (hsound : Sound S m.mem) :
    ∃ j : Fin 4, User S.toProcLayout m (j + 1) := by
  obtain ⟨hpos, hle⟩ := (hsound.runnable c h.lt).1 h.runnable
  obtain ⟨k, rfl⟩ : ∃ k, c = k + 1 := ⟨c - 1, by omega⟩
  exact ⟨⟨k, by omega⟩, h⟩

/-- Besides its region and `pages`, a step of process `i + 1` writes what entries write. -/
structure Step (S : SystemLayout) (i : Fin 4) (m m' : Machine) : Prop where
  halted : m'.halted = false
  user : ∃ c, User S.toProcLayout m' c
  displays : Displays S m'.mem
  frame : ∀ x, ¬EntryArea S (i + 1) x → ¬DisplayArea S x → ¬InRegion i x → Outside x S.pages npages →
    m'.mem x = m.mem x

lemma Step.image (h : Step S i s.machine m') {a k x : Nat} (hend : a + k ≤ S.kernelEnd)
    (hx : a ≤ x) (hlt : x < a + k) (hentry : ∀ x, EntryArea S (i + 1) x → Outside x a k)
    (hdisplay : ∀ x, DisplayArea S x → Outside x a k) (hpages : Apart S.pages npages a k) :
    m'.mem x = s.machine.mem x := by
  apply h.frame
  · intro harea
    have houtside := hentry x harea
    unfold Outside at houtside
    omega
  · intro harea
    have houtside := hdisplay x harea
    unfold Outside at houtside
    omega
  · intro hregion
    have houtside := hregion.outside hend
    unfold Outside at houtside
    omega
  · exact hpages.symm.outside hx hlt

lemma InRegion.notDisplay {x : Nat} (h : InRegion i x) : ¬DisplayArea S x :=
  fun harea => absurd h.bounds.1 (Nat.not_le.2 harea.unshared.2.2.2)

/-- The other regions are not written. -/
lemma Step.region {j : Fin 4} (h : Step S i s.machine m') (hne : j ≠ i) {x : Nat} (hx : InRegion j x) :
    m'.mem x = s.machine.mem x := by
  apply h.frame
  · exact hx.notEntry (succ_lt_nproc i)
  · exact hx.notDisplay
  · exact fun hregion => hne (hx.eq hregion)
  · exact hx.outside S.pages_le

lemma Step.sound (h : Step S i s.machine m') (hsound : Sound S s.machine.mem) : Sound S m'.mem := by
  have hend := S.ptable_le
  apply hsound.congr
  · intro j hj x hx hlt
    refine h.image (a := S.proc j) (k := procRegs) ?_ hx hlt (fun x hx => (hx.unprotected (succ_lt_nproc i)).header j hj) ?_ ?_
    · unfold ProcLayout.proc nproc procBytes procRegs regstateSize at *
      omega
    · intro x hx
      have houtside := hx.unshared.1
      unfold Outside ProcLayout.proc nproc procBytes procRegs regstateSize at *
      omega
    · have happart := S.pages_apart
      unfold Apart ProcLayout.proc nproc procBytes procRegs regstateSize at *
      omega
  · intro x hx hlt
    exact h.image S.tables_le hx hlt (fun x hx => (hx.unprotected (succ_lt_nproc i)).tables) (fun x hx => hx.unshared.2.2.1)
      S.apart_pages.2

/-- A step of process `i + 1` from heaps of `n` pages to heaps of `n'` pages. -/
structure Next (S : SystemLayout) (B : ∀ i, Binary i) (i : Fin 4) (s s' : System) (n n' : Fin 4 → Nat) : Prop where
  inv : Inv S B s' n'
  grows : n i ≤ n' i
  others : ∀ j, j ≠ i → n' j = n j
  region : ∀ j, j ≠ i → ∀ x, InRegion j x → s'.machine.mem x = s.machine.mem x

/-- The heap of process `i + 1` gets `k` pages. -/
lemma Inv.next {l' : Local} {k : Nat} (h : Inv S B s n) (hstep : Step S i s.machine m') (hk : n i ≤ k)
    (hpages : ∀ page, page < npages → page ≠ 1 →
      (m'.mem (S.pages + page) ≠ 0 ↔ s.machine.mem (S.pages + page) ≠ 0 ∨ (B i).Owns k page))
    (hprogress : Progress (B i) l' k m'.mem) :
    Next S B i s ⟨m', Function.update s.locals i l'⟩ n (Function.update n i k) := by
  have hprogress' : ∀ j, Progress (B j) (Function.update s.locals i l' j) (Function.update n i k j) m'.mem := by
    intro j
    by_cases heq : j = i
    · subst heq
      rwa [Function.update_self, Function.update_self]
    · rw [Function.update_of_ne heq, Function.update_of_ne heq]
      exact (h.progress j).congr fun x hx => hstep.region heq hx
  have hgrows : ∀ j, n j ≤ Function.update n i k j := by
    intro j
    by_cases heq : j = i
    · subst heq
      rwa [Function.update_self]
    · rw [Function.update_of_ne heq]
  have hused : ∀ page, page < npages → page ≠ 1 →
      (m'.mem (S.pages + page) ≠ 0 ↔ ∃ j, (B j).Owns (Function.update n i k j) page) := by
    intro page hpage hne
    rw [hpages page hpage hne, h.used page hpage hne]
    constructor
    · rintro (⟨j, howns⟩ | howns)
      · exact ⟨j, howns.mono (hgrows j)⟩
      · exact ⟨i, by rwa [Function.update_self]⟩
    · rintro ⟨j, howns⟩
      by_cases heq : j = i
      · subst heq
        rw [Function.update_self] at howns
        exact Or.inr howns
      · rw [Function.update_of_ne heq] at howns
        exact Or.inl ⟨j, howns⟩
  obtain ⟨c, hc⟩ := hstep.user
  exact ⟨⟨hstep.halted, exists_user hc (hstep.sound h.sound), hstep.sound h.sound, hstep.displays, hprogress', hused⟩,
    hgrows i, fun j hne => Function.update_of_ne hne k n, fun j hne x hx => hstep.region hne hx⟩

/-- A step by which no page is granted. -/
lemma Inv.keep {l' : Local} (h : Inv S B s n) (hstep : Step S i s.machine m')
    (hpages : ∀ page, page < npages → page ≠ 1 → m'.mem (S.pages + page) = s.machine.mem (S.pages + page))
    (hprogress : Progress (B i) l' (n i) m'.mem) : Next S B i s ⟨m', Function.update s.locals i l'⟩ n n := by
  have hnext := h.next hstep (Nat.le_refl (n i)) (fun page hpage hne => ?_) hprogress
  · rwa [Function.update_eq_self] at hnext
  · rw [hpages page hpage hne]
    exact ⟨Or.inl, fun hor => hor.elim id fun howns => (h.used page hpage hne).2 ⟨i, howns⟩⟩

/-! ### Actions -/

lemma not_outside_pages {page : Nat} (hpage : page < npages) : ¬Outside (S.pages + page) S.pages npages := by
  unfold Outside
  omega

lemma pages_notEntry {c page : Nat} (hc : c < nproc) (hpage : page < npages) : ¬EntryArea S c (S.pages + page) := by
  intro harea
  exact not_outside_pages hpage (harea.unprotected hc).pages

lemma pages_notDisplay {page : Nat} (hpage : page < npages) (hne : page ≠ 1) : ¬DisplayArea S (S.pages + page) :=
  fun harea => hne (harea.pages hpage rfl)

/-- The kernel runs a process again. -/
lemma Step.of_returned {changed : Nat → Prop} (h : Returned S s.machine m' (i + 1) changed)
    (hchanged : ∀ x, changed x → InRegion i x ∨ ¬Outside x S.pages npages) : Step S i s.machine m' where
  halted := h.halted
  user := h.user
  displays := Or.inr ⟨h.view, h.page⟩
  frame x hentry hdisplay hregion hpages :=
    h.frame x hentry hdisplay fun hin => (hchanged x hin).elim hregion fun hno => hno hpages

/-- Neither pages nor regions change. -/
lemma Inv.resumed {l' : Local} (h : Inv S B s n) (hreturned : Returned S s.machine m' (i + 1) fun _ => False)
    (hprogress : Progress (B i) l' (n i) s.machine.mem) : Next S B i s ⟨m', Function.update s.locals i l'⟩ n n := by
  have hstep : Step S i s.machine m' := Step.of_returned hreturned fun _ hno => hno.elim
  refine h.keep hstep (fun page hpage hne => ?_) (hprogress.congr fun x hx => ?_)
  · exact hreturned.frame _ (pages_notEntry (succ_lt_nproc i) hpage) (pages_notDisplay hpage hne) not_false
  · exact hreturned.frame x (hx.notEntry (succ_lt_nproc i)) hx.notDisplay not_false

variable (fuel) in
/-- A process writes to its region, or to the console. -/
lemma Inv.stored {l' : Local} {mem' : Nat → UInt8} {a k : Nat} (h : Inv S B s n)
    (hrun : User S.toProcLayout s.machine (i + 1)) (hwithin : Within s.machine.mem mem' a k)
    (hplace : (∀ x, a ≤ x → x < a + k → InRegion i x) ∨ (console ≤ a ∧ a + k ≤ console + consoleSize))
    (hprogress : Progress (B i) l' (n i) mem') :
    Next S B i s ⟨{ s.machine with mem := mem' }, Function.update s.locals i l'⟩ n n := by
  have himage := S.image_le
  have hpagesEnd := S.pages_le
  have havoids : S.Avoids a k := by
    rcases Nat.eq_zero_or_pos k with hzero | hpos
    · exact Or.inl hzero
    · rcases hplace with hregion | ⟨hlow, -⟩
      · have hlow := (hregion a (Nat.le_refl a) (by omega)).bounds.1
        unfold kernelStackTop Kernel.pagesize procStartAddr at *
        exact Or.inr (Or.inr (by omega))
      · unfold kernelStackTop Kernel.pagesize console at *
        exact Or.inr (Or.inr (by omega))
  have houtside : ∀ x, ¬InRegion i x → Outside x console consoleSize → Outside x a k := by
    intro x hx hconsole
    by_contra hin
    unfold Outside at hin hconsole
    rcases hplace with hregion | hcell
    · exact hx (hregion x (by omega) (by omega))
    · omega
  -- the kernel image is below the console
  have himage : ∀ x, x < S.kernelEnd → mem' x = s.machine.mem x := by
    intro x hx
    apply hwithin
    apply houtside
    · intro hregion
      have hlow := hregion.bounds.1
      unfold kernelStackTop Kernel.pagesize procStartAddr at *
      omega
    · unfold kernelStackTop Kernel.pagesize console at *
      exact Or.inl (by omega)
  have hview := S.view_le
  have hnext := S.nextAllocPa_le
  have hdisplays : Displays S mem' := by
    have hone : 1 < npages := by decide
    have hold := h.displays
    unfold Displays at *
    rwa [readLE_congr fun x _ hlt => himage x (by omega), readLE_congr fun x _ hlt => himage x (by omega),
      himage (S.pages + 1) (by omega)]
  refine h.keep ⟨h.halted, ⟨i + 1, hrun.sameTable (SameTable.of_avoids hwithin havoids)⟩, hdisplays, ?_⟩ ?_ hprogress
  · intro x _ hdisplay hregion _
    apply hwithin
    apply houtside x hregion
    unfold DisplayArea at hdisplay
    unfold Outside
    omega
  · exact fun page hpage _ => himage _ (by omega)

/-- Nothing is written. -/
lemma Inv.moved {l' : Local} (h : Inv S B s n) (hrun : User S.toProcLayout s.machine (i + 1))
    (hprogress : Progress (B i) l' (n i) s.machine.mem) : Next S B i s ⟨s.machine, Function.update s.locals i l'⟩ n n :=
  h.keep ⟨h.halted, ⟨i + 1, hrun⟩, h.displays, fun _ _ _ _ _ => rfl⟩ (fun _ _ _ => rfl) hprogress

/-! ### A step of a process -/

lemma call_word (ctx : Context) (number arg : Nat) (hnumber : number < 2 ^ 64) (harg : arg < 2 ^ 64) :
    (call ctx number arg).word .rax = number ∧ (call ctx number arg).word .rdi = arg :=
  ⟨(BitVec.toNat_ofNat _ _).trans (Nat.mod_eq_of_lt hnumber), (BitVec.toNat_ofNat _ _).trans (Nat.mod_eq_of_lt harg)⟩

lemma act_syscall (h : Inv S B s n) (d : Display) (ctx : Context) :
    s.act S fuel d (.syscall ctx) = s.machine.showSyscall S fuel d ctx := by
  unfold System.act Machine.showStep
  rw [if_neg (by rw [h.halted]; decide)]

lemma act_storeWord (h : Inv S B s n) (d : Display) (a k v : Nat) :
    s.act S fuel d (storeWord a k v) = { s.machine with mem := writeLE s.machine.mem a k v } := by
  unfold System.act Machine.showStep storeWord
  rw [if_neg (by rw [h.halted]; decide)]
  dsimp only
  rw [copy_map_range]
  rfl

lemma word_pid (i : Fin 4) : System.word (i + 1) = i + 1 := by
  unfold System.word
  rw [show ((i : Int) + 1) = ((i + 1 : Nat) : Int) from rfl, BitVec.ofInt_natCast, BitVec.toNat_ofNat, Nat.mod_eq_of_lt]
  have hi := i.isLt
  omega

/-- `sys_yield` resumes some process. -/
lemma yielded (h : Inv S B s n) (hrun : User S.toProcLayout s.machine (i + 1)) (hfuel : nproc ≤ fuel) (d : Display)
    (ctx : Context) {pc : Pc} (hprogress : Progress (B i) ⟨pc, (s.locals i).p⟩ (n i) s.machine.mem) :
    Next S B i s ⟨s.act S fuel d (.syscall (call ctx syscallYield (ctx.word .rdi))),
      Function.update s.locals i ⟨pc, (s.locals i).p⟩⟩ n n := by
  have hrax := (call_word ctx syscallYield (ctx.word .rdi) (by decide) (ctx.reg .rdi).isLt).1
  rw [act_syscall h]
  exact h.resumed (yield_returned hrun h.halted h.sound h.displays hfuel d hrax) hprogress

lemma getpid_step (h : Inv S B s n) (hrun : User S.toProcLayout s.machine (i + 1)) (hfuel : nproc ≤ fuel) (d : Display)
    (ctx : Context) (hpc : (s.locals i).pc = .getpid) (rsp r : Nat) :
    Next S B i s (s.advance S B fuel i rsp r ctx d) n n := by
  have hrax := (call_word ctx syscallGetpid (ctx.word .rdi) (by decide) (ctx.reg .rdi).isLt).1
  obtain ⟨hreturned, huser, hpid⟩ := getpid_returned hrun h.halted h.sound h.displays hfuel d hrax
  unfold System.advance
  dsimp only
  rw [hpc]
  dsimp only
  rw [act_syscall h, huser.current, hpid]
  exact h.resumed hreturned ((h.progress i).getpid hpc)

/-- No process has the page behind the heap of process `i + 1`. -/
lemma next_free (h : Inv S B s n) (hroom : (B i).heapStart + Kernel.pagesize * n i < stackStart i) :
    s.machine.mem (S.pages + ((B i).heapStart / Kernel.pagesize + n i)) = 0 := by
  have haligned := (B i).heapStart_mod
  have hstackStart := stackStart_eq i
  have hregionStart := regionStart_eq i
  obtain ⟨-, -, hstart⟩ := (B i).heapStart_bounds
  have hi := i.isLt
  have haddr : ((B i).heapStart / Kernel.pagesize + n i) * Kernel.pagesize = (B i).heapStart + Kernel.pagesize * n i := by
    unfold Kernel.pagesize at *
    omega
  have hpage : (B i).heapStart / Kernel.pagesize + n i < npages := by
    rw [npages_eq]
    unfold Kernel.pagesize at *
    omega
  have hne : (B i).heapStart / Kernel.pagesize + n i ≠ 1 := by
    unfold Kernel.pagesize at *
    omega
  by_contra hused
  obtain ⟨j, howns⟩ := (h.used _ hpage hne).1 hused
  have hregion := howns.inRegion (B j) (h.progress j).bound
  rw [haddr] at hregion
  have hown : InRegion i ((B i).heapStart + Kernel.pagesize * n i) := by
    unfold InRegion procSize
    omega
  obtain rfl := hregion.eq hown
  exact (B j).not_owns_next hroom howns

/-- The next page of the heap is granted. -/
lemma granted (h : Inv S B s n) (hrun : User S.toProcLayout s.machine (i + 1)) (hfuel : nproc ≤ fuel) (d : Display)
    (ctx : Context) (hpc : (s.locals i).pc = .alloc) (hroom : (B i).heapStart + Kernel.pagesize * n i < stackStart i) :
    Next S B i s ⟨s.act S fuel d (.syscall (call ctx syscallPageAllocNumber ((B i).heapStart + Kernel.pagesize * n i))),
      Function.update s.locals i ⟨.storePid, (s.locals i).p⟩⟩ n (Function.update n i (n i + 1)) := by
  have haligned := (B i).heapStart_mod
  have hstackStart := stackStart_eq i
  have hregionStart := regionStart_eq i
  have hfree := next_free h hroom
  obtain ⟨-, -, hstart⟩ := (B i).heapStart_bounds
  have hi := i.isLt
  have hpage : (B i).heapStart / Kernel.pagesize + n i < npages := by
    rw [npages_eq]
    unfold Kernel.pagesize at *
    omega
  have hdiv : ((B i).heapStart + Kernel.pagesize * n i) / Kernel.pagesize = (B i).heapStart / Kernel.pagesize + n i := by
    unfold Kernel.pagesize
    omega
  have hinside : ∀ x, (B i).heapStart + Kernel.pagesize * n i ≤ x →
      x < (B i).heapStart + Kernel.pagesize * n i + Kernel.pagesize → InRegion i x := by
    intro x hx hlt
    unfold InRegion procSize
    unfold Kernel.pagesize at *
    omega
  obtain ⟨hrax, hrdi⟩ := call_word ctx syscallPageAllocNumber ((B i).heapStart + Kernel.pagesize * n i)
    (by decide) (by unfold Kernel.pagesize at *; omega)
  obtain ⟨hreturned, hone, hzero⟩ := pageAlloc_returned hrun h.halted h.sound h.displays hfuel d hrax
    (by rw [hrdi]; unfold procStartAddr; omega) (by rw [hrdi]; unfold Kernel.pagesize memsizePhysical at *; omega)
    (by rw [hrdi, hdiv]; exact hfree)
  rw [hrdi, hdiv] at hreturned hone
  rw [hrdi] at hzero
  rw [act_syscall h]
  generalize s.machine.showSyscall S fuel d (call ctx syscallPageAllocNumber ((B i).heapStart + Kernel.pagesize * n i)) =
    m' at *
  have hstep : Step S i s.machine m' := by
    apply Step.of_returned hreturned
    rintro x (rfl | ⟨hx, hlt⟩)
    · exact Or.inr (not_outside_pages hpage)
    · exact Or.inl (hinside x hx hlt)
  refine h.next hstep (Nat.le_succ _) ?_ ((h.progress i).grant hpc hroom hzero ?_)
  · intro page hlt hne
    by_cases heq : page = (B i).heapStart / Kernel.pagesize + n i
    · subst heq
      rw [hone]
      exact iff_of_true (by decide) (Or.inr (Or.inr ⟨Nat.le_add_right _ _, Nat.lt_succ_self _⟩))
    · rw [hreturned.frame _ (pages_notEntry (succ_lt_nproc i) hlt) (pages_notDisplay hlt hne)]
      · refine ⟨Or.inl, fun hor => hor.elim id fun howns => (h.used page hlt hne).2 ⟨i, ?_⟩⟩
        exact howns.imp_right fun hheap => ⟨hheap.1, by omega⟩
      · rintro (hsame | ⟨hlow, -⟩)
        · exact heq (Nat.add_left_cancel hsame)
        · have hpages := S.pages_le
          have himage := S.image_le
          unfold kernelStackTop Kernel.pagesize at *
          omega
  · intro x hx houtside
    apply hreturned.frame x (hx.notEntry (succ_lt_nproc i)) hx.notDisplay
    rintro (rfl | ⟨hlow, hlt⟩)
    · exact not_outside_pages hpage (hx.outside S.pages_le)
    · unfold Outside at houtside
      omega

/-- The next page is granted, unless the heap has reached the stack. -/
lemma alloc_step (h : Inv S B s n) (hrun : User S.toProcLayout s.machine (i + 1)) (hfuel : nproc ≤ fuel) (d : Display)
    (ctx : Context) (hpc : (s.locals i).pc = .alloc) (rsp r : Nat) :
    ∃ n', Next S B i s (s.advance S B fuel i rsp r ctx d) n n' ∧ (¬(B i).Full (n i) → n' i = n i + 1) := by
  have hprogress := h.progress i
  have htop : readLE s.machine.mem (B i).heapTop 8 = (B i).heapStart + Kernel.pagesize * n i := by
    rw [hprogress.heapTop (by rw [hpc]; rfl), hpc]
    rfl
  have hbottom := hprogress.stackBottom (by rw [hpc]; rfl)
  unfold System.advance
  dsimp only
  rw [hpc]
  dsimp only
  rw [htop, hbottom]
  by_cases hfull : (B i).heapStart + Kernel.pagesize * n i = stackStart i
  · -- the heap has reached the stack
    have hidle : Progress (B i) ⟨.idle, (s.locals i).p⟩ (n i) s.machine.mem :=
      hprogress.goto hpc (by decide) rfl rfl rfl (by decide) fun _ => hfull
    rw [if_pos hfull]
    exact ⟨n, h.moved hrun hidle, fun hnot => absurd hfull hnot⟩
  · have hroom := Nat.lt_of_le_of_ne hprogress.bound hfull
    have hdiv : ((B i).heapStart + Kernel.pagesize * n i) / Kernel.pagesize = (B i).heapStart / Kernel.pagesize + n i := by
      unfold Kernel.pagesize
      omega
    have hunused : State.used S.toLayout ⟨s.machine.mem, fun _ => ⟨false, 0, 0⟩, []⟩
        (((B i).heapStart + Kernel.pagesize * n i) / Kernel.pagesize) = false := by
      unfold State.used
      dsimp only
      rw [hdiv, next_free h hroom]
      rfl
    have hresult : ((⟨s.machine.mem, fun _ => ⟨false, 0, 0⟩, []⟩ : State).syscallPageAlloc S.toLayout
        ((B i).heapStart + Kernel.pagesize * n i)).map Prod.snd = some 0 := by
      unfold State.syscallPageAlloc
      rw [if_neg (by rw [hunused]; decide)]
      rfl
    rw [if_neg hfull, hresult]
    exact ⟨_, granted h hrun hfuel d ctx hpc hroom, fun _ => Function.update_self ..⟩

/-- Only `sys_page_alloc` changes the heaps. -/
lemma other_step (h : Inv S B s n) (hrun : User S.toProcLayout s.machine (i + 1)) (hfuel : nproc ≤ fuel) (d : Display)
    (ctx : Context) {rsp r : Nat} (hlow : stackStart i < rsp) (hhigh : rsp ≤ stackStart i + Kernel.pagesize)
    (hpc : (s.locals i).pc ≠ .alloc) : Next S B i s (s.advance S B fuel i rsp r ctx d) n n := by
  have hprogress := h.progress i
  have hend := (B i).endAddr_le
  have hregion := regionStart_eq i
  have hstack := stackStart_eq i
  have htopMem := (B i).heapTop_mem
  have hbottomMem := (B i).stackBottom_mem
  obtain ⟨-, -, hstart⟩ := (B i).heapStart_bounds
  have hbound := hprogress.bound
  have hinside : ∀ x, regionStart i ≤ x → x < stackStart i → InRegion i x := by
    intro x hx hlt
    unfold InRegion procSize
    omega
  cases hcase : (s.locals i).pc with
  | getpid => exact getpid_step h hrun hfuel d ctx hcase rsp r
  | alloc => exact absurd hcase hpc
  | setHeapTop =>
    unfold System.advance
    dsimp only
    rw [hcase]
    dsimp only
    rw [act_storeWord h]
    exact h.stored hrun (within_writeLE _ _ _ _) (Or.inl fun x hx hlt => hinside x (by omega) (by omega))
      (hprogress.setHeapTop hcase)
  | setStackBottom =>
    unfold System.advance
    dsimp only
    rw [hcase]
    dsimp only
    rw [act_storeWord h]
    exact h.stored hrun (within_writeLE _ _ _ _) (Or.inl fun x hx hlt => hinside x (by omega) (by omega))
      (hprogress.setStackBottom hcase hlow hhigh)
  | loop =>
    unfold System.advance
    dsimp only
    rw [hcase]
    dsimp only
    split
    · exact h.moved hrun (hprogress.goto hcase (by decide) rfl rfl rfl (by decide) nofun)
    · exact h.moved hrun (hprogress.goto hcase (by decide) rfl rfl rfl (by decide) nofun)
  | storePid =>
    have htop := hprogress.heapTop (by rw [hcase]; rfl)
    have hpos := hprogress.pos (by rw [hcase]; rfl)
    rw [hcase, if_pos (by rfl)] at htop
    unfold System.advance
    dsimp only
    rw [hcase]
    dsimp only
    rw [act_storeWord h, htop, hprogress.pid (by rw [hcase]; decide), word_pid]
    refine h.stored hrun (within_writeLE _ _ _ _) (Or.inl fun x hx hlt => hinside x (by omega) ?_) ?_
    · unfold Kernel.pagesize at *
      omega
    · have hstored := hprogress.storePid hcase
      rwa [hprogress.pid (by rw [hcase]; decide)] at hstored
  | showPid =>
    unfold System.advance
    dsimp only
    rw [hcase]
    dsimp only
    rw [act_storeWord h]
    have hwithin := within_writeLE s.machine.mem cell 2 (System.word (s.locals i).p)
    have hmoved : Progress (B i) ⟨.advanceHeap, (s.locals i).p⟩ (n i) s.machine.mem :=
      hprogress.goto hcase (by decide) rfl rfl rfl (by decide) nofun
    refine h.stored hrun hwithin (Or.inr (by decide)) (hmoved.congr fun x hx => hwithin x ?_)
    -- the console is below the regions
    have hlow := hx.bounds.1
    unfold procStartAddr at hlow
    unfold Outside cell console
    omega
  | advanceHeap =>
    have htop := hprogress.heapTop (by rw [hcase]; rfl)
    rw [hcase, if_pos (by rfl)] at htop
    unfold System.advance
    dsimp only
    rw [hcase]
    dsimp only
    rw [act_storeWord h, htop]
    exact h.stored hrun (within_writeLE _ _ _ _) (Or.inl fun x hx hlt => hinside x (by omega) (by omega))
      (hprogress.advanceHeap hcase)
  | yield =>
    unfold System.advance
    dsimp only
    rw [hcase]
    exact yielded h hrun hfuel d ctx (hprogress.goto hcase (by decide) rfl rfl rfl (by decide) nofun)
  | idle =>
    unfold System.advance
    dsimp only
    rw [hcase]
    exact yielded h hrun hfuel d ctx (hprogress.goto hcase (by decide) rfl rfl rfl (by decide) fun _ => hprogress.full hcase)

lemma timer_step (h : Inv S B s n) (hrun : User S.toProcLayout s.machine (i + 1)) (hfuel : nproc ≤ fuel) (ctx : Context)
    (d : Display) : Next S B i s { s with machine := s.act S fuel d (.exception timerInterrupt 0 ctx) } n n := by
  have hreturned := timer_returned hrun h.halted h.sound h.displays hfuel d 0 ctx
  have hact : s.act S fuel d (.exception timerInterrupt 0 ctx) =
      s.machine.showException S fuel d 32 (0 : BitVec 64).toNat ctx := by
    unfold System.act Machine.showStep
    rw [if_neg (by rw [h.halted]; decide)]
    rfl
  rw [← hact] at hreturned
  have hnext := h.resumed hreturned (h.progress i)
  rwa [Function.update_eq_self] at hnext

lemma scratch_step (h : Inv S B s n) (hrun : User S.toProcLayout s.machine (i + 1)) {a : Nat} {data : List UInt8}
    (hscratch : (B i).Scratch a data.length) :
    Next S B i s { s with machine := { s.machine with mem := copy s.machine.mem a data } } n n := by
  have hwithin := within_copy s.machine.mem a data
  have hnext := h.stored hrun hwithin ?_ ((h.progress i).scratch hwithin hscratch)
  · rwa [Function.update_eq_self] at hnext
  · left
    intro x hx hlt
    have hend := (B i).endAddr_le
    have hregion := regionStart_eq i
    have hstack := stackStart_eq i
    unfold Binary.Scratch at hscratch
    unfold InRegion procSize
    unfold Kernel.pagesize at hscratch
    omega

/-! ### Steps and runs of the system -/

lemma running_of_user (h : User S.toProcLayout s.machine (i + 1)) : s.running S = some i := by
  have hfound : (s.running S).isSome = true :=
    List.find?_isSome.2 ⟨i, List.mem_finRange i, by rw [h.running]; exact beq_self_eq_true _⟩
  obtain ⟨j, hj⟩ := Option.isSome_iff_exists.1 hfound
  have heq := List.find?_some hj
  rw [beq_iff_eq, h.running] at heq
  rw [hj, Fin.ext (Nat.succ.inj (S.toProcLayout.proc_injective heq))]

lemma Inv.isSome_running (h : Inv S B s n) : (s.running S).isSome = true := by
  obtain ⟨i, hrun⟩ := h.user
  rw [running_of_user hrun]
  rfl

lemma system_step {input : Input} {s' : System} (h : Inv S B s n) (hfuel : nproc ≤ fuel)
    (hstep : s.step S B fuel input = some s') :
    ∃ i n', s.running S = some i ∧ Next S B i s s' n n' ∧ (s.Asks i input → ¬(B i).Full (n i) → n' i = n i + 1) := by
  obtain ⟨i, hrun⟩ := h.user
  have hrunning : s.running S = some i := running_of_user hrun
  refine ⟨i, ?_⟩
  unfold System.step at hstep
  rw [if_neg (by rw [h.halted]; decide), hrunning] at hstep
  cases input with
  | run rsp r ctx d =>
    dsimp only at hstep
    rw [Option.bind_some, Option.ite_none_right_eq_some, Option.some.injEq] at hstep
    obtain ⟨⟨-, hlow, hhigh⟩, rfl⟩ := hstep
    by_cases hpc : (s.locals i).pc = .alloc
    · obtain ⟨n', hnext, hgrants⟩ := alloc_step h hrun hfuel d ctx hpc rsp r
      exact ⟨n', hrunning, hnext, fun _ => hgrants⟩
    · exact ⟨n, hrunning, other_step h hrun hfuel d ctx hlow hhigh hpc, fun hasks => absurd hasks.1 hpc⟩
  | scratch a data =>
    dsimp only at hstep
    rw [Option.bind_some, Option.ite_none_right_eq_some, Option.some.injEq] at hstep
    obtain ⟨hscratch, rfl⟩ := hstep
    exact ⟨n, hrunning, scratch_step h hrun hscratch, fun hasks => absurd hasks.2 (by simp [Input.isRun])⟩
  | timer ctx d =>
    rw [Option.some.injEq] at hstep
    obtain rfl := hstep
    exact ⟨n, hrunning, timer_step h hrun hfuel ctx d, fun hasks => absurd hasks.2 (by simp [Input.isRun])⟩

/-- Process `i + 1` runs, and is at `pc`. -/
structure At (S : SystemLayout) (B : ∀ i, Binary i) (s : System) (n : Fin 4 → Nat) (i : Fin 4) (pc : Pc) : Prop where
  inv : Inv S B s n
  running : s.machine.running = S.proc (i + 1)
  pc_eq : (s.locals i).pc = pc

lemma At.user {pc : Pc} (h : At S B s n i pc) : User S.toProcLayout s.machine (i + 1) := by
  obtain ⟨j, hj⟩ := h.inv.user
  obtain rfl := Fin.ext (Nat.succ.inj (S.toProcLayout.proc_injective (hj.running.symm.trans h.running)))
  exact hj

variable (fuel) in
lemma At.step_run {pc : Pc} {rsp r : Nat} (h : At S B s n i pc) (hlow : stackStart i < rsp)
    (hhigh : rsp ≤ stackStart i + Kernel.pagesize) (hr : r < allocSlowdown) (ctx : Context) (d : Display) :
    s.step S B fuel (.run rsp r ctx d) = some (s.advance S B fuel i rsp r ctx d) := by
  unfold System.step
  rw [if_neg (by rw [h.inv.halted]; decide), running_of_user h.user]
  dsimp only
  rw [Option.bind_some, if_pos ⟨hr, hlow, hhigh⟩]

/-- The way from the start to the first `sys_page_alloc`. -/
def opening : List (Pc × Pc) :=
  [(.getpid, .setHeapTop), (.setHeapTop, .setStackBottom), (.setStackBottom, .loop), (.loop, .alloc)]

/-- When `rand` returns 0, the process goes on to its first `sys_page_alloc`. -/
lemma opening_step {pc pc' : Pc} (h : At S B s n i pc) (hfuel : nproc ≤ fuel) (hopening : (pc, pc') ∈ opening)
    {rsp : Nat} (hlow : stackStart i < rsp) (hhigh : rsp ≤ stackStart i + Kernel.pagesize) (ctx : Context) (d : Display) :
    ∃ s', s.step S B fuel (.run rsp 0 ctx d) = some s' ∧ At S B s' n i pc' := by
  have hrun := h.user
  have hpc := h.pc_eq
  have hstep := h.step_run fuel hlow hhigh (by decide : 0 < allocSlowdown) ctx d
  have hne : (s.locals i).pc ≠ .alloc := by
    rw [hpc]
    rintro rfl
    simp [opening] at hopening
  suffices hnext : (s.advance S B fuel i rsp 0 ctx d).machine.running = S.proc (i + 1) ∧
      ((s.advance S B fuel i rsp 0 ctx d).locals i).pc = pc' from
    ⟨_, hstep, (other_step h.inv hrun hfuel d ctx hlow hhigh hne).inv, hnext.1, hnext.2⟩
  unfold opening at hopening
  simp only [List.mem_cons, Prod.mk.injEq, List.not_mem_nil, or_false] at hopening
  unfold System.advance
  dsimp only
  rw [hpc]
  rcases hopening with ⟨rfl, rfl⟩ | ⟨rfl, rfl⟩ | ⟨rfl, rfl⟩ | ⟨rfl, rfl⟩
  · have hrax := (call_word ctx syscallGetpid (ctx.word .rdi) (by decide) (ctx.reg .rdi).isLt).1
    obtain ⟨-, huser, -⟩ := getpid_returned hrun h.inv.halted h.inv.sound h.inv.displays hfuel d hrax
    dsimp only
    rw [act_syscall h.inv, Function.update_self]
    exact ⟨huser.running, rfl⟩
  · dsimp only
    rw [act_storeWord h.inv, Function.update_self]
    exact ⟨h.running, rfl⟩
  · dsimp only
    rw [act_storeWord h.inv, Function.update_self]
    exact ⟨h.running, rfl⟩
  · have hpid := (h.inv.progress i).pid (by rw [hpc]; decide)
    dsimp only
    rw [Function.update_self, if_pos (by rw [hpid]; omega)]
    exact ⟨h.running, rfl⟩

lemma system_run {inputs : List Input} {s' : System} (h : Inv S B s n) (hfuel : nproc ≤ fuel)
    (hrun : s.run S B fuel inputs = some s') : ∃ n', Inv S B s' n' := by
  induction inputs generalizing s n with
  | nil =>
    cases hrun
    exact ⟨n, h⟩
  | cons input inputs ih =>
    unfold System.run at hrun
    rw [Option.bind_eq_some_iff] at hrun
    obtain ⟨s₁, hstep, hrest⟩ := hrun
    obtain ⟨i, n₁, -, hnext, -⟩ := system_step h hfuel hstep
    exact ih hnext.inv hrest

end Step

end Cs300Projects.WeensyOS.Allocator
