import Cs300Projects.Lib.RoundRobin
import Cs300Projects.WeensyOS.KernelPages
import Cs300Projects.WeensyOS.Processes

/-!
# What the kernel writes leaves of the process table

The members of descriptors that a write of the kernel changes, and the choice of `schedule`.
-/

namespace Cs300Projects.WeensyOS.Processes

open Kernel

variable {L : ProcLayout} {mem mem' : Nat → UInt8}

/-! ### Reading the table -/

/-- The table and `current` hold the same numbers. -/
def SameTable (L : ProcLayout) (mem mem' : Nat → UInt8) : Prop :=
  (∀ a n, L.ptable ≤ a → a + n ≤ L.ptable + nproc * procBytes → Bytes.readLE mem' a n = Bytes.readLE mem a n) ∧
    Bytes.readLE mem' L.current 8 = Bytes.readLE mem L.current 8

lemma SameTable.refl (L : ProcLayout) (mem : Nat → UInt8) : SameTable L mem mem :=
  ⟨fun _ _ _ _ => rfl, rfl⟩

lemma SameTable.trans {mem'' : Nat → UInt8} (h : SameTable L mem mem') (h' : SameTable L mem' mem'') :
    SameTable L mem mem'' :=
  ⟨fun a n ha hn => (h'.1 a n ha hn).trans (h.1 a n ha hn), h'.2.trans h.2⟩

lemma SameTable.of_within {b k : Nat} (h : Bytes.Within mem mem' b k)
    (htable : Bytes.Apart L.ptable (nproc * procBytes) b k) (hcurrent : Bytes.Apart L.current 8 b k) :
    SameTable L mem mem' := by
  constructor
  · intro a n ha hn
    apply h.readLE
    unfold Bytes.Apart at *
    omega
  · exact h.readLE hcurrent

lemma SameTable.of_avoids {b k : Nat} (h : Bytes.Within mem mem' b k) (havoids : L.Avoids b k) :
    SameTable L mem mem' := by
  have hptable := L.le_ptable
  have hptableEnd := L.ptable_le
  have hcurrent := L.le_current
  have hcurrentEnd := L.current_le
  unfold Layout.Avoids at havoids
  rcases Nat.eq_zero_or_pos k with rfl | hk
  · have hsame : mem' = mem := by
      funext x
      apply h
      unfold Bytes.Outside
      omega
    rw [hsame]
    exact SameTable.refl L mem
  · apply SameTable.of_within h
    · unfold Bytes.Apart
      omega
    · unfold Bytes.Apart
      omega

lemma sameTable_pushException (mem : Nat → UInt8) (num err : Nat) (ctx : Context) :
    SameTable L mem (pushException mem num err ctx) := by
  apply SameTable.of_avoids (b := frame) (k := regstateSize)
  · exact fun x hx => pushException_outside mem num err ctx hx
  · have himage := L.image_le
    refine Or.inr (Or.inr (Nat.le_trans himage ?_))
    decide

lemma sameTable_pushSyscall (mem : Nat → UInt8) (ctx : Context) : SameTable L mem (pushSyscall mem ctx) := by
  apply SameTable.of_avoids (b := frame) (k := regstateSize)
  · exact fun x hx => pushSyscall_outside mem ctx hx
  · have himage := L.image_le
    refine Or.inr (Or.inr (Nat.le_trans himage ?_))
    decide

lemma sameTable_claim (s : State) {page : Nat} (hpage : page < npages) :
    SameTable L s.mem (s.claim L.toLayout page).mem := by
  have htable := L.pages_apart
  have hcurrent := L.pages_current
  apply SameTable.of_within (Bytes.within_fill s.mem (L.pages + page) 1 1)
  · unfold Bytes.Apart at *
    omega
  · unfold Bytes.Apart at *
    omega

lemma ProcLayout.entry_natCast (L : ProcLayout) (pid : Nat) : L.entry pid = L.proc pid := by
  unfold ProcLayout.entry ProcLayout.proc
  omega

lemma ProcLayout.proc_injective (L : ProcLayout) {i j : Nat} (h : L.proc i = L.proc j) : i = j := by
  unfold ProcLayout.proc procBytes regstateSize at h
  omega

lemma ProcLayout.proc_lt (L : ProcLayout) {i : Nat} (hi : i < nproc) : L.proc i < 256 ^ 8 := by
  have himage := L.image_le
  have hend := L.ptable_le
  unfold ProcLayout.proc nproc procBytes regstateSize kernelStackTop Kernel.pagesize at *
  omega

lemma ProcLayout.apart_of_ne (L : ProcLayout) {i j b k b' k' : Nat} (hne : i ≠ j) (hb : b + k ≤ procBytes)
    (hb' : b' + k' ≤ procBytes) : Bytes.Apart (L.proc i + b) k (L.proc j + b') k' := by
  unfold ProcLayout.proc procBytes regstateSize Bytes.Apart at *
  omega

lemma ProcLayout.apart_current (L : ProcLayout) {i b k : Nat} (hi : i < nproc) (hb : b + k ≤ procBytes) :
    Bytes.Apart (L.proc i + b) k L.current 8 := by
  have hcurrent := L.current_apart
  unfold ProcLayout.proc nproc procBytes regstateSize Bytes.Apart at *
  omega

lemma Reg.slot_lt (r : Reg) : 8 * r.slot + 8 ≤ regstateSize := by
  cases r <;> decide

lemma popRegs_congr {a b : Nat} (h : ∀ r : Reg, Bytes.readLE mem' (a + 8 * r.slot) 8 =
    Bytes.readLE mem (b + 8 * r.slot) 8) : popRegs mem' a = popRegs mem b := by
  funext r
  rw [popRegs_eq, popRegs_eq, h r]

/-! ### The members of a descriptor -/

/-- What the kernel keeps of process `i`. -/
structure Descriptor where
  pid : Nat
  state : Nat
  regs : Reg → BitVec 64

def descriptor (L : ProcLayout) (mem : Nat → UInt8) (i : Nat) : Descriptor where
  pid := Bytes.readLE mem (L.proc i + procPid) 4
  state := readState mem (L.proc i)
  regs := popRegs mem (L.proc i + procRegs)

lemma descriptor_congr {i j : Nat}
    (h : ∀ b k, b + k ≤ procBytes → Bytes.readLE mem' (L.proc i + b) k = Bytes.readLE mem (L.proc j + b) k) :
    descriptor L mem' i = descriptor L mem j := by
  have hpid := h procPid 4 (by decide)
  have hstate := h procState 4 (by decide)
  have hregs : popRegs mem' (L.proc i + procRegs) = popRegs mem (L.proc j + procRegs) := by
    apply popRegs_congr
    intro r
    rw [Nat.add_assoc, Nat.add_assoc]
    have hslot := r.slot_lt
    apply h
    unfold procBytes procRegs
    omega
  unfold descriptor readState
  rw [hpid, hstate, hregs]

lemma SameTable.descriptor (h : SameTable L mem mem') {i : Nat} (hi : i < nproc) :
    descriptor L mem' i = descriptor L mem i := by
  apply descriptor_congr
  intro b k hb
  apply h.1
  · unfold ProcLayout.proc
    omega
  · unfold ProcLayout.proc nproc procBytes regstateSize at *
    omega

lemma descriptor_of_within {i j b k : Nat} (h : Bytes.Within mem mem' (L.proc j + b) k) (hb : b + k ≤ procBytes)
    (hne : i ≠ j) : descriptor L mem' i = descriptor L mem i :=
  descriptor_congr fun _ _ hb' => h.readLE (L.apart_of_ne hne hb' hb)

lemma header_of_within {j b k : Nat} (h : Bytes.Within mem mem' (L.proc j + procRegs + b) k)
    (hb : procRegs + b + k ≤ procBytes) (i : Nat) :
    (descriptor L mem' i).pid = (descriptor L mem i).pid ∧ (descriptor L mem' i).state = (descriptor L mem i).state := by
  by_cases heq : i = j
  · subst heq
    constructor
    · apply h.readLE
      unfold Bytes.Apart procPid procRegs
      omega
    · apply h.readLE
      unfold Bytes.Apart procState procRegs
      omega
  · rw [Nat.add_assoc] at h
    rw [descriptor_of_within h hb heq]
    exact ⟨rfl, rfl⟩

lemma descriptor_of_within_current {i : Nat} (h : Bytes.Within mem mem' L.current 8) (hi : i < nproc) :
    descriptor L mem' i = descriptor L mem i :=
  descriptor_congr fun _ _ hb => h.readLE (L.apart_current hi hb)

lemma current_of_within {j b k : Nat} (h : Bytes.Within mem mem' (L.proc j + b) k) (hj : j < nproc)
    (hb : b + k ≤ procBytes) : Bytes.readLE mem' L.current 8 = Bytes.readLE mem L.current 8 := by
  apply h.readLE
  have hapart := L.apart_current hj hb
  unfold Bytes.Apart at *
  omega

/-! ### The choice of `schedule` -/

/-- A process that `schedule` may choose. -/
def Runnable (L : ProcLayout) (mem : Nat → UInt8) (i : Nat) : Prop := (descriptor L mem i).state = pRunnable

lemma scheduleRound_done {c : Nat} (h : Runnable L mem ((c + 1) % nproc)) :
    scheduleRound L mem (c : Int) = .done (L.proc ((c + 1) % nproc)) := by
  have hpid : ((c : Int) + 1).tmod nproc = ((c + 1) % nproc : Nat) := rfl
  unfold scheduleRound
  dsimp only
  rw [hpid, L.entry_natCast]
  exact if_pos h

lemma scheduleRound_next {c : Nat} (h : ¬ Runnable L mem ((c + 1) % nproc)) :
    scheduleRound L mem (c : Int) = .next (((c + 1) % nproc : Nat) : Int) := by
  have hpid : ((c : Int) + 1).tmod nproc = ((c + 1) % nproc : Nat) := rfl
  unfold scheduleRound
  dsimp only
  rw [hpid, L.entry_natCast]
  exact if_neg h

/-- The process that is chosen is the first runnable one after `c`. -/
lemma schedule_first {fuel c p : Nat} (hc : c < nproc)
    (h : Loop.run (scheduleRound L mem) fuel (c : Int) = some p) :
    ∃ j, RoundRobin.First nproc (Runnable L mem) c j ∧ p = L.proc j := by
  induction fuel generalizing c with
  | zero => cases h
  | succ fuel ih =>
    by_cases hready : Runnable L mem ((c + 1) % nproc)
    · rw [Loop.run_done _ (scheduleRound_done hready), Option.some.injEq] at h
      exact ⟨_, RoundRobin.First.of_succ hc hready, h.symm⟩
    · rw [Loop.run_next _ (scheduleRound_next hready)] at h
      obtain ⟨j, hfirst, hp⟩ := ih (Nat.mod_lt _ (by decide)) h
      exact ⟨j, hfirst.skip hc hready, hp⟩

/-- As long as a process is runnable, `schedule` finds one in a turn. -/
lemma schedule_total {fuel c i : Nat} (hc : c < nproc) (hi : i < nproc) (hready : Runnable L mem i)
    (hfuel : RoundRobin.distance nproc c i ≤ fuel) :
    ∃ p, Loop.run (scheduleRound L mem) fuel (c : Int) = some p := by
  induction fuel generalizing c with
  | zero => exact absurd (Nat.le_zero.1 hfuel) (Nat.ne_of_gt (RoundRobin.distance_pos hc))
  | succ fuel ih =>
    by_cases hnext : Runnable L mem ((c + 1) % nproc)
    · exact ⟨_, Loop.run_done _ (scheduleRound_done hnext) fuel⟩
    · have hne : (c + 1) % nproc ≠ i := fun heq => hnext (heq ▸ hready)
      have hcloser := RoundRobin.distance_succ hc hi hne
      rw [Loop.run_next _ (scheduleRound_next hnext)]
      exact ih (Nat.mod_lt _ (by decide)) (by omega)

end Cs300Projects.WeensyOS.Processes
