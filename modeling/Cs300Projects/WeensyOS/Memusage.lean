import Cs300Projects.WeensyOS.PtiterVisits
import Cs300Projects.WeensyOS.VmiterRange
import Cs300Projects.WeensyOS.Processes

/-!
# The memory viewer's map of physical memory

The class `memusage` of `k-memviewer.cc`: an array of flags for the physical pages below `maxpa`, which
`refresh` calculates from the page tables of the kernel and of the processes. The array lies in a page
from `kalloc`, which is no page table; it is kept beside the memory that the iterators read.
-/

namespace Cs300Projects.WeensyOS

namespace Memusage

/-- Physical addresses in the range [0, `maxpa`) are tracked. -/
def maxpa : Nat := 1024 * Kernel.pagesize

/-- Kernel-restricted memory. -/
def fKernel : BitVec 32 := 1#32

/-- User-accessible memory. -/
def fUser : BitVec 32 := 2#32

/-- Memory associated with the process `pid`. -/
def fProcess (pid : Int) : BitVec 32 :=
  if 30 ≤ pid then 2#32 <<< 31
  else if 1 ≤ pid then 2#32 <<< pid.toNat
  else 0#32

/-- The array `v_`, by the number of the page. -/
abbrev Marks := Nat → BitVec 32

/-- Adds `flags` to the page containing `pa`, which may lie behind the array. -/
def mark (v : Marks) (pa : Word) (flags : BitVec 32) : Marks :=
  if pa.toNat < maxpa then
    Function.update v (pa.toNat / Kernel.pagesize) (v (pa.toNat / Kernel.pagesize) ||| flags)
  else v

/-- What `refresh` reads of a process descriptor. A null page table is `none`. -/
structure ProcInfo where
  state : Nat
  pagetable : Option PagePtr

variable (fuel : Nat) (m : Memory) (kernelPagetable : PagePtr)

/-- `for (ptiter it(pt); it.active(); it.next()) mark(it.pa(), flags)`, and the mark of the root. -/
def markTables (pt : PagePtr) (flags : BitVec 32) (v : Marks) : Option Marks :=
  (Ptiter.forEach fuel m pt 0#64).map fun (visits, _) =>
    mark (visits.foldl (fun v it => mark v (it.pa m) flags) v) pt.addr flags

/-- What `select` accepts is passed page by page, the rest is skipped range by range. -/
def scanStep (select : Vmiter → Bool) (m : Memory) (it : Vmiter) : Except Stop Vmiter :=
  if select it then it.next m else it.nextRange m

/-- `for (vmiter it(pt); it.low(); )`: what `select` accepts is marked. -/
def scanLow (select : Vmiter → Bool) (flags : Word → BitVec 32) (pt : PagePtr) (v : Marks) :
    Option (Except Stop Marks) :=
  (Vmiter.lowLoop fuel m pt (scanStep select)).map
    (Except.map fun (visited, _) =>
      visited.foldl (fun v it => if select it then mark v (it.pa m) (flags (it.pa m)) else v) v)

/-- The page tables of a process and the pages that it can access. -/
def markProcess (pid : Nat) (pt : PagePtr) (v : Marks) : Option (Except Stop Marks) :=
  (markTables fuel m pt (fKernel ||| fProcess pid) v).bind
    (scanLow fuel m (Vmiter.user m) (fun _ => fUser ||| fProcess pid) pt)

/-- The page table of a process that has one of its own. -/
def ProcInfo.ownPagetable (p : ProcInfo) : Option PagePtr :=
  p.pagetable.filter fun pt => p.state ≠ Processes.pFree ∧ pt ≠ kernelPagetable

/-- The loop over the process table, with the variable `any`. -/
def markProcesses (ptable : Nat → ProcInfo) : List Nat → Bool → Marks → Option (Except Stop (Bool × Marks))
  | [], any, v => some (.ok (any, v))
  | pid :: pids, any, v =>
    match (ptable pid).ownPagetable kernelPagetable with
    | none => markProcesses ptable pids any v
    | some pt =>
      match markProcess fuel m pid pt v with
      | none => none
      | some (.error e) => some (.error e)
      | some (.ok v) => markProcesses ptable pids true v

/-- The owner of a physical page when all processes live in the kernel's page table. -/
def ownerFlags (pa : Word) : BitVec 32 :=
  let owner : BitVec 32 := ((pa - BitVec.ofNat 64 Kernel.procStartAddr) / 0x40000#64).setWidth 32
  fUser ||| fProcess (owner + 1#32).toInt

/-- `used` tells for a page whether `pages[page].used()`. -/
def accessible (used : Nat → Bool) (it : Vmiter) : Bool :=
  it.user m && decide ((it.pa m).toNat < Kernel.memsizePhysical) && used ((it.pa m).toNat / Kernel.pagesize)

/-- The page of the array and its contents. `kalloc` is what a call of `kalloc(PAGESIZE)` returns. -/
def refresh (ptable : Nat → ProcInfo) (used : Nat → Bool) (page kalloc : Option PagePtr) :
    Option (Except Stop (PagePtr × Marks)) :=
  match page.or kalloc with
  | none => some (.error (.assertFail "v_ != nullptr"))
  | some page =>
    match markTables fuel m kernelPagetable fKernel (fun _ => 0#32) with
    | none => none
    | some v =>
      match markProcesses fuel m kernelPagetable ptable (List.range' 1 (Processes.nproc - 1)) false v with
      | none => none
      | some (.error e) => some (.error e)
      | some (.ok (true, v)) => some (.ok (page, mark v page.addr fKernel))
      | some (.ok (false, v)) =>
        (scanLow fuel m (accessible m used) ownerFlags kernelPagetable v).map (Except.map fun v => (page, v))

/-! ### Adding flags -/

/-- In the pages that are tracked, exactly the bits `Q` have been added. -/
def Adds (v v' : Marks) (Q : Nat → Nat → Prop) : Prop :=
  ∀ n, n < 1024 → ∀ i, (v' n).getLsbD i = true ↔ (v n).getLsbD i = true ∨ Q n i

variable {v v' v'' : Marks} {Q Q' : Nat → Nat → Prop}

lemma Adds.trans (h : Adds v v' Q) (h' : Adds v' v'' Q') : Adds v v'' fun n i => Q n i ∨ Q' n i := by
  intro n hn i
  rw [h' n hn, h n hn, or_assoc]

lemma Adds.congr (h : Adds v v' Q) (hQ : ∀ n, n < 1024 → ∀ i, Q n i ↔ Q' n i) : Adds v v' Q' := by
  intro n hn i
  rw [h n hn, hQ n hn]

lemma adds_nothing (v : Marks) : Adds v v fun _ _ => False := by
  simp [Adds]

lemma mark_adds (v : Marks) (pa : Word) (flags : BitVec 32) :
    Adds v (mark v pa flags) fun n i => pa.toNat / 4096 = n ∧ flags.getLsbD i = true := by
  intro n hn i
  unfold mark
  have hmax : maxpa = 4194304 := rfl
  have hpage : Kernel.pagesize = 4096 := rfl
  by_cases hpa : pa.toNat < maxpa
  · rw [if_pos hpa, Function.update_apply, hpage]
    by_cases heq : n = pa.toNat / 4096
    · rw [if_pos heq, heq, BitVec.getLsbD_or, Bool.or_eq_true]
      simp
    · rw [if_neg heq]
      simp [Ne.symm heq]
  · rw [if_neg hpa]
    have hne : pa.toNat / 4096 ≠ n := by omega
    simp [hne]

lemma foldl_mark_adds {τ : Type} (select : τ → Bool) (pa : τ → Word) (flags : BitVec 32) (l : List τ) (v : Marks) :
    Adds v (l.foldl (fun v x => if select x then mark v (pa x) flags else v) v)
      fun n i => (∃ x ∈ l, select x = true ∧ (pa x).toNat / 4096 = n) ∧ flags.getLsbD i = true := by
  induction l generalizing v with
  | nil => simpa using adds_nothing v
  | cons x l ih =>
    rw [List.foldl_cons]
    by_cases hx : select x = true
    · rw [if_pos hx]
      refine ((mark_adds v (pa x) flags).trans (ih _)).congr fun n _ i => ?_
      simp only [List.mem_cons, exists_eq_or_imp, hx, true_and]
      rw [or_and_right]
    · rw [if_neg hx]
      refine (ih v).congr fun n _ i => ?_
      simp [hx]

lemma fProcess_getLsbD {pid : Nat} (hpos : 1 ≤ pid) (hpid : pid < 16) (i : Nat) :
    (fProcess pid).getLsbD i = decide (i = pid + 1) := by
  have hshift : fProcess pid = 2#32 <<< pid := by
    rw [fProcess, if_neg (by omega), if_pos (by omega), Int.toNat_natCast]
  have htwo : ∀ j, (2#32).getLsbD j = decide (j = 1) := by
    intro j
    rw [BitVec.getLsbD_ofNat]
    rcases j with _ | _ | j <;> simp [Nat.testBit_succ]
  rw [hshift, BitVec.getLsbD_shiftLeft, htwo]
  by_cases hi : i = pid + 1
  · simp [hi, show pid + 1 < 32 by omega]
  · by_cases hlt : i < pid
    · simp [hi, hlt]
    · simp [hi, show i - pid ≠ 1 by omega]

end Memusage

end Cs300Projects.WeensyOS
