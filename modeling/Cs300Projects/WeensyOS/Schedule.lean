import Cs300Projects.WeensyOS.ProcessStart

/-!
# Scheduling and resuming over whole runs

As long as nobody writes over the kernel image, `run` is entered with runnable processes only, a
process that has faulted is never run again, a process that stays runnable is chosen within `NPROC`
calls of `schedule`, and a process is resumed with the registers of its last entry. A page that
`sys_page_alloc` clears over the variable `current` breaks all of this.
-/

namespace Cs300Projects.WeensyOS.Processes

open Kernel

variable {L : ProcLayout} {checkPagetable : (Nat → UInt8) → Nat → Bool} {fuel : Nat} {m : Machine} {c : Nat}

/-! ### Steps -/

variable (checkPagetable fuel) in
lemma step_spec {action : Action} (h : User L m c) (hhalt : m.halted = false) (hclear : action.Clear L) :
    Stepped L fuel m (m.step L checkPagetable fuel action) c := by
  have hrun : ¬ m.halted = true := by simp [hhalt]
  unfold Machine.step
  rw [if_neg hrun]
  cases action with
  | store a data =>
    have hmem := SameTable.of_avoids (Bytes.within_copy m.mem a data) hclear
    exact ⟨h.inv.log, fun _ hspun => Or.inl hspun, Or.inl ⟨rfl, fun _ => h.sameTable hmem⟩⟩
  | exception num err ctx => exact exception_spec h num err ctx
  | syscall ctx => exact syscall_spec h hclear

lemma step_halted (action : Action) (hhalt : m.halted = true) : m.step L checkPagetable fuel action = m := by
  unfold Machine.step
  exact if_pos hhalt

lemma steps_halted (actions : List Action) (hhalt : m.halted = true) :
    m.steps L checkPagetable fuel actions = m := by
  unfold Machine.steps
  induction actions with
  | nil => rfl
  | cons action actions ih => rwa [List.foldl_cons, step_halted action hhalt]

lemma steps_cons (action : Action) (actions : List Action) : m.steps L checkPagetable fuel (action :: actions) =
    (m.step L checkPagetable fuel action).steps L checkPagetable fuel actions := rfl

lemma steps_append (before after : List Action) : m.steps L checkPagetable fuel (before ++ after) =
    (m.steps L checkPagetable fuel before).steps L checkPagetable fuel after := by
  unfold Machine.steps
  rw [List.foldl_append]

lemma Reached.step {action : Action} (h : Reached L fuel m) (hclear : action.Clear L) :
    Reached L fuel (m.step L checkPagetable fuel action) := by
  cases hhalt : m.halted with
  | true => rwa [step_halted action hhalt]
  | false =>
    obtain ⟨c, hc⟩ := h.user hhalt
    have hstep := step_spec checkPagetable fuel hc hhalt hclear
    constructor
    · exact hstep.log
    · intro hfuel hspun
      rcases hstep.spun hfuel hspun with hold | hnone
      · exact absurd hc.runnable (h.spun hfuel hold c hc.lt)
      · exact hnone
    · intro hhalt'
      rcases hstep.next with ⟨-, huser⟩ | ⟨j, -, -, huser⟩
      · exact ⟨c, huser hhalt'⟩
      · exact ⟨j, huser hhalt'⟩

variable (checkPagetable) in
lemma Reached.steps {actions : List Action} (h : Reached L fuel m) (hclear : ∀ action ∈ actions, action.Clear L) :
    Reached L fuel (m.steps L checkPagetable fuel actions) := by
  induction actions generalizing m with
  | nil => exact h
  | cons action actions ih =>
    rw [steps_cons]
    exact ih (h.step (hclear action List.mem_cons_self)) fun a ha => hclear a (List.mem_cons_of_mem _ ha)

/-! ### Fairness -/

/-- Process `i` is runnable before each of the actions and after the last one. -/
def StaysRunnable (L : ProcLayout) (checkPagetable : (Nat → UInt8) → Nat → Bool) (fuel i : Nat) :
    Machine → List Action → Prop
  | m, [] => Runnable L m.mem i
  | m, action :: actions =>
    Runnable L m.mem i ∧ StaysRunnable L checkPagetable fuel i (m.step L checkPagetable fuel action) actions

instance (L : ProcLayout) (mem : Nat → UInt8) (i : Nat) : Decidable (Runnable L mem i) :=
  inferInstanceAs (Decidable (_ = _))

instance decidableStaysRunnable (L : ProcLayout) (checkPagetable : (Nat → UInt8) → Nat → Bool) (fuel i : Nat) :
    ∀ (m : Machine) (actions : List Action), Decidable (StaysRunnable L checkPagetable fuel i m actions)
  | m, [] => inferInstanceAs (Decidable (Runnable L m.mem i))
  | m, action :: actions =>
    have := decidableStaysRunnable L checkPagetable fuel i (m.step L checkPagetable fuel action) actions
    inferInstanceAs (Decidable (_ ∧ _))

lemma StaysRunnable.now {i : Nat} {actions : List Action} (h : StaysRunnable L checkPagetable fuel i m actions) :
    Runnable L m.mem i := by
  cases actions with
  | nil => exact h
  | cons action actions => exact h.1

/-- The calls of `schedule` in a run are choices around the table. -/
lemma choices_steps {i : Nat} {actions : List Action} (h : User L m c) (hhalt : m.halted = false)
    (hclear : ∀ action ∈ actions, action.Clear L) (hstays : StaysRunnable L checkPagetable fuel i m actions) :
    ∃ js : List Nat, choices (m.steps L checkPagetable fuel actions).log = choices m.log ++ js.map L.proc ∧
      RoundRobin.Choices nproc i c js := by
  induction actions generalizing m c with
  | nil => exact ⟨[], (List.append_nil _).symm, .nil c⟩
  | cons action actions ih =>
    obtain ⟨-, hrest⟩ := hstays
    have hclear' : ∀ a ∈ actions, a.Clear L := fun a ha => hclear a (List.mem_cons_of_mem _ ha)
    have hstep := step_spec checkPagetable fuel h hhalt
      (hclear action List.mem_cons_self)
    rw [steps_cons]
    -- the rest of the run, from the process that is running after the step
    have htail : ∀ c', ((m.step L checkPagetable fuel action).halted = false →
        User L (m.step L checkPagetable fuel action) c') →
        ∃ js : List Nat, choices ((m.step L checkPagetable fuel action).steps L checkPagetable fuel actions).log =
          choices (m.step L checkPagetable fuel action).log ++ js.map L.proc ∧ RoundRobin.Choices nproc i c' js := by
      intro c' huser
      cases hhalt' : (m.step L checkPagetable fuel action).halted with
      | true =>
        rw [steps_halted actions hhalt']
        exact ⟨[], (List.append_nil _).symm, .nil c'⟩
      | false => exact ih (huser hhalt') hhalt' hclear' hrest
    rcases hstep.next with ⟨hsame, huser⟩ | ⟨j, hfirst, hchosen, huser⟩
    · obtain ⟨js, hjs, hchoices⟩ := htail c huser
      exact ⟨js, hsame ▸ hjs, hchoices⟩
    · obtain ⟨js, hjs, hchoices⟩ := htail j huser
      refine ⟨j :: js, ?_, .cons hrest.now hfirst hchoices⟩
      rw [hjs, hchosen, List.append_assoc]
      rfl

lemma Reached.fair {i : Nat} {actions : List Action} (h : Reached L fuel m)
    (hclear : ∀ action ∈ actions, action.Clear L) (hi : i < nproc)
    (hstays : StaysRunnable L checkPagetable fuel i m actions)
    (hlen : nproc ≤ ((choices (m.steps L checkPagetable fuel actions).log).drop (choices m.log).length).length) :
    L.proc i ∈ ((choices (m.steps L checkPagetable fuel actions).log).drop (choices m.log).length).take nproc := by
  cases hhalt : m.halted with
  | true =>
    rw [steps_halted actions hhalt, List.drop_length] at hlen
    exact absurd hlen (by decide)
  | false =>
    obtain ⟨c, hc⟩ := h.user hhalt
    obtain ⟨js, hjs, hchoices⟩ := choices_steps hc hhalt hclear hstays
    rw [hjs, List.drop_left] at hlen ⊢
    rw [List.length_map] at hlen
    rw [← List.map_take]
    exact List.mem_map_of_mem (hchoices.mem_take_size hc.lt hi hlen)

/-! ### Main results -/

/-- How processes are scheduled in the run of `actions` from `m`. -/
structure Scheduled (L : ProcLayout) (checkPagetable : (Nat → UInt8) → Nat → Bool) (fuel : Nat) (m : Machine)
    (actions : List Action) : Prop where
  run : ∀ p state, .run p state ∈ (m.steps L checkPagetable fuel actions).log → state = pRunnable ∧ p ≠ L.proc 0
  broken : (m.steps L checkPagetable fuel actions).log.Pairwise
    fun e e' => ∀ p state, e = .broken p → e' ≠ .run p state
  fair : ∀ before after, actions = before ++ after → ∀ i, i < nproc →
    StaysRunnable L checkPagetable fuel i (m.steps L checkPagetable fuel before) after →
    let calls := (choices (m.steps L checkPagetable fuel actions).log).drop
      (choices (m.steps L checkPagetable fuel before).log).length
    nproc ≤ calls.length → L.proc i ∈ calls.take nproc
  found : nproc ≤ fuel → .spun ∈ (m.steps L checkPagetable fuel actions).log →
    ∀ i, i < nproc → ¬ Runnable L (m.steps L checkPagetable fuel actions).mem i

/-- `schedule` and `run` in every run in which the kernel image is not written over. -/
theorem processes_scheduled (L : ProcLayout) (checkPagetable : (Nat → UInt8) → Nat → Bool) (fuel : Nat)
    (mem : Nat → UInt8) (command : Option Program) (allocators : Fin 4 → Program)
    (hprograms : ∀ r ∈ initialPrograms command allocators, ProgramClear L r.2)
    (hkernel : kernel L checkPagetable fuel mem command allocators = some m) (actions : List Action)
    (hclear : ∀ action ∈ actions, action.Clear L) : Scheduled L checkPagetable fuel m actions := by
  obtain ⟨hstart, -⟩ := kernel_reached hprograms hkernel
  have hend := hstart.steps checkPagetable hclear
  constructor
  · intro p state hrun
    obtain ⟨hstate, i, hpos, -, rfl⟩ := hend.log.run p state hrun
    exact ⟨hstate, fun heq => absurd (L.proc_injective heq) (Nat.ne_of_gt hpos)⟩
  · exact hend.log.broken
  · rintro before after rfl i hi hstays
    have hmid := hstart.steps checkPagetable
      (fun a ha => hclear a (List.mem_append_left _ ha))
    intro calls hlen
    have hfair := hmid.fair (fun a ha => hclear a (List.mem_append_right _ ha)) hi hstays
    rw [← steps_append] at hfair
    exact hfair hlen
  · exact hend.spun

/-- A kernel in which `current` comes before the process table. -/
def sampleLayout : ProcLayout where
  kernelEnd := 0x5B000
  pages := 0x52800
  nextAllocPa := 0x52A00
  ptable := 0x540C0
  current := 0x53008
  kernelPagetable := 0x56000
  kernelEnd_le := by decide
  le_pages := by decide
  pages_le := by decide
  le_nextAllocPa := by decide
  nextAllocPa_le := by decide
  disjoint := by decide
  image_le := by decide
  le_ptable := by decide
  ptable_le := by decide
  le_current := by decide
  current_le := by decide
  current_apart := Or.inl (by decide)
  pages_apart := Or.inl (by decide)
  pages_current := Or.inl (by decide)

/-- The processes share the kernel's page table. -/
def sampleCheck (_ : Nat → UInt8) (pagetable : Nat) : Bool := pagetable == sampleLayout.kernelPagetable

def sampleAllocators (i : Fin 4) : Program :=
  ⟨[⟨procStartAddr + procSize * i, 2, [0x90, 0xC3]⟩], procStartAddr + procSize * i⟩

/-- A context with the given registers, and with 0 in all others but the selectors. -/
def sampleContext (regs : List (Reg × BitVec 64)) : Context where
  reg r :=
    match r with
    | .fs | .gs => 0x23
    | .cs => 0x1B
    | .ss => 0x23
    | r => (regs.lookup r).getD 0
  fs_lt := (by decide : (0x23 : BitVec 64).toNat < 2 ^ 16)
  gs_lt := (by decide : (0x23 : BitVec 64).toNat < 2 ^ 16)
  cs_eq := (by decide : (0x1B : BitVec 64).toNat = segselAppCode + 3)
  ss_eq := (by decide : (0x23 : BitVec 64).toNat = segselAppData + 3)

def sampleKernel : Option Machine := kernel sampleLayout sampleCheck nproc (fun _ => 0) none sampleAllocators

/-- A timer interrupt. -/
def timer (regs : List (Reg × BitVec 64)) : Action := .exception 32 0 (sampleContext regs)

/-- Process 1 is interrupted, process 2 faults, process 3 asks for a page of its own, and so on. -/
def sampleActions : List Action :=
  [timer [(.rbx, 7)], .exception 14 0x4 (sampleContext []), .syscall (sampleContext [(.rax, 4), (.rdi, 0x1A0000)]),
    .syscall (sampleContext [(.rax, 2)]), timer []]

lemma sampleAllocators_clear : ∀ r ∈ initialPrograms none sampleAllocators, ProgramClear sampleLayout r.2 := by
  have hclear : ∀ i, ProgramClear sampleLayout (sampleAllocators i) := by
    intro i seg hseg
    rw [show seg = ⟨procStartAddr + procSize * i, 2, [0x90, 0xC3]⟩ from List.mem_singleton.1 hseg]
    have hi := i.isLt
    refine ⟨?_, Or.inr (Or.inr ?_), Or.inr (Or.inr ?_)⟩
    · change procStartAddr + procSize * i + 2 ≤ memsizePhysical
      unfold procStartAddr procSize memsizePhysical
      omega
    · change 0x5B000 ≤ procStartAddr + procSize * i
      unfold procStartAddr
      omega
    · change 0x5B000 ≤ procStartAddr + procSize * i
      unfold procStartAddr
      omega
  unfold initialPrograms
  simp only [List.forall_mem_cons]
  exact ⟨hclear 0, hclear 1, hclear 2, hclear 3, by simp⟩

lemma sampleActions_clear : ∀ action ∈ sampleActions, action.Clear sampleLayout := by
  unfold sampleActions timer
  simp only [List.forall_mem_cons]
  refine ⟨trivial, trivial, ?_, ?_, trivial, by simp⟩
  · exact fun _ => Or.inr (Or.inr (by decide))
  · exact fun hrax => absurd hrax (by decide)

theorem processes_scheduled_sample : ∃ m, sampleKernel = some m ∧
    Scheduled sampleLayout sampleCheck nproc m sampleActions := by
  obtain ⟨m, hm⟩ : ∃ m, sampleKernel = some m := Option.isSome_iff_exists.1 (by decide +kernel)
  exact ⟨m, hm, processes_scheduled sampleLayout sampleCheck nproc (fun _ => 0) none sampleAllocators
    sampleAllocators_clear hm sampleActions sampleActions_clear⟩

/-- Process 2 clears the lowest byte of `current`, which then points into the registers of process 1. These
hold what looks like a runnable descriptor, and the next entry of process 2 overwrites its own `pid`. -/
def starvingActions : List Action :=
  [timer [(.r13, 0x56000), (.r14, 0x100000001)], .syscall (sampleContext [(.rax, 4), (.rdi, 0x52009)]),
    timer [(.r11, 0x56000), (.r12, 0x100000001)]] ++ List.replicate 15 (timer [])

theorem processes_not_scheduled : ∃ m, sampleKernel = some m ∧
    ¬ Scheduled sampleLayout sampleCheck nproc m starvingActions := by
  obtain ⟨m, hm⟩ : ∃ m, sampleKernel = some m := Option.isSome_iff_exists.1 (by decide +kernel)
  refine ⟨m, hm, fun h => ?_⟩
  have hrun : sampleKernel.all fun m =>
      decide (StaysRunnable sampleLayout sampleCheck nproc 3 (m.steps sampleLayout sampleCheck nproc
        (starvingActions.take 2)) (starvingActions.drop 2)) &&
      choices (m.steps sampleLayout sampleCheck nproc starvingActions).log ==
        sampleLayout.proc 2 :: List.replicate 16 (sampleLayout.proc 2) &&
      (choices (m.steps sampleLayout sampleCheck nproc (starvingActions.take 2)).log).length == 1 := by
    decide +kernel
  rw [hm, Option.all_some, Bool.and_eq_true, Bool.and_eq_true, decide_eq_true_eq, beq_iff_eq, beq_iff_eq] at hrun
  obtain ⟨⟨hstays, hchoices⟩, hlen⟩ := hrun
  have hfair := h.fair _ _ (List.take_append_drop 2 starvingActions).symm 3 (by decide) hstays
  rw [hchoices, hlen] at hfair
  exact absurd (hfair (by decide)) (by decide)

/-- As before, but now the registers of process 1 make `schedule` go on from `pid` 0. Process 2 overwrites
the other registers of process 1, which is resumed with them. -/
def hijackingActions : List Action :=
  [timer [(.r13, 0x56000), (.r14, 0x100000000), (.r15, 7)], .syscall (sampleContext [(.rax, 4), (.rdi, 0x52009)]),
    timer [(.rax, 5), (.rcx, 0x23), (.rdx, 0x23), (.rsi, 0x140000), (.rdi, 0x1B), (.r8, 0x200), (.r9, 0x180000),
      (.r10, 0x23), (.r11, 0x56000), (.r12, 0x100000002)]]

/-- Process `p` is resumed with the number `w` in `%r15`. -/
def Event.resumesWith (p w : Nat) : Event → Bool
  | resumed q regs => q == p && (regs .r15).toNat == w
  | _ => false

/-- An exception with the number `w` in `%r15`. -/
def enteredWith (w : Nat) : Entry × Context → Bool
  | (.exception _, ctx) => ctx.word .r15 == w
  | (.syscall, _) => false

end Cs300Projects.WeensyOS.Processes
