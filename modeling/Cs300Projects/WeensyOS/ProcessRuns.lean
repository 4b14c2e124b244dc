import Cs300Projects.WeensyOS.ProcessTable

/-!
# Runs of processes

An entry into the kernel saves the registers of the current process in its own descriptor, and
`schedule` resumes the next runnable process with the registers that its descriptor holds. This is an
invariant of every run in which the table itself is not overwritten.
-/

namespace Cs300Projects.WeensyOS.Processes

open Kernel

variable {L : ProcLayout} {checkPagetable : (Nat → UInt8) → Nat → Bool} {fuel : Nat} {m : Machine} {c : Nat}

/-! ### What a log may say -/

/-- The last entry of a process into the kernel. -/
def lastEntry (log : List Event) (p : Nat) : Option (Entry × Context) :=
  log.foldl (fun last e =>
    match e with
    | .entered q entry ctx => if q = p then some (entry, ctx) else last
    | _ => last) none

/-- The registers that a process has entered the kernel with. After `SYSCALL_YIELD`, `%rax` is 0, and
`%rcx` and `%r11` may be anything. -/
def Restores (entry : Entry) (ctx : Context) (regs : Reg → BitVec 64) : Prop :=
  if entry = .syscall ∧ ctx.word .rax = syscallYield then
    regs .rax = 0 ∧ ∀ r, r ≠ .rax → r ≠ .rcx → r ≠ .r11 → regs r = ctx.reg r
  else ∀ r, regs r = ctx.reg r

/-- Whenever a process is resumed, it gets the registers of its last entry. -/
def Restored (log : List Event) : Prop :=
  ∀ before p regs after, log = before ++ .resumed p regs :: after →
    ∀ entry ctx, lastEntry before p = some (entry, ctx) → Restores entry ctx regs

structure LogOk (L : ProcLayout) (log : List Event) : Prop where
  run : ∀ p state, .run p state ∈ log → state = pRunnable ∧ ∃ i, 0 < i ∧ i < nproc ∧ p = L.proc i
  broken : log.Pairwise fun e e' => ∀ p state, e = .broken p → e' ≠ .run p state
  resumed : Restored log

def Event.chosen? : Event → Option Nat
  | chosen p => some p
  | _ => none

/-- The processes that calls of `schedule` have chosen. -/
def choices (log : List Event) : List Nat := log.filterMap Event.chosen?

lemma lastEntry_append (log : List Event) (e : Event) (p : Nat) :
    lastEntry (log ++ [e]) p =
      match e with
      | .entered q entry ctx => if q = p then some (entry, ctx) else lastEntry log p
      | _ => lastEntry log p := by
  unfold lastEntry
  rw [List.foldl_append]
  rfl

lemma choices_append (log : List Event) (e : Event) : choices (log ++ [e]) = choices log ++ e.chosen?.toList := by
  unfold choices
  rw [List.filterMap_append]
  cases e <;> rfl

lemma LogOk.append {log : List Event} {e : Event} (h : LogOk L log)
    (hrun : ∀ p state, e = .run p state →
      (state = pRunnable ∧ ∃ i, 0 < i ∧ i < nproc ∧ p = L.proc i) ∧ .broken p ∉ log)
    (hresumed : ∀ p regs, e = .resumed p regs →
      ∀ entry ctx, lastEntry log p = some (entry, ctx) → Restores entry ctx regs) : LogOk L (log ++ [e]) where
  run p state hmem := by
    rw [List.mem_append, List.mem_singleton] at hmem
    rcases hmem with hold | hnew
    · exact h.run p state hold
    · exact (hrun p state hnew.symm).1
  broken := by
    rw [List.pairwise_append]
    refine ⟨h.broken, List.pairwise_singleton _ _, ?_⟩
    intro e' he' e'' he'' p state hbroken heq
    rw [List.mem_singleton] at he''
    exact (hrun p state (he''.symm.trans heq)).2 (hbroken ▸ he')
  resumed before p regs after hlog entry ctx hlast := by
    rcases List.eq_nil_or_concat after with rfl | ⟨after', e', rfl⟩
    · obtain ⟨hbefore, he⟩ := List.append_inj' hlog rfl
      rw [List.cons.injEq] at he
      exact hresumed p regs he.1 entry ctx (hbefore ▸ hlast)
    · rw [List.concat_eq_append, ← List.cons_append, ← List.append_assoc] at hlog
      obtain ⟨hold, -⟩ := List.append_inj' hlog rfl
      exact h.resumed before p regs after' hold entry ctx hlast

/-! ### The invariant -/

/-- If process `i` is resumed now, it gets the registers of its last entry. -/
def Saved (L : ProcLayout) (m : Machine) (i : Nat) : Prop :=
  Runnable L m.mem i → ∀ entry ctx, lastEntry m.log (L.proc i) = some (entry, ctx) →
    Restores entry ctx (descriptor L m.mem i).regs

/-- The table is sound, and the registers of the processes in `S` are saved. -/
structure Inv (L : ProcLayout) (m : Machine) (S : Nat → Prop) : Prop where
  log : LogOk L m.log
  pid : ∀ i, i < nproc → (descriptor L m.mem i).pid = i
  unused : ¬ Runnable L m.mem 0
  broken : ∀ p, .broken p ∈ m.log → ∃ i, i < nproc ∧ p = L.proc i ∧ (descriptor L m.mem i).state = pBroken
  saved : ∀ i, i < nproc → S i → Saved L m i

/-- Process `c` is running. -/
structure User (L : ProcLayout) (m : Machine) (c : Nat) : Prop where
  inv : Inv L m (· ≠ c)
  lt : c < nproc
  current : m.current L = L.proc c
  running : m.running = L.proc c
  runnable : Runnable L m.mem c

namespace Inv

variable {S : Nat → Prop}

/-- A change of memory that keeps every `pid` and `state`, and the registers of the processes in `S`. -/
lemma of_descriptor {mem' : Nat → UInt8} (h : Inv L m S)
    (hmem : ∀ i, i < nproc → (descriptor L mem' i).pid = (descriptor L m.mem i).pid ∧
      (descriptor L mem' i).state = (descriptor L m.mem i).state)
    (hregs : ∀ i, i < nproc → S i → (descriptor L mem' i).regs = (descriptor L m.mem i).regs) :
    Inv L { m with mem := mem' } S where
  log := h.log
  pid i hi := (hmem i hi).1.trans (h.pid i hi)
  unused hready := h.unused ((hmem 0 (by decide)).2.symm.trans hready)
  broken p hp := by
    obtain ⟨i, hi, heq, hstate⟩ := h.broken p hp
    exact ⟨i, hi, heq, (hmem i hi).2.trans hstate⟩
  saved i hi hS hready entry ctx hlast := by
    have hold := h.saved i hi hS ((hmem i hi).2.symm.trans hready) entry ctx hlast
    rwa [← hregs i hi hS] at hold

lemma sameTable {mem' : Nat → UInt8} (h : Inv L m S) (hmem : SameTable L m.mem mem') :
    Inv L { m with mem := mem' } S := by
  apply h.of_descriptor
  · intro i hi
    rw [hmem.descriptor hi]
    exact ⟨rfl, rfl⟩
  · intro i hi _
    rw [hmem.descriptor hi]

lemma event {e : Event} (h : Inv L m S) (hlog : LogOk L (m.log ++ [e]))
    (hlast : ∀ i, i < nproc → S i → lastEntry (m.log ++ [e]) (L.proc i) = lastEntry m.log (L.proc i))
    (hbroken : ∀ p, e = .broken p → ∃ i, i < nproc ∧ p = L.proc i ∧ (descriptor L m.mem i).state = pBroken) :
    Inv L (m.event e) S where
  log := hlog
  pid := h.pid
  unused := h.unused
  broken p hp := by
    have hmem : .broken p ∈ m.log ++ [e] := hp
    rw [List.mem_append, List.mem_singleton] at hmem
    rcases hmem with hold | hnew
    · exact h.broken p hold
    · exact hbroken p hnew.symm
  saved i hi hS hready entry ctx hentry :=
    h.saved i hi hS hready entry ctx ((hlast i hi hS).symm.trans hentry)

lemma all (h : Inv L m (· ≠ c)) (hsaved : Saved L m c) : Inv L m fun _ => True where
  log := h.log
  pid := h.pid
  unused := h.unused
  broken := h.broken
  saved i hi _ := by
    by_cases heq : i = c
    · exact heq ▸ hsaved
    · exact h.saved i hi heq

lemma setRunning (h : Inv L m S) (p : Nat) : Inv L { m with running := p } S :=
  ⟨h.log, h.pid, h.unused, h.broken, h.saved⟩

lemma mono {T : Nat → Prop} (h : Inv L m S) (hT : ∀ i, T i → S i) : Inv L m T where
  log := h.log
  pid := h.pid
  unused := h.unused
  broken := h.broken
  saved i hi hi' := h.saved i hi (hT i hi')

end Inv

lemma User.sameTable {mem' : Nat → UInt8} (h : User L m c) (hmem : SameTable L m.mem mem') :
    User L { m with mem := mem' } c where
  inv := h.inv.sameTable hmem
  lt := h.lt
  current := hmem.2.trans h.current
  running := h.running
  runnable := by
    unfold Runnable
    rw [hmem.descriptor h.lt]
    exact h.runnable

/-! ### run and schedule -/

/-- What `run` does with a runnable process. -/
structure Ran (L : ProcLayout) (m m' : Machine) (j : Nat) : Prop where
  log : LogOk L m'.log
  choices : choices m'.log = choices m.log
  spun : .spun ∈ m'.log → .spun ∈ m.log
  descriptor : ∀ i, i < nproc → descriptor L m'.mem i = descriptor L m.mem i
  user : m'.halted = false → User L m' j

variable (checkPagetable) in
lemma run_spec {j : Nat} (h : Inv L m fun _ => True) (hj : j < nproc) (hready : Runnable L m.mem j) :
    Ran L m (m.run L checkPagetable (L.proc j)) j := by
  have hpos : 0 < j := by
    rcases Nat.eq_zero_or_pos j with rfl | hpos
    · exact absurd hready h.unused
    · exact hpos
  have hstate : readState m.mem (L.proc j) = pRunnable := hready
  have hnotBroken : .broken (L.proc j) ∉ m.log := by
    intro hmem
    obtain ⟨i, hi, heq, hbroken⟩ := h.broken _ hmem
    obtain rfl := L.proc_injective heq
    exact absurd (hready.symm.trans hbroken) (by decide)
  -- the entry of `run` and the write of `current`
  have hlog : LogOk L (m.log ++ [.run (L.proc j) (readState m.mem (L.proc j))]) := by
    apply h.log.append
    · rintro p state ⟨⟩
      exact ⟨⟨hstate, j, hpos, hj, rfl⟩, hnotBroken⟩
    · rintro p regs ⟨⟩
  have hrun := h.event hlog (fun _ _ _ => lastEntry_append _ _ _) (fun _ heq => by cases heq)
  have hwithin := Bytes.within_writeLE m.mem L.current 8 (L.proc j)
  have hsame : ∀ i, i < nproc → descriptor L (Bytes.writeLE m.mem L.current 8 (L.proc j)) i = descriptor L m.mem i :=
    fun i hi => descriptor_of_within_current hwithin hi
  have hwrite : Inv L ⟨Bytes.writeLE m.mem L.current 8 (L.proc j), m.running, m.halted,
      m.log ++ [.run (L.proc j) (readState m.mem (L.proc j))]⟩ fun _ => True := by
    apply hrun.of_descriptor
    · exact fun i hi => ⟨congrArg Descriptor.pid (hsame i hi), congrArg Descriptor.state (hsame i hi)⟩
    · exact fun i hi _ => congrArg Descriptor.regs (hsame i hi)
  have hready' : Runnable L (Bytes.writeLE m.mem L.current 8 (L.proc j)) j := by
    unfold Runnable
    rw [hsame j hj]
    exact hready
  have hchoices : choices (m.log ++ [.run (L.proc j) (readState m.mem (L.proc j))]) = choices m.log := by
    rw [choices_append]
    exact List.append_nil _
  have hspun : .spun ∈ m.log ++ [.run (L.proc j) (readState m.mem (L.proc j))] → .spun ∈ m.log := by
    simp
  unfold Machine.run Machine.write Machine.event
  dsimp only
  rw [if_pos hstate]
  split
  · -- `exception_return`
    unfold Machine.exceptionReturn
    dsimp only
    rw [if_pos (show readState (Bytes.writeLE m.mem L.current 8 (L.proc j)) (L.proc j) = pRunnable from hready')]
    have hresumed : LogOk L (m.log ++ [.run (L.proc j) (readState m.mem (L.proc j))] ++
        [.resumed (L.proc j) (popRegs (Bytes.writeLE m.mem L.current 8 (L.proc j)) (L.proc j + procRegs))]) := by
      apply hwrite.log.append
      · rintro p state ⟨⟩
      · rintro p regs ⟨⟩ entry ctx hlast
        exact hwrite.saved j hj trivial hready' entry ctx hlast
    constructor
    · exact hresumed
    · exact (choices_append _ _).trans ((List.append_nil _).trans hchoices)
    · intro hmem
      apply hspun
      simpa [Machine.event] using hmem
    · exact hsame
    · intro _
      have hinv := hwrite.event hresumed (fun _ _ _ => lastEntry_append _ _ _) (fun _ heq => by cases heq)
      constructor
      · exact (hinv.setRunning (L.proc j)).mono fun _ _ => trivial
      · exact hj
      · exact Bytes.readLE_writeLE_of_lt (L.proc_lt hj)
      · rfl
      · exact hready'
  · exact ⟨hlog, hchoices, hspun, hsame, fun hhalt => by cases hhalt⟩

/-- What a step from process `c` leads to: the same process goes on, or `schedule` is called and chooses the
first runnable process after `c`, or spins because there is none. -/
structure Stepped (L : ProcLayout) (fuel : Nat) (m m' : Machine) (c : Nat) : Prop where
  log : LogOk L m'.log
  spun : nproc ≤ fuel → .spun ∈ m'.log → .spun ∈ m.log ∨ ∀ i, i < nproc → ¬ Runnable L m'.mem i
  next : (choices m'.log = choices m.log ∧ (m'.halted = false → User L m' c)) ∨
    ∃ j, RoundRobin.First nproc (Runnable L m'.mem) c j ∧ choices m'.log = choices m.log ++ [L.proc j] ∧
      (m'.halted = false → User L m' j)

lemma Stepped.user {m' : Machine} (h : Stepped L fuel m m' c) (hhalt : m'.halted = false) : ∃ j, User L m' j := by
  rcases h.next with ⟨-, hsame⟩ | ⟨j, -, -, hother⟩
  · exact ⟨c, hsame hhalt⟩
  · exact ⟨j, hother hhalt⟩

lemma Stepped.trans {m' m'' : Machine} (h : Stepped L fuel m' m'' c) (hchoices : choices m'.log = choices m.log)
    (hspun : .spun ∈ m'.log → .spun ∈ m.log) : Stepped L fuel m m'' c where
  log := h.log
  spun hfuel hmem := (h.spun hfuel hmem).imp_left hspun
  next := hchoices ▸ h.next

lemma readPid_eq {i : Nat} (hi : i < nproc) (hpid : (descriptor L m.mem i).pid = i) :
    readPid m.mem (L.proc i) = i := by
  have hread : Bytes.readLE m.mem (L.proc i + procPid) 4 = i := hpid
  unfold readPid
  rw [hread, BitVec.toInt_eq_toNat_of_lt]
  · rw [BitVec.toNat_ofNat, Nat.mod_eq_of_lt]
    unfold nproc at hi
    omega
  · rw [BitVec.toNat_ofNat]
    unfold nproc at hi
    omega

variable (checkPagetable fuel) in
lemma schedule_spec (h : Inv L m fun _ => True) (hc : c < nproc) (hcurrent : m.current L = L.proc c) :
    Stepped L fuel m (m.schedule L checkPagetable fuel) c := by
  have hother : ∀ e : Event, e.chosen? ≠ none ∨ e = .spun → LogOk L (m.log ++ [e]) := by
    intro e he
    apply h.log.append
    · rintro p state rfl
      simp [Event.chosen?] at he
    · rintro p regs rfl
      simp [Event.chosen?] at he
  unfold Machine.schedule
  rw [hcurrent, readPid_eq hc (h.pid c hc)]
  split
  · -- `schedule` spins
    rename_i hloop
    constructor
    · exact hother .spun (Or.inr rfl)
    · intro hfuel _
      refine Or.inr fun i hi hready => ?_
      have hdist := RoundRobin.distance_le (c := c) hi
      change Runnable L m.mem i at hready
      obtain ⟨p, hp⟩ := schedule_total hc hi hready (Nat.le_trans hdist hfuel)
      rw [hloop] at hp
      cases hp
    · refine Or.inl ⟨?_, fun hhalt => by cases hhalt⟩
      exact (choices_append _ _).trans (List.append_nil _)
  · rename_i p hloop
    obtain ⟨j, hfirst, rfl⟩ := schedule_first hc hloop
    have hchosen := h.event (hother (.chosen (L.proc j)) (Or.inl (by simp [Event.chosen?])))
      (fun _ _ _ => lastEntry_append _ _ _) (fun _ heq => by cases heq)
    have hran := run_spec checkPagetable hchosen hfirst.lt hfirst.isReady
    constructor
    · exact hran.log
    · intro _ hspun
      have hmem : .spun ∈ m.log ++ [.chosen (L.proc j)] := hran.spun hspun
      exact Or.inl (by simpa using hmem)
    · refine Or.inr ⟨j, ?_, hran.choices.trans (choices_append _ _), hran.user⟩
      refine ⟨hfirst.lt, ?_, fun i hi hready => hfirst.first i hi ?_⟩
      · unfold Runnable
        rw [hran.descriptor j hfirst.lt]
        exact hfirst.isReady
      · unfold Runnable at hready
        rw [hran.descriptor i hi] at hready
        exact hready

/-! ### Entries into the kernel -/

/-- The state in which `exception` and `syscall` decide what to do. -/
structure Entered (L : ProcLayout) (m : Machine) (c : Nat) (mem' : Nat → UInt8) (entry : Entry) (ctx : Context)
    (m' : Machine) : Prop where
  inv : Inv L m' (· ≠ c)
  lt : c < nproc
  current : m'.current L = L.proc c
  running : m'.running = L.proc c
  runnable : Runnable L m'.mem c
  regs : ∀ k n, k + n ≤ regstateSize →
    Bytes.readLE m'.mem (L.proc c + procRegs + k) n = Bytes.readLE mem' (frame + k) n
  last : lastEntry m'.log (L.proc c) = some (entry, ctx)
  choices : choices m'.log = choices m.log
  spun : .spun ∈ m'.log → .spun ∈ m.log

lemma LogOk.entered {log : List Event} (h : LogOk L log) (p : Nat) (entry : Entry) (ctx : Context) :
    LogOk L (log ++ [.entered p entry ctx]) := by
  apply h.append
  · rintro _ _ ⟨⟩
  · rintro _ _ ⟨⟩

lemma User.enter (h : User L m c) {mem' : Nat → UInt8} (hmem : SameTable L m.mem mem') (entry : Entry)
    (ctx : Context) : Entered L m c mem' entry ctx
      ((({ m with mem := mem' } : Machine).event (.entered m.running entry ctx)).saveRegs L) := by
  have hlast : ∀ i, lastEntry (m.log ++ [.entered m.running entry ctx]) (L.proc i) =
      if L.proc c = L.proc i then some (entry, ctx) else lastEntry m.log (L.proc i) := by
    intro i
    rw [lastEntry_append, h.running]
  have hentered : Inv L (({ m with mem := mem' } : Machine).event (.entered m.running entry ctx)) (· ≠ c) := by
    apply (h.inv.sameTable hmem).event (h.inv.log.entered _ _ _)
    · intro i _ hne
      exact (hlast i).trans (if_neg fun heq => hne (L.proc_injective heq).symm)
    · rintro p ⟨⟩
  have hcurrent : Bytes.readLE mem' L.current 8 = L.proc c := hmem.2.trans h.current
  -- `current->regs = *regs`
  have hwithin := Bytes.within_blit mem' (L.proc c + procRegs) regstateSize (fun i => mem' (frame + i))
  have hdescriptor : ∀ i, i ≠ c → descriptor L (Bytes.blit mem' (L.proc c + procRegs) regstateSize
      fun i => mem' (frame + i)) i = descriptor L mem' i :=
    fun i hne => descriptor_of_within hwithin (by decide) hne
  have hheader := fun i => header_of_within (b := 0) hwithin (by decide) i
  have hsaveRegs : (({ m with mem := mem' } : Machine).event (.entered m.running entry ctx)).saveRegs L =
      ⟨Bytes.blit mem' (L.proc c + procRegs) regstateSize fun i => mem' (frame + i), m.running, m.halted,
        m.log ++ [.entered m.running entry ctx]⟩ := by
    unfold Machine.saveRegs
    rw [show Machine.current L (({ m with mem := mem' } : Machine).event (.entered m.running entry ctx)) = L.proc c
      from hcurrent]
    rfl
  rw [hsaveRegs]
  constructor
  · apply hentered.of_descriptor (fun i _ => hheader i)
    intro i _ hne
    exact congrArg Descriptor.regs (hdescriptor i hne)
  · exact h.lt
  · exact (current_of_within hwithin h.lt (by decide)).trans hcurrent
  · exact h.running
  · refine (hheader c).2.trans ?_
    rw [hmem.descriptor h.lt]
    exact h.runnable
  · intro k n hk
    exact Bytes.readLE_blit_copy mem' (L.proc c + procRegs) regstateSize hk
  · exact (hlast c).trans (if_pos rfl)
  · exact (choices_append _ _).trans (List.append_nil _)
  · intro hspun
    simpa using hspun

namespace Entered

variable {m' m'' : Machine} {mem' : Nat → UInt8} {entry : Entry} {ctx : Context}

lemma stepped (h : Entered L m c mem' entry ctx m') (hstep : Stepped L fuel m' m'' c) : Stepped L fuel m m'' c :=
  hstep.trans h.choices h.spun

lemma halt (h : Entered L m c mem' entry ctx m') : Stepped L fuel m m'.halt c where
  log := h.inv.log
  spun _ hspun := Or.inl (h.spun hspun)
  next := Or.inl ⟨h.choices, fun hhalt => by cases hhalt⟩

lemma syscallReturn (h : Entered L m c mem' entry ctx m') : Stepped L fuel m (m'.syscallReturn L) c := by
  unfold Machine.syscallReturn
  rw [h.current, if_pos (show readState m'.mem (L.proc c) = pRunnable from h.runnable)]
  exact ⟨h.inv.log, fun _ hspun => Or.inl (h.spun hspun),
    Or.inl ⟨h.choices, fun _ => ⟨h.inv, h.lt, h.current, h.running, h.runnable⟩⟩⟩

lemma sameTable (h : Entered L m c mem' entry ctx m') {mem'' : Nat → UInt8} (hmem : SameTable L m'.mem mem'') :
    Entered L m c mem' entry ctx { m' with mem := mem'' } where
  inv := h.inv.sameTable hmem
  lt := h.lt
  current := hmem.2.trans h.current
  running := h.running
  runnable := by
    unfold Runnable
    rw [hmem.descriptor h.lt]
    exact h.runnable
  regs k n hk := by
    have hlt := h.lt
    refine (hmem.1 _ n ?_ ?_).trans (h.regs k n hk)
    · unfold ProcLayout.proc
      omega
    · unfold ProcLayout.proc nproc procRegs procBytes regstateSize at *
      omega
  last := h.last
  choices := h.choices
  spun := h.spun

lemma broken (h : Entered L m c mem' entry ctx m') : Inv L
    ((m'.write (L.proc c + procState) 4 pBroken).event (.broken (L.proc c))) (fun _ => True) ∧
    Machine.current L ((m'.write (L.proc c + procState) 4 pBroken).event (.broken (L.proc c))) = L.proc c ∧
    ¬ Runnable L ((m'.write (L.proc c + procState) 4 pBroken).event (.broken (L.proc c))).mem c := by
  have hwithin := Bytes.within_writeLE m'.mem (L.proc c + procState) 4 pBroken
  have hother : ∀ i, i ≠ c → descriptor L (Bytes.writeLE m'.mem (L.proc c + procState) 4 pBroken) i =
      descriptor L m'.mem i := fun i hne => descriptor_of_within hwithin (by decide) hne
  have hstate : (descriptor L (Bytes.writeLE m'.mem (L.proc c + procState) 4 pBroken) c).state = pBroken :=
    Bytes.readLE_writeLE_of_lt (by decide)
  have hpid : (descriptor L (Bytes.writeLE m'.mem (L.proc c + procState) 4 pBroken) c).pid =
      (descriptor L m'.mem c).pid := by
    apply hwithin.readLE
    unfold Bytes.Apart procPid procState
    omega
  have hnot : ¬ Runnable L (Bytes.writeLE m'.mem (L.proc c + procState) 4 pBroken) c := by
    unfold Runnable
    rw [hstate]
    decide
  refine ⟨?_, (current_of_within hwithin h.lt (by decide)).trans h.current, hnot⟩
  have hlast : ∀ i, lastEntry (m'.log ++ [.broken (L.proc c)]) (L.proc i) = lastEntry m'.log (L.proc i) :=
    fun i => lastEntry_append _ _ _
  constructor
  · apply h.inv.log.append
    · rintro _ _ ⟨⟩
    · rintro _ _ ⟨⟩
  · intro i hi
    by_cases heq : i = c
    · subst heq
      exact hpid.trans (h.inv.pid i hi)
    · exact (congrArg Descriptor.pid (hother i heq)).trans (h.inv.pid i hi)
  · intro hready
    by_cases heq : 0 = c
    · exact hnot (heq ▸ hready)
    · exact h.inv.unused ((congrArg Descriptor.state (hother 0 heq)).symm.trans hready)
  · intro p hp
    have hmem : .broken p ∈ m'.log ++ [.broken (L.proc c)] := hp
    rw [List.mem_append, List.mem_singleton, Event.broken.injEq] at hmem
    rcases hmem with hold | rfl
    · obtain ⟨i, hi, heq, hbroken⟩ := h.inv.broken p hold
      refine ⟨i, hi, heq, ?_⟩
      by_cases hic : i = c
      · subst hic
        exact hstate
      · exact (congrArg Descriptor.state (hother i hic)).trans hbroken
    · exact ⟨c, h.lt, rfl, hstate⟩
  · intro i hi _
    by_cases heq : i = c
    · subst heq
      exact fun hready => absurd hready hnot
    · intro hready entry' ctx' hentry
      have hold := h.inv.saved i hi heq ((congrArg Descriptor.state (hother i heq)).symm.trans hready) entry' ctx'
        ((hlast i).symm.trans hentry)
      rwa [← congrArg Descriptor.regs (hother i heq)] at hold

lemma within_rax (L : ProcLayout) (m : Machine) (c : Nat) :
    Bytes.Within m.mem (Bytes.writeLE m.mem (L.proc c + procRegs + 8 * Reg.rax.slot) 8 0)
    (L.proc c + (procRegs + 8 * Reg.rax.slot)) 8 := by
  rw [← Nat.add_assoc]
  exact Bytes.within_writeLE _ _ _ _

/-- `SYSCALL_YIELD` saves the registers with `%rax` set to 0. -/
lemma yield (h : Entered L m c mem' .syscall ctx m')
    (hreg : ∀ r : Reg, r ≠ .rcx → r ≠ .r11 →
      Bytes.readLE m'.mem (L.proc c + procRegs + 8 * r.slot) 8 = ctx.word r)
    (hyield : ctx.word .rax = syscallYield) :
    Inv L (m'.write (L.proc c + procRegs + 8 * Reg.rax.slot) 8 0) (fun _ => True) ∧
      (m'.write (L.proc c + procRegs + 8 * Reg.rax.slot) 8 0).current L = L.proc c := by
  have hwithin := Bytes.within_writeLE m'.mem (L.proc c + procRegs + 8 * Reg.rax.slot) 8 0
  have hinv : Inv L (m'.write (L.proc c + procRegs + 8 * Reg.rax.slot) 8 0) (· ≠ c) := by
    apply h.inv.of_descriptor
    · exact fun i _ => header_of_within hwithin (by decide) i
    · exact fun i _ hne => congrArg Descriptor.regs (descriptor_of_within (within_rax L m' c) (by decide) hne)
  refine ⟨hinv.all ?_, (current_of_within (within_rax L m' c) h.lt (by decide)).trans h.current⟩
  intro _ entry' ctx' hlast
  have hentry : some (Entry.syscall, ctx) = some (entry', ctx') := h.last.symm.trans hlast
  rw [Option.some.injEq, Prod.mk.injEq] at hentry
  obtain ⟨rfl, rfl⟩ := hentry
  unfold Restores
  rw [if_pos ⟨rfl, hyield⟩]
  constructor
  · change popRegs (Bytes.writeLE m'.mem (L.proc c + procRegs + 8 * Reg.rax.slot) 8 0) (L.proc c + procRegs) .rax = 0
    rw [popRegs_eq, Bytes.readLE_writeLE_of_lt (by decide)]
    rfl
  · intro r hrax hrcx hr11
    have hapart : Bytes.Apart (L.proc c + procRegs + 8 * r.slot) 8 (L.proc c + procRegs + 8 * Reg.rax.slot) 8 := by
      have hslot : Reg.rax.slot < r.slot := by
        cases r with
        | rax => exact absurd rfl hrax
        | _ => decide
      unfold Bytes.Apart
      omega
    change popRegs (Bytes.writeLE m'.mem (L.proc c + procRegs + 8 * Reg.rax.slot) 8 0) (L.proc c + procRegs) r = _
    rw [popRegs_eq, hwithin.readLE hapart, hreg r hrcx hr11, ctx.load_word]

/-- The registers of an interrupted process are saved. -/
lemma saved {m₀ : Machine} {num err : Nat} (h : Entered L m c (pushException m₀.mem num err ctx) (.exception num) ctx m') :
    Inv L m' fun _ => True := by
  apply h.inv.all
  intro _ entry ctx' hlast
  rw [h.last, Option.some.injEq, Prod.mk.injEq] at hlast
  obtain ⟨rfl, rfl⟩ := hlast
  unfold Restores
  rw [if_neg (by simp)]
  intro r
  have hslot := r.slot_lt
  change popRegs _ (L.proc c + procRegs) r = _
  rw [popRegs_eq, h.regs _ _ hslot, pushException_reg, ctx.load_word]

end Entered

lemma exception_spec (h : User L m c) (num : Fin 256) (err : BitVec 64) (ctx : Context) :
    Stepped L fuel m (m.exception L checkPagetable fuel num err.toNat ctx) c := by
  have hentered := h.enter (sameTable_pushException m.mem num err.toNat ctx) (.exception num) ctx
  have hintno : Bytes.readLE _ (L.proc c + procRegs + regIntno) 4 = num :=
    (hentered.regs regIntno 4 (by decide)).trans
      (pushException_intno m.mem num err.toNat ctx (Nat.lt_trans num.isLt (by decide)))
  unfold Machine.exception
  dsimp only
  rw [hentered.current, hintno]
  split
  · -- a timer interrupt
    exact hentered.stepped (schedule_spec checkPagetable fuel hentered.saved h.lt hentered.current)
  · split
    · -- a page fault
      split
      · exact hentered.halt
      · obtain ⟨hinv, hcurrent, hnot⟩ := hentered.broken
        rw [hcurrent]
        dsimp only [Runnable, descriptor] at hnot
        rw [if_neg hnot]
        have hstep := schedule_spec checkPagetable fuel hinv h.lt hcurrent
        apply hentered.stepped (hstep.trans _ _)
        · exact (choices_append _ _).trans (List.append_nil _)
        · intro hspun
          have hmem : Event.spun ∈ _ ++ [Event.broken (L.proc c)] := hspun
          exact (List.mem_append.1 hmem).resolve_right (by simp)
    · exact hentered.halt

/-! ### System calls -/

/-- The action leaves the kernel image alone. -/
def Action.Clear (L : ProcLayout) : Action → Prop
  | .store a data => L.Avoids a data.length
  | .exception _ _ _ => True
  | .syscall ctx => ctx.word .rax = syscallPageAllocNumber → L.Avoids (ctx.word .rdi) Kernel.pagesize

lemma sameTable_pageAlloc (mem : Nat → UInt8) {addr : Nat} (hclear : L.Avoids addr Kernel.pagesize)
    (hmapped : mapped (L.pages + addr / Kernel.pagesize) 1 && mapped addr Kernel.pagesize) : SameTable L mem
      (((⟨mem, fun _ => ⟨false, 0, 0⟩, []⟩ : State).claim L.toLayout (addr / Kernel.pagesize)).memset addr 0
        Kernel.pagesize).mem := by
  have himage := L.image_le
  have hpages := L.le_pages
  refine SameTable.trans ?_ (SameTable.of_avoids (Bytes.within_fill _ addr Kernel.pagesize 0) hclear)
  rw [Bool.and_eq_true] at hmapped
  have haddr := hmapped.2
  unfold mapped at haddr
  rw [Bool.or_eq_true, Bool.and_eq_true, Bool.and_eq_true] at haddr
  simp only [decide_eq_true_eq] at haddr
  rcases haddr with ⟨-, hlt⟩ | ⟨hge, -⟩
  · apply sameTable_claim
    rw [npages_eq]
    unfold Kernel.pagesize memsizePhysical at *
    omega
  · -- the index is out of the bounds of `pages`, and the byte is above the kernel
    apply SameTable.of_avoids (Bytes.within_fill mem (L.pages + addr / Kernel.pagesize) 1 1)
    refine Or.inr (Or.inr ?_)
    unfold Kernel.pagesize kernelStartAddr kernelStackTop at *
    omega

lemma syscall_spec (h : User L m c) {ctx : Context} (hclear : (Action.syscall ctx).Clear L) :
    Stepped L fuel m (m.syscall L checkPagetable fuel ctx) c := by
  have hentered := h.enter (sameTable_pushSyscall m.mem ctx) .syscall ctx
  have hreg : ∀ r : Reg, r ≠ .rcx → r ≠ .r11 →
      Bytes.readLE _ (L.proc c + procRegs + 8 * r.slot) 8 = ctx.word r :=
    fun r hrcx hr11 => (hentered.regs _ _ r.slot_lt).trans (pushSyscall_reg m.mem ctx hrcx hr11)
  unfold Machine.syscall
  dsimp only
  rw [hentered.current, hreg .rax (by decide) (by decide), hreg .rdi (by decide) (by decide)]
  split
  · exact hentered.syscallReturn
  · split
    · -- `SYSCALL_YIELD`
      rename_i hyield
      obtain ⟨hinv, hcurrent⟩ := hentered.yield hreg hyield
      exact hentered.stepped ((schedule_spec checkPagetable fuel hinv h.lt hcurrent).trans rfl id)
    · split
      · -- `SYSCALL_PAGE_ALLOC`
        rename_i halloc
        unfold Machine.syscallPageAlloc State.syscallPageAlloc
        split
        · exact hentered.halt
        · rename_i s r hcall
          split at hcall
          · cases hcall
          · cases hcall
            split
            · rename_i hmapped
              exact (hentered.sameTable (sameTable_pageAlloc _ (hclear halloc) hmapped)).syscallReturn
            · exact hentered.halt
      · exact hentered.halt

end Cs300Projects.WeensyOS.Processes
