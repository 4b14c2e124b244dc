import Mathlib.Logic.Function.Basic
import Mathlib.Tactic.Common

/-!
# Guards of static variables

`__cxa_guard_acquire` and `__cxa_guard_release` of `k-hardware.cc`, for any number of threads that call
them as the compiler has it: the thread whose acquire returns 1 initialises the variables and releases
the guard once. A waiting thread takes the value 2 out of the guard and puts it back, so that the value
is a token that is in the guard or with one thread.
-/

namespace Cs300Projects.WeensyOS.Guard

/-- What a thread does next. -/
inductive Pc where
  | idle
  | load
  | exchange
  | restore
  | initialise
  deriving DecidableEq

inductive Event (τ : Type*) where
  | returned (t : τ) (value : Nat)
  | released (t : τ)
  deriving DecidableEq

/-- `past` are the values that the guard has had: a relaxed load may return any of them. -/
structure State (τ : Type*) where
  guard : UInt8
  past : List UInt8
  pc : τ → Pc
  log : List (Event τ)

/-- An atomic step of a thread. -/
inductive Action (τ : Type*) where
  | acquire (t : τ)
  | load (t : τ) (value : UInt8)
  | exchange (t : τ)
  | restore (t : τ)
  | release (t : τ)

section Steps

variable {τ : Type*} [DecidableEq τ]

namespace State

/-- The guard becomes `value`. -/
def store (s : State τ) (value : UInt8) : State τ := { s with guard := value, past := value :: s.past }

def setPc (s : State τ) (t : τ) (pc : Pc) : State τ := { s with pc := Function.update s.pc t pc }

def emit (s : State τ) (e : Event τ) : State τ := { s with log := s.log ++ [e] }

/-- `__cxa_guard_acquire` returns. -/
def ret (s : State τ) (t : τ) (value : Nat) (pc : Pc) : State τ := (s.setPc t pc).emit (.returned t value)

def step (s : State τ) : Action τ → Option (State τ)
  | .acquire t => if s.pc t = .idle then some (s.setPc t .load) else none
  | .load t value =>
    if s.pc t = .load ∧ value ∈ s.past then
      if value = 2 then some (s.ret t 0 .idle) else some (s.setPc t .exchange)
    else none
  | .exchange t =>
    if s.pc t = .exchange then
      if s.guard = 2 then some ((s.store 1).setPc t .restore)
      else if s.guard = 1 then some (s.store 1)
      else some ((s.store 1).ret t 1 .initialise)
    else none
  | .restore t => if s.pc t = .restore then some ((s.store 2).ret t 0 .idle) else none
  | .release t => if s.pc t = .initialise then some (((s.store 2).setPc t .idle).emit (.released t)) else none

def run (s : State τ) : List (Action τ) → Option (State τ)
  | [] => some s
  | a :: actions => (s.step a).bind fun s' => run s' actions

end State

/-- The guard starts at 0. -/
def start : State τ := ⟨0, [0], fun _ => .idle, []⟩

/-! ### Phases -/

/-- How far the initialisation is, and who has the value 2 once it is complete. -/
inductive Phase (τ : Type*) where
  | fresh
  | initialising (t : τ)
  | initialised (holder : Option τ)

/-- The thread that is to store into the guard, with the step that does it. -/
def Phase.writer : Phase τ → Option (τ × Pc)
  | .fresh => none
  | .initialising t => some (t, .initialise)
  | .initialised holder => holder.map fun t => (t, .restore)

def Phase.guard : Phase τ → UInt8
  | .fresh => 0
  | .initialising _ => 1
  | .initialised none => 2
  | .initialised (some _) => 1

def Event.isWin : Event τ → Bool
  | .returned _ value => value == 1
  | .released _ => false

def Event.isRelease : Event τ → Bool
  | .returned _ _ => false
  | .released _ => true

/-- Every return of 0 comes after the release. -/
def Late (log : List (Event τ)) : Prop :=
  ∀ before t after, log = before ++ .returned t 0 :: after → before.any Event.isRelease = true

/-- The state is in the phase. -/
structure State.At (s : State τ) (p : Phase τ) : Prop where
  guard : s.guard = p.guard
  writer : ∀ t pc, pc = .restore ∨ pc = .initialise → (s.pc t = pc ↔ p.writer = some (t, pc))
  past : s.log.any Event.isRelease = false → 2 ∉ s.past
  released : s.log.any Event.isRelease = true ↔ ∃ holder, p = .initialised holder
  wins : s.log.countP Event.isWin ≤ 1
  noWin : p = .fresh → s.log.countP Event.isWin = 0
  late : Late s.log

omit [DecidableEq τ] in
lemma Late.append {log : List (Event τ)} (h : Late log) {e : Event τ}
    (he : ∀ t, e = .returned t 0 → log.any Event.isRelease = true) : Late (log ++ [e]) := by
  intro before t after heq
  by_cases hnil : after = []
  · subst hnil
    obtain ⟨rfl, hlast⟩ := List.append_inj' heq rfl
    exact he t (List.cons.inj hlast).1
  · obtain ⟨after', last, rfl⟩ := List.eq_nil_or_concat after |>.resolve_left hnil
    rw [List.concat_eq_append, ← List.cons_append, ← List.append_assoc] at heq
    exact h before t after' (List.append_inj' heq rfl).1

omit [DecidableEq τ] in
lemma not_late {log : List (Event τ)} {e : Event τ} (he : ∀ t, e ≠ .returned t 0) :
    ∀ t, e = .returned t 0 → log.any Event.isRelease = true :=
  fun t heq => absurd heq (he t)

section Step

variable {s s' : State τ} {p : Phase τ} {t : τ} {pc : Pc}

omit [DecidableEq τ] in
/-- Before the release nobody sees the value 2. -/
lemma State.At.released_of_past (h : s.At p) (hmem : 2 ∈ s.past) : s.log.any Event.isRelease = true := by
  by_contra hany
  exact h.past (Bool.eq_false_iff.2 hany) hmem

/-- The thread that moves is the writer, or there is none. -/
lemma State.At.writer_setPc (h : s.At p) (howner : ∀ u pc', p.writer = some (u, pc') → u = t) (u : τ) (pc' : Pc)
    (hpc' : pc' = .restore ∨ pc' = .initialise) :
    (s.setPc t pc).pc u = pc' ↔ (if pc = .restore ∨ pc = .initialise then some (t, pc) else none) = some (u, pc') := by
  by_cases hu : u = t
  · subst hu
    simp only [State.setPc, Function.update_self]
    by_cases hpc : pc = .restore ∨ pc = .initialise
    · simp [hpc]
    · rw [if_neg hpc]
      constructor
      · rintro rfl
        exact absurd hpc' hpc
      · simp
  · simp only [State.setPc, Function.update_of_ne hu]
    rw [h.writer u pc' hpc']
    constructor
    · intro hwriter
      exact absurd (howner u pc' hwriter) hu
    · intro hmove
      by_cases hpc : pc = .restore ∨ pc = .initialise
      · rw [if_pos hpc, Option.some.injEq, Prod.mk.injEq] at hmove
        exact absurd hmove.1.symm hu
      · simp [hpc] at hmove

lemma State.At.wait (h : s.At p) (hfrom : s.pc t ≠ .restore ∧ s.pc t ≠ .initialise)
    (hto : pc ≠ .restore ∧ pc ≠ .initialise) : (s.setPc t pc).At p := by
  refine ⟨h.guard, ?_, h.past, h.released, h.wins, h.noWin, h.late⟩
  intro u pc' hpc'
  rw [← h.writer u pc' hpc']
  by_cases hu : u = t
  · subst hu
    simp only [State.setPc, Function.update_self]
    constructor
    · rintro rfl
      exact absurd hpc' (not_or.2 hto)
    · intro hold
      rw [hold] at hfrom
      exact absurd hpc' (not_or.2 hfrom)
  · simp only [State.setPc, Function.update_of_ne hu]

omit [DecidableEq τ] in
/-- A return of 0 after the release. -/
lemma State.At.emit_late (h : s.At p) (hreleased : s.log.any Event.isRelease = true) :
    (s.emit (.returned t 0)).At p := by
  have hany : (s.emit (.returned t 0)).log.any Event.isRelease = s.log.any Event.isRelease := by
    simp [State.emit, Event.isRelease]
  have hcount : (s.emit (.returned t 0)).log.countP Event.isWin = s.log.countP Event.isWin := by
    simp [State.emit, Event.isWin]
  refine ⟨h.guard, h.writer, ?_, ?_, ?_, ?_, h.late.append fun _ _ => hreleased⟩
  · rw [hany]
    exact h.past
  · rw [hany]
    exact h.released
  · rw [hcount]
    exact h.wins
  · rw [hcount]
    exact h.noWin

/-- The exchange of a waiting thread, by the value that it takes out. -/
lemma State.At.exchange (h : s.At p) (hpc : s.pc t = .exchange) (hstep : s.step (.exchange t) = some s') :
    ∃ p', s'.At p' := by
  have hfrom : s.pc t ≠ .restore ∧ s.pc t ≠ .initialise := by simp [hpc]
  simp only [State.step, hpc, if_true] at hstep
  cases p with
  | fresh =>
    -- the winner
    have hguard : s.guard = 0 := h.guard
    simp only [hguard, show ¬ ((0 : UInt8) = 2) by decide, show ¬ ((0 : UInt8) = 1) by decide, if_false,
      Option.some.injEq] at hstep
    subst hstep
    have hnone : s.log.any Event.isRelease = false := by
      rw [Bool.eq_false_iff, Ne, h.released]
      simp
    refine ⟨.initialising t, rfl, ?_, ?_, ?_, ?_, by simp, h.late.append (not_late (by simp))⟩
    · intro u pc' hpc'
      exact h.writer_setPc (by simp [Phase.writer]) u pc' hpc'
    · intro _
      simpa [State.ret, State.emit, State.setPc, State.store] using h.past hnone
    · simpa [State.ret, State.emit, State.setPc, State.store, Event.isRelease] using hnone
    · simp [State.ret, State.emit, State.setPc, State.store, Event.isWin, h.noWin rfl]
  | initialising w =>
    have hguard : s.guard = 1 := h.guard
    simp only [hguard, show ¬ ((1 : UInt8) = 2) by decide, if_false, if_true, Option.some.injEq] at hstep
    subst hstep
    refine ⟨.initialising w, rfl, h.writer, ?_, h.released, h.wins, h.noWin, h.late⟩
    intro hany
    simpa [State.store] using h.past hany
  | initialised holder =>
    have hreleased : s.log.any Event.isRelease = true := h.released.2 ⟨holder, rfl⟩
    cases holder with
    | none =>
      -- the thread takes the token
      have hguard : s.guard = 2 := h.guard
      simp only [hguard, if_true, Option.some.injEq] at hstep
      subst hstep
      refine ⟨.initialised (some t), rfl, ?_, ?_, ?_, h.wins, by simp, h.late⟩
      · intro u pc' hpc'
        exact h.writer_setPc (by simp [Phase.writer]) u pc' hpc'
      · intro hany
        exact absurd (hany.symm.trans hreleased) (by decide)
      · exact ⟨fun _ => ⟨_, rfl⟩, fun _ => hreleased⟩
    | some w =>
      have hguard : s.guard = 1 := h.guard
      simp only [hguard, show ¬ ((1 : UInt8) = 2) by decide, if_false, if_true, Option.some.injEq] at hstep
      subst hstep
      refine ⟨.initialised (some w), rfl, h.writer, ?_, h.released, h.wins, h.noWin, h.late⟩
      intro hany
      exact absurd (hany.symm.trans hreleased) (by decide)

/-- The steps of the thread that holds the token or initialises. -/
lemma State.At.store_two (h : s.At p) (hwriter : p.writer = some (t, s.pc t)) (e : Event τ)
    (he : e = .released t ∨ (e = .returned t 0 ∧ s.log.any Event.isRelease = true)) :
    (((s.store 2).setPc t .idle).emit e).At (.initialised none) := by
  have hreleased : (s.log ++ [e]).any Event.isRelease = true := by
    cases he with
    | inl hrelease => simp [hrelease, Event.isRelease]
    | inr hreturn => simp [hreturn.2]
  have hwin : Event.isWin e = false := by
    cases he with
    | inl hrelease => simp [hrelease, Event.isWin]
    | inr hreturn => simp [hreturn.1, Event.isWin]
  refine ⟨rfl, ?_, ?_, ?_, ?_, by simp, h.late.append ?_⟩
  · intro u pc' hpc'
    have howner : ∀ u pc', p.writer = some (u, pc') → u = t := by
      intro u pc' hu
      rw [hwriter, Option.some.injEq, Prod.mk.injEq] at hu
      exact hu.1.symm
    exact h.writer_setPc howner u pc' hpc'
  · intro hany
    exact absurd (hany.symm.trans hreleased) (by decide)
  · exact ⟨fun _ => ⟨none, rfl⟩, fun _ => hreleased⟩
  · simpa [State.emit, State.setPc, State.store, hwin] using h.wins
  · intro u hu
    cases he with
    | inl hrelease => simp [hrelease] at hu
    | inr hreturn => exact hreturn.2

lemma State.At.step (h : s.At p) {a : Action τ} (hstep : s.step a = some s') : ∃ p', s'.At p' := by
  cases a with
  | acquire t =>
    simp only [State.step] at hstep
    by_cases hpc : s.pc t = .idle
    · rw [if_pos hpc, Option.some.injEq] at hstep
      rw [← hstep]
      exact ⟨p, h.wait (by simp [hpc]) (by simp)⟩
    · simp [hpc] at hstep
  | load t value =>
    simp only [State.step] at hstep
    by_cases hload : s.pc t = .load ∧ value ∈ s.past
    · rw [if_pos hload] at hstep
      have hfrom : s.pc t ≠ .restore ∧ s.pc t ≠ .initialise := by simp [hload.1]
      by_cases hvalue : value = 2
      · rw [if_pos hvalue, Option.some.injEq] at hstep
        rw [← hstep]
        have hreleased := h.released_of_past (hvalue ▸ hload.2)
        exact ⟨p, (h.wait hfrom (by simp)).emit_late hreleased⟩
      · rw [if_neg hvalue, Option.some.injEq] at hstep
        rw [← hstep]
        exact ⟨p, h.wait hfrom (by simp)⟩
    · simp [hload] at hstep
  | exchange t =>
    by_cases hpc : s.pc t = .exchange
    · exact h.exchange hpc hstep
    · simp [State.step, hpc] at hstep
  | restore t =>
    simp only [State.step] at hstep
    by_cases hpc : s.pc t = .restore
    · rw [if_pos hpc, Option.some.injEq] at hstep
      rw [← hstep]
      have hwriter := (h.writer t .restore (Or.inl rfl)).1 hpc
      have hreleased : s.log.any Event.isRelease = true := by
        rw [h.released]
        cases p with
        | fresh => simp [Phase.writer] at hwriter
        | initialising w => simp [Phase.writer] at hwriter
        | initialised holder => exact ⟨holder, rfl⟩
      exact ⟨_, h.store_two (hpc ▸ hwriter) _ (Or.inr ⟨rfl, hreleased⟩)⟩
    · simp [hpc] at hstep
  | release t =>
    simp only [State.step] at hstep
    by_cases hpc : s.pc t = .initialise
    · rw [if_pos hpc, Option.some.injEq] at hstep
      rw [← hstep]
      have hwriter := (h.writer t .initialise (Or.inr rfl)).1 hpc
      exact ⟨_, h.store_two (hpc ▸ hwriter) _ (Or.inl rfl)⟩
    · simp [hpc] at hstep

end Step

/-! ### Runs -/

omit [DecidableEq τ] in
lemma start_at : (start : State τ).At .fresh := by
  refine ⟨rfl, ?_, ?_, ?_, by simp [start], fun _ => rfl, ?_⟩
  · intro t pc hpc
    cases hpc with
    | inl hrestore => simp [start, Phase.writer, hrestore]
    | inr hinit => simp [start, Phase.writer, hinit]
  · intro _
    simp [start]
  · simp [start]
  · intro before t after heq
    simp [start] at heq

lemma State.At.run {s s' : State τ} {p : Phase τ} (h : s.At p) (actions : List (Action τ))
    (hrun : s.run actions = some s') : ∃ p', s'.At p' := by
  induction actions generalizing s p with
  | nil =>
    rw [State.run, Option.some.injEq] at hrun
    exact ⟨p, hrun ▸ h⟩
  | cons a actions ih =>
    rw [State.run, Option.bind_eq_some_iff] at hrun
    obtain ⟨s₁, hstep, hrest⟩ := hrun
    obtain ⟨p₁, h₁⟩ := h.step hstep
    exact ih h₁ hrest

/-- At most one acquire returns 1, none returns 0 before the release, and after the release the value 2 is
in the guard or a thread has it. -/
theorem guard_token (actions : List (Action τ)) {s : State τ} (hrun : start.run actions = some s) :
    s.log.countP Event.isWin ≤ 1 ∧
    (∀ before t after, s.log = before ++ .returned t 0 :: after → ∃ u, .released u ∈ before) ∧
    ((∃ u, .released u ∈ s.log) → s.guard = 2 ∨ ∃ t, s.pc t = .restore) := by
  obtain ⟨p, h⟩ := start_at.run actions hrun
  have hmem : ∀ log : List (Event τ), log.any Event.isRelease = true ↔ ∃ u, .released u ∈ log := by
    intro log
    rw [List.any_eq_true]
    constructor
    · rintro ⟨e, he, hrelease⟩
      cases e with
      | returned t value => simp [Event.isRelease] at hrelease
      | released u => exact ⟨u, he⟩
    · rintro ⟨u, hu⟩
      exact ⟨_, hu, rfl⟩
  refine ⟨h.wins, fun before t after heq => (hmem before).1 (h.late before t after heq), fun hreleased => ?_⟩
  obtain ⟨holder, rfl⟩ := h.released.1 ((hmem s.log).2 hreleased)
  cases holder with
  | none => exact Or.inl h.guard
  | some t => exact Or.inr ⟨t, (h.writer t .restore (Or.inl rfl)).2 rfl⟩

/-- Thread `false` wins, thread `true` waits, and after the release it takes the value 2 out of the guard. -/
def sampleActions : List (Action Bool) :=
  [.acquire false, .load false 0, .acquire true, .exchange false, .load true 1, .exchange true, .release false,
    .exchange true]

theorem guard_token_sample : ∃ s : State Bool, start.run sampleActions = some s ∧ s.guard = 1 ∧
    (s.guard = 2 ∨ ∃ t, s.pc t = .restore) := by
  have hrun : ∃ s : State Bool, start.run sampleActions = some s ∧ s.guard = 1 ∧ .released false ∈ s.log :=
    ⟨_, rfl, by decide, by decide⟩
  obtain ⟨s, hs, hguard, hreleased⟩ := hrun
  exact ⟨s, hs, hguard, (guard_token sampleActions hs).2.2 ⟨false, hreleased⟩⟩

end Steps

end Cs300Projects.WeensyOS.Guard
