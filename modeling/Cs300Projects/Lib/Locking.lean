import Mathlib.Data.DFinsupp.WellFounded
import Mathlib.Data.Finset.Basic
import Mathlib.Order.Preorder.Finite
import Mathlib.Tactic.Common

/-!
# Threads that lock mutexes

A program of a thread is a tree of the mutexes that it locks and of its accesses to the state that the threads share. Every
mutex has a rank, and every access has mutexes that guard it. A program is safe if it waits only for mutexes that rank above
all that it holds, unlocks only what it holds, and makes no access without its guards. When all programs are safe, no access
is made while another thread holds one of its guards, and every run ends with all programs done and all mutexes free.
-/

namespace Locking

/-- A program with mutexes from `L`, whose accesses are those of `A`, with answers in `B`. `lock` waits; `tryLock` may fail
at any time. -/
inductive Prog (L A : Type) (B : A → Type) (ρ : Type) : Type where
  | done (r : ρ)
  | lock (l : L) (next : Prog L A B ρ)
  | tryLock (l : L) (next : Bool → Prog L A B ρ)
  | unlock (l : L) (next : Prog L A B ρ)
  | access (a : A) (next : B a → Prog L A B ρ)

variable {L A : Type} {B : A → Type} {ρ ρ' : Type}

namespace Prog

def bind : Prog L A B ρ → (ρ → Prog L A B ρ') → Prog L A B ρ'
  | .done r, f => f r
  | .lock l next, f => .lock l (next.bind f)
  | .tryLock l next, f => .tryLock l fun b => (next b).bind f
  | .unlock l next, f => .unlock l (next.bind f)
  | .access a next, f => .access a fun b => (next b).bind f

instance : Monad (Prog L A B) where
  pure := .done
  bind := Prog.bind

/-! ### The discipline -/

section Safe

variable [DecidableEq L] (rank : L → Nat) (guard : A → Finset L)

/-- With the mutexes `held`, the program is safe and ends with a result and mutexes for which `Q` holds. -/
def Safe : Prog L A B ρ → Finset L → (ρ → Finset L → Prop) → Prop
  | .done r, held, Q => Q r held
  | .lock l next, held, Q => (∀ m ∈ held, rank m < rank l) ∧ Safe next (insert l held) Q
  | .tryLock l next, held, Q => l ∉ held ∧ Safe (next true) (insert l held) Q ∧ Safe (next false) held Q
  | .unlock l next, held, Q => l ∈ held ∧ Safe next (held.erase l) Q
  | .access a next, held, Q => guard a ⊆ held ∧ ∀ b, Safe (next b) held Q

variable {rank guard} {p : Prog L A B ρ} {held : Finset L} {Q Q' : ρ → Finset L → Prop}

lemma Safe.mono (h : Safe rank guard p held Q) (hQ : ∀ r held, Q r held → Q' r held) : Safe rank guard p held Q' := by
  induction p generalizing held with
  | done r => exact hQ r held h
  | lock l next ih => exact ⟨h.1, ih h.2⟩
  | tryLock l next ih => exact ⟨h.1, ih true h.2.1, ih false h.2.2⟩
  | unlock l next ih => exact ⟨h.1, ih h.2⟩
  | access a next ih => exact ⟨h.1, fun b => ih b (h.2 b)⟩

lemma safe_bind {f : ρ → Prog L A B ρ'} {Q' : ρ' → Finset L → Prop}
    (h : Safe rank guard p held fun r held => Safe rank guard (f r) held Q') : Safe rank guard (p >>= f) held Q' := by
  change Safe rank guard (p.bind f) held Q'
  induction p generalizing held with
  | done r => exact h
  | lock l next ih => exact ⟨h.1, ih h.2⟩
  | tryLock l next ih => exact ⟨h.1, ih true h.2.1, ih false h.2.2⟩
  | unlock l next ih => exact ⟨h.1, ih h.2⟩
  | access a next ih => exact ⟨h.1, fun b => ih b (h.2 b)⟩

end Safe

/-! ### The statements as programs -/

def mutexLock (l : L) : Prog L A B Unit := .lock l (.done ())

def mutexTryLock (l : L) : Prog L A B Bool := .tryLock l .done

def mutexUnlock (l : L) : Prog L A B Unit := .unlock l (.done ())

def perform (a : A) : Prog L A B (B a) := .access a .done

section Statements

variable [DecidableEq L] {rank : L → Nat} {guard : A → Finset L} {held : Finset L} {l : L} {a : A}
  {Q : ρ → Finset L → Prop}

lemma safe_lock {f : Unit → Prog L A B ρ} (hrank : ∀ m ∈ held, rank m < rank l)
    (h : Safe rank guard (f ()) (insert l held) Q) : Safe rank guard (mutexLock l >>= f) held Q := ⟨hrank, h⟩

lemma safe_tryLock {f : Bool → Prog L A B ρ} (hl : l ∉ held) (htrue : Safe rank guard (f true) (insert l held) Q)
    (hfalse : Safe rank guard (f false) held Q) : Safe rank guard (mutexTryLock l >>= f) held Q := ⟨hl, htrue, hfalse⟩

lemma safe_unlock {f : Unit → Prog L A B ρ} (hl : l ∈ held) (h : Safe rank guard (f ()) (held.erase l) Q) :
    Safe rank guard (mutexUnlock l >>= f) held Q := ⟨hl, h⟩

lemma safe_perform {f : B a → Prog L A B ρ} (hguard : guard a ⊆ held) (h : ∀ b, Safe rank guard (f b) held Q) :
    Safe rank guard (perform a >>= f) held Q := ⟨hguard, h⟩

lemma safe_pure {r : ρ} (h : Q r held) : Safe rank guard (pure r : Prog L A B ρ) held Q := h

end Statements

/-- `p` is what the program goes on with after its first statement. -/
inductive Next : Prog L A B ρ → Prog L A B ρ → Prop where
  | lock (l : L) (next : Prog L A B ρ) : Next next (.lock l next)
  | tryLock (l : L) (next : Bool → Prog L A B ρ) (b : Bool) : Next (next b) (.tryLock l next)
  | unlock (l : L) (next : Prog L A B ρ) : Next next (.unlock l next)
  | access (a : A) (next : B a → Prog L A B ρ) (b : B a) : Next (next b) (.access a next)

lemma next_wellFounded : WellFounded (Next : Prog L A B ρ → Prog L A B ρ → Prop) := by
  refine ⟨fun p => ?_⟩
  induction p with
  | done r => exact ⟨_, fun q hq => nomatch hq⟩
  | lock l next ih =>
    refine ⟨_, fun q hq => ?_⟩
    cases hq
    exact ih
  | tryLock l next ih =>
    refine ⟨_, fun q hq => ?_⟩
    cases hq
    exact ih _
  | unlock l next ih =>
    refine ⟨_, fun q hq => ?_⟩
    cases hq
    exact ih
  | access a next ih =>
    refine ⟨_, fun q hq => ?_⟩
    cases hq
    exact ih _

end Prog

/-! ### Running threads -/

/-- The owners of the mutexes, the shared state, and what the threads still have to do. -/
structure Config (L A : Type) (B : A → Type) (ρ τ σ : Type) where
  owner : L → Option τ
  state : σ
  prog : τ → Prog L A B ρ

section Disciplined

variable {τ σ : Type} [DecidableEq L] (rank : L → Nat) (guard : A → Finset L)

/-- Every thread owns what its program takes as held, and ends without mutexes. -/
structure Disciplined (c : Config L A B ρ τ σ) (held : τ → Finset L) : Prop where
  owner : ∀ t l, l ∈ held t ↔ c.owner l = some t
  safe : ∀ t, (c.prog t).Safe rank guard (held t) fun _ rest => rest = ∅

variable {rank guard} {c : Config L A B ρ τ σ} {held : τ → Finset L} {t t' : τ}

/-- A thread that makes an access owns all mutexes that guard it. -/
theorem Disciplined.guarded (h : Disciplined rank guard c held) {a : A} {next : B a → Prog L A B ρ}
    (hprog : c.prog t = .access a next) {l : L} (hl : l ∈ guard a) : c.owner l = some t := by
  have hsafe := h.safe t
  rw [hprog] at hsafe
  exact (h.owner t l).1 (hsafe.1 hl)

/-- Accesses of two threads at one time have no guard in common. -/
theorem Disciplined.apart (h : Disciplined rank guard c held) {a a' : A} {next : B a → Prog L A B ρ}
    {next' : B a' → Prog L A B ρ} (hne : t ≠ t') (hprog : c.prog t = .access a next) (hprog' : c.prog t' = .access a' next') :
    Disjoint (guard a) (guard a') := by
  rw [Finset.disjoint_left]
  intro l hl hl'
  have howner := h.guarded hprog hl
  rw [h.guarded hprog' hl'] at howner
  exact hne (Option.some.inj howner).symm

/-- The program has ended. -/
def Prog.Done : Prog L A B ρ → Prop
  | .done _ => True
  | _ => False

lemma Disciplined.held_of_done (h : Disciplined rank guard c held) (hdone : (c.prog t).Done) : held t = ∅ := by
  have hsafe := h.safe t
  cases hprog : c.prog t with
  | done r =>
    rw [hprog] at hsafe
    exact hsafe
  | _ =>
    rw [hprog] at hdone
    cases hdone

end Disciplined

section Run

variable {τ σ : Type} [DecidableEq τ] [DecidableEq L] (effect : σ → (a : A) → B a → σ → Prop)

/-- One statement of one thread. -/
inductive Step : Config L A B ρ τ σ → Config L A B ρ τ σ → Prop where
  | lock {c : Config L A B ρ τ σ} {t : τ} {l : L} {next : Prog L A B ρ} (hprog : c.prog t = .lock l next)
      (hfree : c.owner l = none) :
      Step c ⟨Function.update c.owner l (some t), c.state, Function.update c.prog t next⟩
  | tryLock {c : Config L A B ρ τ σ} {t : τ} {l : L} {next : Bool → Prog L A B ρ} (hprog : c.prog t = .tryLock l next)
      (hfree : c.owner l = none) :
      Step c ⟨Function.update c.owner l (some t), c.state, Function.update c.prog t (next true)⟩
  | tryFail {c : Config L A B ρ τ σ} {t : τ} {l : L} {next : Bool → Prog L A B ρ} (hprog : c.prog t = .tryLock l next) :
      Step c ⟨c.owner, c.state, Function.update c.prog t (next false)⟩
  | unlock {c : Config L A B ρ τ σ} {t : τ} {l : L} {next : Prog L A B ρ} (hprog : c.prog t = .unlock l next) :
      Step c ⟨Function.update c.owner l none, c.state, Function.update c.prog t next⟩
  | access {c : Config L A B ρ τ σ} {t : τ} {a : A} {next : B a → Prog L A B ρ} {b : B a} {s : σ}
      (hprog : c.prog t = .access a next) (heffect : effect c.state a b s) :
      Step c ⟨c.owner, s, Function.update c.prog t (next b)⟩

/-- The configurations of the runs from `c`. -/
def Reaches (c c' : Config L A B ρ τ σ) : Prop := Relation.ReflTransGen (Step effect) c c'

variable {effect} {rank : L → Nat} {guard : A → Finset L} {c c' : Config L A B ρ τ σ} {held : τ → Finset L} {t : τ}

/-- A thread goes on with `next`, and the other threads keep their mutexes. -/
lemma Disciplined.update (h : Disciplined rank guard c held) {owner : L → Option τ} {s : σ} {next : Prog L A B ρ}
    {mine : Finset L} (hmine : ∀ l, l ∈ mine ↔ owner l = some t)
    (hothers : ∀ u, u ≠ t → ∀ l, c.owner l = some u ↔ owner l = some u)
    (hsafe : next.Safe rank guard mine fun _ rest => rest = ∅) :
    Disciplined rank guard ⟨owner, s, Function.update c.prog t next⟩ (Function.update held t mine) := by
  constructor
  case owner =>
    intro u l
    by_cases hu : u = t
    · subst hu
      rw [Function.update_self]
      exact hmine l
    · rw [Function.update_of_ne hu]
      exact (h.owner u l).trans (hothers u hu l)
  case safe =>
    intro u
    dsimp only
    by_cases hu : u = t
    · subst hu
      rw [Function.update_self, Function.update_self]
      exact hsafe
    · rw [Function.update_of_ne hu, Function.update_of_ne hu]
      exact h.safe u

/-- A thread takes a free mutex. -/
lemma Disciplined.take (h : Disciplined rank guard c held) {l : L} {next : Prog L A B ρ} (hfree : c.owner l = none)
    (hsafe : next.Safe rank guard (insert l (held t)) fun _ rest => rest = ∅) :
    Disciplined rank guard ⟨Function.update c.owner l (some t), c.state, Function.update c.prog t next⟩
      (Function.update held t (insert l (held t))) := by
  refine h.update ?_ ?_ hsafe
  · intro m
    rw [Finset.mem_insert, h.owner]
    by_cases hm : m = l
    · subst hm
      rw [Function.update_self]
      exact ⟨fun _ => rfl, fun _ => Or.inl rfl⟩
    · rw [Function.update_of_ne hm]
      exact ⟨fun hor => hor.resolve_left hm, Or.inr⟩
  · intro u hu m
    by_cases hm : m = l
    · subst hm
      rw [Function.update_self, hfree]
      exact iff_of_false (fun hnone => nomatch hnone) (fun hsome => hu (Option.some.inj hsome).symm)
    · rw [Function.update_of_ne hm]

/-- A thread gives back a mutex that it owns. -/
lemma Disciplined.giveBack (h : Disciplined rank guard c held) {l : L} {next : Prog L A B ρ} (hl : l ∈ held t)
    (hsafe : next.Safe rank guard ((held t).erase l) fun _ rest => rest = ∅) :
    Disciplined rank guard ⟨Function.update c.owner l none, c.state, Function.update c.prog t next⟩
      (Function.update held t ((held t).erase l)) := by
  refine h.update ?_ ?_ hsafe
  · intro m
    rw [Finset.mem_erase, h.owner]
    by_cases hm : m = l
    · subst hm
      rw [Function.update_self]
      exact iff_of_false (fun hand => hand.1 rfl) (fun hnone => nomatch hnone)
    · rw [Function.update_of_ne hm]
      exact ⟨fun hand => hand.2, fun hown => ⟨hm, hown⟩⟩
  · intro u hu m
    by_cases hm : m = l
    · subst hm
      rw [Function.update_self, (h.owner t m).1 hl]
      exact iff_of_false (fun hsome => hu (Option.some.inj hsome).symm) (fun hnone => nomatch hnone)
    · rw [Function.update_of_ne hm]

theorem Disciplined.step (h : Disciplined rank guard c held) (hstep : Step effect c c') :
    ∃ held', Disciplined rank guard c' held' := by
  cases hstep with
  | @lock t l next hprog hfree =>
    have hsafe := h.safe t
    rw [hprog] at hsafe
    exact ⟨_, h.take hfree hsafe.2⟩
  | @tryLock t l next hprog hfree =>
    have hsafe := h.safe t
    rw [hprog] at hsafe
    exact ⟨_, h.take hfree hsafe.2.1⟩
  | @tryFail t l next hprog =>
    have hsafe := h.safe t
    rw [hprog] at hsafe
    exact ⟨_, h.update (h.owner t) (fun _ _ _ => Iff.rfl) hsafe.2.2⟩
  | @unlock t l next hprog =>
    have hsafe := h.safe t
    rw [hprog] at hsafe
    exact ⟨_, h.giveBack hsafe.1 hsafe.2⟩
  | @access t a next b s hprog heffect =>
    have hsafe := h.safe t
    rw [hprog] at hsafe
    exact ⟨_, h.update (h.owner t) (fun _ _ _ => Iff.rfl) (hsafe.2 b)⟩

theorem Disciplined.reaches (h : Disciplined rank guard c held) (hreaches : Reaches effect c c') :
    ∃ held', Disciplined rank guard c' held' := by
  induction hreaches with
  | refl => exact ⟨held, h⟩
  | tail _ hstep ih =>
    obtain ⟨held', h'⟩ := ih
    exact h'.step hstep

/-- A thread that cannot go on waits for a mutex that another one owns, and which ranks above all that it holds. -/
lemma Disciplined.waits (h : Disciplined rank guard c held) (heffect : ∀ s a, ∃ b s', effect s a b s')
    (hstuck : ∀ c', ¬ Step effect c c') (hrun : ¬ (c.prog t).Done) :
    ∃ l t', c.owner l = some t' ∧ ∀ m ∈ held t, rank m < rank l := by
  have hsafe := h.safe t
  cases hprog : c.prog t with
  | done r =>
    rw [hprog] at hrun
    exact absurd trivial hrun
  | lock l next =>
    rw [hprog] at hsafe
    cases howner : c.owner l with
    | none => exact absurd (.lock hprog howner) (hstuck _)
    | some t' => exact ⟨l, t', howner, hsafe.1⟩
  | tryLock l next => exact absurd (.tryFail hprog) (hstuck _)
  | unlock l next => exact absurd (.unlock hprog) (hstuck _)
  | access a next =>
    obtain ⟨b, s', hs'⟩ := heffect c.state a
    exact absurd (.access hprog hs') (hstuck _)

/-- The threads are never all blocked: where none can go on, all have ended, and no mutex is locked. -/
theorem Disciplined.ends [Finite τ] (h : Disciplined rank guard c held) (heffect : ∀ s a, ∃ b s', effect s a b s')
    (hstuck : ∀ c', ¬ Step effect c c') : (∀ t, (c.prog t).Done) ∧ ∀ l, c.owner l = none := by
  have hfree : ∀ l, c.owner l = none := by
    by_contra howned
    simp only [not_forall] at howned
    have howners : {l | c.owner l ≠ none} = ⋃ t, (held t : Set L) := by
      ext l
      simp only [Set.mem_ofPred_eq, Set.mem_iUnion, Finset.mem_coe, h.owner, Option.ne_none_iff_exists']
    have hfinite : {l | c.owner l ≠ none}.Finite := by
      rw [howners]
      exact Set.finite_iUnion fun t => (held t).finite_toSet
    -- of the mutexes that are owned, one has the highest rank
    obtain ⟨l, hl, hmax⟩ := hfinite.exists_maximalFor rank _ howned
    obtain ⟨t, ht⟩ := Option.ne_none_iff_exists'.1 hl
    have hheld := (h.owner t l).2 ht
    have hrun : ¬ (c.prog t).Done := by
      intro hdone
      rw [h.held_of_done hdone] at hheld
      exact absurd hheld (Finset.notMem_empty l)
    obtain ⟨m, t', hm, habove⟩ := h.waits heffect hstuck hrun
    have hlt := habove l hheld
    have hmem : m ∈ {l | c.owner l ≠ none} := Option.ne_none_iff_exists'.2 ⟨t', hm⟩
    have hle := hmax hmem hlt.le
    omega
  refine ⟨fun t => ?_, hfree⟩
  by_contra hrun
  obtain ⟨l, t', howner, -⟩ := h.waits heffect hstuck hrun
  rw [hfree l] at howner
  cases howner

omit [DecidableEq L] in
/-- A thread that goes on comes nearer to the end of its program. -/
lemma lex_update (prog : τ → Prog L A B ρ) (t : τ) {next : Prog L A B ρ} (hnext : Prog.Next next (prog t)) :
    Pi.Lex WellOrderingRel (fun {_} => Prog.Next) (Function.update prog t next) prog := by
  refine ⟨t, fun u hu => ?_, ?_⟩
  · have hne : u ≠ t := by
      rintro rfl
      exact irrefl u hu
    rw [Function.update_of_ne hne]
  · rw [Function.update_self]
    exact hnext

/-- No run goes on forever. -/
theorem step_wellFounded [Finite τ] : WellFounded fun c' c : Config L A B ρ τ σ => Step effect c c' := by
  have hprogs : WellFounded (Pi.Lex (WellOrderingRel (α := τ)) fun {_} => Prog.Next (L := L) (A := A) (B := B) (ρ := ρ)) :=
    Pi.Lex.wellFounded _ fun _ => Prog.next_wellFounded
  refine Subrelation.wf ?_ (InvImage.wf Config.prog hprogs)
  intro c' c hstep
  cases hstep with
  | @lock t l next hprog =>
    apply lex_update
    rw [hprog]
    exact .lock l next
  | @tryLock t l next hprog =>
    apply lex_update
    rw [hprog]
    exact .tryLock l next true
  | @tryFail t l next hprog =>
    apply lex_update
    rw [hprog]
    exact .tryLock l next false
  | @unlock t l next hprog =>
    apply lex_update
    rw [hprog]
    exact .unlock l next
  | @access t a next b s hprog =>
    apply lex_update
    rw [hprog]
    exact .access a next b

end Run

end Locking
