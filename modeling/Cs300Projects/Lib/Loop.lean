import Mathlib.Computability.StateTransition
import Mathlib.Data.List.Chain
import Mathlib.Tactic.Common

/-!
# Loops run with fuel

A loop body maps a state either to the next state or to the result with which the loop is
left. `run` performs at most a given number of rounds. A measure that decreases in every
round bounds the number of rounds needed, and an invariant of the rounds holds at the exit.
A loop of the form `for (; active; next) visit` is run together with the list of its visits.
-/

namespace Loop

/-- One round of a loop: go on with a new state, or leave with a result. -/
inductive Round (σ ρ : Type*) where
  | next (s : σ)
  | done (r : ρ)

variable {σ ρ : Type*} (body : σ → Round σ ρ)

/-- At most `fuel` rounds of the loop; `none` when they do not reach the exit. -/
def run : Nat → σ → Option ρ
  | 0, _ => none
  | fuel + 1, s =>
    match body s with
    | .next s' => run fuel s'
    | .done r => some r

lemma run_next {s s' : σ} (h : body s = .next s') (fuel : Nat) :
    run body (fuel + 1) s = run body fuel s' := by
  rw [run, h]

lemma run_done {s : σ} {r : ρ} (h : body s = .done r) (fuel : Nat) :
    run body (fuel + 1) s = some r := by
  rw [run, h]

lemma run_mono {n k : Nat} {s : σ} {r : ρ} (h : run body n s = some r) (hk : n ≤ k) :
    run body k s = some r := by
  induction n generalizing k s with
  | zero => simp [run] at h
  | succ n ih =>
    obtain ⟨k, rfl⟩ : ∃ k', k = k' + 1 := ⟨k - 1, by omega⟩
    cases hb : body s with
    | next s' =>
      rw [run_next body hb] at h ⊢
      exact ih h (by omega)
    | done r' =>
      rw [run_done body hb] at h ⊢
      exact h

/-- What holds at the exit of a loop whose rounds preserve `I`. -/
theorem run_invariant (I : σ → Prop) (Q : ρ → Prop)
    (hnext : ∀ s s', I s → body s = .next s' → I s')
    (hdone : ∀ s r, I s → body s = .done r → Q r) {fuel : Nat} {s : σ} {r : ρ}
    (hs : I s) (h : run body fuel s = some r) : Q r := by
  induction fuel generalizing s with
  | zero => simp [run] at h
  | succ fuel ih =>
    cases hb : body s with
    | next s' =>
      rw [run_next body hb] at h
      exact ih (hnext s s' hs hb) h
    | done r' =>
      rw [run_done body hb, Option.some.injEq] at h
      exact h ▸ hdone s r' hs hb

/-- A loop whose measure decreases in every round is left, with the property `Q` of the exits,
as soon as the fuel exceeds the measure. -/
theorem run_total (I : σ → Prop) (Q : ρ → Prop) (μ : σ → Nat)
    (hnext : ∀ s s', I s → body s = .next s' → I s' ∧ μ s' < μ s)
    (hdone : ∀ s r, I s → body s = .done r → Q r) {n : Nat} {s : σ}
    (hs : I s) (hfuel : μ s < n) : ∃ r, run body n s = some r ∧ Q r := by
  induction n generalizing s with
  | zero => omega
  | succ n ih =>
    cases hb : body s with
    | next s' =>
      obtain ⟨hs', hμ⟩ := hnext s s' hs hb
      rw [run_next body hb]
      exact ih hs' (by omega)
    | done r => exact ⟨r, run_done body hb n, hdone s r hs hb⟩

lemma run_congr {body' : σ → Round σ ρ} (I : σ → Prop) (hbody : ∀ s, I s → body' s = body s)
    (hnext : ∀ s s', I s → body s = .next s' → I s') {s : σ} (hs : I s) (fuel : Nat) :
    run body' fuel s = run body fuel s := by
  induction fuel generalizing s with
  | zero => rfl
  | succ fuel ih =>
    rw [run, run, hbody s hs]
    cases hb : body s with
    | next s' => exact ih (hnext s s' hs hb)
    | done r => rfl

/-! ### The states of a loop -/

section Reaches

/-- The state behind the round, unless the loop is left. -/
def Round.state : Round σ ρ → Option σ
  | .next s => some s
  | .done _ => none

/-- The rounds of the loop lead from `s` to `t`. -/
def Reaches (s t : σ) : Prop := StateTransition.Reaches (fun s => (body s).state) s t

variable {body} {s t u : σ}

lemma state_eq_some {r : Round σ ρ} : r.state = some s ↔ r = .next s := by
  cases r with
  | next s' => simp [Round.state]
  | done r' => simp [Round.state]

lemma Reaches.refl : Reaches body s s := Relation.ReflTransGen.refl

lemma Reaches.next (h : Reaches body s t) (hb : body t = .next u) : Reaches body s u :=
  Relation.ReflTransGen.tail h (state_eq_some.2 hb)

lemma Reaches.trans (h : Reaches body s t) (h' : Reaches body t u) : Reaches body s u :=
  Relation.ReflTransGen.trans h h'

/-- A loop has one sequence of states. -/
lemma Reaches.total (ht : Reaches body s t) (hu : Reaches body s u) : Reaches body t u ∨ Reaches body u t :=
  StateTransition.reaches_total ht hu

lemma Reaches.eq_or_next (h : Reaches body s t) : s = t ∨ ∃ u, body s = .next u ∧ Reaches body u t := by
  rcases Relation.ReflTransGen.cases_head h with heq | ⟨u, hu, hrest⟩
  · exact Or.inl heq
  · exact Or.inr ⟨u, state_eq_some.1 hu, hrest⟩

/-- What the rounds preserve holds in every state of the loop. -/
theorem Reaches.invariant {I : σ → Prop} (h : Reaches body s t) (hs : I s)
    (hnext : ∀ t u, Reaches body s t → I t → body t = .next u → I u) : I t := by
  unfold Reaches StateTransition.Reaches at h
  induction h with
  | refl => exact hs
  | tail hst hstep ih => exact hnext _ _ hst ih (state_eq_some.1 hstep)

end Reaches

/-! ### Loops that search -/

/-- `while (n != 0 && !p(i)) { ++i; --n; }`: the first of `n` indices from `i` on with `p`, or the end. -/
def seek (p : Nat → Bool) : Nat → Nat → Nat
  | 0, i => i
  | n + 1, i => if p i then i else seek p n (i + 1)

/-- Where the search ends. -/
structure Sought (p : Nat → Bool) (n i j : Nat) : Prop where
  ge : i ≤ j
  le : j ≤ i + n
  before : ∀ k, i ≤ k → k < j → p k = false
  here : j < i + n → p j = true

lemma seek_sought (p : Nat → Bool) (n i : Nat) : Sought p n i (seek p n i) := by
  induction n generalizing i with
  | zero =>
    exact ⟨Nat.le_refl i, Nat.le_refl i, fun k hk hlt => absurd hlt (Nat.not_lt.2 hk),
      fun h => absurd h (by simp [seek])⟩
  | succ n ih =>
    rw [seek]
    split
    · rename_i hp
      exact ⟨Nat.le_refl i, Nat.le_add_right i _, fun k hk hlt => absurd hlt (Nat.not_lt.2 hk), fun _ => hp⟩
    · rename_i hp
      have hrest := ih (i + 1)
      refine ⟨Nat.le_of_succ_le hrest.ge, by have := hrest.le; omega, ?_, fun h => hrest.here (by omega)⟩
      intro k hk hlt
      rcases Nat.lt_or_eq_of_le hk with hik | rfl
      · exact hrest.before k hik hlt
      · exact Bool.eq_false_iff.2 hp

lemma seek_eq {p : Nat → Bool} {n i j : Nat} (h : Sought p n i j) : seek p n i = j := by
  have hseek := seek_sought p n i
  rcases Nat.lt_trichotomy (seek p n i) j with hlt | heq | hgt
  · have hfalse := h.before _ hseek.ge hlt
    rw [hseek.here (Nat.lt_of_lt_of_le hlt h.le)] at hfalse
    cases hfalse
  · exact heq
  · have hfalse := hseek.before j h.ge hgt
    rw [h.here (Nat.lt_of_lt_of_le hgt hseek.le)] at hfalse
    cases hfalse

lemma seek_congr {p q : Nat → Bool} {n i : Nat} (h : ∀ k, i ≤ k → k < i + n → q k = p k) :
    seek q n i = seek p n i := by
  have hseek := seek_sought p n i
  apply seek_eq
  refine ⟨hseek.ge, hseek.le, ?_, ?_⟩
  · intro k hk hlt
    rw [h k hk (Nat.lt_of_lt_of_le hlt hseek.le)]
    exact hseek.before k hk hlt
  · intro hlt
    rw [h _ hseek.ge hlt]
    exact hseek.here hlt

/-! ### Loops that visit -/

section Visit

variable {τ ε : Type*} (active : σ → Bool) (emit : σ → τ) (next : List τ → σ → Except ε σ)

/-- One round of `for (; active; next) visit`; `next` may depend on what was visited. -/
def visitRound (s : List τ × σ) : Round (List τ × σ) (Except ε (List τ × σ)) :=
  if active s.2 then
    match next (s.1 ++ [emit s.2]) s.2 with
    | .ok s' => .next (s.1 ++ [emit s.2], s')
    | .error e => .done (.error e)
  else .done (.ok s)

variable {active emit next} in
/-- A loop that ends, behind its first round. -/
lemma run_visit {l : List τ} {s s' : σ} (ha : active s = true) (hn : next (l ++ [emit s]) s = .ok s')
    {fuel : Nat} {r : Except ε (List τ × σ)} (hrun : run (visitRound active emit next) fuel (l, s) = some r) :
    ∃ n, run (visitRound active emit next) n (l ++ [emit s], s') = some r := by
  cases fuel with
  | zero => simp [run] at hrun
  | succ n =>
    have hround : visitRound active emit next (l, s) = .next (l ++ [emit s], s') := by simp [visitRound, ha, hn]
    rw [run_next _ hround] at hrun
    exact ⟨n, hrun⟩

variable {active emit next} in
lemma visit_subset_run {fuel : Nat} {l r : List τ} {s t : σ}
    (hrun : run (visitRound active emit next) fuel (l, s) = some (.ok (r, t))) : l <+: r := by
  induction fuel generalizing l s with
  | zero => simp [run] at hrun
  | succ fuel ih =>
    cases ha : active s with
    | false =>
      rw [run_done (r := .ok (l, s)) _ (by simp [visitRound, ha]), Option.some.injEq, Except.ok.injEq,
        Prod.mk.injEq] at hrun
      exact hrun.1 ▸ List.prefix_refl l
    | true =>
      cases hn : next (l ++ [emit s]) s with
      | ok s' =>
        have hround : visitRound active emit next (l, s) = .next (l ++ [emit s], s') := by simp [visitRound, ha, hn]
        rw [run_next _ hround] at hrun
        exact (List.prefix_append l _).trans (ih hrun)
      | error e =>
        rw [run_done (r := .error e) _ (by simp [visitRound, ha, hn])] at hrun
        simp at hrun

/-- A loop whose `next` succeeds, keeps `J` and decreases the measure visits up to an inactive
state. -/
theorem visit_total (J : List τ → σ → Prop) (μ : σ → Nat)
    (hnext : ∀ l s, J l s → active s = true → ∃ s', next (l ++ [emit s]) s = .ok s' ∧
      J (l ++ [emit s]) s' ∧ μ s' < μ s) {n : Nat} {l : List τ} {s : σ} (hs : J l s)
    (hfuel : μ s < n) : ∃ l' s', run (visitRound active emit next) n (l, s) =
      some (.ok (l', s')) ∧ J l' s' ∧ active s' = false := by
  have htotal := run_total (visitRound active emit next) (fun t => J t.1 t.2)
    (fun r => ∃ l' s', r = .ok (l', s') ∧ J l' s' ∧ active s' = false) (fun t => μ t.2) ?_ ?_
    (s := (l, s)) hs hfuel
  · obtain ⟨r, hrun, l', s', rfl, hJ, hactive⟩ := htotal
    exact ⟨l', s', hrun, hJ, hactive⟩
  · rintro ⟨l, s⟩ t hJ hbody
    unfold visitRound at hbody
    cases ha : active s
    · simp [ha] at hbody
    · obtain ⟨s', hs', hJ', hμ⟩ := hnext l s hJ ha
      simp only [ha, hs', if_true, Round.next.injEq] at hbody
      rw [← hbody]
      exact ⟨hJ', hμ⟩
  · rintro ⟨l, s⟩ r hJ hbody
    unfold visitRound at hbody
    cases ha : active s
    · simp only [ha, Bool.false_eq_true, if_false, Round.done.injEq] at hbody
      exact ⟨l, s, hbody.symm, hJ, ha⟩
    · obtain ⟨s', hs', _, _⟩ := hnext l s hJ ha
      simp [ha, hs'] at hbody

/-- A loop that is simulated step by step visits the images of the visits. -/
theorem visit_simulation {σ' τ' : Type*} (active' : σ' → Bool) (emit' : σ' → τ')
    (next' : List τ' → σ' → Except ε σ') (f : τ → τ') (Rel : List τ → σ → σ' → Prop)
    (hactive : ∀ l s s', Rel l s s' → active' s' = active s)
    (hstep : ∀ l s s', Rel l s s' → active s = true → emit' s' = f (emit s) ∧
      ∀ t, next (l ++ [emit s]) s = .ok t →
        ∃ t', next' ((l ++ [emit s]).map f) s' = .ok t' ∧ Rel (l ++ [emit s]) t t')
    {fuel : Nat} {l r : List τ} {s t : σ} {s' : σ'} (hrel : Rel l s s')
    (hrun : run (visitRound active emit next) fuel (l, s) = some (.ok (r, t))) :
    ∃ t', run (visitRound active' emit' next') fuel (l.map f, s') = some (.ok (r.map f, t')) ∧
      Rel r t t' := by
  induction fuel generalizing l s s' with
  | zero => simp [run] at hrun
  | succ fuel ih =>
    have hsame := hactive l s s' hrel
    cases ha : active s
    · have hbody : visitRound active emit next (l, s) = .done (.ok (l, s)) := by
        simp [visitRound, ha]
      have hbody' : visitRound active' emit' next' (l.map f, s') = .done (.ok (l.map f, s')) := by
        simp [visitRound, hsame, ha]
      rw [run_done _ hbody, Option.some.injEq, Except.ok.injEq, Prod.mk.injEq] at hrun
      rw [run_done _ hbody', ← hrun.1, ← hrun.2]
      exact ⟨s', rfl, hrel⟩
    · obtain ⟨hemit, hnext⟩ := hstep l s s' hrel ha
      cases hn : next (l ++ [emit s]) s with
      | error e =>
        have hbody : visitRound active emit next (l, s) = .done (.error e) := by
          simp [visitRound, ha, hn]
        rw [run_done _ hbody] at hrun
        simp at hrun
      | ok t₁ =>
        obtain ⟨t₁', hn', hrel'⟩ := hnext t₁ hn
        have hbody : visitRound active emit next (l, s) = .next (l ++ [emit s], t₁) := by
          simp [visitRound, ha, hn]
        have hbody' : visitRound active' emit' next' (l.map f, s') =
            .next ((l ++ [emit s]).map f, t₁') := by
          rw [List.map_append, List.map_singleton] at hn' ⊢
          simp [visitRound, hsame, ha, hemit, hn']
        rw [run_next _ hbody] at hrun
        rw [run_next _ hbody']
        exact ih hrel' hrun

/-- Between the first state and the end of a chain, every value lies between two neighbours. -/
lemma chain_interval {R : σ → σ → Prop} (f : σ → Nat) {a : Nat} {l : List σ} {e : σ}
    (h : List.IsChain R (l ++ [e])) (hhead : ∀ x, (l ++ [e]).head? = some x → f x ≤ a)
    (hend : a < f e) : ∃ x y, x ∈ l ∧ R x y ∧ f x ≤ a ∧ a < f y := by
  induction l with
  | nil => exact absurd (hhead e rfl) (by omega)
  | cons x l ih =>
    obtain ⟨y, t, hy⟩ : ∃ y t, l ++ [e] = y :: t := by
      cases l with
      | nil => exact ⟨e, [], rfl⟩
      | cons y l => exact ⟨y, l ++ [e], rfl⟩
    rw [List.cons_append, hy, List.isChain_cons_cons] at h
    rcases Nat.lt_or_ge a (f y) with hlt | hge
    · exact ⟨x, y, List.mem_cons_self, h.1, hhead x rfl, hlt⟩
    · have hrest := ih (by rw [hy]; exact h.2) (by
        rw [hy]
        intro z hz
        rw [List.head?_cons, Option.some.injEq] at hz
        exact hz ▸ hge)
      obtain ⟨x', y', hx', hxy⟩ := hrest
      exact ⟨x', y', List.mem_cons_of_mem _ hx', hxy⟩

end Visit

end Loop
