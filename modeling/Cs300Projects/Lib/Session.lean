import Mathlib.Data.List.Forall2
import Mathlib.Tactic.Common

/-!
# Sessions of calls

An object answers one call after the other; a call that has no meaning in the state it is made in
stops the session. Two objects answer a session alike when a relation between their states, which
may look at the calls made so far, is kept by every call.
-/

namespace Session

variable {κ ρ σ σ' : Type*}

/-- The answers to a list of calls, with the state after the last one. -/
def run (step : σ → κ → Option (ρ × σ)) (s : σ) : List κ → Option (List ρ × σ)
  | [] => some ([], s)
  | c :: calls => do
    let (r, s) ← step s c
    let (rs, s) ← run step s calls
    pure (r :: rs, s)

variable {step : σ → κ → Option (ρ × σ)} {step' : σ' → κ → Option (ρ × σ')}

lemma run_cons_eq_some {s t : σ} {c : κ} {calls : List κ} {rs : List ρ} :
    run step s (c :: calls) = some (rs, t) ↔
      ∃ r s₁ rs₁, step s c = some (r, s₁) ∧ run step s₁ calls = some (rs₁, t) ∧ rs = r :: rs₁ := by
  rw [run]
  simp only [Option.bind_eq_bind, Option.bind_eq_some_iff, Option.pure_def, Option.some.injEq, Prod.mk.injEq,
    Prod.exists]
  constructor
  · rintro ⟨r, s₁, hstep, rs₁, t₁, hrun, rfl, rfl⟩
    exact ⟨r, s₁, rs₁, hstep, hrun, rfl⟩
  · rintro ⟨r, s₁, rs₁, hstep, hrun, rfl⟩
    exact ⟨r, s₁, hstep, rs₁, t, hrun, rfl, rfl⟩

lemma length_run {s t : σ} {calls : List κ} {rs : List ρ} (h : run step s calls = some (rs, t)) :
    rs.length = calls.length := by
  induction calls generalizing s rs with
  | nil =>
    rw [run, Option.some.injEq, Prod.mk.injEq] at h
    rw [← h.1, List.length_nil, List.length_nil]
  | cons c calls ih =>
    obtain ⟨r, s₁, rs₁, -, hrun, rfl⟩ := run_cons_eq_some.1 h
    rw [List.length_cons, List.length_cons, ih hrun]

lemma run_middle {s t : σ} {before after : List κ} {c : κ} {rs : List ρ}
    (h : run step s (before ++ c :: after) = some (rs, t)) :
    ∃ rs₁ s₁ r s₂ rs₂, run step s before = some (rs₁, s₁) ∧ step s₁ c = some (r, s₂) ∧ rs = rs₁ ++ r :: rs₂ := by
  induction before generalizing s rs with
  | nil =>
    obtain ⟨r, s₁, rs₁, hstep, -, rfl⟩ := run_cons_eq_some.1 h
    exact ⟨[], s, r, s₁, rs₁, rfl, hstep, rfl⟩
  | cons d before ih =>
    obtain ⟨r, s₁, rs₁, hstep, hrun, rfl⟩ := run_cons_eq_some.1 h
    obtain ⟨rs₂, s₂, r', s₃, rs₃, hbefore, hcall, rfl⟩ := ih hrun
    exact ⟨r :: rs₂, s₂, r', s₃, rs₃, run_cons_eq_some.2 ⟨r, s₁, rs₂, hstep, hbefore, rfl⟩, hcall, rfl⟩

/-- Equal answers to a session are equal answers to each of its calls. -/
lemma answer_eq {s t : σ} {s' t' : σ'} {before after : List κ} {c : κ} {rs : List ρ}
    (h : run step s (before ++ c :: after) = some (rs, t)) (h' : run step' s' (before ++ c :: after) = some (rs, t')) :
    ∃ rs₁ s₁ rs₁' s₁' r s₂ s₂', run step s before = some (rs₁, s₁) ∧ run step' s' before = some (rs₁', s₁') ∧
      step s₁ c = some (r, s₂) ∧ step' s₁' c = some (r, s₂') := by
  obtain ⟨rs₁, s₁, r, s₂, rs₂, hbefore, hcall, hrs⟩ := run_middle h
  obtain ⟨rs₁', s₁', r', s₂', rs₂', hbefore', hcall', hrs'⟩ := run_middle h'
  have hlength : rs₁.length = rs₁'.length := by rw [length_run hbefore, length_run hbefore']
  obtain ⟨-, htail⟩ := List.append_inj (hrs.symm.trans hrs') hlength
  rw [List.cons.injEq] at htail
  exact ⟨rs₁, s₁, rs₁', s₁', r, s₂, s₂', hbefore, hbefore', hcall, htail.1 ▸ hcall'⟩

/-- Related objects stay related and give related answers: `R` may look at the calls made so far, and
each call of the session is `ok` after the calls before it. -/
theorem run_related {ρ' : Type*} {step' : σ' → κ → Option (ρ' × σ')} (A : ρ → ρ' → Prop)
    (R : List κ → σ → σ' → Prop) (ok : List κ → κ → Prop)
    (hstep : ∀ before c s s', ok before c → R before s s' →
      ∃ r t r' t', step s c = some (r, t) ∧ step' s' c = some (r', t') ∧ A r r' ∧ R (before ++ [c]) t t')
    (calls : List κ) {before : List κ} {s : σ} {s' : σ'} (h : R before s s')
    (hok : ∀ b c a, calls = b ++ c :: a → ok (before ++ b) c) :
    ∃ rs t rs' t', run step s calls = some (rs, t) ∧ run step' s' calls = some (rs', t') ∧ List.Forall₂ A rs rs' ∧
      R (before ++ calls) t t' := by
  induction calls generalizing before s s' with
  | nil => exact ⟨[], s, [], s', rfl, rfl, .nil, by rwa [List.append_nil]⟩
  | cons c calls ih =>
    obtain ⟨r, s₁, r', s₁', hcall, hcall', hr, h₁⟩ := hstep before c s s' (by simpa using hok [] c calls rfl) h
    obtain ⟨rs, t, rs', t', hrun, hrun', hrs, ht⟩ :=
      ih h₁ (fun b d a ha => by simpa using hok (c :: b) d a (by rw [ha]; rfl))
    refine ⟨r :: rs, t, r' :: rs', t', run_cons_eq_some.2 ⟨r, s₁, rs, hcall, hrun, rfl⟩,
      run_cons_eq_some.2 ⟨r', s₁', rs', hcall', hrun', rfl⟩, .cons hr hrs, ?_⟩
    simpa using ht

/-- Related objects that give the same answer to each call give the same answers. -/
theorem run_alike (R : List κ → σ → σ' → Prop) (ok : List κ → κ → Prop)
    (hstep : ∀ before c s s', ok before c → R before s s' →
      ∃ r t t', step s c = some (r, t) ∧ step' s' c = some (r, t') ∧ R (before ++ [c]) t t')
    (calls : List κ) {before : List κ} {s : σ} {s' : σ'} (h : R before s s')
    (hok : ∀ b c a, calls = b ++ c :: a → ok (before ++ b) c) :
    ∃ rs t t', run step s calls = some (rs, t) ∧ run step' s' calls = some (rs, t') ∧ R (before ++ calls) t t' := by
  obtain ⟨rs, t, rs', t', hrun, hrun', hrs, ht⟩ :=
    run_related (· = ·) R ok (fun before c s s' hc hs => by
      obtain ⟨r, t, t', hcall, hcall', ht⟩ := hstep before c s s' hc hs
      exact ⟨r, t, r, t', hcall, hcall', rfl, ht⟩) calls h hok
  rw [List.forall₂_eq_eq_eq] at hrs
  exact ⟨rs, t, t', hrun, hrs ▸ hrun', ht⟩

end Session
