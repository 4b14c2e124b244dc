import Mathlib.Tactic.Common

/-!
# Allocation by a scan

Numbered units that are claimed one by one and never given back: at a chosen number, or by a scan
for the next free unit that may be allocated. The scan never looks behind its cursor, which is
sound because the units that it has passed stay used: no unit is given out twice, and a scan that
finds nothing proves that nothing is left.
-/

namespace ScanAlloc

structure Supply where
  used : Nat → Prop
  cursor : Nat

inductive Event where
  | claim (p : Nat)
  | alloc (p : Nat)

/-- The unit that is given out. -/
def Event.unit : Event → Nat
  | claim p => p
  | alloc p => p

def Supply.take (s : Supply) (p : Nat) : Supply := { s with used := fun q => q = p ∨ s.used q }

variable (ok : Nat → Prop)

/-- Only the units with `ok` may be allocated; any free unit may be claimed. -/
inductive Step : Supply → List Event → Supply → Prop where
  | claim (s : Supply) (p : Nat) (hfree : ¬ s.used p) : Step s [.claim p] (s.take p)
  | skip (s : Supply) (hused : ok s.cursor → s.used s.cursor) :
      Step s [] { s with cursor := s.cursor + 1 }
  | alloc (s : Supply) (hok : ok s.cursor) (hfree : ¬ s.used s.cursor) :
      Step s [.alloc s.cursor] { s.take s.cursor with cursor := s.cursor + 1 }

inductive Runs (s : Supply) : List Event → Supply → Prop where
  | refl : Runs s [] s
  | tail {events es : List Event} {s₁ s₂ : Supply} (hrun : Runs s events s₁) (hstep : Step ok s₁ es s₂) :
      Runs s (events ++ es) s₂

/-- Every unit behind the cursor that may be allocated is used. -/
def Swept (s : Supply) : Prop := ∀ q, q < s.cursor → ok q → s.used q

variable {ok} {s s₁ s₂ : Supply} {events es : List Event}

/-! ### One step -/

lemma Step.swept (h : Step ok s es s₁) (hs : Swept ok s) : Swept ok s₁ := by
  cases h with
  | claim p hfree => exact fun q hq hokq => Or.inr (hs q hq hokq)
  | skip hused =>
    intro q hq hokq
    rcases Nat.lt_succ_iff_lt_or_eq.1 hq with hlt | rfl
    · exact hs q hlt hokq
    · exact hused hokq
  | alloc hok hfree =>
    intro q hq hokq
    rcases Nat.lt_succ_iff_lt_or_eq.1 hq with hlt | rfl
    · exact Or.inr (hs q hlt hokq)
    · exact Or.inl rfl

lemma Step.used_mono (h : Step ok s es s₁) {q : Nat} (hq : s.used q) : s₁.used q := by
  cases h with
  | claim p hfree => exact Or.inr hq
  | skip hused => exact hq
  | alloc hok hfree => exact Or.inr hq

lemma Step.unit_spec (h : Step ok s es s₁) {e : Event} (he : e ∈ es) : ¬ s.used e.unit ∧ s₁.used e.unit := by
  cases h with
  | claim p hfree =>
    rw [List.mem_singleton.1 he]
    exact ⟨hfree, Or.inl rfl⟩
  | skip hused => exact absurd he List.not_mem_nil
  | alloc hok hfree =>
    rw [List.mem_singleton.1 he]
    exact ⟨hfree, Or.inl rfl⟩

lemma Step.nodup (h : Step ok s es s₁) : (es.map Event.unit).Nodup := by
  cases h <;> simp

lemma Step.alloc_ok (h : Step ok s es s₁) {p : Nat} (hp : .alloc p ∈ es) : ok p := by
  cases h with
  | claim q hfree => simp at hp
  | skip hused => simp at hp
  | alloc hok hfree =>
    obtain rfl : p = s.cursor := by simpa using hp
    exact hok

/-! ### Runs -/

theorem Runs.swept (h : Runs ok s events s₁) (hs : Swept ok s) : Swept ok s₁ := by
  induction h with
  | refl => exact hs
  | tail _ hstep ih => exact hstep.swept ih

lemma Runs.used_mono (h : Runs ok s events s₁) {q : Nat} (hq : s.used q) : s₁.used q := by
  induction h with
  | refl => exact hq
  | tail _ hstep ih => exact hstep.used_mono ih

/-- A unit that is given out was free before the run and is used after it. -/
theorem Runs.unit_spec (h : Runs ok s events s₁) {e : Event} (he : e ∈ events) :
    ¬ s.used e.unit ∧ s₁.used e.unit := by
  induction h with
  | refl => exact absurd he List.not_mem_nil
  | tail hrun hstep ih =>
    rcases List.mem_append.1 he with hfirst | hlast
    · exact ⟨(ih hfirst).1, hstep.used_mono (ih hfirst).2⟩
    · exact ⟨fun hq => (hstep.unit_spec hlast).1 (hrun.used_mono hq), (hstep.unit_spec hlast).2⟩

/-- No unit is given out twice. -/
theorem Runs.nodup (h : Runs ok s events s₁) : (events.map Event.unit).Nodup := by
  induction h with
  | refl => exact List.nodup_nil
  | tail hrun hstep ih =>
    rw [List.map_append, List.nodup_append]
    refine ⟨ih, hstep.nodup, ?_⟩
    intro p hp q hq heq
    obtain ⟨e, he, rfl⟩ := List.mem_map.1 hp
    obtain ⟨e', he', rfl⟩ := List.mem_map.1 hq
    exact (hstep.unit_spec he').1 (heq ▸ (hrun.unit_spec he).2)

theorem Runs.alloc_ok (h : Runs ok s events s₁) {p : Nat} (hp : .alloc p ∈ events) : ok p := by
  induction h with
  | refl => exact absurd hp List.not_mem_nil
  | tail _ hstep ih =>
    rcases List.mem_append.1 hp with hfirst | hlast
    · exact ih hfirst
    · exact hstep.alloc_ok hlast

end ScanAlloc
