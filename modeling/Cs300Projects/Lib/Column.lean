import Cs300Projects.Lib.Bytes
import Cs300Projects.Lib.Loop

/-!
# Tables of records

A table of records in byte memory, seen through one field of its records. A loop over the records that
writes this field changes nothing else.
-/

open Loop

namespace Bytes

/-- The field of `width` bytes at `field` in the records of `stride` bytes from `base` on. -/
structure Column where
  base : Nat
  stride : Nat
  field : Nat
  width : Nat
  fits : field + width ≤ stride

namespace Column

variable (c : Column) {m m' : Nat → UInt8} {g : Nat → Nat} {k : Nat}

/-- The address of the field in record `j`. -/
def addr (j : Nat) : Nat := c.base + c.stride * j + c.field

def get (m : Nat → UInt8) (j : Nat) : Nat := readLE m (c.addr j) c.width
def set (m : Nat → UInt8) (j v : Nat) : Nat → UInt8 := writeLE m (c.addr j) c.width v

/-- The first `k` fields have been mapped by `g`, and nothing else differs. -/
structure Updated (g : Nat → Nat) (m m' : Nat → UInt8) (k : Nat) : Prop where
  fields : ∀ j, j < k → c.get m' j = g (c.get m j)
  rest : ∀ x, (∀ j, j < k → Outside x (c.addr j) c.width) → m' x = m x

lemma updated_zero : c.Updated g m m 0 := ⟨fun j hj => absurd hj (Nat.not_lt_zero j), fun _ _ => rfl⟩

variable {c}

lemma base_le_addr (j : Nat) : c.base ≤ c.addr j := by
  unfold addr
  omega

/-- A record lies behind the fields of the records before it. -/
lemma addr_apart {i j : Nat} (h : i < j) : c.addr i + c.width ≤ c.base + c.stride * j := by
  have hmul : c.stride * (i + 1) ≤ c.stride * j := Nat.mul_le_mul_left _ h
  have hfits := c.fits
  unfold addr
  rw [Nat.mul_succ] at hmul
  omega

lemma Updated.readLE {a n : Nat} (h : c.Updated g m m' k) (hapart : ∀ j, j < k → Apart a n (c.addr j) c.width) :
    readLE m' a n = readLE m a n :=
  readLE_congr fun x hx hlt => h.rest x fun j hj => (hapart j hj).outside hx hlt

/-- A number in record `k` or behind it, before the loop has come there. -/
lemma Updated.readLE_later {a n : Nat} (h : c.Updated g m m' k) (ha : c.base + c.stride * k ≤ a) :
    Bytes.readLE m' a n = Bytes.readLE m a n :=
  h.readLE fun _ hj => Or.inr (Nat.le_trans (addr_apart hj) ha)

lemma Updated.get_later (h : c.Updated g m m' k) : c.get m' k = c.get m k :=
  h.readLE_later (Nat.le_add_right _ _)

lemma Updated.set {v : Nat} (h : c.Updated g m m' k) (hv : v % 256 ^ c.width = g (c.get m k)) :
    c.Updated g m (c.set m' k v) (k + 1) := by
  constructor
  · intro j hj
    rcases Nat.lt_or_eq_of_le (Nat.le_of_lt_succ hj) with hlt | rfl
    · have hapart : Apart (c.addr j) c.width (c.addr k) c.width :=
        Or.inl (Nat.le_trans (addr_apart hlt) (Nat.le_add_right _ _))
      exact ((within_writeLE m' _ _ v).readLE hapart).trans (h.fields j hlt)
    · exact (readLE_writeLE m' _ _ v).trans hv
  · intro x hx
    rw [Column.set, writeLE_outside (hx k (Nat.lt_succ_self k))]
    exact h.rest x fun j hj => hx j (Nat.lt_succ_of_lt hj)

lemma Updated.keep (h : c.Updated g m m' k) (hv : g (c.get m k) = c.get m k) : c.Updated g m m' (k + 1) := by
  constructor
  · intro j hj
    rcases Nat.lt_or_eq_of_le (Nat.le_of_lt_succ hj) with hlt | rfl
    · exact h.fields j hlt
    · rw [hv]
      exact h.get_later
  · exact fun x hx => h.rest x fun j hj => hx j (Nat.lt_succ_of_lt hj)

/-- A loop over `n` records that updates the field, and leaves with `none` at a record that is not `Ok`. -/
theorem run_updated {body : Nat × (Nat → UInt8) → Round (Nat × (Nat → UInt8)) (Option (Nat → UInt8))} {Ok : Nat → Prop}
    {n : Nat} (hround : ∀ i m', i ≤ n → c.Updated g m m' i →
      body (i, m') = .done none ∨ (i = n ∧ body (i, m') = .done (some m')) ∨
        i < n ∧ Ok i ∧ ∃ m'', body (i, m') = .next (i + 1, m'') ∧ c.Updated g m m'' (i + 1))
    {fuel : Nat} {m₁ : Nat → UInt8} (hrun : run body fuel (0, m) = some (some m₁)) :
    c.Updated g m m₁ n ∧ ∀ i, i < n → Ok i := by
  refine run_invariant body (fun s => s.1 ≤ n ∧ c.Updated g m s.2 s.1 ∧ ∀ i, i < s.1 → Ok i)
    (fun r => ∀ m₁, r = some m₁ → c.Updated g m m₁ n ∧ ∀ i, i < n → Ok i) ?_ ?_
    ⟨Nat.zero_le n, c.updated_zero, fun i hi => absurd hi (Nat.not_lt_zero i)⟩ hrun m₁ rfl
  · rintro ⟨i, m'⟩ s' ⟨hi, hupdated, hok⟩ hbody
    rcases hround i m' hi hupdated with hnone | ⟨-, hdone⟩ | ⟨hlt, hhere, m'', hnext, hupdated'⟩
    · rw [hnone] at hbody
      cases hbody
    · rw [hdone] at hbody
      cases hbody
    · rw [hnext] at hbody
      cases hbody
      refine ⟨hlt, hupdated', ?_⟩
      intro j hj
      rcases Nat.lt_or_eq_of_le (Nat.le_of_lt_succ hj) with hji | rfl
      · exact hok j hji
      · exact hhere
  · rintro ⟨i, m'⟩ r ⟨hi, hupdated, hok⟩ hbody m₁ rfl
    rcases hround i m' hi hupdated with hnone | ⟨rfl, hdone⟩ | ⟨-, -, m'', hnext, -⟩
    · rw [hnone] at hbody
      cases hbody
    · rw [hdone] at hbody
      cases hbody
      exact ⟨hupdated, hok⟩
    · rw [hnext] at hbody
      cases hbody

end Column

end Bytes
