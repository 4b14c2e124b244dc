import Mathlib.Data.Finset.Sum
import Mathlib.Order.Interval.Finset.Nat
import Mathlib.Algebra.BigOperators.Group.Finset.Basic
import Mathlib.Tactic.Ring

/-!
# Shards

The helper functions of `common.cc` on shards: sizes, halves and overlaps. An `unsigned int` is a word of
32 bits and a `size_t` one of 64.
-/

namespace Cs300Projects.DistributedStore

def minKey : BitVec 32 := 0#32
def maxKey : BitVec 32 := 1000#32

structure Shard where
  lower : BitVec 32
  upper : BitVec 32
  deriving DecidableEq, Repr

inductive OverlapStatus where
  | noOverlap
  | overlapStart
  | overlapEnd
  | completelyContains
  | completelyContained
  deriving DecidableEq, Repr

/-- The difference is calculated as an `unsigned int`, and converted. -/
def size (s : Shard) : BitVec 64 := (s.upper - s.lower + 1#32).setWidth 64

/-- `none` when the assertion fails. -/
def splitShard (s : Shard) : Option (Shard × Shard) :=
  if s.lower < s.upper then
    let midpoint := s.lower + (s.upper - s.lower) / 2#32
    some (⟨s.lower, midpoint⟩, ⟨midpoint + 1#32, s.upper⟩)
  else none

/-- `size(vec)` for a vector: argument-dependent lookup finds `std::size`. -/
def vectorSize (vec : List Shard) : BitVec 64 := BitVec.ofNat 64 vec.length

/-- The loop over the shards `s` adds `size(vec)`, and not `size(s)`. -/
def shardRangeSize (vec : List Shard) : BitVec 64 := vec.foldl (fun tot _ => tot + vectorSize vec) 0#64

def getOverlap (a b : Shard) : Except String OverlapStatus :=
  if a.upper < b.lower ∨ b.upper < a.lower then .ok .noOverlap
  else if b.lower ≤ a.lower ∧ a.upper ≤ b.upper then .ok .completelyContained
  else if a.lower < b.lower ∧ a.upper > b.upper then .ok .completelyContains
  else if a.lower ≥ b.lower ∧ a.upper > b.upper then .ok .overlapStart
  else if a.lower < b.lower ∧ a.upper ≤ b.upper then .ok .overlapEnd
  else .error "bad case in get_overlap\n"

/-- The keys of a shard. -/
def Shard.keys (s : Shard) : Finset Nat := Finset.Icc s.lower.toNat s.upper.toNat

def Shard.Valid (s : Shard) : Prop := s.lower ≤ s.upper

/-- The shard lies in the range of keys that the project uses. -/
def Shard.InRange (s : Shard) : Prop := minKey ≤ s.lower ∧ s.lower ≤ s.upper ∧ s.upper ≤ maxKey

section Keys

variable {a b s : Shard}

@[simp] lemma Shard.mem_keys {k : Nat} : k ∈ s.keys ↔ s.lower.toNat ≤ k ∧ k ≤ s.upper.toNat := Finset.mem_Icc

lemma Shard.valid_iff : s.Valid ↔ s.lower.toNat ≤ s.upper.toNat := Iff.rfl

lemma Shard.valid_mk {l u : BitVec 32} : Shard.Valid ⟨l, u⟩ ↔ l.toNat ≤ u.toNat := Iff.rfl

lemma Shard.card_keys : s.keys.card = s.upper.toNat + 1 - s.lower.toNat := Nat.card_Icc _ _

/-- The size is the number of keys, unless the shard has all keys of 32 bits. -/
lemma toNat_size (h : s.Valid) (hlt : s.keys.card < 2 ^ 32) : (size s).toNat = s.keys.card := by
  rw [Shard.valid_iff] at h
  rw [Shard.card_keys] at hlt ⊢
  have hupper := s.upper.isLt
  unfold size
  rw [BitVec.toNat_setWidth, BitVec.toNat_add, BitVec.toNat_sub, BitVec.toNat_ofNat]
  omega

end Keys

/-! ### Overlaps -/

/-- What is left of `a` without the keys of `b`, by the answer of `get_overlap`: a bound that is calculated has
not wrapped around, and a shard that is left has keys. -/
def Left (a b : Shard) : OverlapStatus → Prop
  | .noOverlap => a.keys \ b.keys = a.keys
  | .completelyContained => a.keys \ b.keys = ∅
  | .overlapStart => (b.upper + 1#32).toNat = b.upper.toNat + 1 ∧ Shard.Valid ⟨b.upper + 1#32, a.upper⟩ ∧
      a.keys \ b.keys = Shard.keys ⟨b.upper + 1#32, a.upper⟩
  | .overlapEnd => (b.lower - 1#32).toNat + 1 = b.lower.toNat ∧ Shard.Valid ⟨a.lower, b.lower - 1#32⟩ ∧
      a.keys \ b.keys = Shard.keys ⟨a.lower, b.lower - 1#32⟩
  | .completelyContains =>
      ((b.lower - 1#32).toNat + 1 = b.lower.toNat ∧ Shard.Valid ⟨a.lower, b.lower - 1#32⟩) ∧
      ((b.upper + 1#32).toNat = b.upper.toNat + 1 ∧ Shard.Valid ⟨b.upper + 1#32, a.upper⟩) ∧
      a.keys \ b.keys = Shard.keys ⟨a.lower, b.lower - 1#32⟩ ∪ Shard.keys ⟨b.upper + 1#32, a.upper⟩

section Overlap

variable {a b s : Shard}

/-- The shard of the keys above `b`, when `a` ends behind it. -/
lemma above_valid (h : b.upper.toNat < a.upper.toNat) :
    (b.upper + 1#32).toNat = b.upper.toNat + 1 ∧ Shard.Valid ⟨b.upper + 1#32, a.upper⟩ := by
  have hupper := a.upper.isLt
  have heq : (b.upper + 1#32).toNat = b.upper.toNat + 1 := by
    rw [BitVec.toNat_add, BitVec.toNat_ofNat]
    omega
  refine ⟨heq, ?_⟩
  rw [Shard.valid_mk, heq]
  exact h

/-- The shard of the keys below `b`, when `a` begins before it. -/
lemma below_valid (h : a.lower.toNat < b.lower.toNat) :
    (b.lower - 1#32).toNat + 1 = b.lower.toNat ∧ Shard.Valid ⟨a.lower, b.lower - 1#32⟩ := by
  have hlower := b.lower.isLt
  have heq : (b.lower - 1#32).toNat + 1 = b.lower.toNat := by
    rw [BitVec.toNat_sub, BitVec.toNat_ofNat]
    omega
  refine ⟨heq, ?_⟩
  rw [Shard.valid_mk]
  omega

lemma getOverlap_left (hb : b.Valid) : ∃ status, getOverlap a b = .ok status ∧ Left a b status := by
  rw [Shard.valid_iff] at hb
  unfold getOverlap
  simp only [BitVec.lt_def, BitVec.le_def, gt_iff_lt, ge_iff_le]
  split
  · refine ⟨_, rfl, ?_⟩
    unfold Left
    ext k
    simp only [Finset.mem_sdiff, Shard.mem_keys]
    omega
  split
  · refine ⟨_, rfl, ?_⟩
    unfold Left
    rw [Finset.sdiff_eq_empty_iff_subset]
    intro k hk
    rw [Shard.mem_keys] at hk ⊢
    omega
  split
  · rename_i hcontains
    obtain ⟨hlower, hbelow⟩ := below_valid hcontains.1
    obtain ⟨hupper, habove⟩ := above_valid hcontains.2
    refine ⟨_, rfl, ⟨hlower, hbelow⟩, ⟨hupper, habove⟩, ?_⟩
    ext k
    simp only [Finset.mem_sdiff, Finset.mem_union, Shard.mem_keys]
    omega
  split
  · rename_i hstart
    obtain ⟨hupper, habove⟩ := above_valid hstart.2
    refine ⟨_, rfl, hupper, habove, ?_⟩
    ext k
    simp only [Finset.mem_sdiff, Shard.mem_keys]
    omega
  split
  · rename_i hend
    obtain ⟨hlower, hbelow⟩ := below_valid hend.1
    refine ⟨_, rfl, hlower, hbelow, ?_⟩
    ext k
    simp only [Finset.mem_sdiff, Shard.mem_keys]
    omega
  · exfalso
    omega

lemma getOverlap_disjoint (h : a.upper.toNat < b.lower.toNat ∨ b.upper.toNat < a.lower.toNat) :
    getOverlap a b = .ok .noOverlap := if_pos h

lemma getOverlap_contained (ha : a.Valid) (hlower : b.lower.toNat ≤ a.lower.toNat) (hupper : a.upper.toNat ≤ b.upper.toNat) :
    getOverlap a b = .ok .completelyContained := by
  rw [Shard.valid_iff] at ha
  unfold getOverlap
  simp only [BitVec.lt_def, BitVec.le_def]
  rw [if_neg (by omega), if_pos ⟨hlower, hupper⟩]

end Overlap

/-- The halves: they meet in the middle, and the first has the odd key. -/
structure Halves (s s₁ s₂ : Shard) : Prop where
  lower : s₁.lower = s.lower
  upper : s₂.upper = s.upper
  middle : s₂.lower.toNat = s₁.upper.toNat + 1
  valid₁ : s₁.Valid
  valid₂ : s₂.Valid
  even : s₂.keys.card ≤ s₁.keys.card ∧ s₁.keys.card ≤ s₂.keys.card + 1

lemma splitShard_halves {s : Shard} (h : s.lower < s.upper) : ∃ s₁ s₂, splitShard s = some (s₁, s₂) ∧ Halves s s₁ s₂ := by
  have hlt : s.lower.toNat < s.upper.toNat := h
  have hupper := s.upper.isLt
  have hdiff : (s.upper - s.lower).toNat = s.upper.toNat - s.lower.toNat :=
    BitVec.toNat_sub_of_le (Nat.le_of_lt hlt)
  have hmid : (s.lower + (s.upper - s.lower) / 2#32).toNat = s.lower.toNat + (s.upper.toNat - s.lower.toNat) / 2 := by
    have htwo : (2#32).toNat = 2 := rfl
    rw [BitVec.toNat_add, BitVec.toNat_udiv, hdiff, htwo]
    omega
  have hnext : (s.lower + (s.upper - s.lower) / 2#32 + 1#32).toNat =
      s.lower.toNat + (s.upper.toNat - s.lower.toNat) / 2 + 1 := by
    rw [BitVec.toNat_add, hmid, BitVec.toNat_ofNat]
    omega
  refine ⟨_, _, if_pos h, rfl, rfl, ?_, ?_, ?_, ?_⟩
  · rw [hmid, hnext]
  · rw [Shard.valid_mk, hmid]
    omega
  · rw [Shard.valid_mk, hnext]
    omega
  · simp only [Shard.card_keys, hmid, hnext]
    omega

section Halves

variable {s s₁ s₂ : Shard}

lemma Halves.keys (h : Halves s s₁ s₂) : s₁.keys ∪ s₂.keys = s.keys := by
  have hvalid₁ := Shard.valid_iff.1 h.valid₁
  have hvalid₂ := Shard.valid_iff.1 h.valid₂
  have hmiddle := h.middle
  ext k
  simp only [Finset.mem_union, Shard.mem_keys, ← h.lower, ← h.upper]
  omega

lemma Halves.card_lt (h : Halves s s₁ s₂) : s₁.keys.card < 2 ^ 32 ∧ s₂.keys.card < 2 ^ 32 := by
  have hvalid₁ := Shard.valid_iff.1 h.valid₁
  have hvalid₂ := Shard.valid_iff.1 h.valid₂
  have hmiddle := h.middle
  have hupper := s₂.upper.isLt
  simp only [Shard.card_keys]
  omega

end Halves

/-- For every shard `a` and every valid shard `b` `get_overlap` says what is left of `a`, and `split_shard` splits a
valid shard of at least two keys into halves. -/
theorem overlap_and_split :
    (∀ a b : Shard, b.Valid → ∃ status, getOverlap a b = .ok status ∧ Left a b status) ∧
    ∀ s : Shard, s.Valid → 1 < s.keys.card → ∃ s₁ s₂, splitShard s = some (s₁, s₂) ∧
      getOverlap s₁ s₂ = .ok .noOverlap ∧ getOverlap s₂ s₁ = .ok .noOverlap ∧
      getOverlap s₁ s = .ok .completelyContained ∧ getOverlap s₂ s = .ok .completelyContained ∧
      s₁.keys ∪ s₂.keys = s.keys ∧ (size s₂).toNat ≤ (size s₁).toNat ∧ (size s₁).toNat ≤ (size s₂).toNat + 1 := by
  refine ⟨fun a b hb => getOverlap_left hb, fun s hs hcard => ?_⟩
  rw [Shard.card_keys] at hcard
  have hlt : s.lower < s.upper := by
    rw [BitVec.lt_def]
    omega
  obtain ⟨s₁, s₂, hsplit, h⟩ := splitShard_halves hlt
  have hvalid₁ := Shard.valid_iff.1 h.valid₁
  have hvalid₂ := Shard.valid_iff.1 h.valid₂
  have hmiddle := h.middle
  refine ⟨s₁, s₂, hsplit, getOverlap_disjoint (Or.inl (by omega)), getOverlap_disjoint (Or.inr (by omega)),
    getOverlap_contained h.valid₁ (by rw [h.lower]) (by rw [← h.upper]; omega),
    getOverlap_contained h.valid₂ (by rw [← h.lower]; omega) (by rw [h.upper]), h.keys, ?_⟩
  rw [toNat_size h.valid₁ h.card_lt.1, toNat_size h.valid₂ h.card_lt.2]
  exact h.even

theorem overlap_and_split_sample :
    (∃ status, getOverlap ⟨0#32, 9#32⟩ ⟨3#32, 5#32⟩ = .ok status ∧ Left ⟨0#32, 9#32⟩ ⟨3#32, 5#32⟩ status) ∧
    ∃ s₁ s₂, splitShard ⟨0#32, 0xFFFFFFFF#32⟩ = some (s₁, s₂) ∧ getOverlap s₁ s₂ = .ok .noOverlap := by
  refine ⟨overlap_and_split.1 _ _ (by unfold Shard.Valid; decide), ?_⟩
  obtain ⟨s₁, s₂, hsplit, hoverlap, -⟩ := overlap_and_split.2 ⟨0#32, 0xFFFFFFFF#32⟩ (by unfold Shard.Valid; decide)
    (by rw [Shard.card_keys]; decide)
  exact ⟨s₁, s₂, hsplit, hoverlap⟩

/-! ### The size of a vector -/

/-- The keys of the shards of a vector. -/
def keysOf (vec : List Shard) : Finset Nat := vec.foldr (fun s keys => s.keys ∪ keys) ∅

/-- The sum that `shardRangeSize` should return. -/
def totalSize (vec : List Shard) : Nat := (vec.map fun s => (size s).toNat).sum

section RangeSize

variable {vec vec' : List Shard} {s : Shard}

lemma Shard.InRange.valid (h : s.InRange) : s.Valid := h.2.1

lemma toNat_shardRangeSize (vec : List Shard) : (shardRangeSize vec).toNat = vec.length ^ 2 % 2 ^ 64 := by
  have hfold : ∀ (x tot : BitVec 64) (rest : List Shard), (rest.foldl (fun tot _ => tot + x) tot).toNat =
      (tot.toNat + rest.length * x.toNat) % 2 ^ 64 := by
    intro x tot rest
    induction rest generalizing tot with
    | nil => simp [Nat.mod_eq_of_lt tot.isLt]
    | cons s rest ih =>
      rw [List.foldl_cons, ih, BitVec.toNat_add, List.length_cons, Nat.succ_mul, Nat.mod_add_mod]
      congr 1
      omega
  unfold shardRangeSize vectorSize
  rw [hfold, BitVec.toNat_ofNat, BitVec.toNat_ofNat, Nat.zero_mod, Nat.zero_add, Nat.mul_mod_mod, sq]

lemma keysOf_cons (s : Shard) (vec : List Shard) : keysOf (s :: vec) = s.keys ∪ keysOf vec := rfl

lemma mem_keysOf {k : Nat} : k ∈ keysOf vec ↔ ∃ s ∈ vec, k ∈ s.keys := by
  induction vec with
  | nil => simp [keysOf]
  | cons s vec ih => rw [keysOf_cons, Finset.mem_union, ih, List.exists_mem_cons_iff]

/-- In the range of keys no size wraps around. -/
lemma Shard.InRange.toNat_size (h : s.InRange) : (size s).toNat = s.keys.card := by
  have hupper : s.upper.toNat ≤ 1000 := h.2.2
  apply DistributedStore.toNat_size h.valid
  rw [card_keys]
  omega

/-- The sizes of shards that share no key are the number of their keys. -/
lemma totalSize_eq_card (hvec : ∀ s ∈ vec, s.InRange) (hdisjoint : vec.Pairwise fun s s' => Disjoint s.keys s'.keys) :
    totalSize vec = (keysOf vec).card := by
  induction hdisjoint with
  | nil => rfl
  | @cons s vec hs _ ih =>
    have hapart : Disjoint s.keys (keysOf vec) := by
      rw [Finset.disjoint_left]
      intro k hk hmem
      obtain ⟨s', hs', hk'⟩ := mem_keysOf.1 hmem
      exact Finset.disjoint_left.1 (hs s' hs') hk hk'
    have hrest := ih fun s' hs' => hvec s' (List.mem_cons_of_mem s hs')
    unfold totalSize at hrest ⊢
    rw [List.map_cons, List.sum_cons, hrest, (hvec s List.mem_cons_self).toNat_size, keysOf_cons,
      Finset.card_union_of_disjoint hapart]

end RangeSize

/-- `shardRangeSize` returns the square of the number of shards: when this is the sum of the sizes, and the number of
keys that they cover, when it is unchanged by another order or by a split, and when it is additive. -/
theorem shardRangeSize_right_iff (vec : List Shard) (hvec : ∀ s ∈ vec, s.InRange) :
    ((shardRangeSize vec).toNat = totalSize vec ↔ vec.length ^ 2 % 2 ^ 64 = totalSize vec) ∧
    (vec.Pairwise (fun s s' => Disjoint s.keys s'.keys) → totalSize vec = (keysOf vec).card) ∧
    (∀ vec' : List Shard, vec'.Perm vec → shardRangeSize vec' = shardRangeSize vec) ∧
    (∀ before s after s₁ s₂, vec = before ++ s :: after → splitShard s = some (s₁, s₂) →
      shardRangeSize (before ++ s₁ :: s₂ :: after) ≠ shardRangeSize vec) ∧
    ∀ vec' : List Shard, shardRangeSize (vec ++ vec') = shardRangeSize vec + shardRangeSize vec' ↔
      2 ^ 63 ∣ vec.length * vec'.length := by
  refine ⟨by rw [toNat_shardRangeSize], totalSize_eq_card hvec, fun vec' hperm => ?_, ?_, fun vec' => ?_⟩
  · rw [← BitVec.toNat_inj, toNat_shardRangeSize, toNat_shardRangeSize, hperm.length_eq]
  · rintro before s after s₁ s₂ rfl - heq
    rw [← BitVec.toNat_inj, toNat_shardRangeSize, toNat_shardRangeSize] at heq
    simp only [List.length_append, List.length_cons] at heq
    -- the squares of consecutive numbers differ by an odd number
    have hodd : (before.length + (after.length + 1 + 1)) ^ 2 =
        (before.length + (after.length + 1)) ^ 2 + 2 * (before.length + after.length + 1) + 1 := by ring
    rw [hodd] at heq
    omega
  · rw [← BitVec.toNat_inj, BitVec.toNat_add, toNat_shardRangeSize, toNat_shardRangeSize, toNat_shardRangeSize,
      List.length_append, ← Nat.add_mod]
    have hsquare : (vec.length + vec'.length) ^ 2 = vec.length ^ 2 + vec'.length ^ 2 + 2 * (vec.length * vec'.length) := by
      ring
    rw [hsquare]
    omega

/-- Two shards, of one key and of three. -/
theorem shardRangeSize_right_sample :
    (shardRangeSize [⟨3#32, 3#32⟩, ⟨5#32, 7#32⟩]).toNat = totalSize [⟨3#32, 3#32⟩, ⟨5#32, 7#32⟩] ∧
    totalSize [⟨3#32, 3#32⟩, ⟨5#32, 7#32⟩] = (keysOf [⟨3#32, 3#32⟩, ⟨5#32, 7#32⟩]).card ∧
    shardRangeSize [⟨5#32, 7#32⟩, ⟨3#32, 3#32⟩] = shardRangeSize [⟨3#32, 3#32⟩, ⟨5#32, 7#32⟩] := by
  have hrange : ∀ s ∈ [(⟨3#32, 3#32⟩ : Shard), ⟨5#32, 7#32⟩], s.InRange := by
    intro s hs
    rw [List.mem_pair] at hs
    unfold Shard.InRange
    rcases hs with rfl | rfl <;> decide
  have hdisjoint : Disjoint (Shard.keys ⟨3#32, 3#32⟩) (Shard.keys ⟨5#32, 7#32⟩) := by
    rw [Finset.disjoint_left]
    intro k hk hk'
    rw [Shard.mem_keys] at hk hk'
    exact absurd (hk'.1.trans hk.2) (by decide)
  obtain ⟨hright, hcard, hperm, -⟩ := shardRangeSize_right_iff _ hrange
  exact ⟨hright.2 (by decide), hcard (List.pairwise_pair.2 hdisjoint), hperm _ (List.Perm.swap _ _ _)⟩

/-- A single shard of ten keys counts as one. -/
theorem shardRangeSize_not_right :
    ¬ ∀ vec : List Shard, (∀ s ∈ vec, s.InRange) → (shardRangeSize vec).toNat = totalSize vec := by
  intro h
  have hrange : ∀ s ∈ [(⟨0#32, 9#32⟩ : Shard)], s.InRange := by
    intro s hs
    rw [List.mem_singleton] at hs
    subst hs
    unfold Shard.InRange
    decide
  exact absurd (h _ hrange) (by decide)

end Cs300Projects.DistributedStore
