import Mathlib.Computability.Language

/-!
# Patterns matched with backtracking

Regular expressions over classes of characters, with lookahead. A pattern that matches in front of a text
leaves a rest of it. `rests` are the rests in the order in which a backtracking matcher comes to them, of which
a repetition takes the shortest one first. Those of a pattern without lookahead are what the words of its
language leave.
-/

open scoped Computability

/-- `atLeast n r` repeats `r` at least `n` times; `ahead` and `notAhead` are lookaheads. -/
inductive Pattern (κ : Type*) where
  | empty
  | char (k : κ)
  | seq (r r' : Pattern κ)
  | alt (r r' : Pattern κ)
  | atLeast (n : Nat) (r : Pattern κ)
  | ahead (r : Pattern κ)
  | notAhead (r : Pattern κ)
  | atEnd

namespace Pattern

variable {κ α : Type*}

def times (f : List α → List (List α)) : Nat → List α → List (List α)
  | 0, s => [s]
  | n + 1, s => (f s).flatMap (times f n)

/-- The repetition goes on as long as it takes something. -/
def greedy (f : List α → List (List α)) : Nat → List α → List (List α)
  | 0, s => [s]
  | fuel + 1, s => ((f s).filter fun t => t.length < s.length).flatMap (greedy f fuel) ++ [s]

/-- What the pattern may leave of a text; `test` says whether a character is in a class. -/
def rests (test : κ → α → Bool) : Pattern κ → List α → List (List α)
  | .empty, s => [s]
  | .char _, [] => []
  | .char k, c :: s => if test k c then [s] else []
  | .seq r r', s => (rests test r s).flatMap (rests test r')
  | .alt r r', s => rests test r s ++ rests test r' s
  | .atLeast n r, s => (times (rests test r) n s).flatMap fun t => greedy (rests test r) t.length t
  | .ahead r, s => if (rests test r s).isEmpty then [] else [s]
  | .notAhead r, s => if (rests test r s).isEmpty then [s] else []
  | .atEnd, s => if s.isEmpty then [s] else []

/-- There is no lookahead, and no anchor. -/
def Plain : Pattern κ → Prop
  | .empty | .char _ => True
  | .seq r r' | .alt r r' => r.Plain ∧ r'.Plain
  | .atLeast _ r => r.Plain
  | .ahead _ | .notAhead _ | .atEnd => False

/-- The words that a plain pattern stands for. -/
def lang (test : κ → α → Bool) : Pattern κ → Language α
  | .empty => 1
  | .char k => {w | ∃ c, test k c = true ∧ w = [c]}
  | .seq r r' => lang test r * lang test r'
  | .alt r r' => lang test r + lang test r'
  | .atLeast n r => lang test r ^ n * (lang test r)∗
  | .ahead _ | .notAhead _ | .atEnd => 0

section Rests

variable {l l' : Language α} {f g : List α → List (List α)}

/-- `f` gives what the words of `l` leave. -/
def Leaves (f : List α → List (List α)) (l : Language α) : Prop := ∀ s t, t ∈ f s ↔ ∃ w ∈ l, s = w ++ t

lemma Leaves.flatMap (hf : Leaves f l) (hg : Leaves g l') : Leaves (fun s => (f s).flatMap g) (l * l') := by
  intro s t
  rw [List.mem_flatMap]
  constructor
  · rintro ⟨u, hu, ht⟩
    obtain ⟨w, hw, rfl⟩ := (hf s u).1 hu
    obtain ⟨w', hw', rfl⟩ := (hg u t).1 ht
    exact ⟨w ++ w', Language.append_mem_mul hw hw', (List.append_assoc _ _ _).symm⟩
  · rintro ⟨_, hmul, rfl⟩
    obtain ⟨w, hw, w', hw', rfl⟩ := Language.mem_mul.1 hmul
    exact ⟨w' ++ t, (hf _ _).2 ⟨w, hw, List.append_assoc _ _ _⟩, (hg _ _).2 ⟨w', hw', rfl⟩⟩

lemma leaves_one : Leaves (fun s : List α => [s]) 1 := by
  intro s t
  constructor
  · intro h
    exact ⟨[], Language.nil_mem_one, (List.mem_singleton.1 h).symm⟩
  · rintro ⟨w, hw, rfl⟩
    rw [Language.mem_one] at hw
    rw [hw]
    exact List.mem_singleton_self t

lemma Leaves.times (hf : Leaves f l) (n : Nat) : Leaves (times f n) (l ^ n) := by
  induction n with
  | zero =>
    rw [pow_zero]
    exact leaves_one
  | succ n ih =>
    rw [pow_succ']
    exact hf.flatMap ih

/-- Repetitions that take nothing are not needed. -/
lemma Leaves.greedy (hf : Leaves f l) : Leaves (fun s => greedy f s.length s) l∗ := by
  have hfuel : ∀ fuel s t, s.length ≤ fuel → (t ∈ Pattern.greedy f fuel s ↔ ∃ w ∈ l∗, s = w ++ t) := by
    intro fuel
    induction fuel with
    | zero =>
      intro s t hs
      obtain rfl := List.eq_nil_of_length_eq_zero (Nat.le_zero.1 hs)
      constructor
      · intro h
        exact ⟨[], Language.nil_mem_kstar l, (List.mem_singleton.1 h).symm⟩
      · rintro ⟨w, -, h⟩
        rw [(List.append_eq_nil_iff.1 h.symm).2]
        exact List.mem_singleton_self _
    | succ fuel ih =>
      intro s t hs
      rw [Pattern.greedy, List.mem_append, List.mem_flatMap, List.mem_singleton]
      constructor
      · rintro (⟨u, hu, ht⟩ | rfl)
        · obtain ⟨hu, hlt⟩ := List.mem_filter.1 hu
          rw [decide_eq_true_eq] at hlt
          obtain ⟨w, hw, rfl⟩ := (hf s u).1 hu
          obtain ⟨w', hw', rfl⟩ := (ih u t (by omega)).1 ht
          refine ⟨w ++ w', ?_, (List.append_assoc _ _ _).symm⟩
          rw [← Language.one_add_self_mul_kstar_eq_kstar, Language.mem_add]
          exact Or.inr (Language.append_mem_mul hw hw')
        · exact ⟨[], Language.nil_mem_kstar l, rfl⟩
      · rintro ⟨w, hw, rfl⟩
        obtain ⟨words, rfl, hwords⟩ := Language.mem_kstar_iff_exists_nonempty.1 hw
        cases words with
        | nil => exact Or.inr rfl
        | cons y words =>
          obtain ⟨hy, hne⟩ := hwords y List.mem_cons_self
          have hpos := List.length_pos_iff.2 hne
          rw [List.flatten_cons, List.append_assoc] at hs ⊢
          have hlength : (y ++ (words.flatten ++ t)).length = y.length + (words.flatten ++ t).length := List.length_append
          rw [hlength] at hs
          refine Or.inl ⟨words.flatten ++ t, List.mem_filter.2 ⟨(hf _ _).2 ⟨y, hy, rfl⟩, ?_⟩, ?_⟩
          · rw [decide_eq_true_eq, hlength]
            omega
          · rw [ih _ _ (by omega)]
            refine ⟨words.flatten, Language.mem_kstar.2 ⟨words, rfl, ?_⟩, rfl⟩
            exact fun z hz => (hwords z (List.mem_cons_of_mem y hz)).1
  intro s t
  exact hfuel s.length s t (Nat.le_refl _)

/-- A plain pattern leaves what the words of its language leave. -/
theorem Plain.leaves (test : κ → α → Bool) {r : Pattern κ} (h : r.Plain) : Leaves (rests test r) (lang test r) := by
  induction r with
  | empty => exact leaves_one
  | char k =>
    intro s t
    cases s with
    | nil =>
      constructor
      · intro h
        cases h
      · rintro ⟨_, ⟨c, -, rfl⟩, h⟩
        cases h
    | cons c s =>
      have hrests : rests test (.char k) (c :: s) = if test k c then [s] else [] := rfl
      rw [hrests]
      constructor
      · intro h
        by_cases hc : test k c = true
        · rw [if_pos hc, List.mem_singleton] at h
          exact ⟨[c], ⟨c, hc, rfl⟩, by rw [h]; rfl⟩
        · rw [if_neg hc] at h
          cases h
      · rintro ⟨_, ⟨c', hc, rfl⟩, h⟩
        obtain ⟨rfl, rfl⟩ := List.cons.inj h
        rw [if_pos hc]
        exact List.mem_singleton_self _
  | seq r r' ihr ihr' => exact (ihr h.1).flatMap (ihr' h.2)
  | alt r r' ihr ihr' =>
    intro s t
    have hrests : rests test (.alt r r') s = rests test r s ++ rests test r' s := rfl
    have hlang : lang test (.alt r r') = lang test r + lang test r' := rfl
    rw [hrests, hlang, List.mem_append, ihr h.1 s t, ihr' h.2 s t]
    simp only [Language.mem_add, or_and_right, exists_or]
  | atLeast n r ih => exact ((ih h).times n).flatMap (ih h).greedy
  | ahead r => exact h.elim
  | notAhead r => exact h.elim
  | atEnd => exact h.elim

end Rests

section Lookahead

variable {test : κ → α → Bool} {r r' : Pattern κ} {s t : List α}

lemma mem_rests_seq : t ∈ rests test (.seq r r') s ↔ ∃ u ∈ rests test r s, t ∈ rests test r' u := List.mem_flatMap

lemma mem_rests_ahead : t ∈ rests test (.ahead r) s ↔ rests test r s ≠ [] ∧ t = s := by
  have hrests : rests test (.ahead r) s = if (rests test r s).isEmpty then [] else [s] := by cases s <;> rfl
  rw [hrests]
  by_cases h : rests test r s = []
  · simp [h]
  · simp [h]

lemma mem_rests_notAhead : t ∈ rests test (.notAhead r) s ↔ rests test r s = [] ∧ t = s := by
  have hrests : rests test (.notAhead r) s = if (rests test r s).isEmpty then [s] else [] := by cases s <;> rfl
  rw [hrests]
  by_cases h : rests test r s = []
  · simp [h]
  · simp [h]

/-- No character of the class stands in front. -/
lemma rests_char_eq_nil_iff {k : κ} : rests test (.char k) s = [] ↔ ∀ c, s.head? = some c → test k c = false := by
  cases s with
  | nil => simp [rests]
  | cons c s => simp [rests]

end Lookahead

/-! ### Words and runs -/

/-- One character of each class. -/
def word (ks : List κ) : Pattern κ := ks.foldr (fun k r => .seq (.char k) r) .empty

/-- The alternatives of a list that is not empty. -/
def choice (first : Pattern κ) (others : List (Pattern κ)) : Pattern κ := others.foldl .alt first

section Words

variable {test : κ → α → Bool} {w : List α}

lemma plain_word (ks : List κ) : (word ks).Plain := by
  induction ks with
  | nil => trivial
  | cons k ks ih => exact ⟨trivial, ih⟩

lemma plain_choice {first : Pattern κ} {others : List (Pattern κ)} (hfirst : first.Plain) (h : ∀ r ∈ others, r.Plain) :
    (choice first others).Plain := by
  unfold choice
  induction others generalizing first with
  | nil => exact hfirst
  | cons r others ih =>
    exact ih ⟨hfirst, h r List.mem_cons_self⟩ fun r' hr' => h r' (List.mem_cons_of_mem r hr')

lemma mem_lang_word (ks : List κ) : w ∈ lang test (word ks) ↔ List.Forall₂ (fun k c => test k c = true) ks w := by
  induction ks generalizing w with
  | nil =>
    rw [List.forall₂_nil_left_iff]
    exact Language.mem_one w
  | cons k ks ih =>
    have hlang : lang test (word (k :: ks)) = lang test (.char k) * lang test (word ks) := rfl
    rw [hlang, Language.mem_mul, List.forall₂_cons_left_iff]
    constructor
    · rintro ⟨_, ⟨c, hc, rfl⟩, v, hv, rfl⟩
      exact ⟨c, v, hc, ih.1 hv, rfl⟩
    · rintro ⟨c, v, hc, hv, rfl⟩
      exact ⟨[c], ⟨c, hc, rfl⟩, v, ih.2 hv, rfl⟩

lemma lang_word_append (ks ls : List κ) : lang test (word (ks ++ ls)) = lang test (word ks) * lang test (word ls) := by
  induction ks with
  | nil => exact (one_mul _).symm
  | cons k ks ih =>
    have hlang : ∀ ms, lang test (word (k :: ms)) = lang test (.char k) * lang test (word ms) := fun ms => rfl
    rw [List.cons_append, hlang, hlang, ih, mul_assoc]

lemma mem_lang_choice (first : Pattern κ) (others : List (Pattern κ)) :
    w ∈ lang test (choice first others) ↔ ∃ r ∈ first :: others, w ∈ lang test r := by
  unfold choice
  induction others generalizing first with
  | nil => simp
  | cons r others ih =>
    have hlang : lang test (.alt first r) = lang test first + lang test r := rfl
    rw [List.foldl_cons, ih, List.exists_mem_cons_iff, hlang, Language.mem_add, List.exists_mem_cons_iff,
      List.exists_mem_cons_iff, or_assoc]

/-- A run of at least `n` characters of a class. -/
lemma mem_lang_atLeast_char (n : Nat) (k : κ) :
    w ∈ lang test (.atLeast n (.char k)) ↔ n ≤ w.length ∧ ∀ c ∈ w, test k c = true := by
  have hsingle : ∀ {words : List (List α)}, (∀ y ∈ words, y ∈ lang test (.char k)) →
      words.flatten.length = words.length ∧ ∀ c ∈ words.flatten, test k c = true := by
    intro words hwords
    induction words with
    | nil => exact ⟨rfl, fun c hc => by cases hc⟩
    | cons y words ih =>
      obtain ⟨hlength, htest⟩ := ih fun z hz => hwords z (List.mem_cons_of_mem y hz)
      obtain ⟨c, hc, rfl⟩ := hwords y List.mem_cons_self
      refine ⟨?_, fun c' hc' => ?_⟩
      · rw [List.flatten_cons, List.singleton_append, List.length_cons, List.length_cons, hlength]
      · rw [List.flatten_cons, List.singleton_append, List.mem_cons] at hc'
        cases hc' with
        | inl heq => exact heq ▸ hc
        | inr hmem => exact htest c' hmem
  have hpieces : ∀ v : List α, (∀ c ∈ v, test k c = true) → v = (v.map fun c => [c]).flatten ∧
      ∀ y ∈ v.map (fun c => [c]), y ∈ lang test (.char k) := by
    intro v hv
    refine ⟨?_, fun y hy => ?_⟩
    · rw [← List.flatMap_def, List.flatMap_singleton']
    · obtain ⟨c, hc, rfl⟩ := List.mem_map.1 hy
      exact ⟨c, hv c hc, rfl⟩
  have hlang : lang test (.atLeast n (.char k)) = lang test (.char k) ^ n * (lang test (.char k))∗ := rfl
  rw [hlang, Language.mem_mul]
  constructor
  · rintro ⟨u, hu, v, hv, rfl⟩
    obtain ⟨us, rfl, hn, hus⟩ := Language.mem_pow.1 hu
    obtain ⟨vs, rfl, hvs⟩ := Language.mem_kstar.1 hv
    obtain ⟨hlength, hu⟩ := hsingle hus
    obtain ⟨-, hv⟩ := hsingle hvs
    refine ⟨?_, fun c hc => ?_⟩
    · rw [List.length_append, hlength, hn]
      exact Nat.le_add_right n _
    · exact (List.mem_append.1 hc).elim (hu c) (hv c)
  · rintro ⟨hn, hw⟩
    obtain ⟨htake, hus⟩ := hpieces (w.take n) fun c hc => hw c (List.mem_of_mem_take hc)
    obtain ⟨hdrop, hvs⟩ := hpieces (w.drop n) fun c hc => hw c (List.mem_of_mem_drop hc)
    refine ⟨w.take n, Language.mem_pow.2 ⟨_, htake, ?_, hus⟩, w.drop n, Language.mem_kstar.2 ⟨_, hdrop, hvs⟩,
      List.take_append_drop n w⟩
    rw [List.length_map, List.length_take_of_le hn]

end Words

end Pattern
