import Cs300Projects.WeensyOS.Printf

/-!
# The characters that vprintf prints

A format and string arguments without NUL are printed without NUL: what `vprintf` reads stays within them,
and the digits, signs and padding that it adds are characters.
-/

namespace Cs300Projects.WeensyOS

def NoNul (s : List UInt8) : Prop := ∀ c ∈ s, c ≠ 0

instance (s : List UInt8) : Decidable (NoNul s) := List.decidableBAll (fun c => c ≠ 0) s

/-- The string arguments have no NUL. -/
def VaNoNul (val : VaList) : Prop := ∀ s, Arg.str s ∈ val → NoNul s

section NoNul

variable {s format rest : List UInt8} {val rest' : VaList}

lemma NoNul.tail (h : NoNul s) : NoNul s.tail := fun c hc => h c (List.mem_of_mem_tail hc)

lemma NoNul.append {t : List UInt8} (hs : NoNul s) (ht : NoNul t) : NoNul (s ++ t) := by
  intro c hc
  cases List.mem_append.1 hc with
  | inl hc => exact hs c hc
  | inr hc => exact ht c hc

lemma NoNul.take (h : NoNul s) (n : Nat) : NoNul (s.take n) := fun c hc => h c (List.mem_of_mem_take hc)

lemma noNul_replicate (n : Nat) {c : UInt8} (hc : c ≠ 0) : NoNul (List.replicate n c) :=
  fun _ hd => List.eq_of_mem_replicate hd ▸ hc

lemma advance_noNul (h : NoNul format) (hrest : advance format = some rest) : NoNul rest := by
  cases format with
  | nil => simp [advance] at hrest
  | cons c format =>
    rw [advance, Option.some.injEq] at hrest
    exact hrest ▸ h.tail

lemma parseFlags_noNul (f : Flags) (h : NoNul format) : NoNul (parseFlags f format).2 := by
  induction format generalizing f with
  | nil => exact h
  | cons c format ih =>
    rw [parseFlags]
    cases f.set c with
    | none => exact h
    | some f' => exact ih f' h.tail

lemma parseDigits_noNul (x : Int) (h : NoNul format) : NoNul (parseDigits x format).2 := by
  induction format generalizing x with
  | nil => exact h
  | cons c format ih =>
    rw [parseDigits]
    by_cases hdigit : ch '0' ≤ c ∧ c ≤ ch '9'
    · rw [if_pos hdigit]
      exact ih _ h.tail
    · rw [if_neg hdigit]
      exact h

lemma vaInt_noNul {x : BitVec 32} (h : VaNoNul val) (hva : vaInt val = some (x, rest')) : VaNoNul rest' := by
  cases val with
  | nil => simp [vaInt] at hva
  | cons a val =>
    cases a with
    | int y =>
      simp only [vaInt, Option.some.injEq, Prod.mk.injEq] at hva
      exact hva.2 ▸ fun s hs => h s (List.mem_cons_of_mem _ hs)
    | long y => simp [vaInt] at hva
    | str t => simp [vaInt] at hva

lemma vaLong_noNul {x : BitVec 64} (h : VaNoNul val) (hva : vaLong val = some (x, rest')) : VaNoNul rest' := by
  cases val with
  | nil => simp [vaLong] at hva
  | cons a val =>
    cases a with
    | int y => simp [vaLong] at hva
    | long y =>
      simp only [vaLong, Option.some.injEq, Prod.mk.injEq] at hva
      exact hva.2 ▸ fun s hs => h s (List.mem_cons_of_mem _ hs)
    | str t => simp [vaLong] at hva

lemma vaStr_noNul (h : VaNoNul val) (hva : vaStr val = some (s, rest')) : NoNul s ∧ VaNoNul rest' := by
  cases val with
  | nil => simp [vaStr] at hva
  | cons a val =>
    cases a with
    | int y => simp [vaStr] at hva
    | long y => simp [vaStr] at hva
    | str t =>
      simp only [vaStr, Option.some.injEq, Prod.mk.injEq] at hva
      rw [← hva.1, ← hva.2]
      exact ⟨h t List.mem_cons_self, fun s hs => h s (List.mem_cons_of_mem _ hs)⟩

lemma parseWidth_noNul {w : Int} (hf : NoNul format) (hv : VaNoNul val)
    (h : parseWidth format val = some (w, rest, rest')) : NoNul rest ∧ VaNoNul rest' := by
  simp only [parseWidth] at h
  split at h
  · simp only [Option.some.injEq, Prod.mk.injEq] at h
    rw [← h.2.1, ← h.2.2]
    exact ⟨parseDigits_noNul 0 hf, hv⟩
  · split at h
    · simp only [Option.bind_eq_bind, Option.bind_eq_some_iff, Option.pure_def, Option.some.injEq, Prod.mk.injEq,
        Prod.exists] at h
      obtain ⟨x, val', hva, format', hadv, _, hrest, hrest'⟩ := h
      rw [← hrest, ← hrest']
      exact ⟨advance_noNul hf hadv, vaInt_noNul hv hva⟩
    · simp only [Option.some.injEq, Prod.mk.injEq] at h
      rw [← h.2.1, ← h.2.2]
      exact ⟨hf, hv⟩

lemma parsePrecisionValue_noNul {p : Int} (hf : NoNul format) (hv : VaNoNul val)
    (h : parsePrecisionValue format val = some (p, rest, rest')) : NoNul rest ∧ VaNoNul rest' := by
  simp only [parsePrecisionValue] at h
  split at h
  · simp only [Option.some.injEq, Prod.mk.injEq] at h
    rw [← h.2.1, ← h.2.2]
    exact ⟨parseDigits_noNul 0 hf, hv⟩
  · split at h
    · simp only [Option.bind_eq_bind, Option.bind_eq_some_iff, Option.pure_def, Option.some.injEq, Prod.mk.injEq,
        Prod.exists] at h
      obtain ⟨x, val', hva, format', hadv, _, hrest, hrest'⟩ := h
      rw [← hrest, ← hrest']
      exact ⟨advance_noNul hf hadv, vaInt_noNul hv hva⟩
    · simp only [Option.some.injEq, Prod.mk.injEq] at h
      rw [← h.2.1, ← h.2.2]
      exact ⟨hf, hv⟩

lemma parsePrecision_noNul {p : Int} (hf : NoNul format) (hv : VaNoNul val)
    (h : parsePrecision format val = some (p, rest, rest')) : NoNul rest ∧ VaNoNul rest' := by
  simp only [parsePrecision] at h
  split at h
  · simp only [Option.bind_eq_bind, Option.bind_eq_some_iff, Option.pure_def, Option.some.injEq, Prod.mk.injEq,
      Prod.exists] at h
    obtain ⟨format', hadv, x, rest₁, val₁, hvalue, -, rfl, rfl⟩ := h
    exact parsePrecisionValue_noNul (advance_noNul hf hadv) hv hvalue
  · simp only [Option.some.injEq, Prod.mk.injEq] at h
    rw [← h.2.1, ← h.2.2]
    exact ⟨hf, hv⟩

lemma parseLength_noNul {b : Bool} (hf : NoNul format) (h : parseLength format = some (b, rest)) : NoNul rest := by
  simp only [parseLength] at h
  split at h
  · simp only [Option.bind_eq_bind, Option.bind_eq_some_iff, Option.pure_def, Option.some.injEq, Prod.mk.injEq] at h
    obtain ⟨format', hadv, _, hrest⟩ := h
    exact hrest ▸ advance_noNul hf hadv
  · split at h
    · simp only [Option.bind_eq_bind, Option.bind_eq_some_iff, Option.pure_def, Option.some.injEq, Prod.mk.injEq] at h
      obtain ⟨format', hadv, _, hrest⟩ := h
      exact hrest ▸ advance_noNul hf hadv
    · simp only [Option.some.injEq, Prod.mk.injEq] at h
      exact h.2 ▸ hf

/-- What a conversion prints has no NUL, if its string and the digits have none. -/
def Conversion.NoNul : Conversion → Prop
  | .number _ base _ => base = 10 ∨ base = 16 ∨ base = -16
  | .string data => WeensyOS.NoNul data
  | .color _ => True

lemma oneChar_noNul (c : UInt8) : NoNul (oneChar c) := by
  intro d hd
  unfold oneChar at hd
  split at hd
  · simp at hd
  · rename_i hc
    rw [List.mem_singleton] at hd
    exact hd ▸ hc

lemma formatUnsigned_noNul {f : Flags} {base : Int} {long : Bool} {c : Conversion} (hv : VaNoNul val)
    (hbase : base = 10 ∨ base = 16 ∨ base = -16) (h : formatUnsigned f base long val = some (c, rest')) :
    c.NoNul ∧ VaNoNul rest' := by
  unfold formatUnsigned at h
  split at h
  · simp only [Option.bind_eq_bind, Option.bind_eq_some_iff, Option.pure_def, Option.some.injEq,
      Prod.mk.injEq, Prod.exists] at h
    obtain ⟨x, val', hva, rfl, rfl⟩ := h
    exact ⟨hbase, vaLong_noNul hv hva⟩
  · simp only [Option.bind_eq_bind, Option.bind_eq_some_iff, Option.map_eq_some_iff, Option.pure_def,
      Option.some.injEq, Prod.mk.injEq, Prod.exists] at h
    obtain ⟨x, val', ⟨y, val'', hva, _, rfl⟩, rfl, rfl⟩ := h
    exact ⟨hbase, vaInt_noNul hv hva⟩

lemma convert_noNul {f : Flags} {long : Bool} {c : UInt8} {r : Conversion} (hv : VaNoNul val)
    (h : convert f long c val = some (r, rest')) : r.NoNul ∧ VaNoNul rest' := by
  unfold convert at h
  split at h
  · -- signed numbers
    split at h
    · simp only [Option.bind_eq_bind, Option.bind_eq_some_iff, Option.pure_def, Option.some.injEq,
        Prod.mk.injEq, Prod.exists] at h
      obtain ⟨x, val', hva, rfl, rfl⟩ := h
      exact ⟨Or.inl rfl, vaLong_noNul hv hva⟩
    · simp only [Option.bind_eq_bind, Option.bind_eq_some_iff, Option.map_eq_some_iff, Option.pure_def,
        Option.some.injEq, Prod.mk.injEq, Prod.exists] at h
      obtain ⟨x, val', ⟨y, val'', hva, _, rfl⟩, rfl, rfl⟩ := h
      exact ⟨Or.inl rfl, vaInt_noNul hv hva⟩
  split at h
  · exact formatUnsigned_noNul hv (Or.inl rfl) h
  split at h
  · exact formatUnsigned_noNul hv (Or.inr (Or.inr rfl)) h
  split at h
  · exact formatUnsigned_noNul hv (Or.inr (Or.inl rfl)) h
  split at h
  · -- pointers
    simp only [Option.bind_eq_bind, Option.bind_eq_some_iff, Option.pure_def, Option.some.injEq,
      Prod.mk.injEq, Prod.exists] at h
    obtain ⟨x, val', hva, rfl, rfl⟩ := h
    exact ⟨Or.inr (Or.inr rfl), vaLong_noNul hv hva⟩
  split at h
  · simp only [Option.bind_eq_bind, Option.bind_eq_some_iff, Option.pure_def, Option.some.injEq,
      Prod.mk.injEq, Prod.exists] at h
    obtain ⟨x, val', hva, rfl, rfl⟩ := h
    exact vaStr_noNul hv hva
  split at h
  · simp only [Option.bind_eq_bind, Option.bind_eq_some_iff, Option.pure_def, Option.some.injEq,
      Prod.mk.injEq, Prod.exists] at h
    obtain ⟨x, val', hva, rfl, rfl⟩ := h
    exact ⟨trivial, vaInt_noNul hv hva⟩
  split at h
  · simp only [Option.bind_eq_bind, Option.bind_eq_some_iff, Option.pure_def, Option.some.injEq,
      Prod.mk.injEq, Prod.exists] at h
    obtain ⟨x, val', hva, rfl, rfl⟩ := h
    exact ⟨oneChar_noNul _, vaInt_noNul hv hva⟩
  · simp only [Option.some.injEq, Prod.mk.injEq] at h
    rw [← h.1, ← h.2]
    exact ⟨oneChar_noNul _, hv⟩

lemma fillLoop_noNul {digits : List UInt8} {base : Nat} (hdigits : ∀ i, i < base → digits.getD i 0 ≠ 0)
    (hbase : 0 < base) (fuel v : Nat) (h : NoNul s) : NoNul (fillLoop digits base fuel v s) := by
  induction fuel generalizing v s with
  | zero => exact h
  | succ fuel ih =>
    have hcons : NoNul (digits.getD (v % base) 0 :: s) := by
      intro c hc
      cases List.mem_cons.1 hc with
      | inl hc => exact hc ▸ hdigits _ (Nat.mod_lt v hbase)
      | inr hc => exact h c hc
    rw [fillLoop]
    split
    · exact ih _ hcons
    · exact hcons

lemma fillNumbuf_noNul (x : BitVec 64) {base : Int} (hbase : base = 10 ∨ base = 16 ∨ base = -16) :
    NoNul (fillNumbuf x base) := by
  have hnil : NoNul [] := fun c hc => absurd hc (List.not_mem_nil)
  unfold fillNumbuf
  rcases hbase with rfl | rfl | rfl
  · exact fillLoop_noNul (by decide) (by decide) _ _ hnil
  · exact fillLoop_noNul (by decide) (by decide) _ _ hnil
  · exact fillLoop_noNul (by decide) (by decide) _ _ hnil

lemma signPrefix_noNul (f : Flags) (base : Int) (x : BitVec 64) : NoNul (signPrefix f base x) := by
  unfold signPrefix
  repeat' split
  all_goals decide

lemma layOut_noNul (f : Flags) (width precision : Int) {pre data : List UInt8} (hpre : NoNul pre)
    (hdata : NoNul data) : NoNul (layOut f width precision pre data) := by
  unfold layOut
  have hspace : ch ' ' ≠ 0 := by decide
  have hzero : ch '0' ≠ 0 := by decide
  exact ((((noNul_replicate _ hspace).append hpre).append (noNul_replicate _ hzero)).append
    (hdata.take _)).append (noNul_replicate _ hspace)

lemma conversion_noNul {color color' : BitVec 32} {chars : List UInt8} (hf : NoNul format) (hv : VaNoNul val)
    (h : conversion color format val = some (chars, color', rest, rest')) :
    NoNul chars ∧ NoNul rest ∧ VaNoNul rest' := by
  simp only [conversion, Option.bind_eq_bind, Option.bind_eq_some_iff, Prod.exists] at h
  obtain ⟨w, format₁, val₁, hwidth, p, format₂, val₂, hprecision, b, format₃, hlength, c, val₃, hconvert, h⟩ := h
  have h₁ := parseWidth_noNul (parseFlags_noNul _ hf) hv hwidth
  have h₂ := parsePrecision_noNul h₁.1 h₁.2 hprecision
  have h₃ := parseLength_noNul h₂.1 hlength
  have hc := convert_noNul h₂.2 hconvert
  cases c with
  | number f base x =>
    simp only [Option.pure_def, Option.some.injEq, Prod.mk.injEq] at h
    obtain ⟨rfl, _, rfl, rfl⟩ := h
    exact ⟨layOut_noNul _ _ _ (signPrefix_noNul _ _ _) (fillNumbuf_noNul _ hc.1), h₃.tail, hc.2⟩
  | string data =>
    simp only [Option.pure_def, Option.some.injEq, Prod.mk.injEq] at h
    obtain ⟨rfl, _, rfl, rfl⟩ := h
    exact ⟨layOut_noNul _ _ _ (by decide) hc.1, h₃.tail, hc.2⟩
  | color color'' =>
    simp only [Option.pure_def, Option.some.injEq, Prod.mk.injEq] at h
    obtain ⟨rfl, _, rfl, rfl⟩ := h
    exact ⟨by decide, h₃.tail, hc.2⟩

/-- `vprintf` never prints a NUL. -/
lemma vprintfLoop_noNul {fuel : Nat} {color : BitVec 32} {out : List (UInt8 × BitVec 32)} (hf : NoNul format)
    (hv : VaNoNul val) (h : vprintfLoop fuel color format val = some out) : NoNul (out.map Prod.fst) := by
  induction fuel generalizing color format val out with
  | zero => simp [vprintfLoop] at h
  | succ fuel ih =>
    cases format with
    | nil =>
      rw [vprintfLoop, Option.some.injEq] at h
      rw [← h]
      decide
    | cons c format =>
      rw [vprintfLoop] at h
      split at h
      · simp only [Option.bind_eq_bind, Option.bind_eq_some_iff, Option.pure_def, Option.some.injEq] at h
        obtain ⟨out', hrest, rfl⟩ := h
        intro d hd
        rw [List.map_cons, List.mem_cons] at hd
        cases hd with
        | inl hd => exact hd ▸ hf c List.mem_cons_self
        | inr hd => exact ih hf.tail hv hrest d hd
      · simp only [Option.bind_eq_bind, Option.bind_eq_some_iff, Option.pure_def, Option.some.injEq,
          Prod.exists] at h
        obtain ⟨chars, color', rest, val', hconv, out', hrest, rfl⟩ := h
        obtain ⟨hchars, hrestf, hrestv⟩ := conversion_noNul hf.tail hv hconv
        have hmap : (chars.map (fun c => (c, color)) ++ out').map Prod.fst = chars ++ out'.map Prod.fst := by
          simp [Function.comp_def]
        rw [hmap]
        exact hchars.append (ih hrestf hrestv hrest)

end NoNul

end Cs300Projects.WeensyOS
