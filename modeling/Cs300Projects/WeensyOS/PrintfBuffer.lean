import Cs300Projects.WeensyOS.PrintfChars
import Cs300Projects.WeensyOS.PrintfFormat
import Mathlib.Data.List.GetD

/-!
# Printing to a buffer

What `vsnprintf` stores, for every format and every size of the buffer: the beginning of the output and a NUL,
and nothing outside the buffer.
-/

namespace Cs300Projects.WeensyOS

open Bytes

/-- The addresses that the printer writes to. -/
def StringPrinter.touched : StringPrinter → List (UInt8 × BitVec 32) → List Nat
  | _, [] => []
  | p, c :: out => (if p.s < p.end_ then [p.s] else []) ++ touched (p.putc c.1) out

/-- The addresses that `vsnprintf` writes to. -/
def vsnprintfTouched (mem : Nat → UInt8) (s size : Nat) (format : List UInt8) (val : VaList) : Option (List Nat) := do
  let out ← vprintf 0 format val
  let sp := out.foldl (fun (p : StringPrinter) c => p.putc c.1) ⟨mem, s, s + size, 0⟩
  let stored := StringPrinter.touched ⟨mem, s, s + size, 0⟩ out
  if size ≠ 0 ∧ sp.s < sp.end_ then return stored ++ [sp.s]
  else if size ≠ 0 then return stored ++ [sp.end_ - 1]
  else return stored

lemma StringPrinter.touched_inside (p : StringPrinter) (out : List (UInt8 × BitVec 32)) {a : Nat}
    (h : a ∈ p.touched out) : p.s ≤ a ∧ a < p.end_ := by
  induction out generalizing p with
  | nil => simp [touched] at h
  | cons c out ih =>
    rw [touched, List.mem_append] at h
    by_cases hlt : p.s < p.end_
    · cases h with
      | inl h =>
        rw [if_pos hlt, List.mem_singleton] at h
        omega
      | inr h =>
        have hrest := ih _ h
        simp only [putc, if_pos hlt] at hrest
        omega
    · cases h with
      | inl h => simp [hlt] at h
      | inr h =>
        have hrest := ih _ h
        simp only [putc, if_neg hlt] at hrest
        exact hrest

section Message

variable {format : List UInt8} {val : VaList} {out : List (UInt8 × BitVec 32)}

/-- `vsnprintf` stores the beginning of the message and a NUL, and counts all of it. -/
lemma vsnprintf_stored (hout : vprintf 0 format val = some out) (mem : Nat → UInt8) (s size : Nat) :
    ∃ m, vsnprintf mem s size format val = some (m, out.length) ∧
      (∀ i, i < out.length → i + 1 < size → m (s + i) = (out.map Prod.fst).getD i 0) ∧
      (size ≠ 0 → m (s + min out.length (size - 1)) = 0) ∧ Within mem m s (min (out.length + 1) size) := by
  have hfold := foldl_putc out ⟨mem, s, s + size, 0⟩ (Nat.le_add_right s size)
  simp only [Nat.add_sub_cancel_left, Nat.zero_add] at hfold
  have hstored := within_blit mem s (min out.length size) (fun i => (out.map Prod.fst).getD i 0)
  have hchars : ∀ e, e = s + min out.length (size - 1) → ∀ i, i < out.length → i + 1 < size →
      blit (blit mem s (min out.length size) (fun i => (out.map Prod.fst).getD i 0)) e 1 (fun _ => 0) (s + i) =
        (out.map Prod.fst).getD i 0 := by
    intro e he i hi hlt
    rw [blit_outside (by unfold Outside; omega), blit_inside (by omega) (by omega), Nat.add_sub_cancel_left]
  by_cases hfits : out.length < size
  · have hs : min (s + out.length) (s + size) = s + out.length := by omega
    refine ⟨_, ?_, hchars (s + out.length) (by omega), fun _ => ?_, ?_⟩
    · rw [vsnprintf, hout]
      simp only [Option.bind_eq_bind, Option.bind_some, hfold, hs]
      rw [if_pos ⟨Nat.ne_zero_of_lt hfits, by omega⟩]
      rfl
    · exact blit_inside (by omega) (by omega)
    · exact (hstored.mono (Nat.le_refl s) (by omega)).trans ((within_blit _ _ _ _).mono (by omega) (by omega))
  · have hs : min (s + out.length) (s + size) = s + size := by omega
    by_cases hsize : size = 0
    · subst hsize
      refine ⟨mem, ?_, fun i _ hlt => absurd hlt (Nat.not_lt_zero _), fun h => absurd rfl h, fun x _ => rfl⟩
      rw [vsnprintf, hout]
      simp only [Option.bind_eq_bind, Option.bind_some, hfold, hs]
      rw [if_neg (by omega), if_neg (by omega), Nat.min_zero, blit_zero]
      rfl
    · refine ⟨_, ?_, hchars (s + size - 1) (by omega), fun _ => ?_, ?_⟩
      · rw [vsnprintf, hout]
        simp only [Option.bind_eq_bind, Option.bind_some, hfold, hs]
        rw [if_neg (by omega), if_pos hsize]
        rfl
      · exact blit_inside (by omega) (by omega)
      · exact (hstored.mono (Nat.le_refl s) (by omega)).trans ((within_blit _ _ _ _).mono (by omega) (by omega))

lemma vsnprintfTouched_inside (hout : vprintf 0 format val = some out) (mem : Nat → UInt8) (s size : Nat) :
    ∃ l, vsnprintfTouched mem s size format val = some l ∧ ∀ a ∈ l, s ≤ a ∧ a < s + size := by
  have hfold := foldl_putc out ⟨mem, s, s + size, 0⟩ (Nat.le_add_right s size)
  have hstored : ∀ a ∈ StringPrinter.touched ⟨mem, s, s + size, 0⟩ out, s ≤ a ∧ a < s + size :=
    fun a ha => StringPrinter.touched_inside _ out ha
  have happend : ∀ e, s ≤ e → e < s + size → ∀ a ∈ StringPrinter.touched ⟨mem, s, s + size, 0⟩ out ++ [e],
      s ≤ a ∧ a < s + size := by
    intro e hle hlt a ha
    rw [List.mem_append, List.mem_singleton] at ha
    cases ha with
    | inl ha => exact hstored a ha
    | inr ha => exact ha ▸ ⟨hle, hlt⟩
  rw [vsnprintfTouched, hout]
  simp only [Option.bind_eq_bind, Option.bind_some, hfold]
  by_cases hfits : min (s + out.length) (s + size) < s + size
  · rw [if_pos ⟨by omega, hfits⟩]
    exact ⟨_, rfl, happend _ (by omega) hfits⟩
  · rw [if_neg (fun h => hfits h.2)]
    by_cases hsize : size ≠ 0
    · rw [if_pos hsize]
      exact ⟨_, rfl, happend _ (by omega) (by omega)⟩
    · rw [if_neg hsize]
      exact ⟨_, rfl, hstored⟩

end Message

/-- The characters in a buffer of `size` bytes, when `n` characters were printed to it. -/
def bufferText (mem : Nat → UInt8) (s size n : Nat) : List UInt8 :=
  (List.range (min n (size - 1))).map fun i => mem (s + i)

/-- The buffer holds the beginning of the text and one NUL, and no other byte was written. -/
structure Truncated (mem mem' : Nat → UInt8) (s size : Nat) (text : List UInt8) : Prop where
  stored : bufferText mem' s size text.length = text.take (size - 1)
  nul : 0 < size → mem' (s + min text.length (size - 1)) = 0
  within : Within mem mem' s (min (text.length + 1) size)

/-- The parser stays within the format, whatever the format is. If the arguments match, the same output is
counted for every size, the beginning of it is stored, and what is stored for a smaller size is a prefix. -/
theorem vsnprintf_truncates {format : List UInt8} (hnul : NoNul format) (val : VaList) (mem : Nat → UInt8) (s : Nat) :
    (∀ color, vprintfAt format (format.length + 1) color 0 val ≠ .error .format ∧
      vprintfAt format (format.length + 1) color 0 val ≠ .error .rounds) ∧
    (vprintfAt format (format.length + 1) 0 0 val = .error .argument ∨
      ∃ out, vprintfAt format (format.length + 1) 0 0 val = .ok out ∧ ∃ after : Nat → Nat → UInt8,
        (∀ size, vsnprintf mem s size format val = some (after size, out.length) ∧
          Truncated mem (after size) s size (out.map Prod.fst) ∧
          ∃ l, vsnprintfTouched mem s size format val = some l ∧ ∀ a ∈ l, s ≤ a ∧ a < s + size) ∧
        ∀ size size', size ≤ size' →
          bufferText (after size) s size out.length <+: bufferText (after size') s size' out.length) := by
  have hparse : ∀ color, vprintfAt format (format.length + 1) color 0 val = argument (vprintf color format val) :=
    fun color => vprintfAt_eq hnul (Nat.zero_le _) (Nat.lt_succ_self _) color val
  constructor
  · intro color
    rw [hparse color]
    cases vprintf color format val with
    | none => exact ⟨by rintro ⟨⟩, by rintro ⟨⟩⟩
    | some out => exact ⟨by rintro ⟨⟩, by rintro ⟨⟩⟩
  · rw [hparse 0]
    cases hout : vprintf 0 format val with
    | none => exact Or.inl rfl
    | some out =>
      have hlen : (out.map Prod.fst).length = out.length := List.length_map _
      choose after hafter hchars hend hwithin using vsnprintf_stored hout mem s
      have htext : ∀ size, bufferText (after size) s size out.length = (out.map Prod.fst).take (size - 1) := by
        intro size
        unfold bufferText
        apply List.ext_getElem
        · rw [List.length_map, List.length_range, List.length_take, hlen, Nat.min_comm]
        · intro i hi hi'
          rw [List.length_take, hlen] at hi'
          rw [List.getElem_map, List.getElem_range, hchars size i (by omega) (by omega),
            List.getD_eq_getElem _ _ (by omega), List.getElem_take]
      refine Or.inr ⟨out, rfl, after, fun size => ⟨hafter size, ⟨?_, ?_, ?_⟩, ?_⟩, ?_⟩
      · rw [hlen]
        exact htext size
      · intro hpos
        rw [hlen]
        exact hend size (Nat.ne_of_gt hpos)
      · rw [hlen]
        exact hwithin size
      · exact vsnprintfTouched_inside hout mem s size
      · intro size size' hle
        rw [htext, htext]
        exact List.take_prefix_take_left (Nat.sub_le_sub_right hle 1)

/-- A format that ends in the middle of a conversion. -/
theorem vsnprintf_truncates_sample :
    ∃ mem', vsnprintf (fun _ => 7) 0 3 [ch 'a', ch 'b', ch 'c', ch '%', ch '-'] [] = some (mem', 4) ∧
      mem' 0 = ch 'a' ∧ mem' 2 = 0 ∧ mem' 3 = 7 := by
  have hrun : vprintfAt [ch 'a', ch 'b', ch 'c', ch '%', ch '-'] 6 0 0 [] =
      .ok [(ch 'a', 0), (ch 'b', 0), (ch 'c', 0), (ch '%', 0)] := rfl
  have hformat : NoNul [ch 'a', ch 'b', ch 'c', ch '%', ch '-'] := by decide
  rcases (vsnprintf_truncates hformat [] (fun _ => 7) 0).2 with hmismatch | ⟨out, hout, after, hall, -⟩
  · exact absurd (hmismatch.symm.trans hrun) (by rintro ⟨⟩)
  · obtain rfl : out = [(ch 'a', 0), (ch 'b', 0), (ch 'c', 0), (ch '%', 0)] :=
      Except.ok.inj (hout.symm.trans hrun)
    obtain ⟨hresult, htruncated, -⟩ := hall 3
    refine ⟨after 3, hresult, ?_, htruncated.nul (by decide), htruncated.within 3 (Or.inr (by decide))⟩
    have htext : [after 3 0, after 3 1] = [ch 'a', ch 'b'] := htruncated.stored
    exact (List.cons.inj htext).1

end Cs300Projects.WeensyOS
