import Cs300Projects.WeensyOS.PrintfBuffer
import Mathlib.Data.List.GetD
import Mathlib.Tactic.Ring

/-!
# The panic of a process

`panic` of `u-lib.cc` with the addresses that it touches, which count from the start of its buffer. It takes
the length of the message from `vsnprintf`, which counts the whole message and not the part that is stored.
-/

namespace Cs300Projects.WeensyOS

open Bytes

/-- The memory, and the addresses that were read or written. -/
structure Traced where
  mem : Nat → UInt8
  touched : List Nat

namespace Traced

/-- Store the bytes from `a` on. -/
def store (t : Traced) (a : Nat) : List UInt8 → Traced
  | [] => t
  | c :: data => store ⟨blit t.mem a 1 (fun _ => c), t.touched ++ [a]⟩ (a + 1) data

def load (t : Traced) (a : Nat) : UInt8 × Traced := (t.mem a, { t with touched := t.touched ++ [a] })

/-- `strcpy` of a string that is given without its NUL. -/
def strcpy (t : Traced) (dst : Nat) (src : List UInt8) : Traced := t.store dst (src ++ [0])

end Traced

def panicText : List UInt8 := (['P', 'A', 'N', 'I', 'C', ':', ' '] : List Char).map ch

/-- `panic` after `vsnprintf`: the newline that it adds. -/
def addNewline (t : Traced) (len : Int) : Traced :=
  if len > 0 then
    let (c, t) := t.load (len - 1).toNat
    if c ≠ ch '\n' then t.strcpy (len - if len = 160 - 1 then 1 else 0).toNat [ch '\n'] else t
  else t

/-- `panic` up to the call of `console_printf`, with its buffer of 160 bytes at address 0. -/
def panic (mem : Nat → UInt8) (format : List UInt8) (val : VaList) : Option Traced := do
  let t := (Traced.mk mem []).store 0 panicText
  let (mem, n) ← vsnprintf t.mem 7 (160 - 7) format val
  let stored ← vsnprintfTouched t.mem 7 (160 - 7) format val
  let len := Int.bmod (n + 7) (2 ^ 32)
  return addNewline ⟨mem, t.touched ++ stored⟩ len

/-- All that `panic` touches is in its buffer, also when `console_printf` reads the string there, which is the
beginning of the text and a newline. -/
structure PanicShows (t : Traced) (text : List UInt8) : Prop where
  inside : ∀ a ∈ t.touched, a < 160
  shown : ∃ k, CString t.mem 0 (text.take k ++ [ch '\n']) ∧ (text.take k).length + 1 < 160

/-! ### Stores -/

namespace Traced

lemma store_mem (t : Traced) (a : Nat) (data : List UInt8) : (t.store a data).mem = copy t.mem a data := by
  induction data generalizing t a with
  | nil =>
    funext x
    simp [store, copy]
  | cons c data ih =>
    rw [store, ih]
    funext x
    simp only [copy, blit]
    by_cases hx : a ≤ x
    · rw [if_pos hx]
      by_cases heq : x = a
      · simp [heq]
      · rw [if_pos (by omega), if_neg (by omega), show x - a = x - (a + 1) + 1 by omega, List.getElem?_cons_succ]
    · rw [if_neg hx, if_neg (by omega), if_neg (by omega)]

lemma store_touched (t : Traced) (a : Nat) (data : List UInt8) {x : Nat} :
    x ∈ (t.store a data).touched ↔ x ∈ t.touched ∨ a ≤ x ∧ x < a + data.length := by
  induction data generalizing t a with
  | nil =>
    simp [store]
  | cons c data ih =>
    have hsplit : (x = a ∨ a + 1 ≤ x ∧ x < a + 1 + data.length) ↔ a ≤ x ∧ x < a + (data.length + 1) := by omega
    rw [store, ih, List.mem_append, List.mem_singleton, List.length_cons, or_assoc, hsplit]

end Traced

/-! ### The string in the buffer -/

/-- The buffer behind `vsnprintf`: as much of the text as fits, and a NUL. -/
structure Printed (t : Traced) (text : List UInt8) : Prop where
  inside : ∀ a ∈ t.touched, a < 160
  chars : ∀ i, i < text.length → i < 159 → t.mem i = text.getD i 0
  nul : t.mem (min text.length 159) = 0

/-- The length of the text in an `int`. -/
def intLength (text : List UInt8) : Int := Int.bmod text.length (2 ^ 32)

/-- The texts that are shown right: those that fit, and those whose length is so large that the `int` is small
again and that have a newline at the end of the buffer or none where the `int` points. -/
def PanicFits (text : List UInt8) : Prop :=
  text.length ≤ 159 ∨ intLength text ≤ 159 ∧ (text.getD 158 0 = ch '\n' ∨
    0 < intLength text ∧ text.getD (intLength text - 1).toNat 0 ≠ ch '\n')

lemma intLength_panicText (s : List UInt8) (n : Nat) (hn : s.length = n) :
    intLength (panicText ++ s) = Int.bmod (n + 7) (2 ^ 32) := by
  have hcast : (((panicText ++ s).length : Nat) : Int) = n + 7 := by
    rw [List.length_append, hn, Nat.add_comm]
    exact Nat.cast_add n 7
  unfold intLength
  rw [hcast]

section Buffer

variable {t : Traced} {text : List UInt8}

lemma panic_printed (mem : Nat → UInt8) {format : List UInt8} {val : VaList} {out : List (UInt8 × BitVec 32)}
    (hout : vprintf 0 format val = some out) : ∃ t, Printed t (panicText ++ out.map Prod.fst) ∧
      panic mem format val = some (addNewline t (intLength (panicText ++ out.map Prod.fst))) := by
  have htext : panicText.length = 7 := rfl
  obtain ⟨m, hm, hchars, hnul, hwithin⟩ := vsnprintf_stored hout ((Traced.mk mem []).store 0 panicText).mem 7 153
  obtain ⟨l, hl, hinside⟩ := vsnprintfTouched_inside hout ((Traced.mk mem []).store 0 panicText).mem 7 153
  refine ⟨⟨m, ((Traced.mk mem []).store 0 panicText).touched ++ l⟩, ⟨?_, ?_, ?_⟩, ?_⟩
  · intro a ha
    rw [List.mem_append, Traced.store_touched] at ha
    cases ha with
    | inl ha => simp [htext] at ha; omega
    | inr ha => have := hinside a ha; omega
  · intro i hi hlt
    rw [List.length_append, htext, List.length_map] at hi
    by_cases hpre : i < 7
    · have hkeep : m i = ((Traced.mk mem []).store 0 panicText).mem i := hwithin i (Or.inl hpre)
      rw [List.getD_append _ _ _ _ (by rw [htext]; exact hpre)]
      refine hkeep.trans ?_
      rw [Traced.store_mem, copy, if_pos (Nat.zero_le i), Nat.sub_zero, List.getD_eq_getElem?_getD,
        List.getElem?_eq_getElem (by rw [htext]; exact hpre)]
      rfl
    · have hchar := hchars (i - 7) (by omega) (by omega)
      rw [Nat.add_sub_cancel' (Nat.le_of_not_lt hpre)] at hchar
      rw [List.getD_append_right _ _ _ _ (by omega), htext]
      exact hchar
  · have hend : min (7 + out.length) 159 = 7 + min out.length (153 - 1) := by omega
    rw [List.length_append, htext, List.length_map, hend]
    exact hnul (by decide)
  · rw [panic]
    simp only [Option.bind_eq_bind]
    rw [hm, Option.bind_some, hl, Option.bind_some, Option.pure_def,
      intLength_panicText _ out.length (List.length_map _)]

lemma CString.unique {m : Nat → UInt8} {a : Nat} {s s' : List UInt8} (h : CString m a s) (h' : CString m a s') :
    s = s' := by
  have hlen : s.length = s'.length := by
    rcases Nat.lt_trichotomy s.length s'.length with hlt | heq | hgt
    · exact absurd h.nul (by rw [h'.chars _ hlt]; exact h'.nonzero _ (List.getElem_mem hlt))
    · exact heq
    · exact absurd h'.nul (by rw [h.chars _ hgt]; exact h.nonzero _ (List.getElem_mem hgt))
  apply List.ext_getElem hlen
  intro i hi hi'
  rw [← h.chars i hi, h'.chars i hi']

lemma Printed.cstring (h : Printed t text) (hnul : NoNul text) : CString t.mem 0 (text.take 159) := by
  constructor
  case chars =>
    intro i hi
    rw [List.length_take] at hi
    rw [Nat.zero_add, h.chars i (by omega) (by omega), List.getD_eq_getElem _ _ (by omega), List.getElem_take]
  case nul =>
    rw [Nat.zero_add, List.length_take, Nat.min_comm]
    exact h.nul
  case nonzero => exact hnul.take 159

/-- A buffer that is left as it is shows the text if it ends in a newline there. -/
lemma Printed.shows_iff (h : Printed t text) (hnul : NoNul text) (hne : text ≠ []) :
    PanicShows t text ↔ text.getD (min text.length 159 - 1) 0 = ch '\n' := by
  have hpos : 0 < text.length := List.length_pos_iff.2 hne
  constructor
  · rintro ⟨_, k, hk, _⟩
    have heq := hk.unique (h.cstring hnul)
    have hlast := congrArg (fun s => s.getD (min text.length 159 - 1) 0) heq
    have hlen := congrArg List.length heq
    rw [List.length_append, List.length_singleton, List.length_take (i := 159)] at hlen
    rw [List.getD_append_right _ _ _ _ (by omega), show min text.length 159 - 1 - (text.take k).length = 0 by omega,
      List.getD_eq_getElem (text.take 159) _ (by rw [List.length_take]; omega), List.getElem_take] at hlast
    rw [List.getD_eq_getElem _ _ (by omega), ← hlast]
    rfl
  · intro hlast
    refine ⟨h.inside, min text.length 159 - 1, ?_, ?_⟩
    · have hsplit : text.take (min text.length 159 - 1) ++ [ch '\n'] = text.take 159 := by
        rw [← hlast, List.getD_eq_getElem _ _ (by omega), List.take_append_getElem,
          show min text.length 159 - 1 + 1 = min text.length 159 by omega, List.take_eq_take_iff]
        omega
      rw [hsplit]
      exact h.cstring hnul
    · rw [List.length_take]
      omega

/-- A newline that is stored behind characters of the text, in the buffer. -/
lemma Printed.shows_newline (h : Printed t text) (hnul : NoNul text) {x o : Nat} (hx : x < 160) (ho : o ≤ 158)
    (hle : o ≤ text.length) : PanicShows ((t.load x).2.strcpy o [ch '\n']) text := by
  have hlen : (text.take o).length = o := by rw [List.length_take]; omega
  refine ⟨?_, o, ⟨?_, ?_, ?_⟩, by omega⟩
  · intro a ha
    rw [Traced.strcpy, Traced.store_touched] at ha
    simp only [Traced.load, List.mem_append, List.mem_singleton, List.length_append, List.length_singleton] at ha
    rcases ha with (ha | ha) | ha
    · exact h.inside a ha
    · omega
    · omega
  · intro i hi
    rw [List.length_append, hlen, List.length_singleton] at hi
    rw [Traced.strcpy, Traced.store_mem, Nat.zero_add, copy]
    by_cases hio : o ≤ i
    · obtain rfl : i = o := by omega
      simp [hlen]
    · rw [if_neg hio, List.getElem_append_left (by omega), List.getElem_take]
      have hchar := h.chars i (by omega) (by omega)
      rw [List.getD_eq_getElem _ _ (by omega)] at hchar
      exact hchar
  · rw [Traced.strcpy, Traced.store_mem, List.length_append, hlen, List.length_singleton, Nat.zero_add, copy]
    simp
  · exact (hnul.take o).append (by decide)

lemma Traced.load_store_touched (t : Traced) (x a : Nat) (data : List UInt8) :
    x ∈ ((t.load x).2.store a data).touched := by
  rw [store_touched]
  simp [load]

lemma intLength_bounds (text : List UInt8) : (text.length ≤ 159 → intLength text = text.length) ∧
    (0 < intLength text → intLength text ≤ text.length) := by
  unfold intLength
  rw [Int.bmod_def]
  split <;> omega

lemma Printed.load (h : Printed t text) {x : Nat} (hx : x < 160) : Printed (t.load x).2 text := by
  refine ⟨?_, h.chars, h.nul⟩
  intro a ha
  simp only [Traced.load, List.mem_append, List.mem_singleton] at ha
  cases ha with
  | inl ha => exact h.inside a ha
  | inr ha => omega

/-- What is shown when the `int` points into the buffer. -/
lemma Printed.addNewline_inside (h : Printed t text) (hnul : NoNul text) (hne : text ≠ [])
    (hpos : 0 < intLength text) (hle : intLength text ≤ 159) :
    PanicShows (addNewline t (intLength text)) text ↔ PanicFits text := by
  obtain ⟨hsmall, hbound⟩ := intLength_bounds text
  have hN := hbound hpos
  generalize hx : (intLength text - 1).toNat = x
  have hchar : (t.load x).1 = text.getD x 0 := h.chars x (by omega) (by omega)
  simp only [addNewline, gt_iff_lt, hpos, if_true, hx, hchar]
  by_cases hc : text.getD x 0 = ch '\n'
  · rw [if_neg (not_not.2 hc), (h.load (by omega)).shows_iff hnul hne]
    unfold PanicFits
    by_cases hfits : text.length ≤ 159
    · have hlast : min text.length 159 - 1 = x := by
        have := hsmall hfits
        omega
      rw [hlast]
      exact iff_of_true hc (Or.inl hfits)
    · have hlast : min text.length 159 - 1 = 158 := by omega
      rw [hlast, hx]
      simp only [hfits, hle, hc, hpos, true_and, ne_eq, not_true_eq_false, and_false, or_false, false_or]
  · rw [if_pos hc]
    have hfits : PanicFits text := Or.inr ⟨hle, Or.inr ⟨hpos, by rw [hx]; exact hc⟩⟩
    have hend : (intLength text - if intLength text = 160 - 1 then 1 else 0).toNat ≤ 158 ∧
        (intLength text - if intLength text = 160 - 1 then 1 else 0).toNat ≤ text.length := by
      split <;> omega
    exact ⟨fun _ => hfits, fun _ => h.shows_newline hnul (by omega) hend.1 hend.2⟩

/-- When the `int` points behind the buffer, the read or the newline is outside. -/
lemma Printed.addNewline_outside (h : Printed t text) (hlt : 159 < intLength text) :
    ¬ PanicShows (addNewline t (intLength text)) text := by
  have hN := (intLength_bounds text).2 (by omega)
  intro hshows
  generalize hx : (intLength text - 1).toNat = x at hshows
  have hpos : 0 < intLength text := by omega
  simp only [addNewline, gt_iff_lt, hpos, if_true, hx] at hshows
  by_cases hread : x < 160
  · -- the character behind the message is the NUL
    obtain rfl : x = 159 := by omega
    have hend : (intLength text - if intLength text = 160 - 1 then 1 else 0).toNat = 160 := by
      split <;> omega
    have hzero : (t.load 159).1 = 0 := by
      have hnul := h.nul
      rw [show min text.length 159 = 159 by omega] at hnul
      exact hnul
    rw [hzero, if_pos (by decide), hend] at hshows
    have hinside := hshows.inside 160 (by rw [Traced.strcpy, Traced.store_touched]; simp)
    omega
  · have hinside : x < 160 := by
      by_cases hc : (t.load x).1 ≠ ch '\n'
      · rw [if_pos hc] at hshows
        exact hshows.inside x (Traced.load_store_touched t x _ _)
      · rw [if_neg hc] at hshows
        exact hshows.inside x (by simp [Traced.load])
    exact hread hinside

lemma Printed.addNewline_iff (h : Printed t text) (hnul : NoNul text) (hne : text ≠ []) :
    PanicShows (addNewline t (intLength text)) text ↔ PanicFits text := by
  obtain ⟨hsmall, hbound⟩ := intLength_bounds text
  have hlength : 0 < text.length := List.length_pos_iff.2 hne
  by_cases hlt : 159 < intLength text
  · refine iff_of_false (h.addNewline_outside hlt) ?_
    rintro (hfits | hfits)
    · have := hsmall hfits
      omega
    · omega
  · by_cases hpos : 0 < intLength text
    · exact h.addNewline_inside hnul hne hpos (by omega)
    · have hlong : ¬ text.length ≤ 159 := fun hfits => by
        have := hsmall hfits
        omega
      have hlast : min text.length 159 - 1 = 158 := by omega
      rw [addNewline, if_neg hpos, h.shows_iff hnul hne, hlast]
      unfold PanicFits
      simp [hlong, hpos, Int.not_lt.1 hlt]

end Buffer

/-- For every format and arguments: `panic` stays in its buffer and shows the beginning of its text with a
newline exactly when the text fits. -/
theorem panic_shows_iff (mem : Nat → UInt8) {format : List UInt8} {val : VaList} {out : List (UInt8 × BitVec 32)}
    (hformat : NoNul format) (hval : VaNoNul val) (hout : vprintf 0 format val = some out) :
    (∃ t, panic mem format val = some t ∧ PanicShows t (panicText ++ out.map Prod.fst)) ↔
      PanicFits (panicText ++ out.map Prod.fst) := by
  obtain ⟨t, hprinted, hpanic⟩ := panic_printed mem hout
  have hnul : NoNul (panicText ++ out.map Prod.fst) :=
    NoNul.append (by decide) (vprintfLoop_noNul hformat hval hout)
  rw [← hprinted.addNewline_iff hnul (by simp [panicText]), hpanic]
  simp

/-- `panic("%s", s)`. -/
lemma vprintf_string {s : List UInt8} (hs : s.length < 2 ^ 31) :
    vprintf 0 [ch '%', ch 's'] [.str s] = some (s.map fun c => (c, 0)) := by
  have hflags : parseFlags {} [ch 's'] = ({}, [ch 's']) := rfl
  have hwidth : parseWidth [ch 's'] [.str s] = some (-1, [ch 's'], [.str s]) := rfl
  have hprecision : parsePrecision [ch 's'] [.str s] = some (-1, [ch 's'], [.str s]) := rfl
  have hlength : parseLength [ch 's'] = some (false, [ch 's']) := rfl
  have hconvert : convert {} false (peek [ch 's']) [.str s] = some (.string s, []) := rfl
  have hint : Int.bmod s.length 4294967296 = s.length := Int.bmod_eq_of_le (by omega) (by omega)
  have hrest : Int.bmod (-1 - s.length) 4294967296 = -1 - s.length := Int.bmod_eq_of_le (by omega) (by omega)
  have hpad : (-1 - (s.length : Int)).toNat = 0 := by omega
  have hlayout : layOut {} (-1) (-1) [] s = s := by simp [layOut, hint, hrest, hpad]
  have hconversion : conversion 0 [ch 's'] [.str s] = some (s, 0, [], []) := by
    simp only [conversion, hflags, hwidth, hprecision, hlength, hconvert, hlayout, Option.bind_eq_bind,
      Option.bind_some, Option.pure_def, List.tail_cons]
  have hpercent : ¬ ch '%' ≠ ch '%' := fun h => h rfl
  rw [vprintf, vprintfLoop, if_neg hpercent, hconversion]
  simp [vprintfLoop]

lemma vaNoNul_string {s : List UInt8} (hs : NoNul s) : VaNoNul [.str s] := by
  intro s' h
  simp only [List.mem_singleton, Arg.str.injEq] at h
  exact h ▸ hs

/-- A message of 152 characters is shown with a newline in place of its last one. -/
theorem panic_shows_sample : ∃ t, panic (fun _ => 0) [ch '%', ch 's'] [.str (List.replicate 152 (ch 'a'))] = some t ∧
    PanicShows t (panicText ++ ((List.replicate 152 (ch 'a')).map fun c => (c, (0 : BitVec 32))).map Prod.fst) := by
  have hval := vaNoNul_string (noNul_replicate 152 (show ch 'a' ≠ 0 by decide))
  exact (panic_shows_iff _ (by decide) hval (vprintf_string (by simp))).2 (Or.inl (by simp [panicText]))

/-- A message of 153 characters is too long. -/
theorem panic_not_shown : ¬ ∀ (mem : Nat → UInt8) (format : List UInt8) (val : VaList)
    (out : List (UInt8 × BitVec 32)), NoNul format → VaNoNul val → vprintf 0 format val = some out →
    ∃ t, panic mem format val = some t ∧ PanicShows t (panicText ++ out.map Prod.fst) := by
  intro h
  have hval := vaNoNul_string (noNul_replicate 153 (show ch 'a' ≠ 0 by decide))
  have hfits := (panic_shows_iff (fun _ => 0) (by decide) hval (vprintf_string (by simp))).1
    (h _ [ch '%', ch 's'] _ _ (by decide) hval (vprintf_string (by simp)))
  cases hfits with
  | inl hle => simp [panicText] at hle
  | inr hlong =>
    rw [intLength_panicText _ 153 (by simp)] at hlong
    exact absurd hlong.1 (by decide)

end Cs300Projects.WeensyOS
