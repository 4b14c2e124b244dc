import Mathlib.Data.Fin.VecNotation
import Mathlib.Tactic.Common

/-!
# Reading the keyboard

`keyboard_readc` takes one byte of the keyboard at a time. What it keeps between two calls, the modifiers and the last escape,
stands for all that was pressed and released before.
-/

namespace Cs300Projects.WeensyOS.Keyboard

def modShift : BitVec 8 := 1
def modControl : BitVec 8 := 2
def modCapslock : BitVec 8 := 8

def keyUp : Nat := 0o300
def keyRight : Nat := 0o301
def keyDown : Nat := 0o302
def keyLeft : Nat := 0o303
def keyHome : Nat := 0o304
def keyEnd : Nat := 0o305
def keyPageup : Nat := 0o306
def keyPagedown : Nat := 0o307
def keyInsert : Nat := 0o310
def keyDelete : Nat := 0o311

def keyShift : Nat := 0o372
def keyControl : Nat := 0o373
def keyAlt : Nat := 0o374
def keyCapslock : Nat := 0o375
def keyNumlock : Nat := 0o376
def keyScrolllock : Nat := 0o377

def ckey (cn : Nat) : Nat := 0x80 + cn

/-- The ASCII code of a character. -/
def asc (c : Char) : Nat := c.toNat

def keymap : List Nat :=
  [0, 0o33, ckey 0, ckey 1, ckey 2, ckey 3, ckey 4, ckey 5,
    ckey 6, ckey 7, ckey 8, ckey 9, ckey 10, ckey 11, 8, asc '\t',
    asc 'q', asc 'w', asc 'e', asc 'r', asc 't', asc 'y', asc 'u', asc 'i',
    asc 'o', asc 'p', ckey 12, ckey 13, ckey 14, keyControl, asc 'a', asc 's',
    asc 'd', asc 'f', asc 'g', asc 'h', asc 'j', asc 'k', asc 'l', ckey 15,
    ckey 16, ckey 17, keyShift, ckey 18, asc 'z', asc 'x', asc 'c', asc 'v',
    asc 'b', asc 'n', asc 'm', ckey 19, ckey 20, ckey 21, keyShift, asc '*',
    keyAlt, asc ' ', keyCapslock, 0, 0, 0, 0, 0,
    0, 0, 0, 0, 0, keyNumlock, keyScrolllock, asc '7',
    asc '8', asc '9', asc '-', asc '4', asc '5', asc '6', asc '+', asc '1',
    asc '2', asc '3', asc '0', asc '.', 0, 0, 0, 0, 0, 0, 0, 0, 0, 0, 0, 0] ++
  List.replicate 0x20 0 ++
  -- from 0x80 on, the keys with an escape
  List.replicate 0x10 0 ++
  [0, 0, 0, 0, 0, 0, 0, 0, 0, 0, 0, 0, ckey 14, keyControl, 0, 0] ++
  List.replicate 0x10 0 ++
  [0, 0, 0, 0, 0, asc '/', 0, 0, keyAlt, 0, 0, 0, 0, 0, 0, 0,
    0, 0, 0, 0, 0, 0, 0, keyHome,
    keyUp, keyPageup, 0, keyLeft, 0, keyRight, 0, keyEnd,
    keyDown, keyPagedown, keyInsert, keyDelete, 0, 0, 0, 0, 0, 0, 0, 0, 0, 0, 0, 0] ++
  List.replicate 0x20 0

/-- A key whose character depends on shift and control. -/
structure KeyboardKey where
  map : Fin 4 → Nat

def complexKeymap : List KeyboardKey :=
  [⟨![asc '1', asc '!', 0, 0]⟩, ⟨![asc '2', asc '@', 0, 0]⟩,
    ⟨![asc '3', asc '#', 0, 0]⟩, ⟨![asc '4', asc '$', 0, 0]⟩,
    ⟨![asc '5', asc '%', 0, 0]⟩, ⟨![asc '6', asc '^', 0, 0o36]⟩,
    ⟨![asc '7', asc '&', 0, 0]⟩, ⟨![asc '8', asc '*', 0, 0]⟩,
    ⟨![asc '9', asc '(', 0, 0]⟩, ⟨![asc '0', asc ')', 0, 0]⟩,
    ⟨![asc '-', asc '_', 0, 0o37]⟩, ⟨![asc '=', asc '+', 0, 0]⟩,
    ⟨![asc '[', asc '{', 0o33, 0]⟩, ⟨![asc ']', asc '}', 0o35, 0]⟩,
    ⟨![asc '\n', asc '\n', asc '\r', asc '\r']⟩,
    ⟨![asc ';', asc ':', 0, 0]⟩,
    ⟨![asc '\'', asc '"', 0, 0]⟩, ⟨![0x60, asc '~', 0, 0]⟩,
    ⟨![asc '\\', asc '|', 0o34, 0]⟩, ⟨![asc ',', asc '<', 0, 0]⟩,
    ⟨![asc '.', asc '>', 0, 0]⟩, ⟨![asc '/', asc '?', 0, 0]⟩]

lemma length_keymap : keymap.length = 256 := by decide +kernel

lemma length_complexKeymap : complexKeymap.length = 22 := rfl

def keymapAt (code : BitVec 8) : Nat := keymap.get ⟨code.toNat, length_keymap ▸ code.isLt⟩

/-- `complex_keymap[cn].map[i]` -/
def complexAt (cn : Fin 22) (i : Fin 4) : Nat := (complexKeymap.get (cn.cast length_complexKeymap.symm)).map i

/-- `modifiers` and `last_escape` -/
structure State where
  modifiers : BitVec 8
  lastEscape : BitVec 8
deriving DecidableEq

/-- What the two ports answer in a call. -/
structure Ports where
  status : BitVec 8
  data : BitVec 8

def keyboardStatusReady : BitVec 8 := 1

/-- The release of a key matters for shift, control and alt only. -/
def released (modifiers : BitVec 8) (c : Nat) : BitVec 8 :=
  if c ≥ keyShift ∧ c < keyCapslock then modifiers &&& ~~~(1#8 <<< (c - keyShift)) else modifiers

/-- What a press is read as, and the modifiers after it. -/
def pressed (modifiers : BitVec 8) (c : Nat) : Nat × BitVec 8 :=
  if c ≥ asc 'a' ∧ c ≤ asc 'z' then
    if modifiers &&& modControl ≠ 0 then (c - 0x60, modifiers)
    else if (modifiers &&& modShift == 0) != (modifiers &&& modCapslock == 0) then (c - 0x20, modifiers)
    else (c, modifiers)
  else if c ≥ keyCapslock then (0, modifiers ^^^ (1#8 <<< (c - keyShift)))
  else if c ≥ keyShift then (0, modifiers ||| (1#8 <<< (c - keyShift)))
  else if hc : c ≥ ckey 0 ∧ c ≤ ckey 21 then
    (complexAt ⟨c - ckey 0, by unfold ckey at *; omega⟩
      ⟨(modifiers &&& 3).toNat, Nat.lt_succ_of_le (BitVec.toNat_and .. ▸ Nat.and_le_right)⟩, modifiers)
  else if c < 0x80 ∧ modifiers &&& modControl ≠ 0 then (0, modifiers)
  else (c, modifiers)

def keyboardReadc (s : State) (p : Ports) : Int × State :=
  if p.status &&& keyboardStatusReady = 0 then (-1, s)
  else if p.data = 0xE0 then (0, { s with lastEscape := 0x80 })
  else if p.data &&& 0x80 ≠ 0 then (0, ⟨released s.modifiers (keymapAt ((p.data &&& 0x7F) ||| s.lastEscape)), 0⟩)
  else
    let r := pressed s.modifiers (keymapAt (p.data ||| s.lastEscape))
    (r.1, ⟨r.2, 0⟩)

/-- The keyboard after calls with these answers of the ports. -/
def keyboardRun (s : State) : List Ports → State
  | [] => s
  | p :: ps => keyboardRun (keyboardReadc s p).2 ps

/-- What the calls return. -/
def readcs (s : State) : List Ports → List Int
  | [] => []
  | p :: ps => (keyboardReadc s p).1 :: readcs (keyboardReadc s p).2 ps

/-! ### What was pressed and released -/

/-- A key is given by its place in `keymap`. -/
inductive Event where
  | press (code : BitVec 8)
  | release (code : BitVec 8)

namespace Event

def key : Event → Nat
  | press code => keymapAt code
  | release code => keymapAt code

def isPress : Event → Bool
  | press _ => true
  | release _ => false

end Event

/-- The bytes that are read. -/
def codes (ps : List Ports) : List (BitVec 8) := (ps.filter fun p => p.status &&& keyboardStatusReady != 0).map Ports.data

def escapeBit (escape : Bool) : BitVec 8 := if escape then 0x80 else 0

/-- A byte behind an escape or not. -/
def event (escape : Bool) (b : BitVec 8) : Event :=
  if b &&& 0x80 ≠ 0 then .release ((b &&& 0x7F) ||| escapeBit escape) else .press (b ||| escapeBit escape)

def decode : Bool → List (BitVec 8) → List Event
  | _, [] => []
  | escape, b :: bs => if b = 0xE0 then decode true bs else event escape b :: decode false bs

/-- The last byte is an escape. -/
def pending : Bool → List (BitVec 8) → Bool
  | escape, [] => escape
  | _, b :: bs => pending (b == 0xE0) bs

/-- The last event of such a key is a press. -/
def down (h : List Event) (key : Nat) : Bool := (h.filter fun e => e.key == key).getLast?.any Event.isPress

/-- Such keys were pressed an odd number of times. -/
def locked (h : List Event) (key : Nat) : Bool := (h.countP fun e => e.key == key && e.isPress) % 2 == 1

/-- The character of a key. -/
def layout (shift control capslock : Bool) (c : Nat) : Nat :=
  if c ≥ asc 'a' ∧ c ≤ asc 'z' then
    if control then c - 0x60 else if shift ^^ capslock then c - 0x20 else c
  else if c ≥ keyShift then 0
  else if hc : c ≥ ckey 0 ∧ c ≤ ckey 21 then
    complexAt ⟨c - ckey 0, by unfold ckey at *; omega⟩
      ⟨shift.toNat + 2 * control.toNat, by cases shift <;> cases control <;> decide⟩
  else if c < 0x80 ∧ control then 0
  else c

/-- What an event is read as, after all those before it. -/
def meaning (h : List Event) : Event → Nat
  | .press code => layout (down h keyShift) (down h keyControl) (locked h keyCapslock) (keymapAt code)
  | .release _ => 0

lemma down_concat (h : List Event) (e : Event) (key : Nat) :
    down (h ++ [e]) key = if e.key = key then e.isPress else down h key := by
  unfold down
  rw [List.filter_append]
  by_cases hkey : e.key = key
  · rw [if_pos hkey, List.filter_cons_of_pos (by rw [hkey, beq_self_eq_true]), List.filter_nil, List.getLast?_concat]
    rfl
  · rw [if_neg hkey, List.filter_cons_of_neg (by rw [beq_iff_eq]; exact hkey), List.filter_nil, List.append_nil]

lemma locked_concat (h : List Event) (e : Event) (key : Nat) :
    locked (h ++ [e]) key = if e.key = key ∧ e.isPress then !locked h key else locked h key := by
  unfold locked
  rw [List.countP_append]
  by_cases hkey : e.key = key ∧ e.isPress
  · rw [if_pos hkey, List.countP_cons_of_pos (by rw [hkey.1, hkey.2, beq_self_eq_true]; rfl), List.countP_nil]
    rcases Nat.mod_two_eq_zero_or_one (h.countP fun e => e.key == key && e.isPress) with hmod | hmod
    · rw [Nat.add_mod, hmod]
      rfl
    · rw [Nat.add_mod, hmod]
      rfl
  · rw [if_neg hkey, List.countP_cons_of_neg (by simpa using hkey), List.countP_nil, Nat.add_zero]

/-! ### The modifiers -/

lemma getLsbD_modifier : ∀ i < 6, ∀ j < 6, (1#8 <<< j).getLsbD i = decide (j = i) := by decide

lemma testModifier : ∀ m : BitVec 8, (m &&& modShift == 0) = !m.getLsbD 0 ∧ (m &&& modControl == 0) = !m.getLsbD 1 ∧
    (m &&& modCapslock == 0) = !m.getLsbD 3 := by decide +kernel

lemma levels : ∀ m : BitVec 8, (m &&& 3).toNat = (m.getLsbD 0).toNat + 2 * (m.getLsbD 1).toNat := by decide +kernel

lemma keymapAt_mem (code : BitVec 8) : keymapAt code ∈ keymap := List.get_mem _ _

lemma keymapAt_lt (code : BitVec 8) : keymapAt code < 256 := by
  have hall : ∀ c ∈ keymap, c < 256 := by decide +kernel
  exact hall _ (keymapAt_mem code)

/-- A press is read by the three bits. -/
lemma pressed_fst (m : BitVec 8) (c : Nat) :
    (pressed m c).1 = layout (m.getLsbD 0) (m.getLsbD 1) (m.getLsbD 3) c := by
  obtain ⟨hshift, hcontrol, hcapslock⟩ := testModifier m
  have hand : (m &&& modControl ≠ 0) ↔ m.getLsbD 1 = true := by
    rw [Ne, ← beq_iff_eq, hcontrol, Bool.not_eq_true', Bool.not_eq_false]
  have hxor : ((m &&& modShift == 0) != (m &&& modCapslock == 0)) = (m.getLsbD 0 ^^ m.getLsbD 3) := by
    rw [hshift, hcapslock]
    cases m.getLsbD 0 <;> cases m.getLsbD 3 <;> rfl
  unfold pressed layout
  by_cases hletter : c ≥ asc 'a' ∧ c ≤ asc 'z'
  · rw [if_pos hletter, if_pos hletter, hxor]
    simp only [hand]
    split <;> [rfl; (split <;> rfl)]
  · rw [if_neg hletter, if_neg hletter]
    by_cases hmod : c ≥ keyShift
    · rw [if_pos hmod, if_pos hmod]
      split <;> rfl
    · have hlock : ¬c ≥ keyCapslock := fun hge => hmod (Nat.le_trans (by decide) hge)
      rw [if_neg hmod, if_neg hlock, if_neg hmod]
      by_cases hc : c ≥ ckey 0 ∧ c ≤ ckey 21
      · rw [dif_pos hc, dif_pos hc]
        dsimp only
        congr 2
        exact levels m
      · rw [dif_neg hc, dif_neg hc]
        simp only [hand]
        split <;> rfl

/-- Only the keys from shift on change the modifiers. -/
lemma pressed_snd (m : BitVec 8) (c : Nat) :
    (pressed m c).2 = if c ≥ keyCapslock then m ^^^ (1#8 <<< (c - keyShift))
      else if c ≥ keyShift then m ||| (1#8 <<< (c - keyShift)) else m := by
  unfold pressed
  by_cases hletter : c ≥ asc 'a' ∧ c ≤ asc 'z'
  · have hle : c ≤ 122 := hletter.2
    have hlock : ¬c ≥ keyCapslock := by
      unfold keyCapslock
      omega
    have hmod : ¬c ≥ keyShift := by
      unfold keyShift
      omega
    rw [if_pos hletter, if_neg hlock, if_neg hmod]
    split <;> [rfl; (split <;> rfl)]
  · rw [if_neg hletter]
    split <;> [rfl; (split <;> [rfl; (split <;> [rfl; (split <;> rfl)])])]

section Bits

variable {m : BitVec 8} {c i : Nat}

lemma pressed_held (hi : i < 3) (hc : c < 256) :
    (pressed m c).2.getLsbD i = if c = keyShift + i then true else m.getLsbD i := by
  rw [pressed_snd]
  unfold keyCapslock keyShift
  split
  · have hbit := getLsbD_modifier i (by omega) (c - 250) (by omega)
    rw [BitVec.getLsbD_xor, hbit, decide_eq_false (by omega), Bool.xor_false, if_neg (by omega)]
  · split
    · rw [BitVec.getLsbD_or, getLsbD_modifier i (by omega) (c - 250) (by omega)]
      by_cases hci : c = 250 + i
      · rw [if_pos hci, decide_eq_true (by omega), Bool.or_true]
      · rw [if_neg hci, decide_eq_false (by omega), Bool.or_false]
    · rw [if_neg (by omega)]

lemma pressed_locked (hlow : 3 ≤ i) (hi : i < 6) (hc : c < 256) :
    (pressed m c).2.getLsbD i = if c = keyShift + i then !m.getLsbD i else m.getLsbD i := by
  rw [pressed_snd]
  unfold keyCapslock keyShift
  split
  · rw [BitVec.getLsbD_xor, getLsbD_modifier i hi (c - 250) (by omega)]
    by_cases hci : c = 250 + i
    · rw [if_pos hci, decide_eq_true (by omega), Bool.xor_true]
    · rw [if_neg hci, decide_eq_false (by omega), Bool.xor_false]
  · split
    · have hbit := getLsbD_modifier i hi (c - 250) (by omega)
      rw [BitVec.getLsbD_or, hbit, decide_eq_false (by omega), Bool.or_false, if_neg (by omega)]
    · rw [if_neg (by omega)]

lemma released_held (hi : i < 3) : (released m c).getLsbD i = if c = keyShift + i then false else m.getLsbD i := by
  unfold released keyCapslock keyShift
  split
  · have hbit := getLsbD_modifier i (by omega) (c - 250) (by omega)
    rw [BitVec.getLsbD_and, BitVec.getLsbD_not, hbit, decide_eq_true (by omega : i < 8), Bool.true_and]
    by_cases hci : c = 250 + i
    · rw [if_pos hci, decide_eq_true (by omega), Bool.not_true, Bool.and_false]
    · rw [if_neg hci, decide_eq_false (by omega), Bool.not_false, Bool.and_true]
  · rw [if_neg (by omega)]

lemma released_locked (hlow : 3 ≤ i) (hi : i < 6) : (released m c).getLsbD i = m.getLsbD i := by
  unfold released keyCapslock keyShift
  split
  · have hbit := getLsbD_modifier i hi (c - 250) (by omega)
    rw [BitVec.getLsbD_and, BitVec.getLsbD_not, hbit, decide_eq_true (by omega : i < 8), Bool.true_and,
      decide_eq_false (by omega), Bool.not_false, Bool.and_true]
  · rfl

end Bits

/-! ### What the state stands for -/

/-- The state after the events `h`, with an escape or not. -/
structure Represents (s : State) (h : List Event) (escape : Bool) : Prop where
  held : ∀ i, i < 3 → s.modifiers.getLsbD i = down h (keyShift + i)
  locks : ∀ i, 3 ≤ i → i < 6 → s.modifiers.getLsbD i = locked h (keyShift + i)
  escape : s.lastEscape = escapeBit escape

def State.boot : State := ⟨0, 0⟩

lemma represents_boot : Represents State.boot [] false where
  held := fun _ _ => BitVec.getLsbD_zero
  locks := fun _ _ _ => BitVec.getLsbD_zero
  escape := rfl

variable {s : State} {h : List Event} {escape : Bool}

lemma Represents.press (hs : Represents s h escape) (code : BitVec 8) :
    Represents ⟨(pressed s.modifiers (keymapAt code)).2, 0⟩ (h ++ [.press code]) false where
  held := by
    intro i hi
    rw [pressed_held hi (keymapAt_lt code), down_concat, hs.held i hi]
    rfl
  locks := by
    intro i hlow hi
    rw [pressed_locked hlow hi (keymapAt_lt code), locked_concat, hs.locks i hlow hi]
    simp only [Event.key, Event.isPress, and_true]
  escape := rfl

lemma Represents.release (hs : Represents s h escape) (code : BitVec 8) :
    Represents ⟨released s.modifiers (keymapAt code), 0⟩ (h ++ [.release code]) false where
  held := by
    intro i hi
    rw [released_held hi, down_concat, hs.held i hi]
    rfl
  locks := by
    intro i hlow hi
    rw [released_locked hlow hi, locked_concat, hs.locks i hlow hi, if_neg (by simp [Event.isPress])]
  escape := rfl

lemma Represents.pressed_fst (hs : Represents s h escape) (code : BitVec 8) :
    (pressed s.modifiers (keymapAt code)).1 = meaning h (.press code) := by
  rw [Keyboard.pressed_fst, hs.held 0 (by decide), hs.held 1 (by decide), hs.locks 3 (by decide) (by decide)]
  rfl

/-- What a call returns, after these events. -/
def returns (h : List Event) (escape : Bool) (p : Ports) : Int :=
  if p.status &&& keyboardStatusReady = 0 then -1
  else if p.data = 0xE0 then 0
  else meaning h (event escape p.data)

/-- What one call does. -/
lemma Represents.step (hs : Represents s h escape) (p : Ports) :
    (keyboardReadc s p).1 = returns h escape p ∧
    Represents (keyboardReadc s p).2 (h ++ decode escape (codes [p])) (pending escape (codes [p])) := by
  unfold keyboardReadc returns codes
  by_cases hready : p.status &&& keyboardStatusReady = 0
  · have hskip : [p].filter (fun p => p.status &&& keyboardStatusReady != 0) = [] :=
      List.filter_cons_of_neg (by rw [hready]; decide)
    rw [if_pos hready, if_pos hready, hskip, List.map_nil, decode, pending, List.append_nil]
    exact ⟨rfl, hs⟩
  · have htake : [p].filter (fun p => p.status &&& keyboardStatusReady != 0) = [p] :=
      List.filter_cons_of_pos (by rw [bne_iff_ne]; exact hready)
    rw [if_neg hready, if_neg hready, htake, List.map_singleton, decode, pending]
    by_cases hescape : p.data = 0xE0
    · rw [if_pos hescape, if_pos hescape, if_pos hescape, hescape, decode, pending, List.append_nil]
      exact ⟨rfl, ⟨hs.held, hs.locks, rfl⟩⟩
    · rw [if_neg hescape, if_neg hescape, if_neg hescape, decode, pending, beq_false_of_ne hescape, hs.escape, event]
      split
      · exact ⟨rfl, hs.release _⟩
      · exact ⟨congrArg Int.ofNat (hs.pressed_fst _), hs.press _⟩

lemma decode_append (escape : Bool) (bs bs' : List (BitVec 8)) :
    decode escape (bs ++ bs') = decode escape bs ++ decode (pending escape bs) bs' := by
  induction bs generalizing escape with
  | nil => rfl
  | cons b bs ih =>
    rw [List.cons_append, decode, decode, pending]
    by_cases hb : b = 0xE0
    · rw [if_pos hb, if_pos hb, ih, hb]
      rfl
    · rw [if_neg hb, if_neg hb, ih, List.cons_append, beq_false_of_ne hb]

lemma pending_append (escape : Bool) (bs bs' : List (BitVec 8)) :
    pending escape (bs ++ bs') = pending (pending escape bs) bs' := by
  induction bs generalizing escape with
  | nil => rfl
  | cons b bs ih => exact ih _

lemma codes_cons (p : Ports) (ps : List Ports) : codes (p :: ps) = codes [p] ++ codes ps := by
  unfold codes
  rw [← List.map_append, ← List.filter_append, List.singleton_append]

/-- What a run does. -/
lemma Represents.run (hs : Represents s h escape) (ps : List Ports) :
    Represents (keyboardRun s ps) (h ++ decode escape (codes ps)) (pending escape (codes ps)) := by
  induction ps generalizing s h escape with
  | nil =>
    change Represents s (h ++ []) escape
    rw [List.append_nil]
    exact hs
  | cons p ps ih =>
    rw [codes_cons, decode_append, pending_append, ← List.append_assoc]
    exact ih (hs.step p).2

lemma layout_range : ∀ c ∈ keymap, ∀ shift control capslock, layout shift control capslock c < 0x80 ∨
    keyUp ≤ layout shift control capslock c ∧ layout shift control capslock c ≤ keyDelete := by decide +kernel

/-- What a call returns depends on the keys that were pressed and released before it: shift and control count while the last
such key is down, and caps lock counts every other press. It is -1, 0, an ASCII character or one of the special keys. -/
theorem keyboardReadc_returns (ps : List Ports) (p : Ports) :
    let r := (keyboardReadc (keyboardRun .boot ps) p).1
    r = returns (decode false (codes ps)) (pending false (codes ps)) p ∧
    (r = -1 ∨ 0 ≤ r ∧ r < 0x80 ∨ (keyUp : Int) ≤ r ∧ r ≤ keyDelete) := by
  intro r
  have hr : r = returns (decode false (codes ps)) (pending false (codes ps)) p := ((represents_boot.run ps).step p).1
  refine ⟨hr, ?_⟩
  rw [hr]
  unfold returns
  split
  · exact Or.inl rfl
  · split
    · exact Or.inr (Or.inl ⟨by decide, by decide⟩)
    · cases event (pending false (codes ps)) p.data with
      | release code => exact Or.inr (Or.inl ⟨Int.le_refl 0, (by decide : (0 : Int) < 0x80)⟩)
      | press code =>
        rw [meaning]
        rcases layout_range (keymapAt code) (keymapAt_mem code) (down (decode false (codes ps)) keyShift)
          (down (decode false (codes ps)) keyControl) (locked (decode false (codes ps)) keyCapslock) with hascii | ⟨hlow, hhigh⟩
        · exact Or.inr (Or.inl ⟨Int.natCast_nonneg _, by exact_mod_cast hascii⟩)
        · exact Or.inr (Or.inr ⟨by exact_mod_cast hlow, by exact_mod_cast hhigh⟩)

/-! ### Typing a text -/

/-- A character of a US keyboard, with or without shift, and the scancode of its key. -/
structure Key where
  char : Nat
  shift : Bool
  code : BitVec 8

/-- Keys side by side, from a scancode on. -/
def row (first : Nat) (shift : Bool) (chars : List Char) : List Key :=
  (chars.zipIdx first).map fun c => ⟨asc c.1, shift, BitVec.ofNat 8 c.2⟩

def usKeys : List Key :=
  row 0x02 false ['1', '2', '3', '4', '5', '6', '7', '8', '9', '0', '-', '='] ++
  row 0x02 true ['!', '@', '#', '$', '%', '^', '&', '*', '(', ')', '_', '+'] ++
  row 0x10 false ['q', 'w', 'e', 'r', 't', 'y', 'u', 'i', 'o', 'p', '[', ']', '\n'] ++
  row 0x10 true ['Q', 'W', 'E', 'R', 'T', 'Y', 'U', 'I', 'O', 'P', '{', '}'] ++
  row 0x1E false ['a', 's', 'd', 'f', 'g', 'h', 'j', 'k', 'l', ';', '\''] ++
  row 0x1E true ['A', 'S', 'D', 'F', 'G', 'H', 'J', 'K', 'L', ':', '"', '~'] ++
  row 0x2B false ['\\', 'z', 'x', 'c', 'v', 'b', 'n', 'm', ',', '.', '/'] ++
  row 0x2B true ['|', 'Z', 'X', 'C', 'V', 'B', 'N', 'M', '<', '>', '?'] ++
  row 0x39 false [' '] ++
  [⟨0o33, false, 0x01⟩, ⟨8, false, 0x0E⟩, ⟨asc '\t', false, 0x0F⟩, ⟨0x60, false, 0x29⟩]

/-- Printable ASCII, escape, backspace, tab and newline. -/
def Typeable (c : Nat) : Prop := 32 ≤ c ∧ c ≤ 126 ∨ c = 0o33 ∨ c = 8 ∨ c = 9 ∨ c = 10

def keyOf (c : Nat) : Option Key := usKeys.find? fun k => k.char == c

def isLetter (c : Nat) : Bool := asc 'a' ≤ c ∧ c ≤ asc 'z' ∨ asc 'A' ≤ c ∧ c ≤ asc 'Z'

/-- The left shift key goes down before the key and up after it, if it must. -/
def keystroke (capslock : Bool) (k : Key) : List (BitVec 8) :=
  if k.shift ^^ (capslock && isLetter k.char) then [0x2A, k.code, k.code ||| 0x80, 0x2A ||| 0x80]
  else [k.code, k.code ||| 0x80]

def typing (capslock : Bool) (text : List Nat) : List (BitVec 8) :=
  text.flatMap fun c => ((keyOf c).map (keystroke capslock)).getD []

def State.capslock (s : State) : Bool := s.modifiers.getLsbD 3

/-- Neither shift nor control is down, and no escape is pending. -/
structure State.Plain (s : State) : Prop where
  shift : s.modifiers.getLsbD 0 = false
  control : s.modifiers.getLsbD 1 = false
  escape : s.lastEscape = 0

/-- What the map of the kernel has for a key of the keyboard. -/
structure Key.Mapped (k : Key) : Prop where
  char : ∀ capslock, layout (k.shift ^^ (capslock && isLetter k.char)) false capslock (keymapAt k.code) = k.char
  lt : keymapAt k.code < keyShift
  high : k.code &&& 0x80 = 0
  release : k.code ||| 0x80 ≠ 0xE0 ∧ (k.code ||| 0x80) &&& 0x80 ≠ 0 ∧ (k.code ||| 0x80) &&& 0x7F = k.code
  pos : 0 < k.char

instance (k : Key) : Decidable k.Mapped :=
  decidable_of_iff ((∀ capslock, layout (k.shift ^^ (capslock && isLetter k.char)) false capslock (keymapAt k.code) = k.char) ∧
    keymapAt k.code < keyShift ∧ k.code &&& 0x80 = 0 ∧
    (k.code ||| 0x80 ≠ 0xE0 ∧ (k.code ||| 0x80) &&& 0x80 ≠ 0 ∧ (k.code ||| 0x80) &&& 0x7F = k.code) ∧ 0 < k.char)
    ⟨fun h => ⟨h.1, h.2.1, h.2.2.1, h.2.2.2.1, h.2.2.2.2⟩, fun h => ⟨h.char, h.lt, h.high, h.release, h.pos⟩⟩

lemma mapped_usKeys : ∀ k ∈ usKeys, k.Mapped := by decide +kernel

lemma keyOf_typeable {c : Nat} (hc : Typeable c) : ∃ k ∈ usKeys, k.char = c ∧ keyOf c = some k := by
  have hall : ∀ c < 127, 32 ≤ c ∧ c ≤ 126 ∨ c = 0o33 ∨ c = 8 ∨ c = 9 ∨ c = 10 → (keyOf c).isSome := by decide +kernel
  have hlt : c < 127 := by
    unfold Typeable at hc
    omega
  obtain ⟨k, hk⟩ := Option.isSome_iff_exists.1 (hall c hlt hc)
  have hfind : usKeys.find? (fun k => k.char == c) = some k := hk
  have hchar := List.find?_some hfind
  exact ⟨k, List.mem_of_find?_eq_some hfind, beq_iff_eq.1 hchar, hk⟩

/-! ### The calls that read a keystroke -/

def ready (b : BitVec 8) : Ports := ⟨keyboardStatusReady, b⟩

lemma ready_status (b : BitVec 8) : ¬(ready b).status &&& keyboardStatusReady = 0 := by
  change ¬keyboardStatusReady &&& keyboardStatusReady = 0
  decide

lemma keyboardReadc_ready (m b : BitVec 8) :
    keyboardReadc ⟨m, 0⟩ (ready b) =
      if b = 0xE0 then (0, ⟨m, 0x80⟩)
      else if b &&& 0x80 ≠ 0 then (0, ⟨released m (keymapAt (b &&& 0x7F)), 0⟩)
      else (((pressed m (keymapAt b)).1 : Int), ⟨(pressed m (keymapAt b)).2, 0⟩) := by
  have hlow : (b &&& 0x7F) ||| 0 = b &&& 0x7F := BitVec.or_zero
  have hall : b ||| 0 = b := BitVec.or_zero
  unfold keyboardReadc
  rw [if_neg (ready_status b), ready, hlow, hall]

/-- The characters that are read. -/
def readChars (s : State) (ps : List Ports) : List Int := (readcs s ps).filter (0 < ·)

lemma readChars_cons (s : State) (p : Ports) (ps : List Ports) :
    readChars s (p :: ps) =
      if 0 < (keyboardReadc s p).1 then (keyboardReadc s p).1 :: readChars (keyboardReadc s p).2 ps
      else readChars (keyboardReadc s p).2 ps := by
  unfold readChars
  rw [readcs]
  by_cases hpos : 0 < (keyboardReadc s p).1
  · rw [if_pos hpos, List.filter_cons_of_pos (by rw [decide_eq_true_iff]; exact hpos)]
  · rw [if_neg hpos, List.filter_cons_of_neg (by rw [decide_eq_true_iff]; exact hpos)]

lemma readChars_append (s : State) (ps ps' : List Ports) :
    readChars s (ps ++ ps') = readChars s ps ++ readChars (keyboardRun s ps) ps' := by
  induction ps generalizing s with
  | nil => rfl
  | cons p ps ih =>
    rw [List.cons_append, readChars_cons, readChars_cons, ih, keyboardRun]
    split <;> rfl

lemma keyboardRun_append (s : State) (ps ps' : List Ports) :
    keyboardRun s (ps ++ ps') = keyboardRun (keyboardRun s ps) ps' := by
  induction ps generalizing s with
  | nil => rfl
  | cons p ps ih => exact ih _

/-- Calls that find no byte change nothing. -/
lemma reads_codes (s : State) (ps : List Ports) :
    readChars s ps = readChars s ((codes ps).map ready) ∧ keyboardRun s ps = keyboardRun s ((codes ps).map ready) := by
  induction ps generalizing s with
  | nil => exact ⟨rfl, rfl⟩
  | cons p ps ih =>
    by_cases hready : p.status &&& keyboardStatusReady = 0
    · have hskip : codes (p :: ps) = codes ps := by
        unfold codes
        rw [List.filter_cons_of_neg (by rw [hready]; decide)]
      have hstep : keyboardReadc s p = (-1, s) := if_pos hready
      rw [hskip, readChars_cons, keyboardRun, hstep]
      exact ih s
    · have htake : codes (p :: ps) = p.data :: codes ps := by
        unfold codes
        rw [List.filter_cons_of_pos (by rw [bne_iff_ne]; exact hready), List.map_cons]
      have hstep : keyboardReadc s p = keyboardReadc s (ready p.data) := by
        unfold keyboardReadc
        rw [if_neg hready, if_neg (ready_status p.data)]
        rfl
      rw [htake, List.map_cons, readChars_cons, readChars_cons, keyboardRun, keyboardRun, hstep, (ih _).1, (ih _).2]
      exact ⟨rfl, rfl⟩

section Keystroke

variable {k : Key}

lemma Key.Mapped.ne_escape (hk : k.Mapped) : k.code ≠ 0xE0 := by
  intro hcode
  have hhigh := hk.high
  rw [hcode] at hhigh
  exact absurd hhigh (by decide)

/-- The press of the key itself. -/
lemma Key.Mapped.press (hk : k.Mapped) (m : BitVec 8) :
    keyboardReadc ⟨m, 0⟩ (ready k.code) = (((pressed m (keymapAt k.code)).1 : Int), ⟨m, 0⟩) := by
  have hsnd : (pressed m (keymapAt k.code)).2 = m := by
    have hlt := hk.lt
    rw [pressed_snd, if_neg (by unfold keyCapslock keyShift at *; omega), if_neg (Nat.not_le_of_lt hlt)]
  rw [keyboardReadc_ready, if_neg hk.ne_escape, if_neg (not_not_intro hk.high), hsnd]

lemma Key.Mapped.releases (hk : k.Mapped) (m : BitVec 8) :
    keyboardReadc ⟨m, 0⟩ (ready (k.code ||| 0x80)) = (0, ⟨m, 0⟩) := by
  obtain ⟨hne, hhigh, hlow⟩ := hk.release
  have hsame : released m (keymapAt k.code) = m := if_neg fun hge => absurd hk.lt (Nat.not_lt_of_le hge.1)
  rw [keyboardReadc_ready, if_neg hne, if_pos hhigh, hlow, hsame]

lemma press_shift (m : BitVec 8) : keyboardReadc ⟨m, 0⟩ (ready 0x2A) = (0, ⟨m ||| 1, 0⟩) := by
  have hkey : keymapAt 0x2A = keyShift := by decide +kernel
  have hpressed : pressed m keyShift = (0, m ||| 1) := by
    unfold pressed
    rw [if_neg (by decide), if_neg (by decide), if_pos (by decide)]
    rfl
  rw [keyboardReadc_ready, if_neg (by decide), if_neg (by decide), hkey, hpressed]
  rfl

lemma release_shift (m : BitVec 8) : keyboardReadc ⟨m, 0⟩ (ready (0x2A ||| 0x80)) = (0, ⟨m &&& ~~~1, 0⟩) := by
  have hkey : keymapAt ((0x2A ||| 0x80) &&& 0x7F) = keyShift := by decide +kernel
  have hreleased : released m keyShift = m &&& ~~~1 := by
    unfold released
    rw [if_pos (by decide)]
    rfl
  rw [keyboardReadc_ready, if_neg (by decide), if_pos (by decide), hkey, hreleased]

lemma shift_bits : ∀ m : BitVec 8, m.getLsbD 0 = false → (m ||| 1).getLsbD 0 = true ∧ (m ||| 1).getLsbD 1 = m.getLsbD 1 ∧
    (m ||| 1).getLsbD 3 = m.getLsbD 3 ∧ (m ||| 1) &&& ~~~1 = m := by decide +kernel

/-- A keystroke is read as its character, and nothing is left of it. -/
lemma Key.Mapped.keystroke (hk : k.Mapped) (hs : s.Plain) :
    readChars s ((keystroke s.capslock k).map ready) = [(k.char : Int)] ∧
    keyboardRun s ((keystroke s.capslock k).map ready) = s := by
  obtain ⟨m, escape⟩ := s
  obtain ⟨hshift, hcontrol, hescape⟩ := hs
  dsimp only [State.capslock] at hshift hcontrol hescape ⊢
  have hchar := hk.char (m.getLsbD 3)
  have hpos : (0 : Int) < k.char := by exact_mod_cast hk.pos
  unfold Keyboard.keystroke
  rw [hescape]
  by_cases hlevel : k.shift ^^ (m.getLsbD 3 && isLetter k.char)
  · rw [hlevel] at hchar
    obtain ⟨hdown, hctrl, hcaps, hback⟩ := shift_bits m hshift
    have hread : (pressed (m ||| 1) (keymapAt k.code)).1 = k.char := by
      rw [pressed_fst, hdown, hctrl, hcaps, hcontrol]
      exact hchar
    rw [if_pos hlevel]
    simp only [List.map_cons, List.map_nil, readChars_cons, keyboardRun, press_shift, hk.press, hk.releases, release_shift,
      hread, hback, if_pos hpos, lt_irrefl, if_false]
    exact ⟨rfl, trivial⟩
  · rw [eq_false_of_ne_true hlevel] at hchar
    have hread : (pressed m (keymapAt k.code)).1 = k.char := by
      rw [pressed_fst, hshift, hcontrol]
      exact hchar
    rw [if_neg hlevel]
    simp only [List.map_cons, List.map_nil, readChars_cons, keyboardRun, hk.press, hk.releases, hread, if_pos hpos,
      lt_irrefl, if_false]
    exact ⟨rfl, trivial⟩

end Keystroke

lemma readChars_typing (hs : s.Plain) {text : List Nat} (htext : ∀ c ∈ text, Typeable c) :
    readChars s ((typing s.capslock text).map ready) = text.map Int.ofNat ∧
    keyboardRun s ((typing s.capslock text).map ready) = s := by
  induction text with
  | nil => exact ⟨rfl, rfl⟩
  | cons c text ih =>
    obtain ⟨k, hmem, hchar, hkey⟩ := keyOf_typeable (htext c List.mem_cons_self)
    obtain ⟨hread, hrun⟩ := (mapped_usKeys k hmem).keystroke hs
    obtain ⟨hrest, hend⟩ := ih fun c' hc' => htext c' (List.mem_cons_of_mem c hc')
    have htyping : typing s.capslock (c :: text) = keystroke s.capslock k ++ typing s.capslock text := by
      unfold typing
      rw [List.flatMap_cons, hkey]
      rfl
    rw [htyping, List.map_append, readChars_append, keyboardRun_append, hread, hrun, hrest, hend, hchar]
    exact ⟨rfl, rfl⟩

/-- A text that is typed on a US keyboard is read as it is, with caps lock or without and however often the kernel looks for
a byte before there is one. -/
theorem typed_text_read (hs : s.Plain) {text : List Nat} (htext : ∀ c ∈ text, Typeable c) {ps : List Ports}
    (hps : codes ps = typing s.capslock text) :
    (readcs s ps).filter (0 < ·) = text.map Int.ofNat ∧ keyboardRun s ps = s := by
  obtain ⟨hread, hrun⟩ := readChars_typing hs htext
  obtain ⟨hchars, hend⟩ := reads_codes s ps
  rw [hps] at hchars hend
  exact ⟨hchars.trans hread, hend.trans hrun⟩

/-- Caps lock is on: `Hi` is typed with shift before the second letter, and the kernel looks too early twice. -/
theorem typed_text_read_sample :
    (readcs ⟨8, 0⟩ (⟨0, 0⟩ :: (typing true [72, 105]).map ready ++ [⟨0, 0⟩])).filter (0 < ·) = [72, 105] ∧
    keyboardRun ⟨8, 0⟩ (⟨0, 0⟩ :: (typing true [72, 105]).map ready ++ [⟨0, 0⟩]) = ⟨8, 0⟩ := by
  have hplain : State.Plain ⟨8, 0⟩ := ⟨rfl, rfl, rfl⟩
  have htext : ∀ c ∈ [72, 105], Typeable c := by
    intro c hc
    have hc' : c = 72 ∨ c = 105 := by simpa using hc
    unfold Typeable
    omega
  exact typed_text_read hplain htext (by decide +kernel)

end Cs300Projects.WeensyOS.Keyboard
