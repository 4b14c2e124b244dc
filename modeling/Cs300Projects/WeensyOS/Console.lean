import Cs300Projects.Lib.Tape
import Cs300Projects.WeensyOS.Memory
import Cs300Projects.WeensyOS.Printf

/-!
# The console

`console_printer` writes 16-bit cells to the 25 rows of 80 columns at `console`, and scrolls
before the character that does not fit. A pointer to a cell is its number, counted from the
first cell of the console; characters are given by the bytes that are read.
-/

namespace Cs300Projects.WeensyOS

open Bytes

def consoleRows : Nat := 25
def consoleColumns : Nat := 80

/-- `console` and `cursorpos`, as the linker places them. -/
def consoleAddr : Nat := 0xB8000
def cursorposAddr : Nat := 0xB8FFC

def cellAddr (cell : Int) : Nat := (consoleAddr + 2 * cell).toNat

/-- The value of a cell of the console. -/
def cellAt (m : Nat → UInt8) (i : Nat) : Nat := readLE m (cellAddr i) 2

def cursorpos (m : Nat → UInt8) : Int := Int.bmod (readLE m cursorposAddr 4) (2 ^ 32)

/-- `c | color` as a `uint16_t`. -/
def cellValue (c : UInt8) (color : BitVec 32) : Nat :=
  (BitVec.ofNat 32 c.toNat ||| color).toNat % 2 ^ 16

structure ConsolePrinter where
  mem : Nat → UInt8
  cell : Int
  scrolls : Bool

def ConsolePrinter.new (m : Nat → UInt8) (cpos : Int) (scrolls : Bool) : ConsolePrinter where
  mem := m
  cell := if cpos < 0 then cursorpos m else if cpos ≤ consoleRows * consoleColumns then cpos else 0
  scrolls := scrolls

/-- Only called when the assertion that the cell is behind the console holds. -/
def ConsolePrinter.scroll (p : ConsolePrinter) : ConsolePrinter :=
  if p.scrolls then
    let m := memmove p.mem consoleAddr (consoleAddr + 2 * consoleColumns)
      ((consoleRows - 1) * consoleColumns * 2)
    { p with
      mem := memset (consoleColumns * 2) m (consoleAddr + 2 * ((consoleRows - 1) * consoleColumns)) 0
      cell := p.cell - consoleColumns }
  else { p with cell := 0 }

/-- `while (cell_ >= console + CONSOLE_ROWS * CONSOLE_COLUMNS) scroll();` with the number of
calls. Every round moves the cell back, so that as many rounds as cells are enough. -/
def ConsolePrinter.scrollLoop : Nat → ConsolePrinter → Nat × ConsolePrinter
  | 0, p => (0, p)
  | n + 1, p =>
    if p.cell ≥ consoleRows * consoleColumns then
      let r := scrollLoop n p.scroll
      (r.1 + 1, r.2)
    else (0, p)

/-- `*cell_++ = v` -/
def ConsolePrinter.store (p : ConsolePrinter) (v : Nat) : ConsolePrinter :=
  { p with mem := writeLE p.mem (cellAddr p.cell) 2 v, cell := p.cell + 1 }

/-- `while (pos != 80) { *cell_++ = v; ++pos; }` for `n` rounds. -/
def ConsolePrinter.fillRow (v : Nat) : Nat → ConsolePrinter → ConsolePrinter
  | 0, p => p
  | n + 1, p => fillRow v n (p.store v)

/-- What `putc` does behind its loop. -/
def ConsolePrinter.putCell (p : ConsolePrinter) (c : UInt8) (color : BitVec 32) : ConsolePrinter :=
  if c = ch '\n' then
    p.fillRow (cellValue (ch ' ') color) (80 - p.cell.tmod 80).toNat
  else p.store (cellValue c color)

def ConsolePrinter.putc (p : ConsolePrinter) (c : UInt8) (color : BitVec 32) : ConsolePrinter :=
  (p.scrollLoop p.cell.toNat).2.putCell c color

def ConsolePrinter.moveCursor (p : ConsolePrinter) : ConsolePrinter :=
  { p with mem := writeLE p.mem cursorposAddr 4 (p.cell % 2 ^ 32).toNat }

/-- The characters given to a printer one after the other. -/
def ConsolePrinter.putAll (p : ConsolePrinter) (out : List (UInt8 × BitVec 32)) : ConsolePrinter :=
  out.foldl (fun p c => p.putc c.1 c.2) p

/-- The number of scrolls while the characters are written. -/
def ConsolePrinter.scrollCount (p : ConsolePrinter) : List (UInt8 × BitVec 32) → Nat
  | [] => 0
  | c :: out => (p.scrollLoop p.cell.toNat).1 + (p.putc c.1 c.2).scrollCount out

/-- Print to the console from the cursor position: the memory and the result of the call. -/
def consolePrint (m : Nat → UInt8) (cpos : Int) (out : List (UInt8 × BitVec 32)) :
    (Nat → UInt8) × Int :=
  let p := (ConsolePrinter.new m cpos (cpos < 0)).putAll out
  let p := if cpos < 0 then p.moveCursor else p
  (p.mem, p.cell)

def consolePuts (m : Nat → UInt8) (cpos : Int) (color : BitVec 32) (s : List UInt8) :
    (Nat → UInt8) × Int :=
  consolePrint m cpos (s.map (fun c => (c, color)))

def consoleVprintf (m : Nat → UInt8) (cpos : Int) (color : BitVec 32) (format : List UInt8)
    (val : VaList) : Option ((Nat → UInt8) × Int) :=
  (vprintf color format val).map (consolePrint m cpos)

/-! ### The console as a window -/

/-- What a character writes on the tape. -/
def tapeItem (c : UInt8 × BitVec 32) : Tape.Item Nat :=
  if c.1 = ch '\n' then .newline (cellValue (ch ' ') c.2) else .glyph (cellValue c.1 c.2)

/-- The tape that begins with the old screen and is written from the cursor on. -/
def tapeOf (m : Nat → UInt8) : Tape Nat where
  cells i := if i < consoleColumns * consoleRows then cellAt m i else 0
  pos := (cursorpos m).toNat

/-- The bytes of the cells. -/
def InConsole (x : Nat) : Prop := consoleAddr ≤ x ∧ x < consoleAddr + 2 * (consoleColumns * consoleRows)

/-- The state of a scrolling printer that shows the tape from row `k` on. -/
structure Shows (m : Nat → UInt8) (p : ConsolePrinter) (cursor k : Nat) (t : Tape Nat) : Prop where
  scrolls : p.scrolls = true
  cell : p.cell = cursor
  window : Tape.Window consoleColumns consoleRows 0 (cellAt p.mem) cursor k t
  frame : ∀ x, ¬ InConsole x → p.mem x = m x

lemma cellAddr_nat (i : Nat) : cellAddr i = consoleAddr + 2 * i := by
  unfold cellAddr
  omega

lemma cellAt_store {m : Nat → UInt8} {i j v : Nat} (hv : v < 2 ^ 16) :
    cellAt (writeLE m (cellAddr j) 2 v) i = if i = j then v else cellAt m i := by
  unfold cellAt
  by_cases hij : i = j
  · rw [if_pos hij, hij, readLE_writeLE, Nat.mod_eq_of_lt (by omega)]
  · rw [if_neg hij]
    apply readLE_congr
    intro x hx hlt
    rw [cellAddr_nat] at hx hlt
    apply writeLE_outside
    rw [cellAddr_nat]
    unfold Outside
    omega

lemma cellValue_lt (c : UInt8) (color : BitVec 32) : cellValue c color < 2 ^ 16 :=
  Nat.mod_lt _ (by decide)

section Window

variable {m : Nat → UInt8} {p : ConsolePrinter} {cursor k : Nat} {t : Tape Nat}

lemma Shows.store (h : Shows m p cursor k t) (hcursor : cursor < consoleColumns * consoleRows)
    {v : Nat} (hv : v < 2 ^ 16) : Shows m (p.store v) (cursor + 1) k (t.put v) where
  scrolls := h.scrolls
  cell := by
    rw [ConsolePrinter.store, h.cell]
    rfl
  window := by
    apply h.window.put hcursor
    intro i hi
    rw [ConsolePrinter.store, h.cell]
    exact cellAt_store hv
  frame := by
    intro x hx
    rw [ConsolePrinter.store, h.cell, cellAddr_nat, ← h.frame x hx]
    apply writeLE_outside
    unfold InConsole at hx
    unfold Outside
    omega

lemma Shows.fillRow (v : Nat) (hv : v < 2 ^ 16) (n : Nat) (h : Shows m p cursor k t)
    (hfit : cursor + n ≤ consoleColumns * consoleRows) :
    Shows m (p.fillRow v n) (cursor + n) k (t.fill v n) := by
  induction n generalizing p cursor t with
  | zero => exact h
  | succ n ih =>
    have hstored := ih (h.store (by omega) hv) (by omega)
    rw [Nat.add_assoc, Nat.add_comm 1 n] at hstored
    exact hstored

lemma Shows.scroll (h : Shows m p cursor k t) (hcursor : consoleColumns * consoleRows ≤ cursor) :
    Shows m p.scroll (cursor - consoleColumns) (k + 1) t := by
  have hmem : p.scroll.mem = fill (blit p.mem consoleAddr ((consoleRows - 1) * consoleColumns * 2)
      (fun i => p.mem (consoleAddr + 2 * consoleColumns + i)))
      (consoleAddr + 2 * ((consoleRows - 1) * consoleColumns)) 0 (consoleColumns * 2) := by
    rw [ConsolePrinter.scroll, if_pos h.scrolls]
    simp only [memset_eq]
    rw [memmove_eq]
  simp only [consoleColumns, consoleRows] at hmem
  simp only [consoleColumns, consoleRows] at hcursor
  constructor
  case scrolls =>
    rw [ConsolePrinter.scroll, if_pos h.scrolls]
    exact h.scrolls
  case cell =>
    rw [ConsolePrinter.scroll, if_pos h.scrolls]
    simp only [h.cell, consoleColumns]
    omega
  case window =>
    apply h.window.scroll (by decide) hcursor
    · intro i hi
      simp only [consoleColumns, consoleRows] at hi
      unfold cellAt
      apply readLE_shift
      intro j hj
      rw [cellAddr_nat, cellAddr_nat, hmem, fill_outside (by unfold Outside; omega),
        blit_inside (by omega) (by omega)]
      exact congrArg p.mem (by simp only [consoleColumns]; omega)
    · intro i hi hlt
      simp only [consoleColumns, consoleRows] at hi hlt
      have hzero : ∀ j, j < 2 → p.scroll.mem (cellAddr i + j) = 0 := by
        intro j hj
        rw [cellAddr_nat, hmem]
        exact fill_inside (by omega) (by omega)
      have h0 := hzero 0 (by omega)
      have h1 := hzero 1 (by omega)
      rw [Nat.add_zero] at h0
      simp only [cellAt, readLE, h0, h1]
      rfl
  case frame =>
    intro x hx
    simp only [InConsole, consoleColumns, consoleRows] at hx
    rw [hmem, fill_outside (by unfold Outside; omega), blit_outside (by unfold Outside; omega)]
    apply h.frame
    simp only [InConsole, consoleColumns, consoleRows]
    omega

/-- The loop scrolls once when the cursor is behind the console, and not at all otherwise. -/
lemma Shows.scrollLoop (h : Shows m p cursor k t) :
    ∃ cursor', cursor' < consoleColumns * consoleRows ∧
      Shows m (p.scrollLoop p.cell.toNat).2 cursor' (k + (p.scrollLoop p.cell.toNat).1) t := by
  have hbound := h.window.bound
  rw [h.cell, Int.toNat_natCast]
  by_cases hend : cursor < consoleColumns * consoleRows
  · have hstay : p.scrollLoop cursor = (0, p) := by
      cases cursor with
      | zero => rfl
      | succ n =>
        have hcell : ¬ p.cell ≥ consoleRows * consoleColumns := by
          rw [h.cell]
          simp only [consoleColumns, consoleRows] at hend ⊢
          omega
        rw [ConsolePrinter.scrollLoop, if_neg hcell]
    rw [hstay]
    exact ⟨cursor, hend, h⟩
  · simp only [consoleColumns, consoleRows] at hbound hend
    obtain rfl : cursor = 2000 := by omega
    have hscrolled := h.scroll (Nat.le_refl _)
    have hback : ¬ p.scroll.cell ≥ consoleRows * consoleColumns := by
      rw [hscrolled.cell]
      decide
    have hcell : p.cell ≥ consoleRows * consoleColumns := by
      rw [h.cell]
      decide
    have hloop : p.scrollLoop 2000 = (1, p.scroll) := by
      rw [show 2000 = 1998 + 1 + 1 from rfl, ConsolePrinter.scrollLoop, if_pos hcell,
        ConsolePrinter.scrollLoop, if_neg hback]
    rw [hloop]
    exact ⟨2000 - consoleColumns, by decide, hscrolled⟩

lemma Shows.putCell (h : Shows m p cursor k t) (hcursor : cursor < consoleColumns * consoleRows)
    (c : UInt8) (color : BitVec 32) :
    ∃ cursor', Shows m (p.putCell c color) cursor' k (t.write consoleColumns (tapeItem (c, color))) := by
  unfold ConsolePrinter.putCell tapeItem
  by_cases hc : c = ch '\n'
  · have hcolumn : (80 - p.cell.tmod 80).toNat = consoleColumns - t.pos % consoleColumns := by
      rw [h.window.column, h.cell, show (80 : Int) = ((80 : Nat) : Int) from rfl, ← Int.ofNat_tmod]
      simp only [consoleColumns]
      omega
    rw [if_pos hc, if_pos hc, hcolumn]
    refine ⟨_, h.fillRow _ (cellValue_lt _ _) _ ?_⟩
    rw [h.window.column]
    exact Tape.row_fits hcursor
  · rw [if_neg hc, if_neg hc]
    exact ⟨_, h.store hcursor (cellValue_lt c color)⟩

/-- The whole output, by induction on its characters. -/
lemma Shows.putAll (out : List (UInt8 × BitVec 32)) (h : Shows m p cursor k t) :
    ∃ cursor', Shows m (p.putAll out) cursor' (k + p.scrollCount out)
      (out.foldl (fun t c => t.write consoleColumns (tapeItem c)) t) := by
  induction out generalizing p cursor k t with
  | nil => exact ⟨cursor, h⟩
  | cons c out ih =>
    obtain ⟨c₁, hc₁, hscrolled⟩ := h.scrollLoop
    obtain ⟨c₂, hput⟩ := hscrolled.putCell hc₁ c.1 c.2
    obtain ⟨c₃, hrest⟩ := ih hput
    refine ⟨c₃, ?_⟩
    rw [ConsolePrinter.scrollCount, ← Nat.add_assoc]
    exact hrest

end Window

lemma Shows.new {m : Nat → UInt8} (hcursor : 0 ≤ cursorpos m ∧ cursorpos m ≤ 2000) :
    Shows m (ConsolePrinter.new m (-1) true) (cursorpos m).toNat 0 (tapeOf m) where
  scrolls := rfl
  cell := by
    have hneg : (-1 : Int) < 0 := by decide
    simp only [ConsolePrinter.new, if_pos hneg]
    omega
  window := by
    constructor
    case rows =>
      intro i hi
      simp only [tapeOf, Nat.mul_zero, Nat.zero_add, if_pos hi]
      rfl
    case pos => simp [tapeOf]
    case bound =>
      simp only [consoleColumns, consoleRows]
      omega
    case unwritten =>
      intro i hi
      rw [Nat.mul_zero, Nat.zero_add] at hi
      exact if_neg (Nat.not_lt.2 hi)
  frame := fun x hx => rfl

/-- The console is a window on the tape that the characters are written on: `k` scrolls show its
rows from `k` on, the cursor is the position on the tape, and nothing else is written. -/
def IsWindow (m : Nat → UInt8) (out : List (UInt8 × BitVec 32)) (r : (Nat → UInt8) × Int) : Prop :=
  let t := out.foldl (fun t c => t.write consoleColumns (tapeItem c)) (tapeOf m)
  let k := (ConsolePrinter.new m (-1) true).scrollCount out
  (∀ i, i < consoleColumns * consoleRows → cellAt r.1 i = t.cells (consoleColumns * k + i)) ∧
  r.2 = (t.pos : Int) - consoleColumns * k ∧ cursorpos r.1 = r.2 ∧ 0 ≤ r.2 ∧ r.2 ≤ 2000 ∧
  ∀ x, ¬ InConsole x → Outside x cursorposAddr 4 → r.1 x = m x

lemma consolePrint_isWindow {m : Nat → UInt8} (hcursor : 0 ≤ cursorpos m ∧ cursorpos m ≤ 2000)
    (out : List (UInt8 × BitVec 32)) : IsWindow m out (consolePrint m (-1) out) := by
  obtain ⟨cursor, h⟩ := (Shows.new hcursor).putAll out
  have hbound := h.window.bound
  have hpos := h.window.pos
  simp only [consoleColumns, consoleRows] at hbound
  rw [Nat.zero_add] at h hpos
  have hcell : (consolePrint m (-1) out).2 = cursor := h.cell
  have hmem : (consolePrint m (-1) out).1 =
      writeLE ((ConsolePrinter.new m (-1) true).putAll out).mem cursorposAddr 4 cursor := by
    have hcursor' : ((cursor : Int) % 2 ^ 32).toNat = cursor := by omega
    have hmove : (consolePrint m (-1) out).1 =
        ((ConsolePrinter.new m (-1) true).putAll out).moveCursor.mem := rfl
    rw [hmove, ConsolePrinter.moveCursor, h.cell, hcursor']
  refine ⟨?_, ?_, ?_, ?_, ?_, ?_⟩
  · intro i hi
    rw [← h.window.rows i hi, hmem]
    simp only [consoleColumns, consoleRows] at hi
    apply readLE_congr
    intro x hx hlt
    rw [cellAddr_nat, consoleAddr] at hx hlt
    apply writeLE_outside
    unfold Outside cursorposAddr
    omega
  · rw [hcell, hpos]
    push_cast
    omega
  · have hread : readLE (consolePrint m (-1) out).1 cursorposAddr 4 = cursor := by
      rw [hmem, readLE_writeLE]
      exact Nat.mod_eq_of_lt (Nat.lt_of_le_of_lt hbound (by decide))
    have hbmod : Int.bmod cursor (2 ^ 32) = cursor := Int.bmod_eq_of_le (by omega) (by omega)
    unfold cursorpos
    rw [hread, hcell, hbmod]
  · omega
  · omega
  · intro x hx hout
    rw [hmem, writeLE_outside hout]
    exact h.frame x hx

/-- Any characters printed at cursor -1, by `console_puts` or by `console_vprintf`. -/
theorem console_window (m : Nat → UInt8) (hcursor : 0 ≤ cursorpos m ∧ cursorpos m ≤ 2000) :
    (∀ color s, IsWindow m (s.map (fun c => (c, color))) (consolePuts m (-1) color s)) ∧
    ∀ color format val r, consoleVprintf m (-1) color format val = some r →
      ∃ out, vprintf color format val = some out ∧ IsWindow m out r := by
  constructor
  · exact fun color s => consolePrint_isWindow hcursor _
  · intro color format val r hr
    obtain ⟨out, hout, rfl⟩ := Option.map_eq_some_iff.1 hr
    exact ⟨out, hout, consolePrint_isWindow hcursor out⟩

/-- A console that shows something in every cell, with the cursor in the last row. -/
def sampleConsole (x : Nat) : UInt8 :=
  if x = cursorposAddr then 0xC6
  else if x = cursorposAddr + 1 then 0x07
  else if cursorposAddr < x then 0
  else UInt8.ofNat x

def sampleText : List UInt8 := (['a', '\n', '\n', 'b', '\n', 'c'] : List Char).map ch

def sampleFormat : List UInt8 := (['%', 'd', '\n', '%', 's', '\n', '!'] : List Char).map ch

/-- The text scrolls the console by three rows, and the format by two. -/
theorem console_window_sample :
    (IsWindow sampleConsole (sampleText.map (fun c => (c, 0x700))) (consolePuts sampleConsole (-1) 0x700 sampleText) ∧
      (ConsolePrinter.new sampleConsole (-1) true).scrollCount (sampleText.map (fun c => (c, 0x700))) = 3) ∧
    ∃ r out, consoleVprintf sampleConsole (-1) 0x700 sampleFormat [.int 42, .str [ch 'x']] = some r ∧
      IsWindow sampleConsole out r ∧ (ConsolePrinter.new sampleConsole (-1) true).scrollCount out = 2 := by
  have hcursor : 0 ≤ cursorpos sampleConsole ∧ cursorpos sampleConsole ≤ 2000 := by decide +kernel
  have hformat : vprintf 0x700 sampleFormat [.int 42, .str [ch 'x']] =
      some ((['4', '2', '\n', 'x', '\n', '!'] : List Char).map fun c => (ch c, 0x700)) := by decide +kernel
  obtain ⟨r, hr⟩ : ∃ r, consoleVprintf sampleConsole (-1) 0x700 sampleFormat [.int 42, .str [ch 'x']] = some r := by
    rw [consoleVprintf, hformat]
    exact ⟨_, rfl⟩
  obtain ⟨out, hout, hwindow⟩ := (console_window sampleConsole hcursor).2 _ _ _ _ hr
  obtain rfl := Option.some.inj (hformat.symm.trans hout)
  exact ⟨⟨(console_window sampleConsole hcursor).1 _ _, by decide +kernel⟩, r, _, hr, hwindow, by decide +kernel⟩

end Cs300Projects.WeensyOS
