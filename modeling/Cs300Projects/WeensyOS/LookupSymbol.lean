import Cs300Projects.WeensyOS.ElfInfo

/-!
# Looking up a symbol in memory

`lookup_symbol` reads the reference to the table, the entries that it probes and the name from memory, and a read may fault.
Where no read faults, it finds what the search in the list of the entries finds.
-/

namespace Cs300Projects.WeensyOS.Elf

open Bytes Symtab

/-- The `n` bytes from `a` on as a little-endian number; `none` is a page fault. -/
def readSeen (view : Nat → Option UInt8) : Nat → Nat → Option Nat
  | _, 0 => some 0
  | a, n + 1 => (view a).bind fun c => (readSeen view (a + 1) n).map fun v => c.toNat + 256 * v

def wordSeen (view : Nat → Option UInt8) (a : Nat) : Option UInt64 := (readSeen view a 8).map UInt64.ofNat

/-- The entry at `a`, which is the entry `m` of the table and starts at `value`, matches the address; `symtab` is the address of
the reference. -/
def matchesSeen (view : Nat → Option UInt8) (symtab : Nat) (addr : UInt64) (m a : Nat) (value : UInt64) : Option Bool :=
  if value ≤ addr then
    (wordSeen view (a + 0x10)).bind fun size =>
      if size ≠ 0 then some (addr < value + size)
      else
        (readSeen view (symtab + 0x08) 8).bind fun nsym =>
          if m + 1 = nsym then some true
          else (wordSeen view (a + elfSymbolSize + 0x08)).map fun next => addr < next
  else some false

/-- A round of the loop of `lookup_symbol` at the entry `m`. -/
def probeSeen (view : Nat → Option UInt8) (symtab : Nat) (addr : UInt64) (m : Nat) : Option Bisect.Probe := do
  let sym ← readSeen view symtab 8
  let a := sym + elfSymbolSize * m
  let value ← wordSeen view (a + 0x08)
  let hit ← matchesSeen view symtab addr m a value
  pure (if hit then .hit else if value < addr then .right else .left)

/-- `lookup_symbol`: the pointer to the name and the start of the symbol for `addr`. -/
def lookupSymbolSeen (view : Nat → Option UInt8) (symtab : Nat) (addr : UInt64) : Option (Option (UInt64 × UInt64)) := do
  let nsym ← readSeen view (symtab + 0x08) 8
  match ← Bisect.searchOption (probeSeen view symtab addr) 0 nsym with
  | none => pure none
  | some m => do
    let strtab ← wordSeen view (symtab + 0x10)
    let sym ← readSeen view symtab 8
    let name ← readSeen view (sym + elfSymbolSize * m) 4
    let start ← wordSeen view (sym + elfSymbolSize * m + 0x08)
    pure (some (strtab + (UInt32.ofNat name).toUInt64, start))

/-! ### Reads that do not fault -/

section Seen

variable {view : Nat → Option UInt8} {mem : Nat → UInt8} {symtab a n : Nat} {addr : UInt64}

/-- The `n` bytes from `a` on are seen as they are in memory. -/
def SeenAs (view : Nat → Option UInt8) (mem : Nat → UInt8) (a n : Nat) : Prop := ∀ x, a ≤ x → x < a + n → view x = some (mem x)

lemma SeenAs.mono {b k : Nat} (h : SeenAs view mem a n) (ha : a ≤ b) (hn : b + k ≤ a + n) : SeenAs view mem b k :=
  fun x hx hlt => h x (Nat.le_trans ha hx) (Nat.lt_of_lt_of_le hlt hn)

lemma SeenAs.read (h : SeenAs view mem a n) : readSeen view a n = some (readLE mem a n) := by
  induction n generalizing a with
  | zero => rfl
  | succ n ih =>
    have hfirst : view a = some (mem a) := h a (Nat.le_refl a) (by omega)
    have hrest : SeenAs view mem (a + 1) n := h.mono (Nat.le_succ a) (by omega)
    rw [readSeen, hfirst, Option.bind_some, ih hrest, Option.map_some, readLE]

lemma SeenAs.word (h : SeenAs view mem a 8) : wordSeen view a = some (UInt64.ofNat (readLE mem a 8)) := by
  rw [wordSeen, h.read, Option.map_some]

/-- The entries of the table in memory. -/
def symbolsAt (mem : Nat → UInt8) (r : Symtabref) : List Symbol :=
  (List.range r.nsym).map fun j => symbolAt mem (r.sym + elfSymbolSize * j)

lemma length_symbolsAt (mem : Nat → UInt8) (r : Symtabref) : (symbolsAt mem r).length = r.nsym := by
  rw [symbolsAt, List.length_map, List.length_range]

lemma entry_symbolsAt {r : Symtabref} {m : Nat} (hm : m < r.nsym) :
    entry (symbolsAt mem r) m = symbolAt mem (r.sym + elfSymbolSize * m) := by
  rw [entry, symbolsAt, List.getElem?_map, List.getElem?_range hm, Option.map_some, Option.getD_some]

/-- The reference and its table can be read. -/
structure TableSeen (view : Nat → Option UInt8) (mem : Nat → UInt8) (symtab : Nat) : Prop where
  object : SeenAs view mem symtab 0x18
  table : SeenAs view mem (symtabrefAt mem symtab).sym (elfSymbolSize * (symtabrefAt mem symtab).nsym)

namespace TableSeen

variable (h : TableSeen view mem symtab)
include h

lemma sym : readSeen view symtab 8 = some (symtabrefAt mem symtab).sym :=
  (h.object.mono (Nat.le_refl _) (by omega)).read

lemma nsym : readSeen view (symtab + 0x08) 8 = some (symtabrefAt mem symtab).nsym :=
  (h.object.mono (by omega) (by omega)).read

lemma strtab : wordSeen view (symtab + 0x10) = some (UInt64.ofNat (symtabrefAt mem symtab).strtab) :=
  (h.object.mono (by omega) (by omega)).word

/-- An entry can be read. -/
lemma entry {m : Nat} (hm : m < (symtabrefAt mem symtab).nsym) :
    SeenAs view mem ((symtabrefAt mem symtab).sym + elfSymbolSize * m) elfSymbolSize := by
  refine h.table.mono (Nat.le_add_right _ _) ?_
  have hend : elfSymbolSize * m + elfSymbolSize ≤ elfSymbolSize * (symtabrefAt mem symtab).nsym :=
    Nat.mul_succ elfSymbolSize m ▸ Nat.mul_le_mul_left elfSymbolSize hm
  omega

lemma value {m : Nat} (hm : m < (symtabrefAt mem symtab).nsym) :
    wordSeen view ((symtabrefAt mem symtab).sym + elfSymbolSize * m + 0x08) =
      some (Symtab.entry (symbolsAt mem (symtabrefAt mem symtab)) m).stValue := by
  rw [entry_symbolsAt hm]
  exact ((h.entry hm).mono (by omega) (by unfold elfSymbolSize; omega)).word

lemma size {m : Nat} (hm : m < (symtabrefAt mem symtab).nsym) :
    wordSeen view ((symtabrefAt mem symtab).sym + elfSymbolSize * m + 0x10) =
      some (Symtab.entry (symbolsAt mem (symtabrefAt mem symtab)) m).stSize := by
  rw [entry_symbolsAt hm]
  exact ((h.entry hm).mono (by omega) (by unfold elfSymbolSize; omega)).word

lemma matchesSeen {m : Nat} (hm : m < (symtabrefAt mem symtab).nsym) :
    Elf.matchesSeen view symtab addr m ((symtabrefAt mem symtab).sym + elfSymbolSize * m)
        (Symtab.entry (symbolsAt mem (symtabrefAt mem symtab)) m).stValue =
      some (decide (Matches (symbolsAt mem (symtabrefAt mem symtab)) addr m)) := by
  have hnext : m + 1 < (symtabrefAt mem symtab).nsym →
      wordSeen view ((symtabrefAt mem symtab).sym + elfSymbolSize * m + elfSymbolSize + 0x08) =
        some (Symtab.entry (symbolsAt mem (symtabrefAt mem symtab)) (m + 1)).stValue := by
    intro hlt
    rw [← h.value hlt, Nat.mul_succ, Nat.add_assoc _ _ elfSymbolSize]
  have hmatches : Matches (symbolsAt mem (symtabrefAt mem symtab)) addr m ↔
      (Symtab.entry (symbolsAt mem (symtabrefAt mem symtab)) m).stValue ≤ addr ∧
        if (Symtab.entry (symbolsAt mem (symtabrefAt mem symtab)) m).stSize ≠ 0 then
          addr < (Symtab.entry (symbolsAt mem (symtabrefAt mem symtab)) m).stValue +
            (Symtab.entry (symbolsAt mem (symtabrefAt mem symtab)) m).stSize
        else m + 1 = (symtabrefAt mem symtab).nsym ∨
          addr < (Symtab.entry (symbolsAt mem (symtabrefAt mem symtab)) (m + 1)).stValue := by
    rw [← length_symbolsAt mem]
    rfl
  rw [Elf.matchesSeen]
  by_cases hvalue : (Symtab.entry (symbolsAt mem (symtabrefAt mem symtab)) m).stValue ≤ addr
  · rw [if_pos hvalue, h.size hm, Option.bind_some]
    by_cases hsize : (Symtab.entry (symbolsAt mem (symtabrefAt mem symtab)) m).stSize ≠ 0
    · rw [if_pos hsize] at hmatches ⊢
      exact congrArg some (decide_eq_decide.2 (hmatches.trans (and_iff_right hvalue)).symm)
    · rw [if_neg hsize] at hmatches ⊢
      rw [h.nsym, Option.bind_some]
      by_cases hlast : m + 1 = (symtabrefAt mem symtab).nsym
      · rw [if_pos hlast]
        exact congrArg some (decide_eq_true (hmatches.2 ⟨hvalue, Or.inl hlast⟩)).symm
      · rw [if_neg hlast, hnext (by omega), Option.map_some]
        exact congrArg some (decide_eq_decide.2 (hmatches.trans ((and_iff_right hvalue).trans (or_iff_right hlast))).symm)
  · rw [if_neg hvalue]
    exact congrArg some (decide_eq_false fun hm => hvalue (hmatches.1 hm).1).symm

lemma probe {m : Nat} (hm : m < (symtabrefAt mem symtab).nsym) :
    probeSeen view symtab addr m = some (Symtab.probe (symbolsAt mem (symtabrefAt mem symtab)) addr m) := by
  rw [probeSeen, h.sym, Option.bind_eq_bind, Option.bind_some]
  dsimp only
  rw [h.value hm, Option.bind_eq_bind, Option.bind_some, h.matchesSeen hm, Option.bind_eq_bind, Option.bind_some, Symtab.probe]
  simp only [decide_eq_true_eq, Option.pure_def]

/-- `lookup_symbol` finds what the search in the list of the entries finds. -/
lemma lookupSymbol : lookupSymbolSeen view symtab addr =
    some (Symtab.lookupSymbol (symbolsAt mem (symtabrefAt mem symtab)) (UInt64.ofNat (symtabrefAt mem symtab).strtab) addr) := by
  have hsearch : Bisect.searchOption (probeSeen view symtab addr) 0 (symtabrefAt mem symtab).nsym =
      some (Bisect.search (Symtab.probe (symbolsAt mem (symtabrefAt mem symtab)) addr) 0 (symtabrefAt mem symtab).nsym) :=
    Bisect.searchOption_eq fun m _ hm => h.probe hm
  rw [lookupSymbolSeen, h.nsym, Option.bind_eq_bind, Option.bind_some, hsearch, Option.bind_eq_bind, Option.bind_some,
    Symtab.lookupSymbol, length_symbolsAt]
  cases hfound : Bisect.search (Symtab.probe (symbolsAt mem (symtabrefAt mem symtab)) addr) 0 (symtabrefAt mem symtab).nsym with
  | none => rfl
  | some m =>
    have hm : m < (symtabrefAt mem symtab).nsym := (Bisect.search_eq_some_iff.1 hfound).2.1
    have hname := ((h.entry hm).mono (k := 4) (Nat.le_refl _) (by unfold elfSymbolSize; omega)).read
    have hstName : (Symtab.entry (symbolsAt mem (symtabrefAt mem symtab)) m).stName =
        UInt32.ofNat (readLE mem ((symtabrefAt mem symtab).sym + elfSymbolSize * m) 4) := by
      rw [entry_symbolsAt hm]
      rfl
    dsimp only
    rw [h.strtab, Option.bind_eq_bind, Option.bind_some, h.sym, Option.bind_some, hname, Option.bind_some, h.value hm,
      Option.bind_some, ← hstName, Option.map_some, Option.pure_def]

end TableSeen

end Seen

end Cs300Projects.WeensyOS.Elf
