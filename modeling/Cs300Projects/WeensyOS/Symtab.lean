import Cs300Projects.Lib.Bisect
import Cs300Projects.Lib.StableSort
import Mathlib.Tactic.Ring

/-!
# Looking up symbols

`sort_symtab` of `mkchickadeesymtab.cc` sorts the symbol table for `lookup_symbol` of
`k-hardware.cc`, which bisects it by address. The table is not ordered by address alone: symbols of
other types than object and function come first, and these or symbols inside others can lead the
search away from a symbol that holds the address.
-/

namespace Cs300Projects.WeensyOS.Symtab

open Bisect (Probe)

def elfSttMask : UInt8 := 0x0F
def elfSttObject : UInt8 := 0x01
def elfSttFunc : UInt8 := 0x02

/-- An entry of a symbol table. -/
structure Symbol where
  stName : UInt32
  stInfo : UInt8
  stOther : UInt8
  stShndx : UInt16
  stValue : UInt64
  stSize : UInt64
  deriving DecidableEq

def Symbol.null : Symbol := ⟨0, 0, 0, 0, 0, 0⟩

/-- Symbols of sections and files, and other types above `ELF_STT_FUNC`. -/
def Symbol.special (a : Symbol) : Bool := elfSttFunc < a.stInfo &&& elfSttMask

/-- An object or a function that has a size. -/
def Symbol.Sized (a : Symbol) : Prop :=
  (a.stInfo &&& elfSttMask = elfSttObject ∨ a.stInfo &&& elfSttMask = elfSttFunc) ∧ a.stSize ≠ 0

/-- `addr` is in the range of the symbol. -/
def Symbol.Holds (a : Symbol) (addr : UInt64) : Prop :=
  a.stValue.toNat ≤ addr.toNat ∧ addr.toNat < a.stValue.toNat + a.stSize.toNat

def symbolLess (a b : Symbol) : Bool :=
  if a.special || b.special then a.special && !b.special
  else a.stValue < b.stValue || (a.stValue == b.stValue && a.stSize < b.stSize)

/-- The loop that looks for a symbol which is less than its predecessor. -/
def inOrder : List Symbol → Bool
  | a :: b :: syms => !symbolLess b a && inOrder (b :: syms)
  | _ => true

/-- `std::stable_sort`. -/
def stableSort (syms : List Symbol) : List Symbol := syms.insertionSort fun a b => symbolLess b a = false

def sortSymtab : List Symbol → List Symbol
  | [] => []
  | sym :: syms => if inOrder syms then sym :: syms else sym :: stableSort syms

/-- The entry `m` of the table that the kernel sees. -/
def entry (symtab : List Symbol) (m : Nat) : Symbol := (symtab[m]?).getD .null

/-- The entry `m` matches the address. -/
def Matches (symtab : List Symbol) (addr : UInt64) (m : Nat) : Prop :=
  (entry symtab m).stValue ≤ addr ∧
    if (entry symtab m).stSize ≠ 0 then addr < (entry symtab m).stValue + (entry symtab m).stSize
    else m + 1 = symtab.length ∨ addr < (entry symtab (m + 1)).stValue

instance (symtab : List Symbol) (addr : UInt64) (m : Nat) : Decidable (Matches symtab addr m) :=
  inferInstanceAs (Decidable (_ ∧ _))

/-- A round of the loop of `lookup_symbol` at the entry `m`. -/
def probe (symtab : List Symbol) (addr : UInt64) (m : Nat) : Probe :=
  if Matches symtab addr m then .hit else if (entry symtab m).stValue < addr then .right else .left

/-- The name and the start of the symbol for `addr`. -/
def lookupSymbol (symtab : List Symbol) (strtab addr : UInt64) : Option (UInt64 × UInt64) :=
  (Bisect.search (probe symtab addr) 0 symtab.length).map fun m =>
    (strtab + (entry symtab m).stName.toUInt64, (entry symtab m).stValue)

/-! ### The order -/

lemma symbolLess_false {a b : Symbol} (ha : a.special = false) (hb : b.special = false)
    (h : symbolLess b a = false) : a.stValue ≤ b.stValue ∧ (a.stValue = b.stValue → a.stSize ≤ b.stSize) := by
  unfold symbolLess at h
  rw [ha, hb] at h
  simp only [Bool.or_self, Bool.false_eq_true, if_false, Bool.or_eq_false_iff, Bool.and_eq_false_iff,
    decide_eq_false_iff_not, beq_eq_false_iff_ne, UInt64.not_lt] at h
  refine ⟨h.1, fun heq => h.2.resolve_left fun hne => hne heq.symm⟩

lemma symbolLess_special {a b : Symbol} (ha : a.special = false) (h : symbolLess b a = false) :
    b.special = false := by
  unfold symbolLess at h
  rw [ha] at h
  cases hb : b.special with
  | false => rfl
  | true =>
    rw [hb] at h
    cases h

/-- The comparison is a strict weak order: special symbols are tied with each other and come before all others. -/
instance : IsStrictWeakOrder Symbol fun a b => symbolLess a b = true where
  irrefl a := by
    unfold symbolLess
    cases a.special <;> simp
  trans a b c hab hbc := by
    unfold symbolLess at *
    cases ha : a.special <;> cases hb : b.special <;> cases hc : c.special <;> simp [ha, hb, hc] at *
    grind
  incomp_trans a b c hab hbc := by
    unfold symbolLess at *
    cases ha : a.special <;> cases hb : b.special <;> cases hc : c.special <;> simp [ha, hb, hc] at *
    grind

/-- No symbol comes before a symbol that is less. -/
def Ordered (syms : List Symbol) : Prop := syms.Pairwise fun a b => symbolLess b a = false

/-- The loop compares neighbours, which is enough. -/
lemma inOrder_iff_ordered {syms : List Symbol} : inOrder syms = true ↔ StableSort.Ordered symbolLess syms := by
  rw [StableSort.ordered_iff_chain]
  induction syms with
  | nil => simp [inOrder]
  | cons a syms ih =>
    cases syms with
    | nil => simp [inOrder]
    | cons b syms => rw [inOrder, List.isChain_cons_cons, Bool.and_eq_true, Bool.not_eq_true', ih]

/-- The table as `sort_symtab` leaves it: the first symbol, and the others in order. -/
lemma sortSymtab_cons (sym : Symbol) (syms : List Symbol) :
    ∃ syms', sortSymtab (sym :: syms) = sym :: syms' ∧ Ordered syms' ∧ syms'.Perm syms := by
  rw [sortSymtab]
  split
  · rename_i h
    exact ⟨syms, rfl, inOrder_iff_ordered.1 h, List.Perm.refl syms⟩
  · have hsorted : StableSort.Sorted symbolLess syms (stableSort syms) := StableSort.sorted_insertionSort syms
    exact ⟨stableSort syms, rfl, hsorted.ordered, hsorted.perm⟩

/-! ### The search -/

/-- What the caller of `lookup_symbol` wants to know of an address that `sym` holds. -/
def Found (symtab : List Symbol) (strtab addr : UInt64) (sym : Symbol) : Prop :=
  ∃ a ∈ symtab, a.stValue = sym.stValue ∧
    lookupSymbol symtab strtab addr = some (strtab + a.stName.toUInt64, sym.stValue)

/-- An entry with the same start as `sym` matches the address, and none of the entries that bisection
compares on its way there matches or points the other way. -/
def Directed (symtab : List Symbol) (addr : UInt64) (sym : Symbol) : Prop :=
  ∃ g, g < symtab.length ∧ (entry symtab g).stValue = sym.stValue ∧ Matches symtab addr g ∧
    ∀ m ∈ Bisect.path g 0 symtab.length,
      ¬ Matches symtab addr m ∧ ((entry symtab m).stValue < addr ↔ m < g)

/-- No symbol is in the way of the search for `addr`, which `sym` holds. -/
structure Unobstructed (syms : List Symbol) (addr : UInt64) (sym : Symbol) : Prop where
  noWrap : ∀ a ∈ syms, a.stValue.toNat + a.stSize.toNat < 2 ^ 64
  special : ∀ a ∈ syms, a.special = true → a.stValue < addr ∧
    (a.stSize = 0 ∨ a.stValue.toNat + a.stSize.toNat ≤ addr.toNat)
  inside : ∀ a ∈ syms, a.special = false → sym.stValue < a.stValue → addr < a.stValue
  outside : ∀ a ∈ syms, a.special = false → a.stValue < sym.stValue →
    a.stSize = 0 ∨ a.stValue.toNat + a.stSize.toNat ≤ addr.toNat
  start : addr = sym.stValue → ∀ a ∈ syms, a.stValue = addr → a.stSize ≠ 0

variable {symtab syms : List Symbol} {strtab addr : UInt64} {sym : Symbol}

lemma probe_eq_hit {m : Nat} : probe symtab addr m = .hit ↔ Matches symtab addr m := by
  unfold probe
  by_cases h : Matches symtab addr m
  · simp [h]
  · by_cases hlt : (entry symtab m).stValue < addr <;> simp [h, hlt]

lemma probe_eq_right {m : Nat} :
    probe symtab addr m = .right ↔ ¬ Matches symtab addr m ∧ (entry symtab m).stValue < addr := by
  unfold probe
  by_cases h : Matches symtab addr m
  · simp [h]
  · by_cases hlt : (entry symtab m).stValue < addr <;> simp [h, hlt]

lemma probe_eq_left {m : Nat} :
    probe symtab addr m = .left ↔ ¬ Matches symtab addr m ∧ ¬ (entry symtab m).stValue < addr := by
  unfold probe
  by_cases h : Matches symtab addr m
  · simp [h]
  · by_cases hlt : (entry symtab m).stValue < addr <;> simp [h, hlt]

lemma towards_iff {g m : Nat} : Bisect.Towards (probe symtab addr) g m ↔
    ¬ Matches symtab addr m ∧ ((entry symtab m).stValue < addr ↔ m < g) := by
  unfold Bisect.Towards
  by_cases hm : m < g
  · rw [if_pos hm, probe_eq_right]
    simp [hm]
  · rw [if_neg hm, probe_eq_left]
    simp [hm]

lemma entry_mem {m : Nat} (hm : m < symtab.length) : entry symtab m ∈ symtab := by
  unfold entry
  rw [List.getElem?_eq_getElem hm]
  exact List.getElem_mem hm

/-- What is looked up is the entry at which the search ends. -/
lemma found_iff : Found symtab strtab addr sym ↔
    ∃ g, (entry symtab g).stValue = sym.stValue ∧
      Bisect.search (probe symtab addr) 0 symtab.length = some g := by
  unfold Found lookupSymbol
  constructor
  · rintro ⟨a, -, -, hlookup⟩
    rw [Option.map_eq_some_iff] at hlookup
    obtain ⟨g, hsearch, heq⟩ := hlookup
    exact ⟨g, (Prod.mk.inj heq).2, hsearch⟩
  · rintro ⟨g, hvalue, hsearch⟩
    have hlt := (Bisect.search_eq_some_iff.1 hsearch).2.1
    refine ⟨entry symtab g, entry_mem hlt, hvalue, ?_⟩
    rw [hsearch, Option.map_some, hvalue]

lemma found_iff_directed : Found symtab strtab addr sym ↔ Directed symtab addr sym := by
  rw [found_iff]
  unfold Directed
  simp only [Bisect.search_eq_some_iff, probe_eq_hit, towards_iff]
  constructor
  · rintro ⟨g, hvalue, -, hlt, hmatch, hpath⟩
    exact ⟨g, hlt, hvalue, hmatch, hpath⟩
  · rintro ⟨g, hlt, hvalue, hmatch, hpath⟩
    exact ⟨g, hvalue, Nat.zero_le g, hlt, hmatch, hpath⟩

/-! ### Sorted tables -/

lemma matches_value {m : Nat} (h : Matches symtab addr m) : (entry symtab m).stValue ≤ addr := h.1

/-- A sized entry that does not wrap matches the addresses that it holds. -/
lemma matches_sized {m : Nat} (hsize : (entry symtab m).stSize ≠ 0)
    (hwrap : (entry symtab m).stValue.toNat + (entry symtab m).stSize.toNat < 2 ^ 64) :
    Matches symtab addr m ↔ (entry symtab m).Holds addr := by
  unfold Matches Symbol.Holds
  rw [if_pos hsize, UInt64.le_iff_toNat_le, UInt64.lt_iff_toNat_lt, UInt64.toNat_add, Nat.mod_eq_of_lt hwrap]

lemma matches_unsized {m : Nat} (hsize : (entry symtab m).stSize = 0) (hm : m + 1 < symtab.length)
    (hnext : (entry symtab (m + 1)).stValue ≤ addr) : ¬ Matches symtab addr m := by
  unfold Matches
  rw [if_neg (fun h => h hsize)]
  rintro ⟨-, hlast | hlt⟩
  · omega
  · exact absurd hlt (UInt64.not_lt.2 hnext)

/-- Where `sym` is the entry `g` of a table in order, and nothing is in its way. -/
structure Placed (syms : List Symbol) (addr : UInt64) (sym : Symbol) (symtab : List Symbol) (g : Nat) : Prop where
  clear : Unobstructed syms addr sym
  mem : ∀ m, m < symtab.length → entry symtab m ∈ syms
  ordinary : sym.special = false
  size : sym.stSize ≠ 0
  holds : sym.Holds addr
  lt : g < symtab.length
  here : entry symtab g = sym
  before : ∀ m, m < g → (entry symtab m).special = true ∨
    ((entry symtab m).special = false ∧ (entry symtab m).stValue ≤ sym.stValue)
  after : ∀ m, g < m → m < symtab.length → (entry symtab m).special = false ∧
    sym.stValue ≤ (entry symtab m).stValue ∧
    (sym.stValue = (entry symtab m).stValue → sym.stSize ≤ (entry symtab m).stSize)

namespace Placed

variable {g : Nat}

lemma value_le (h : Placed syms addr sym symtab g) : sym.stValue ≤ addr :=
  UInt64.le_iff_toNat_le.2 h.holds.1

lemma hit (h : Placed syms addr sym symtab g) : probe symtab addr g = .hit := by
  have hsize := h.size
  rw [← h.here] at hsize
  rw [probe_eq_hit, matches_sized hsize (h.clear.noWrap _ (h.mem g h.lt)), h.here]
  exact h.holds

lemma below (h : Placed syms addr sym symtab g) {m : Nat} (hm : m ≤ g) : (entry symtab m).stValue ≤ addr := by
  rcases Nat.lt_or_eq_of_le hm with hlt | rfl
  · rcases h.before m hlt with hspecial | ⟨-, hle⟩
    · exact UInt64.le_of_lt (h.clear.special _ (h.mem m (Nat.lt_trans hlt h.lt)) hspecial).1
    · exact UInt64.le_trans hle h.value_le
  · rw [h.here]
    exact h.value_le

/-- An entry before `sym` that starts at the address is sized, and matches. -/
lemma not_left (h : Placed syms addr sym symtab g) {m : Nat} (hm : m < g) : probe symtab addr m ≠ .left := by
  have hlt := Nat.lt_trans hm h.lt
  intro hleft
  rw [probe_eq_left] at hleft
  obtain ⟨hmatch, hvalue⟩ := hleft
  have heq : (entry symtab m).stValue = addr :=
    UInt64.le_antisymm (h.below (Nat.le_of_lt hm)) (UInt64.not_lt.1 hvalue)
  rcases h.before m hm with hspecial | ⟨-, hle⟩
  · exact hvalue (h.clear.special _ (h.mem m hlt) hspecial).1
  · have haddr : addr = sym.stValue := UInt64.le_antisymm (heq ▸ hle) h.value_le
    have hsize := h.clear.start haddr _ (h.mem m hlt) heq
    apply hmatch
    rw [matches_sized hsize (h.clear.noWrap _ (h.mem m hlt))]
    unfold Symbol.Holds
    rw [heq]
    have hpos : (entry symtab m).stSize.toNat ≠ 0 := fun h0 => hsize (UInt64.toNat_inj.1 h0)
    omega

lemma not_right (h : Placed syms addr sym symtab g) {m : Nat} (hm : g < m) (hlt : m < symtab.length) :
    probe symtab addr m ≠ .right := by
  intro hright
  rw [probe_eq_right] at hright
  obtain ⟨hmatch, hvalue⟩ := hright
  obtain ⟨hordinary, hge, hsize⟩ := h.after m hm hlt
  -- nothing starts between the start of `sym` and the address
  have heq : sym.stValue = (entry symtab m).stValue := by
    apply UInt64.le_antisymm hge
    by_contra hinside
    have haddr := h.clear.inside _ (h.mem m hlt) hordinary (UInt64.not_le.1 hinside)
    exact absurd hvalue (UInt64.not_lt.2 (UInt64.le_of_lt haddr))
  have hle := UInt64.le_iff_toNat_le.1 (hsize heq)
  have hpos : sym.stSize.toNat ≠ 0 := fun h0 => h.size (UInt64.toNat_inj.1 h0)
  have hne : (entry symtab m).stSize ≠ 0 := by
    intro h0
    rw [h0] at hle
    exact hpos (Nat.le_zero.1 hle)
  apply hmatch
  rw [matches_sized hne (h.clear.noWrap _ (h.mem m hlt))]
  have hholds := h.holds
  unfold Symbol.Holds at *
  rw [← heq]
  omega

/-- Every entry that matches starts where `sym` does. -/
lemma value_of_matches (h : Placed syms addr sym symtab g) {m : Nat} (hlt : m < symtab.length)
    (hmatch : Matches symtab addr m) : (entry symtab m).stValue = sym.stValue := by
  have hmem := h.mem m hlt
  have hwrap := h.clear.noWrap _ hmem
  rcases Nat.lt_trichotomy m g with hm | rfl | hm
  · -- an entry without a size ends where the next one starts
    have hsized : (entry symtab m).stSize ≠ 0 := by
      intro hsize
      exact matches_unsized hsize (Nat.lt_of_le_of_lt hm h.lt) (h.below hm) hmatch
    have hholds := (matches_sized hsized hwrap).1 hmatch
    unfold Symbol.Holds at hholds
    rcases h.before m hm with hspecial | ⟨hordinary, hle⟩
    · have hend := (h.clear.special _ hmem hspecial).2.resolve_left hsized
      omega
    · apply UInt64.le_antisymm hle
      by_contra hless
      have hend := (h.clear.outside _ hmem hordinary (UInt64.not_le.1 hless)).resolve_left hsized
      omega
  · rw [h.here]
  · obtain ⟨hordinary, hge, -⟩ := h.after m hm hlt
    apply UInt64.le_antisymm ?_ hge
    by_contra hinside
    have haddr := h.clear.inside _ hmem hordinary (UInt64.not_le.1 hinside)
    exact absurd (matches_value hmatch) (UInt64.not_le.2 haddr)

lemma found (h : Placed syms addr sym symtab g) (strtab : UInt64) : Found symtab strtab addr sym := by
  obtain ⟨j, -, hlt, hhit, hsearch⟩ := Bisect.search_finds (Nat.zero_le g) h.lt h.hit
    (fun m hm => h.not_left hm) (fun m hm hlt => h.not_right hm hlt)
  rw [found_iff]
  exact ⟨j, h.value_of_matches hlt (probe_eq_hit.1 hhit), hsearch⟩

end Placed

lemma Symbol.Sized.ordinary (h : sym.Sized) : sym.special = false := by
  unfold Symbol.special
  rcases h.1 with hobject | hfunc
  · rw [hobject]
    decide
  · rw [hfunc]
    decide

/-- In the sorted table an unobstructed symbol is placed. -/
lemma sortSymtab_placed (hsized : sym.Sized) (hmem : sym ∈ syms) (hholds : sym.Holds addr)
    (hclear : Unobstructed (.null :: syms) addr sym) :
    ∃ g, Placed (.null :: syms) addr sym (sortSymtab (.null :: syms)) g := by
  obtain ⟨syms', hsort, hordered, hperm⟩ := sortSymtab_cons .null syms
  obtain ⟨f, hf, hsym⟩ := List.getElem_of_mem (hperm.mem_iff.2 hmem)
  rw [hsort]
  have hentry : ∀ m (hm : m < syms'.length), entry (.null :: syms') (m + 1) = syms'[m] := by
    intro m hm
    unfold entry
    rw [List.getElem?_cons_succ, List.getElem?_eq_getElem hm]
    rfl
  have hordinary := hsized.ordinary
  refine ⟨f + 1, hclear, ?_, hordinary, hsized.2, hholds, ?_, ?_, ?_, ?_⟩
  · intro m hm
    have hin := entry_mem hm
    rcases List.mem_cons.1 hin with hnull | hrest
    · rw [hnull]
      exact List.mem_cons_self
    · exact List.mem_cons_of_mem _ (hperm.mem_iff.1 hrest)
  · rw [List.length_cons]
    omega
  · rw [hentry f hf, hsym]
  · intro m hm
    cases m with
    | zero =>
      refine Or.inr ⟨?_, UInt64.le_iff_toNat_le.2 (Nat.zero_le _)⟩
      change Symbol.special .null = false
      decide
    | succ m =>
      have hlt : m < f := Nat.lt_of_succ_lt_succ hm
      have hless := List.pairwise_iff_getElem.1 hordered m f (Nat.lt_trans hlt hf) hf hlt
      rw [hsym, ← hentry m (Nat.lt_trans hlt hf)] at hless
      cases hspecial : (entry (.null :: syms') (m + 1)).special with
      | true => exact Or.inl rfl
      | false => exact Or.inr ⟨rfl, (symbolLess_false hspecial hordinary hless).1⟩
  · intro m hm hlt
    obtain ⟨k, rfl⟩ : ∃ k, m = k + 1 := ⟨m - 1, by omega⟩
    rw [List.length_cons] at hlt
    have hk : k < syms'.length := Nat.lt_of_succ_lt_succ hlt
    have hless := List.pairwise_iff_getElem.1 hordered f k hf hk (Nat.lt_of_succ_lt_succ hm)
    rw [hsym] at hless
    rw [hentry k hk]
    have hspecial := symbolLess_special hordinary hless
    exact ⟨hspecial, symbolLess_false hordinary hspecial hless⟩

/-- `lookup_symbol` on a sorted table finds the symbol that holds an address exactly when bisection is
directed to it, and so it does when no symbol is in the way. -/
theorem lookup_symbol_sorted (strtab : UInt64) (hsized : sym.Sized) (hmem : sym ∈ syms) (hholds : sym.Holds addr) :
    (Found (sortSymtab (.null :: syms)) strtab addr sym ↔ Directed (sortSymtab (.null :: syms)) addr sym) ∧
      (Unobstructed (.null :: syms) addr sym → Found (sortSymtab (.null :: syms)) strtab addr sym) := by
  refine ⟨found_iff_directed, fun hclear => ?_⟩
  obtain ⟨g, hg⟩ := sortSymtab_placed hsized hmem hholds hclear
  exact hg.found strtab

/-- A file symbol, an untyped label and two functions. -/
def sampleSymbols : List Symbol :=
  [⟨9, 0x12, 0, 1, 0x40100, 0x50⟩, ⟨1, 0x04, 0, 0xFFF1, 0, 0⟩, ⟨5, 0x12, 0, 1, 0x40000, 0x100⟩,
    ⟨13, 0x10, 0, 1, 0x40100, 0⟩]

theorem lookup_symbol_sorted_sample : Found (sortSymtab (.null :: sampleSymbols)) 0x1000000 0x40120
    ⟨9, 0x12, 0, 1, 0x40100, 0x50⟩ := by
  refine (lookup_symbol_sorted 0x1000000 ⟨Or.inr (by decide), by decide⟩ List.mem_cons_self
    ⟨by decide, by decide⟩).2 ⟨by decide, by decide, by decide, by decide, fun h => absurd h (by decide)⟩

/-- A label without a size at the start of a function hides the first address of the function: the label
ends where the function starts, and the search goes on before the label. -/
theorem lookup_symbol_misses_start :
    let label : Symbol := ⟨1, 0x10, 0, 1, 0x40000, 0⟩
    let function : Symbol := ⟨7, 0x12, 0, 1, 0x40000, 0x100⟩
    function.Sized ∧ function.Holds 0x40000 ∧
      ¬ Found (sortSymtab [.null, label, function]) 0x1000000 0x40000 function := by
  intro label function
  refine ⟨⟨Or.inr (by decide), by decide⟩, ⟨by decide, by decide⟩, ?_⟩
  have hlabel : probe [.null, label, function] 0x40000 1 = .left := by decide
  have hnull : probe [.null, label, function] 0x40000 0 = .right := by decide
  have hsearch : Bisect.search (probe [.null, label, function] 0x40000) 0 3 = none := by
    rw [Bisect.search_left (by decide) hlabel, Bisect.search_right (by decide) hnull,
      Bisect.search_empty (by decide)]
  rw [show sortSymtab [.null, label, function] = [.null, label, function] from by decide, found_iff]
  rintro ⟨g, -, hfound⟩
  rw [show [Symbol.null, label, function].length = 3 from rfl, hsearch] at hfound
  cases hfound

end Cs300Projects.WeensyOS.Symtab
