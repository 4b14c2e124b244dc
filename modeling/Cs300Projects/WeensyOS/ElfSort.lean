import Cs300Projects.WeensyOS.ElfInfo

/-!
# Sorting the symbol table

`sort_symtab` on the open file: the first symbol stays, the others are sorted stably, and the file is marked as changed
only if some symbol was out of order. A second call finds the table in order.
-/

namespace Cs300Projects.WeensyOS.Symtab

/-- A symbol behind the first one is less than an earlier one. -/
def OutOfOrder (syms : List Symbol) : Prop :=
  ∃ i j, ∃ (hi : i < syms.length) (hj : j < syms.length), 1 ≤ i ∧ i < j ∧ symbolLess syms[j] syms[i] = true

/-- The first symbol stays, and the others are sorted stably. -/
structure SymtabSorted (old new : List Symbol) : Prop where
  first : new.head? = old.head?
  rest : StableSort.Sorted symbolLess old.tail new.tail

variable {syms : List Symbol}

lemma sortSymtab_sorted (syms : List Symbol) : SymtabSorted syms (sortSymtab syms) := by
  cases syms with
  | nil => exact ⟨rfl, StableSort.sorted_self List.Pairwise.nil⟩
  | cons sym syms =>
    rw [sortSymtab]
    split
    · rename_i h
      exact ⟨rfl, StableSort.sorted_self (inOrder_iff_ordered.1 h)⟩
    · exact ⟨rfl, StableSort.sorted_insertionSort syms⟩

lemma sortSymtab_perm (syms : List Symbol) : (sortSymtab syms).Perm syms := by
  have hsorted := sortSymtab_sorted syms
  cases syms with
  | nil => exact List.Perm.nil
  | cons sym syms =>
    cases hnew : sortSymtab (sym :: syms) with
    | nil =>
      have hfirst := hsorted.first
      rw [hnew] at hfirst
      cases hfirst
    | cons sym' syms' =>
      have hfirst := hsorted.first
      have hrest := hsorted.rest.perm
      rw [hnew] at hfirst hrest
      obtain rfl : sym' = sym := Option.some.inj hfirst
      exact hrest.cons sym'

lemma SymtabSorted.length {syms' : List Symbol} (h : SymtabSorted syms syms') : syms'.length = syms.length := by
  have hrest := h.rest.perm.length_eq
  have hfirst := congrArg Option.isSome h.first
  cases syms with
  | nil =>
    cases syms' with
    | nil => rfl
    | cons _ _ => cases hfirst
  | cons _ _ =>
    cases syms' with
    | nil => cases hfirst
    | cons _ _ => exact congrArg Nat.succ hrest

/-- The check of neighbours is exact. -/
lemma inOrder_tail_iff : inOrder syms.tail = true ↔ ¬ OutOfOrder syms := by
  rw [inOrder_iff_ordered, ← not_iff_not, StableSort.not_ordered_iff, not_not]
  constructor
  · rintro ⟨i, j, hi, hj, hlt, hless⟩
    rw [List.length_tail] at hi hj
    rw [List.getElem_tail, List.getElem_tail] at hless
    exact ⟨i + 1, j + 1, by omega, by omega, by omega, by omega, hless⟩
  · rintro ⟨i, j, hi, hj, hpos, hlt, hless⟩
    obtain ⟨i, rfl⟩ := Nat.exists_eq_succ_of_ne_zero (Nat.one_le_iff_ne_zero.1 hpos)
    obtain ⟨j, rfl⟩ := Nat.exists_eq_succ_of_ne_zero (Nat.ne_zero_of_lt hlt)
    refine ⟨i, j, by rw [List.length_tail]; omega, by rw [List.length_tail]; omega, by omega, ?_⟩
    rw [List.getElem_tail, List.getElem_tail]
    exact hless

end Cs300Projects.WeensyOS.Symtab

namespace Cs300Projects.WeensyOS.Elf

open Bytes Loop Symtab

/-! ### Symbols in the file -/

section File

variable {m m' : Nat → UInt8} {a : Nat}

lemma within_writeSymbol (m : Nat → UInt8) (a : Nat) (sym : Symbol) : Within m (writeSymbol m a sym) a elfSymbolSize := by
  have hfield : ∀ m' : Nat → UInt8, ∀ k n v, k + n ≤ elfSymbolSize → Within m' (writeLE m' (a + k) n v) a elfSymbolSize :=
    fun m' k n v hk => (within_writeLE m' (a + k) n v).mono (by omega) (by omega)
  have hname := hfield m 0 4 sym.stName.toNat (by decide)
  have hinfo := hname.trans (hfield _ 0x04 1 sym.stInfo.toNat (by decide))
  have hother := hinfo.trans (hfield _ 0x05 1 sym.stOther.toNat (by decide))
  have hshndx := hother.trans (hfield _ 0x06 2 sym.stShndx.toNat (by decide))
  have hvalue := hshndx.trans (hfield _ 0x08 8 sym.stValue.toNat (by decide))
  exact hvalue.trans (hfield _ 0x10 8 sym.stSize.toNat (by decide))

lemma within_writeSymbols (m : Nat → UInt8) (a : Nat) (syms : List Symbol) :
    Within m (writeSymbols m a syms) a (elfSymbolSize * syms.length) := by
  induction syms generalizing m a with
  | nil => exact fun _ _ => rfl
  | cons sym syms ih =>
    rw [writeSymbols, List.length_cons]
    have hfirst := (within_writeSymbol m a sym).mono (a := a) (n := elfSymbolSize * (syms.length + 1)) (by omega)
      (by rw [Nat.mul_succ]; omega)
    exact hfirst.trans ((ih _ _).mono (by omega) (by rw [Nat.mul_succ]; omega))

lemma symbolAt_writeSymbol (m : Nat → UInt8) (a : Nat) (sym : Symbol) : symbolAt (writeSymbol m a sym) a = sym := by
  have hkeep : ∀ m' : Nat → UInt8, ∀ b n c k v, Apart b n c k → readLE (writeLE m' c k v) b n = readLE m' b n :=
    fun m' b n c k v hapart => (within_writeLE m' c k v).readLE hapart
  have hout : ∀ m' : Nat → UInt8, ∀ b c k v, Outside b c k → writeLE m' c k v b = m' b :=
    fun m' b c k v houtside => writeLE_outside houtside
  have hbyte : ∀ m' : Nat → UInt8, ∀ b, ∀ v : UInt8, writeLE m' b 1 v.toNat b = v := by
    intro m' b v
    simp [writeLE]
  have hname : readLE (writeSymbol m a sym) a 4 = sym.stName.toNat := by
    unfold writeSymbol
    rw [hkeep _ _ _ _ _ _ (Or.inl (by omega)), hkeep _ _ _ _ _ _ (Or.inl (by omega)), hkeep _ _ _ _ _ _ (Or.inl (by omega)),
      hkeep _ _ _ _ _ _ (Or.inl (by omega)), hkeep _ _ _ _ _ _ (Or.inl (by omega))]
    exact readLE_writeLE_of_lt sym.stName.toNat_lt
  have hinfo : writeSymbol m a sym (a + 0x04) = sym.stInfo := by
    unfold writeSymbol
    rw [hout _ _ _ _ _ (Or.inl (by omega)), hout _ _ _ _ _ (Or.inl (by omega)), hout _ _ _ _ _ (Or.inl (by omega)),
      hout _ _ _ _ _ (Or.inl (by omega)), hbyte]
  have hother : writeSymbol m a sym (a + 0x05) = sym.stOther := by
    unfold writeSymbol
    rw [hout _ _ _ _ _ (Or.inl (by omega)), hout _ _ _ _ _ (Or.inl (by omega)), hout _ _ _ _ _ (Or.inl (by omega)), hbyte]
  have hshndx : readLE (writeSymbol m a sym) (a + 0x06) 2 = sym.stShndx.toNat := by
    unfold writeSymbol
    rw [hkeep _ _ _ _ _ _ (Or.inl (by omega)), hkeep _ _ _ _ _ _ (Or.inl (by omega))]
    exact readLE_writeLE_of_lt sym.stShndx.toNat_lt
  have hvalue : readLE (writeSymbol m a sym) (a + 0x08) 8 = sym.stValue.toNat := by
    unfold writeSymbol
    rw [hkeep _ _ _ _ _ _ (Or.inl (by omega))]
    exact readLE_writeLE_of_lt sym.stValue.toNat_lt
  have hsize : readLE (writeSymbol m a sym) (a + 0x10) 8 = sym.stSize.toNat := readLE_writeLE_of_lt sym.stSize.toNat_lt
  unfold symbolAt stName
  rw [hname, hinfo, hother, hshndx, hvalue, hsize]
  simp

lemma symbolAt_congr (h : ∀ x, a ≤ x → x < a + elfSymbolSize → m' x = m x) : symbolAt m' a = symbolAt m a := by
  have hfield : ∀ k n, k + n ≤ elfSymbolSize → readLE m' (a + k) n = readLE m (a + k) n :=
    fun k n hk => readLE_congr fun x hx hlt => h x (by omega) (by omega)
  unfold symbolAt stName
  rw [hfield 0x06 2 (by decide), hfield 0x08 8 (by decide), hfield 0x10 8 (by decide),
    h (a + 0x04) (by omega) (Nat.add_lt_add_left (by decide) a), h (a + 0x05) (by omega) (Nat.add_lt_add_left (by decide) a),
    show readLE m' a 4 = readLE m a 4 from hfield 0 4 (by decide)]

lemma symbolAt_writeSymbols (m : Nat → UInt8) (a : Nat) (syms : List Symbol) :
    (List.range syms.length).map (fun i => symbolAt (writeSymbols m a syms) (a + elfSymbolSize * i)) = syms := by
  induction syms generalizing m a with
  | nil => rfl
  | cons sym syms ih =>
    have hfirst : symbolAt (writeSymbols (writeSymbol m a sym) (a + elfSymbolSize) syms) a = sym := by
      refine Eq.trans ?_ (symbolAt_writeSymbol m a sym)
      apply symbolAt_congr
      intro x _ hlt
      exact within_writeSymbols (writeSymbol m a sym) (a + elfSymbolSize) syms x (Or.inl hlt)
    rw [writeSymbols, List.length_cons, List.range_succ_eq_map, List.map_cons, List.map_map, Nat.mul_zero, Nat.add_zero,
      hfirst]
    congr 1
    have hrest := ih (writeSymbol m a sym) (a + elfSymbolSize)
    refine (List.map_congr_left ?_).trans hrest
    intro i _
    rw [Function.comp_apply, Nat.mul_succ, Nat.add_comm (elfSymbolSize * i), Nat.add_assoc]

end File

/-! ### Main results -/

namespace ElfInfo

variable {ei : ElfInfo}

/-- What `sort_symtab` does with an open file. -/
structure SortsSymtab (ei ei' : ElfInfo) : Prop where
  sorted : SymtabSorted ei.loadSymtab.symbols ei'.symbols
  changed : ei'.changed = true ↔ ei.changed = true ∨ OutOfOrder ei.loadSymtab.symbols
  unchanged : ¬ OutOfOrder ei.loadSymtab.symbols → ei' = ei.loadSymtab
  within : Within ei.data ei'.data (ei.loadSymtab.symbol 0) (elfSymbolSize * ei.loadSymtab.nsymtab)
  again : ei'.sortSymtab = ei'

lemma symbols_length (ei : ElfInfo) : ei.symbols.length = ei.nsymtab := by
  rw [symbols, List.length_map, List.length_range]

/-- `symtab()` changes what the class keeps of the file, but not the file. -/
lemma loadSymtab_file (ei : ElfInfo) : ei.loadSymtab.toFile = ei.toFile ∧ ei.loadSymtab.changed = ei.changed := by
  unfold loadSymtab
  split
  · exact ⟨rfl, rfl⟩
  · simp only
    split
    · exact ⟨rfl, rfl⟩
    · exact ⟨rfl, rfl⟩

lemma loadSymtab_of_isSome (h : ei.symtab.isSome) : ei.loadSymtab = ei := by
  unfold loadSymtab
  rw [if_pos h]

/-- A second call of `symtab()` finds the same. -/
lemma loadSymtab_loadSymtab (ei : ElfInfo) : ei.loadSymtab.loadSymtab = ei.loadSymtab := by
  by_cases hsome : ei.symtab.isSome
  · rw [loadSymtab_of_isSome hsome, loadSymtab_of_isSome hsome]
  · by_cases hfound : ei.findSection symtabName ≠ 0 ∧ shType ei.data (ei.shdr (ei.findSection symtabName)) = elfShtSymtab
    · apply loadSymtab_of_isSome
      unfold loadSymtab
      rw [if_neg hsome]
      simp only [if_pos hfound]
      rfl
    · have hsame : ei.loadSymtab = ei := by
        unfold loadSymtab
        rw [if_neg hsome]
        simp only [if_neg hfound]
      rw [hsame, hsame]

/-- Without a table there are no entries. -/
lemma loadSymtab_none (h : ei.symtab = none → ei.nsymtab = 0) : ei.loadSymtab.symtab = none → ei.loadSymtab.nsymtab = 0 := by
  unfold loadSymtab
  split
  · exact h
  · simp only
    split
    · intro hnone
      cases hnone
    · exact h

/-- A table whose entries are in order is left as it is. -/
lemma sortSymtab_of_inOrder (h : inOrder ei.loadSymtab.symbols.tail = true) : ei.sortSymtab = ei.loadSymtab := if_pos h

/-- The entries of the table are sorted, in the file. -/
lemma symbols_sortSymtab (ei : ElfInfo) : ei.sortSymtab.symbols = Symtab.sortSymtab ei.loadSymtab.symbols := by
  unfold sortSymtab
  simp only
  split
  · rename_i h
    generalize ei.loadSymtab.symbols = syms at h
    cases syms with
    | nil => rfl
    | cons sym syms =>
      rw [List.tail_cons] at h
      rw [Symtab.sortSymtab, if_pos h]
  · have hlength := (sortSymtab_sorted ei.loadSymtab.symbols).length
    rw [symbols_length] at hlength
    have hread := symbolAt_writeSymbols ei.loadSymtab.data (ei.loadSymtab.symbol 0) (Symtab.sortSymtab ei.loadSymtab.symbols)
    rw [hlength] at hread
    exact hread

/-- The comparison is a strict weak order, and `sort_symtab` sorts the table by it. -/
theorem sortSymtab_sorts (h : ei.symtab = none → ei.nsymtab = 0) :
    IsStrictWeakOrder Symbol (fun a b => symbolLess a b = true) ∧ ei.SortsSymtab ei.sortSymtab := by
  refine ⟨inferInstance, ?_⟩
  obtain ⟨hfile, hchanged⟩ := ei.loadSymtab_file
  have hsorted : SymtabSorted ei.loadSymtab.symbols ei.sortSymtab.symbols := by
    rw [symbols_sortSymtab]
    exact sortSymtab_sorted _
  by_cases horder : inOrder ei.loadSymtab.symbols.tail = true
  · have hsame : ei.sortSymtab = ei.loadSymtab := if_pos horder
    have hnone := inOrder_tail_iff.1 horder
    refine ⟨hsorted, ?_, fun _ => hsame, ?_, ?_⟩
    · rw [hsame, hchanged, or_iff_left hnone]
    · rw [hsame, hfile]
      exact fun _ _ => rfl
    · have hagain : inOrder ei.loadSymtab.loadSymtab.symbols.tail = true := by
        rw [loadSymtab_loadSymtab]
        exact horder
      rw [hsame, sortSymtab_of_inOrder hagain, loadSymtab_loadSymtab]
  · have hout : OutOfOrder ei.loadSymtab.symbols := by
      by_contra hnone
      exact horder (inOrder_tail_iff.2 hnone)
    have hsame : ei.sortSymtab = { ei.loadSymtab with
        data := writeSymbols ei.loadSymtab.data (ei.loadSymtab.symbol 0) (Symtab.sortSymtab ei.loadSymtab.symbols)
        changed := true } := if_neg horder
    refine ⟨hsorted, ?_, fun hnone => absurd hout hnone, ?_, ?_⟩
    · rw [hsame]
      exact ⟨fun _ => Or.inr hout, fun _ => rfl⟩
    · have hwithin := within_writeSymbols ei.loadSymtab.data (ei.loadSymtab.symbol 0) (Symtab.sortSymtab ei.loadSymtab.symbols)
      rw [(sortSymtab_sorted ei.loadSymtab.symbols).length, symbols_length] at hwithin
      intro x hx
      rw [hsame]
      exact (hwithin x hx).trans (congrFun (congrArg File.data hfile) x)
    · -- there is a table, since it has symbols out of order
      have hsome : ei.loadSymtab.symtab.isSome := by
        by_contra hnone
        have hzero := loadSymtab_none h (Option.not_isSome_iff_eq_none.1 hnone)
        obtain ⟨i, j, hi, -⟩ := hout
        rw [symbols_length, hzero] at hi
        exact Nat.not_lt_zero i hi
      have hload : ei.sortSymtab.loadSymtab = ei.sortSymtab := by
        apply loadSymtab_of_isSome
        rw [hsame]
        exact hsome
      have hagain : inOrder ei.sortSymtab.loadSymtab.symbols.tail = true := by
        rw [hload]
        exact inOrder_iff_ordered.2 hsorted.rest.ordered
      rw [sortSymtab_of_inOrder hagain, hload]

/-- A table with a symbol of a file behind a function. -/
def sampleTable : ElfInfo :=
  { ofFile ⟨writeSymbols (fun _ => 0) 0 (.null :: sampleSymbols), 120, by decide⟩ 0 with symtab := some 0, nsymtab := 5 }

theorem sortSymtab_sorts_sample : sampleTable.sortSymtab.changed = true ∧
    sampleTable.sortSymtab.sortSymtab = sampleTable.sortSymtab := by
  have hnone : sampleTable.symtab = none → sampleTable.nsymtab = 0 := by rintro ⟨⟩
  have hsorts := (sortSymtab_sorts hnone).2
  have hout : OutOfOrder sampleTable.loadSymtab.symbols :=
    ⟨1, 2, by decide +kernel, by decide +kernel, by decide, by decide, by decide +kernel⟩
  exact ⟨hsorts.changed.2 (Or.inr hout), hsorts.again⟩

end ElfInfo

end Cs300Projects.WeensyOS.Elf
