import Cs300Projects.WeensyOS.ElfLookup

/-!
# Filling in references to the symbol table

The loop of `rewrite_symtabref` over the symbols with a given name. It ends, and it does what it should in every
round if the addresses of the sections leave room: the test of the range is off by one at the end of a section,
and it wraps around for a section that ends below 32 or from 2⁶⁴ + 32 on.
-/

namespace Cs300Projects.WeensyOS.Elf

open Bytes Loop Symtab

namespace ElfInfo

variable (ei : ElfInfo)

/-- The object is inside the address range of the section of its symbol. -/
structure InsideSection (sym : Symbol) : Prop where
  progbits : shType ei.data (ei.shdr sym.stShndx.toNat) = elfShtProgbits
  start : shAddr ei.data (ei.shdr sym.stShndx.toNat) ≤ sym.stValue.toNat
  fits : sym.stValue.toNat + symtabrefSize ≤
    shAddr ei.data (ei.shdr sym.stShndx.toNat) + shSize ei.data (ei.shdr sym.stShndx.toNat)

/-- The bytes at `stref_off` are in the data of the section, inside the file. -/
structure InsideData (sym : Symbol) : Prop where
  start : shOffset ei.data (ei.shdr sym.stShndx.toNat) ≤ ei.symtabrefOffset sym
  fits : ei.symtabrefOffset sym + symtabrefSize ≤
    shOffset ei.data (ei.shdr sym.stShndx.toNat) + shSize ei.data (ei.shdr sym.stShndx.toNat)
  file : ei.symtabrefOffset sym + symtabrefSize ≤ ei.size

/-- The state before the loop of `rewrite_symtabref`. -/
def startRewriting (name : List UInt8) (loadaddr : UInt64) : Rewriting :=
  ⟨ei.loadSymtab, ei.loadSymtab.findSymbol name 0, loadaddr.toNat, 0⟩

end ElfInfo

open ElfInfo

/-- The round is for the symbol `sym`, an object of the right size in a section. -/
structure ElfInfo.Rewriting.For (r : Rewriting) (sym : Symbol) : Prop where
  current : ∃ i, r.sym = some i ∧ symbolAt r.ei.data (r.ei.symbol i) = sym
  object : r.ei.IsObject sym
  size : sym.stSize.toNat = symtabrefSize

section Statement

variable (name : List UInt8) (strtabOff size : UInt64)

/-- The round for an object accepts it if it is inside its section, and exits otherwise. It reads and writes the data
of the section only. -/
structure RoundRight (r : Rewriting) (sym : Symbol) : Prop where
  accepts : r.ei.InsideSection sym →
    ∃ r', rewriteRound name strtabOff.toNat size.toNat r = .next r' ∧ r'.nfound = r.nfound + 1
  rejects : ¬ r.ei.InsideSection sym → rewriteRound name strtabOff.toNat size.toNat r = .done none
  reads : ∀ r', rewriteRound name strtabOff.toNat size.toNat r = .next r' → r.ei.InsideData sym
  writes : ∀ r', rewriteRound name strtabOff.toNat size.toNat r = .next r' →
    Within r.ei.data r'.ei.data (r.ei.symtabrefOffset sym) symtabrefSize

/-- The states of the loop. -/
def Rewrites (ei : ElfInfo) (loadaddr : UInt64) (r : Rewriting) : Prop :=
  Reaches (rewriteRound name strtabOff.toNat size.toNat) (ei.startRewriting name loadaddr) r

/-- All rounds are right, all objects get the same value, and the loop ends. -/
structure RewritesRight (ei : ElfInfo) (loadaddr : UInt64) : Prop where
  rounds : ∀ r, Rewrites name strtabOff size ei loadaddr r → ∀ sym, r.For sym → RoundRight name strtabOff size r sym
  same : ∃ x, ∀ r, Rewrites name strtabOff size ei loadaddr r → ∀ sym, r.For sym →
    ∀ r', rewriteRound name strtabOff.toNat size.toNat r = .next r' →
      symtabrefAt r'.ei.data (r.ei.symtabrefOffset sym) = x
  ends : ∃ result, run (rewriteRound name strtabOff.toNat size.toNat) (ei.loadSymtab.nsymtab + 1)
    (ei.startRewriting name loadaddr) = some result

end Statement

/-- What the range test needs of the addresses of a section that starts at `start` and has `length` bytes. -/
structure RoomAt (start length value : Nat) : Prop where
  high : start + length < 2 ^ 64 + symtabrefSize
  last : value + symtabrefSize ≠ start + length
  low : start + length < symtabrefSize → 2 ^ 64 + (start + length) ≤ value + symtabrefSize

/-- Section header `k` of the open file `ei'` is one of those of `ei`, and stands there as it did. -/
structure HeaderKept (ei ei' : ElfInfo) (k : Nat) : Prop where
  inTable : k < ei.shnum
  same : ∀ x, ei.shdr k ≤ x → x < ei.shdr k + elfSectionSize → ei'.data x = ei.data x

/-- The condition on a round of a run on `ei`. An object may have been written over the section header, and behind the first
object the address may still have to be read. -/
structure ElfInfo.Rewriting.Regular (ei : ElfInfo) (r : Rewriting) (sym : Symbol) : Prop where
  room : shType r.ei.data (r.ei.shdr sym.stShndx.toNat) = elfShtProgbits →
    shAddr r.ei.data (r.ei.shdr sym.stShndx.toNat) ≤ sym.stValue.toNat →
      RoomAt (shAddr r.ei.data (r.ei.shdr sym.stShndx.toNat)) (shSize r.ei.data (r.ei.shdr sym.stShndx.toNat))
        sym.stValue.toNat
  overwritten : r.ei.Accepted sym → ¬ HeaderKept ei r.ei sym.stShndx.toNat →
    shOffset r.ei.data (r.ei.shdr sym.stShndx.toNat) +
      (sym.stValue.toNat - shAddr r.ei.data (r.ei.shdr sym.stShndx.toNat)) + symtabrefSize ≤ r.ei.size
  later : r.ei.Accepted sym → 0 < r.nfound → r.loadaddr = 0 → readLE r.ei.data (r.ei.symtabrefOffset sym) 8 = 0

/-! ### The range test -/

/-- The comparison of 64-bit numbers finds out whether 32 bytes at `v` fit below `a + s`. -/
lemma lt_sub64_iff {a s v : Nat} (ha : a ≤ v) (hv : v < 2 ^ 64) (hs : s < 2 ^ 64) :
    (v < sub64 ((a + s) % 2 ^ 64) symtabrefSize ↔ v + symtabrefSize ≤ a + s) ↔ RoomAt a s v := by
  have hroom : RoomAt a s v ↔ a + s < 2 ^ 64 + 32 ∧ v + 32 ≠ a + s ∧ (a + s < 32 → 2 ^ 64 + (a + s) ≤ v + 32) :=
    ⟨fun h => ⟨h.high, h.last, h.low⟩, fun h => ⟨h.1, h.2.1, h.2.2⟩⟩
  rw [hroom, sub64, symtabrefSize]
  omega

namespace ElfInfo

variable {ei : ElfInfo} {sym : Symbol}

lemma shSize_lt (m : Nat → UInt8) (sh : Nat) : shSize m sh < 2 ^ 64 := readLE_lt m _ 8

/-- An object is accepted exactly if it is inside its section, where the addresses leave room. -/
lemma accepted_iff_inside (hsize : sym.stSize.toNat = symtabrefSize) : (ei.Accepted sym ↔ ei.InsideSection sym) ↔
    (shType ei.data (ei.shdr sym.stShndx.toNat) = elfShtProgbits →
      shAddr ei.data (ei.shdr sym.stShndx.toNat) ≤ sym.stValue.toNat →
        RoomAt (shAddr ei.data (ei.shdr sym.stShndx.toNat)) (shSize ei.data (ei.shdr sym.stShndx.toNat))
          sym.stValue.toNat) := by
  have hinside : ei.InsideSection sym ↔ shType ei.data (ei.shdr sym.stShndx.toNat) = elfShtProgbits ∧
      shAddr ei.data (ei.shdr sym.stShndx.toNat) ≤ sym.stValue.toNat ∧
        sym.stValue.toNat + symtabrefSize ≤
          shAddr ei.data (ei.shdr sym.stShndx.toNat) + shSize ei.data (ei.shdr sym.stShndx.toNat) :=
    ⟨fun h => ⟨h.progbits, h.start, h.fits⟩, fun h => ⟨h.1, h.2.1, h.2.2⟩⟩
  rw [hinside, Accepted]
  by_cases htype : shType ei.data (ei.shdr sym.stShndx.toNat) = elfShtProgbits
  · by_cases hstart : shAddr ei.data (ei.shdr sym.stShndx.toNat) ≤ sym.stValue.toNat
    · have hroom := lt_sub64_iff hstart sym.stValue.toNat_lt (shSize_lt ei.data (ei.shdr sym.stShndx.toNat))
      simp only [hsize, htype, hstart, true_and, true_imp_iff]
      exact hroom
    · simp [hstart]
  · simp [htype]

/-- The place of an object inside its section, when it ends in the file. -/
lemma insideData_iff (hinside : ei.InsideSection sym) : ei.InsideData sym ↔
    shOffset ei.data (ei.shdr sym.stShndx.toNat) +
      (sym.stValue.toNat - shAddr ei.data (ei.shdr sym.stShndx.toNat)) + symtabrefSize ≤ ei.size := by
  have hfits := hinside.fits
  have hstart := hinside.start
  have hfile := ei.size_lt
  have hvalue := sym.stValue.toNat_lt
  have hoffset : ei.symtabrefOffset sym = (shOffset ei.data (ei.shdr sym.stShndx.toNat) +
      (sym.stValue.toNat - shAddr ei.data (ei.shdr sym.stShndx.toNat))) % 2 ^ 64 := rfl
  constructor
  · rintro ⟨hge, -, hsize⟩
    omega
  · intro hle
    have hnowrap := hoffset.trans (Nat.mod_eq_of_lt (by omega))
    exact ⟨by omega, by omega, by omega⟩

end ElfInfo

/-! ### One round -/

section Round

variable {name : List UInt8} {strtabOff size : UInt64} {r r' : Rewriting} {sym : Symbol}

/-- What the object becomes. -/
def ElfInfo.Rewriting.value (strtabOff size : UInt64) (r : Rewriting) (sym : Symbol) : Symtabref :=
  xstref (if r.loadaddr = 0 then readLE r.ei.data (r.ei.symtabrefOffset sym) 8 else r.loadaddr) r.ei.nsymtab
    strtabOff.toNat size.toNat

lemma symtabrefAt_writeSymtabref (m : Nat → UInt8) (a : Nat) {x : Symtabref} (h₁ : x.sym < 2 ^ 64) (h₂ : x.nsym < 2 ^ 64)
    (h₃ : x.strtab < 2 ^ 64) (h₄ : x.size < 2 ^ 64) : symtabrefAt (writeSymtabref m a x) a = x := by
  have hread : ∀ m' : Nat → UInt8, ∀ b v, v < 2 ^ 64 → readLE (writeLE m' b 8 v) b 8 = v :=
    fun m' b v hv => readLE_writeLE_of_lt hv
  have hkeep : ∀ m' : Nat → UInt8, ∀ b c v, Apart b 8 c 8 → readLE (writeLE m' c 8 v) b 8 = readLE m' b 8 :=
    fun m' b c v hapart => (within_writeLE m' c 8 v).readLE hapart
  unfold symtabrefAt writeSymtabref
  rw [hkeep _ a (a + 0x18) _ (Or.inl (by omega)), hkeep _ a (a + 0x10) _ (Or.inl (by omega)),
    hkeep _ a (a + 0x08) _ (Or.inl (by omega)), hread _ _ _ h₁,
    hkeep _ (a + 0x08) (a + 0x18) _ (Or.inl (by omega)), hkeep _ (a + 0x08) (a + 0x10) _ (Or.inl (by omega)),
    hread _ _ _ h₂, hkeep _ (a + 0x10) (a + 0x18) _ (Or.inl (by omega)), hread _ _ _ h₃, hread _ _ _ h₄]

lemma within_writeSymtabref (m : Nat → UInt8) (a : Nat) (x : Symtabref) :
    Within m (writeSymtabref m a x) a symtabrefSize := by
  have hword : ∀ m' : Nat → UInt8, ∀ k v, k + 8 ≤ symtabrefSize → Within m' (writeLE m' (a + k) 8 v) a symtabrefSize :=
    fun m' k v hk => (within_writeLE m' (a + k) 8 v).mono (by omega) (by omega)
  unfold writeSymtabref
  exact (((hword m 0 _ (by decide)).trans (hword _ 0x08 _ (by decide))).trans (hword _ 0x10 _ (by decide))).trans
    (hword _ 0x18 _ (by decide))

/-- What all rounds keep of the open file. -/
structure SameTables (ei ei' : ElfInfo) : Prop where
  size : ei'.size = ei.size
  sht : ei'.sht = ei.sht
  symtab : ei'.symtab = ei.symtab
  nsymtab : ei'.nsymtab = ei.nsymtab
  symstrtab : ei'.symstrtab = ei.symstrtab

lemma SameTables.refl (ei : ElfInfo) : SameTables ei ei := ⟨rfl, rfl, rfl, rfl, rfl⟩

lemma SameTables.trans {ei ei' ei'' : ElfInfo} (h : SameTables ei ei') (h' : SameTables ei' ei'') : SameTables ei ei'' :=
  ⟨h'.size.trans h.size, h'.sht.trans h.sht, h'.symtab.trans h.symtab, h'.nsymtab.trans h.nsymtab,
    h'.symstrtab.trans h.symstrtab⟩

/-- A symbol that is passed over. -/
structure Skipped (r r' : Rewriting) : Prop where
  ei : r'.ei = r.ei
  loadaddr : r'.loadaddr = r.loadaddr
  nfound : r'.nfound = r.nfound

/-- An object that is accepted. -/
structure Filled (strtabOff size : UInt64) (r r' : Rewriting) (sym : Symbol) : Prop where
  considered : r.For sym
  accepted : r.ei.Accepted sym
  loadaddr : r'.loadaddr = (r.value strtabOff size sym).sym
  nfound : r'.nfound = r.nfound + 1
  object : symtabrefAt r'.ei.data (r.ei.symtabrefOffset sym) = r.value strtabOff size sym
  within : Within r.ei.data r'.ei.data (r.ei.symtabrefOffset sym) symtabrefSize

/-- The numbers of the state fit into their types. -/
structure Fits (r : Rewriting) : Prop where
  loadaddr : r.loadaddr < 2 ^ 64
  nsymtab : r.ei.nsymtab < 2 ^ 32

lemma Fits.value_lt (h : Fits r) (strtabOff size : UInt64) (sym : Symbol) : (r.value strtabOff size sym).sym < 2 ^ 64 := by
  unfold Rewriting.value xstref
  split
  · exact readLE_lt r.ei.data _ 8
  · exact h.loadaddr

lemma ElfInfo.Rewriting.For.unique {sym' : Symbol} (h : r.For sym) (h' : r.For sym') : sym' = sym := by
  obtain ⟨i, hi, rfl⟩ := h.current
  obtain ⟨j, hj, rfl⟩ := h'.current
  obtain rfl : j = i := Option.some.inj (hj.symm.trans hi)
  rfl

lemma Fits.value_fits (h : Fits r) (strtabOff size : UInt64) (sym : Symbol) (m : Nat → UInt8) (off : Nat) :
    symtabrefAt (writeSymtabref m off (r.value strtabOff size sym)) off = r.value strtabOff size sym := by
  apply symtabrefAt_writeSymtabref
  · exact h.value_lt strtabOff size sym
  · exact Nat.lt_trans h.nsymtab (by decide)
  · exact Nat.mod_lt _ (by decide)
  · exact size.toNat_lt

lemma object_written {ei ei' : ElfInfo} {off : Nat} {x : Symtabref}
    (hread : symtabrefAt (writeSymtabref ei.data off x) off = x)
    (h : ei' = if symtabrefAt ei.data off = x then ei
      else { ei with data := writeSymtabref ei.data off x, changed := true }) :
    symtabrefAt ei'.data off = x ∧ Within ei.data ei'.data off symtabrefSize ∧ SameTables ei ei' := by
  split at h
  · rename_i hsame
    rw [h]
    exact ⟨hsame, fun _ _ => rfl, SameTables.refl ei⟩
  · rw [h]
    exact ⟨hread, within_writeSymtabref ei.data off x, rfl, rfl, rfl, rfl, rfl⟩

/-- The round for an object of the right size exits, or fills it in. -/
lemma rewriteRound_for (name : List UInt8) (strtabOff size : UInt64) (h : r.For sym) (hfits : Fits r) :
    (r.ei.Accepted sym ∧ ∃ r', rewriteRound name strtabOff.toNat size.toNat r = .next r' ∧
      Filled strtabOff size r r' sym ∧ SameTables r.ei r'.ei ∧
      ∃ i, r.sym = some i ∧ r'.sym = r'.ei.findSymbol name (i + 1)) ∨
    (¬ r.ei.Accepted sym ∧ rewriteRound name strtabOff.toNat size.toNat r = .done none) := by
  obtain ⟨i, hi, hsym⟩ := h.current
  by_cases hacc : r.ei.Accepted sym
  · obtain ⟨ei', hei'⟩ : ∃ ei', ei' =
        if symtabrefAt r.ei.data (r.ei.symtabrefOffset sym) = r.value strtabOff size sym then r.ei
        else { r.ei with
          data := writeSymtabref r.ei.data (r.ei.symtabrefOffset sym) (r.value strtabOff size sym), changed := true } :=
      ⟨_, rfl⟩
    obtain ⟨hobject, hwithin, htables⟩ := object_written (hfits.value_fits strtabOff size sym _ _) hei'
    have hround : rewriteRound name strtabOff.toNat size.toNat r =
        .next ⟨ei', ei'.findSymbol name (i + 1), (r.value strtabOff size sym).sym, r.nfound + 1⟩ := by
      unfold rewriteRound
      simp only [hi, hsym, if_pos h.object, if_pos hacc]
      rw [hei']
      rfl
    exact Or.inl ⟨hacc, _, hround, ⟨h, hacc, rfl, rfl, hobject, hwithin⟩, htables, i, hi, rfl⟩
  · refine Or.inr ⟨hacc, ?_⟩
    unfold rewriteRound
    simp only [hi, hsym, if_pos h.object, if_neg hacc]

lemma filled_of_next (h : r.For sym) (hfits : Fits r)
    (hstep : rewriteRound name strtabOff.toNat size.toNat r = .next r') : Filled strtabOff size r r' sym := by
  rcases rewriteRound_for name strtabOff size h hfits with
    ⟨-, r'', hstep', hfilled, -, -⟩ | ⟨-, hexit⟩
  · obtain rfl : r' = r'' := Round.next.inj (hstep.symm.trans hstep')
    exact hfilled
  · rw [hexit] at hstep
    cases hstep

/-- A round that goes on is for a symbol that is passed over, or for an object that is filled in. -/
lemma rewriteRound_next (hfits : Fits r) (hstep : rewriteRound name strtabOff.toNat size.toNat r = .next r') :
    SameTables r.ei r'.ei ∧ (∃ i, r.sym = some i ∧ r'.sym = r'.ei.findSymbol name (i + 1)) ∧
      (Skipped r r' ∨ ∃ sym, Filled strtabOff size r r' sym) := by
  cases hsym : r.sym with
  | none => simp [rewriteRound, hsym] at hstep
  | some i =>
    by_cases hobject : r.ei.IsObject (symbolAt r.ei.data (r.ei.symbol i))
    · by_cases hsize : (symbolAt r.ei.data (r.ei.symbol i)).stSize.toNat = symtabrefSize
      · have hfor : r.For (symbolAt r.ei.data (r.ei.symbol i)) := ⟨⟨i, hsym, rfl⟩, hobject, hsize⟩
        rcases rewriteRound_for name strtabOff size hfor hfits with
          ⟨-, r'', hstep', hfilled, hsame, hnext⟩ | ⟨-, hexit⟩
        · obtain rfl : r' = r'' := Round.next.inj (hstep.symm.trans hstep')
          exact ⟨hsame, hsym ▸ hnext, Or.inr ⟨_, hfilled⟩⟩
        · rw [hexit] at hstep
          cases hstep
      · have hnot : ¬ r.ei.Accepted (symbolAt r.ei.data (r.ei.symbol i)) := fun hacc => hsize hacc.1
        simp [rewriteRound, hsym, hobject, hnot] at hstep
    · simp only [rewriteRound, hsym, if_neg hobject, Round.next.injEq] at hstep
      rw [← hstep]
      exact ⟨SameTables.refl r.ei, ⟨i, rfl, rfl⟩, Or.inl ⟨rfl, rfl, rfl⟩⟩

end Round

/-! ### The states of the loop -/

section Run

variable {name : List UInt8} {strtabOff size loadaddr : UInt64} {ei : ElfInfo} {r r' : Rewriting} {sym : Symbol}

lemma findSymbol_lt {i j : Nat} (h : ei.findSymbol name i = some j) : i ≤ j ∧ j < ei.nsymtab := by
  have hsought := seek_sought (fun i => streq ei.data (ei.symstrtab + stName ei.data (ei.symbol i)) name)
    (ei.nsymtab - i) i
  unfold findSymbol at h
  simp only at h
  split at h
  · cases h
  · obtain rfl := Option.some.inj h
    exact ⟨hsought.ge, Nat.lt_of_not_le ‹_›⟩

/-- What holds in every state of the loop. -/
structure Rewritten (ei : ElfInfo) (r : Rewriting) : Prop where
  fits : Fits r
  tables : SameTables ei.loadSymtab r.ei
  sym : ∀ i, r.sym = some i → i < r.ei.nsymtab

lemma ElfInfo.Opened.nsymtab_lt (h : ei.Opened) : ei.loadSymtab.nsymtab < 2 ^ 32 := by
  have hloaded := h.lookupSymtab.2
  rcases hloaded.table with ⟨-, hzero⟩ | ⟨i, -, htable⟩
  · rw [hzero]
    decide
  · rw [htable.nsymtab]
    exact Nat.mod_lt _ (by decide)

lemma rewritten_start (h : ei.Opened) (name : List UInt8) (loadaddr : UInt64) :
    Rewritten ei (ei.startRewriting name loadaddr) :=
  ⟨⟨loadaddr.toNat_lt, h.nsymtab_lt⟩, SameTables.refl _, fun _ hi => (findSymbol_lt hi).2⟩

lemma Rewritten.next (h : Rewritten ei r) (hstep : rewriteRound name strtabOff.toNat size.toNat r = .next r') :
    Rewritten ei r' := by
  obtain ⟨htables, ⟨i, -, hnext⟩, hcases⟩ := rewriteRound_next h.fits hstep
  have hsym : ∀ j, r'.sym = some j → j < r'.ei.nsymtab := fun j hj => (findSymbol_lt (hnext.symm.trans hj)).2
  have hnsymtab : r'.ei.nsymtab < 2 ^ 32 := htables.nsymtab ▸ h.fits.nsymtab
  rcases hcases with hskipped | ⟨sym, hfilled⟩
  · exact ⟨⟨hskipped.loadaddr ▸ h.fits.loadaddr, hnsymtab⟩, h.tables.trans htables, hsym⟩
  · exact ⟨⟨hfilled.loadaddr ▸ h.fits.value_lt strtabOff size sym, hnsymtab⟩, h.tables.trans htables, hsym⟩

lemma Rewrites.rewritten (hopen : ei.Opened) (h : Rewrites name strtabOff size ei loadaddr r) : Rewritten ei r :=
  Reaches.invariant h (rewritten_start hopen name loadaddr) fun _ _ _ ht hstep => ht.next hstep

/-- The number of symbols that the loop has not passed yet. -/
def remaining (r : Rewriting) : Nat :=
  match r.sym with
  | none => 0
  | some i => r.ei.nsymtab - i

/-- The loop ends: every search goes on behind the last symbol. -/
lemma rewriting_ends (hopen : ei.Opened) : ∃ result, run (rewriteRound name strtabOff.toNat size.toNat)
    (ei.loadSymtab.nsymtab + 1) (ei.startRewriting name loadaddr) = some result := by
  have htotal := run_total (rewriteRound name strtabOff.toNat size.toNat) (Rewritten ei) (fun _ => True) remaining ?_
    (fun _ _ _ _ => trivial) (n := ei.loadSymtab.nsymtab + 1) (rewritten_start hopen name loadaddr) ?_
  · obtain ⟨result, hrun, -⟩ := htotal
    exact ⟨result, hrun⟩
  · intro t u ht hstep
    refine ⟨ht.next hstep, ?_⟩
    obtain ⟨htables, ⟨i, hi, hnext⟩, -⟩ := rewriteRound_next ht.fits hstep
    have hlt := ht.sym i hi
    unfold remaining
    rw [hi]
    cases hsym : u.sym with
    | none => exact Nat.sub_pos_of_lt hlt
    | some j =>
      have hge := (findSymbol_lt (hnext.symm.trans hsym)).1
      simp only [htables.nsymtab]
      omega
  · unfold remaining
    split
    · omega
    · change ei.loadSymtab.nsymtab - _ < _
      omega

/-! ### Main results -/

lemma HeaderKept.readLE {ei' : ElfInfo} {k : Nat} (h : HeaderKept ei ei' k) {b n : Nat} (hb : b + n ≤ elfSectionSize) :
    readLE ei'.data (ei.shdr k + b) n = readLE ei.data (ei.shdr k + b) n :=
  readLE_congr fun x hx hlt => h.same x (by omega) (by omega)

/-- `validate` has checked that the data of a section are inside the file. Where the section header stands as it did then,
an object inside the section is inside the file. -/
lemma Rewritten.fits_kept (h : Rewritten ei r) (hopen : ei.Opened) (hkept : HeaderKept ei r.ei sym.stShndx.toNat)
    (hinside : r.ei.InsideSection sym) : shOffset r.ei.data (r.ei.shdr sym.stShndx.toNat) +
      (sym.stValue.toNat - shAddr r.ei.data (r.ei.shdr sym.stShndx.toNat)) + symtabrefSize ≤ r.ei.size := by
  have hshdr : r.ei.shdr sym.stShndx.toNat = ei.shdr sym.stShndx.toNat := by
    unfold shdr
    rw [h.tables.sht, hopen.lookupSymtab.2.sameSht]
  have hsize : r.ei.size = ei.size := h.tables.size.trans (congrArg File.size hopen.lookupSymtab.2.sameFile)
  have hfits := hinside.fits
  have hstart := hinside.start
  have htype := hinside.progbits
  rw [hshdr] at hfits hstart htype ⊢
  have hAddr : shAddr r.ei.data (ei.shdr sym.stShndx.toNat) = shAddr ei.data (ei.shdr sym.stShndx.toNat) :=
    hkept.readLE (b := 0x10) (by decide)
  have hOffset : shOffset r.ei.data (ei.shdr sym.stShndx.toNat) = shOffset ei.data (ei.shdr sym.stShndx.toNat) :=
    hkept.readLE (b := 0x18) (by decide)
  have hSize : shSize r.ei.data (ei.shdr sym.stShndx.toNat) = shSize ei.data (ei.shdr sym.stShndx.toNat) :=
    hkept.readLE (b := 0x20) (by decide)
  have hType : shType r.ei.data (ei.shdr sym.stShndx.toNat) = shType ei.data (ei.shdr sym.stShndx.toNat) :=
    hkept.readLE (b := 0x04) (by decide)
  rw [hType] at htype
  rw [hAddr] at hfits hstart ⊢
  rw [hSize] at hfits
  rw [hOffset, hsize]
  rw [hopen.shdr] at hfits hstart htype ⊢
  have hbounds := (hopen.valid.bounds (File.stored_of_type hkept.inTable htype (by decide) (by decide))).2
  unfold File.offset File.sectionSize at hbounds
  omega

/-- When a round for an object is right. -/
lemma Rewritten.roundRight_iff (h : Rewritten ei r) (hopen : ei.Opened) (hfor : r.For sym) :
    RoundRight name strtabOff size r sym ↔ (r.ei.Accepted sym ↔ r.ei.InsideSection sym) ∧
      (r.ei.Accepted sym → ¬ HeaderKept ei r.ei sym.stShndx.toNat → shOffset r.ei.data (r.ei.shdr sym.stShndx.toNat) +
        (sym.stValue.toNat - shAddr r.ei.data (r.ei.shdr sym.stShndx.toNat)) + symtabrefSize ≤ r.ei.size) := by
  rcases rewriteRound_for name strtabOff size hfor h.fits with
    ⟨hacc, r', hstep, hfilled, -, -⟩ | ⟨hacc, hexit⟩
  · constructor
    · intro hright
      have hinside : r.ei.InsideSection sym := by
        by_contra hnot
        have hexit := hright.rejects hnot
        rw [hstep] at hexit
        cases hexit
      exact ⟨⟨fun _ => hinside, fun _ => hacc⟩, fun _ _ => (insideData_iff hinside).1 (hright.reads r' hstep)⟩
    · rintro ⟨hiff, hoverwritten⟩
      have hinside := hiff.1 hacc
      refine ⟨fun _ => ⟨r', hstep, hfilled.nfound⟩, fun hnot => absurd hinside hnot, ?_, ?_⟩
      · intro _ _
        rw [insideData_iff hinside]
        by_cases hkept : HeaderKept ei r.ei sym.stShndx.toNat
        · exact h.fits_kept hopen hkept hinside
        · exact hoverwritten hacc hkept
      · intro r'' hstep'
        obtain rfl : r'' = r' := Round.next.inj (hstep'.symm.trans hstep)
        exact hfilled.within
  · constructor
    · intro hright
      have hnot : ¬ r.ei.InsideSection sym := by
        intro hinside
        obtain ⟨r', hstep, -⟩ := hright.accepts hinside
        rw [hexit] at hstep
        cases hstep
      exact ⟨⟨fun h => absurd h hacc, fun h => absurd h hnot⟩, fun h => absurd h hacc⟩
    · rintro ⟨hiff, -⟩
      have hnext : ∀ r', rewriteRound name strtabOff.toNat size.toNat r ≠ .next r' := by
        intro r' hstep
        rw [hexit] at hstep
        cases hstep
      exact ⟨fun hinside => absurd (hiff.2 hinside) hacc, fun _ => hexit, fun r' hstep => absurd hstep (hnext r'),
        fun r' hstep => absurd hstep (hnext r')⟩

/-- The value depends on the address that is used, and on what never changes. -/
lemma value_congr {sym' : Symbol} (hnsymtab : r'.ei.nsymtab = r.ei.nsymtab)
    (h : (r'.value strtabOff size sym').sym = (r.value strtabOff size sym).sym) :
    r'.value strtabOff size sym' = r.value strtabOff size sym := by
  unfold Rewriting.value xstref at h ⊢
  simp only at h
  rw [h, hnsymtab]

/-- An object behind the first one gets the address that was used before. -/
lemma ElfInfo.Rewriting.Regular.value_sym (h : r.Regular ei sym) (strtabOff size : UInt64)
    (hacc : r.ei.Accepted sym) (hpos : 0 < r.nfound) :
    (r.value strtabOff size sym).sym = r.loadaddr := by
  change (if r.loadaddr = 0 then readLE r.ei.data (r.ei.symtabrefOffset sym) 8 else r.loadaddr) = r.loadaddr
  split
  · rename_i hzero
    rw [hzero]
    exact h.later hacc hpos hzero
  · rfl

/-- The address of the state is the one that was written last. -/
lemma Rewrites.written (hopen : ei.Opened) (h : Rewrites name strtabOff size ei loadaddr r) (hpos : 0 < r.nfound) :
    ∃ r₀ sym₀ r₀', Rewrites name strtabOff size ei loadaddr r₀ ∧
      rewriteRound name strtabOff.toNat size.toNat r₀ = .next r₀' ∧ Filled strtabOff size r₀ r₀' sym₀ ∧
      r.loadaddr = (r₀.value strtabOff size sym₀).sym := by
  let I (t : Rewriting) : Prop := 0 < t.nfound → ∃ r₀ sym₀ r₀', Rewrites name strtabOff size ei loadaddr r₀ ∧
      rewriteRound name strtabOff.toNat size.toNat r₀ = .next r₀' ∧ Filled strtabOff size r₀ r₀' sym₀ ∧
      t.loadaddr = (r₀.value strtabOff size sym₀).sym
  have hstart : I (ei.startRewriting name loadaddr) := fun hzero => absurd hzero (Nat.lt_irrefl 0)
  refine Reaches.invariant h hstart ?_ hpos
  intro t u ht ih hstep hpos
  obtain ⟨-, -, hskipped | ⟨sym, hfilled⟩⟩ := rewriteRound_next (Rewrites.rewritten hopen ht).fits hstep
  · rw [hskipped.loadaddr]
    exact ih (hskipped.nfound ▸ hpos)
  · exact ⟨t, sym, u, ht, hstep, hfilled, hfilled.loadaddr⟩

/-- Behind an object that was filled in, all objects get the same value. -/
lemma same_later (hopen : ei.Opened)
    (hregular : ∀ r, Rewrites name strtabOff size ei loadaddr r → ∀ sym, r.For sym → r.Regular ei sym) {r₀ r₀' r : Rewriting}
    {sym₀ : Symbol} (h₀ : Rewrites name strtabOff size ei loadaddr r₀)
    (hstep₀ : rewriteRound name strtabOff.toNat size.toNat r₀ = .next r₀') (hfilled₀ : Filled strtabOff size r₀ r₀' sym₀)
    (hreach : Reaches (rewriteRound name strtabOff.toNat size.toNat) r₀ r) (hfor : r.For sym) (hacc : r.ei.Accepted sym) :
    r.value strtabOff size sym = r₀.value strtabOff size sym₀ := by
  rcases hreach.eq_or_next with rfl | ⟨u, hstep, hrest⟩
  · rw [hfilled₀.considered.unique hfor]
  · obtain rfl : u = r₀' := Round.next.inj (hstep.symm.trans hstep₀)
    have hu : Rewrites name strtabOff size ei loadaddr u := Reaches.next h₀ hstep
    have hkept : r.loadaddr = u.loadaddr ∧ 0 < r.nfound := by
      have hstart : u.loadaddr = u.loadaddr ∧ 0 < u.nfound := ⟨rfl, hfilled₀.nfound ▸ Nat.succ_pos _⟩
      refine Reaches.invariant (I := fun t => t.loadaddr = u.loadaddr ∧ 0 < t.nfound) hrest hstart ?_
      rintro t t' ht ⟨hloadaddr, hpos⟩ hstep'
      have hall := Reaches.trans hu ht
      obtain ⟨-, -, hskipped | ⟨sym', hfilled⟩⟩ := rewriteRound_next (Rewrites.rewritten hopen hall).fits hstep'
      · exact ⟨hskipped.loadaddr.trans hloadaddr, hskipped.nfound ▸ hpos⟩
      · have hvalue := (hregular t hall sym' hfilled.considered).value_sym strtabOff size
          hfilled.accepted hpos
        exact ⟨hfilled.loadaddr.trans (hvalue.trans hloadaddr), hfilled.nfound ▸ Nat.succ_pos _⟩
    have hr : Rewrites name strtabOff size ei loadaddr r := Reaches.trans hu hrest
    apply value_congr
    · exact (Rewrites.rewritten hopen hr).tables.nsymtab.trans (Rewrites.rewritten hopen h₀).tables.nsymtab.symm
    · rw [(hregular r hr sym hfor).value_sym strtabOff size hacc hkept.2, hkept.1, hfilled₀.loadaddr]

/-- `rewrite_symtabref` does what it should exactly if the sections leave room in every round, and later objects
agree with the first one. -/
theorem rewrites_right_iff (hopen : ei.Opened) (name : List UInt8) (strtabOff size loadaddr : UInt64) :
    RewritesRight name strtabOff size ei loadaddr ↔
      ∀ r, Rewrites name strtabOff size ei loadaddr r → ∀ sym, r.For sym → r.Regular ei sym := by
  constructor
  · intro hright r hr sym hfor
    have hrewritten := Rewrites.rewritten hopen hr
    obtain ⟨hiff, hfile⟩ := (hrewritten.roundRight_iff hopen hfor).1 (hright.rounds r hr sym hfor)
    refine ⟨(accepted_iff_inside hfor.size).1 hiff, hfile, ?_⟩
    intro hacc hpos hzero
    -- the object that was filled in last has the same value
    obtain ⟨r₀, sym₀, r₀', hr₀, hstep₀, hfilled₀, hloadaddr⟩ := Rewrites.written hopen hr hpos
    obtain ⟨x, hsame⟩ := hright.same
    have hx₀ := hsame r₀ hr₀ sym₀ hfilled₀.considered r₀' hstep₀
    rcases rewriteRound_for name strtabOff size hfor hrewritten.fits with
      ⟨-, r', hstep, hfilled, -, -⟩ | ⟨hnot, -⟩
    · have hx := hsame r hr sym hfor r' hstep
      have hvalue : (r.value strtabOff size sym).sym = r.loadaddr := by
        rw [hloadaddr, ← hfilled.object, ← hfilled₀.object, hx, hx₀]
      change (if r.loadaddr = 0 then readLE r.ei.data (r.ei.symtabrefOffset sym) 8 else r.loadaddr) = r.loadaddr at hvalue
      rw [if_pos hzero] at hvalue
      exact hvalue.trans hzero
    · exact absurd hacc hnot
  · intro hregular
    refine ⟨?_, ?_, rewriting_ends hopen⟩
    · intro r hr sym hfor
      have hreg := hregular r hr sym hfor
      exact ((Rewrites.rewritten hopen hr).roundRight_iff hopen hfor).2
        ⟨(accepted_iff_inside hfor.size).2 hreg.room, hreg.overwritten⟩
    · by_cases hany : ∃ r₀ sym₀ r₀', Rewrites name strtabOff size ei loadaddr r₀ ∧
        rewriteRound name strtabOff.toNat size.toNat r₀ = .next r₀' ∧ Filled strtabOff size r₀ r₀' sym₀
      · obtain ⟨r₀, sym₀, r₀', hr₀, hstep₀, hfilled₀⟩ := hany
        refine ⟨r₀.value strtabOff size sym₀, ?_⟩
        intro r hr sym hfor r' hstep
        have hfilled := filled_of_next hfor (Rewrites.rewritten hopen hr).fits hstep
        rw [hfilled.object]
        rcases Reaches.total hr₀ hr with hlater | hbefore
        · exact same_later hopen hregular hr₀ hstep₀ hfilled₀ hlater hfor hfilled.accepted
        · exact (same_later hopen hregular hr hstep hfilled hbefore hfilled₀.considered hfilled₀.accepted).symm
      · refine ⟨⟨0, 0, 0, 0⟩, ?_⟩
        intro r hr sym hfor r' hstep
        exact absurd ⟨r, sym, r', hr, hstep, filled_of_next hfor (Rewrites.rewritten hopen hr).fits hstep⟩ hany

end Run

/-- An image with a section of `length` bytes at the address 0x1000, and an object `symtab` at its start. -/
def referenceFile (length : Nat) : File where
  data :=
    [(0, 4, elfMagic), (0x20, 8, 64), (0x28, 8, 120), (0x36, 2, elfProgramSize), (0x38, 2, 1), (0x3A, 2, elfSectionSize),
      (0x3C, 2, 4), (0x3E, 2, 1), (184 + 0x04, 4, elfShtStrtab), (184 + 0x18, 8, 376), (184 + 0x20, 8, 9),
      (248 + 0x04, 4, elfShtProgbits), (248 + 0x10, 8, 0x1000), (248 + 0x18, 8, 440), (248 + 0x20, 8, length), (312, 4, 1),
      (312 + 0x04, 4, elfShtSymtab), (312 + 0x18, 8, 392), (312 + 0x20, 8, 48), (312 + 0x28, 4, 1),
      (377, 7, 0x6261746D79732E), (416, 4, 2), (416 + 0x04, 1, 1), (416 + 0x06, 2, 2), (416 + 0x08, 8, 0x1000),
      (416 + 0x10, 8, 32)].foldl (fun m w => writeLE m w.1 w.2.1 w.2.2) fun _ => 0
  size := 480
  size_lt := by decide

/-- The bytes of `symtab`. -/
def referenceName : List UInt8 := [0x73, 0x79, 0x6D, 0x74, 0x61, 0x62]

/-- An object that fills its section is rejected. -/
theorem rewrites_not_right : (referenceFile 32).validate = .ok true ∧
    ¬ RewritesRight referenceName 0 0 (ofFile (referenceFile 32) 0) 0x100000 := by
  refine ⟨by decide +kernel, ?_⟩
  intro hright
  let start := (ofFile (referenceFile 32) 0).startRewriting referenceName 0x100000
  have hfor : start.For (symbolAt start.ei.data (start.ei.symbol 1)) :=
    ⟨⟨1, by decide +kernel, rfl⟩, by decide +kernel, by decide +kernel⟩
  have hround := hright.rounds start Reaches.refl _ hfor
  have hinside : start.ei.InsideSection (symbolAt start.ei.data (start.ei.symbol 1)) :=
    ⟨by decide +kernel, by decide +kernel, by decide +kernel⟩
  obtain ⟨r', hstep, -⟩ := hround.accepts hinside
  have hopen := opened_ofFile ((File.validate_true _).1 (by decide +kernel : (referenceFile 32).validate = .ok true)) 0
  have hfits := (rewritten_start hopen referenceName 0x100000).fits
  have haccepted : ¬ start.ei.Accepted (symbolAt start.ei.data (start.ei.symbol 1)) := by decide +kernel
  exact haccepted (filled_of_next hfor hfits hstep).accepted

/-- An image with two objects `symtab` in a section with room behind them. -/
def twoReferences : File where
  data :=
    [(0, 4, elfMagic), (0x20, 8, 64), (0x28, 8, 120), (0x36, 2, elfProgramSize), (0x38, 2, 1), (0x3A, 2, elfSectionSize),
      (0x3C, 2, 4), (0x3E, 2, 1), (184 + 0x04, 4, elfShtStrtab), (184 + 0x18, 8, 376), (184 + 0x20, 8, 9),
      (248 + 0x04, 4, elfShtProgbits), (248 + 0x10, 8, 0x1000), (248 + 0x18, 8, 464), (248 + 0x20, 8, 72), (312, 4, 1),
      (312 + 0x04, 4, elfShtSymtab), (312 + 0x18, 8, 392), (312 + 0x20, 8, 72), (312 + 0x28, 4, 1),
      (377, 7, 0x6261746D79732E), (416, 4, 2), (416 + 0x04, 1, 1), (416 + 0x06, 2, 2), (416 + 0x08, 8, 0x1000),
      (416 + 0x10, 8, 32), (440, 4, 2), (440 + 0x04, 1, 1), (440 + 0x06, 2, 2), (440 + 0x08, 8, 0x1020),
      (440 + 0x10, 8, 32)].foldl (fun m w => writeLE m w.1 w.2.1 w.2.2) fun _ => 0
  size := 536
  size_lt := by decide

/-- The states of the loop on this image: before the first object, between the two, and behind both. -/
def referenceState : Nat → Rewriting
  | 0 => (ofFile twoReferences 0).startRewriting referenceName 0x100000
  | n + 1 =>
    match rewriteRound referenceName 0 0 (referenceState n) with
    | .next r => r
    | .done _ => referenceState n

lemma referenceState_rewrites {r : Rewriting} (h : Rewrites referenceName 0 0 (ofFile twoReferences 0) 0x100000 r) :
    ∃ n ≤ 2, r = referenceState n := by
  refine Reaches.invariant (I := fun t => ∃ n ≤ 2, t = referenceState n) h ⟨0, by decide, rfl⟩ ?_
  rintro t u _ ⟨n, hn, rfl⟩ hstep
  have hround : rewriteRound referenceName 0 0 (referenceState n) = .next u := hstep
  have hnext : u = referenceState (n + 1) := by rw [referenceState, hround]
  refine ⟨n + 1, ?_, hnext⟩
  -- the loop ends behind the second object
  by_contra hlast
  obtain rfl : n = 2 := by omega
  have hnone : (referenceState 2).sym = none := by decide +kernel
  simp [rewriteRound, hnone] at hstep

/-- Both objects are filled in, with the same value. -/
theorem rewrites_right_sample : RewritesRight referenceName 0 0 (ofFile twoReferences 0) 0x100000 := by
  have hopen := opened_ofFile ((File.validate_true _).1 (by decide +kernel : twoReferences.validate = .ok true)) 0
  refine (rewrites_right_iff hopen referenceName 0 0 0x100000).2 ?_
  intro r hr sym hfor
  obtain ⟨n, hn, rfl⟩ := referenceState_rewrites hr
  obtain ⟨i, hi, rfl⟩ := hfor.current
  have hsym : (referenceState 0).sym = some 1 ∧ (referenceState 1).sym = some 2 ∧ (referenceState 2).sym = none := by
    decide +kernel
  obtain rfl | rfl | rfl : n = 0 ∨ n = 1 ∨ n = 2 := by omega
  · obtain rfl : i = 1 := Option.some.inj (hi.symm.trans hsym.1)
    refine ⟨fun _ _ => ⟨by decide +kernel, by decide +kernel, by decide +kernel⟩, fun _ _ => by decide +kernel, ?_⟩
    exact fun _ hpos => absurd hpos (Nat.lt_irrefl 0)
  · obtain rfl : i = 2 := Option.some.inj (hi.symm.trans hsym.2.1)
    have hloadaddr : (referenceState 1).loadaddr ≠ 0 := by decide +kernel
    refine ⟨fun _ _ => ⟨by decide +kernel, by decide +kernel, by decide +kernel⟩, fun _ _ => by decide +kernel, ?_⟩
    exact fun _ _ hzero => absurd hzero hloadaddr
  · rw [hsym.2.2] at hi
    cases hi

end Cs300Projects.WeensyOS.Elf
