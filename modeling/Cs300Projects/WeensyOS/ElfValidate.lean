import Cs300Projects.WeensyOS.Elf

/-!
# Validating an ELF file

`elf_info::validate` of `mkchickadeesymtab.cc`, where every read of the file contents is checked: the
model fails with the offset of the first read that is not inside the file. The names of the sections
are read before the section that holds them has been checked, so such a read can happen.
-/

namespace Cs300Projects.WeensyOS.Elf

/-- The contents of a file in memory. Offsets are `size_t`. -/
structure File where
  data : Nat → UInt8
  size : Nat
  size_lt : size < 2 ^ 64

namespace File

variable (f : File)

/-- The member of `n` bytes at offset `o`, or the offset of a read outside the file. -/
def get (o n : Nat) : Except Nat Nat := if o + n ≤ f.size then .ok (Bytes.readLE f.data o n) else .error o

/-- `fprintf` reads a string up to its end. -/
def scanFrom : Nat → Nat → Except Nat Unit
  | 0, o => .error o
  | n + 1, o => do if (← f.get o 1) = 0 then pure () else scanFrom n (o + 1)

def scan (o : Nat) : Except Nat Unit := f.scanFrom (f.size + 1) o

/-- A message with the string at `o`, after which `validate` returns. -/
def reject (o : Nat) : Except Nat Bool := do
  f.scan o
  pure false

/-- The checks of the `elf_header`. -/
def checkHeader : Except Nat Bool := do
  if f.size < elfHeaderSize then pure false
  else if (← f.get 0 4) ≠ elfMagic then pure false
  else
    let phentsize ← f.get 0x36 2
    let shentsize ← f.get 0x3A 2
    if phentsize ≠ elfProgramSize ∨ shentsize ≠ elfSectionSize then pure false
    else
      let phnum ← f.get 0x38 2
      let shnum ← f.get 0x3C 2
      if phnum = 0 ∨ shnum = 0 then pure false
      else
        let phoff ← f.get 0x20 8
        let shoff ← f.get 0x28 8
        pure !(f.size ≤ phoff || (f.size - phoff) / elfProgramSize < phnum || f.size ≤ shoff ||
          (f.size - shoff) / elfSectionSize < shnum)

/-- The offset of the section header `i`. -/
def sht (i : Nat) : Nat := eShoff f.data 0 + elfSectionSize * i

def getName (i : Nat) : Except Nat Nat := f.get (f.sht i) 4
def getType (i : Nat) : Except Nat Nat := f.get (f.sht i + 0x04) 4
def getOffset (i : Nat) : Except Nat Nat := f.get (f.sht i + 0x18) 8
def getSize (i : Nat) : Except Nat Nat := f.get (f.sht i + 0x20) 8
def getLink (i : Nat) : Except Nat Nat := f.get (f.sht i + 0x28) 4

/-- The section header string table: its offset and size, or `none` when it is rejected. -/
def checkShstrtab : Except Nat (Option (Nat × Nat)) := do
  let shstrndx ← f.get 0x3E 2
  if shstrndx = 0 ∨ (← f.get 0x3C 2) ≤ shstrndx then pure none
  else if (← f.getType shstrndx) ≠ elfShtStrtab then pure none
  else
    let size ← f.getSize shstrndx
    if size = 0 then pure none
    else
      let shstrtab ← f.getOffset shstrndx
      if (← f.get shstrtab 1) ≠ 0 then pure none
      else if (← f.get ((shstrtab + size - 1) % 2 ^ 64) 1) ≠ 0 then pure none
      else pure (some (shstrtab, size))

/-- The loop over the symbols of a section from symbol `j` on, of which `n` remain. -/
def checkNames (off strsize : Nat) : Nat → Nat → Except Nat Bool
  | _, 0 => pure true
  | j, n + 1 => do
    if strsize ≤ (← f.get (off + elfSymbolSize * j) 4) then pure false else checkNames off strsize (j + 1) n

/-- A round of the loop over sections. -/
def checkSection (shstrtab shstrtabSize i : Nat) : Except Nat Bool := do
  let type ← f.getType i
  if i = 0 ∧ type ≠ elfShtNull then pure false
  else
    let name ← f.getName i
    if shstrtabSize ≤ name then pure false
    else
      let secname := (shstrtab + name) % 2 ^ 64
      let first ← f.get secname 1
      let off ← f.getOffset i
      let size ← f.getSize i
      if type ≠ elfShtNull ∧ type ≠ elfShtNobits ∧ (f.size ≤ off ∨ f.size - off < size) then
        if first = 0 then pure false else f.reject secname
      else if type = elfShtSymtab then
        let link ← f.getLink i
        if (← f.get 0x3C 2) ≤ link then f.reject secname
        else if (← f.getType link) ≠ elfShtStrtab then f.reject secname
        else if ← f.checkNames off (← f.getSize link) 0 (size / elfSymbolSize) then pure true
        else f.reject secname
      else if type = elfShtStrtab then
        if size = 0 then f.reject secname
        else if (← f.get off 1) ≠ 0 then f.reject secname
        else if (← f.get (off + size - 1) 1) ≠ 0 then f.reject secname
        else pure true
      else pure true

/-- The loop over sections from section `i` on, of which `n` remain. -/
def checkSections (shstrtab shstrtabSize : Nat) : Nat → Nat → Except Nat Bool
  | _, 0 => pure true
  | i, n + 1 => do
    if ← f.checkSection shstrtab shstrtabSize i then checkSections shstrtab shstrtabSize (i + 1) n else pure false

def validate : Except Nat Bool := do
  if ← f.checkHeader then
    match ← f.checkShstrtab with
    | none => pure false
    | some (shstrtab, size) => f.checkSections shstrtab size 0 (← f.get 0x3C 2)
  else pure false

/-! ### What is checked -/

/-- The header describes a file with its program and section headers inside. -/
structure HeaderOk : Prop where
  size : elfHeaderSize ≤ f.size
  magic : eMagic f.data 0 = elfMagic
  phentsize : ePhentsize f.data 0 = elfProgramSize
  shentsize : eShentsize f.data 0 = elfSectionSize
  phnum : ePhnum f.data 0 ≠ 0
  shnum : eShnum f.data 0 ≠ 0
  phoff : ePhoff f.data 0 < f.size
  programs : ePhnum f.data 0 ≤ (f.size - ePhoff f.data 0) / elfProgramSize
  shoff : eShoff f.data 0 < f.size
  sections : eShnum f.data 0 ≤ (f.size - eShoff f.data 0) / elfSectionSize

/-- The section `i` of the file. -/
def name (i : Nat) : Nat := shName f.data (f.sht i)
def type (i : Nat) : Nat := shType f.data (f.sht i)
def offset (i : Nat) : Nat := shOffset f.data (f.sht i)
def sectionSize (i : Nat) : Nat := shSize f.data (f.sht i)
def link (i : Nat) : Nat := shLink f.data (f.sht i)

def shstrndx : Nat := eShstrndx f.data 0

/-- The header names a nonempty string table for the section names. -/
structure NamesStrtab : Prop where
  pos : f.shstrndx ≠ 0
  lt : f.shstrndx < eShnum f.data 0
  type : f.type f.shstrndx = elfShtStrtab
  size : f.sectionSize f.shstrndx ≠ 0

/-- The offset of the name of section `i`. -/
def nameOffset (i : Nat) : Nat := (f.offset f.shstrndx + f.name i) % 2 ^ 64

/-- A string that starts at `o` ends inside the file. -/
def Terminated (o : Nat) : Prop := ∃ k, o ≤ k ∧ k < f.size ∧ f.data k = 0

/-- The contents of section `i` are inside the file and as its type requires. -/
structure ContentOk (i : Nat) : Prop where
  bounds : f.type i ≠ elfShtNull → f.type i ≠ elfShtNobits →
    f.offset i < f.size ∧ f.sectionSize i ≤ f.size - f.offset i
  symtab : f.type i = elfShtSymtab → f.link i < eShnum f.data 0 ∧ f.type (f.link i) = elfShtStrtab ∧
    ∀ j, j < f.sectionSize i / elfSymbolSize →
      stName f.data (f.offset i + elfSymbolSize * j) < f.sectionSize (f.link i)
  strtab : f.type i = elfShtStrtab → f.sectionSize i ≠ 0 ∧ f.data (f.offset i) = 0 ∧
    f.data (f.offset i + f.sectionSize i - 1) = 0

/-- The loop goes on after section `i`. -/
structure Good (i : Nat) : Prop where
  null : i = 0 → f.type i = elfShtNull
  name : f.name i < f.sectionSize f.shstrndx
  content : f.ContentOk i

/-- The loop stays inside the file at section `i`: it rejects the section without its name, or the name
starts in the file and, where it is printed, ends there. -/
def Safe (i : Nat) : Prop :=
  (i = 0 ∧ f.type i ≠ elfShtNull) ∨ f.sectionSize f.shstrndx ≤ f.name i ∨
    (f.nameOffset i < f.size ∧ (f.ContentOk i ∨ f.Terminated (f.nameOffset i)))

/-! ### Reads -/

section Reads

variable {f} {o n : Nat}

lemma bind_ok {α β : Type} (a : α) (k : α → Except Nat β) : (Except.ok a >>= k) = k a := rfl

lemma bind_error {α β : Type} (e : Nat) (k : α → Except Nat β) : (Except.error e >>= k) = .error e := rfl

lemma error_ne_ok {α : Type} (e : Nat) : ¬ ∃ a : α, Except.error e = Except.ok a := by
  rintro ⟨a, ⟨⟩⟩

lemma get_ok (h : o + n ≤ f.size) : f.get o n = .ok (Bytes.readLE f.data o n) := if_pos h

lemma get_error (h : ¬ o + n ≤ f.size) : f.get o n = .error o := if_neg h

lemma readLE_one (m : Nat → UInt8) (a : Nat) : Bytes.readLE m a 1 = (m a).toNat := by
  simp [Bytes.readLE]

lemma readLE_one_eq_zero {m : Nat → UInt8} {a : Nat} : Bytes.readLE m a 1 = 0 ↔ m a = 0 := by
  rw [readLE_one]
  constructor
  · intro h
    exact UInt8.toNat_inj.1 h
  · intro h
    rw [h]
    rfl

lemma scanFrom_ok {k : Nat} (ho : o ≤ k) (hk : k < f.size) (hzero : f.data k = 0) (hn : k - o < n) :
    f.scanFrom n o = .ok () := by
  induction n generalizing o with
  | zero => omega
  | succ n ih =>
    rw [scanFrom, get_ok (by omega), bind_ok]
    split
    · rfl
    · rename_i hne
      have hlt : o ≠ k := fun heq => hne (readLE_one_eq_zero.2 (heq ▸ hzero))
      exact ih (by omega) (by omega)

lemma scanFrom_error (h : ¬ f.Terminated o) : ∃ e, f.scanFrom n o = .error e := by
  induction n generalizing o with
  | zero => exact ⟨o, rfl⟩
  | succ n ih =>
    rw [scanFrom]
    by_cases ho : o + 1 ≤ f.size
    · rw [get_ok ho, bind_ok, if_neg]
      · apply ih
        rintro ⟨k, hle, hlt, hzero⟩
        exact h ⟨k, by omega, hlt, hzero⟩
      · intro hzero
        exact h ⟨o, Nat.le_refl o, by omega, readLE_one_eq_zero.1 hzero⟩
    · rw [get_error ho]
      exact ⟨o, rfl⟩

/-- A string is printed without a read outside the file exactly when it ends inside. -/
lemma scan_ok (h : f.Terminated o) : f.scan o = .ok () := by
  obtain ⟨k, hle, hlt, hzero⟩ := h
  exact scanFrom_ok hle hlt hzero (by omega)

lemma scan_error (h : ¬ f.Terminated o) : ∃ e, f.scan o = .error e := scanFrom_error h

lemma reject_ok (h : f.Terminated o) : f.reject o = .ok false := by
  unfold reject
  rw [scan_ok h]
  rfl

lemma reject_error (h : ¬ f.Terminated o) : ∃ e, f.reject o = .error e := by
  obtain ⟨e, he⟩ := scan_error h
  refine ⟨e, ?_⟩
  unfold reject
  rw [he]
  rfl

end Reads

/-! ### The header and the names -/

variable {f}

/-- The check `x` decides `P`. -/
def Decides (x : Except Nat Bool) (P : Prop) : Prop := ∃ b, x = .ok b ∧ (b = true ↔ P)

lemma Decides.false {P : Prop} (h : ¬ P) : Decides (.ok false) P := ⟨_, rfl, by simp [h]⟩

lemma Decides.true {P : Prop} (h : P) : Decides (.ok true) P := ⟨_, rfl, by simp [h]⟩

lemma checkHeader_spec : Decides f.checkHeader f.HeaderOk := by
  unfold checkHeader
  by_cases hsize : f.size < elfHeaderSize
  · rw [if_pos hsize]
    exact .false fun h => absurd h.size (Nat.not_le.2 hsize)
  rw [if_neg hsize]
  have hget : ∀ o n, o + n ≤ elfHeaderSize → f.get o n = .ok (Bytes.readLE f.data o n) :=
    fun o n hon => get_ok (Nat.le_trans hon (Nat.not_lt.1 hsize))
  rw [hget 0 4 (by decide), bind_ok]
  split
  · rename_i hmagic
    exact .false fun h => hmagic h.magic
  rename_i hmagic
  rw [hget 0x36 2 (by decide), bind_ok, hget 0x3A 2 (by decide), bind_ok]
  split
  · rename_i hentsize
    exact .false fun h => hentsize.elim (· h.phentsize) (· h.shentsize)
  rename_i hentsize
  rw [hget 0x38 2 (by decide), bind_ok, hget 0x3C 2 (by decide), bind_ok]
  split
  · rename_i hnum
    exact .false fun h => hnum.elim h.phnum h.shnum
  rename_i hnum
  rw [hget 0x20 8 (by decide), bind_ok, hget 0x28 8 (by decide), bind_ok]
  rw [not_or, not_not, not_not] at hentsize
  rw [not_or] at hnum
  refine ⟨_, rfl, ?_, ?_⟩
  · intro hoffsets
    simp only [Bool.not_eq_true', Bool.or_eq_false_iff, decide_eq_false_iff_not, not_le, not_lt] at hoffsets
    obtain ⟨⟨⟨hphoff, hprograms⟩, hshoff⟩, hsections⟩ := hoffsets
    exact ⟨Nat.not_lt.1 hsize, not_not.1 hmagic, hentsize.1, hentsize.2, hnum.1, hnum.2, hphoff, hprograms, hshoff,
      hsections⟩
  · intro h
    simp only [Bool.not_eq_true', Bool.or_eq_false_iff, decide_eq_false_iff_not, not_le, not_lt]
    exact ⟨⟨⟨h.phoff, h.programs⟩, h.shoff⟩, h.sections⟩

section Sections

variable {i : Nat}

lemma HeaderOk.get (h : f.HeaderOk) {o n : Nat} (hon : o + n ≤ elfHeaderSize) :
    f.get o n = .ok (Bytes.readLE f.data o n) :=
  get_ok (Nat.le_trans hon h.size)

lemma HeaderOk.getShstrndx (h : f.HeaderOk) : f.get 0x3E 2 = .ok f.shstrndx := h.get (by decide)

lemma HeaderOk.getShnum (h : f.HeaderOk) : f.get 0x3C 2 = .ok (eShnum f.data 0) := h.get (by decide)

lemma HeaderOk.sht_le (h : f.HeaderOk) (hi : i < eShnum f.data 0) : f.sht i + elfSectionSize ≤ f.size := by
  have hsections := h.sections
  have hshoff := h.shoff
  unfold sht
  unfold elfSectionSize at *
  omega

lemma HeaderOk.getName (h : f.HeaderOk) (hi : i < eShnum f.data 0) : f.getName i = .ok (f.name i) :=
  get_ok (Nat.le_trans (Nat.add_le_add_left (by decide) _) (h.sht_le hi))

lemma HeaderOk.getType (h : f.HeaderOk) (hi : i < eShnum f.data 0) : f.getType i = .ok (f.type i) := by
  apply get_ok
  have hle := h.sht_le hi
  unfold elfSectionSize at hle
  omega

lemma HeaderOk.getOffset (h : f.HeaderOk) (hi : i < eShnum f.data 0) : f.getOffset i = .ok (f.offset i) := by
  apply get_ok
  have hle := h.sht_le hi
  unfold elfSectionSize at hle
  omega

lemma HeaderOk.getSize (h : f.HeaderOk) (hi : i < eShnum f.data 0) : f.getSize i = .ok (f.sectionSize i) := by
  apply get_ok
  have hle := h.sht_le hi
  unfold elfSectionSize at hle
  omega

lemma HeaderOk.getLink (h : f.HeaderOk) (hi : i < eShnum f.data 0) : f.getLink i = .ok (f.link i) := by
  apply get_ok
  have hle := h.sht_le hi
  unfold elfSectionSize at hle
  omega

lemma checkShstrtab_unnamed (h : f.HeaderOk) (hnamed : ¬ f.NamesStrtab) : f.checkShstrtab = .ok none := by
  unfold checkShstrtab
  rw [h.getShstrndx, bind_ok, h.getShnum, bind_ok]
  split
  · rfl
  rename_i hndx
  rw [not_or, Nat.not_le] at hndx
  rw [h.getType hndx.2, bind_ok]
  split
  · rfl
  rename_i htype
  rw [h.getSize hndx.2, bind_ok, if_pos]
  · rfl
  · by_contra hsize
    exact hnamed ⟨hndx.1, hndx.2, not_not.1 htype, hsize⟩

lemma checkShstrtab_named (h : f.HeaderOk) (hnamed : f.NamesStrtab) : f.checkShstrtab = (do
    if (← f.get (f.offset f.shstrndx) 1) ≠ 0 then pure none
    else if (← f.get ((f.offset f.shstrndx + f.sectionSize f.shstrndx - 1) % 2 ^ 64) 1) ≠ 0 then pure none
    else pure (some (f.offset f.shstrndx, f.sectionSize f.shstrndx))) := by
  unfold checkShstrtab
  rw [h.getShstrndx, bind_ok, h.getShnum, bind_ok, if_neg (not_or.2 ⟨hnamed.pos, Nat.not_le.2 hnamed.lt⟩),
    h.getType hnamed.lt, bind_ok, if_neg (not_not.2 hnamed.type), h.getSize hnamed.lt, bind_ok,
    if_neg hnamed.size, h.getOffset hnamed.lt, bind_ok]

/-! ### Sections -/

lemma checkNames_spec (off strsize n j : Nat) (hin : off + elfSymbolSize * (j + n) ≤ f.size) :
    Decides (f.checkNames off strsize j n)
      (∀ k, j ≤ k → k < j + n → stName f.data (off + elfSymbolSize * k) < strsize) := by
  induction n generalizing j with
  | zero => exact .true fun k hle hlt => absurd hlt (Nat.not_lt.2 hle)
  | succ n ih =>
    unfold elfSymbolSize at *
    rw [checkNames, get_ok (by unfold elfSymbolSize; omega), bind_ok]
    split
    · rename_i hbad
      refine .false fun h => absurd (h j (Nat.le_refl j) (by omega)) (Nat.not_lt.2 hbad)
    · rename_i hgood
      obtain ⟨b, hb, hiff⟩ := ih (j + 1) (by omega)
      refine ⟨b, hb, hiff.trans ⟨fun h k hle hlt => ?_, fun h k hle hlt => h k (by omega) (by omega)⟩⟩
      rcases Nat.lt_or_eq_of_le hle with hjk | rfl
      · exact h k hjk (by omega)
      · exact Nat.not_le.1 hgood

/-- How the round for section `i` ends. -/
def Outcome (f : File) (x : Except Nat Bool) (i : Nat) : Prop :=
  (f.Safe i ∧ Decides x (f.Good i)) ∨ (¬ f.Safe i ∧ ∃ e, x = .error e)

section Outcome

variable (hnull : ¬ (i = 0 ∧ f.type i ≠ elfShtNull)) (hname : f.name i < f.sectionSize f.shstrndx)
  (hread : f.nameOffset i < f.size)
include hnull hname hread

lemma outcome_good (hcontent : f.ContentOk i) : Outcome f (.ok true) i :=
  Or.inl ⟨Or.inr (Or.inr ⟨hread, Or.inl hcontent⟩),
    .true ⟨fun hi => by_contra fun htype => hnull ⟨hi, htype⟩, hname, hcontent⟩⟩

lemma outcome_reject (hcontent : ¬ f.ContentOk i) : Outcome f (f.reject (f.nameOffset i)) i := by
  by_cases hterminated : f.Terminated (f.nameOffset i)
  · rw [reject_ok hterminated]
    exact Or.inl ⟨Or.inr (Or.inr ⟨hread, Or.inr hterminated⟩), .false fun h => hcontent h.content⟩
  · refine Or.inr ⟨?_, reject_error hterminated⟩
    rintro (hfirst | hlong | ⟨-, hok | hprinted⟩)
    · exact hnull hfirst
    · exact absurd hname (Nat.not_lt.2 hlong)
    · exact hcontent hok
    · exact hterminated hprinted

end Outcome

lemma checkSection_outcome (h : f.HeaderOk) (hi : i < eShnum f.data 0) :
    Outcome f (f.checkSection (f.offset f.shstrndx) (f.sectionSize f.shstrndx) i) i := by
  unfold checkSection
  rw [h.getType hi, bind_ok]
  split
  · rename_i hnull
    exact Or.inl ⟨Or.inl hnull, .false fun hgood => hnull.2 (hgood.null hnull.1)⟩
  rename_i hnull
  rw [h.getName hi, bind_ok]
  split
  · rename_i hlong
    exact Or.inl ⟨Or.inr (Or.inl hlong), .false fun hgood => absurd hgood.name (Nat.not_lt.2 hlong)⟩
  rename_i hname
  rw [Nat.not_le] at hname
  change Outcome f (do let first ← f.get (f.nameOffset i) 1; _) i
  by_cases hread : f.nameOffset i + 1 ≤ f.size
  swap
  · rw [get_error hread]
    refine Or.inr ⟨?_, _, rfl⟩
    rintro (hfirst | hlong | ⟨hin, -⟩)
    · exact hnull hfirst
    · exact absurd hname (Nat.not_lt.2 hlong)
    · exact hread hin
  rw [get_ok hread, bind_ok, h.getOffset hi, bind_ok, h.getSize hi, bind_ok]
  split
  · -- the offset or the size is bad
    rename_i hbad
    have hcontent : ¬ f.ContentOk i := fun hok => by
      have hbounds := hok.bounds hbad.1 hbad.2.1
      rcases hbad.2.2 with hoff | hsize
      · omega
      · omega
    split
    · rename_i hempty
      refine Or.inl ⟨Or.inr (Or.inr ⟨hread, Or.inr ⟨f.nameOffset i, Nat.le_refl _, hread, ?_⟩⟩),
        .false fun hgood => hcontent hgood.content⟩
      exact readLE_one_eq_zero.1 hempty
    · exact outcome_reject hnull hname hread hcontent
  rename_i hbounds
  have hin : f.type i ≠ elfShtNull → f.type i ≠ elfShtNobits →
      f.offset i < f.size ∧ f.sectionSize i ≤ f.size - f.offset i := by
    intro hne hne'
    by_contra hout
    apply hbounds
    refine ⟨hne, hne', ?_⟩
    omega
  split
  · -- a symbol table
    rename_i hsymtab
    have hinside := hin (by rw [hsymtab]; decide) (by rw [hsymtab]; decide)
    have hnotStrtab : f.type i ≠ elfShtStrtab := by
      rw [hsymtab]
      decide
    rw [h.getLink hi, bind_ok, h.getShnum, bind_ok]
    split
    · rename_i hlink
      exact outcome_reject hnull hname hread fun hok => absurd (hok.symtab hsymtab).1 (Nat.not_lt.2 hlink)
    rename_i hlink
    rw [Nat.not_le] at hlink
    rw [h.getType hlink, bind_ok]
    split
    · rename_i htype
      exact outcome_reject hnull hname hread fun hok => htype (hok.symtab hsymtab).2.1
    rename_i htype
    rw [h.getSize hlink, bind_ok]
    have hnames := checkNames_spec (f := f) (f.offset i) (f.sectionSize (f.link i))
      (f.sectionSize i / elfSymbolSize) 0 (by unfold elfSymbolSize; omega)
    obtain ⟨b, hb, hiff⟩ := hnames
    rw [hb, bind_ok]
    split
    · rename_i htrue
      apply outcome_good hnull hname hread
      refine ⟨hin, fun _ => ⟨hlink, not_not.1 htype, fun j hj => ?_⟩, fun hstrtab => absurd hstrtab hnotStrtab⟩
      exact hiff.1 htrue j (Nat.zero_le j) (by omega)
    · rename_i hfalse
      apply outcome_reject hnull hname hread
      intro hok
      exact hfalse (hiff.2 fun k _ hk => (hok.symtab hsymtab).2.2 k (by omega))
  rename_i hnotSymtab
  split
  · -- a string table
    rename_i hstrtab
    have hinside := hin (by rw [hstrtab]; decide) (by rw [hstrtab]; decide)
    split
    · rename_i hempty
      exact outcome_reject hnull hname hread fun hok => (hok.strtab hstrtab).1 hempty
    rename_i hsize
    rw [get_ok (by omega), bind_ok]
    split
    · rename_i hfirst
      exact outcome_reject hnull hname hread fun hok => hfirst (readLE_one_eq_zero.2 (hok.strtab hstrtab).2.1)
    rename_i hfirst
    rw [get_ok (by omega), bind_ok]
    split
    · rename_i hlast
      exact outcome_reject hnull hname hread fun hok => hlast (readLE_one_eq_zero.2 (hok.strtab hstrtab).2.2)
    rename_i hlast
    apply outcome_good hnull hname hread
    exact ⟨hin, fun hsymtab => absurd hsymtab hnotSymtab, fun _ => ⟨hsize, readLE_one_eq_zero.1 (not_not.1 hfirst),
      readLE_one_eq_zero.1 (not_not.1 hlast)⟩⟩
  · rename_i hnotStrtab
    apply outcome_good hnull hname hread
    exact ⟨hin, fun hsymtab => absurd hsymtab hnotSymtab, fun hstrtab => absurd hstrtab hnotStrtab⟩

lemma checkSections_ok (h : f.HeaderOk) (n i : Nat) (hn : i + n = eShnum f.data 0) :
    (∃ b, f.checkSections (f.offset f.shstrndx) (f.sectionSize f.shstrndx) i n = .ok b) ↔
      ∀ k, i ≤ k → k < i + n → (∀ j, i ≤ j → j < k → f.Good j) → f.Safe k := by
  induction n generalizing i with
  | zero => exact ⟨fun _ k hle hlt => absurd hlt (Nat.not_lt.2 hle), fun _ => ⟨true, rfl⟩⟩
  | succ n ih =>
    rw [checkSections]
    rcases checkSection_outcome h (i := i) (by omega) with ⟨hsafe, b, hb, hgood⟩ | ⟨hnotSafe, e, he⟩
    · rw [hb, bind_ok]
      cases b with
      | true =>
        rw [if_pos rfl, ih (i + 1) (by omega)]
        constructor
        · intro hrest k hle hlt hbefore
          rcases Nat.lt_or_eq_of_le hle with hik | rfl
          · exact hrest k hik (by omega) fun j hj => hbefore j (by omega)
          · exact hsafe
        · intro hall k hle hlt hbefore
          apply hall k (by omega) (by omega)
          intro j hj hjk
          rcases Nat.lt_or_eq_of_le hj with hij | rfl
          · exact hbefore j hij hjk
          · exact hgood.1 rfl
      | false =>
        rw [if_neg (by decide)]
        refine ⟨fun _ k hle hlt hbefore => ?_, fun _ => ⟨false, rfl⟩⟩
        rcases Nat.lt_or_eq_of_le hle with hik | rfl
        · -- no later section is reached
          exact absurd (hgood.2 (hbefore i (Nat.le_refl i) hik)) (by decide)
        · exact hsafe
    · rw [he, bind_error]
      constructor
      · exact fun hok => absurd hok (error_ne_ok e)
      · intro hall
        exact absurd (hall i (Nat.le_refl i) (by omega) fun j hle hlt => absurd hlt (Nat.not_lt.2 hle)) hnotSafe

end Sections

/-! ### Main results -/

/-- The offset of the last byte of the section names. -/
def lastName (f : File) : Nat := (f.offset f.shstrndx + f.sectionSize f.shstrndx - 1) % 2 ^ 64

/-- The bytes of the section names that `validate` reads are in the file: the first, the last, and those of
the sections up to the first one that is rejected. -/
def NamesInFile (f : File) : Prop :=
  f.offset f.shstrndx < f.size ∧ (f.data (f.offset f.shstrndx) = 0 →
    f.lastName < f.size ∧ (f.data f.lastName = 0 →
      ∀ i, i < eShnum f.data 0 → (∀ j, j < i → f.Good j) → f.Safe i))

/-- `validate` stays inside the file exactly when it does so where it reads the section names. -/
lemma validate_ok_iff (f : File) :
    (∃ b, f.validate = .ok b) ↔ (f.HeaderOk → f.NamesStrtab → f.NamesInFile) := by
  obtain ⟨b, hb, hheader⟩ := checkHeader_spec (f := f)
  unfold validate
  rw [hb, bind_ok]
  by_cases h : f.HeaderOk
  swap
  · rw [if_neg (fun htrue => h (hheader.1 htrue))]
    exact ⟨fun _ hok => absurd hok h, fun _ => ⟨false, rfl⟩⟩
  rw [if_pos (hheader.2 h)]
  by_cases hnamed : f.NamesStrtab
  swap
  · rw [checkShstrtab_unnamed h hnamed, bind_ok]
    exact ⟨fun _ _ hok => absurd hok hnamed, fun _ => ⟨false, rfl⟩⟩
  rw [checkShstrtab_named h hnamed, forall_prop_of_true h, forall_prop_of_true hnamed]
  unfold NamesInFile
  by_cases hfirst : f.offset f.shstrndx + 1 ≤ f.size
  swap
  · rw [get_error hfirst, bind_error, bind_error]
    exact ⟨fun hok => absurd hok (error_ne_ok _), fun hin => absurd hin.1 hfirst⟩
  rw [get_ok hfirst, bind_ok]
  by_cases hzero : f.data (f.offset f.shstrndx) = 0
  swap
  · rw [if_pos (fun hread => hzero (readLE_one_eq_zero.1 hread))]
    exact ⟨fun _ => ⟨hfirst, fun hread => absurd hread hzero⟩, fun _ => ⟨false, rfl⟩⟩
  rw [if_neg (not_not.2 (readLE_one_eq_zero.2 hzero)), forall_prop_of_true hzero]
  change (∃ b, (do
    let r ← (do if (← f.get f.lastName 1) ≠ 0 then pure none else _)
    _) = Except.ok b) ↔ _
  by_cases hlast : f.lastName + 1 ≤ f.size
  swap
  · rw [get_error hlast, bind_error, bind_error]
    exact ⟨fun hok => absurd hok (error_ne_ok _), fun hin => absurd hin.2.1 hlast⟩
  rw [get_ok hlast, bind_ok]
  by_cases hlastZero : f.data f.lastName = 0
  swap
  · rw [if_pos (fun hread => hlastZero (readLE_one_eq_zero.1 hread))]
    exact ⟨fun _ => ⟨hfirst, hlast, fun hread => absurd hread hlastZero⟩, fun _ => ⟨false, rfl⟩⟩
  rw [if_neg (not_not.2 (readLE_one_eq_zero.2 hlastZero)), forall_prop_of_true hlastZero]
  change (∃ b, (do
    let n ← f.get 0x3C 2
    f.checkSections (f.offset f.shstrndx) (f.sectionSize f.shstrndx) 0 n) = Except.ok b) ↔ _
  rw [h.getShnum, bind_ok, checkSections_ok h _ _ (Nat.zero_add _)]
  constructor
  · exact fun hall => ⟨hfirst, hlast, fun i hi hbefore =>
      hall i (Nat.zero_le i) (by omega) fun j _ hj => hbefore j hj⟩
  · exact fun hin k _ hk hbefore => hin.2.2 k (by omega) fun j hj => hbefore j (Nat.zero_le j) hj

/-- When the section names are inside the file, every section is safe. -/
lemma namesInFile_of_inside (hnamed : f.NamesStrtab)
    (hinside : f.offset f.shstrndx + f.sectionSize f.shstrndx ≤ f.size) : f.NamesInFile := by
  have hsize := f.size_lt
  have hpos := hnamed.size
  have hlast : f.lastName = f.offset f.shstrndx + f.sectionSize f.shstrndx - 1 := Nat.mod_eq_of_lt (by omega)
  unfold NamesInFile
  rw [hlast]
  refine ⟨by omega, fun _ => ⟨by omega, fun hzero i _ _ => ?_⟩⟩
  by_cases hname : f.name i < f.sectionSize f.shstrndx
  · have hoffset : f.nameOffset i = f.offset f.shstrndx + f.name i := Nat.mod_eq_of_lt (by omega)
    unfold Safe
    rw [hoffset]
    exact Or.inr (Or.inr ⟨by omega, Or.inr ⟨_, by omega, by omega, hzero⟩⟩)
  · exact Or.inr (Or.inl (Nat.not_lt.1 hname))

/-- `validate` reads inside the file exactly when the section names that it comes to are there, and so it
does when the whole table of section names is inside the file. -/
theorem validate_in_bounds (f : File) :
    ((∃ b, f.validate = .ok b) ↔ (f.HeaderOk → f.NamesStrtab → f.NamesInFile)) ∧
      (f.offset f.shstrndx + f.sectionSize f.shstrndx ≤ f.size → ∃ b, f.validate = .ok b) := by
  refine ⟨validate_ok_iff f, fun hinside => ?_⟩
  rw [validate_ok_iff]
  exact fun _ hnamed => namesInFile_of_inside hnamed hinside

/-- A file of 248 bytes whose only table of section names starts at `off`. -/
def sampleFile (off : Nat) : File where
  data :=
    [(0, 4, elfMagic), (0x20, 8, 64), (0x28, 8, 120), (0x36, 2, elfProgramSize), (0x38, 2, 1), (0x3A, 2, elfSectionSize),
      (0x3C, 2, 2), (0x3E, 2, 1), (184 + 0x04, 4, elfShtStrtab), (184 + 0x18, 8, off), (184 + 0x20, 8, 1)].foldl
        (fun m w => Bytes.writeLE m w.1 w.2.1 w.2.2) fun _ => 0
  size := 248
  size_lt := by decide

example : (sampleFile 4).validate = .ok true := by decide +kernel

/-- The first byte of the section names is read before the bounds of the section are checked. -/
theorem validate_reads_outside : ¬ ∃ b, (sampleFile 0x1000).validate = .ok b := by
  have hread : (sampleFile 0x1000).validate = .error 0x1000 := by decide +kernel
  rw [hread]
  exact error_ne_ok 0x1000

end File

end Cs300Projects.WeensyOS.Elf
