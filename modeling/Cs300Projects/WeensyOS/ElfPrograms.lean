import Cs300Projects.WeensyOS.ElfShift

/-!
# Program headers

The search of `main` for a program header, and what it finds in a table with one header more.
-/

namespace Cs300Projects.WeensyOS.Elf

open Bytes Loop Symtab

namespace File

variable (f : File)

/-- The search for a program header that does not end before `l`. -/
def endsFrom (l i : Nat) : Bool := decide (l ≤ (pVa f.data (f.pht i) + pFilesz f.data (f.pht i)) % 2 ^ 64)

def findProgram (l : Nat) : Nat := seek (f.endsFrom l) (ePhnum f.data 0) 0

/-- The header that is found has `size` bytes at `off` loaded at `l`. -/
structure HasProgram (l off size : Nat) : Prop where
  lt : f.findProgram l < ePhnum f.data 0
  va : pVa f.data (f.pht (f.findProgram l)) = l
  offset : pOffset f.data (f.pht (f.findProgram l)) = off
  filesz : size ≤ pFilesz f.data (f.pht (f.findProgram l))

section

variable {f} {g : File} {i j l off size : Nat}

lemma findProgram_le : f.findProgram l ≤ ePhnum f.data 0 := by
  have hle := (seek_sought (f.endsFrom l) (ePhnum f.data 0) 0).le
  rwa [Nat.zero_add] at hle

lemma findProgram_eq (hj : j ≤ ePhnum f.data 0) (hbefore : ∀ i, i < j → f.endsFrom l i = false)
    (hhere : j < ePhnum f.data 0 → f.endsFrom l j = true) : f.findProgram l = j := by
  apply seek_eq
  refine ⟨Nat.zero_le j, ?_, fun i _ hi => hbefore i hi, ?_⟩
  · rwa [Nat.zero_add]
  · rwa [Nat.zero_add]

/-- The header `j` of `g` is the header `i` of `f`. -/
def SameProgram (f g : File) (i j : Nat) : Prop := ∀ x, x < elfProgramSize → g.data (g.pht j + x) = f.data (f.pht i + x)

lemma SameProgram.readLE (h : SameProgram f g i j) {o n : Nat} (ho : o + n ≤ elfProgramSize) :
    Bytes.readLE g.data (g.pht j + o) n = Bytes.readLE f.data (f.pht i + o) n := by
  apply readLE_shift
  intro x hx
  rw [Nat.add_assoc, Nat.add_assoc]
  exact h (o + x) (by omega)

lemma SameProgram.type (h : SameProgram f g i j) : pType g.data (g.pht j) = pType f.data (f.pht i) := by
  have htype := h.readLE (o := 0) (n := 4) (by decide)
  rwa [Nat.add_zero, Nat.add_zero] at htype

lemma SameProgram.va (h : SameProgram f g i j) : pVa g.data (g.pht j) = pVa f.data (f.pht i) := h.readLE (by decide)

lemma SameProgram.offset (h : SameProgram f g i j) : pOffset g.data (g.pht j) = pOffset f.data (f.pht i) := h.readLE (by decide)

lemma SameProgram.filesz (h : SameProgram f g i j) : pFilesz g.data (g.pht j) = pFilesz f.data (f.pht i) := h.readLE (by decide)

lemma SameProgram.endsFrom (h : SameProgram f g i j) (l : Nat) : g.endsFrom l j = f.endsFrom l i := by
  unfold File.endsFrom
  rw [h.va, h.filesz]

/-- `g` has the program headers of `f`. -/
structure SameTable (f g : File) : Prop where
  phnum : ePhnum g.data 0 = ePhnum f.data 0
  program : ∀ i, i < ePhnum f.data 0 → SameProgram f g i i

lemma SameTable.trans {h : File} (hg : SameTable f g) (hh : SameTable g h) : SameTable f h := by
  refine ⟨hh.phnum.trans hg.phnum, fun i hi x hx => ?_⟩
  rw [hh.program i (hg.phnum.symm ▸ hi) x hx]
  exact hg.program i hi x hx

lemma SameTable.of_frame {R : Nat → Prop} (h : Frame R f g) (hphoff : ePhoff g.data 0 = ePhoff f.data 0)
    (hphnum : ePhnum g.data 0 = ePhnum f.data 0)
    (hR : ∀ x, ePhoff f.data 0 ≤ x → x < ePhoff f.data 0 + elfProgramSize * ePhnum f.data 0 → ¬ R x) :
    SameTable f g := by
  refine ⟨hphnum, fun i hi x hx => ?_⟩
  have hpht : g.pht i = f.pht i := congrArg (· + elfProgramSize * i) hphoff
  rw [hpht]
  apply h.data
  unfold pht elfProgramSize at *
  exact hR _ (by omega) (by omega)

lemma Layout.program_not_contents {J : Nat → Prop} {x : Nat} (h : f.Layout) (hx : ePhoff f.data 0 ≤ x)
    (hlt : x < ePhoff f.data 0 + elfProgramSize * ePhnum f.data 0) : ¬ f.Contents J x := by
  rintro ⟨i, hi, -, hle, hlt'⟩
  have hapart := h.programs_content i hi
  unfold Apart at hapart
  omega

/-- A change of contents keeps the program headers. -/
lemma SameTable.of_contents {J : Nat → Prop} (hvalid : f.Valid) (hlayout : f.Layout) (hJ : ∀ j, J j → f.Mutable j)
    (h : Frame (f.Contents J) f g) : SameTable f g :=
  of_frame h (h.inPlace_contents hvalid hlayout hJ).phoff (h.phnum_contents hlayout) fun _ hx hlt =>
    hlayout.program_not_contents hx hlt

lemma SameTable.of_meta (hvalid : f.Valid) (hlayout : f.Layout) (hi : i < eShnum f.data 0) (h : Frame (f.MetaBytes i) f g)
    (htype : f.type i ≠ elfShtProgbits) : SameTable f g := by
  refine of_frame h (h.inPlace_meta hvalid hlayout hi htype).phoff (h.phnum_meta hlayout) ?_
  rintro x hx hlt ⟨o, ho, -, rfl⟩
  have htables := hlayout.tables
  unfold sht Apart elfSectionSize at *
  omega

lemma SameTable.findProgram (h : SameTable f g) (l : Nat) : g.findProgram l = f.findProgram l := by
  have hcongr : seek (g.endsFrom l) (ePhnum f.data 0) 0 = seek (f.endsFrom l) (ePhnum f.data 0) 0 := by
    apply seek_congr
    intro i _ hi
    exact (h.program i (by omega)).endsFrom l
  unfold File.findProgram
  rw [h.phnum, hcongr]

lemma SameTable.hasProgram (h : SameTable f g) : g.HasProgram l off size ↔ f.HasProgram l off size := by
  have hfind := h.findProgram l
  constructor
  · rintro ⟨hlt, hva, hoffset, hfilesz⟩
    rw [hfind] at hlt hva hoffset hfilesz
    rw [h.phnum] at hlt
    have hsame := h.program _ hlt
    exact ⟨hlt, hsame.va.symm.trans hva, hsame.offset.symm.trans hoffset, hsame.filesz ▸ hfilesz⟩
  · rintro ⟨hlt, hva, hoffset, hfilesz⟩
    have hsame := h.program _ hlt
    rw [← hfind] at hlt hva hoffset hfilesz hsame
    rw [← h.phnum] at hlt
    exact ⟨hlt, hsame.va.trans hva, hsame.offset.trans hoffset, hsame.filesz.symm ▸ hfilesz⟩

/-- `g` has one program header more, at the index `i`. -/
structure ProgramInserted (f g : File) (i l off size : Nat) : Prop where
  phnum : ePhnum g.data 0 = ePhnum f.data 0 + 1
  before : ∀ j, j < i → SameProgram f g j j
  after : ∀ j, i ≤ j → j < ePhnum f.data 0 → SameProgram f g j (j + 1)
  type : pType g.data (g.pht i) = elfPtypeLoad
  va : pVa g.data (g.pht i) = l
  offset : pOffset g.data (g.pht i) = off
  filesz : pFilesz g.data (g.pht i) = size

/-- The inserted header is found, unless its end wraps around. -/
lemma ProgramInserted.hasProgram_iff (h : ProgramInserted f g (f.findProgram l) l off size)
    (hnot : ¬ f.HasProgram l off size) (hl : l < 2 ^ 64) (hsize : size < 2 ^ 64) :
    g.HasProgram l off size ↔ l + size < 2 ^ 64 := by
  have hsought := seek_sought (f.endsFrom l) (ePhnum f.data 0) 0
  have hle := f.findProgram_le (l := l)
  have hphnum := h.phnum
  have hbefore : ∀ j, j < f.findProgram l → g.endsFrom l j = false := by
    intro j hj
    rw [(h.before j hj).endsFrom l]
    exact hsought.before j (Nat.zero_le j) hj
  have hhere : g.endsFrom l (f.findProgram l) = decide (l ≤ (l + size) % 2 ^ 64) := by
    unfold File.endsFrom
    rw [h.va, h.filesz]
  constructor
  · intro hfound
    by_contra hwrap
    have hpast : g.endsFrom l (f.findProgram l) = false := by
      rw [hhere]
      apply decide_eq_false
      omega
    -- the search comes to the header that the first one found, which was not the right one
    have hnext : g.findProgram l = f.findProgram l + 1 := by
      apply findProgram_eq
      · omega
      · intro j hj
        rcases Nat.lt_or_eq_of_le (Nat.le_of_lt_succ hj) with hlt | rfl
        · exact hbefore j hlt
        · exact hpast
      · intro hlt
        rw [(h.after _ (Nat.le_refl _) (by omega)).endsFrom l]
        exact hsought.here (by change f.findProgram l < _; omega)
    obtain ⟨hlt, hva, hoffset, hfilesz⟩ := hfound
    rw [hnext] at hlt hva hoffset hfilesz
    have hsame := h.after (f.findProgram l) (Nat.le_refl _) (by omega)
    rw [hsame.va] at hva
    rw [hsame.offset] at hoffset
    rw [hsame.filesz] at hfilesz
    exact hnot ⟨by omega, hva, hoffset, hfilesz⟩
  · intro hfits
    have hfind : g.findProgram l = f.findProgram l := by
      apply findProgram_eq
      · omega
      · exact hbefore
      · intro _
        rw [hhere]
        apply decide_eq_true
        omega
    refine ⟨?_, ?_, ?_, ?_⟩
    · omega
    · rw [hfind]
      exact h.va
    · rw [hfind]
      exact h.offset
    · rw [hfind, h.filesz]

end

end File

end Cs300Projects.WeensyOS.Elf
