import Cs300Projects.WeensyOS.Boot

/-!
# What the boot loader has loaded

When `boot` jumps to the kernel, the memory of every program header holds its bytes of the ELF
file followed by zeros, as long as the image can be addressed by the drive's 28-bit sector
numbers and by 64-bit pointers. It does jump when all segments lie in the first GiB and outside of
the memory that the loader runs in.
-/

namespace Cs300Projects.WeensyOS.Boot

open Bytes Loop Elf

/-- The bytes of the ELF file, which starts at the kernel's first sector. -/
def Disks.file (d : Disks) (i : Nat) : UInt8 := d.first (sectorsize * kernelStartSector + i)

/-- The offset of a program header in the file. -/
def phAt (f : Nat → UInt8) (i : Nat) : Nat := ePhoff f 0 + elfProgramSize * i

/-- The bytes of memory that a segment may write: whole sectors, then the bss. -/
def destStart (va : Nat) : Nat := va - va % sectorsize

def destEnd (va filesz memsz : Nat) : Nat :=
  max (va + memsz) ((va + filesz + (sectorsize - 1)) / sectorsize * sectorsize)

def InDest (f : Nat → UInt8) (i x : Nat) : Prop :=
  destStart (pVa f (phAt f i)) ≤ x ∧
    x < destEnd (pVa f (phAt f i)) (pFilesz f (phAt f i)) (pMemsz f (phAt f i))

/-- An ELF kernel whose segments can be loaded in any order. -/
structure Image (f : Nat → UInt8) : Prop where
  magic : eMagic f 0 = elfMagic
  table : ePhoff f 0 + elfProgramSize * ePhnum f 0 ≤ pagesize
  aligned : ∀ i, i < ePhnum f 0 →
    pVa f (phAt f i) % sectorsize = pOffset f (phAt f i) % sectorsize
  disjoint : ∀ i j x, i < ePhnum f 0 → j < ePhnum f 0 → i ≠ j → InDest f i x → ¬ InDest f j x
  scratch : ∀ i x, i < ePhnum f 0 → InDest f i x → Outside x elfhdr pagesize

/-- The pointers and the sector numbers of the segments do not overflow. -/
structure Addressable (f : Nat → UInt8) : Prop where
  dest : ∀ i, i < ePhnum f 0 →
    destEnd (pVa f (phAt f i)) (pFilesz f (phAt f i)) (pMemsz f (phAt f i)) < 2 ^ 64
  sectors : ∀ i k, i < ePhnum f 0 →
    sectorsize * k < pVa f (phAt f i) % sectorsize + pFilesz f (phAt f i) →
    kernelStartSector + pOffset f (phAt f i) / sectorsize + k < 2 ^ 28

/-- The segments lie in the first GiB and outside of the loader's own memory. -/
def Reachable (f : Nat → UInt8) : Prop := ∀ i x, i < ePhnum f 0 → InDest f i x → Writable x

/-- The memory of one program header holds its bytes of the file, then zeros. -/
def SegmentLoaded (f m : Nat → UInt8) (i : Nat) : Prop :=
  (∀ k, k < pFilesz f (phAt f i) → m (pVa f (phAt f i) + k) = f (pOffset f (phAt f i) + k)) ∧
    ∀ k, pFilesz f (phAt f i) ≤ k → k < pMemsz f (phAt f i) → m (pVa f (phAt f i) + k) = 0

/-! ### The two loops of `boot_readseg` -/

section Stores

variable {dst n : Nat} {m : Nat → UInt8}

lemma stored_of (h : AllWritable dst n) : stored dst n m = some m := if_pos h

lemma stored_of_not (h : ¬AllWritable dst n) : stored dst n m = none := if_neg h

lemma AllWritable.mono {dst' n' : Nat} (h : AllWritable dst n) (hle : dst ≤ dst') (hend : dst' + n' ≤ dst + n) :
    AllWritable dst' n' := fun x hx hlt => h x (by omega) (by omega)

/-- The `n` bytes from `dst` on are stored one part after the other. -/
def StoresTo (r : Option (Nat → UInt8)) (m : Nat → UInt8) (dst n : Nat) : Prop :=
  r = some m ∨ r = none ∧ ¬AllWritable dst n

lemma StoresTo.mono {r : Option (Nat → UInt8)} {dst' n' : Nat} (h : StoresTo r m dst n) (hle : dst' ≤ dst)
    (hend : dst + n ≤ dst' + n') : StoresTo r m dst' n' :=
  h.imp id fun hnone => ⟨hnone.1, fun hall => hnone.2 (hall.mono hle hend)⟩

end Stores

/-- The sector loop copies a run of consecutive sectors. -/
lemma run_sectors (d : Disks) {endPtr : Nat} (hend : endPtr + sectorsize ≤ 2 ^ 64) (n : Nat) :
    ∀ (start s fuel : Nat) (m : Nat → UInt8), n = (endPtr - start + (sectorsize - 1)) / sectorsize →
      (∀ k, start + sectorsize * k < endPtr → s + k < 2 ^ 28) → n < fuel →
      ∃ r, run (sectorRound d endPtr) fuel (start, UInt32.ofNat s, m) = some r ∧
        StoresTo r (blit m start (sectorsize * n) (fun k => d.first (sectorsize * s + k))) start (sectorsize * n) := by
  induction n with
  | zero =>
    intro start s fuel m hn hs hfuel
    obtain ⟨fuel, rfl⟩ : ∃ fuel', fuel = fuel' + 1 := ⟨fuel - 1, by omega⟩
    have hdone : ¬ start < endPtr := by
      simp only [sectorsize] at hn
      omega
    refine ⟨some m, run_done _ (by rw [sectorRound, if_neg hdone]) fuel, Or.inl ?_⟩
    rw [Nat.mul_zero, blit_zero]
  | succ n ih =>
    intro start s fuel m hn hs hfuel
    obtain ⟨fuel, rfl⟩ : ∃ fuel', fuel = fuel' + 1 := ⟨fuel - 1, by omega⟩
    simp only [sectorsize] at hn hs hend
    have hround : start < endPtr := by omega
    have hsector : s < 2 ^ 28 := hs 0 (by omega)
    by_cases hfirst : AllWritable start sectorsize
    · have hnext : sectorRound d endPtr (start, UInt32.ofNat s, m) =
          .next (start + sectorsize, UInt32.ofNat (s + 1),
            blit m start sectorsize (fun k => d.first (sectorsize * s + k))) := by
        rw [sectorRound, if_pos hround, bootReadsect_eq d m start hsector, stored_of hfirst]
        dsimp only
        rw [Nat.mod_eq_of_lt (by simp only [sectorsize]; omega), UInt32.ofNat_add]
        rfl
      obtain ⟨r, hrun, hr⟩ := ih (start + sectorsize) (s + 1) fuel
        (blit m start sectorsize (fun k => d.first (sectorsize * s + k))) (by simp only [sectorsize]; omega)
        (fun k hk => by
          have hlt := hs (k + 1) (by simp only [sectorsize] at hk; omega)
          omega) (by omega)
      refine ⟨r, (run_next _ hnext fuel).trans hrun, ?_⟩
      have hsource : (fun k => d.first (sectorsize * (s + 1) + k)) =
          fun k => (fun k => d.first (sectorsize * s + k)) (sectorsize + k) := by
        funext k
        simp only [Nat.mul_succ, Nat.add_assoc]
      rw [hsource, blit_append] at hr
      rw [Nat.mul_succ, Nat.add_comm (sectorsize * n)]
      exact hr.mono (Nat.le_add_right _ _) (by omega)
    · have hdone : sectorRound d endPtr (start, UInt32.ofNat s, m) = .done none := by
        rw [sectorRound, if_pos hround, bootReadsect_eq d m start hsector, stored_of_not hfirst]
      refine ⟨none, run_done _ hdone fuel, Or.inr ⟨rfl, fun hall => hfirst (hall.mono (Nat.le_refl _) ?_)⟩⟩
      simp only [sectorsize]
      omega

/-- The second loop clears the rest of the segment. -/
lemma run_clear {memEnd : Nat} (hend : memEnd < 2 ^ 64) (n : Nat) :
    ∀ (start fuel : Nat) (m : Nat → UInt8), n = memEnd - start → n < fuel →
      ∃ r, run (clearRound memEnd) fuel (start, m) = some r ∧ StoresTo r (fill m start 0 n) start n := by
  induction n with
  | zero =>
    intro start fuel m hn hfuel
    obtain ⟨fuel, rfl⟩ : ∃ fuel', fuel = fuel' + 1 := ⟨fuel - 1, by omega⟩
    have hfill : fill m start 0 0 = m := by
      funext x
      exact fill_outside (by unfold Outside; omega)
    refine ⟨some m, run_done _ (by rw [clearRound, if_neg (by omega)]) fuel, Or.inl ?_⟩
    rw [hfill]
  | succ n ih =>
    intro start fuel m hn hfuel
    obtain ⟨fuel, rfl⟩ : ∃ fuel', fuel = fuel' + 1 := ⟨fuel - 1, by omega⟩
    by_cases hfirst : AllWritable start 1
    · have hnext : clearRound memEnd (start, m) = .next (start + 1, fill m start 0 1) := by
        rw [clearRound, if_pos (by omega), stored_of hfirst]
        dsimp only
        rw [Nat.mod_eq_of_lt (by omega)]
      obtain ⟨r, hrun, hr⟩ := ih (start + 1) fuel (fill m start 0 1) (by omega) (by omega)
      have hfill : fill (fill m start 0 1) (start + 1) 0 n = fill m start 0 (n + 1) := by
        funext x
        simp only [fill]
        by_cases hx : start ≤ x ∧ x < start + (n + 1)
        · rw [if_pos hx]
          by_cases hrest : start + 1 ≤ x ∧ x < start + 1 + n
          · rw [if_pos hrest]
          · rw [if_neg hrest, if_pos (by omega)]
        · rw [if_neg hx, if_neg (by omega), if_neg (by omega)]
      rw [hfill] at hr
      exact ⟨r, (run_next _ hnext fuel).trans hrun, hr.mono (Nat.le_add_right _ _) (by omega)⟩
    · have hdone : clearRound memEnd (start, m) = .done none := by
        rw [clearRound, if_pos (by omega), stored_of_not hfirst]
      exact ⟨none, run_done _ hdone fuel, Or.inr ⟨rfl, fun hall => hfirst (hall.mono (Nat.le_refl _) (by omega))⟩⟩

/-- What `boot_readseg` leaves in memory. -/
structure Readseg (d : Disks) (m m' : Nat → UInt8) (va offset filesz memsz : Nat) : Prop where
  file : ∀ k, k < filesz → m' (va + k) = d.file (offset + k)
  bss : ∀ k, filesz ≤ k → k < memsz → m' (va + k) = 0
  frame : ∀ x, ¬ (destStart va ≤ x ∧ x < destEnd va filesz memsz) → m' x = m x

/-- `boot_readseg` loads the segment, unless there is a byte of it that it cannot write to. -/
lemma bootReadseg_spec (d : Disks) {fuel : Nat} (m : Nat → UInt8) {va offset filesz memsz : Nat}
    (halign : va % sectorsize = offset % sectorsize) (hdest : destEnd va filesz memsz < 2 ^ 64)
    (hsectors : ∀ k, sectorsize * k < va % sectorsize + filesz →
      kernelStartSector + offset / sectorsize + k < 2 ^ 28) (hfuel : 2 ^ 64 ≤ fuel) :
    ∃ m', Readseg d m m' va offset filesz memsz ∧
      StoresTo (bootReadseg d fuel m va (UInt32.ofNat (kernelStartSector + offset / sectorsize)) filesz memsz) m'
        (destStart va) (destEnd va filesz memsz - destStart va) := by
  simp only [destStart, destEnd, sectorsize] at hdest ⊢
  have hmem : va + memsz < 2 ^ 64 := by omega
  have hfile : (va + filesz + 511) / 512 * 512 < 2 ^ 64 := by omega
  let count := (va + filesz - (va - va % 512) + 511) / 512
  let copied := blit m (va - va % 512) (sectorsize * count)
    (fun k => d.first (sectorsize * (kernelStartSector + offset / sectorsize) + k))
  obtain ⟨r, hsect, hr⟩ : ∃ r, run (sectorRound d (va + filesz)) fuel
      (va - va % 512, UInt32.ofNat (kernelStartSector + offset / sectorsize), m) = some r ∧
        StoresTo r copied (va - va % 512) (sectorsize * count) :=
    run_sectors d (by simp only [sectorsize]; omega) count (va - va % 512) _ fuel m rfl
      (fun k hk => hsectors k (by simp only [sectorsize] at hk ⊢; omega)) (by omega)
  obtain ⟨r', hclear, hr'⟩ : ∃ r', run (clearRound (memsz + va)) fuel (va + filesz, copied) = some r' ∧
      StoresTo r' (fill copied (va + filesz) 0 (memsz + va - (va + filesz))) (va + filesz) (memsz + va - (va + filesz)) :=
    run_clear (by omega) _ (va + filesz) fuel copied rfl (by omega)
  refine ⟨fill copied (va + filesz) 0 (memsz + va - (va + filesz)), ?_, ?_⟩
  · simp only [sectorsize] at halign
    constructor
    case file =>
      intro k hk
      have hcopied : copied (va + k) = d.first (sectorsize * (kernelStartSector + offset / sectorsize)
          + (va + k - (va - va % 512))) :=
        blit_inside (by omega) (by simp only [sectorsize, count]; omega)
      rw [fill_outside (by unfold Outside; omega), hcopied, Disks.file]
      congr 1
      simp only [sectorsize, kernelStartSector]
      omega
    case bss =>
      intro k hk hlt
      exact fill_inside (by omega) (by omega)
    case frame =>
      intro x hx
      simp only [destStart, destEnd, sectorsize] at hx
      have hcopied : copied x = m x := blit_outside (by
        simp only [Outside, sectorsize, count]
        omega)
      rw [fill_outside (by unfold Outside; omega), hcopied]
  · simp only [bootReadseg, sectorsize]
    rw [Nat.mod_eq_of_lt (show va + filesz < 2 ^ 64 by omega),
      Nat.mod_eq_of_lt (show memsz + va < 2 ^ 64 by omega)]
    simp only [sectorsize] at hsect
    rw [hsect]
    rcases hr with rfl | ⟨rfl, hnot⟩
    · dsimp only
      rw [hclear, Option.join_some]
      exact hr'.mono (by omega) (by omega)
    · refine Or.inr ⟨rfl, fun hall => hnot (hall.mono (Nat.le_refl _) ?_)⟩
      simp only [sectorsize, count]
      omega

/-! ### The loop over the program headers -/

/-- The scratch page holds the beginning of the file. -/
def Scratch (f m : Nat → UInt8) : Prop := ∀ x, x < pagesize → m (elfhdr + x) = f x

lemma Scratch.readLE {f m : Nat → UInt8} (h : Scratch f m) {a n : Nat} (ha : a + n ≤ pagesize) :
    readLE m (elfhdr + a) n = Bytes.readLE f a n := by
  apply readLE_shift
  intro i hi
  rw [Nat.add_assoc]
  exact h (a + i) (by omega)

lemma inDest_byte {f : Nat → UInt8} {i k : Nat}
    (hk : k < pFilesz f (phAt f i) ∨ k < pMemsz f (phAt f i)) :
    InDest f i (pVa f (phAt f i) + k) := by
  simp only [InDest, destStart, destEnd, sectorsize]
  omega

/-- Loading one segment leaves the segments loaded before as they are. -/
lemma SegmentLoaded.frame {f m m' : Nat → UInt8} {i : Nat} (h : SegmentLoaded f m i)
    (hsame : ∀ x, InDest f i x → m' x = m x) : SegmentLoaded f m' i := by
  constructor
  · intro k hk
    rw [hsame _ (inDest_byte (Or.inl hk))]
    exact h.1 k hk
  · intro k hk hlt
    rw [hsame _ (inDest_byte (Or.inr hlt))]
    exact h.2 k hk hlt

/-- The state of the loop before program header `k`. -/
structure Programs (f : Nat → UInt8) (k ph : Nat) (m : Nat → UInt8) : Prop where
  bound : k ≤ ePhnum f 0
  header : ph = elfhdr + phAt f k
  scratch : Scratch f m
  loaded : ∀ j, j < k → SegmentLoaded f m j

section Load

variable {d : Disks} (hi : Image d.file) (ha : Addressable d.file)

include hi ha

/-- One round of the loop loads one more segment. -/
lemma programRound_next {fuel k ph : Nat} {m : Nat → UInt8} (hp : Programs d.file k ph m)
    (hk : k < ePhnum d.file 0) (hfuel : 2 ^ 64 ≤ fuel) :
    (∃ m', programRound d fuel (elfhdr + phAt d.file (ePhnum d.file 0)) (ph, m) =
        .next (ph + elfProgramSize, m') ∧
      Programs d.file (k + 1) (ph + elfProgramSize) m') ∨
    programRound d fuel (elfhdr + phAt d.file (ePhnum d.file 0)) (ph, m) = .done none ∧ ¬Reachable d.file := by
  have htable := hi.table
  have hoff : phAt d.file k + elfProgramSize ≤ pagesize := by
    simp only [phAt, elfProgramSize] at htable ⊢
    omega
  have hoff' := hoff
  simp only [elfProgramSize] at hoff'
  have hva : pVa m ph = pVa d.file (phAt d.file k) := by
    rw [hp.header]
    exact hp.scratch.readLE (a := phAt d.file k + 0x10) (by omega)
  have hoffset : pOffset m ph = pOffset d.file (phAt d.file k) := by
    rw [hp.header]
    exact hp.scratch.readLE (a := phAt d.file k + 0x08) (by omega)
  have hfilesz : pFilesz m ph = pFilesz d.file (phAt d.file k) := by
    rw [hp.header]
    exact hp.scratch.readLE (a := phAt d.file k + 0x20) (by omega)
  have hmemsz : pMemsz m ph = pMemsz d.file (phAt d.file k) := by
    rw [hp.header]
    exact hp.scratch.readLE (a := phAt d.file k + 0x28) (by omega)
  obtain ⟨m', hspec, hstores⟩ := bootReadseg_spec d m (hi.aligned k hk) (ha.dest k hk)
    (fun i hi => ha.sectors k i hk hi) hfuel
  have hactive : ph < elfhdr + phAt d.file (ePhnum d.file 0) := by
    rw [hp.header]
    simp only [phAt, elfProgramSize]
    omega
  have hmapped : ph + elfProgramSize ≤ bootMapped := by
    rw [hp.header]
    simp only [elfhdr, pagesize, bootMapped] at hoff ⊢
    omega
  have hwrap : ph + elfProgramSize < 2 ^ 64 := Nat.lt_of_le_of_lt hmapped (by decide)
  rw [programRound, if_pos hactive, if_neg (Nat.not_lt.2 hmapped), hva, hoffset, hfilesz, hmemsz]
  rcases hstores with hload | ⟨hnone, hnot⟩
  · refine Or.inl ⟨m', ?_, ?_⟩
    · rw [hload]
      simp only
      rw [Nat.mod_eq_of_lt hwrap]
    · constructor
      case bound => omega
      case header =>
        rw [hp.header]
        simp only [phAt, Nat.mul_succ]
        omega
      case scratch =>
        intro x hx
        rw [hspec.frame _ (fun hin => by
          have hout := hi.scratch k (elfhdr + x) hk hin
          unfold Outside at hout
          omega)]
        exact hp.scratch x hx
      case loaded =>
        intro j hj
        by_cases hjk : j = k
        · subst hjk
          exact ⟨hspec.file, hspec.bss⟩
        · apply (hp.loaded j (by omega)).frame
          intro x hx
          exact hspec.frame x (hi.disjoint j k x (by omega) hk hjk hx)
  · rw [hnone]
    exact Or.inr ⟨rfl, fun hreach => hnot fun x hx hlt => hreach k x hk ⟨hx, by omega⟩⟩

lemma run_programs {fuel n : Nat} (hfuel : 2 ^ 64 ≤ fuel) (hn : 2 ^ 64 ≤ n) {m : Nat → UInt8}
    (hm : Scratch d.file m) :
    ∃ r, run (programRound d fuel (elfhdr + phAt d.file (ePhnum d.file 0))) n
        (elfhdr + phAt d.file 0, m) = some r ∧
      ((∃ m', r = some m' ∧ ∃ ph, Programs d.file (ePhnum d.file 0) ph m') ∨ r = none ∧ ¬Reachable d.file) := by
  have htable := hi.table
  apply run_total _ (fun s => ∃ k, Programs d.file k s.1 s.2) _
    (fun s => elfhdr + phAt d.file (ePhnum d.file 0) - s.1)
  · rintro ⟨ph, m⟩ ⟨ph', m'⟩ ⟨k, (hp : Programs d.file k ph m)⟩ hbody
    by_cases hk : k < ePhnum d.file 0
    · rcases programRound_next hi ha hp hk hfuel with ⟨m₁, hnext, hp'⟩ | ⟨hnone, -⟩
      · rw [hnext, Round.next.injEq, Prod.mk.injEq] at hbody
        obtain ⟨rfl, rfl⟩ := hbody
        refine ⟨⟨k + 1, hp'⟩, ?_⟩
        have hlt : phAt d.file k < phAt d.file (ePhnum d.file 0) := by
          simp only [phAt, elfProgramSize]
          omega
        change elfhdr + phAt d.file (ePhnum d.file 0) - (ph + elfProgramSize) <
          elfhdr + phAt d.file (ePhnum d.file 0) - ph
        rw [hp.header]
        simp only [elfProgramSize]
        omega
      · rw [hnone] at hbody
        simp at hbody
    · have hend : k = ePhnum d.file 0 := by have := hp.bound; omega
      rw [programRound, if_neg (by rw [hp.header, hend]; omega)] at hbody
      simp at hbody
  · rintro ⟨ph, m⟩ r ⟨k, (hp : Programs d.file k ph m)⟩ hbody
    by_cases hk : k < ePhnum d.file 0
    · rcases programRound_next hi ha hp hk hfuel with ⟨m₁, hnext, hp'⟩ | ⟨hnone, hreach⟩
      · rw [hnext] at hbody
        simp at hbody
      · rw [hnone, Round.done.injEq] at hbody
        exact Or.inr ⟨hbody.symm, hreach⟩
    · have hend : k = ePhnum d.file 0 := by have := hp.bound; omega
      rw [programRound, if_neg (by rw [hp.header, hend]; omega), Round.done.injEq] at hbody
      exact Or.inl ⟨m, hbody.symm, ph, hend ▸ hp⟩
  · refine ⟨0, ⟨by omega, rfl, hm, fun j hj => absurd hj (by omega)⟩⟩
  · simp only [phAt, elfProgramSize, pagesize, elfhdr] at htable ⊢
    omega

/-- With enough fuel `boot` jumps to the entry point of a kernel whose segments are loaded, unless a segment is out of its
reach. -/
lemma boot_total {fuel : Nat} (hfuel : 2 ^ 64 ≤ fuel) (m : Nat → UInt8) :
    (∃ m', boot d fuel m = some (eEntry d.file 0, m') ∧ ∀ i, i < ePhnum d.file 0 → SegmentLoaded d.file m' i) ∨
    boot d fuel m = none ∧ ¬Reachable d.file := by
  have htable := hi.table
  have hdest : destEnd elfhdr pagesize pagesize < 2 ^ 64 := by decide
  have hsectors : ∀ k, sectorsize * k < elfhdr % sectorsize + pagesize →
      kernelStartSector + 0 / sectorsize + k < 2 ^ 28 := by
    intro k hk
    simp only [elfhdr, sectorsize, pagesize, kernelStartSector] at hk ⊢
    omega
  obtain ⟨m₁, hspec, hstores⟩ := bootReadseg_spec d m (show elfhdr % sectorsize = 0 % sectorsize from rfl)
    hdest hsectors hfuel
  -- the scratch page is not in the memory that the loader runs in
  have hread := hstores.resolve_right fun hnone => hnone.2 (by decide)
  have hscratch : Scratch d.file m₁ := by
    intro x hx
    rw [hspec.file x hx, Nat.zero_add]
  obtain ⟨r, hrun, hr⟩ := run_programs hi ha hfuel hfuel hscratch
  have hmagic : eMagic m₁ elfhdr = elfMagic :=
    (hscratch.readLE (a := 0) (by simp only [pagesize]; omega)).trans hi.magic
  have hphoff : ePhoff m₁ elfhdr = ePhoff d.file 0 :=
    hscratch.readLE (a := 0x20) (by simp only [pagesize]; omega)
  have hphnum : ePhnum m₁ elfhdr = ePhnum d.file 0 :=
    hscratch.readLE (a := 0x38) (by simp only [pagesize]; omega)
  simp only [elfProgramSize, pagesize] at htable
  rw [boot, show UInt32.ofNat kernelStartSector =
    UInt32.ofNat (kernelStartSector + 0 / sectorsize) from rfl, hread]
  simp only [hmagic, hphoff, hphnum, ne_eq, not_true_eq_false, if_false]
  rw [Nat.mod_eq_of_lt (show elfhdr + ePhoff d.file 0 < 2 ^ 64 by simp only [elfhdr]; omega),
    Nat.mod_eq_of_lt (show elfhdr + ePhoff d.file 0 + elfProgramSize * ePhnum d.file 0 < 2 ^ 64 by
      simp only [elfhdr, elfProgramSize]; omega)]
  simp only [phAt, Nat.mul_zero, Nat.add_zero, ← Nat.add_assoc] at hrun
  rw [hrun]
  rcases hr with ⟨m₂, rfl, ph, hp⟩ | ⟨rfl, hreach⟩
  · have hentry : eEntry m₂ elfhdr = eEntry d.file 0 :=
      hp.scratch.readLE (a := 0x18) (by simp only [pagesize]; omega)
    refine Or.inl ⟨m₂, ?_, hp.loaded⟩
    simp only [hentry]
  · exact Or.inr ⟨rfl, hreach⟩

end Load

/-! ### More fuel -/

lemma bootReadseg_mono {d : Disks} {fuel fuel' ptr filesz memsz : Nat} {m m' : Nat → UInt8}
    {srcSect : UInt32} (h : bootReadseg d fuel m ptr srcSect filesz memsz = some m')
    (hle : fuel ≤ fuel') : bootReadseg d fuel' m ptr srcSect filesz memsz = some m' := by
  simp only [bootReadseg] at h ⊢
  cases hs : run (sectorRound d ((ptr + filesz) % 2 ^ 64)) fuel (ptr - ptr % sectorsize, srcSect, m) with
  | none =>
    rw [hs] at h
    simp at h
  | some r =>
    cases r with
    | none =>
      rw [hs] at h
      simp at h
    | some m₁ =>
      rw [hs] at h
      rw [run_mono _ hs hle]
      dsimp only at h ⊢
      rw [Option.join_eq_some_iff] at h ⊢
      exact run_mono _ h hle

lemma run_programs_mono {d : Disks} {fuel fuel' n n' eph : Nat} {s : Nat × (Nat → UInt8)}
    {m : Nat → UInt8} (h : run (programRound d fuel eph) n s = some (some m)) (hle : fuel ≤ fuel')
    (hn : n ≤ n') : run (programRound d fuel' eph) n' s = some (some m) := by
  induction n generalizing n' s with
  | zero => simp [run] at h
  | succ n ih =>
    obtain ⟨n', rfl⟩ : ∃ k, n' = k + 1 := ⟨n' - 1, by omega⟩
    obtain ⟨ph, m₀⟩ := s
    by_cases hph : ph < eph
    · by_cases hmapped : bootMapped < ph + elfProgramSize
      · rw [run_done _ (show programRound d fuel eph (ph, m₀) = .done none by
          rw [programRound, if_pos hph, if_pos hmapped])] at h
        simp at h
      · cases hr : bootReadseg d fuel m₀ (pVa m₀ ph)
            (UInt32.ofNat (kernelStartSector + pOffset m₀ ph / sectorsize)) (pFilesz m₀ ph)
            (pMemsz m₀ ph) with
        | none =>
          rw [run_done _ (show programRound d fuel eph (ph, m₀) = .done none by
            rw [programRound, if_pos hph, if_neg hmapped, hr])] at h
          simp at h
        | some m₁ =>
          rw [run_next _ (show programRound d fuel eph (ph, m₀) = .next (_, m₁) by
            rw [programRound, if_pos hph, if_neg hmapped, hr])] at h
          rw [run_next _ (show programRound d fuel' eph (ph, m₀) = .next (_, m₁) by
            rw [programRound, if_pos hph, if_neg hmapped, bootReadseg_mono hr hle])]
          exact ih h (by omega)
    · rw [run_done _ (show programRound d fuel eph (ph, m₀) = .done (some m₀) by
        rw [programRound, if_neg hph])] at h
      rw [run_done _ (show programRound d fuel' eph (ph, m₀) = .done (some m₀) by
        rw [programRound, if_neg hph])]
      exact h

lemma boot_mono {d : Disks} {fuel fuel' : Nat} {m : Nat → UInt8} {r : Nat × (Nat → UInt8)}
    (h : boot d fuel m = some r) (hle : fuel ≤ fuel') : boot d fuel' m = some r := by
  unfold boot at h ⊢
  cases hs : bootReadseg d fuel m elfhdr (UInt32.ofNat kernelStartSector) pagesize pagesize with
  | none => simp [hs] at h
  | some m₁ =>
    rw [hs] at h
    rw [bootReadseg_mono hs hle]
    simp only at h ⊢
    by_cases hmagic : eMagic m₁ elfhdr = elfMagic
    · simp only [hmagic, ne_eq, not_true_eq_false, if_false] at h ⊢
      cases hp : run (programRound d fuel (((elfhdr + ePhoff m₁ elfhdr) % 2 ^ 64 +
          elfProgramSize * ePhnum m₁ elfhdr) % 2 ^ 64)) fuel
          ((elfhdr + ePhoff m₁ elfhdr) % 2 ^ 64, m₁) with
      | none =>
        rw [hp] at h
        simp at h
      | some r' =>
        cases r' with
        | none =>
          rw [hp] at h
          simp at h
        | some m₂ =>
          rw [hp] at h
          rw [run_programs_mono hp hle hle]
          exact h
    · rw [if_pos hmagic] at h
      simp at h

section Boot

variable {d : Disks} (hi : Image d.file) (ha : Addressable d.file) (m : Nat → UInt8)

include hi ha

lemma boot_reaches (hreach : Reachable d.file) : ∃ fuel r, boot d fuel m = some r := by
  rcases boot_total hi ha (Nat.le_refl (2 ^ 64)) m with ⟨m₁, hboot, -⟩ | ⟨-, hnot⟩
  · exact ⟨2 ^ 64, _, hboot⟩
  · exact absurd hreach hnot

lemma boot_jumped {fuel entry : Nat} {m' : Nat → UInt8} (h : boot d fuel m = some (entry, m')) :
    entry = eEntry d.file 0 ∧ ∀ i, i < ePhnum d.file 0 → SegmentLoaded d.file m' i := by
  have hlarge := boot_mono h (Nat.le_max_left fuel (2 ^ 64))
  rcases boot_total hi ha (Nat.le_max_right fuel (2 ^ 64)) m with ⟨m₁, hboot, hloaded⟩ | ⟨hnone, -⟩
  · rw [hboot, Option.some.injEq, Prod.mk.injEq] at hlarge
    obtain ⟨rfl, rfl⟩ := hlarge
    exact ⟨rfl, hloaded⟩
  · rw [hnone] at hlarge
    cases hlarge

end Boot

/-- For every image whose segments are aligned, apart from each other and from the scratch page, and addressable: `boot`
jumps to the entry point if it can write to all segments, and whenever it jumps every segment holds its bytes of the file
followed by zeros. -/
theorem boot_loads (d : Disks) (hi : Image d.file) (ha : Addressable d.file) (m : Nat → UInt8) :
    (Reachable d.file → ∃ fuel r, boot d fuel m = some r) ∧
    ∀ fuel entry m', boot d fuel m = some (entry, m') → entry = eEntry d.file 0 ∧
      ∀ i, i < ePhnum d.file 0 → SegmentLoaded d.file m' i :=
  ⟨boot_reaches hi ha m, fun _ _ _ h => boot_jumped hi ha m h⟩

/-- A kernel with one segment. -/
def sampleFile (offset va filesz memsz : Nat) : Nat → UInt8 :=
  let header := writeLE (writeLE (writeLE (fun _ => 0) 0 4 elfMagic) 0x20 8 64) 0x38 2 1
  let program := writeLE (writeLE header (64 + 0x08) 8 offset) (64 + 0x10) 8 va
  writeLE (writeLE program (64 + 0x20) 8 filesz) (64 + 0x28) 8 memsz

/-- A disk that holds a file from sector 1 on. -/
def diskOf (f : Nat → UInt8) : Disks where
  first x := if x < 512 then 0 else f (x - 512)
  second _ := 0

lemma diskOf_file (f : Nat → UInt8) : (diskOf f).file = f := by
  funext x
  have hge : ¬ 512 * 1 + x < 512 := by omega
  simp only [Disks.file, diskOf, sectorsize, kernelStartSector]
  rw [if_neg hge, show 512 * 1 + x - 512 = x by omega]

/-- The fields of the sample, as the loader reads them. -/
structure Sample (f : Nat → UInt8) (offset va filesz memsz : Nat) : Prop where
  magic : eMagic f 0 = elfMagic
  phnum : ePhnum f 0 = 1
  phoff : ePhoff f 0 = 64
  offset : pOffset f 64 = offset
  va : pVa f 64 = va
  filesz : pFilesz f 64 = filesz
  memsz : pMemsz f 64 = memsz

lemma Sample.phAt_zero {f : Nat → UInt8} {offset va filesz memsz : Nat}
    (h : Sample f offset va filesz memsz) : phAt f 0 = 64 := by
  unfold phAt
  rw [h.phoff, Nat.mul_zero]

lemma Sample.image {f : Nat → UInt8} {offset va filesz memsz : Nat}
    (h : Sample f offset va filesz memsz) (hoffset : offset % 512 = 0) (hva : va % 512 = 0)
    (habove : 0x4000 ≤ va) : Image f := by
  constructor
  case magic => exact h.magic
  case table =>
    rw [h.phoff, h.phnum]
    decide
  case aligned =>
    intro i hi
    obtain rfl : i = 0 := by have := h.phnum; omega
    rw [h.phAt_zero, h.va, h.offset]
    simp only [sectorsize]
    omega
  case disjoint =>
    intro i j x hi hj hij
    have := h.phnum
    omega
  case scratch =>
    intro i x hi hx
    obtain rfl : i = 0 := by have := h.phnum; omega
    simp only [InDest, h.phAt_zero, h.va, destStart, sectorsize] at hx
    simp only [Outside, elfhdr, pagesize]
    omega

lemma Sample.reachable {f : Nat → UInt8} {offset va filesz memsz : Nat}
    (h : Sample f offset va filesz memsz) (hva : va % 512 = 0) (hdest : AllWritable va (destEnd va filesz memsz - va)) :
    Reachable f := by
  intro i x hi hx
  obtain rfl : i = 0 := by have := h.phnum; omega
  simp only [InDest, h.phAt_zero, h.va, h.filesz, h.memsz, destStart, sectorsize] at hx
  exact hdest x (by omega) (by omega)

theorem boot_loads_sample :
    let d := diskOf (sampleFile 0x1000 0x100000 1 2)
    ∃ fuel entry m', boot d fuel (fun _ => 0) = some (entry, m') ∧ entry = eEntry d.file 0 ∧ SegmentLoaded d.file m' 0 := by
  intro d
  have hfile : d.file = sampleFile 0x1000 0x100000 1 2 := diskOf_file _
  have hsample : Sample d.file 0x1000 0x100000 1 2 := by
    rw [hfile]
    constructor <;> decide
  have haddressable : Addressable d.file := by
    constructor
    case dest =>
      intro i hi
      obtain rfl : i = 0 := by have := hsample.phnum; omega
      rw [hsample.phAt_zero, hsample.va, hsample.filesz, hsample.memsz]
      decide
    case sectors =>
      intro i k hi hk
      obtain rfl : i = 0 := by have := hsample.phnum; omega
      rw [hsample.phAt_zero, hsample.va, hsample.filesz] at hk
      rw [hsample.phAt_zero, hsample.offset]
      simp only [sectorsize, kernelStartSector] at hk ⊢
      omega
  obtain ⟨hjumps, hloads⟩ := boot_loads d (hsample.image (by decide) (by decide) (by decide)) haddressable (fun _ => 0)
  obtain ⟨fuel, ⟨entry, m'⟩, hboot⟩ := hjumps (hsample.reachable (by decide) (by decide))
  obtain ⟨hentry, hloaded⟩ := hloads fuel entry m' hboot
  exact ⟨fuel, entry, m', hboot, hentry, hloaded 0 (by rw [hsample.phnum]; decide)⟩

/-- The first byte of the segment in a run on a sample with a segment of at least one byte. -/
lemma Sample.first_byte {f m m' : Nat → UInt8} {offset va filesz memsz fuel entry : Nat}
    (h : Sample f offset va filesz memsz) (hfilesz : 0 < filesz)
    (hclaim : boot (diskOf f) fuel m = some (entry, m') →
      ∀ i, i < ePhnum (diskOf f).file 0 → SegmentLoaded (diskOf f).file m' i)
    (hboot : boot (diskOf f) fuel m = some (entry, m')) : m' va = f offset := by
  rw [diskOf_file] at hclaim
  have hloaded := (hclaim hboot 0 (by rw [h.phnum]; decide)).1 0 (by
    rw [h.phAt_zero, h.filesz]
    exact hfilesz)
  rw [h.phAt_zero, h.va, h.offset] at hloaded
  exact hloaded

/-- Both bounds are needed. Sector 2²⁹ + 1 is sector 1 to the drive, so that the segment
receives the first byte of the ELF header; and a segment that ends behind 2⁶⁴ is not read. -/
theorem boot_misses_segment :
    (¬ ∀ (d : Disks) (m : Nat → UInt8), Image d.file →
      (∀ i, i < ePhnum d.file 0 → destEnd (pVa d.file (phAt d.file i))
        (pFilesz d.file (phAt d.file i)) (pMemsz d.file (phAt d.file i)) < 2 ^ 64) →
      ∀ fuel entry m', boot d fuel m = some (entry, m') →
        ∀ i, i < ePhnum d.file 0 → SegmentLoaded d.file m' i) ∧
    ¬ ∀ (d : Disks) (m : Nat → UInt8), Image d.file →
      (∀ i k, i < ePhnum d.file 0 → sectorsize * k < pVa d.file (phAt d.file i) % sectorsize +
        pFilesz d.file (phAt d.file i) →
        kernelStartSector + pOffset d.file (phAt d.file i) / sectorsize + k < 2 ^ 28) →
      ∀ fuel entry m', boot d fuel m = some (entry, m') →
        ∀ i, i < ePhnum d.file 0 → SegmentLoaded d.file m' i := by
  constructor
  · intro hclaim
    have hsample : Sample (sampleFile (2 ^ 38) 0x100000 1 0) (2 ^ 38) 0x100000 1 0 := by
      constructor <;> decide
    have hrun : (boot (diskOf (sampleFile (2 ^ 38) 0x100000 1 0)) 20 (fun _ => 0)).map
        (fun r => r.2 0x100000) = some 0x7F := by decide
    obtain ⟨⟨entry, m'⟩, hboot, hbyte⟩ := Option.map_eq_some_iff.1 hrun
    have hi : Image (diskOf (sampleFile (2 ^ 38) 0x100000 1 0)).file := by
      rw [diskOf_file]
      exact hsample.image (by decide) (by decide) (by decide)
    have hfirst := hsample.first_byte (by decide) (hclaim _ _ hi (by
      rw [diskOf_file]
      intro i hn
      obtain rfl : i = 0 := by have := hsample.phnum; omega
      rw [hsample.phAt_zero, hsample.va, hsample.filesz, hsample.memsz]
      decide) 20 entry m') hboot
    exact absurd (hfirst.symm.trans hbyte) (by decide)
  · intro hclaim
    have hsample : Sample (sampleFile 0 (2 ^ 64 - 512) 1024 1024) 0 (2 ^ 64 - 512) 1024 1024 := by
      constructor <;> decide
    have hrun : (boot (diskOf (sampleFile 0 (2 ^ 64 - 512) 1024 1024)) 20 (fun _ => 0)).map
        (fun r => r.2 (2 ^ 64 - 512)) = some 0 := by decide
    obtain ⟨⟨entry, m'⟩, hboot, hbyte⟩ := Option.map_eq_some_iff.1 hrun
    have hi : Image (diskOf (sampleFile 0 (2 ^ 64 - 512) 1024 1024)).file := by
      rw [diskOf_file]
      exact hsample.image (by decide) (by decide) (by decide)
    have hfirst := hsample.first_byte (by decide) (hclaim _ _ hi (by
      rw [diskOf_file]
      intro i k hn hk
      obtain rfl : i = 0 := by have := hsample.phnum; omega
      rw [hsample.phAt_zero, hsample.va, hsample.filesz] at hk
      rw [hsample.phAt_zero, hsample.offset]
      simp only [sectorsize, kernelStartSector] at hk ⊢
      omega) 20 entry m') hboot
    exact absurd (hfirst.symm.trans hbyte) (by decide)

end Cs300Projects.WeensyOS.Boot
