import Cs300Projects.WeensyOS.BootLoad
import Cs300Projects.WeensyOS.Mkbootdisk

/-!
# Booting from the disk that `mkbootdisk` writes

`boot` reads the kernel from sector 1 on, which is where `mkbootdisk` writes the first file behind the boot sector. What lies
behind the disk may be anything: no sector there is read.
-/

namespace Cs300Projects.WeensyOS.Boot

open Bytes Loop Elf Sectors Mkbootdisk

/-- The bytes of a file. -/
def bytesOf (s : List UInt8) (i : Nat) : UInt8 := (s[i]?).getD 0

/-- The first disk starts with these bytes. -/
def Disks.Holds (d : Disks) (disk : List UInt8) : Prop := ∀ i, i < disk.length → d.first i = bytesOf disk i

/-- A kernel that `boot` can load to where its segments go, whose headers and segments are in the file. -/
structure KernelFile (s : List UInt8) : Prop where
  image : Image (bytesOf s)
  addressable : Addressable (bytesOf s)
  reachable : Reachable (bytesOf s)
  header : elfHeaderSize ≤ s.length
  programs : ePhoff (bytesOf s) 0 + elfProgramSize * ePhnum (bytesOf s) 0 ≤ s.length
  segments : ∀ i, i < ePhnum (bytesOf s) 0 →
    pOffset (bytesOf s) (phAt (bytesOf s) i) + pFilesz (bytesOf s) (phAt (bytesOf s) i) ≤ s.length

/-! ### Files with the same headers -/

/-- The fields that `boot` reads are the same. -/
structure SameHeaders (f g : Nat → UInt8) : Prop where
  magic : eMagic g 0 = eMagic f 0
  entry : eEntry g 0 = eEntry f 0
  phoff : ePhoff g 0 = ePhoff f 0
  phnum : ePhnum g 0 = ePhnum f 0
  program : ∀ i, i < ePhnum f 0 → ∀ o, o + 8 ≤ elfProgramSize → readLE g (phAt g i + o) 8 = readLE f (phAt f i + o) 8

section SameHeaders

variable {f g : Nat → UInt8} {i : Nat}

lemma sameHeaders_of_bytes {n : Nat} (h : ∀ x, x < n → g x = f x) (hheader : elfHeaderSize ≤ n)
    (hprograms : ePhoff f 0 + elfProgramSize * ePhnum f 0 ≤ n) : SameHeaders f g := by
  unfold elfHeaderSize at hheader
  have hread : ∀ a k, a + k ≤ n → readLE g a k = readLE f a k :=
    fun a k hk => readLE_congr fun x _ hx => h x (by omega)
  have hphoff : ePhoff g 0 = ePhoff f 0 := hread _ _ (by omega)
  refine ⟨hread _ _ (by omega), hread _ _ (by omega), hphoff, hread _ _ (by omega), ?_⟩
  intro i hi o ho
  unfold phAt elfProgramSize at *
  rw [hphoff]
  exact hread _ _ (by omega)

namespace SameHeaders

variable (h : SameHeaders f g) (hi : i < ePhnum f 0)
include h hi

lemma va : pVa g (phAt g i) = pVa f (phAt f i) := h.program i hi 0x10 (by decide)

lemma offset : pOffset g (phAt g i) = pOffset f (phAt f i) := h.program i hi 0x08 (by decide)

lemma filesz : pFilesz g (phAt g i) = pFilesz f (phAt f i) := h.program i hi 0x20 (by decide)

lemma memsz : pMemsz g (phAt g i) = pMemsz f (phAt f i) := h.program i hi 0x28 (by decide)

lemma inDest (x : Nat) : InDest g i x ↔ InDest f i x := by
  unfold InDest
  rw [h.va hi, h.filesz hi, h.memsz hi]

end SameHeaders

lemma SameHeaders.image (h : SameHeaders f g) (hf : Image f) : Image g := by
  constructor
  case magic => exact h.magic.trans hf.magic
  case table =>
    rw [h.phoff, h.phnum]
    exact hf.table
  case aligned =>
    intro i hi
    rw [h.phnum] at hi
    rw [h.va hi, h.offset hi]
    exact hf.aligned i hi
  case disjoint =>
    intro i j x hi hj hij
    rw [h.phnum] at hi hj
    rw [h.inDest hi, h.inDest hj]
    exact hf.disjoint i j x hi hj hij
  case scratch =>
    intro i x hi
    rw [h.phnum] at hi
    rw [h.inDest hi]
    exact hf.scratch i x hi

lemma SameHeaders.addressable (h : SameHeaders f g) (hf : Addressable f) : Addressable g := by
  constructor
  case dest =>
    intro i hi
    rw [h.phnum] at hi
    rw [h.va hi, h.filesz hi, h.memsz hi]
    exact hf.dest i hi
  case sectors =>
    intro i k hi
    rw [h.phnum] at hi
    rw [h.va hi, h.filesz hi, h.offset hi]
    exact hf.sectors i k hi

lemma SameHeaders.reachable (h : SameHeaders f g) (hf : Reachable f) : Reachable g := by
  intro i x hi hx
  rw [h.phnum] at hi
  exact hf i x hi ((h.inDest hi x).1 hx)

/-- A segment that is loaded from one file is loaded from the other, if the bytes of the segment are the same. -/
lemma SameHeaders.segmentLoaded {m : Nat → UInt8} (h : SameHeaders f g) (hi : i < ePhnum f 0)
    (hbytes : ∀ k, k < pFilesz f (phAt f i) → g (pOffset f (phAt f i) + k) = f (pOffset f (phAt f i) + k))
    (hloaded : SegmentLoaded g m i) : SegmentLoaded f m i := by
  unfold SegmentLoaded at hloaded
  rw [h.va hi, h.filesz hi, h.offset hi, h.memsz hi] at hloaded
  refine ⟨fun k hk => ?_, hloaded.2⟩
  rw [hloaded.1 k hk]
  exact hbytes k hk

end SameHeaders

/-! ### The disk -/

section Disk

variable {files : List UInt8 → Option (List UInt8)} {argv0 kernel s : List UInt8} {rest : List (List UInt8)}
  {replies : List Reply} {o : Output}

lemma bytesOf_append {s t u : List UInt8} {i : Nat} (hi : i < t.length) : bytesOf (s ++ (t ++ u)) (s.length + i) = bytesOf t i := by
  unfold bytesOf
  rw [List.getElem?_append_right (Nat.le_add_right _ _), Nat.add_sub_cancel_left, List.getElem?_append_left hi]

/-- The file of the second argument follows the boot sector. -/
lemma mkbootdisk_kernel (h : mkbootdisk files (argv0 :: kernel :: rest) replies = some o) (hname : skipToSector kernel = none)
    (hkernel : files kernel = some s) : ∃ front back, front.length = sectorsize ∧ o.written = front ++ (s ++ back) := by
  rw [mkbootdisk, Option.bind_eq_bind, Option.bind_eq_some_iff] at h
  obtain ⟨block, -, h⟩ := h
  dsimp only at h
  split_ifs at h with hlarge
  simp only [Option.bind_eq_bind, Option.bind_eq_some_iff, Prod.exists, Option.pure_def, Option.some.injEq] at h
  obtain ⟨o₁, hboot, o₂, n, hargs, o₃, n₃, hfill, rfl⟩ := h
  obtain ⟨items, hitems, -, -, hwritten⟩ := foldlM_writeArg hargs
  have hitem : argItem files kernel = some (.file s) := by
    rw [argItem, hname, hkernel]
    rfl
  rw [List.mapM_cons, hitem] at hitems
  simp only [Option.bind_eq_bind, Option.bind_eq_some_iff, Option.pure_def, Option.some.injEq] at hitems
  obtain ⟨_, rfl, items', -, rfl⟩ := hitems
  have hsector : (bootSector (block.take 4096)).length = 512 := length_bootSector (by omega)
  rw [(fillTo_spec hfill).1, hwritten, (diskwrite_spec hboot).1, List.nil_append, image, padded]
  simp only [List.append_assoc]
  exact ⟨_, _, hsector, rfl⟩

/-- `boot` loads a kernel that is where it reads it. -/
lemma KernelFile.boots (hs : KernelFile s) {d : Disks} (hbytes : ∀ x, x < s.length → d.file x = bytesOf s x)
    (m : Nat → UInt8) :
    (∃ fuel r, boot d fuel m = some r) ∧
    ∀ fuel entry m', boot d fuel m = some (entry, m') → entry = eEntry (bytesOf s) 0 ∧
      ∀ i, i < ePhnum (bytesOf s) 0 → SegmentLoaded (bytesOf s) m' i := by
  have hsame := sameHeaders_of_bytes hbytes hs.header hs.programs
  have hi := hsame.image hs.image
  have ha := hsame.addressable hs.addressable
  refine ⟨boot_reaches hi ha m (hsame.reachable hs.reachable), ?_⟩
  intro fuel entry m' hrun
  obtain ⟨hentry, hloaded⟩ := boot_jumped hi ha m hrun
  refine ⟨hentry.trans hsame.entry, fun i hi => ?_⟩
  apply hsame.segmentLoaded hi _ (hloaded i (hsame.phnum.symm ▸ hi))
  intro k hk
  have hsegment := hs.segments i hi
  exact hbytes _ (by omega)

/-- A disk that starts with what `mkbootdisk` has written has the kernel where `boot` reads it. -/
lemma holds_kernel (h : mkbootdisk files (argv0 :: kernel :: rest) replies = some o) (hname : skipToSector kernel = none)
    (hkernel : files kernel = some s) {d : Disks} (hd : d.Holds o.written) {x : Nat} (hx : x < s.length) :
    d.file x = bytesOf s x := by
  obtain ⟨front, back, hfront, hwritten⟩ := mkbootdisk_kernel h hname hkernel
  have hlt : front.length + x < o.written.length := by
    rw [hwritten, List.length_append, List.length_append]
    omega
  have hbyte := hd (front.length + x) hlt
  rw [hwritten, bytesOf_append hx, hfront] at hbyte
  exact hbyte

/-- `boot` loads the kernel from the disk that `mkbootdisk` has written, whatever is behind the disk, in the memory, and on
the other disk. -/
theorem mkbootdisk_boots (h : mkbootdisk files (argv0 :: kernel :: rest) replies = some o) (hname : skipToSector kernel = none)
    (hkernel : files kernel = some s) (hs : KernelFile s) {d : Disks} (hd : d.Holds o.written) (m : Nat → UInt8) :
    (∃ fuel r, boot d fuel m = some r) ∧
    ∀ fuel entry m', boot d fuel m = some (entry, m') → entry = eEntry (bytesOf s) 0 ∧
      ∀ i, i < ePhnum (bytesOf s) 0 → SegmentLoaded (bytesOf s) m' i :=
  hs.boots (fun _ hx => holds_kernel h hname hkernel hd hx) m

/-- When all is written, the program ends without an error. -/
lemma mkbootdisk_kernel_total {block : List UInt8} (hblock : files argv0 = some block) (hlength : block.length ≤ 510)
    (hname : skipToSector kernel = none) (hkernel : files kernel = some s) :
    ∃ replies o, mkbootdisk files [argv0, kernel] replies = some o := by
  have hitems : [kernel].mapM (argItem files) = some [.file s] := by
    rw [List.mapM_cons, argItem, hname]
    dsimp only
    rw [hkernel]
    rfl
  refine ⟨List.replicate (512 * (1024 + finish 512 1 [.file s])) (.wrote 4096), ?_⟩
  refine mkbootdisk_total hblock hlength hitems trivial ?_ ?_
  · intro r hr
    rw [List.eq_of_mem_replicate hr]
    simp
  · rw [List.countP_replicate, if_pos (by simp)]

end Disk

/-! ### A kernel of one sector -/

/-- The segment is the whole file, followed by as many zeros. -/
def sampleKernel : List UInt8 := (List.range 512).map (sampleFile 0 0x100000 512 1024)

lemma sampleKernel_sample : Sample (bytesOf sampleKernel) 0 0x100000 512 1024 := by
  constructor <;> decide +kernel

lemma sampleKernel_file : KernelFile sampleKernel := by
  have hsample := sampleKernel_sample
  have hlength : sampleKernel.length = 512 := by
    unfold sampleKernel
    rw [List.length_map, List.length_range]
  constructor
  case image => exact hsample.image (by decide) (by decide) (by decide)
  case addressable =>
    constructor
    case dest =>
      intro i hi
      obtain rfl : i = 0 := by have := hsample.phnum; omega
      rw [hsample.phAt_zero, hsample.va, hsample.filesz, hsample.memsz]
      decide
    case sectors =>
      intro i k hi hk
      obtain rfl : i = 0 := by have := hsample.phnum; omega
      rw [hsample.phAt_zero, hsample.va, hsample.filesz] at hk
      rw [hsample.phAt_zero, hsample.offset]
      simp only [sectorsize, kernelStartSector] at hk ⊢
      omega
  case reachable => exact hsample.reachable (by decide) (by decide)
  case header =>
    rw [hlength]
    decide
  case programs =>
    rw [hsample.phoff, hsample.phnum, hlength]
    decide
  case segments =>
    intro i hi
    obtain rfl : i = 0 := by have := hsample.phnum; omega
    rw [hsample.phAt_zero, hsample.offset, hsample.filesz, hlength]

/-- A boot block and the kernel. -/
def sampleFiles (name : List UInt8) : Option (List UInt8) := if name = [] then some [0xEB, 0xFE] else some sampleKernel

/-- The other bytes of the disks are 0xFF. -/
theorem mkbootdisk_boots_sample : ∃ replies o, mkbootdisk sampleFiles [[], [ch 'k']] replies = some o ∧
    ∃ d : Disks, d.Holds o.written ∧
      ∃ fuel m', boot d fuel (fun _ => 0xFF) = some (0, m') ∧ m' 0x100000 = 0x7F ∧ m' 0x1003FF = 0 := by
  have hkernel : sampleFiles [ch 'k'] = some sampleKernel := if_neg (by decide)
  obtain ⟨replies, o, ho⟩ := mkbootdisk_kernel_total (show sampleFiles [] = some [0xEB, 0xFE] from rfl) (by decide) rfl hkernel
  let d : Disks := ⟨fun i => if i < o.written.length then bytesOf o.written i else 0xFF, fun _ => 0xFF⟩
  have hd : d.Holds o.written := fun i hi => if_pos hi
  have hsample := sampleKernel_sample
  obtain ⟨⟨fuel, ⟨entry, m'⟩, hrun⟩, hall⟩ :=
    mkbootdisk_boots ho rfl hkernel sampleKernel_file hd (fun _ => 0xFF)
  obtain ⟨hentry, hloaded⟩ := hall fuel entry m' hrun
  obtain ⟨hbytes, hzeros⟩ := hloaded 0 (by rw [hsample.phnum]; decide)
  rw [hsample.phAt_zero, hsample.filesz, hsample.va, hsample.offset] at hbytes
  rw [hsample.phAt_zero, hsample.filesz, hsample.va, hsample.memsz] at hzeros
  refine ⟨replies, o, ho, d, hd, fuel, m', ?_, ?_, hzeros 0x3FF (by decide) (by decide)⟩
  · have hzero : eEntry (bytesOf sampleKernel) 0 = 0 := by decide +kernel
    rw [hrun, hentry, hzero]
  · exact (hbytes 0 (by decide)).trans (by decide +kernel)

end Cs300Projects.WeensyOS.Boot
