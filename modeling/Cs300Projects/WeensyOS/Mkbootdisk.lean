import Cs300Projects.Lib.Sectors
import Cs300Projects.WeensyOS.StrtoulGrammar

/-!
# The boot disk

`mkbootdisk` writes the boot sector and then the files of its other arguments, and counts the sectors. The answers of
`write` are a list: a call may write a part of what it is given, or be interrupted. There is no result where the program
exits with an error, and where the list ends first. Counters are of bytes and sectors that have been written, and do not
wrap around.
-/

namespace Cs300Projects.WeensyOS

open Sectors

namespace Mkbootdisk

/-- The answer to a call of `write`, which never writes more than it is given. -/
inductive Reply where
  | wrote (n : Nat)
  | interrupted
  | error
  deriving DecidableEq

/-- The static variables, what has been written, and the answers to the calls of `write` that follow. -/
structure Output where
  written : List UInt8
  curoff : Nat
  maxoff : Nat
  replies : List Reply

/-- The loop in `diskwrite`. -/
def writeLoop : List Reply → Output → List UInt8 → Option Output
  | replies, o, [] => some { o with replies := replies }
  | [], _, _ :: _ => none
  | .interrupted :: replies, o, data => writeLoop replies o data
  | .error :: _, _, _ => none
  | .wrote n :: replies, o, data =>
    if n = 0 then none
    else writeLoop replies { o with written := o.written ++ data.take n, curoff := o.curoff + min n data.length } (data.drop n)

def diskwrite (o : Output) (data : List UInt8) : Option Output :=
  if o.maxoff ≠ 0 ∧ o.maxoff < o.curoff + data.length then none else writeLoop o.replies o data

def zerobuf : List UInt8 := List.replicate 512 0

def isdigit (c : UInt8) : Bool := 48 ≤ c.toNat ∧ c.toNat ≤ 57

/-- The sector of an argument like `@X`. -/
def skipToSector : List UInt8 → Option Nat
  | c :: d :: s =>
    if c = ch '@' ∧ isdigit d ∧ (isoStrtoul (d :: s) 0).2 = [] then some (isoStrtoul (d :: s) 0).1 else none
  | _ => none

/-- `while (nsectors < target)`, for `fuel` rounds at most. -/
def fillTo (target : Nat) : Nat → Output → Nat → Option (Output × Nat)
  | 0, o, nsectors => some (o, nsectors)
  | fuel + 1, o, nsectors =>
    if nsectors < target then (diskwrite o zerobuf).bind fun o => fillTo target fuel o (nsectors + 1)
    else some (o, nsectors)

/-- The loop that reads a file by 4096 bytes. Every round takes a byte at least. -/
def copyFile : Nat → Output → List UInt8 → Nat → Option (Output × Nat)
  | 0, o, _, pos => some (o, pos)
  | fuel + 1, o, f, pos =>
    if f.take 4096 = [] then some (o, pos)
    else (diskwrite o (f.take 4096)).bind fun o => copyFile fuel o (f.drop 4096) (pos + (f.take 4096).length)

/-- A file is written and padded. -/
def writeFile (o : Output) (nsectors : Nat) (f : List UInt8) : Option (Output × Nat) := do
  let (o, pos) ← copyFile f.length o f 0
  if pos % 512 ≠ 0 then
    let o ← diskwrite o (zerobuf.take (512 - pos % 512))
    return (o, nsectors + (pos + (512 - pos % 512)) / 512)
  else
    return (o, nsectors + pos / 512)

/-- One argument; `files` opens a file. -/
def writeArg (files : List UInt8 → Option (List UInt8)) (s : Output × Nat) (arg : List UInt8) : Option (Output × Nat) :=
  match skipToSector arg with
  | some sector => if sector < s.2 then none else fillTo sector (sector - s.2) s.1 s.2
  | none => (files arg).bind fun f => writeFile s.1 s.2 f

/-- The boot block with its signature. -/
def bootSector (buf : List UInt8) : List UInt8 := buf ++ List.replicate (510 - buf.length) 0 ++ [0x55, 0xAA]

/-- `main` without the options `-p` and `-m`, on its arguments behind the name of the program. -/
def mkbootdisk (files : List UInt8 → Option (List UInt8)) (argv : List (List UInt8)) (replies : List Reply) : Option Output :=
  match argv with
  | [] => none
  | boot :: args => do
    let f ← files boot
    let buf := f.take 4096
    if 510 < buf.length then none
    else
      let o ← diskwrite ⟨[], 0, 0, replies⟩ (bootSector buf)
      let (o, nsectors) ← args.foldlM (writeArg files) (o, 1)
      let (o, _) ← fillTo 1024 (1024 - nsectors) o nsectors
      return o

/-! ### What the disk should be -/

/-- The argument as an item of the layout. -/
def argItem (files : List UInt8 → Option (List UInt8)) (arg : List UInt8) : Option (Item UInt8) :=
  match skipToSector arg with
  | some sector => some (.skip sector)
  | none => (files arg).map .file

/-- The disk is made of whole sectors, of the boot sector, the files and unused sectors. -/
structure Layout (block : List UInt8) (items : List (Item UInt8)) (disk : List UInt8) : Prop where
  whole : 512 ∣ disk.length
  least : 512 * 1024 ≤ disk.length
  boot : sector 512 disk 0 = block ++ List.replicate (510 - block.length) 0 ++ [0x55, 0xAA]
  files : ∀ p ∈ place 512 1 items, ∀ j < count 512 p.content.length,
    sector 512 disk (p.start + j) = sector 512 (padded 512 0 p.content) j
  unused : ∀ k, 1 ≤ k → 512 * k < disk.length → (∀ p ∈ place 512 1 items, ¬ p.Covers 512 k) →
    sector 512 disk k = List.replicate 512 0

section

variable {files : List UInt8 → Option (List UInt8)} {o o' : Output} {data : List UInt8} {n n' : Nat}

/-! ### What each function writes -/

lemma writeLoop_spec {replies : List Reply} (h : writeLoop replies o data = some o') :
    o'.written = o.written ++ data ∧ o'.curoff = o.curoff + data.length := by
  induction replies generalizing o data with
  | nil =>
    cases data with
    | nil =>
      rw [writeLoop, Option.some.injEq] at h
      subst h
      exact ⟨(List.append_nil _).symm, rfl⟩
    | cons c data => cases h
  | cons reply replies ih =>
    cases data with
    | nil =>
      rw [writeLoop, Option.some.injEq] at h
      subst h
      exact ⟨(List.append_nil _).symm, rfl⟩
    | cons c data =>
      cases reply with
      | interrupted => exact ih h
      | error => cases h
      | wrote n =>
        simp only [writeLoop] at h
        split_ifs at h
        obtain ⟨hwritten, hcuroff⟩ := ih h
        dsimp only at hwritten hcuroff
        rw [hwritten, hcuroff]
        constructor
        · rw [List.append_assoc, List.take_append_drop]
        · rw [List.length_drop]
          omega

/-- All of the data is written, however the calls of `write` split it. -/
lemma diskwrite_spec (h : diskwrite o data = some o') :
    o'.written = o.written ++ data ∧ o'.curoff = o.curoff + data.length := by
  unfold diskwrite at h
  split_ifs at h
  exact writeLoop_spec h

lemma fillTo_spec {target : Nat} (h : fillTo target (target - n) o n = some (o', n')) :
    o'.written = o.written ++ List.replicate (512 * (target - n)) 0 ∧ n' = max n target := by
  generalize hfuel : target - n = fuel at h ⊢
  induction fuel generalizing o n with
  | zero =>
    rw [fillTo, Option.some.injEq, Prod.mk.injEq] at h
    rw [← h.1, ← h.2]
    exact ⟨(List.append_nil _).symm, by omega⟩
  | succ fuel ih =>
    rw [fillTo, if_pos (by omega), Option.bind_eq_some_iff] at h
    obtain ⟨o₁, hwrite, hrest⟩ := h
    obtain ⟨hwritten, hn'⟩ := ih (by omega) hrest
    rw [hwritten, (diskwrite_spec hwrite).1, zerobuf, List.append_assoc, List.replicate_append_replicate]
    exact ⟨by rw [show 512 + 512 * fuel = 512 * (fuel + 1) by omega], by omega⟩

lemma copyFile_spec {fuel pos pos' : Nat} {f : List UInt8} (hfuel : f.length ≤ fuel)
    (h : copyFile fuel o f pos = some (o', pos')) : o'.written = o.written ++ f ∧ pos' = pos + f.length := by
  induction fuel generalizing o f pos with
  | zero =>
    have hnil : f = [] := List.eq_nil_of_length_eq_zero (by omega)
    rw [copyFile, Option.some.injEq, Prod.mk.injEq] at h
    rw [← h.1, ← h.2, hnil]
    exact ⟨(List.append_nil _).symm, rfl⟩
  | succ fuel ih =>
    rw [copyFile] at h
    by_cases hend : f.take 4096 = []
    · rw [if_pos hend, Option.some.injEq, Prod.mk.injEq] at h
      have hnil : f = [] := (List.take_eq_nil_iff.1 hend).resolve_left (by decide)
      rw [← h.1, ← h.2, hnil]
      exact ⟨(List.append_nil _).symm, rfl⟩
    · rw [if_neg hend, Option.bind_eq_some_iff] at h
      obtain ⟨o₁, hwrite, hrest⟩ := h
      have hpos : 0 < f.length := List.length_pos_of_ne_nil fun hnil => hend (by rw [hnil, List.take_nil])
      obtain ⟨hwritten, hpos'⟩ := ih (by rw [List.length_drop]; omega) hrest
      rw [hwritten, hpos', (diskwrite_spec hwrite).1, List.append_assoc, List.take_append_drop, List.length_take, List.length_drop]
      exact ⟨rfl, by omega⟩

lemma count_eq (k : Nat) : count 512 k = if k % 512 ≠ 0 then (k + (512 - k % 512)) / 512 else k / 512 := by
  unfold count
  split <;> omega

lemma writeFile_spec {f : List UInt8} (h : writeFile o n f = some (o', n')) :
    o'.written = o.written ++ padded 512 0 f ∧ n' = n + count 512 f.length := by
  unfold writeFile at h
  simp only [Option.bind_eq_bind, Option.bind_eq_some_iff, Prod.exists] at h
  obtain ⟨o₁, pos, hcopy, h⟩ := h
  obtain ⟨hwritten, hpos⟩ := copyFile_spec (Nat.le_refl _) hcopy
  rw [Nat.zero_add] at hpos
  subst hpos
  rw [count_eq, padded]
  by_cases hrest : f.length % 512 ≠ 0
  · rw [if_pos hrest, Option.bind_eq_some_iff] at h
    obtain ⟨o₂, hwrite, h⟩ := h
    rw [Option.pure_def, Option.some.injEq, Prod.mk.injEq] at h
    rw [← h.1, ← h.2, (diskwrite_spec hwrite).1, hwritten, if_pos hrest, zerobuf, List.take_replicate, List.append_assoc]
    have hmod : min (512 - f.length % 512) 512 = (512 - f.length % 512) % 512 := by omega
    rw [hmod]
    exact ⟨rfl, rfl⟩
  · rw [if_neg hrest, Option.pure_def, Option.some.injEq, Prod.mk.injEq] at h
    rw [← h.1, ← h.2, hwritten, if_neg hrest]
    have hmod : (512 - f.length % 512) % 512 = 0 := by omega
    rw [hmod]
    exact ⟨by rw [List.replicate_zero, List.append_nil], rfl⟩

/-- The arguments write the image of their layout. -/
lemma foldlM_writeArg {args : List (List UInt8)} (h : args.foldlM (writeArg files) (o, n) = some (o', n')) :
    ∃ items, args.mapM (argItem files) = some items ∧ Forward 512 n items ∧ n' = finish 512 n items ∧
      o'.written = o.written ++ image 512 0 n items := by
  induction args generalizing o n with
  | nil =>
    rw [List.foldlM_nil, Option.pure_def, Option.some.injEq, Prod.mk.injEq] at h
    rw [← h.1, ← h.2]
    exact ⟨[], rfl, trivial, rfl, (List.append_nil _).symm⟩
  | cons arg args ih =>
    rw [List.foldlM_cons, Option.bind_eq_bind, Option.bind_eq_some_iff] at h
    obtain ⟨⟨o₁, n₁⟩, harg, hrest⟩ := h
    obtain ⟨items, hitems, hforward, hn', hwritten⟩ := ih hrest
    rw [writeArg] at harg
    cases hskip : skipToSector arg with
    | some target =>
      rw [hskip] at harg
      dsimp only at harg
      split_ifs at harg with hback
      obtain ⟨hfill, hmax⟩ := fillTo_spec harg
      have htarget : n₁ = target := by omega
      subst htarget
      have hitem : argItem files arg = some (.skip n₁) := by rw [argItem, hskip]
      refine ⟨.skip n₁ :: items, ?_, ⟨by omega, hforward⟩, hn', ?_⟩
      · rw [List.mapM_cons, hitem, hitems]
        rfl
      · rw [hwritten, hfill, image, List.append_assoc]
    | none =>
      rw [hskip] at harg
      dsimp only at harg
      rw [Option.bind_eq_some_iff] at harg
      obtain ⟨f, hf, hwrite⟩ := harg
      obtain ⟨hfile, hcount⟩ := writeFile_spec hwrite
      subst hcount
      have hitem : argItem files arg = some (.file f) := by rw [argItem, hskip, hf]; rfl
      refine ⟨.file f :: items, ?_, hforward, hn', ?_⟩
      · rw [List.mapM_cons, hitem, hitems]
        rfl
      · rw [hwritten, hfile, image, List.append_assoc]

lemma length_bootSector {block : List UInt8} (h : block.length ≤ 510) : (bootSector block).length = 512 := by
  rw [bootSector, List.length_append, List.length_append, List.length_replicate]
  change block.length + (510 - block.length) + 2 = 512
  omega

/-- The boot sector, the image of a layout and the unused sectors behind it are the disk that the layout describes. -/
lemma layout_of_parts {block : List UInt8} {items : List (Item UInt8)} (hblock : block.length ≤ 510) (h : Forward 512 1 items) :
    Layout block items
      (bootSector block ++ (image 512 0 1 items ++ List.replicate (512 * (1024 - finish 512 1 items)) 0)) := by
  have hboot : (bootSector block).length = 512 * 1 := length_bootSector hblock
  have himage := length_image (w := 512) (z := (0 : UInt8)) (by decide) h
  have hone := le_finish h
  have hlength : (bootSector block ++ (image 512 0 1 items ++ List.replicate (512 * (1024 - finish 512 1 items)) 0)).length =
      512 * (finish 512 1 items + (1024 - finish 512 1 items)) := by
    rw [List.length_append, List.length_append, List.length_replicate, hboot]
    omega
  obtain ⟨hfiles, hunused⟩ := sector_image (by decide) hboot h (List.replicate (512 * (1024 - finish 512 1 items)) 0)
  constructor
  case whole =>
    rw [hlength]
    exact Nat.dvd_mul_right _ _
  case least =>
    rw [hlength]
    omega
  case boot =>
    rw [sector_append_left hboot (by decide)]
    unfold sector
    rw [Nat.mul_zero, List.drop_zero, List.take_of_length_le (by omega)]
    rfl
  case files => exact hfiles
  case unused =>
    intro k hk hlt hfree
    rw [hlength] at hlt
    by_cases hbefore : k < finish 512 1 items
    · exact hunused k hk hbefore hfree
    · have hfront : (bootSector block ++ image 512 0 1 items).length = 512 * finish 512 1 items := by
        rw [List.length_append, hboot]
        omega
      have hbehind := sector_unused (z := (0 : UInt8)) (m := 1024 - finish 512 1 items) hfront (Nat.le_of_not_lt hbefore)
        (by omega) []
      rwa [List.append_nil, List.append_assoc] at hbehind

/-- The disk, whenever the program ends without an error. -/
theorem mkbootdisk_layout (files : List UInt8 → Option (List UInt8)) (boot : List UInt8) (args : List (List UInt8))
    (replies : List Reply) (o : Output) (h : mkbootdisk files (boot :: args) replies = some o) :
    ∃ block items, files boot = some block ∧ block.length ≤ 510 ∧ args.mapM (argItem files) = some items ∧
      Forward 512 1 items ∧ Layout block items o.written := by
  rw [mkbootdisk, Option.bind_eq_bind, Option.bind_eq_some_iff] at h
  obtain ⟨block, hblock, h⟩ := h
  dsimp only at h
  split_ifs at h with hlarge
  rw [List.length_take] at hlarge
  have hlength : block.length ≤ 510 := by omega
  rw [List.take_of_length_le (by omega)] at h
  simp only [Option.bind_eq_bind, Option.bind_eq_some_iff, Prod.exists, Option.pure_def, Option.some.injEq] at h
  obtain ⟨o₁, hboot, o₂, n, hargs, o₃, n₃, hfill, rfl⟩ := h
  obtain ⟨items, hitems, hforward, rfl, hwritten⟩ := foldlM_writeArg hargs
  refine ⟨block, items, hblock, hlength, hitems, hforward, ?_⟩
  rw [(fillTo_spec hfill).1, hwritten, (diskwrite_spec hboot).1, List.nil_append, List.append_assoc]
  exact layout_of_parts hlength hforward

/-! ### Writing without errors -/

/-- The answers of `write` are not errors, and `n` of them or more take a byte at least. -/
structure Willing (o : Output) (n : Nat) : Prop where
  unlimited : o.maxoff = 0
  harmless : ∀ r ∈ o.replies, r ≠ .error ∧ r ≠ .wrote 0
  enough : n ≤ o.replies.countP (· ≠ .interrupted)

lemma Willing.mono {m : Nat} (h : Willing o n) (hle : m ≤ n) : Willing o m :=
  ⟨h.unlimited, h.harmless, Nat.le_trans hle h.enough⟩

section Willing

variable {m fuel pos target : Nat} {f : List UInt8}

lemma Willing.writeLoop {replies : List Reply} (h : Willing { o with replies := replies } (data.length + m)) :
    ∃ o', Mkbootdisk.writeLoop replies o data = some o' ∧ Willing o' m := by
  obtain ⟨hmax, hharmless, henough⟩ := h
  dsimp only at hmax hharmless henough
  induction replies generalizing o data with
  | nil =>
    cases data with
    | nil => exact ⟨_, rfl, hmax, hharmless, by rwa [List.length_nil, Nat.zero_add] at henough⟩
    | cons c data =>
      rw [List.countP_nil, List.length_cons] at henough
      omega
  | cons reply replies ih =>
    have hrest : ∀ r ∈ replies, r ≠ .error ∧ r ≠ .wrote 0 := fun r hr => hharmless r (List.mem_cons_of_mem _ hr)
    cases data with
    | nil => exact ⟨_, rfl, hmax, hharmless, by rwa [List.length_nil, Nat.zero_add] at henough⟩
    | cons c data =>
      cases reply with
      | interrupted =>
        rw [List.countP_cons_of_neg (by decide)] at henough
        exact ih hmax hrest henough
      | error => exact absurd rfl (hharmless .error List.mem_cons_self).1
      | wrote k =>
        have hk : k ≠ 0 := by
          rintro rfl
          exact (hharmless (.wrote 0) List.mem_cons_self).2 rfl
        have hcounted : decide (Reply.wrote k ≠ .interrupted) = true := by simp
        rw [List.countP_cons, if_pos hcounted, List.length_cons] at henough
        simp only [Mkbootdisk.writeLoop, if_neg hk]
        refine ih hmax hrest ?_
        rw [List.length_drop, List.length_cons]
        omega

lemma Willing.diskwrite (h : Willing o (data.length + m)) : ∃ o', Mkbootdisk.diskwrite o data = some o' ∧ Willing o' m := by
  rw [Mkbootdisk.diskwrite, if_neg fun hlimit => hlimit.1 h.unlimited]
  exact h.writeLoop

lemma Willing.fillTo (h : Willing o (512 * fuel + m)) : ∃ r, Mkbootdisk.fillTo target fuel o n = some r ∧ Willing r.1 m := by
  induction fuel generalizing o n with
  | zero => exact ⟨_, rfl, h.mono (by omega)⟩
  | succ fuel ih =>
    rw [Mkbootdisk.fillTo]
    split
    · have hzero : zerobuf.length = 512 := List.length_replicate
      obtain ⟨o', hwrite, ho'⟩ := (h.mono (by omega : zerobuf.length + (512 * fuel + m) ≤ _)).diskwrite
      rw [hwrite]
      exact ih ho'
    · exact ⟨_, rfl, h.mono (by omega)⟩

lemma Willing.copyFile (h : Willing o (f.length + m)) :
    ∃ r, Mkbootdisk.copyFile fuel o f pos = some r ∧ Willing r.1 m := by
  induction fuel generalizing o f pos with
  | zero => exact ⟨_, rfl, h.mono (by omega)⟩
  | succ fuel ih =>
    rw [Mkbootdisk.copyFile]
    split
    · exact ⟨_, rfl, h.mono (by omega)⟩
    · have hlength : (f.take 4096).length + (f.drop 4096).length = f.length := by
        rw [← List.length_append, List.take_append_drop]
      obtain ⟨o', hwrite, ho'⟩ := (h.mono (by omega : (f.take 4096).length + ((f.drop 4096).length + m) ≤ _)).diskwrite
      rw [hwrite]
      exact ih ho'

lemma Willing.writeFile (h : Willing o (512 * count 512 f.length + m)) :
    ∃ r, Mkbootdisk.writeFile o n f = some r ∧ Willing r.1 m := by
  have hsectors := count_eq f.length
  obtain ⟨⟨o', pos⟩, hcopy, ho'⟩ : ∃ r, Mkbootdisk.copyFile f.length o f 0 = some r ∧
      Willing r.1 (512 * count 512 f.length - f.length + m) :=
    (h.mono (by split at hsectors <;> omega)).copyFile
  obtain rfl : pos = f.length := by rw [(copyFile_spec (Nat.le_refl _) hcopy).2, Nat.zero_add]
  unfold Mkbootdisk.writeFile
  rw [hcopy, Option.bind_eq_bind, Option.bind_some]
  dsimp only at ho' ⊢
  split
  · have hpad : (zerobuf.take (512 - f.length % 512)).length ≤ 512 - f.length % 512 := List.length_take_le _ _
    rw [if_pos ‹_›] at hsectors
    obtain ⟨o'', hwrite, ho''⟩ := (ho'.mono (by omega : (zerobuf.take (512 - f.length % 512)).length + m ≤ _)).diskwrite
    rw [hwrite]
    exact ⟨_, rfl, ho''⟩
  · exact ⟨_, rfl, ho'.mono (by omega)⟩

/-- The arguments are all written when they name files, and no argument skips back. -/
lemma Willing.args {args : List (List UInt8)} {items : List (Item UInt8)} (hitems : args.mapM (argItem files) = some items)
    (hforward : Forward 512 n items) (h : Willing o ((image 512 (0 : UInt8) n items).length + m)) :
    ∃ r, args.foldlM (writeArg files) (o, n) = some r ∧ Willing r.1 m := by
  induction args generalizing o n items with
  | nil => exact ⟨_, rfl, h.mono (by omega)⟩
  | cons arg args ih =>
    rw [List.mapM_cons] at hitems
    simp only [Option.bind_eq_bind, Option.bind_eq_some_iff, Option.pure_def, Option.some.injEq] at hitems
    obtain ⟨item, hitem, items', hitems', rfl⟩ := hitems
    rw [argItem] at hitem
    rw [List.foldlM_cons, writeArg]
    cases hskip : skipToSector arg with
    | some target =>
      rw [hskip] at hitem
      dsimp only at hitem
      obtain rfl := Option.some.inj hitem
      obtain ⟨hle, hforward⟩ := hforward
      rw [image, List.length_append, List.length_replicate, Nat.add_assoc] at h
      obtain ⟨⟨o', n'⟩, hfill, ho'⟩ : ∃ r, Mkbootdisk.fillTo target (target - n) o n = some r ∧ Willing r.1 _ := h.fillTo
      obtain rfl : n' = target := by rw [(fillTo_spec hfill).2, Nat.max_eq_right hle]
      dsimp only
      rw [if_neg (by omega), hfill]
      exact ih hitems' hforward ho'
    | none =>
      rw [hskip] at hitem
      dsimp only at hitem
      rw [Option.map_eq_some_iff] at hitem
      obtain ⟨f, hf, rfl⟩ := hitem
      rw [image, List.length_append, length_padded (by decide), Nat.add_assoc] at h
      obtain ⟨⟨o', n'⟩, hwrite, ho'⟩ : ∃ r, Mkbootdisk.writeFile o n f = some r ∧ Willing r.1 _ := h.writeFile
      obtain rfl : n' = n + count 512 f.length := (writeFile_spec hwrite).2
      dsimp only
      rw [hf, Option.bind_some, hwrite]
      exact ih hitems' hforward ho'

end Willing

/-- The program ends without an error when all files can be opened, no argument skips back, and all can be written. -/
lemma mkbootdisk_total {boot block : List UInt8} {args : List (List UInt8)} {items : List (Item UInt8)} {replies : List Reply}
    (hboot : files boot = some block) (hblock : block.length ≤ 510) (hitems : args.mapM (argItem files) = some items)
    (hforward : Forward 512 1 items) (hharmless : ∀ r ∈ replies, r ≠ .error ∧ r ≠ .wrote 0)
    (henough : 512 * (1024 + finish 512 1 items) ≤ replies.countP (· ≠ .interrupted)) :
    ∃ o, mkbootdisk files (boot :: args) replies = some o := by
  have himage := length_image (w := 512) (z := (0 : UInt8)) (by decide) hforward
  have hfirst := le_finish hforward
  have hsector := length_bootSector hblock
  have hstart : Willing ⟨[], 0, 0, replies⟩ ((bootSector block).length + ((image 512 (0 : UInt8) 1 items).length + 512 * 1023)) :=
    ⟨rfl, hharmless, Nat.le_trans (by omega) henough⟩
  obtain ⟨o₁, hwrite, ho₁⟩ := hstart.diskwrite
  obtain ⟨⟨o₂, n₂⟩, hargs, ho₂⟩ := ho₁.args hitems hforward
  have hn₂ : 1 ≤ n₂ := by
    obtain ⟨items', -, hforward', rfl, -⟩ := foldlM_writeArg hargs
    exact le_finish hforward'
  obtain ⟨⟨o₃, n₃⟩, hfill, -⟩ : ∃ r, fillTo 1024 (1024 - n₂) o₂ n₂ = some r ∧ Willing r.1 0 :=
    (ho₂.mono (by omega)).fillTo
  refine ⟨o₃, ?_⟩
  rw [mkbootdisk, hboot, Option.bind_eq_bind, Option.bind_some, List.take_of_length_le (by omega), if_neg (by omega)]
  rw [hwrite, Option.bind_eq_bind, Option.bind_some, hargs, Option.bind_eq_bind, Option.bind_some]
  dsimp only
  rw [hfill]
  rfl

/-! ### A disk with a gap -/

/-- The boot block and a file of 513 bytes. -/
def sampleDiskFiles (name : List UInt8) : Option (List UInt8) :=
  if name = [] then some [0xEB, 0xFE] else some (List.replicate 513 7)

/-- Some calls of `write` are interrupted, or write a part of what they are given. -/
def sampleReplies : List Reply :=
  [.wrote 100, .interrupted, .wrote 412, .wrote 512, .interrupted, .wrote 1] ++ List.replicate (512 * 1031) (.wrote 500)

/-- The file follows the boot sector, and is written again behind sector 5. -/
theorem mkbootdisk_layout_sample :
    ∃ o, mkbootdisk sampleDiskFiles [[], [ch 'k'], [ch '@', ch '5'], [ch 'k']] sampleReplies = some o ∧
      Layout [0xEB, 0xFE] [.file (List.replicate 513 7), .skip 5, .file (List.replicate 513 7)] o.written := by
  have hitems : [[ch 'k'], [ch '@', ch '5'], [ch 'k']].mapM (argItem sampleDiskFiles) =
      some [.file (List.replicate 513 7), .skip 5, .file (List.replicate 513 7)] := rfl
  have hharmless : ∀ r ∈ sampleReplies, r ≠ .error ∧ r ≠ .wrote 0 := by
    intro r hr
    rcases List.mem_append.1 hr with hr | hr
    · simp only [List.mem_cons, List.not_mem_nil, or_false] at hr
      rcases hr with rfl | rfl | rfl | rfl | rfl | rfl <;> simp
    · rw [List.eq_of_mem_replicate hr]
      simp
  have hfinish : finish 512 1 [.file (List.replicate 513 (7 : UInt8)), .skip 5, .file (List.replicate 513 7)] = 7 := by
    rw [finish, finish, finish, finish, List.length_replicate]
    rfl
  have hforward : Forward 512 1 [.file (List.replicate 513 (7 : UInt8)), .skip 5, .file (List.replicate 513 7)] := by
    rw [Forward, Forward, List.length_replicate]
    exact ⟨by decide, trivial⟩
  have henough : 512 * (1024 + 7) ≤ sampleReplies.countP (· ≠ .interrupted) := by
    rw [sampleReplies, List.countP_append, List.countP_replicate, if_pos (by simp)]
    exact Nat.le_add_left _ _
  rw [← hfinish] at henough
  obtain ⟨o, hrun⟩ := mkbootdisk_total (show sampleDiskFiles [] = some [0xEB, 0xFE] from rfl) (by decide) hitems
    hforward hharmless henough
  obtain ⟨block, items, hblock, -, hitems', -, hlayout⟩ := mkbootdisk_layout _ _ _ _ _ hrun
  obtain rfl := Option.some.inj hblock
  obtain rfl := Option.some.inj (hitems.symm.trans hitems')
  exact ⟨o, hrun, hlayout⟩

end

end Mkbootdisk

end Cs300Projects.WeensyOS
