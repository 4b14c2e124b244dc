import Cs300Projects.Fileio.ReverseCat

/-!
# Programs over any implementation

`byte_cat`, `block_cat`, `random_block_cat` and `rot13` make their calls through `io300.h`. They are run here on any library
that keeps what the header promises, as long as a seek stands between reads and writes, and so on the naive implementation
and on the one over stdio.
-/

namespace Cs300Projects.Fileio

open Loop

/-- A library that implements the interface. A state may stand for a file that is read next, or written next. -/
structure Implementation (σ : Type) where
  opened : List UInt8 → σ
  step : σ → Call → Option (Result × σ)
  close : σ → List UInt8
  Reads : σ → OpenFile → Prop
  Writes : σ → OpenFile → Prop
  opened_reads : ∀ bytes, Reads (opened bytes) ⟨bytes, 0⟩
  opened_writes : ∀ bytes, Writes (opened bytes) ⟨bytes, 0⟩
  filesize : ∀ bytes, step (opened bytes) .filesize = some (⟨bytes.length, []⟩, opened bytes)
  readc : ∀ {s f}, Reads s f → ∃ s', step s .readc = some ((contract f .readc).1, s') ∧ Reads s' (contract f .readc).2
  read : ∀ {s f} sz, Reads s f → ∃ s', step s (.read sz) = some ((contract f (.read sz)).1, s') ∧
    Reads s' (contract f (.read sz)).2
  writec : ∀ {s f} ch, ch.toNat < 256 → Writes s f → ∃ s', step s (.writec ch) = some ((contract f (.writec ch)).1, s') ∧
    Writes s' (contract f (.writec ch)).2
  write : ∀ {s f} buff, Writes s f → ∃ s', step s (.write buff) = some ((contract f (.write buff)).1, s') ∧
    Writes s' (contract f (.write buff)).2
  seek : ∀ {s f pos}, pos < 2 ^ 31 → Reads s f ∨ Writes s f → ∃ r s', step s (.seek pos) = some (r, s') ∧ r.value ≠ -1 ∧
    Reads s' { f with offset := pos } ∧ Writes s' { f with offset := pos }
  close_bytes : ∀ {s f}, Reads s f ∨ Writes s f → close s = f.bytes

/-! ### The two libraries -/

lemma naive_seek (f : OpenFile) {pos : Nat} (hpos : pos < 2 ^ 31) :
    Naive.step f (.seek pos) = some (⟨pos, []⟩, { f with offset := pos }) ∧ (pos : Int) ≠ -1 := by
  constructor
  · rw [Naive.step, io300Seek_eq f hpos]
  · omega

/-- System calls may follow one another in any order. -/
def naive : Implementation OpenFile where
  opened := fun bytes => ⟨bytes, 0⟩
  step := Naive.step
  close := Naive.io300Close
  Reads := fun s f => s = f
  Writes := fun s f => s = f
  opened_reads := fun _ => rfl
  opened_writes := fun _ => rfl
  filesize := fun _ => rfl
  readc := by
    rintro s f rfl
    exact ⟨_, naive_step s trivial, rfl⟩
  read := by
    rintro s f sz rfl
    exact ⟨_, naive_step s trivial, rfl⟩
  writec := by
    rintro s f ch hch rfl
    exact ⟨_, naive_step s hch, rfl⟩
  write := by
    rintro s f buff rfl
    exact ⟨_, naive_step s trivial, rfl⟩
  seek := by
    rintro s f pos hpos hs
    have heq : s = f := hs.elim id id
    obtain ⟨hstep, hvalue⟩ := naive_seek s hpos
    exact ⟨_, _, hstep, hvalue, by rw [heq], by rw [heq]⟩
  close_bytes := by
    rintro s f hs
    rw [hs.elim id id]
    rfl

/-- The library writes out what it likes at each call. -/
def stdio (drains : Nat → Nat) : Implementation Stream where
  opened := fun bytes => ⟨bytes, 0, [], .neutral, false, drains⟩
  step := Stdio.step
  close := Stdio.io300Close
  Reads := fun s f => s.Shows f ∧ s.mode ≠ .writing
  Writes := fun s f => s.Shows f ∧ s.mode ≠ .reading
  opened_reads := fun bytes => ⟨⟨rfl, rfl, nofun, fun h => absurd rfl h⟩, nofun⟩
  opened_writes := fun bytes => ⟨⟨rfl, rfl, nofun, fun h => absurd rfl h⟩, nofun⟩
  filesize := fun _ => rfl
  readc := by
    rintro s f ⟨hs, hmode⟩
    obtain ⟨r, s', hstep, h⟩ := hs.step_readc hmode
    rw [h.result trivial nofun] at hstep
    exact ⟨s', hstep, h.shown, fun hw => (h.writing hw).elim nofun fun hold => hmode hold.2⟩
  read := by
    rintro s f sz ⟨hs, hmode⟩
    obtain ⟨r, s', hstep, h⟩ := hs.step_read sz hmode
    rw [h.result trivial nofun] at hstep
    exact ⟨s', hstep, h.shown, fun hw => (h.writing hw).elim nofun fun hold => hmode hold.2⟩
  writec := by
    rintro s f ch hch ⟨hs, hmode⟩
    obtain ⟨r, s', hstep, h⟩ := hs.step_writec ch hmode
    rw [h.result hch nofun] at hstep
    exact ⟨s', hstep, h.shown, fun hr => (h.reading hr).elim nofun fun hold => hmode hold.2⟩
  write := by
    rintro s f buff ⟨hs, hmode⟩
    obtain ⟨r, s', hstep, h⟩ := hs.step_write buff hmode
    rw [h.result trivial nofun] at hstep
    exact ⟨s', hstep, h.shown, fun hr => (h.reading hr).elim nofun fun hold => hmode hold.2⟩
  seek := by
    rintro s f pos - hs
    have hshows : s.Shows f := hs.elim And.left And.left
    have hmode : (s.fseek pos).mode = .neutral := rfl
    have hvalue : (0 : Int) ≠ -1 := by decide
    exact ⟨⟨0, []⟩, s.fseek pos, rfl, hvalue, ⟨hshows.fseek pos, by rw [hmode]; nofun⟩, ⟨hshows.fseek pos, by rw [hmode]; nofun⟩⟩
  close_bytes := by
    rintro s f hs
    have hshows : s.Shows f := hs.elim And.left And.left
    exact hshows.fflush.fflush_bytes

/-! ### The programs -/

section Programs

variable {σ : Type} (I : Implementation σ)

structure CatState (σ : Type) where
  inf : σ
  outf : σ
  i : Int

/-- One round of the loop of `byte_cat`. -/
def byteCatRound (filesize : Int) (s : CatState σ) : Round (CatState σ) (Option Finished) :=
  if ¬ s.i < filesize then .done (some ⟨0, I.close s.outf⟩)
  else
    match I.step s.inf .readc with
    | none => .done none
    | some (r, inf) =>
      if r.value = -1 then .done (some ⟨1, I.close s.outf⟩)
      else
        match I.step s.outf (.writec (BitVec.ofInt 32 r.value)) with
        | none => .done none
        | some (w, outf) =>
          if w.value = -1 then .done (some ⟨1, I.close outf⟩) else .next ⟨inf, outf, toInt (s.i + 1)⟩

def byteCat (fuel : Nat) (infile outfile : List UInt8) : Option Finished :=
  match I.step (I.opened infile) .filesize with
  | none => none
  | some (r, inf) =>
    if r.value ≤ 0 then some ⟨1, I.close (I.opened outfile)⟩
    else (run (byteCatRound I r.value) fuel ⟨inf, I.opened outfile, 0⟩).join

structure BlockState (σ : Type) where
  inf : σ
  outf : σ
  exitStatus : Nat
  n : Nat

/-- One round of the loop `while (1)` over two files, which reads `sizes n` bytes in round `n`. -/
def blockCatRound (sizes : Nat → Nat) (s : BlockState σ) : Round (BlockState σ) (Option Finished) :=
  match I.step s.inf (.read (sizes s.n)) with
  | none => .done none
  | some (r, inf) =>
    if r.value = 0 ∨ r.value = -1 then .done (some ⟨s.exitStatus, I.close s.outf⟩)
    else
      match I.step s.outf (.write (r.buff.take r.value.toNat)) with
      | none => .done none
      | some (w, outf) => .next ⟨inf, outf, if w.value = -1 then 1 else s.exitStatus, s.n + 1⟩

/-- `malloc` fails for a negative size. -/
def blockCat (fuel : Nat) (bufferSize : BitVec 32) (infile outfile : List UInt8) : Option Finished :=
  if bufferSize.toInt < 0 then some ⟨1, I.close (I.opened outfile)⟩
  else (run (blockCatRound I fun _ => bufferSize.toInt.toNat) fuel ⟨I.opened infile, I.opened outfile, 0, 0⟩).join

def maxBlockSize : Nat := 30

/-- `rand n` is what `rand` returns in round `n`. -/
def randomBlockCat (fuel : Nat) (rand : Nat → Nat) (infile outfile : List UInt8) : Option Finished :=
  match I.step (I.opened infile) .filesize with
  | none => none
  | some (r, inf) =>
    if r.value ≤ 0 then some ⟨1, I.close (I.opened outfile)⟩
    else (run (blockCatRound I fun n => rand n % maxBlockSize + 1) fuel ⟨inf, I.opened outfile, 0, 0⟩).join

def rot13 (ch : UInt8) : UInt8 :=
  if ch ≥ 65 ∧ ch ≤ 90 then 65 + ((ch - 65) + 13) % 26
  else if ch ≥ 97 ∧ ch ≤ 122 then 97 + ((ch - 97) + 13) % 26
  else ch

structure RotState (σ : Type) where
  inf : σ
  i : Int

/-- One round of the loop of `rot13`, which reads and writes the same file. -/
def rot13Round (filesize : Int) (s : RotState σ) : Round (RotState σ) (Option Finished) :=
  if ¬ s.i < filesize then .done (some ⟨0, I.close s.inf⟩)
  else
    match I.step s.inf (.seek s.i.toNat) with
    | none => .done none
    | some (r, inf) =>
      if r.value = -1 then .done (some ⟨1, I.close inf⟩)
      else
        match I.step inf .readc with
        | none => .done none
        | some (ch, inf) =>
          if ch.value = -1 then .done (some ⟨1, I.close inf⟩)
          else
            match I.step inf (.seek s.i.toNat) with
            | none => .done none
            | some (r, inf) =>
              if r.value = -1 then .done (some ⟨1, I.close inf⟩)
              else
                match I.step inf (.writec (BitVec.ofNat 32 (rot13 (byteOf (BitVec.ofInt 32 ch.value))).toNat)) with
                | none => .done none
                | some (w, inf) =>
                  if w.value = -1 then .done (some ⟨1, I.close inf⟩) else .next ⟨inf, toInt (s.i + 1)⟩

def rot13Main (fuel : Nat) (infile : List UInt8) : Option Finished :=
  match I.step (I.opened infile) .filesize with
  | none => none
  | some (r, inf) =>
    if r.value = -1 then some ⟨1, I.close inf⟩ else (run (rot13Round I r.value) fuel ⟨inf, 0⟩).join

end Programs

/-! ### Copying -/

/-- A byte that was read, as it is passed on. -/
lemma byte_ofInt (c : UInt8) : (BitVec.ofInt 32 c.toNat).toNat < 256 ∧ byteOf (BitVec.ofInt 32 c.toNat) = c := by
  have hlt := c.toNat_lt
  have hnat : (BitVec.ofInt 32 c.toNat).toNat = c.toNat := by
    rw [BitVec.ofInt_natCast, BitVec.toNat_ofNat, Nat.mod_eq_of_lt (by omega)]
  rw [byteOf, hnat, UInt8.ofNat_toNat]
  exact ⟨hlt, rfl⟩

lemma byte_ofNat (c : UInt8) : (BitVec.ofNat 32 c.toNat).toNat < 256 ∧ byteOf (BitVec.ofNat 32 c.toNat) = c := by
  have hbyte := byte_ofInt c
  rwa [BitVec.ofInt_natCast] at hbyte

lemma contract_readc {bytes : List UInt8} {k : Nat} {c : UInt8} (hc : bytes[k]? = some c) :
    contract ⟨bytes, k⟩ .readc = (⟨c.toNat, []⟩, ⟨bytes, k + 1⟩) := by
  unfold contract
  dsimp only
  rw [hc]

section Copy

variable {σ : Type} {I : Implementation σ} {infile outfile : List UInt8}

/-- The first `k` bytes are copied. -/
structure CopyAt (I : Implementation σ) (infile outfile : List UInt8) (k : Nat) (inf outf : σ) : Prop where
  inf : I.Reads inf ⟨infile, k⟩
  outf : I.Writes outf (OpenFile.replaced outfile (infile.take k))

lemma copyAt_start (I : Implementation σ) (infile outfile : List UInt8) :
    CopyAt I infile outfile 0 (I.opened infile) (I.opened outfile) :=
  ⟨I.opened_reads infile, I.opened_writes outfile⟩

/-- At the end the rest of the old file is left. -/
lemma CopyAt.close {k : Nat} {inf outf : σ} (h : CopyAt I infile outfile k inf outf) (hk : infile.length ≤ k) :
    I.close outf = infile ++ outfile.drop infile.length := by
  rw [I.close_bytes (Or.inr h.outf), List.take_of_length_le hk, OpenFile.replaced_bytes]

section Byte

variable {s : CatState σ} {k : Nat}

lemma byteCatRound_next (hfit : infile.length < 2 ^ 31) (hk : k < infile.length)
    (h : CopyAt I infile outfile k s.inf s.outf) (hi : s.i = k) :
    ∃ s', byteCatRound I infile.length s = .next s' ∧ CopyAt I infile outfile (k + 1) s'.inf s'.outf ∧ s'.i = (k + 1 : Nat) := by
  obtain ⟨hlt, hbyte⟩ := byte_ofInt infile[k]
  obtain ⟨inf, hread, hinf⟩ := I.readc h.inf
  obtain ⟨outf, hwrite, houtf⟩ := I.writec _ hlt h.outf
  rw [contract_readc (List.getElem?_eq_getElem hk)] at hread hinf
  have hstored : (contract (OpenFile.replaced outfile (infile.take k)) (.writec (BitVec.ofInt 32 infile[k].toNat))) =
      (⟨infile[k].toNat, []⟩, OpenFile.replaced outfile (infile.take (k + 1))) := by
    unfold contract
    dsimp only
    rw [hbyte, OpenFile.write_replaced, List.take_succ_eq_append_getElem hk]
  rw [hstored] at hwrite houtf
  refine ⟨⟨inf, outf, k + 1⟩, ?_, ⟨hinf, houtf⟩, rfl⟩
  unfold byteCatRound
  rw [if_neg (by omega), hread]
  dsimp only
  rw [if_neg (by omega), hwrite]
  dsimp only
  rw [if_neg (by omega), hi, toInt_eq (by omega) (by omega)]

lemma run_byteCatRound (hfit : infile.length < 2 ^ 31) (n : Nat) (hn : k + n = infile.length)
    (h : CopyAt I infile outfile k s.inf s.outf) (hi : s.i = k) {fuel : Nat} (hfuel : n < fuel) :
    run (byteCatRound I infile.length) fuel s = some (some ⟨0, infile ++ outfile.drop infile.length⟩) := by
  induction n generalizing s k fuel with
  | zero =>
    obtain ⟨fuel, rfl⟩ := Nat.exists_eq_add_of_lt hfuel
    have hdone : byteCatRound I infile.length s = .done (some ⟨0, infile ++ outfile.drop infile.length⟩) := by
      unfold byteCatRound
      rw [if_pos (by omega), h.close (by omega)]
    exact run_done _ hdone _
  | succ n ih =>
    obtain ⟨s', hround, hs', hi'⟩ := byteCatRound_next hfit (by omega) h hi
    obtain ⟨fuel, rfl⟩ : ∃ fuel', fuel = fuel' + 1 := ⟨fuel - 1, by omega⟩
    rw [run_next _ hround]
    exact ih (by omega) hs' hi' (by omega)

lemma byteCat_eq (I : Implementation σ) (outfile : List UInt8) (hne : infile ≠ []) (hfit : infile.length < 2 ^ 31) {fuel : Nat}
    (hfuel : infile.length < fuel) : byteCat I fuel infile outfile = some ⟨0, infile ++ outfile.drop infile.length⟩ := by
  have hlength := List.length_pos_iff.2 hne
  unfold byteCat
  rw [I.filesize]
  dsimp only
  rw [if_neg (by omega), run_byteCatRound hfit infile.length (Nat.zero_add _) (copyAt_start I infile outfile) rfl hfuel]
  rfl

end Byte

section Block

variable {s : BlockState σ} {k : Nat} {sizes : Nat → Nat}

/-- A round copies the next bytes. -/
lemma blockCatRound_next (hk : k < infile.length) (h : CopyAt I infile outfile k s.inf s.outf) (hstatus : s.exitStatus = 0)
    (hsize : 0 < sizes s.n) :
    ∃ s', blockCatRound I sizes s = .next s' ∧
      CopyAt I infile outfile (k + min (sizes s.n) (infile.length - k)) s'.inf s'.outf ∧ s'.exitStatus = 0 ∧ s'.n = s.n + 1 := by
  obtain ⟨inf, hread, hinf⟩ := I.read (sizes s.n) h.inf
  obtain ⟨outf, hwrite, houtf⟩ := I.write ((infile.drop k).take (sizes s.n)) h.outf
  have hlength : ((infile.drop k).take (sizes s.n)).length = min (sizes s.n) (infile.length - k) := by
    rw [List.length_take, List.length_drop]
  have hgot : contract ⟨infile, k⟩ (.read (sizes s.n)) =
      (⟨(min (sizes s.n) (infile.length - k) : Nat), (infile.drop k).take (sizes s.n)⟩,
        ⟨infile, k + min (sizes s.n) (infile.length - k)⟩) := by
    unfold contract OpenFile.read
    dsimp only
    rw [hlength]
  have hput : contract (OpenFile.replaced outfile (infile.take k)) (.write ((infile.drop k).take (sizes s.n))) =
      (⟨(min (sizes s.n) (infile.length - k) : Nat), []⟩,
        OpenFile.replaced outfile (infile.take (k + min (sizes s.n) (infile.length - k)))) := by
    have htake : (infile.drop k).take (sizes s.n) = (infile.drop k).take (min (sizes s.n) (infile.length - k)) := by
      rw [List.take_eq_take_iff, List.length_drop]
      omega
    unfold contract
    dsimp only
    rw [OpenFile.write_replaced, hlength, List.take_add, ← htake]
  rw [hgot] at hread hinf
  rw [hput] at hwrite houtf
  refine ⟨⟨inf, outf, 0, s.n + 1⟩, ?_, ⟨hinf, houtf⟩, rfl, rfl⟩
  have hall : ((infile.drop k).take (sizes s.n)).take (min (sizes s.n) (infile.length - k)) = (infile.drop k).take (sizes s.n) :=
    List.take_of_length_le (Nat.le_of_eq hlength)
  unfold blockCatRound
  rw [hread]
  dsimp only
  rw [if_neg (by omega), Int.toNat_natCast, hall, hwrite]
  dsimp only
  rw [if_neg (by omega), hstatus]

lemma blockCatRound_done (hk : infile.length ≤ k) (h : CopyAt I infile outfile k s.inf s.outf) (hstatus : s.exitStatus = 0) :
    blockCatRound I sizes s = .done (some ⟨0, infile ++ outfile.drop infile.length⟩) := by
  obtain ⟨inf, hread, -⟩ := I.read (sizes s.n) h.inf
  have hgot : (contract ⟨infile, k⟩ (.read (sizes s.n))).1 = ⟨0, []⟩ := by
    unfold contract OpenFile.read
    dsimp only
    rw [List.drop_of_length_le hk, List.take_nil]
    rfl
  rw [hgot] at hread
  unfold blockCatRound
  rw [hread]
  dsimp only
  rw [if_pos (Or.inl rfl), hstatus, h.close hk]

lemma run_blockCatRound (hsizes : ∀ n, 0 < sizes n) (n : Nat) (hn : infile.length ≤ k + n)
    (h : CopyAt I infile outfile k s.inf s.outf) (hstatus : s.exitStatus = 0) {fuel : Nat} (hfuel : n < fuel) :
    run (blockCatRound I sizes) fuel s = some (some ⟨0, infile ++ outfile.drop infile.length⟩) := by
  induction n generalizing s k fuel with
  | zero =>
    obtain ⟨fuel, rfl⟩ := Nat.exists_eq_add_of_lt hfuel
    exact run_done _ (blockCatRound_done (by omega) h hstatus) _
  | succ n ih =>
    obtain ⟨fuel, rfl⟩ : ∃ fuel', fuel = fuel' + 1 := ⟨fuel - 1, by omega⟩
    by_cases hk : k < infile.length
    · have hsize := hsizes s.n
      obtain ⟨s', hround, hs', hstatus', -⟩ := blockCatRound_next hk h hstatus hsize
      rw [run_next _ hround]
      exact ih (by omega) hs' hstatus' (by omega)
    · exact run_done _ (blockCatRound_done (by omega) h hstatus) _

lemma blockCat_eq (I : Implementation σ) (infile outfile : List UInt8) {bufferSize : BitVec 32} (hb : 0 < bufferSize.toInt)
    {fuel : Nat} (hfuel : infile.length < fuel) :
    blockCat I fuel bufferSize infile outfile = some ⟨0, infile ++ outfile.drop infile.length⟩ := by
  have hsizes : ∀ n : Nat, 0 < (fun _ => bufferSize.toInt.toNat) n := fun _ => by dsimp only; omega
  unfold blockCat
  rw [if_neg (by omega),
    run_blockCatRound hsizes infile.length (by omega) (copyAt_start I infile outfile) rfl hfuel]
  rfl

lemma randomBlockCat_eq (I : Implementation σ) (outfile : List UInt8) (hne : infile ≠ []) (rand : Nat → Nat) {fuel : Nat}
    (hfuel : infile.length < fuel) :
    randomBlockCat I fuel rand infile outfile = some ⟨0, infile ++ outfile.drop infile.length⟩ := by
  have hlength := List.length_pos_iff.2 hne
  have hsizes : ∀ n, 0 < (fun n => rand n % maxBlockSize + 1) n := fun n => Nat.succ_pos _
  unfold randomBlockCat
  rw [I.filesize]
  dsimp only
  rw [if_neg (by omega),
    run_blockCatRound hsizes infile.length (by omega) (copyAt_start I infile outfile) rfl hfuel]
  rfl

end Block

end Copy

/-- The three programs copy their input over the output file, on the naive library and on stdio, whatever the sizes of the
blocks are and whenever stdio writes them out. -/
theorem cats_copy (infile outfile : List UInt8) (hne : infile ≠ []) (hfit : infile.length < 2 ^ 31) {bufferSize : BitVec 32}
    (hb : 0 < bufferSize.toInt) (rand drains : Nat → Nat) {fuel : Nat} (hfuel : infile.length < fuel) :
    let copied := some ⟨0, infile ++ outfile.drop infile.length⟩
    (byteCat naive fuel infile outfile = copied ∧ blockCat naive fuel bufferSize infile outfile = copied ∧
      randomBlockCat naive fuel rand infile outfile = copied) ∧
    byteCat (stdio drains) fuel infile outfile = copied ∧ blockCat (stdio drains) fuel bufferSize infile outfile = copied ∧
      randomBlockCat (stdio drains) fuel rand infile outfile = copied :=
  ⟨⟨byteCat_eq naive outfile hne hfit hfuel, blockCat_eq naive infile outfile hb hfuel,
      randomBlockCat_eq naive outfile hne rand hfuel⟩,
    byteCat_eq (stdio drains) outfile hne hfit hfuel, blockCat_eq (stdio drains) infile outfile hb hfuel,
    randomBlockCat_eq (stdio drains) outfile hne rand hfuel⟩

theorem cats_copy_sample : byteCat naive 4 [1, 2, 3] [9, 9, 9, 9] = some ⟨0, [1, 2, 3, 9]⟩ ∧
    blockCat (stdio fun n => n % 2) 4 2#32 [1, 2, 3] [] = some ⟨0, [1, 2, 3]⟩ :=
  ⟨(cats_copy [1, 2, 3] [9, 9, 9, 9] (by decide) (by decide) (by decide : 0 < (2#32).toInt) id id (by decide)).1.1,
    (cats_copy [1, 2, 3] [] (by decide) (by decide) (by decide) id (fun n => n % 2) (by decide)).2.2.1⟩

/-! ### Changing a file in place -/

section Rot

variable {σ : Type} {I : Implementation σ} {infile : List UInt8} {s : RotState σ} {k : Nat}

/-- The file with its first `k` bytes changed. -/
def rotated (infile : List UInt8) (k : Nat) : List UInt8 := (infile.take k).map rot13 ++ infile.drop k

lemma length_rotated (infile : List UInt8) (k : Nat) : (rotated infile k).length = infile.length := by
  unfold rotated
  rw [List.length_append, List.length_map, List.length_take, List.length_drop]
  omega

lemma rotated_getElem? (hk : k < infile.length) : (rotated infile k)[k]? = some infile[k] := by
  have htake : ((infile.take k).map rot13).length = k := by
    rw [List.length_map, List.length_take]
    omega
  unfold rotated
  rw [List.getElem?_append_right (by omega), htake, Nat.sub_self, List.getElem?_drop, Nat.add_zero, List.getElem?_eq_getElem hk]

lemma overwrite_rotated (hk : k < infile.length) : overwrite 0 (rotated infile k) k [rot13 infile[k]] = rotated infile (k + 1) := by
  have htake : ((infile.take k).map rot13).length = k := by
    rw [List.length_map, List.length_take]
    omega
  have hlength := length_rotated infile k
  rw [overwrite_eq 0 _ _ (List.cons_ne_nil _ _), hlength, Nat.sub_eq_zero_of_le (by omega), List.replicate_zero, List.append_nil,
    List.length_singleton]
  unfold rotated
  rw [List.take_left' htake, ← List.drop_drop, List.drop_left' htake, List.drop_drop, List.take_succ_eq_append_getElem hk,
    List.map_append, List.map_singleton]

/-- The file is read up to byte `k`, and may be read or written after a seek. -/
structure RotAt (I : Implementation σ) (infile : List UInt8) (k : Nat) (s : RotState σ) : Prop where
  file : ∃ offset, I.Reads s.inf ⟨rotated infile k, offset⟩ ∨ I.Writes s.inf ⟨rotated infile k, offset⟩
  i : s.i = k

lemma rot13Round_next (hfit : infile.length < 2 ^ 31) (hk : k < infile.length) (h : RotAt I infile k s) :
    ∃ s', rot13Round I infile.length s = .next s' ∧ RotAt I infile (k + 1) s' := by
  obtain ⟨offset, hfile⟩ := h.file
  have hi := h.i
  have hpos : s.i.toNat = k := by omega
  obtain ⟨hlt, hbyte⟩ := byte_ofNat (rot13 infile[k])
  have hread : contract ⟨rotated infile k, k⟩ .readc = (⟨infile[k].toNat, []⟩, ⟨rotated infile k, k + 1⟩) :=
    contract_readc (rotated_getElem? hk)
  have hwrite : contract ⟨rotated infile k, k⟩ (.writec (BitVec.ofNat 32 (rot13 infile[k]).toNat)) =
      (⟨(rot13 infile[k]).toNat, []⟩, ⟨rotated infile (k + 1), k + 1⟩) := by
    unfold contract OpenFile.write
    dsimp only
    rw [hbyte, overwrite_rotated hk, List.length_singleton]
  obtain ⟨r₁, s₁, hseek₁, hne₁, hreads, -⟩ := I.seek (by omega : k < 2 ^ 31) hfile
  obtain ⟨s₂, hreadc, hreads'⟩ := I.readc hreads
  obtain ⟨r₃, s₃, hseek₃, hne₃, -, hwrites⟩ := I.seek (by omega : k < 2 ^ 31) (Or.inl hreads')
  rw [hread] at hreadc hwrites
  obtain ⟨s₄, hwritec, hwrites'⟩ := I.writec _ hlt hwrites
  rw [hwrite] at hwritec hwrites'
  refine ⟨⟨s₄, k + 1⟩, ?_, ⟨k + 1, Or.inr hwrites'⟩, rfl⟩
  unfold rot13Round
  rw [if_neg (by omega), hpos, hseek₁]
  dsimp only
  rw [if_neg hne₁, hreadc]
  dsimp only
  rw [if_neg (by omega), hseek₃]
  dsimp only
  rw [if_neg hne₃, (byte_ofInt infile[k]).2, hwritec]
  dsimp only
  rw [if_neg (by omega), hi, toInt_eq (by omega) (by omega)]

lemma run_rot13Round (hfit : infile.length < 2 ^ 31) (n : Nat) (hn : k + n = infile.length) (h : RotAt I infile k s) {fuel : Nat}
    (hfuel : n < fuel) : run (rot13Round I infile.length) fuel s = some (some ⟨0, infile.map rot13⟩) := by
  induction n generalizing s k fuel with
  | zero =>
    obtain ⟨fuel, rfl⟩ := Nat.exists_eq_add_of_lt hfuel
    obtain ⟨offset, hfile⟩ := h.file
    have hall : rotated infile k = infile.map rot13 := by
      unfold rotated
      rw [List.take_of_length_le (by omega), List.drop_of_length_le (by omega), List.append_nil]
    have hdone : rot13Round I infile.length s = .done (some ⟨0, infile.map rot13⟩) := by
      have hi := h.i
      unfold rot13Round
      rw [if_pos (by omega), I.close_bytes hfile, hall]
    exact run_done _ hdone _
  | succ n ih =>
    obtain ⟨s', hround, hs'⟩ := rot13Round_next hfit (by omega) h
    obtain ⟨fuel, rfl⟩ : ∃ fuel', fuel = fuel' + 1 := ⟨fuel - 1, by omega⟩
    rw [run_next _ hround]
    exact ih (by omega) hs' (by omega)

lemma rot13Main_eq (I : Implementation σ) (hfit : infile.length < 2 ^ 31) {fuel : Nat} (hfuel : infile.length < fuel) :
    rot13Main I fuel infile = some ⟨0, infile.map rot13⟩ := by
  have hstart : RotAt I infile 0 ⟨I.opened infile, 0⟩ := ⟨⟨0, Or.inl (I.opened_reads infile)⟩, rfl⟩
  unfold rot13Main
  rw [I.filesize]
  dsimp only
  rw [if_neg (by omega), run_rot13Round hfit infile.length (Nat.zero_add _) hstart hfuel]
  rfl

lemma rot13_rot13 : ∀ c, rot13 (rot13 c) = c := by
  have hall : ∀ c : Fin 256, rot13 (rot13 (UInt8.ofNat c)) = UInt8.ofNat c := by decide +kernel
  intro c
  have hc := hall ⟨c.toNat, c.toNat_lt⟩
  rwa [UInt8.ofNat_toNat] at hc

end Rot

/-- `rot13` turns every letter of the file by 13 and leaves the rest, on both libraries, and a second run gives the file back. -/
theorem rot13_in_place (infile : List UInt8) (hfit : infile.length < 2 ^ 31) (drains drains' : Nat → Nat) {fuel : Nat}
    (hfuel : infile.length < fuel) :
    rot13Main naive fuel infile = some ⟨0, infile.map rot13⟩ ∧
    rot13Main (stdio drains) fuel infile = some ⟨0, infile.map rot13⟩ ∧
    ((rot13Main (stdio drains) fuel infile).bind fun first => rot13Main (stdio drains') fuel first.outfile) =
      some ⟨0, infile⟩ := by
  have htwice : (infile.map rot13).map rot13 = infile := by
    rw [List.map_map]
    exact List.map_id'' rot13_rot13 infile
  refine ⟨rot13Main_eq naive hfit hfuel, rot13Main_eq (stdio drains) hfit hfuel, ?_⟩
  rw [rot13Main_eq (stdio drains) hfit hfuel, Option.bind_some,
    rot13Main_eq (stdio drains') (by rwa [List.length_map]) (by rwa [List.length_map]), htwice]

theorem rot13_in_place_sample : rot13Main (stdio fun _ => 1) 4 [72, 105, 33] = some ⟨0, [85, 118, 33]⟩ :=
  (rot13_in_place [72, 105, 33] (by decide) (fun _ => 1) id (by decide)).2.1

end Cs300Projects.Fileio
