import Cs300Projects.Fileio.Streams
import Cs300Projects.Lib.Loop

/-!
# Writing a file backwards

`reverse_byte_cat` and `reverse_block_cat` over the naive implementation. Both files are regular files that can be
opened, reads are complete up to the end of the file, and there is memory for
the buffers. An `int` wraps around.
-/

namespace Cs300Projects.Fileio

open Loop Naive

/-- The conversion to an `int`. -/
def toInt (x : Int) : Int := x.bmod (2 ^ 32)

/-- What a program leaves: its exit status and the bytes of its output file. -/
structure Finished where
  exitStatus : Nat
  outfile : List UInt8
  deriving DecidableEq

/-- The state of a loop `for (int i = ...; i >= 0; ...)` over two files. -/
structure ReverseState where
  inf : OpenFile
  outf : OpenFile
  i : Int

/-- `out_buffer[j] = in_buffer[(n - 1) - j]` for the `j < n`. -/
def reverseBuffer (inBuffer : List UInt8) (n : Nat) : List UInt8 :=
  (List.range n).map fun j => inBuffer.getD (n - 1 - j) 0

/-- One round of the loop of `reverse_block_cat`. -/
def reverseBlockRound (bufferSize : BitVec 32) (s : ReverseState) : Round ReverseState Finished :=
  if ¬ s.i ≥ 0 then .done ⟨0, io300Close s.outf⟩
  else
    let (r, inf) := io300Seek s.inf s.i.toNat
    if r = -1 then .done ⟨1, io300Close s.outf⟩
    else
      let (amount, inBuffer, inf) := io300Read inf bufferSize.toInt.toNat
      let n := toInt amount
      if n = -1 then .done ⟨0, io300Close s.outf⟩
      else
        let (r, outf) := io300Write s.outf (reverseBuffer inBuffer n.toNat)
        if r = -1 then .done ⟨1, io300Close outf⟩
        else .next ⟨inf, outf, toInt (s.i - bufferSize.toInt)⟩

def reverseBlockCat (fuel : Nat) (bufferSize : BitVec 32) (infile outfile : List UInt8) : Option Finished :=
  if bufferSize.toInt = 0 then some ⟨1, outfile⟩
  else
    let inf : OpenFile := ⟨infile, 0⟩
    let outf : OpenFile := ⟨outfile, 0⟩
    let filesize := io300Filesize inf
    if filesize ≤ 0 then some ⟨1, io300Close outf⟩
    -- a negative size is converted to one of almost 2⁶⁴, for which `malloc` fails
    else if bufferSize.toInt < 0 then some ⟨1, io300Close outf⟩
    else run (reverseBlockRound bufferSize) fuel ⟨inf, outf, toInt (filesize - filesize.tmod bufferSize.toInt)⟩

/-- One round of the loop of `reverse_byte_cat`. -/
def reverseByteRound (s : ReverseState) : Round ReverseState Finished :=
  if ¬ s.i ≥ 0 then .done ⟨0, io300Close s.outf⟩
  else
    let (r, inf) := io300Seek s.inf s.i.toNat
    if r = -1 then .done ⟨1, io300Close s.outf⟩
    else
      let (ch, inf) := io300Readc inf
      if ch = -1 then .done ⟨1, io300Close s.outf⟩
      else
        let (r, outf) := io300Writec s.outf (BitVec.ofInt 32 ch)
        if r = -1 then .done ⟨1, io300Close outf⟩
        else .next ⟨inf, outf, toInt (s.i - 1)⟩

def reverseByteCat (fuel : Nat) (infile outfile : List UInt8) : Option Finished :=
  let inf : OpenFile := ⟨infile, 0⟩
  let outf : OpenFile := ⟨outfile, 0⟩
  let filesize := io300Filesize inf
  if filesize ≤ 0 then some ⟨1, outfile⟩
  else run reverseByteRound fuel ⟨inf, outf, toInt (filesize - 1)⟩

/-! ### Files that are written from the start -/

/-- The file `old`, of which the bytes from the start on have been replaced by `data`. -/
def OpenFile.replaced (old data : List UInt8) : OpenFile := ⟨overwrite 0 old 0 data, data.length⟩

lemma OpenFile.write_replaced (old data more : List UInt8) :
    (OpenFile.replaced old data).write more = (more.length, OpenFile.replaced old (data ++ more)) := by
  have happend := overwrite_append 0 old 0 data more
  rw [Nat.zero_add] at happend
  unfold OpenFile.write OpenFile.replaced
  rw [happend, List.length_append]

/-- At the end the rest of the old file is left, if it was longer. -/
lemma OpenFile.replaced_bytes (old data : List UInt8) :
    (OpenFile.replaced old data).bytes = data ++ old.drop data.length := by
  unfold OpenFile.replaced
  by_cases h : data = []
  · rw [h]
    rfl
  · rw [overwrite_eq 0 old 0 h, List.take_zero, List.nil_append, Nat.zero_add]

lemma toInt_eq {x : Int} (hlo : -2 ^ 31 ≤ x) (hhi : x < 2 ^ 31) : toInt x = x := by
  unfold toInt
  exact Int.bmod_eq_of_le (by omega) (by omega)

lemma io300Seek_eq (f : OpenFile) {pos : Nat} (h : pos < 2 ^ 31) :
    io300Seek f pos = ((pos : Int), { f with offset := pos }) := by
  have hfit : (BitVec.ofNat 32 pos).toInt = pos := by
    rw [BitVec.toInt_eq_toNat_bmod, BitVec.toNat_ofNat, Nat.mod_eq_of_lt (by omega)]
    exact toInt_eq (by omega) (by omega)
  unfold io300Seek OpenFile.lseek
  dsimp only
  rw [hfit]

lemma reverseBuffer_eq (data : List UInt8) : reverseBuffer data data.length = data.reverse := by
  apply List.ext_getElem?
  intro j
  unfold reverseBuffer
  rw [List.getElem?_map]
  by_cases hj : j < data.length
  · rw [List.getElem?_range hj, List.getElem?_reverse hj, Option.map_some, List.getD_eq_getElem?_getD,
      List.getElem?_eq_getElem (by omega), Option.getD_some]
  · rw [List.getElem?_eq_none (by rw [List.length_range]; omega),
      List.getElem?_eq_none (by rw [List.length_reverse]; omega)]
    rfl

/-! ### Blocks from the end on -/

section Block

variable {infile outfile : List UInt8} {bufferSize : BitVec 32} {b j : Nat} {s : ReverseState}

/-- The blocks from number `j` on are written, and the next one is the one before. -/
structure BlockAt (infile outfile : List UInt8) (b j : Nat) (s : ReverseState) : Prop where
  inf : s.inf.bytes = infile
  outf : s.outf = OpenFile.replaced outfile (infile.drop (j * b)).reverse
  i : s.i = (j * b : Nat) - (b : Int)

lemma reverse_drop_block (xs : List UInt8) (j b : Nat) :
    (xs.drop ((j + 1) * b)).reverse ++ ((xs.drop (j * b)).take b).reverse = (xs.drop (j * b)).reverse := by
  have hdrop : xs.drop ((j + 1) * b) = (xs.drop (j * b)).drop b := by rw [List.drop_drop, Nat.succ_mul]
  rw [hdrop, ← List.reverse_append, List.take_append_drop]

lemma reverseBlockRound_next (hb : bufferSize.toInt = b) (hfit : infile.length < 2 ^ 31) (hj : j * b ≤ infile.length)
    (h : BlockAt infile outfile b (j + 1) s) :
    ∃ s', reverseBlockRound bufferSize s = .next s' ∧ BlockAt infile outfile b j s' := by
  have hi : s.i = (j * b : Nat) := by
    rw [h.i, Nat.succ_mul]
    omega
  have hlt : b < 2 ^ 31 := by
    have hmax := BitVec.two_mul_toInt_lt (x := bufferSize)
    omega
  have hread : ((infile.drop (j * b)).take b).length ≤ infile.length := by
    rw [List.length_take, List.length_drop]
    omega
  have hn : toInt ((infile.drop (j * b)).take b).length = ((infile.drop (j * b)).take b).length := toInt_eq (by omega) (by omega)
  have hnext : toInt (s.i - bufferSize.toInt) = s.i - b := by
    rw [hb]
    exact toInt_eq (by omega) (by omega)
  refine ⟨⟨⟨infile, j * b + ((infile.drop (j * b)).take b).length⟩, OpenFile.replaced outfile (infile.drop (j * b)).reverse,
    s.i - b⟩, ?_, rfl, rfl, by dsimp only; rw [hi]⟩
  unfold reverseBlockRound
  rw [if_neg (by omega), hnext]
  have hpos : s.i.toNat = j * b := by omega
  rw [hpos, io300Seek_eq _ (by omega)]
  dsimp only
  rw [if_neg (by omega), hb]
  simp only [io300Read, OpenFile.read, h.inf, Int.toNat_natCast, hn, reverseBuffer_eq, io300Write, h.outf,
    OpenFile.write_replaced, reverse_drop_block]
  rw [if_neg (by omega), if_neg (by omega)]

lemma reverseBlockRound_done (hb : 0 < b) (h : BlockAt infile outfile b 0 s) :
    reverseBlockRound bufferSize s = .done ⟨0, infile.reverse ++ outfile.drop infile.length⟩ := by
  have hi := h.i
  have houtf : io300Close s.outf = infile.reverse ++ outfile.drop infile.length := by
    unfold io300Close io300Flush
    rw [h.outf, OpenFile.replaced_bytes, Nat.zero_mul, List.drop_zero, List.length_reverse]
  unfold reverseBlockRound
  rw [if_pos (by omega), houtf]

lemma run_reverseBlockRound (hb : bufferSize.toInt = b) (hpos : 0 < b) (hfit : infile.length < 2 ^ 31)
    (hj : j * b ≤ infile.length + b) (h : BlockAt infile outfile b j s) {fuel : Nat} (hfuel : j < fuel) :
    run (reverseBlockRound bufferSize) fuel s = some ⟨0, infile.reverse ++ outfile.drop infile.length⟩ := by
  induction j generalizing s fuel with
  | zero =>
    obtain ⟨fuel, rfl⟩ := Nat.exists_eq_add_of_lt hfuel
    exact run_done _ (reverseBlockRound_done hpos h) _
  | succ j ih =>
    rw [Nat.succ_mul] at hj
    obtain ⟨s', hround, hs'⟩ := reverseBlockRound_next hb hfit (by omega) h
    obtain ⟨fuel, rfl⟩ : ∃ fuel', fuel = fuel' + 1 := ⟨fuel - 1, by omega⟩
    rw [run_next _ hround]
    exact ih (by omega) hs' (by omega)

lemma reverseBlockCat_eq (hb : 0 < bufferSize.toInt) (hne : infile ≠ []) (hfit : infile.length < 2 ^ 31)
    {fuel : Nat} (hfuel : infile.length + 1 < fuel) :
    reverseBlockCat fuel bufferSize infile outfile = some ⟨0, infile.reverse ++ outfile.drop infile.length⟩ := by
  obtain ⟨b, hsize⟩ := Int.eq_ofNat_of_zero_le (Int.le_of_lt hb)
  have hpos : 0 < b := by omega
  have hlength := List.length_pos_iff.2 hne
  have hmod : ((infile.length : Int) - (infile.length : Int).tmod b) = (infile.length / b * b : Nat) := by
    rw [← Int.ofNat_tmod]
    have hdivmod := Nat.div_add_mod infile.length b
    rw [Nat.mul_comm] at hdivmod
    omega
  have hle : infile.length / b * b ≤ infile.length := Nat.div_mul_le_self _ _
  have hdiv : infile.length / b ≤ infile.length := Nat.div_le_self _ _
  have hfile : io300Filesize ⟨infile, 0⟩ = infile.length := rfl
  unfold reverseBlockCat
  rw [if_neg (by omega)]
  dsimp only
  rw [if_neg (by rw [hfile]; omega), if_neg (by omega), hfile, hsize, hmod, toInt_eq (by omega) (by omega)]
  have hstart : BlockAt infile outfile b (infile.length / b + 1) ⟨⟨infile, 0⟩, ⟨outfile, 0⟩, (infile.length / b * b : Nat)⟩ := by
    refine ⟨rfl, ?_, ?_⟩
    · have hall : infile.length ≤ (infile.length / b + 1) * b := by
        rw [Nat.mul_comm]
        exact Nat.le_of_lt (Nat.lt_mul_div_succ _ hpos)
      rw [List.drop_eq_nil_of_le hall]
      rfl
    · dsimp only
      rw [Nat.succ_mul]
      omega
  exact run_reverseBlockRound hsize hpos hfit (by rw [Nat.succ_mul]; omega) hstart (by omega)

end Block

/-! ### Bytes from the end on -/

section Byte

variable {infile outfile : List UInt8} {j : Nat} {s : ReverseState}

lemma io300Readc_eq {f : OpenFile} {c : UInt8} (h : f.bytes[f.offset]? = some c) :
    io300Readc f = ((c.toNat : Int), { f with offset := f.offset + 1 }) := by
  have hread := f.read_one
  rw [h] at hread
  have hpair : f.read 1 = ([c], { f with offset := f.offset + 1 }) := by
    have hoffset : (f.read 1).2 = { f with offset := f.offset + (f.read 1).1.length } := rfl
    rw [hread] at hoffset
    exact Prod.ext hread hoffset
  unfold io300Readc
  rw [hpair]

lemma io300Writec_replaced (old data : List UInt8) (c : UInt8) :
    io300Writec (OpenFile.replaced old data) (BitVec.ofInt 32 (c.toNat : Int)) =
      ((c.toNat : Int), OpenFile.replaced old (data ++ [c])) := by
  have hlt : c.toNat < 256 := c.toNat_lt
  have hch : BitVec.ofInt 32 (c.toNat : Int) = BitVec.ofNat 32 c.toNat := rfl
  have hnat : (BitVec.ofNat 32 c.toNat).toNat = c.toNat := by
    rw [BitVec.toNat_ofNat, Nat.mod_eq_of_lt (by omega)]
  have hvalue : (BitVec.ofNat 32 c.toNat).toInt = c.toNat := by
    rw [BitVec.toInt_eq_toNat_bmod, hnat]
    exact toInt_eq (by omega) (by omega)
  have hbyte : byteOf (BitVec.ofNat 32 c.toNat) = c := by
    unfold byteOf
    rw [hnat, UInt8.ofNat_toNat]
  unfold io300Writec
  rw [hch, hbyte, OpenFile.write_replaced]
  dsimp only
  rw [if_pos (List.length_singleton), hvalue]

/-- The bytes from `j` on are written. -/
structure ByteAt (infile outfile : List UInt8) (j : Nat) (s : ReverseState) : Prop where
  inf : s.inf.bytes = infile
  outf : s.outf = OpenFile.replaced outfile (infile.drop j).reverse
  i : s.i = (j : Int) - 1

lemma reverseByteRound_next (hfit : infile.length < 2 ^ 31) (hj : j < infile.length) (h : ByteAt infile outfile (j + 1) s) :
    ∃ s', reverseByteRound s = .next s' ∧ ByteAt infile outfile j s' := by
  have hi : s.i = j := by
    rw [h.i]
    omega
  have hdrop : (infile.drop (j + 1)).reverse ++ [infile[j]] = (infile.drop j).reverse := by
    rw [List.drop_eq_getElem_cons hj, List.reverse_cons]
  refine ⟨⟨⟨infile, j + 1⟩, OpenFile.replaced outfile (infile.drop j).reverse, s.i - 1⟩, ?_, rfl, rfl, by dsimp only; rw [hi]⟩
  have hpos : s.i.toNat = j := by omega
  unfold reverseByteRound
  rw [if_neg (by omega), hpos, io300Seek_eq _ (by omega)]
  dsimp only
  rw [if_neg (by omega), h.inf, io300Readc_eq (List.getElem?_eq_getElem hj)]
  dsimp only
  rw [if_neg (by omega), h.outf, io300Writec_replaced, hdrop]
  dsimp only
  rw [if_neg (by omega), toInt_eq (by omega) (by omega)]

lemma reverseByteRound_done (h : ByteAt infile outfile 0 s) :
    reverseByteRound s = .done ⟨0, infile.reverse ++ outfile.drop infile.length⟩ := by
  have hi := h.i
  have houtf : io300Close s.outf = infile.reverse ++ outfile.drop infile.length := by
    unfold io300Close io300Flush
    rw [h.outf, OpenFile.replaced_bytes, List.drop_zero, List.length_reverse]
  unfold reverseByteRound
  rw [if_pos (by omega), houtf]

lemma run_reverseByteRound (hfit : infile.length < 2 ^ 31) (hj : j ≤ infile.length) (h : ByteAt infile outfile j s)
    {fuel : Nat} (hfuel : j < fuel) :
    run reverseByteRound fuel s = some ⟨0, infile.reverse ++ outfile.drop infile.length⟩ := by
  induction j generalizing s fuel with
  | zero =>
    obtain ⟨fuel, rfl⟩ := Nat.exists_eq_add_of_lt hfuel
    exact run_done _ (reverseByteRound_done h) _
  | succ j ih =>
    obtain ⟨s', hround, hs'⟩ := reverseByteRound_next hfit hj h
    obtain ⟨fuel, rfl⟩ : ∃ fuel', fuel = fuel' + 1 := ⟨fuel - 1, by omega⟩
    rw [run_next _ hround]
    exact ih (Nat.le_of_succ_le hj) hs' (by omega)

lemma reverseByteCat_eq (hne : infile ≠ []) (hfit : infile.length < 2 ^ 31) {fuel : Nat} (hfuel : infile.length < fuel) :
    reverseByteCat fuel infile outfile = some ⟨0, infile.reverse ++ outfile.drop infile.length⟩ := by
  have hlength := List.length_pos_iff.2 hne
  have hfile : io300Filesize ⟨infile, 0⟩ = infile.length := rfl
  unfold reverseByteCat
  dsimp only
  rw [if_neg (by rw [hfile]; omega), hfile, toInt_eq (by omega) (by omega)]
  have hstart : ByteAt infile outfile infile.length ⟨⟨infile, 0⟩, ⟨outfile, 0⟩, (infile.length : Int) - 1⟩ := by
    refine ⟨rfl, ?_, rfl⟩
    rw [List.drop_length]
    rfl
  exact run_reverseByteRound hfit (Nat.le_refl _) hstart hfuel

end Byte

/-- Both programs write the bytes of their input backwards over those of the output file, whatever the size of the
blocks, and reversing twice gives the input. -/
theorem reverse_cats (infile outfile : List UInt8) (bufferSize : BitVec 32) (hb : 0 < bufferSize.toInt) (hne : infile ≠ [])
    (hfit : infile.length < 2 ^ 31) (fuel : Nat) (hfuel : infile.length + 1 < fuel) :
    reverseBlockCat fuel bufferSize infile outfile = some ⟨0, infile.reverse ++ outfile.drop infile.length⟩ ∧
    reverseByteCat fuel infile outfile = reverseBlockCat fuel bufferSize infile outfile ∧
    ∀ bufferSize' : BitVec 32, 0 < bufferSize'.toInt →
      ((reverseBlockCat fuel bufferSize infile []).bind fun first =>
        reverseBlockCat fuel bufferSize' first.outfile []) = some ⟨0, infile⟩ := by
  refine ⟨reverseBlockCat_eq hb hne hfit hfuel, ?_, fun bufferSize' hb' => ?_⟩
  · rw [reverseBlockCat_eq hb hne hfit hfuel, reverseByteCat_eq hne hfit (by omega)]
  · have hne' : infile.reverse ≠ [] := mt List.reverse_eq_nil_iff.1 hne
    have hlength : infile.reverse.length = infile.length := List.length_reverse
    rw [reverseBlockCat_eq hb hne hfit hfuel, List.drop_nil, List.append_nil, Option.bind_some,
      reverseBlockCat_eq hb' hne' (by omega) (by omega), List.drop_nil, List.append_nil, List.reverse_reverse]

theorem reverse_cats_sample : reverseBlockCat 10 2#32 [1, 2, 3] [] = some ⟨0, [3, 2, 1]⟩ :=
  (reverse_cats [1, 2, 3] [] 2#32 (by decide) (by decide) (by decide) 10 (by decide)).1

end Cs300Projects.Fileio
