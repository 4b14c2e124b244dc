import Cs300Projects.Fileio.ReverseCat
import Mathlib.Data.List.Perm.Subperm
import Mathlib.Data.List.Nodup

/-!
# Copying a file in strides

`stride_cat` over the naive implementation, under the same assumptions. It reads the columns of a file that is laid
out in rows of `STRIDE` bytes, each column as wide as a block. The numbers are of the type `size_t`.
-/

namespace Cs300Projects.Fileio

open Loop Naive

def sizeT (x : Int) : Nat := (x % 2 ^ 64).toNat

structure StrideState where
  inf : OpenFile
  outf : OpenFile
  pos : Nat
  written : Nat
  blockSize : Nat

/-- How `stride_cat` ends. -/
inductive StrideResult where
  | exit (status : Nat)
  | assertFailed
  | finished (outfile : List UInt8)
  deriving DecidableEq

/-- The position of the next block, and the size of the blocks from there on. -/
def nextStride (inputSize stride pos blockSize : Nat) : Nat × Nat :=
  let pos := sizeT (pos + stride)
  if pos ≥ inputSize then
    let pos := sizeT (pos % stride + blockSize : Nat)
    if sizeT (pos + blockSize) > stride then (pos, sizeT (stride - pos)) else (pos, blockSize)
  else (pos, blockSize)

def strideRound (inputSize stride : Nat) (s : StrideState) : Round StrideState StrideResult :=
  if ¬ s.written < inputSize then .done (.finished (io300Close s.outf))
  else
    -- copy a block
    let (amount, buf, inf) := io300Read s.inf s.blockSize
    if amount ≤ 0 then .done (.finished (io300Close s.outf))
    else
      let (_, outf) := io300Write s.outf buf
      let written := sizeT (s.written + amount)
      -- move `inf` file position to next stride
      let (pos, blockSize) := nextStride inputSize stride s.pos s.blockSize
      let (r, inf) := io300Seek inf pos
      if r ≥ 0 then .next ⟨inf, outf, pos, written, blockSize⟩ else .done .assertFailed

def strideCat (fuel blockSize stride : Nat) (infile outfile : List UInt8) : Option StrideResult :=
  let inf : OpenFile := ⟨infile, 0⟩
  let inputSize := io300Filesize inf
  if inputSize < 0 then some (.exit 1)
  else
    let (r, inf) := io300Seek inf 0
    if r < 0 then some (.exit 1)
    else run (strideRound (sizeT inputSize) stride) fuel ⟨inf, ⟨outfile, 0⟩, 0, 0, blockSize⟩

/-! ### Columns -/

/-- The bytes that are copied when the loop comes to row `k` of the column from `c` on, of width `b`. -/
def Copied (stride c b k x : Nat) : Prop := x % stride < c ∨ (x % stride < c + b ∧ x / stride < k)

section Columns

variable {stride c b k x n : Nat}

lemma mod_div_of_lt {r : Nat} (hr : r < stride) (k : Nat) : (r + k * stride) % stride = r ∧ (r + k * stride) / stride = k := by
  have hpos : 0 < stride := Nat.lt_of_le_of_lt (Nat.zero_le r) hr
  rw [Nat.add_mul_mod_self_right, Nat.mod_eq_of_lt hr, Nat.add_mul_div_right _ _ hpos, Nat.div_eq_of_lt hr, Nat.zero_add]
  exact ⟨rfl, rfl⟩

/-- The block in row `k` of a column. -/
lemma copied_block (hcolumn : c + b ≤ stride) (hlo : c + k * stride ≤ x) (hhi : x < c + k * stride + b) :
    c ≤ x % stride ∧ x % stride < c + b ∧ x / stride = k := by
  have hr : x - k * stride < stride := by omega
  obtain ⟨hmod, hdiv⟩ := mod_div_of_lt hr k
  rw [Nat.sub_add_cancel (by omega)] at hmod hdiv
  omega

lemma copied_succ_iff (hcolumn : c + b ≤ stride) : Copied stride c b (k + 1) x ↔
    Copied stride c b k x ∨ (c + k * stride ≤ x ∧ x < c + k * stride + b) := by
  unfold Copied
  constructor
  · rintro (hlt | ⟨hlt, hrow⟩)
    · exact Or.inl (Or.inl hlt)
    · rcases Nat.lt_or_eq_of_le (Nat.le_of_lt_succ hrow) with hlow | heq
      · exact Or.inl (Or.inr ⟨hlt, hlow⟩)
      · have hdivmod := Nat.div_add_mod x stride
        rw [heq, Nat.mul_comm] at hdivmod
        omega
  · rintro ((hlt | ⟨hlt, hrow⟩) | ⟨hlo, hhi⟩)
    · exact Or.inl hlt
    · exact Or.inr ⟨hlt, Nat.lt_succ_of_lt hrow⟩
    · obtain ⟨-, hlt, hrow⟩ := copied_block hcolumn hlo hhi
      exact Or.inr ⟨hlt, by omega⟩

/-- A column has ended where the next row is behind the file. -/
lemma copied_column (b' : Nat) (hx : x < n) (hend : n ≤ c + (k + 1) * stride) :
    Copied stride c b (k + 1) x ↔ Copied stride (c + b) b' 0 x := by
  unfold Copied
  constructor
  · rintro (hlt | ⟨hlt, -⟩)
    · exact Or.inl (Nat.lt_add_right b hlt)
    · exact Or.inl hlt
  · rintro (hlt | ⟨-, hrow⟩)
    · by_cases hlow : x % stride < c
      · exact Or.inl hlow
      · refine Or.inr ⟨hlt, ?_⟩
        by_contra hrow
        have hmul : (k + 1) * stride ≤ x / stride * stride := Nat.mul_le_mul_right _ (Nat.not_lt.1 hrow)
        have hdivmod := Nat.div_add_mod x stride
        rw [Nat.mul_comm] at hdivmod
        omega
    · exact absurd hrow (Nat.not_lt_zero _)

end Columns

/-- The state at row `k` of the column from `c` on: `offsets` are the offsets that were copied, in their order. -/
structure StrideAt (infile outfile : List UInt8) (stride block c k : Nat) (offsets : List Nat) (s : StrideState) : Prop where
  inf : s.inf = ⟨infile, s.pos⟩
  outf : s.outf = OpenFile.replaced outfile (offsets.map fun x => infile.getD x 0)
  pos : s.pos = c + k * stride
  written : s.written = offsets.length
  blockSize : s.blockSize = min block (stride - c)
  column : c ≤ stride
  row : k = 0 ∨ s.pos < infile.length
  nodup : offsets.Nodup
  copied : ∀ x, x ∈ offsets ↔ x < infile.length ∧ Copied stride c s.blockSize k x

section Stride

variable {infile outfile : List UInt8} {stride block c k : Nat} {offsets : List Nat} {s : StrideState}

/-- Offsets that are not all of the file leave one out. -/
lemma StrideAt.exists_left (h : StrideAt infile outfile stride block c k offsets s) (hwritten : s.written < infile.length) :
    ∃ x, x < infile.length ∧ ¬ Copied stride c s.blockSize k x := by
  by_contra hall
  have hsub : List.range infile.length ⊆ offsets := by
    intro x hx
    rw [List.mem_range] at hx
    refine (h.copied x).2 ⟨hx, ?_⟩
    by_contra hleft
    exact hall ⟨x, hx, hleft⟩
  have hle := (List.subperm_of_subset List.nodup_range hsub).length_le
  rw [List.length_range, ← h.written] at hle
  omega

/-- There is a byte to be read, as long as one is left. -/
lemma StrideAt.inside (h : StrideAt infile outfile stride block c k offsets s) (hblock : 1 ≤ block) (hstride : 0 < stride)
    (hwritten : s.written < infile.length) : s.pos < infile.length ∧ c < stride ∧ 1 ≤ s.blockSize := by
  obtain ⟨x, hx, hleft⟩ := h.exists_left hwritten
  have hle : c ≤ x % stride := Nat.not_lt.1 fun hlt => hleft (Or.inl hlt)
  have hmod : x % stride ≤ x := Nat.mod_le x stride
  have hlt : c < stride := by
    rcases Nat.lt_or_eq_of_le h.column with hlt | heq
    · exact hlt
    · exact absurd (Nat.mod_lt x hstride) (Nat.not_lt.2 (heq ▸ hle))
  refine ⟨?_, hlt, ?_⟩
  · rcases h.row with hrow | hpos
    · rw [h.pos, hrow, Nat.zero_mul]
      omega
    · exact hpos
  · rw [h.blockSize]
    omega

lemma sizeT_eq {x : Nat} (h : x < 2 ^ 64) : sizeT (x : Int) = x := by
  unfold sizeT
  rw [Int.emod_eq_of_lt (by omega) (by omega)]
  rfl

/-- The next block is in the next row, or at the top of the next column. -/
lemma nextStride_eq {pos inputSize b : Nat} (hpos : pos = c + k * stride) (hinside : pos < inputSize) (hc : c < stride)
    (hb : b = min block (stride - c)) (hfit : inputSize + stride < 2 ^ 31) :
    nextStride inputSize stride pos b =
      if inputSize ≤ pos + stride then (c + b, min block (stride - (c + b))) else (pos + stride, b) := by
  have hmod : (pos + stride) % stride = c := by
    rw [Nat.add_mod_right, hpos]
    exact (mod_div_of_lt hc k).1
  have hrow : sizeT (pos + stride) = pos + stride := sizeT_eq (x := pos + stride) (by omega)
  have hcolumn : sizeT (c + b : Nat) = c + b := sizeT_eq (by omega)
  have hend : sizeT ((c + b : Nat) + b) = c + b + b := sizeT_eq (x := c + b + b) (by omega)
  unfold nextStride
  simp only [hrow, ge_iff_le]
  by_cases hbottom : inputSize ≤ pos + stride
  · rw [if_pos hbottom, if_pos hbottom, hmod, hcolumn, hend]
    by_cases hlast : c + b + b > stride
    · have hrest : sizeT ((stride : Int) - (c + b : Nat)) = stride - (c + b) := by
        rw [← Int.ofNat_sub (by omega)]
        exact sizeT_eq (by omega)
      rw [if_pos hlast, hrest, Prod.mk.injEq]
      omega
    · rw [if_neg hlast, Prod.mk.injEq]
      omega
  · rw [if_neg hbottom, if_neg hbottom]

/-- The offsets of a block. -/
lemma map_range'_getD (xs : List UInt8) (pos b : Nat) :
    (xs.drop pos).take b = (List.range' pos ((xs.drop pos).take b).length).map fun x => xs.getD x 0 := by
  apply List.ext_getElem?
  intro i
  rw [List.getElem?_map]
  by_cases hi : i < ((xs.drop pos).take b).length
  · have hlength := hi
    rw [List.length_take, List.length_drop] at hlength
    rw [List.getElem?_range' hi, Option.map_some, Nat.one_mul, List.getElem?_take_of_lt (by omega), List.getElem?_drop,
      List.getD_eq_getElem?_getD, List.getElem?_eq_getElem (by omega), Option.getD_some]
  · rw [List.getElem?_eq_none (by omega), List.getElem?_eq_none (by rw [List.length_range']; omega)]
    rfl

/-- One round copies a block, which brings the loop to the next row or the next column. -/
lemma strideRound_next (h : StrideAt infile outfile stride block c k offsets s) (hblock : 1 ≤ block) (hle : block ≤ stride)
    (hfit : infile.length + stride < 2 ^ 31) (hwritten : s.written < infile.length) :
    ∃ c' k' offsets' s', strideRound infile.length stride s = .next s' ∧
      StrideAt infile outfile stride block c' k' offsets' s' ∧ s.written < s'.written := by
  obtain ⟨hinside, hc, hpositive⟩ := h.inside hblock (by omega) hwritten
  have hb := h.blockSize
  have hcolumn : c + s.blockSize ≤ stride := by omega
  have hnext := nextStride_eq h.pos hinside hc hb hfit
  generalize hdata : (infile.drop s.pos).take s.blockSize = data
  have hmap := map_range'_getD infile s.pos s.blockSize
  have hamount : data.length = min s.blockSize (infile.length - s.pos) := by
    rw [← hdata, List.length_take, List.length_drop]
  rw [hdata] at hmap
  -- the block is new, and brings the loop to row `k + 1`
  have hnew : ∀ x, x ∈ offsets ++ List.range' s.pos data.length ↔
      x < infile.length ∧ Copied stride c s.blockSize (k + 1) x := by
    intro x
    have hpos := h.pos
    rw [List.mem_append, h.copied, List.mem_range'_1, copied_succ_iff hcolumn]
    constructor
    · rintro (⟨hx, hold⟩ | hx)
      · exact ⟨hx, Or.inl hold⟩
      · exact ⟨by omega, Or.inr (by omega)⟩
    · rintro ⟨hx, hold | hrange⟩
      · exact Or.inl ⟨hx, hold⟩
      · exact Or.inr (by omega)
  have hnodup : (offsets ++ List.range' s.pos data.length).Nodup := by
    rw [List.nodup_append']
    refine ⟨h.nodup, List.nodup_range', fun x hx hrange => ?_⟩
    obtain ⟨-, hcopied⟩ := (h.copied x).1 hx
    rw [List.mem_range'_1] at hrange
    have hpos := h.pos
    obtain ⟨hlo, hhi, hrow⟩ := copied_block (x := x) (k := k) hcolumn (by omega) (by omega)
    rcases hcopied with hlt | ⟨-, hlt⟩
    · omega
    · omega
  have houtf : (io300Write s.outf data).2 =
      OpenFile.replaced outfile ((offsets ++ List.range' s.pos data.length).map fun x => infile.getD x 0) := by
    unfold io300Write
    rw [h.outf, OpenFile.write_replaced, List.map_append, ← hmap]
  have hlength : (offsets ++ List.range' s.pos data.length).length = s.written + data.length := by
    rw [List.length_append, List.length_range', h.written]
  have hround : ∀ pos blockSize, nextStride infile.length stride s.pos s.blockSize = (pos, blockSize) → pos < 2 ^ 31 →
      strideRound infile.length stride s = .next ⟨⟨infile, pos⟩,
        OpenFile.replaced outfile ((offsets ++ List.range' s.pos data.length).map fun x => infile.getD x 0), pos,
        s.written + data.length, blockSize⟩ := by
    intro pos blockSize hpos hlt
    have hread : io300Read s.inf s.blockSize = ((data.length : Int), data, ⟨infile, s.pos + data.length⟩) := by
      unfold io300Read OpenFile.read
      rw [h.inf]
      dsimp only
      rw [hdata]
    have hsum : sizeT ((s.written : Int) + data.length) = s.written + data.length :=
      sizeT_eq (x := s.written + data.length) (by omega)
    unfold strideRound
    rw [if_neg (not_not.2 hwritten), hread]
    dsimp only
    rw [if_neg (by omega), hpos]
    dsimp only
    rw [io300Seek_eq _ hlt]
    dsimp only
    rw [if_pos (by omega), houtf, hsum]
  rw [hnext] at hround
  by_cases hbottom : infile.length ≤ s.pos + stride
  · rw [if_pos hbottom] at hround
    refine ⟨_, 0, _, _, hround _ _ rfl (by omega), ⟨rfl, rfl, ?_, hlength.symm, rfl, hcolumn, Or.inl rfl, hnodup, fun x => ?_⟩, ?_⟩
    · dsimp only
      omega
    · rw [hnew]
      refine and_congr_right fun hx => copied_column _ hx ?_
      rw [Nat.succ_mul, ← Nat.add_assoc, ← h.pos]
      exact hbottom
    · dsimp only
      omega
  · rw [if_neg hbottom] at hround
    refine ⟨c, k + 1, _, _, hround _ _ rfl (by omega), ⟨rfl, rfl, ?_, hlength.symm, hb, h.column, Or.inr ?_, hnodup, hnew⟩, ?_⟩
    · dsimp only
      rw [h.pos, Nat.succ_mul, Nat.add_assoc]
    · exact Nat.not_le.1 hbottom
    · dsimp only
      omega

/-- A loop that is left has copied every offset once. -/
lemma StrideAt.perm (h : StrideAt infile outfile stride block c k offsets s) (hdone : ¬ s.written < infile.length) :
    offsets.Perm (List.range infile.length) := by
  have hsub : offsets ⊆ List.range infile.length := fun x hx => List.mem_range.2 ((h.copied x).1 hx).1
  apply (List.subperm_of_subset h.nodup hsub).perm_of_length_le
  rw [List.length_range, ← h.written]
  exact Nat.not_lt.1 hdone

lemma StrideAt.closed (h : StrideAt infile outfile stride block c k offsets s) (hdone : ¬ s.written < infile.length) :
    io300Close s.outf = (offsets.map fun x => infile.getD x 0) ++ outfile.drop infile.length := by
  have hlength := (h.perm hdone).length_eq
  rw [List.length_range] at hlength
  unfold io300Close io300Flush
  rw [h.outf, OpenFile.replaced_bytes, List.length_map, hlength]

lemma strideAt_start (hle : block ≤ stride) :
    StrideAt infile outfile stride block 0 0 [] ⟨⟨infile, 0⟩, ⟨outfile, 0⟩, 0, 0, block⟩ := by
  refine ⟨rfl, rfl, by rw [Nat.zero_mul], rfl, ?_, Nat.zero_le stride, Or.inl rfl, List.nodup_nil, fun x => ?_⟩
  · exact (Nat.min_eq_left hle).symm
  · simp [Copied]

end Stride

/-- The output is made of the bytes of the input, in an order in which each offset comes once, and of what is left of
an output file that was longer. -/
theorem strideCat_copies (infile outfile : List UInt8) (blockSize stride : Nat) (hblock : 1 ≤ blockSize)
    (hle : blockSize ≤ stride) (hfit : infile.length + stride < 2 ^ 31) (fuel : Nat) (hfuel : infile.length < fuel) :
    ∃ offsets : List Nat, offsets.Perm (List.range infile.length) ∧
      strideCat fuel blockSize stride infile outfile =
        some (.finished ((offsets.map fun x => infile.getD x 0) ++ outfile.drop infile.length)) ∧
      ((offsets.map fun x => infile.getD x 0) ++ outfile.drop infile.length).length = max infile.length outfile.length := by
  have hrun : ∃ r, run (strideRound infile.length stride) fuel ⟨⟨infile, 0⟩, ⟨outfile, 0⟩, 0, 0, blockSize⟩ = some r ∧
      ∃ offsets : List Nat, offsets.Perm (List.range infile.length) ∧
        r = .finished ((offsets.map fun x => infile.getD x 0) ++ outfile.drop infile.length) := by
    apply run_total (strideRound infile.length stride)
      (fun s => ∃ c k offsets, StrideAt infile outfile stride blockSize c k offsets s) _
      (fun s => infile.length - s.written)
    · rintro s s' ⟨c, k, offsets, h⟩ hround
      by_cases hwritten : s.written < infile.length
      · obtain ⟨c', k', offsets', s₁, hnext, h', hlt⟩ := strideRound_next h hblock hle hfit hwritten
        rw [hround, Round.next.injEq] at hnext
        subst hnext
        exact ⟨⟨c', k', offsets', h'⟩, by omega⟩
      · unfold strideRound at hround
        rw [if_pos hwritten] at hround
        cases hround
    · rintro s r ⟨c, k, offsets, h⟩ hround
      by_cases hwritten : s.written < infile.length
      · obtain ⟨c', k', offsets', s₁, hnext, -⟩ := strideRound_next h hblock hle hfit hwritten
        rw [hround] at hnext
        cases hnext
      · unfold strideRound at hround
        rw [if_pos hwritten, Round.done.injEq, h.closed hwritten] at hround
        exact ⟨offsets, h.perm hwritten, hround.symm⟩
    · exact ⟨0, 0, [], strideAt_start hle⟩
    · exact hfuel
  obtain ⟨r, hrun, offsets, hperm, rfl⟩ := hrun
  have hsize : sizeT (io300Filesize ⟨infile, 0⟩) = infile.length := sizeT_eq (x := infile.length) (by omega)
  refine ⟨offsets, hperm, ?_, ?_⟩
  · have hfile : ¬ io300Filesize ⟨infile, 0⟩ < 0 := Int.not_lt.2 (Int.natCast_nonneg _)
    unfold strideCat
    dsimp only
    rw [if_neg hfile, io300Seek_eq _ (by decide)]
    dsimp only
    rw [if_neg (by decide), hsize]
    exact hrun
  · rw [List.length_append, List.length_map, hperm.length_eq, List.length_range, List.length_drop]
    omega

theorem strideCat_copies_sample : ∃ offsets : List Nat, offsets.Perm (List.range 5) ∧
    strideCat 6 1 2 [1, 2, 3, 4, 5] [] =
      some (.finished ((offsets.map fun x => [1, 2, 3, 4, 5].getD x 0) ++ [].drop 5)) := by
  obtain ⟨offsets, hperm, hcat, -⟩ := strideCat_copies [1, 2, 3, 4, 5] [] 1 2 (by decide) (by decide) (by decide) 6 (by decide)
  exact ⟨offsets, hperm, hcat⟩

end Cs300Projects.Fileio
