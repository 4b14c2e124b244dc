import Mathlib.Tactic.Ring

/-!
# Byte memory

Memory as a function from addresses to bytes, with writes of a constant, of a list of bytes and
of a number in little-endian order. A write changes its own range only, and a number is read back
as it was written.
-/

namespace Bytes

/-- `n` bytes from `a` on become `c`. -/
def fill (m : Nat → UInt8) (a : Nat) (c : UInt8) (n : Nat) : Nat → UInt8 :=
  fun x => if a ≤ x ∧ x < a + n then c else m x

/-- The bytes from `a` on become `data`. -/
def copy (m : Nat → UInt8) (a : Nat) (data : List UInt8) : Nat → UInt8 :=
  fun x => if a ≤ x then (data[x - a]?).getD (m x) else m x

/-- The `n` bytes from `a` on become `f 0`, `f 1`, and so on. -/
def blit (m : Nat → UInt8) (a n : Nat) (f : Nat → UInt8) : Nat → UInt8 :=
  fun x => if a ≤ x ∧ x < a + n then f (x - a) else m x

/-- The `n` bytes from `a` on as a little-endian number. -/
def readLE (m : Nat → UInt8) : Nat → Nat → Nat
  | _, 0 => 0
  | a, n + 1 => (m a).toNat + 256 * readLE m (a + 1) n

def writeLE (m : Nat → UInt8) (a n v : Nat) : Nat → UInt8 :=
  fun x => if a ≤ x ∧ x < a + n then UInt8.ofNat (v / 256 ^ (x - a)) else m x

/-- The address is not one of the `n` bytes from `a` on. -/
def Outside (x a n : Nat) : Prop := x < a ∨ a + n ≤ x

variable {m m' : Nat → UInt8} {a n x : Nat}

lemma fill_outside {c : UInt8} (h : Outside x a n) : fill m a c n x = m x := by
  unfold Outside at h
  exact if_neg (by omega)

lemma copy_outside {data : List UInt8} (h : Outside x a data.length) : copy m a data x = m x := by
  unfold copy
  rcases h with hlt | hge
  · exact if_neg (by omega)
  · rw [List.getElem?_eq_none (by omega), Option.getD_none, ite_self]

lemma blit_outside {f : Nat → UInt8} (h : Outside x a n) : blit m a n f x = m x := by
  unfold Outside at h
  exact if_neg (by omega)

lemma blit_inside {f : Nat → UInt8} (h : a ≤ x) (hlt : x < a + n) : blit m a n f x = f (x - a) :=
  if_pos ⟨h, hlt⟩

lemma blit_append (m : Nat → UInt8) (a n k : Nat) (f : Nat → UInt8) :
    blit (blit m a n f) (a + n) k (fun i => f (n + i)) = blit m a (n + k) f := by
  funext x
  simp only [blit]
  by_cases hlast : a + n ≤ x ∧ x < a + n + k
  · rw [if_pos hlast, if_pos (by omega), show n + (x - (a + n)) = x - a by omega]
  · rw [if_neg hlast]
    by_cases hfirst : a ≤ x ∧ x < a + n
    · rw [if_pos hfirst, if_pos (by omega)]
    · rw [if_neg hfirst, if_neg (by omega)]

lemma blit_congr {f g : Nat → UInt8} (h : ∀ i, i < n → f i = g i) : blit m a n f = blit m a n g := by
  funext x
  simp only [blit]
  by_cases hx : a ≤ x ∧ x < a + n
  · rw [if_pos hx, if_pos hx, h (x - a) (by omega)]
  · rw [if_neg hx, if_neg hx]

lemma blit_zero (m : Nat → UInt8) (a : Nat) (f : Nat → UInt8) : blit m a 0 f = m := by
  funext x
  exact if_neg (by omega)

/-- A list of bytes that are calculated. -/
lemma copy_map_range (m : Nat → UInt8) (a n : Nat) (f : Nat → UInt8) : copy m a ((List.range n).map f) = blit m a n f := by
  funext x
  unfold copy blit
  by_cases hx : a ≤ x ∧ x < a + n
  · rw [if_pos hx.1, if_pos hx, List.getElem?_map, List.getElem?_range (by omega), Option.map_some, Option.getD_some]
  · rw [if_neg hx]
    split
    · rw [List.getElem?_eq_none (by rw [List.length_map, List.length_range]; omega), Option.getD_none]
    · rfl

lemma fill_inside {c : UInt8} (h : a ≤ x) (hlt : x < a + n) : fill m a c n x = c :=
  if_pos ⟨h, hlt⟩

lemma writeLE_outside {v : Nat} (h : Outside x a n) : writeLE m a n v x = m x := by
  unfold Outside at h
  exact if_neg (by omega)

/-- Memories that agree on two ranges hold the same number there. -/
lemma readLE_shift {b : Nat} (h : ∀ i, i < n → m' (a + i) = m (b + i)) :
    readLE m' a n = readLE m b n := by
  induction n generalizing a b with
  | zero => rfl
  | succ n ih =>
    rw [readLE, readLE, show m' a = m b from h 0 (by omega)]
    rw [ih ]
    intro i hi
    rw [Nat.add_assoc, Nat.add_assoc, Nat.add_comm 1 i]
    exact h (i + 1) (by omega)

lemma readLE_congr (h : ∀ x, a ≤ x → x < a + n → m' x = m x) : readLE m' a n = readLE m a n :=
  readLE_shift (fun i hi => h (a + i) (by omega) (by omega))

lemma readLE_zero {a n : Nat} (h : ∀ x, a ≤ x → x < a + n → m x = 0) : readLE m a n = 0 := by
  induction n generalizing a with
  | zero => rfl
  | succ n ih =>
    rw [readLE, h a (Nat.le_refl a) (by omega), ih fun x hx hlt => h x (by omega) (by omega)]
    rfl

lemma readLE_lt (m : Nat → UInt8) (a n : Nat) : readLE m a n < 256 ^ n := by
  induction n generalizing a with
  | zero => exact Nat.one_pos
  | succ n ih =>
    have hbyte := (m a).toNat_lt
    have hrest := ih (a + 1)
    rw [readLE, pow_succ']
    omega

lemma readLE_low (m : Nat → UInt8) (a n k : Nat) : readLE m a n = readLE m a (n + k) % 256 ^ n := by
  induction n generalizing a with
  | zero => simp [readLE, Nat.mod_one]
  | succ n ih =>
    have hbyte := (m a).toNat_lt
    rw [Nat.add_right_comm, readLE, readLE, pow_succ', Nat.mod_mul, Nat.add_mul_mod_self_left,
      Nat.mod_eq_of_lt hbyte, Nat.add_mul_div_left _ _ (by norm_num), Nat.div_eq_of_lt hbyte, Nat.zero_add,
      ← ih (a + 1)]

lemma readLE_writeLE (m : Nat → UInt8) (a n v : Nat) : readLE (writeLE m a n v) a n = v % 256 ^ n := by
  induction n generalizing a v with
  | zero => simp [readLE, Nat.mod_one]
  | succ n ih =>
    have hfirst : (writeLE m a (n + 1) v a).toNat = v % 256 := by
      simp [writeLE]
    have hrest : readLE (writeLE m a (n + 1) v) (a + 1) n = v / 256 % 256 ^ n := by
      rw [← ih (a + 1) (v / 256)]
      apply readLE_congr
      intro x hx hlt
      simp only [writeLE]
      rw [if_pos (by omega), if_pos (by omega), Nat.div_div_eq_div_mul,
        show x - a = x - (a + 1) + 1 by omega, pow_succ']
    rw [readLE, hfirst, hrest, pow_succ', Nat.mod_mul]

/-- Writing the number that is already there changes nothing. -/
lemma writeLE_eq_self {v : Nat} (h : readLE m a n = v % 256 ^ n) : writeLE m a n v = m := by
  induction n generalizing a v with
  | zero =>
    funext x
    exact if_neg (by omega)
  | succ n ih =>
    have hbyte := (m a).toNat_lt
    rw [readLE, pow_succ', Nat.mod_mul] at h
    have hfirst : (m a).toNat = v % 256 := by omega
    have hrest : writeLE m (a + 1) n (v / 256) = m := ih (by omega)
    funext x
    by_cases hx : x = a
    · unfold writeLE
      rw [if_pos (by omega), hx, Nat.sub_self, pow_zero, Nat.div_one, ← UInt8.toNat_inj, hfirst]
      rfl
    · rw [← congrFun hrest x]
      unfold writeLE
      by_cases hin : a + 1 ≤ x ∧ x < a + 1 + n
      · rw [if_pos (by omega), if_pos hin, Nat.div_div_eq_div_mul, ← pow_succ', show x - (a + 1) + 1 = x - a by omega]
      · rw [if_neg (by omega), if_neg hin]

/-! ### Ranges apart -/

section Apart

variable {b k : Nat}

/-- The ranges of `n` bytes from `a` and of `k` bytes from `b` have no byte in common. -/
def Apart (a n b k : Nat) : Prop := a + n ≤ b ∨ b + k ≤ a

lemma Apart.symm (h : Apart a n b k) : Apart b k a n := Or.symm h

lemma Apart.outside {x : Nat} (h : Apart a n b k) (hx : a ≤ x) (hlt : x < a + n) : Outside x b k := by
  unfold Apart at h
  unfold Outside
  omega

/-- The memories differ in the `n` bytes from `a` at most. -/
def Within (m m' : Nat → UInt8) (a n : Nat) : Prop := ∀ x, Outside x a n → m' x = m x

lemma Within.mono (h : Within m m' b k) (ha : a ≤ b) (hn : b + k ≤ a + n) : Within m m' a n := by
  intro x hx
  apply h
  unfold Outside at *
  omega

lemma Within.trans {m'' : Nat → UInt8} (h : Within m m' a n) (h' : Within m' m'' a n) : Within m m'' a n :=
  fun x hx => (h' x hx).trans (h x hx)

lemma Within.readLE (h : Within m m' b k) (hab : Apart a n b k) : readLE m' a n = readLE m a n :=
  readLE_congr fun x hx hlt => h x (hab.outside hx hlt)

lemma within_writeLE (m : Nat → UInt8) (a n v : Nat) : Within m (writeLE m a n v) a n :=
  fun _ hx => writeLE_outside hx

lemma within_fill (m : Nat → UInt8) (a n : Nat) (c : UInt8) : Within m (fill m a c n) a n :=
  fun _ hx => fill_outside hx

lemma within_blit (m : Nat → UInt8) (a n : Nat) (f : Nat → UInt8) : Within m (blit m a n f) a n :=
  fun _ hx => blit_outside hx

lemma within_copy (m : Nat → UInt8) (a : Nat) (data : List UInt8) : Within m (copy m a data) a data.length :=
  fun _ hx => copy_outside hx

/-- What is read from a copy of `n` bytes. -/
lemma readLE_blit_copy {j : Nat} (m : Nat → UInt8) (a n : Nat) (hj : k + j ≤ n) :
    readLE (blit m a n fun i => m (b + i)) (a + k) j = readLE m (b + k) j := by
  apply readLE_shift
  intro i hi
  rw [blit_inside (by omega) (by omega), show a + k + i - a = k + i by omega, Nat.add_assoc]

lemma readLE_writeLE_of_lt {v : Nat} (h : v < 256 ^ n) : readLE (writeLE m a n v) a n = v := by
  rw [readLE_writeLE, Nat.mod_eq_of_lt h]

end Apart

end Bytes
