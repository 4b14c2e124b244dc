import Cs300Projects.Lib.Loop
import Cs300Projects.WeensyOS.Pci
import Mathlib.Data.List.Sort

/-!
# The scan of the PCI functions

`find` asks a predicate about address 0 and about the addresses that `next` returns. From function 0 of a slot `next`
goes to the next slot, unless the header says that the device has several functions. Functions are numbered through all
slots and buses, and the number of a function carries from slot to slot and from bus to bus as its address does.
-/

namespace Cs300Projects.WeensyOS

open Bytes Loop

namespace Pci

def configLthb : Nat := 12

/-- At most 8 buses are supported. -/
def addrEnd : Nat := 0x80000

def makeAddr (bus slot func : Nat) : Option Nat :=
  if bus < 256 ∧ slot < 32 ∧ func < 8 then some (bus <<< 16 ||| slot <<< 11 ||| func <<< 8) else none

def addrFunc (addr : Nat) : Option Nat :=
  if addr < 0x1000000 then some ((addr >>> 8) &&& 0x7) else none

/-! ### `next` -/

/-- The variables of the loop in `next`. -/
structure Cursor where
  addr : Nat
  x : UInt32
  s : Pci

def Cursor.step (c : Cursor) : Option Nat := do
  let func ← addrFunc c.addr
  if func = 0 ∧ (c.x = 0xFFFFFFFF ∨ c.x &&& 0x800000 = 0) then
    return c.addr + (← makeAddr 0 1 0)
  else
    return c.addr + (← makeAddr 0 0 1)

def nextRound (c : Cursor) : Round Cursor (Option (Int × Pci)) :=
  match c.step with
  | none => .done none
  | some addr =>
    if addrEnd ≤ addr then .done (some (-1, c.s))
    else match c.s.readl (addr + configLthb) with
      | none => .done none
      | some (x, s) => if x = 0xFFFFFFFF then .next ⟨addr, x, s⟩ else .done (some ((addr : Int), s))

/-- Every round increases the address, so `addrEnd` rounds are enough. -/
def next (s : Pci) (addr : Nat) : Option (Int × Pci) :=
  match s.readl (addr + configLthb) with
  | none => none
  | some (x, s) => (run nextRound addrEnd ⟨addr, x, s⟩).join

/-! ### `find` -/

/-- What `find` asks about an address. The answer is a matter of the configuration space, which stays as it is. -/
structure Predicate where
  ask : Pci → Nat → Bool × Pci
  config_eq : ∀ s addr, (ask s addr).2.config = s.config
  answer_eq : ∀ s s' addr, s.config = s'.config → (ask s addr).1 = (ask s' addr).1

/-- The variable of the loop in `find`, with the addresses about which the predicate was asked. -/
structure Search where
  addr : Int
  presented : List Nat
  s : Pci

def findRound (p : Predicate) (f : Search) : Round Search (Option Search) :=
  if 0 ≤ f.addr then
    match p.ask f.s f.addr.toNat with
    | (true, s) => .done (some ⟨f.addr, f.presented ++ [f.addr.toNat], s⟩)
    | (false, s) =>
      match s.next f.addr.toNat with
      | none => .done none
      | some (addr, s) => .next ⟨addr, f.presented ++ [f.addr.toNat], s⟩
  else .done (some f)

def find (s : Pci) (p : Predicate) (addr : Int) : Option Search :=
  (run (findRound p) addrEnd ⟨addr, [], s⟩).join

/-! ### The functions of a configuration space -/

section Functions

variable (config : Nat → UInt8)

/-- The register with the header type of a function. -/
def lthb (addr : Nat) : Nat := readLE config (addr + configLthb) 4

def Present (addr : Nat) : Prop := lthb config addr ≠ 0xFFFFFFFF

def MultiFunction (addr : Nat) : Prop := (lthb config addr).testBit 23 = true

instance (addr : Nat) : Decidable (Present config addr) := inferInstanceAs (Decidable (_ ≠ _))
instance (addr : Nat) : Decidable (MultiFunction config addr) := inferInstanceAs (Decidable (_ = _))

/-- A function on one of the buses 0 to 7. The functions from 1 on belong to a present device with several functions. -/
def Existing (addr : Nat) : Prop :=
  ∃ bus slot func slotAddr, bus < 8 ∧ makeAddr bus slot func = some addr ∧ makeAddr bus slot 0 = some slotAddr ∧
    Present config addr ∧ (func = 0 ∨ Present config slotAddr ∧ MultiFunction config slotAddr)

/-- The slot of a function number, by the number of its function 0. -/
def slotOf (i : Nat) : Nat := i / 8 * 8

/-- The functions among which `next` looks. -/
def Scannable (i : Nat) : Prop :=
  i % 8 = 0 ∨ Present config (slotOf i * 256) ∧ MultiFunction config (slotOf i * 256)

instance (i : Nat) : Decidable (Scannable config i) := inferInstanceAs (Decidable (_ ∨ _))

/-- The function number from which `next` goes on. -/
def after (i : Nat) : Nat :=
  if i % 8 = 0 ∧ ¬ (Present config (i * 256) ∧ MultiFunction config (i * 256)) then i + 8 else i + 1

/-- The functions behind number `i`. -/
def rest (i : Nat) : List Nat :=
  (List.range 2048).filter fun k => i < k ∧ Scannable config k ∧ Present config (k * 256)

/-- The start address 0 and the functions. -/
def functions : List Nat := (0 :: rest config 0).map (· * 256)

/-- The part of a list about which a predicate is asked. -/
def presented (answer : Nat → Bool) : List Nat → List Nat
  | [] => []
  | addr :: l => addr :: if answer addr then [] else presented answer l

/-- The result of a search in a list. -/
def firstOf (answer : Nat → Bool) (l : List Nat) : Int := (l.find? answer).elim (-1) fun addr => (addr : Int)

def Predicate.answer (p : Predicate) (addr : Nat) : Bool := (p.ask ⟨0, config⟩ addr).1

end Functions

section

variable {config : Nat → UInt8} {s : Pci} {c : Cursor} {bus slot func addr i j k : Nat}

/-! ### Addresses and numbers of functions -/

lemma makeAddr_eq (hbus : bus < 256) (hslot : slot < 32) (hfunc : func < 8) :
    makeAddr bus slot func = some (((bus * 32 + slot) * 8 + func) * 256) := by
  have hlow : slot <<< 11 ||| func <<< 8 = slot * 2048 + func * 256 := by
    rw [← Nat.shiftLeft_add_eq_or_of_lt (by rw [Nat.shiftLeft_eq]; omega), Nat.shiftLeft_eq, Nat.shiftLeft_eq]
  rw [makeAddr, if_pos ⟨hbus, hslot, hfunc⟩, Nat.or_assoc, hlow, ← Nat.shiftLeft_add_eq_or_of_lt (by omega), Nat.shiftLeft_eq,
    Option.some.injEq]
  ring

lemma addrFunc_eq (hi : i < 2048) : addrFunc (i * 256) = some (i % 8) := by
  have hseven : i &&& 0x7 = i % 8 := Nat.and_two_pow_sub_one_eq_mod i 3
  rw [addrFunc, if_pos (by omega), Nat.shiftRight_eq_div_pow, Nat.mul_div_cancel _ (by norm_num), hseven]

lemma readl_lthb (hi : i < 2048) : s.readl (i * 256 + configLthb) =
    some (UInt32.ofNat (lthb s.config (i * 256)), s.select (i * 256 + configLthb)) := by
  have hnon : NonNeg (i * 256 + configLthb) := by
    unfold NonNeg configLthb
    omega
  have hthree : (i * 256 + configLthb) &&& 3 = (i * 256 + configLthb) % 4 := Nat.and_two_pow_sub_one_eq_mod _ 2
  have hmod : (i * 256 + configLthb) % 4 = 0 := by
    unfold configLthb
    omega
  have hread := in_select (s := s) hnon (show 0 + 4 ≤ 4 by decide)
  rw [Nat.add_zero, Nat.add_zero, show (i * 256 + configLthb) / 4 * 4 = i * 256 + configLthb by omega] at hread
  rw [readl, if_pos ⟨hnon, hthree.trans hmod⟩, inl, hread]
  rfl

lemma ofNat_lthb_eq : UInt32.ofNat (lthb config addr) = 0xFFFFFFFF ↔ ¬ Present config addr := by
  have hlt : lthb config addr < 2 ^ 32 := readLE_lt config _ 4
  rw [Present, not_not, ← UInt32.toNat_inj, UInt32.toNat_ofNat', Nat.mod_eq_of_lt hlt]
  rfl

lemma ofNat_lthb_and : UInt32.ofNat (lthb config addr) &&& 0x800000 = 0 ↔ ¬ MultiFunction config addr := by
  have hlt : lthb config addr < 2 ^ 32 := readLE_lt config _ 4
  have hbit := Nat.and_two_pow (lthb config addr) 23
  rw [MultiFunction, Bool.not_eq_true, ← UInt32.toNat_inj, UInt32.toNat_and, UInt32.toNat_ofNat', Nat.mod_eq_of_lt hlt]
  change lthb config addr &&& 2 ^ 23 = 0 ↔ _
  rw [hbit]
  cases (lthb config addr).testBit 23 <;> simp

/-- The step of `next` in terms of function numbers. -/
lemma step_eq (hi : i < 2048) (haddr : c.addr = i * 256) (hx : c.x = UInt32.ofNat (lthb config (i * 256))) :
    c.step = some (after config i * 256) := by
  have hslot : makeAddr 0 1 0 = some (8 * 256) := rfl
  have hfunc : makeAddr 0 0 1 = some 256 := rfl
  have hcond : (i % 8 = 0 ∧ (c.x = 0xFFFFFFFF ∨ c.x &&& 0x800000 = 0)) ↔
      (i % 8 = 0 ∧ ¬ (Present config (i * 256) ∧ MultiFunction config (i * 256))) := by
    rw [hx, ofNat_lthb_eq, ofNat_lthb_and, not_and_or]
  rw [Cursor.step, haddr, addrFunc_eq hi, after]
  simp only [Option.bind_eq_bind, Option.bind_some, hslot, hfunc, hcond]
  split
  · exact congrArg some (by ring)
  · exact congrArg some (by ring)

/-! ### What lies between a function and the next one -/

lemma lt_after (config : Nat → UInt8) (i : Nat) : i < after config i := by
  unfold after
  split <;> omega

lemma after_scannable (h : Scannable config i) : Scannable config (after config i) := by
  unfold Scannable at h ⊢
  by_cases hlast : after config i % 8 = 0
  · exact Or.inl hlast
  right
  unfold after at hlast ⊢
  by_cases hskip : i % 8 = 0 ∧ ¬ (Present config (i * 256) ∧ MultiFunction config (i * 256))
  · rw [if_pos hskip] at hlast
    omega
  · rw [if_neg hskip] at hlast ⊢
    have hslot : slotOf (i + 1) = slotOf i := by
      unfold slotOf
      omega
    rw [hslot]
    rcases h with hfirst | hmulti
    · have hself : slotOf i = i := by
        unfold slotOf
        omega
      rw [hself]
      by_contra hnot
      exact hskip ⟨hfirst, hnot⟩
    · exact hmulti

/-- A step passes over functions only of a slot whose functions from 1 on do not count. -/
lemma after_skips (h : i < k) (hk : k < after config i) : ¬ Scannable config k := by
  unfold after at hk
  split at hk
  next hskip =>
    have hslot : slotOf k = i := by
      unfold slotOf
      omega
    unfold Scannable
    rw [hslot, not_or]
    exact ⟨by omega, hskip.2⟩
  next => omega

/-- The functions that count, with all addresses between two of them. -/
def Shown (config : Nat → UInt8) (i : Nat) : Prop := Scannable config i ∧ Present config (i * 256)

lemma existing_iff : Existing config addr ↔ ∃ i, i < 2048 ∧ addr = i * 256 ∧ Shown config i := by
  constructor
  · rintro ⟨bus, slot, func, slotAddr, hbus, haddr, hslotAddr, hpresent, hmulti⟩
    have hbounds : bus < 256 ∧ slot < 32 ∧ func < 8 := by
      by_contra hnot
      rw [makeAddr, if_neg hnot] at haddr
      cases haddr
    rw [makeAddr_eq hbounds.1 hbounds.2.1 hbounds.2.2, Option.some.injEq] at haddr
    rw [makeAddr_eq hbounds.1 hbounds.2.1 (by omega), Option.some.injEq] at hslotAddr
    have hslot : slotOf ((bus * 32 + slot) * 8 + func) = (bus * 32 + slot) * 8 + 0 := by
      unfold slotOf
      omega
    refine ⟨(bus * 32 + slot) * 8 + func, by omega, haddr.symm, ?_, haddr ▸ hpresent⟩
    unfold Scannable
    rw [hslot, hslotAddr]
    rcases hmulti with hfirst | hmulti
    · left
      omega
    · exact Or.inr hmulti
  · rintro ⟨i, hi, rfl, hscan, hpresent⟩
    have haddr : makeAddr (i / 256) (i / 8 % 32) (i % 8) = some (i * 256) := by
      rw [makeAddr_eq (by omega) (by omega) (by omega), show (i / 256 * 32 + i / 8 % 32) * 8 + i % 8 = i by omega]
    have hslotAddr : makeAddr (i / 256) (i / 8 % 32) 0 = some (slotOf i * 256) := by
      unfold slotOf
      rw [makeAddr_eq (by omega) (by omega) (by omega), show (i / 256 * 32 + i / 8 % 32) * 8 + 0 = i / 8 * 8 by omega]
    exact ⟨i / 256, i / 8 % 32, i % 8, slotOf i * 256, by omega, haddr, hslotAddr, hpresent, hscan⟩

lemma mem_rest : k ∈ rest config i ↔ i < k ∧ k < 2048 ∧ Shown config k := by
  unfold rest Shown
  rw [List.mem_filter, List.mem_range, decide_eq_true_iff]
  tauto

lemma rest_pairwise (config : Nat → UInt8) (i : Nat) : (rest config i).Pairwise (· < ·) :=
  List.pairwise_lt_range.filter _

lemma rest_eq_nil (h : ∀ k, i < k → k < 2048 → ¬ Shown config k) : rest config i = [] := by
  apply List.eq_nil_iff_forall_not_mem.2
  intro k hk
  obtain ⟨hlt, hk', hshown⟩ := mem_rest.1 hk
  exact h k hlt hk' hshown

lemma rest_eq_cons (hij : i < j) (hj : j < 2048) (hshown : Shown config j)
    (hbetween : ∀ k, i < k → k < j → ¬ Shown config k) : rest config i = j :: rest config j := by
  have hcons : (j :: rest config j).Pairwise (· < ·) :=
    List.pairwise_cons.2 ⟨fun k hk => (mem_rest.1 hk).1, rest_pairwise config j⟩
  apply (rest_pairwise config i).eq_of_mem_iff hcons
  intro k
  rw [List.mem_cons, mem_rest, mem_rest]
  constructor
  · rintro ⟨hlt, hk, hs⟩
    rcases Nat.lt_trichotomy k j with hkj | rfl | hjk
    · exact absurd hs (hbetween k hlt hkj)
    · exact Or.inl rfl
    · exact Or.inr ⟨hjk, hk, hs⟩
  · rintro (rfl | ⟨hjk, hk, hs⟩)
    · exact ⟨hij, hj, hshown⟩
    · exact ⟨by omega, hk, hs⟩

/-! ### The loops -/

/-- What `next` returns for the function number `i`. -/
def NextOf (config : Nat → UInt8) (i : Nat) (r : Int) : Prop :=
  (∃ j, r = (j * 256 : Nat) ∧ j < 2048 ∧ Scannable config j ∧ rest config i = j :: rest config j) ∨
    r = -1 ∧ rest config i = []

/-- The loop in `next` has passed over no function that counts. -/
structure Passed (config : Nat → UInt8) (i : Nat) (c : Cursor) (j : Nat) : Prop where
  addr_eq : c.addr = j * 256
  x_eq : c.x = UInt32.ofNat (lthb config (j * 256))
  config_eq : c.s.config = config
  le : i ≤ j
  lt : j < 2048
  scannable : Scannable config j
  passed : ∀ k, i < k → k ≤ j → ¬ Shown config k

lemma Passed.skip (h : Passed config i c j) : ∀ k, i < k → k < after config j → ¬ Shown config k := by
  intro k hk hlt hshown
  by_cases hkj : k ≤ j
  · exact h.passed k hk hkj hshown
  · exact after_skips (by omega) hlt hshown.1

/-- One round of the loop in `next`: it goes on behind an absent function, and is left otherwise. -/
lemma nextRound_cases (h : Passed config i c j) :
    (∃ c', nextRound c = .next c' ∧ Passed config i c' (after config j)) ∨
      ∃ r s, nextRound c = .done (some (r, s)) ∧ s.config = config ∧ NextOf config i r := by
  have hstep := step_eq h.lt h.addr_eq h.x_eq
  have hlt := lt_after config j
  have hle := h.le
  rw [nextRound, hstep]
  dsimp only
  by_cases hend : addrEnd ≤ after config j * 256
  · rw [if_pos hend]
    right
    unfold addrEnd at hend
    refine ⟨-1, c.s, rfl, h.config_eq, Or.inr ⟨rfl, ?_⟩⟩
    apply rest_eq_nil
    intro k hk hk'
    exact h.skip k hk (by omega)
  · have hj : after config j < 2048 := by
      unfold addrEnd at hend
      omega
    rw [if_neg hend, readl_lthb hj, h.config_eq]
    dsimp only
    by_cases hpresent : Present config (after config j * 256)
    · rw [if_neg (fun hx => ofNat_lthb_eq.1 hx hpresent)]
      right
      have hshown : Shown config (after config j) := ⟨after_scannable h.scannable, hpresent⟩
      refine ⟨_, _, rfl, ?_, Or.inl ⟨after config j, rfl, hj, hshown.1, ?_⟩⟩
      · rw [select_config, h.config_eq]
      · exact rest_eq_cons (by omega) hj hshown h.skip
    · rw [if_pos (ofNat_lthb_eq.2 hpresent)]
      left
      refine ⟨_, rfl, rfl, rfl, ?_, by omega, hj, after_scannable h.scannable, ?_⟩
      · rw [select_config, h.config_eq]
      · intro k hk hk' hshown
        rcases Nat.lt_or_eq_of_le hk' with hlt' | rfl
        · exact h.skip k hk hlt' hshown
        · exact hpresent hshown.2

/-- `next` ends, with the next function that counts. -/
lemma next_spec (s : Pci) (hi : i < 2048) (hscan : Scannable s.config i) :
    ∃ r s', s.next (i * 256) = some (r, s') ∧ s'.config = s.config ∧ NextOf s.config i r := by
  have htotal := run_total nextRound (fun c => ∃ j, Passed s.config i c j)
    (fun o => ∃ r s', o = some (r, s') ∧ s'.config = s.config ∧ NextOf s.config i r) (fun c => 2048 - c.addr / 256)
    (by
      rintro c c' ⟨j, hpassed⟩ hnext
      rcases nextRound_cases hpassed with ⟨c'', hround, hpassed'⟩ | ⟨r, s', hround, -, -⟩
      · rw [hround, Round.next.injEq] at hnext
        subst hnext
        have hlt := lt_after s.config j
        have hj := hpassed.lt
        refine ⟨⟨_, hpassed'⟩, ?_⟩
        rw [hpassed'.addr_eq, hpassed.addr_eq]
        omega
      · rw [hround] at hnext
        cases hnext)
    (by
      rintro c o ⟨j, hpassed⟩ hdone
      rcases nextRound_cases hpassed with ⟨c', hround, -⟩ | ⟨r, s', hround, hconfig, hnextOf⟩
      · rw [hround] at hdone
        cases hdone
      · rw [hround, Round.done.injEq] at hdone
        exact ⟨r, s', hdone.symm, hconfig, hnextOf⟩)
    (n := addrEnd) (s := ⟨i * 256, UInt32.ofNat (lthb s.config (i * 256)), s.select (i * 256 + configLthb)⟩)
    ⟨i, rfl, rfl, select_config, le_refl i, hi, hscan, fun k hk hk' => absurd hk (by omega)⟩ (by unfold addrEnd; omega)
  obtain ⟨o, hrun, r, s', rfl, hconfig, hnextOf⟩ := htotal
  refine ⟨r, s', ?_, hconfig, hnextOf⟩
  rw [next, readl_lthb hi]
  dsimp only
  rw [hrun, Option.join_some]

lemma Predicate.answer_config (p : Predicate) (s : Pci) (addr : Nat) : (p.ask s addr).1 = p.answer s.config addr :=
  p.answer_eq _ _ addr rfl

/-- `find` goes through the functions from `i` on, until the predicate is true of one. -/
lemma run_findRound (p : Predicate) {n : Nat} (s : Pci) (hi : i < 2048) (hscan : Scannable s.config i)
    (hfuel : 2049 - i ≤ n) (before : List Nat) :
    ∃ s', run (findRound p) n ⟨(i * 256 : Nat), before, s⟩ =
      some (some ⟨firstOf (p.answer s.config) ((i :: rest s.config i).map (· * 256)),
        before ++ presented (p.answer s.config) ((i :: rest s.config i).map (· * 256)), s'⟩) ∧ s'.config = s.config := by
  induction n generalizing i s before with
  | zero => omega
  | succ n ih =>
    have hask := p.config_eq s (i * 256)
    have hanswer := p.answer_config s (i * 256)
    cases hp : p.ask s (i * 256) with
    | mk b s₁ =>
      rw [hp] at hask hanswer
      dsimp only at hask hanswer
      rw [List.map_cons, firstOf, List.find?_cons, presented, ← hanswer]
      cases b with
      | true =>
        refine ⟨s₁, ?_, hask⟩
        apply run_done
        rw [findRound, if_pos (Int.natCast_nonneg _), Int.toNat_natCast]
        dsimp only
        rw [hp]
        rfl
      | false =>
        obtain ⟨r, s₂, hnext, hconfig, hnextOf⟩ := next_spec s₁ hi (hask.symm ▸ hscan)
        have hround : findRound p ⟨(i * 256 : Nat), before, s⟩ = .next ⟨r, before ++ [i * 256], s₂⟩ := by
          rw [findRound, if_pos (Int.natCast_nonneg _), Int.toNat_natCast]
          dsimp only
          rw [hp]
          dsimp only
          rw [hnext]
        rw [hask] at hconfig hnextOf
        rw [run_next _ hround]
        rcases hnextOf with ⟨j, rfl, hj, hscan', hrest⟩ | ⟨rfl, hrest⟩
        · have hij : i < j := (mem_rest.1 (hrest ▸ List.mem_cons_self)).1
          obtain ⟨s', hrun, hconfig'⟩ := ih s₂ hj (hconfig.symm ▸ hscan') (by omega) (before ++ [i * 256])
          refine ⟨s', ?_, hconfig'.trans hconfig⟩
          rw [hrun, hconfig, hrest, firstOf, List.append_assoc]
          rfl
        · refine ⟨s₂, ?_, hconfig⟩
          rw [hrest]
          obtain ⟨n, rfl⟩ : ∃ n', n = n' + 1 := ⟨n - 1, by omega⟩
          apply run_done
          rfl

/-- What a search presents, and what it returns. -/
structure Finds (p : Predicate) (config : Nat → UInt8) (f : Search) : Prop where
  /-- The addresses up to the first of which the predicate is true. -/
  presented_eq : f.presented = presented (p.answer config) (functions config)
  addr_eq : f.addr = firstOf (p.answer config) (functions config)
  config_eq : f.s.config = config

lemma presented_of_never {answer : Nat → Bool} {l : List Nat} (h : ∀ addr, answer addr = false) : presented answer l = l := by
  induction l with
  | nil => rfl
  | cons addr l ih => rw [presented, h addr, if_neg Bool.false_ne_true, ih]

/-- `find` ends. A predicate that is never true is asked about address 0 and all functions, in the order of their addresses
and once about each. Any other predicate is asked up to the first of which it is true. -/
theorem find_presents (s : Pci) (p : Predicate) :
    ((functions s.config).Pairwise (· < ·) ∧ ∀ addr, addr ∈ functions s.config ↔ addr = 0 ∨ Existing s.config addr) ∧
      (∃ f, s.find p 0 = some f ∧ Finds p s.config f) ∧
      ((∀ addr, p.answer s.config addr = false) →
        ∃ f, s.find p 0 = some f ∧ f.addr = -1 ∧ f.presented = functions s.config) := by
  have hscan : Scannable s.config 0 := Or.inl rfl
  obtain ⟨s', hrun, hconfig⟩ := run_findRound p (n := addrEnd) s (by norm_num) hscan (by unfold addrEnd; omega) []
  have hfind : s.find p 0 = some ⟨firstOf (p.answer s.config) (functions s.config),
      presented (p.answer s.config) (functions s.config), s'⟩ := congrArg Option.join hrun
  refine ⟨⟨?_, ?_⟩, ⟨_, hfind, rfl, rfl, hconfig⟩, ?_⟩
  · have hpairwise : (0 :: rest s.config 0).Pairwise (· < ·) :=
      List.pairwise_cons.2 ⟨fun k hk => (mem_rest.1 hk).1, rest_pairwise s.config 0⟩
    apply List.Pairwise.map _ _ hpairwise
    intro a b hab
    omega
  · intro addr
    rw [functions, List.map_cons, Nat.zero_mul, List.mem_cons, List.mem_map, existing_iff]
    apply or_congr_right'
    intro hzero
    constructor
    · rintro ⟨i, hi, rfl⟩
      obtain ⟨-, hlt, hshown⟩ := mem_rest.1 hi
      exact ⟨i, hlt, rfl, hshown⟩
    · rintro ⟨i, hlt, rfl, hshown⟩
      exact ⟨i, mem_rest.2 ⟨by omega, hlt, hshown⟩, rfl⟩
  · intro hnever
    refine ⟨_, hfind, ?_, presented_of_never hnever⟩
    have hnone : (functions s.config).find? (p.answer s.config) = none := by
      apply List.find?_eq_none.2
      intro addr _
      rw [hnever addr]
      exact Bool.false_ne_true
    exact congrArg (fun o => o.elim (-1) fun addr : Nat => (addr : Int)) hnone

end

end Pci

end Cs300Projects.WeensyOS
