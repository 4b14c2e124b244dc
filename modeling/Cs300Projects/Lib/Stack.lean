import Cs300Projects.Lib.Bytes
import Mathlib.Logic.Function.Basic

/-!
# A stack of 64-bit words in byte memory

Code that saves registers pushes words downward and may move the stack pointer past a word without
writing it. Code that restores registers pops words upward into registers, and may skip some. A
word is read back from where it was pushed.
-/

namespace Stack

/-- Pushes from the stack pointer `sp` on; `none` moves the pointer only. -/
def push (m : Nat → UInt8) : Nat → List (Option Nat) → (Nat → UInt8)
  | _, [] => m
  | sp, none :: ws => push m (sp - 8) ws
  | sp, some w :: ws => push (Bytes.writeLE m (sp - 8) 8 w) (sp - 8) ws

/-- Pops from the stack pointer `sp` on into registers; `none` moves the pointer only. -/
def pop {ρ : Type} [DecidableEq ρ] (m : Nat → UInt8) : Nat → List (Option ρ) → (ρ → Nat) → (ρ → Nat)
  | _, [], regs => regs
  | sp, none :: rs, regs => pop m (sp + 8) rs regs
  | sp, some r :: rs, regs => pop m (sp + 8) rs (Function.update regs r (Bytes.readLE m sp 8))

lemma push_outside {ws : List (Option Nat)} {sp x : Nat} (m : Nat → UInt8) (hsp : 8 * ws.length ≤ sp)
    (hx : Bytes.Outside x (sp - 8 * ws.length) (8 * ws.length)) : push m sp ws x = m x := by
  induction ws generalizing m sp with
  | nil => rfl
  | cons w ws ih =>
    rw [List.length_cons] at hsp hx
    unfold Bytes.Outside at hx
    have hrest : ∀ m, push m (sp - 8) ws x = m x := by
      intro m
      apply ih
      · omega
      · unfold Bytes.Outside
        omega
    cases w with
    | none => exact hrest m
    | some w =>
      refine (hrest _).trans (Bytes.writeLE_outside ?_)
      unfold Bytes.Outside
      omega

/-- The place of the `j`-th push is `j + 1` words below the stack pointer. -/
lemma readLE_push {ws : List (Option Nat)} {sp j : Nat} {w : Option Nat} (m : Nat → UInt8)
    (hsp : 8 * ws.length ≤ sp) (hw : ws[j]? = some w) :
    Bytes.readLE (push m sp ws) (sp - 8 * (j + 1)) 8 =
      (w.map (· % 256 ^ 8)).getD (Bytes.readLE m (sp - 8 * (j + 1)) 8) := by
  induction ws generalizing m sp j with
  | nil => simp at hw
  | cons w' ws ih =>
    rw [List.length_cons] at hsp
    cases j with
    | zero =>
      rw [List.getElem?_cons_zero, Option.some.injEq] at hw
      subst hw
      have hbelow : ∀ m, Bytes.readLE (push m (sp - 8) ws) (sp - 8) 8 = Bytes.readLE m (sp - 8) 8 := by
        intro m
        apply Bytes.readLE_congr
        intro x hx hxlt
        apply push_outside
        · omega
        · unfold Bytes.Outside
          omega
      cases w' with
      | none => exact hbelow m
      | some w => exact (hbelow _).trans (Bytes.readLE_writeLE m (sp - 8) 8 w)
    | succ j =>
      rw [List.getElem?_cons_succ] at hw
      have hlen : j < ws.length := (List.getElem?_eq_some_iff.1 hw).1
      have hlater : ∀ m, Bytes.readLE (push m (sp - 8) ws) (sp - 8 * (j + 1 + 1)) 8 =
          (w.map (· % 256 ^ 8)).getD (Bytes.readLE m (sp - 8 * (j + 1 + 1)) 8) := by
        intro m
        have hread : Bytes.readLE (push m (sp - 8) ws) (sp - 8 - 8 * (j + 1)) 8 =
            (w.map (· % 256 ^ 8)).getD (Bytes.readLE m (sp - 8 - 8 * (j + 1)) 8) := ih m (by omega) hw
        rwa [show sp - 8 - 8 * (j + 1) = sp - 8 * (j + 1 + 1) by omega] at hread
      cases w' with
      | none => exact hlater m
      | some w' =>
        refine (hlater _).trans (congrArg _ ((Bytes.within_writeLE _ _ _ _).readLE ?_))
        unfold Bytes.Apart
        omega

/-- A word that was pushed is found at its place. -/
theorem readLE_push_word {ws : List (Option Nat)} {sp j w : Nat} (m : Nat → UInt8)
    (hsp : 8 * ws.length ≤ sp) (hw : ws[j]? = some (some w)) (hlt : w < 256 ^ 8) :
    Bytes.readLE (push m sp ws) (sp - 8 * (j + 1)) 8 = w := by
  rw [readLE_push m hsp hw, Option.map_some, Option.getD_some, Nat.mod_eq_of_lt hlt]

section Pop

variable {ρ : Type} [DecidableEq ρ] {rs : List (Option ρ)} {r : ρ}

lemma pop_of_notMem (m : Nat → UInt8) (sp : Nat) (regs : ρ → Nat) (h : some r ∉ rs) :
    pop m sp rs regs r = regs r := by
  induction rs generalizing sp regs with
  | nil => rfl
  | cons r' rs ih =>
    rw [List.mem_cons, not_or] at h
    cases r' with
    | none => exact ih _ _ h.2
    | some r' =>
      refine (ih _ _ h.2).trans (Function.update_of_ne ?_ _ _)
      exact fun heq => h.1 (congrArg some heq)

/-- A register that is popped once holds the word at its place. -/
theorem pop_eq (m : Nat → UInt8) (sp : Nat) (regs : ρ → Nat) {j : Nat} (hr : rs[j]? = some (some r))
    (honce : rs.count (some r) = 1) : pop m sp rs regs r = Bytes.readLE m (sp + 8 * j) 8 := by
  induction rs generalizing sp regs j with
  | nil => simp at hr
  | cons r' rs ih =>
    cases j with
    | zero =>
      rw [List.getElem?_cons_zero, Option.some.injEq] at hr
      subst hr
      rw [List.count_cons_self, Nat.add_eq_right, List.count_eq_zero] at honce
      exact (pop_of_notMem m _ _ honce).trans (Function.update_self _ _ _)
    | succ j =>
      rw [List.getElem?_cons_succ] at hr
      have hmem : some r ∈ rs := List.mem_of_getElem? hr
      have hcount := List.count_pos_iff.2 hmem
      have hrest : rs.count (some r) = 1 := by
        have hle := List.count_le_count_cons (a := some r) (b := r') (l := rs)
        omega
      have hplace : sp + 8 * (j + 1) = sp + 8 + 8 * j := by omega
      rw [hplace]
      cases r' with
      | none => exact ih (sp + 8) regs hr hrest
      | some r' => exact ih (sp + 8) _ hr hrest

end Pop

end Stack
