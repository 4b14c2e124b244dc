import Cs300Projects.Lib.Heap
import Mathlib.Logic.Function.Basic

/-!
# The base allocator of dmalloc

`base_malloc` and `base_free` keep freed blocks for later requests and never give one back to
the system before exit. The random draws and the answers of the system's `malloc` are arguments
of each call, so that a run ranges over all of their outcomes.
-/

namespace Cs300Projects.Dmalloc

open Heap

/-- The static variables of `basealloc.cc` and the system's heap. -/
structure State where
  allocs : Nat → Option Nat
  frees : List Block
  disabled : Int
  atexitInstalled : Bool
  heap : System

def State.start : State := ⟨fun _ => none, [], 0, false, System.empty⟩

/-- The loop of `base_malloc` over at most `n` more draws: the index of a free block that is
large enough. -/
def findFree (frees : List Block) (sz : Nat) (draws : Nat → UInt32) : Nat → Nat → Option Nat
  | 0, _ => none
  | n + 1, ntries =>
    if ntries < frees.length then
      match frees[(draws ntries).toNat % frees.length]? with
      | some f =>
        if sz ≤ f.size then some ((draws ntries).toNat % frees.length)
        else findFree frees sz draws n (ntries + 1)
      | none => none
    else none

/-- `allocs.insert(f)` leaves an entry that is already there. -/
def insertAlloc (allocs : Nat → Option Nat) (f : Block) : Nat → Option Nat :=
  match allocs f.addr with
  | none => Function.update allocs f.addr (some f.size)
  | some _ => allocs

/-- Reuse of a freed block, in three of four cases: its address, or 0 when there is none. -/
def reuse (s : State) (sz : Nat) (r : UInt32) (draws : Nat → UInt32) : Nat × State :=
  if r % 4 ≠ 0 then
    match findFree s.frees sz draws 10 0 with
    | none => (0, s)
    | some i =>
      match s.frees[i]? with
      | none => (0, s)
      | some f =>
        (f.addr, { s with allocs := insertAlloc s.allocs f, frees := swapRemove s.frees i })
  else (0, s)

/-- `base_malloc` with the draws `r`, `draws 0`, `draws 1`, ... and the answer `reply` of the
system's `malloc`. -/
def baseMalloc (s : State) (sz : Nat) (r : UInt32) (draws : Nat → UInt32) (reply : Nat) :
    Nat × State :=
  if s.disabled ≠ 0 then
    let m := s.heap.malloc sz reply
    (m.1, { s with heap := m.2 })
  else
    let s₁ := { s with disabled := s.disabled + 1, atexitInstalled := true }
    let old := reuse s₁ sz r draws
    let m := if old.1 = 0 then old.2.heap.malloc (if sz = 0 then 1 else sz) reply
      else (old.1, old.2.heap)
    let s₂ := { old.2 with heap := m.2 }
    let s₃ := if m.1 ≠ 0 then { s₂ with allocs := Function.update s₂.allocs m.1 (some sz) } else s₂
    (m.1, { s₃ with disabled := s₃.disabled - 1 })

def baseFree (s : State) (ptr : Nat) : State :=
  if s.disabled ≠ 0 ∨ ptr = 0 then { s with heap := s.heap.free ptr }
  else
    let s₁ := { s with disabled := s.disabled + 1 }
    let s₂ : State := match s₁.allocs ptr with
      | some n =>
        { s₁ with
          frees := s₁.frees ++ [Block.mk ptr n], allocs := Function.update s₁.allocs ptr none }
      | none => s₁
    { s₂ with disabled := s₂.disabled - 1 }

def baseAllocatorDisable (s : State) (d : Bool) : State :=
  { s with disabled := if d then 1 else 0 }

def baseAllocatorAtexit (s : State) : State :=
  { s with heap := s.frees.foldl (fun h f => h.free f.addr) s.heap }

/-- `exit` calls the handlers that have been installed. -/
def exit (s : State) : State :=
  if s.atexitInstalled then baseAllocatorAtexit s else s

inductive Call where
  | malloc (sz : Nat) (r : UInt32) (draws : Nat → UInt32) (reply : Nat)
  | free (ptr : Nat)

/-- The state after a call, with the pointer that `base_malloc` returns. -/
def step (s : State) : Call → Nat × State
  | .malloc sz r draws reply => baseMalloc s sz r draws reply
  | .free ptr => (0, baseFree s ptr)

def run : State → List Call → State
  | s, [] => s
  | s, c :: calls => run (step s c).2 calls

/-- What a caller knows: the pointers it has got and not freed, with the sizes it asked for. -/
abbrev Ledger := Nat → Option Nat

def Ledger.record (l : Ledger) (c : Call) (result : Nat) : Ledger :=
  match c with
  | .malloc sz _ _ _ => if result = 0 then l else Function.update l result (some sz)
  | .free ptr => Function.update l ptr none

/-- The ledger of a caller after a run from `s`. -/
def ledger : State → Ledger → List Call → Ledger
  | _, l, [] => l
  | s, l, c :: calls => ledger (step s c).2 (l.record c (step s c).1) calls

/-! ### What each function does -/

lemma findFree_spec {frees : List Block} {sz : Nat} {draws : Nat → UInt32} {n ntries i : Nat}
    (h : findFree frees sz draws n ntries = some i) :
    ∃ hi : i < frees.length, sz ≤ frees[i].size := by
  induction n generalizing ntries with
  | zero => simp [findFree] at h
  | succ n ih =>
    unfold findFree at h
    by_cases hlt : ntries < frees.length
    · have hi : (draws ntries).toNat % frees.length < frees.length := Nat.mod_lt _ (by omega)
      rw [if_pos hlt, List.getElem?_eq_getElem hi] at h
      by_cases hsz : sz ≤ (frees[(draws ntries).toNat % frees.length]).size
      · simp only [if_pos hsz, Option.some.injEq] at h
        subst h
        exact ⟨hi, hsz⟩
      · simp only [if_neg hsz] at h
        exact ih h
    · rw [if_neg hlt] at h
      simp at h

/-- Reuse finds nothing, or takes a free block that is large enough off the vector. -/
lemma reuse_cases (s : State) (sz : Nat) (r : UInt32) (draws : Nat → UInt32) :
    reuse s sz r draws = (0, s) ∨
      ∃ i f, s.frees[i]? = some f ∧ sz ≤ f.size ∧ reuse s sz r draws =
        (f.addr, { s with allocs := insertAlloc s.allocs f, frees := swapRemove s.frees i }) := by
  unfold reuse
  by_cases hr : r % 4 ≠ 0
  · rw [if_pos hr]
    cases hf : findFree s.frees sz draws 10 0 with
    | none => exact Or.inl rfl
    | some i =>
      obtain ⟨hi, hsz⟩ := findFree_spec hf
      right
      refine ⟨i, s.frees[i], List.getElem?_eq_getElem hi, hsz, ?_⟩
      simp only [List.getElem?_eq_getElem hi]
  · rw [if_neg hr]
    exact Or.inl rfl

/-- The outcomes of `base_malloc` on an allocator that is not disabled: no block, a fresh block
of the system, or a block that was free. -/
lemma baseMalloc_cases {s : State} (hs : s.disabled = 0) (hfrees : ∀ f ∈ s.frees, f.addr ≠ 0)
    (hallocs : ∀ f ∈ s.frees, s.allocs f.addr = none) (sz : Nat) (r : UInt32)
    (draws : Nat → UInt32) (reply : Nat) :
    baseMalloc s sz r draws reply = (0, { s with atexitInstalled := true }) ∨
    (∃ h, (s.heap.Fresh ⟨reply, max sz 1⟩ ∧ h.held = ⟨reply, max sz 1⟩ :: s.heap.held ∧
        h.returned = s.heap.returned) ∧
      baseMalloc s sz r draws reply = (reply, { s with
        allocs := Function.update s.allocs reply (some sz), atexitInstalled := true, heap := h })) ∨
    (∃ i f, s.frees[i]? = some f ∧ sz ≤ f.size ∧
      baseMalloc s sz r draws reply = (f.addr, { s with
        allocs := Function.update s.allocs f.addr (some sz), frees := swapRemove s.frees i,
        atexitInstalled := true })) := by
  have hmax : (if sz = 0 then 1 else sz) = max sz 1 := by
    by_cases h0 : sz = 0
    · rw [if_pos h0, h0]
      rfl
    · rw [if_neg h0]
      omega
  unfold baseMalloc
  simp only [hs, ne_eq, not_true_eq_false, if_false, hmax]
  rcases reuse_cases { s with disabled := 0 + 1, atexitInstalled := true } sz r draws with
    hnone | ⟨i, f, hf, hsz, hsome⟩
  · simp only [hnone, if_true]
    rcases s.heap.malloc_cases (max sz 1) reply with hnull | ⟨haddr, hfresh, hheld, hreturned⟩
    · left
      simp [hnull]
    · right
      left
      have hreply : reply ≠ 0 := hfresh.1
      refine ⟨(s.heap.malloc (max sz 1) reply).2, ⟨hfresh, hheld, hreturned⟩, ?_⟩
      simp [haddr, hreply]
  · right
    right
    have hmem : f ∈ s.frees := List.mem_of_getElem? hf
    have hne : f.addr ≠ 0 := hfrees f hmem
    refine ⟨i, f, hf, hsz, ?_⟩
    simp only [hsome, if_neg hne]
    simp [hne, insertAlloc, hallocs f hmem, Function.update_idem]

lemma baseFree_cases {s : State} (hs : s.disabled = 0) (ptr : Nat) :
    (baseFree s ptr = s ∧ (ptr = 0 ∨ s.allocs ptr = none)) ∨
    (∃ n, ptr ≠ 0 ∧ s.allocs ptr = some n ∧ baseFree s ptr = { s with
      allocs := Function.update s.allocs ptr none, frees := s.frees ++ [⟨ptr, n⟩] }) := by
  obtain ⟨allocs, frees, disabled, installed, heap⟩ := s
  simp only at hs
  subst hs
  unfold baseFree
  by_cases hp : ptr = 0
  · left
    simp [hp, System.free]
  · cases ha : allocs ptr with
    | none =>
      left
      simp [hp, ha]
    | some n =>
      right
      exact ⟨n, hp, ha, by simp [hp, ha]⟩

end Cs300Projects.Dmalloc
