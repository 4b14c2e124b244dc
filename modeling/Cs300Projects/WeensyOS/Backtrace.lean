import Cs300Projects.Lib.Bytes
import Cs300Projects.Lib.Loop
import Cs300Projects.WeensyOS.Paging
import Cs300Projects.WeensyOS.Kernel

/-!
# Backtraces

`backtracer` of `k-hardware.cc` and the loop of `log_backtrace` and `assert_fail`, with the frames that
the loop dereferences. A frame pointer above the stack top passes `ok()`, because the unsigned difference
wraps around; the loop is safe exactly when the chain of saved frame pointers leads to none.
-/

namespace Cs300Projects.WeensyOS

open Bytes Loop

/-- `*reinterpret_cast<uintptr_t*>(a)` -/
def load (m : Word → UInt8) (a : Word) : Word :=
  BitVec.ofNat 64 (readLE (fun i => m (BitVec.ofNat 64 i)) a.toNat 8)

structure Backtracer where
  rbp_ : Word
  rsp_ : Word
  stackTop_ : Word

namespace Backtracer

def ok (bt : Backtracer) : Bool := bt.rsp_ ≤ bt.rbp_ && 16#64 ≤ bt.stackTop_ - bt.rbp_

def retRip (m : Word → UInt8) (bt : Backtracer) : Word := load m (bt.rbp_ + 8#64)

def step (m : Word → UInt8) (bt : Backtracer) : Backtracer :=
  { bt with rsp_ := bt.rbp_ + 16#64, rbp_ := load m bt.rbp_ }

/-- The frame pointer and the return address, which are both read. -/
def frame (m : Word → UInt8) (bt : Backtracer) : Word × Word := (bt.rbp_, bt.retRip m)

def next (m : Word → UInt8) (_ : List (Word × Word)) (bt : Backtracer) : Except Empty Backtracer := .ok (bt.step m)

end Backtracer

/-- `round_up(rsp, PAGESIZE)` -/
def stackTop (rsp : Word) : Nat := Kernel.roundUp rsp.toNat Kernel.pagesize

def Backtracer.start (rbp rsp : Word) : Backtracer := ⟨rbp, rsp, BitVec.ofNat 64 (stackTop rsp)⟩

/-- `for (backtracer bt(rbp, rsp, round_up(rsp, PAGESIZE)); bt.ok(); bt.step())`, with the frames that are
dereferenced: the loop of `log_backtrace`, and of `assert_fail` for the registers' own values. -/
def logBacktrace (fuel : Nat) (m : Word → UInt8) (rsp rbp : Word) : Option (List (Word × Word)) :=
  (run (visitRound Backtracer.ok (Backtracer.frame m) (Backtracer.next m)) fuel
    ([], .start rbp rsp)).bind fun r => r.toOption.map Prod.fst

/-- The 16 bytes of the frame lie between the two addresses. -/
def FrameWithin (low top : Nat) (rbp : Word) : Prop := low ≤ rbp.toNat ∧ rbp.toNat + 16 ≤ top

/-- The frame pointers that the chain leads to through frames within the stack, each above the one before. -/
inductive Leads (m : Word → UInt8) (top : Nat) : Nat → Word → Word → Prop where
  | here (low : Nat) (rbp : Word) : Leads m top low rbp rbp
  | saved {low : Nat} {rbp a : Word} (hframe : FrameWithin low top rbp)
      (hrest : Leads m top (rbp.toNat + 16) (load m rbp) a) : Leads m top low rbp a

section Chain

variable {m : Word → UInt8} {bt : Backtracer}

lemma Backtracer.ok_iff (htop : 16 ≤ bt.stackTop_.toNat) (hle : bt.rsp_.toNat ≤ bt.stackTop_.toNat) :
    bt.ok = true ↔ FrameWithin bt.rsp_.toNat bt.stackTop_.toNat bt.rbp_ ∨ bt.stackTop_.toNat < bt.rbp_.toNat := by
  have hsub := BitVec.toNat_sub bt.stackTop_ bt.rbp_
  have hrbp := bt.rbp_.isLt
  simp only [ok, Bool.and_eq_true, decide_eq_true_iff, BitVec.le_def, hsub, BitVec.toNat_ofNat]
  unfold FrameWithin
  omega

@[simp] lemma Backtracer.step_stackTop (m : Word → UInt8) (bt : Backtracer) :
    (bt.step m).stackTop_ = bt.stackTop_ := by
  simp only [step]

lemma Backtracer.step_rsp {low : Nat} (h : FrameWithin low bt.stackTop_.toNat bt.rbp_) :
    (bt.step m).rsp_.toNat = bt.rbp_.toNat + 16 := by
  have htop := bt.stackTop_.isLt
  have hwithin := h.2
  simp only [step, BitVec.toNat_add, BitVec.toNat_ofNat]
  omega

/-- The loop ends and stays within the stack if the chain leads nowhere above it. -/
lemma Backtracer.run_safe (bt : Backtracer) {low top : Nat} (hstack : bt.stackTop_.toNat = top) (htop : 16 ≤ top)
    (hlow : low ≤ bt.rsp_.toNat) (hle : bt.rsp_.toNat ≤ top)
    (hleads : ∀ a, Leads m top bt.rsp_.toNat bt.rbp_ a → a.toNat ≤ top) {fuel : Nat}
    (hfuel : top - bt.rsp_.toNat < fuel) :
    ∃ l last, run (visitRound ok (frame m) (next m)) fuel ([], bt) = some (.ok (l, last)) ∧
      ∀ f ∈ l, FrameWithin low top f.1 := by
  have htotal := visit_total ok (frame m) (next m)
    (fun l b => b.stackTop_.toNat = top ∧ low ≤ b.rsp_.toNat ∧ b.rsp_.toNat ≤ top ∧
      (∀ a, Leads m top b.rsp_.toNat b.rbp_ a → a.toNat ≤ top) ∧ ∀ f ∈ l, FrameWithin low top f.1)
    (fun b => top - b.rsp_.toNat) ?_ (l := []) ⟨hstack, hlow, hle, hleads, by simp⟩ hfuel
  · obtain ⟨l, last, hrun, hinv, _⟩ := htotal
    exact ⟨l, last, hrun, hinv.2.2.2.2⟩
  · rintro l b ⟨hbstack, hblow, hble, hbleads, hl⟩ hok
    subst hbstack
    have hwithin : FrameWithin b.rsp_.toNat b.stackTop_.toNat b.rbp_ := by
      cases (ok_iff htop hble).1 hok with
      | inl hwithin => exact hwithin
      | inr habove => exact absurd (hbleads _ (.here _ _)) (Nat.not_le.2 habove)
    have hrsp := step_rsp (m := m) hwithin
    have hframe := hwithin
    unfold FrameWithin at hframe
    have hlow' : low ≤ (b.step m).rsp_.toNat := by
      rw [hrsp]
      omega
    have hle' : (b.step m).rsp_.toNat ≤ b.stackTop_.toNat := by
      rw [hrsp]
      omega
    have hcloser : b.stackTop_.toNat - (b.step m).rsp_.toNat < b.stackTop_.toNat - b.rsp_.toNat := by
      rw [hrsp]
      omega
    refine ⟨b.step m, rfl, ⟨by rw [step_stackTop], hlow', hle', ?_, ?_⟩, hcloser⟩
    · intro a ha
      rw [hrsp] at ha
      exact hbleads a (.saved hwithin ha)
    · intro f hf
      rw [List.mem_append, List.mem_singleton] at hf
      cases hf with
      | inl hf => exact hl f hf
      | inr hf =>
        rw [hf]
        exact ⟨hblow.trans hwithin.1, hwithin.2⟩

/-- A loop that ends within the stack follows the chain to its end. -/
lemma Backtracer.leads_le (bt : Backtracer) {low top : Nat} {last : Backtracer} {l r : List (Word × Word)} {fuel : Nat}
    (hstack : bt.stackTop_.toNat = top) (htop : 16 ≤ top) (hle : bt.rsp_.toNat ≤ top)
    (hrun : run (visitRound ok (frame m) (next m)) fuel (l, bt) = some (.ok (r, last)))
    (hr : ∀ f ∈ r, FrameWithin low top f.1) {a : Word}
    (hleads : Leads m top bt.rsp_.toNat bt.rbp_ a) : a.toNat ≤ top := by
  generalize hsp : bt.rsp_.toNat = sp at hleads
  generalize hbp : bt.rbp_ = rbp at hleads
  induction hleads generalizing bt l fuel with
  | here sp rbp =>
    subst hsp hbp hstack
    by_contra habove
    have hok : bt.ok = true := (ok_iff htop hle).2 (Or.inr (Nat.not_le.1 habove))
    obtain ⟨n, hrest⟩ := run_visit hok rfl hrun
    have hmem : frame m bt ∈ r := (visit_subset_run hrest).subset (by simp)
    exact habove (Nat.le_of_add_right_le (hr _ hmem).2)
  | saved hframe hrest ih =>
    subst hsp hbp hstack
    have hok : bt.ok = true := (ok_iff htop hle).2 (Or.inl hframe)
    obtain ⟨n, hrun⟩ := run_visit hok rfl hrun
    have hrsp := step_rsp (m := m) hframe
    have hstack : (bt.step m).stackTop_.toNat = bt.stackTop_.toNat := by rw [step_stackTop]
    have hle' : (bt.step m).rsp_.toNat ≤ bt.stackTop_.toNat := by
      rw [hrsp]
      exact hframe.2
    exact ih (bt.step m) hstack hle' hrun hrsp rfl

end Chain

/-- The loop ends, and every frame that it dereferences lies between the stack pointer and the stack top. -/
def SafeBacktrace (m : Word → UInt8) (rsp rbp : Word) : Prop :=
  ∃ fuel frames, logBacktrace fuel m rsp rbp = some frames ∧ ∀ f ∈ frames, FrameWithin rsp.toNat (stackTop rsp) f.1

/-- The stack pointer is in the kernel stack page. -/
def OnKernelStack (rsp : Word) : Prop :=
  Kernel.kernelStackTop - Kernel.pagesize ≤ rsp.toNat ∧ rsp.toNat ≤ Kernel.kernelStackTop

lemma OnKernelStack.stackTop_bounds {rsp : Word} (h : OnKernelStack rsp) :
    (BitVec.ofNat 64 (stackTop rsp)).toNat = stackTop rsp ∧
    16 ≤ stackTop rsp ∧ rsp.toNat ≤ stackTop rsp := by
  unfold OnKernelStack Kernel.kernelStackTop Kernel.pagesize at h
  unfold stackTop Kernel.roundUp Kernel.roundDown Kernel.pagesize
  rw [BitVec.toNat_ofNat]
  omega

/-- A backtrace is safe exactly when no frame pointer above the stack top is saved in the stack's frames. -/
theorem backtrace_safe_iff (m : Word → UInt8) (rsp rbp : Word) (hrsp : OnKernelStack rsp) :
    SafeBacktrace m rsp rbp ↔ ∀ a, Leads m (stackTop rsp) rsp.toNat rbp a → a.toNat ≤ stackTop rsp := by
  obtain ⟨hstack, htop, hle⟩ := hrsp.stackTop_bounds
  constructor
  · rintro ⟨fuel, frames, hrun, hframes⟩ a hleads
    unfold logBacktrace at hrun
    rw [Option.bind_eq_some_iff] at hrun
    obtain ⟨r, hloop, hr⟩ := hrun
    cases r with
    | error e => exact e.elim
    | ok r =>
      obtain ⟨l, last⟩ := r
      rw [Except.toOption, Option.map_some, Option.some.injEq] at hr
      subst hr
      exact Backtracer.leads_le (.start rbp rsp) hstack htop hle hloop hframes hleads
  · intro hleads
    obtain ⟨l, last, hloop, hl⟩ := Backtracer.run_safe (.start rbp rsp) hstack htop (Nat.le_refl rsp.toNat) hle
      hleads (Nat.lt_succ_of_le (Nat.sub_le (stackTop rsp) rsp.toNat))
    have hrun : logBacktrace (stackTop rsp + 1) m rsp rbp = some l := by
      rw [logBacktrace, hloop]
      rfl
    exact ⟨_, l, hrun, hl⟩

lemma sampleStack : OnKernelStack 0x7ff00 := by
  simp [OnKernelStack, Kernel.kernelStackTop, Kernel.pagesize]

lemma sampleStack_top : stackTop 0x7ff00 = 0x80000 := by
  simp [stackTop, Kernel.roundUp, Kernel.roundDown, Kernel.pagesize]

/-- A chain of one frame, whose saved frame pointer is 0. -/
theorem backtrace_safe_iff_sample : SafeBacktrace (fun _ => 0) 0x7ff00 0x7ff40 := by
  rw [backtrace_safe_iff _ _ _ sampleStack, sampleStack_top]
  intro a ha
  cases ha with
  | here => decide
  | saved _ hrest =>
    cases hrest with
    | here => decide
    | saved hframe _ => exact absurd hframe.1 (by decide)

/-- The frame pointer of a user process leads out of the kernel stack. -/
theorem backtrace_not_safe : ¬ ∀ (m : Word → UInt8) (rsp rbp : Word), OnKernelStack rsp → SafeBacktrace m rsp rbp := by
  intro h
  have habove := (backtrace_safe_iff (fun _ => 0) 0x7ff00 0x2fffe0 sampleStack).1 (h _ _ _ sampleStack) _ (.here _ _)
  rw [sampleStack_top] at habove
  exact absurd habove (by simp)

end Cs300Projects.WeensyOS
