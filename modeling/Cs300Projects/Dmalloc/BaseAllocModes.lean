import Cs300Projects.Dmalloc.BaseAllocBlocks
import Mathlib.Order.Monotone.Basic

/-!
# Disabling the base allocator

While it is disabled, the base allocator passes its calls to the system and does not touch its records. A client may
switch it off and on between its calls. The block of a pointer that the client holds, and each freed block, stays a
block of the system. Their sizes are right as long as no record of an earlier block is taken for that of a later one.
-/

namespace Cs300Projects.Dmalloc

open Heap

inductive Op where
  | call (c : Call)
  | disable (d : Bool)

/-- The state after an operation, with the pointer that `base_malloc` returns. -/
def perform (s : State) : Op → Nat × State
  | .call c => step s c
  | .disable d => (0, baseAllocatorDisable s d)

/-- A pointer that the client holds: whether the allocator was enabled when it returned it, and the size of the request. -/
structure Owned where
  enabled : Bool
  size : Nat

abbrev Holdings := Nat → Option Owned

def Holdings.record (l : Holdings) (enabled : Bool) (op : Op) (result : Nat) : Holdings :=
  match op with
  | .call (.malloc sz _ _ _) => if result = 0 then l else Function.update l result (some ⟨enabled, sz⟩)
  | .call (.free ptr) => Function.update l ptr none
  | .disable _ => l

/-- The allocator with the pointers that its client holds. -/
structure Client where
  s : State
  l : Holdings

namespace Client

def start : Client := ⟨State.start, fun _ => none⟩

def next (x : Client) (op : Op) : Client :=
  ⟨(perform x.s op).2, x.l.record (x.s.disabled = 0) op (perform x.s op).1⟩

def run : Client → List Op → Client
  | x, [] => x
  | x, op :: ops => run (x.next op) ops

/-- The client frees null pointers, and pointers that it holds. -/
def Allowed (x : Client) : Op → Prop
  | .call (.free ptr) => ptr = 0 ∨ (x.l ptr).isSome = true
  | _ => True

/-- No pointer is freed to the enabled allocator that was obtained while it was disabled, and whose address is still on
record with a larger size, from an earlier block that was freed while it was disabled. -/
def NoLargerRecord (x : Client) : Op → Prop
  | .call (.free ptr) =>
    x.s.disabled = 0 → ∀ o ∈ x.l ptr, o.enabled = false → ∀ n ∈ x.s.allocs ptr, n ≤ o.size
  | _ => True

instance (x : Client) (op : Op) : Decidable (x.Allowed op) := by
  unfold Allowed
  split <;> infer_instance

instance (x : Client) (op : Op) : Decidable (x.NoLargerRecord op) := by
  unfold NoLargerRecord
  split <;> infer_instance

/-- The condition holds before each operation of a run. -/
def Along (P : Client → Op → Prop) : Client → List Op → Prop
  | _, [] => True
  | x, op :: ops => P x op ∧ Along P (x.next op) ops

instance instDecidableAlong (P : Client → Op → Prop) [∀ x op, Decidable (P x op)] : ∀ x ops, Decidable (Along P x ops)
  | _, [] => inferInstanceAs (Decidable True)
  | x, op :: ops =>
    have := instDecidableAlong P (x.next op) ops
    inferInstanceAs (Decidable (_ ∧ _))

/-! ### The invariant -/

/-- All pointers of the client and all freed blocks are at blocks of the system, of at least the size that `w` makes of the
size on record. -/
structure Inv (w : Nat → Nat) (x : Client) : Prop where
  nonnull : ∀ c ∈ x.s.heap.held, c.addr ≠ 0
  liveBacked : ∀ p o, x.l p = some o → Backed x.s.heap ⟨p, w o.size⟩
  freeBacked : ∀ f ∈ x.s.frees, Backed x.s.heap ⟨f.addr, w f.size⟩
  freeNodup : (x.s.frees.map Block.addr).Nodup
  separate : ∀ f ∈ x.s.frees, x.s.allocs f.addr = none ∧ x.l f.addr = none
  /-- The record of a pointer that was obtained from the enabled allocator is its own. -/
  recorded : ∀ p o, x.l p = some o → o.enabled = true → x.s.allocs p = some o.size

section Inv

variable {w : Nat → Nat} {x : Client} {s : State} {l : Holdings} {h : System} {p n sz : Nat}

lemma start_inv (w : Nat → Nat) : Inv w start where
  nonnull := fun _ hc => absurd hc List.not_mem_nil
  liveBacked := fun _ o h => absurd h.symm (Option.some_ne_none o)
  freeBacked := fun _ hf => absurd hf List.not_mem_nil
  freeNodup := List.nodup_nil
  separate := fun _ hf => absurd hf List.not_mem_nil
  recorded := fun _ o h => absurd h.symm (Option.some_ne_none o)

lemma Inv.free_nonnull (hx : Inv w ⟨s, l⟩) {f : Block} (hf : f ∈ s.frees) : f.addr ≠ 0 := by
  obtain ⟨c, hc, haddr, -⟩ := hx.freeBacked f hf
  exact haddr ▸ hx.nonnull c hc

/-- The client gets a new block of the system. -/
lemma Inv.grant (hx : Inv w ⟨s, l⟩) {s' : State} {enabled : Bool} (hw : w sz ≤ n) (hfresh : s.heap.Fresh ⟨p, n⟩)
    (hheld : s'.heap.held = ⟨p, n⟩ :: s.heap.held) (hfrees : s'.frees = s.frees)
    (hallocs : ∀ q, q ≠ p → s'.allocs q = s.allocs q) (hrecord : enabled = true → s'.allocs p = some sz) :
    Inv w ⟨s', Function.update l p (some ⟨enabled, sz⟩)⟩ := by
  have hsub : ∀ c ∈ s.heap.held, c ∈ s'.heap.held := by
    intro c hc
    rw [hheld]
    exact List.mem_cons_of_mem _ hc
  have hne : ∀ f ∈ s.frees, f.addr ≠ p := fun f hf => (hx.freeBacked f hf).ne_of_fresh hfresh
  constructor
  case nonnull =>
    intro c hc
    rw [hheld, List.mem_cons] at hc
    rcases hc with rfl | hc
    · exact hfresh.1
    · exact hx.nonnull c hc
  case liveBacked =>
    intro q o (hq : Function.update l p (some ⟨enabled, sz⟩) q = some o)
    by_cases hqp : q = p
    · subst hqp
      rw [Function.update_self, Option.some.injEq] at hq
      subst hq
      refine ⟨⟨q, n⟩, ?_, rfl, hw⟩
      rw [hheld]
      exact List.mem_cons_self
    · rw [Function.update_of_ne hqp] at hq
      exact (hx.liveBacked q o hq).mono hsub
  case freeBacked =>
    intro f hf
    exact (hx.freeBacked f (hfrees ▸ hf)).mono hsub
  case freeNodup =>
    change (s'.frees.map Block.addr).Nodup
    rw [hfrees]
    exact hx.freeNodup
  case separate =>
    intro f (hf : f ∈ s'.frees)
    rw [hfrees] at hf
    change s'.allocs f.addr = none ∧ Function.update l p (some ⟨enabled, sz⟩) f.addr = none
    rw [hallocs _ (hne f hf), Function.update_of_ne (hne f hf)]
    exact hx.separate f hf
  case recorded =>
    intro q o (hq : Function.update l p (some ⟨enabled, sz⟩) q = some o) henabled
    by_cases hqp : q = p
    · subst hqp
      rw [Function.update_self, Option.some.injEq] at hq
      subst hq
      exact hrecord henabled
    · rw [Function.update_of_ne hqp] at hq
      exact (hallocs q hqp).trans (hx.recorded q o hq henabled)

/-- The client gets a freed block again. -/
lemma Inv.recycle (hx : Inv w ⟨s, l⟩) (hw : Monotone w) {i : Nat} {f : Block} (hf : s.frees[i]? = some f) (hsz : sz ≤ f.size) :
    Inv w ⟨{ s with allocs := Function.update s.allocs f.addr (some sz), frees := swapRemove s.frees i,
                    atexitInstalled := true }, Function.update l f.addr (some ⟨true, sz⟩)⟩ := by
  obtain ⟨hi, rfl⟩ := List.getElem?_eq_some_iff.1 hf
  have hperm := swapRemove_perm s.frees i hi
  have hmem : ∀ g ∈ swapRemove s.frees i, g ∈ s.frees := fun g hg => hperm.mem_iff.2 (List.mem_cons_of_mem _ hg)
  have hnodup := (hperm.map Block.addr).nodup_iff.1 hx.freeNodup
  rw [List.map_cons, List.nodup_cons] at hnodup
  constructor
  case nonnull => exact hx.nonnull
  case liveBacked =>
    intro q o (hq : Function.update l s.frees[i].addr (some ⟨true, sz⟩) q = some o)
    by_cases hqp : q = s.frees[i].addr
    · subst hqp
      rw [Function.update_self, Option.some.injEq] at hq
      subst hq
      exact (hx.freeBacked _ (List.getElem_mem hi)).shrink (hw hsz)
    · rw [Function.update_of_ne hqp] at hq
      exact hx.liveBacked q o hq
  case freeBacked => exact fun g hg => hx.freeBacked g (hmem g hg)
  case freeNodup => exact hnodup.2
  case separate =>
    intro g hg
    have hne : g.addr ≠ s.frees[i].addr := fun heq => hnodup.1 (heq ▸ List.mem_map_of_mem hg)
    change Function.update s.allocs s.frees[i].addr (some sz) g.addr = none ∧
      Function.update l s.frees[i].addr (some ⟨true, sz⟩) g.addr = none
    rw [Function.update_of_ne hne, Function.update_of_ne hne]
    exact hx.separate g (hmem g hg)
  case recorded =>
    intro q o (hq : Function.update l s.frees[i].addr (some ⟨true, sz⟩) q = some o) henabled
    change Function.update s.allocs s.frees[i].addr (some sz) q = some o.size
    by_cases hqp : q = s.frees[i].addr
    · subst hqp
      rw [Function.update_self, Option.some.injEq] at hq
      subst hq
      exact Function.update_self ..
    · rw [Function.update_of_ne hqp] at hq ⊢
      exact hx.recorded q o hq henabled

/-- The client frees a pointer of which the allocator has no record. -/
lemma Inv.forget (hx : Inv w ⟨s, l⟩) (p : Nat) : Inv w ⟨s, Function.update l p none⟩ := by
  have hold : ∀ q o, Function.update l p none q = some o → l q = some o := by
    intro q o hq
    by_cases hqp : q = p
    · rw [hqp, Function.update_self] at hq
      exact absurd hq.symm (Option.some_ne_none o)
    · rwa [Function.update_of_ne hqp] at hq
  refine ⟨hx.nonnull, fun q o hq => hx.liveBacked q o (hold q o hq), hx.freeBacked, hx.freeNodup, ?_,
    fun q o hq => hx.recorded q o (hold q o hq)⟩
  intro f hf
  refine ⟨(hx.separate f hf).1, ?_⟩
  cases hl : Function.update l p none f.addr with
  | none => exact hl
  | some o => exact absurd ((hold _ o hl).symm.trans (hx.separate f hf).2) (Option.some_ne_none o)

/-- The client frees a pointer of which the allocator has a record. -/
lemma Inv.release (hx : Inv w ⟨s, l⟩) (hp : s.allocs p = some n) (hback : Backed s.heap ⟨p, w n⟩) :
    Inv w ⟨{ s with allocs := Function.update s.allocs p none, frees := s.frees ++ [⟨p, n⟩] },
      Function.update l p none⟩ := by
  have hforget := hx.forget p
  have hnew : ∀ f ∈ s.frees, f.addr ≠ p := by
    intro f hf heq
    have hnone := (hx.separate f hf).1
    rw [heq] at hnone
    exact Option.some_ne_none n (hp.symm.trans hnone)
  constructor
  case nonnull => exact hx.nonnull
  case liveBacked => exact hforget.liveBacked
  case freeBacked =>
    intro f (hf : f ∈ s.frees ++ [Block.mk p n])
    rw [List.mem_append, List.mem_singleton] at hf
    rcases hf with hf | rfl
    · exact hx.freeBacked f hf
    · exact hback
  case freeNodup =>
    change ((s.frees ++ [Block.mk p n]).map Block.addr).Nodup
    rw [List.map_append, List.map_singleton, List.nodup_append]
    refine ⟨hx.freeNodup, List.pairwise_singleton _ _, fun a ha b hb => ?_⟩
    obtain ⟨f, hf, rfl⟩ := List.mem_map.1 ha
    rw [List.mem_singleton.1 hb]
    exact hnew f hf
  case separate =>
    intro f (hf : f ∈ s.frees ++ [Block.mk p n])
    rw [List.mem_append, List.mem_singleton] at hf
    rcases hf with hf | rfl
    · refine ⟨?_, (hforget.separate f hf).2⟩
      change Function.update s.allocs p none f.addr = none
      rw [Function.update_of_ne (hnew f hf)]
      exact (hx.separate f hf).1
    · exact ⟨Function.update_self p none s.allocs, Function.update_self p none l⟩
  case recorded =>
    intro q o (hq : Function.update l p none q = some o) henabled
    change Function.update s.allocs p none q = some o.size
    by_cases hqp : q = p
    · rw [hqp, Function.update_self] at hq
      exact absurd hq.symm (Option.some_ne_none o)
    · rw [Function.update_of_ne hqp]
      exact hforget.recorded q o hq henabled

lemma Backed.free {b : Block} (hb : Backed h b) (hne : b.addr ≠ p) : Backed (h.free p) b := by
  obtain ⟨c, hc, haddr, hsize⟩ := hb
  refine ⟨c, ?_, haddr, hsize⟩
  unfold System.free
  split
  · exact hc
  · rw [← haddr] at hne
    exact List.mem_filter.2 ⟨hc, decide_eq_true hne⟩

/-- The client frees a pointer to the system. -/
lemma Inv.giveBack (hx : Inv w ⟨s, l⟩) (hp : p = 0 ∨ (l p).isSome = true) :
    Inv w ⟨{ s with heap := s.heap.free p }, Function.update l p none⟩ := by
  have hforget := hx.forget p
  have hheld : ∀ c ∈ (s.heap.free p).held, c ∈ s.heap.held := by
    intro c hc
    unfold System.free at hc
    split at hc
    · exact hc
    · exact List.mem_of_mem_filter hc
  refine ⟨fun c hc => hx.nonnull c (hheld c hc), ?_, ?_, hx.freeNodup, hforget.separate, hforget.recorded⟩
  · intro q o (hq : Function.update l p none q = some o)
    apply Backed.free (hforget.liveBacked q o hq)
    intro (hqp : q = p)
    rw [hqp, Function.update_self] at hq
    exact Option.some_ne_none o hq.symm
  · intro f hf
    apply Backed.free (hx.freeBacked f hf)
    intro (hfp : f.addr = p)
    rcases hp with rfl | hlive
    · exact hx.free_nonnull hf hfp
    · have hnone : l f.addr = none := (hx.separate f hf).2
      rw [← hfp, hnone] at hlive
      exact Bool.false_ne_true hlive

/-- A flag of the allocator is not in the invariant. -/
lemma Inv.flags (hx : Inv w ⟨s, l⟩) (disabled : Int) (installed : Bool) :
    Inv w ⟨{ s with disabled := disabled, atexitInstalled := installed }, l⟩ :=
  ⟨hx.nonnull, hx.liveBacked, hx.freeBacked, hx.freeNodup, hx.separate, hx.recorded⟩

lemma next_malloc_inv (hx : Inv w ⟨s, l⟩) (hw : Monotone w) (hself : ∀ n, w n ≤ n) (sz : Nat) (r : UInt32) (draws : Nat → UInt32)
    (reply : Nat) : Inv w (next ⟨s, l⟩ (.call (.malloc sz r draws reply))) := by
  by_cases hs : s.disabled = 0
  · have hfrees : ∀ f ∈ s.frees, f.addr ≠ 0 := fun f hf => hx.free_nonnull hf
    have hallocs : ∀ f ∈ s.frees, s.allocs f.addr = none := fun f hf => (hx.separate f hf).1
    rcases baseMalloc_cases hs hfrees hallocs sz r draws reply with
      hnull | ⟨h, ⟨hfresh, hheld, -⟩, hgrant⟩ | ⟨i, f, hf, hsz, hrecycle⟩
    · have hnext : next ⟨s, l⟩ (.call (.malloc sz r draws reply)) = ⟨{ s with atexitInstalled := true }, l⟩ := by
        simp only [next, perform, step, hnull, Holdings.record, if_true]
      rw [hnext]
      exact hx.flags s.disabled true
    · have hnext : next ⟨s, l⟩ (.call (.malloc sz r draws reply)) =
          ⟨{ s with allocs := Function.update s.allocs reply (some sz), atexitInstalled := true, heap := h },
            Function.update l reply (some ⟨true, sz⟩)⟩ := by
        simp only [next, perform, step, hgrant, Holdings.record, if_neg hfresh.1, hs, decide_true]
      rw [hnext]
      refine hx.grant (Nat.le_trans (hself sz) (Nat.le_max_left sz 1)) hfresh hheld rfl ?_ ?_
      · intro q hq
        exact Function.update_of_ne hq ..
      · intro _
        exact Function.update_self ..
    · have hne := hfrees f (List.mem_of_getElem? hf)
      have hnext : next ⟨s, l⟩ (.call (.malloc sz r draws reply)) =
          ⟨{ s with allocs := Function.update s.allocs f.addr (some sz), frees := swapRemove s.frees i,
                    atexitInstalled := true }, Function.update l f.addr (some ⟨true, sz⟩)⟩ := by
        simp only [next, perform, step, hrecycle, Holdings.record, if_neg hne, hs, decide_true]
      rw [hnext]
      exact hx.recycle hw hf hsz
  · rcases s.heap.malloc_cases sz reply with hnull | ⟨haddr, hfresh, hheld, -⟩
    · have hnext : next ⟨s, l⟩ (.call (.malloc sz r draws reply)) = ⟨s, l⟩ := by
        simp only [next, perform, step, baseMalloc, ne_eq, hs, not_false_eq_true, if_true, hnull, Holdings.record]
      rw [hnext]
      exact hx
    · have hnext : next ⟨s, l⟩ (.call (.malloc sz r draws reply)) =
          ⟨{ s with heap := (s.heap.malloc sz reply).2 }, Function.update l reply (some ⟨false, sz⟩)⟩ := by
        have hreply : reply ≠ 0 := hfresh.1
        simp only [next, perform, step, baseMalloc, ne_eq, hs, not_false_eq_true, if_true, haddr, Holdings.record, if_neg hreply,
          decide_false]
      rw [hnext]
      exact hx.grant (hself sz) hfresh hheld rfl (fun q _ => rfl) (fun h => absurd h Bool.false_ne_true)

lemma next_free_inv (hx : Inv w ⟨s, l⟩) {ptr : Nat} (hallowed : ptr = 0 ∨ (l ptr).isSome = true)
    (hrecord : s.disabled = 0 → ∀ o ∈ l ptr, o.enabled = false → ∀ n ∈ s.allocs ptr, w n ≤ w o.size) :
    Inv w (next ⟨s, l⟩ (.call (.free ptr))) := by
  by_cases hs : s.disabled = 0
  · rcases baseFree_cases hs ptr with ⟨hsame, -⟩ | ⟨n, hptr, hp, hfree⟩
    · have hnext : next ⟨s, l⟩ (.call (.free ptr)) = ⟨s, Function.update l ptr none⟩ := by
        simp only [next, perform, step, hsame, Holdings.record]
      rw [hnext]
      exact hx.forget ptr
    · have hnext : next ⟨s, l⟩ (.call (.free ptr)) =
          ⟨{ s with allocs := Function.update s.allocs ptr none, frees := s.frees ++ [⟨ptr, n⟩] }, Function.update l ptr none⟩ := by
        simp only [next, perform, step, hfree, Holdings.record]
      obtain ⟨o, ho⟩ := Option.isSome_iff_exists.1 (hallowed.resolve_left hptr)
      have hback := hx.liveBacked ptr o ho
      rw [hnext]
      apply hx.release hp
      -- the record is of this block, or of an earlier one that was not larger
      cases hmode : o.enabled with
      | true =>
        have hsize : n = o.size := Option.some.inj (hp.symm.trans (hx.recorded ptr o ho hmode))
        rw [hsize]
        exact hback
      | false => exact hback.shrink (hrecord hs o ho hmode n hp)
  · have hnext : next ⟨s, l⟩ (.call (.free ptr)) = ⟨{ s with heap := s.heap.free ptr }, Function.update l ptr none⟩ := by
      simp only [next, perform, step, baseFree, if_pos (Or.inl hs : s.disabled ≠ 0 ∨ ptr = 0), Holdings.record]
    rw [hnext]
    exact hx.giveBack hallowed

/-- One operation keeps the invariant, where it frees no pointer with too large a record. -/
lemma next_inv {op : Op} (hx : Inv w x) (hw : Monotone w) (hself : ∀ n, w n ≤ n) (hallowed : x.Allowed op)
    (hrecord : x.NoLargerRecord op ∨ w = fun _ => 0) : Inv w (x.next op) := by
  obtain ⟨s, l⟩ := x
  cases op with
  | call c =>
    cases c with
    | malloc sz r draws reply => exact next_malloc_inv hx hw hself sz r draws reply
    | free ptr =>
      apply next_free_inv hx hallowed
      intro hs o ho hmode n hn
      rcases hrecord with hrecord | rfl
      · exact hw (hrecord hs o ho hmode n hn)
      · exact Nat.le_refl 0
  | disable d => exact hx.flags _ s.atexitInstalled

lemma run_inv {ops : List Op} (hx : Inv w x) (hw : Monotone w) (hself : ∀ n, w n ≤ n) (hallowed : Along Allowed x ops)
    (hrecord : Along NoLargerRecord x ops ∨ w = fun _ => 0) : Inv w (x.run ops) := by
  induction ops generalizing x with
  | nil => exact hx
  | cons op ops ih =>
    apply ih (next_inv hx hw hself hallowed.1 (hrecord.imp_left And.left)) hallowed.2 (hrecord.imp_left And.right)

/-- The pointer that `base_malloc` returns is one that the client holds afterwards. -/
lemma baseMalloc_backed (hx : Inv w x) (hw : Monotone w) (hself : ∀ n, w n ≤ n) (sz : Nat) (r : UInt32) (draws : Nat → UInt32)
    (reply : Nat) (hne : (baseMalloc x.s sz r draws reply).1 ≠ 0) :
    Backed (baseMalloc x.s sz r draws reply).2.heap ⟨(baseMalloc x.s sz r draws reply).1, w sz⟩ := by
  apply (next_malloc_inv hx hw hself sz r draws reply).liveBacked _ ⟨x.s.disabled = 0, sz⟩
  have hl : (x.next (.call (.malloc sz r draws reply))).l =
      Function.update x.l (baseMalloc x.s sz r draws reply).1 (some ⟨x.s.disabled = 0, sz⟩) := if_neg hne
  rw [hl]
  exact Function.update_self ..

end Inv

end Client

/-- The system holds the pointer for its client. -/
def Held (h : System) (p : Nat) : Prop := ∃ b ∈ h.held, b.addr = p

open Client

/-- After every run of calls and of mode switches, by a client that frees each pointer it holds at most once, `base_malloc`
returns blocks that the system does not hold for free. They are large enough if no pointer was freed with the larger record
of an earlier block. -/
theorem baseMalloc_grants (ops : List Op) (hallowed : Along Allowed start ops) (sz : Nat) (r : UInt32) (draws : Nat → UInt32)
    (reply : Nat) :
    let m := baseMalloc (start.run ops).s sz r draws reply
    m.1 ≠ 0 → Held m.2.heap m.1 ∧ (Along NoLargerRecord start ops → Backed m.2.heap ⟨m.1, sz⟩) := by
  intro m hne
  constructor
  · have hzero : Monotone (fun _ : Nat => 0) := fun _ _ _ => Nat.le_refl 0
    have hinv := Client.run_inv (Client.start_inv _) hzero Nat.zero_le hallowed (Or.inr rfl)
    obtain ⟨b, hb, haddr, -⟩ := baseMalloc_backed hinv hzero Nat.zero_le sz r draws reply hne
    exact ⟨b, hb, haddr⟩
  · intro hrecord
    have hinv := Client.run_inv (Client.start_inv id) monotone_id Nat.le_refl hallowed (Or.inl hrecord)
    exact baseMalloc_backed hinv monotone_id Nat.le_refl sz r draws reply hne

/-- A block of 100 bytes is freed to the system, which answers the next request, of `n` bytes, with the same address. That
block is freed to the enabled allocator. -/
def handedOver (n : Nat) : List Op :=
  [.call (.malloc 100 0 (fun _ => 0) 16), .disable true, .call (.free 16), .call (.malloc n 0 (fun _ => 0) 16), .disable false,
    .call (.free 16)]

/-- The block that is freed and returned again has 200 bytes. -/
theorem baseMalloc_grants_sample : Backed (baseMalloc (start.run (handedOver 200)).s 50 1 (fun _ => 0) 0).2.heap ⟨16, 50⟩ :=
  (baseMalloc_grants (handedOver 200) (by decide) 50 1 (fun _ => 0) 0 (by decide)).2 (by decide)

/-- The block that is freed and returned again has 10 bytes, and 100 are asked for. -/
theorem baseMalloc_too_small :
    ¬ ∀ ops, Along Allowed start ops → ∀ sz r draws reply, (baseMalloc (start.run ops).s sz r draws reply).1 ≠ 0 →
      Backed (baseMalloc (start.run ops).s sz r draws reply).2.heap ⟨(baseMalloc (start.run ops).s sz r draws reply).1, sz⟩ := by
  intro h
  obtain ⟨b, hb, -, hsize⟩ := h (handedOver 10) (by decide) 100 1 (fun _ => 0) 0 (by decide)
  have hheld : (baseMalloc (start.run (handedOver 10)).s 100 1 (fun _ => 0) 0).2.heap.held = [⟨16, 10⟩] := by decide
  rw [hheld, List.mem_singleton] at hb
  rw [hb] at hsize
  exact absurd hsize (by decide)

end Cs300Projects.Dmalloc
