import Cs300Projects.Dmalloc.BaseAlloc

/-!
# The blocks of the base allocator

Every block that the system has handed out to the allocator is active or free, never both, and
its recorded size is at most its size in the system's heap. The invariant holds along every run
of `base_malloc` and `base_free`.
-/

namespace Cs300Projects.Dmalloc

open Heap

/-- The block has a place of at least its size in the system's heap. -/
def Backed (h : System) (b : Block) : Prop :=
  ∃ c ∈ h.held, c.addr = b.addr ∧ b.size ≤ c.size

structure State.Inv (s : State) : Prop where
  enabled : s.disabled = 0
  nonnull : ∀ c ∈ s.heap.held, c.addr ≠ 0
  activeBacked : ∀ p n, s.allocs p = some n → Backed s.heap ⟨p, n⟩
  freeBacked : ∀ f ∈ s.frees, Backed s.heap f
  freeNodup : (s.frees.map Block.addr).Nodup
  separate : ∀ f ∈ s.frees, s.allocs f.addr = none
  returned : s.heap.returned = []
  installed : s.atexitInstalled = false → s.frees = []
  inactive : s.atexitInstalled = false → ∀ p, s.allocs p = none

lemma Backed.mono {h h' : System} {b : Block} (hb : Backed h b)
    (hsub : ∀ c ∈ h.held, c ∈ h'.held) : Backed h' b := by
  obtain ⟨c, hc, haddr, hsize⟩ := hb
  exact ⟨c, hsub c hc, haddr, hsize⟩

lemma Backed.shrink {h : System} {b : Block} {n : Nat} (hb : Backed h b) (hn : n ≤ b.size) :
    Backed h ⟨b.addr, n⟩ := by
  obtain ⟨c, hc, haddr, hsize⟩ := hb
  exact ⟨c, hc, haddr, Nat.le_trans hn hsize⟩

lemma Backed.nonnull {s : State} (hs : s.Inv) {b : Block} (hb : Backed s.heap b) : b.addr ≠ 0 := by
  obtain ⟨c, hc, haddr, -⟩ := hb
  exact haddr ▸ hs.nonnull c hc

/-- A fresh block is at none of the addresses that the allocator knows. -/
lemma Backed.ne_of_fresh {h : System} {b c : Block} (hb : Backed h b) (hc : h.Fresh c) :
    b.addr ≠ c.addr := by
  obtain ⟨d, hd, haddr, -⟩ := hb
  rw [← haddr]
  exact (hc.2 d hd).1.symm

lemma State.start_inv : State.start.Inv where
  enabled := rfl
  nonnull := fun c hc => absurd hc (List.not_mem_nil)
  activeBacked := fun p n h => absurd h (by simp [State.start])
  freeBacked := fun f hf => absurd hf (List.not_mem_nil)
  freeNodup := List.nodup_nil
  separate := fun f hf => absurd hf (List.not_mem_nil)
  returned := rfl
  installed := fun _ => rfl
  inactive := fun _ _ => rfl

/-- A new block of the system becomes active. -/
lemma State.Inv.grant {s : State} (hs : s.Inv) {h : System} {p n sz : Nat} (hsz : sz ≤ n)
    (hfresh : s.heap.Fresh ⟨p, n⟩) (hheld : h.held = ⟨p, n⟩ :: s.heap.held)
    (hreturned : h.returned = s.heap.returned) :
    State.Inv { s with allocs := Function.update s.allocs p (some sz), atexitInstalled := true,
                       heap := h } := by
  have hsub : ∀ c ∈ s.heap.held, c ∈ h.held := by
    intro c hc
    rw [hheld]
    exact List.mem_cons_of_mem _ hc
  constructor
  case enabled => exact hs.enabled
  case nonnull =>
    intro c hc
    rw [hheld, List.mem_cons] at hc
    rcases hc with rfl | hc
    · exact hfresh.1
    · exact hs.nonnull c hc
  case activeBacked =>
    intro q m (hq : Function.update s.allocs p (some sz) q = some m)
    by_cases hqp : q = p
    · subst hqp
      rw [Function.update_self, Option.some.injEq] at hq
      subst hq
      exact ⟨⟨q, n⟩, by rw [hheld]; exact List.mem_cons_self, rfl, hsz⟩
    · rw [Function.update_of_ne hqp] at hq
      exact (hs.activeBacked q m hq).mono hsub
  case freeBacked => exact fun f hf => (hs.freeBacked f hf).mono hsub
  case freeNodup => exact hs.freeNodup
  case separate =>
    intro f hf
    have hne : f.addr ≠ p := (hs.freeBacked f hf).ne_of_fresh hfresh
    change Function.update s.allocs p (some sz) f.addr = none
    rw [Function.update_of_ne hne]
    exact hs.separate f hf
  case returned => exact hreturned.trans hs.returned
  case installed => exact fun h => absurd h (by simp)
  case inactive => exact fun h => absurd h (by simp)

/-- A free block becomes active again, with the size of the new request. -/
lemma State.Inv.recycle {s : State} (hs : s.Inv) {i : Nat} {f : Block} {sz : Nat}
    (hf : s.frees[i]? = some f) (hsz : sz ≤ f.size) :
    State.Inv { s with allocs := Function.update s.allocs f.addr (some sz),
                       frees := swapRemove s.frees i, atexitInstalled := true } := by
  obtain ⟨hi, rfl⟩ := List.getElem?_eq_some_iff.1 hf
  have hperm := swapRemove_perm s.frees i hi
  have hmem : ∀ g ∈ swapRemove s.frees i, g ∈ s.frees :=
    fun g hg => hperm.mem_iff.2 (List.mem_cons_of_mem _ hg)
  have hnodup := (hperm.map Block.addr).nodup_iff.1 hs.freeNodup
  rw [List.map_cons, List.nodup_cons] at hnodup
  constructor
  case enabled => exact hs.enabled
  case nonnull => exact hs.nonnull
  case activeBacked =>
    intro q m (hq : Function.update s.allocs s.frees[i].addr (some sz) q = some m)
    by_cases hqp : q = s.frees[i].addr
    · subst hqp
      rw [Function.update_self, Option.some.injEq] at hq
      subst hq
      exact (hs.freeBacked _ (List.getElem_mem hi)).shrink hsz
    · rw [Function.update_of_ne hqp] at hq
      exact hs.activeBacked q m hq
  case freeBacked => exact fun g hg => hs.freeBacked g (hmem g hg)
  case freeNodup => exact hnodup.2
  case separate =>
    intro g hg
    have hne : g.addr ≠ s.frees[i].addr :=
      fun heq => hnodup.1 (heq ▸ List.mem_map_of_mem hg)
    change Function.update s.allocs s.frees[i].addr (some sz) g.addr = none
    rw [Function.update_of_ne hne]
    exact hs.separate g (hmem g hg)
  case returned => exact hs.returned
  case installed => exact fun h => absurd h (by simp)
  case inactive => exact fun h => absurd h (by simp)

/-- An active block becomes free. -/
lemma State.Inv.release {s : State} (hs : s.Inv) {p n : Nat} (hp : s.allocs p = some n) :
    State.Inv { s with allocs := Function.update s.allocs p none,
                       frees := s.frees ++ [⟨p, n⟩] } := by
  have hnew : ∀ f ∈ s.frees, f.addr ≠ p := by
    intro f hf heq
    have hnone := hs.separate f hf
    rw [heq, hp] at hnone
    exact Option.some_ne_none n hnone
  constructor
  case enabled => exact hs.enabled
  case nonnull => exact hs.nonnull
  case activeBacked =>
    intro q m (hq : Function.update s.allocs p none q = some m)
    by_cases hqp : q = p
    · rw [hqp, Function.update_self] at hq
      exact absurd hq.symm (Option.some_ne_none m)
    · rw [Function.update_of_ne hqp] at hq
      exact hs.activeBacked q m hq
  case freeBacked =>
    intro f (hf : f ∈ s.frees ++ [Block.mk p n])
    rw [List.mem_append, List.mem_singleton] at hf
    rcases hf with hf | rfl
    · exact hs.freeBacked f hf
    · exact hs.activeBacked p n hp
  case freeNodup =>
    change ((s.frees ++ [Block.mk p n]).map Block.addr).Nodup
    rw [List.map_append, List.map_singleton, List.nodup_append]
    refine ⟨hs.freeNodup, List.pairwise_singleton _ _, fun a ha b hb => ?_⟩
    obtain ⟨f, hf, rfl⟩ := List.mem_map.1 ha
    rw [List.mem_singleton.1 hb]
    exact hnew f hf
  case separate =>
    intro f (hf : f ∈ s.frees ++ [Block.mk p n])
    rw [List.mem_append, List.mem_singleton] at hf
    rcases hf with hf | rfl
    · change Function.update s.allocs p none f.addr = none
      rw [Function.update_of_ne (hnew f hf)]
      exact hs.separate f hf
    · exact Function.update_self p none s.allocs
  case returned => exact hs.returned
  case installed =>
    intro h
    have hnone := hs.inactive h p
    rw [hp] at hnone
    exact absurd hnone (Option.some_ne_none n)
  case inactive =>
    intro h
    have hnone := hs.inactive h p
    rw [hp] at hnone
    exact absurd hnone (Option.some_ne_none n)

/-- The allocator's record of active blocks is the ledger of a caller. -/
def Agrees (s : State) (l : Ledger) : Prop := ∀ p, s.allocs p = l p

lemma Ledger.record_null (l : Ledger) (sz : Nat) (r : UInt32) (draws : Nat → UInt32) (reply : Nat) :
    l.record (.malloc sz r draws reply) 0 = l := rfl

lemma Ledger.record_malloc (l : Ledger) {p : Nat} (hp : p ≠ 0) (sz : Nat) (r : UInt32)
    (draws : Nat → UInt32) (reply : Nat) :
    l.record (.malloc sz r draws reply) p = Function.update l p (some sz) := if_neg hp

/-- One call keeps the invariant, and the record of active blocks follows the caller's ledger. -/
theorem step_inv {s : State} {l : Ledger} (hs : s.Inv) (hl : Agrees s l) (c : Call) :
    (step s c).2.Inv ∧ Agrees (step s c).2 (l.record c (step s c).1) := by
  have hlfun : s.allocs = l := funext hl
  cases c with
  | malloc sz r draws reply =>
    have hfrees : ∀ f ∈ s.frees, f.addr ≠ 0 := fun f hf => (hs.freeBacked f hf).nonnull hs
    rcases baseMalloc_cases hs.enabled hfrees hs.separate sz r draws reply with
      hnull | ⟨h, ⟨hfresh, hheld, hreturned⟩, hgrant⟩ | ⟨i, f, hf, hsz, hrecycle⟩
    · rw [show step s (.malloc sz r draws reply) = _ from hnull, Ledger.record_null]
      exact ⟨{ hs with installed := fun h => absurd h (by simp),
                       inactive := fun h => absurd h (by simp) }, hl⟩
    · rw [show step s (.malloc sz r draws reply) = _ from hgrant,
        Ledger.record_malloc l hfresh.1, ← hlfun]
      exact ⟨hs.grant (Nat.le_max_left sz 1) hfresh hheld hreturned, fun p => rfl⟩
    · rw [show step s (.malloc sz r draws reply) = _ from hrecycle,
        Ledger.record_malloc l (hfrees f (List.mem_of_getElem? hf)), ← hlfun]
      exact ⟨hs.recycle hf hsz, fun p => rfl⟩
  | free ptr =>
    rcases baseFree_cases hs.enabled ptr with ⟨hsame, hinvalid⟩ | ⟨n, -, hp, hfree⟩
    · have hnone : s.allocs ptr = none := by
        rcases hinvalid with rfl | hnone
        · cases ha : s.allocs 0 with
          | none => rfl
          | some n => exact absurd rfl ((hs.activeBacked 0 n ha).nonnull hs)
        · exact hnone
      rw [show step s (.free ptr) = (0, s) from congrArg _ hsame]
      refine ⟨hs, fun p => ?_⟩
      change s.allocs p = Function.update l ptr none p
      rw [← hlfun, ← hnone, Function.update_eq_self]
    · rw [show step s (.free ptr) = (0, _) from congrArg _ hfree]
      refine ⟨hs.release hp, fun p => ?_⟩
      change Function.update s.allocs ptr none p = Function.update l ptr none p
      rw [hlfun]

theorem run_inv {s : State} {l : Ledger} (hs : s.Inv) (hl : Agrees s l) (calls : List Call) :
    (run s calls).Inv ∧ Agrees (run s calls) (ledger s l calls) := by
  induction calls generalizing s l with
  | nil => exact ⟨hs, hl⟩
  | cons c calls ih =>
    obtain ⟨hs', hl'⟩ := step_inv hs hl c
    exact ih hs' hl'

/-- Active blocks share no byte: they lie in different blocks of the system. -/
lemma State.Inv.active_apart {s : State} (hs : s.Inv) {p q m n : Nat} (hp : s.allocs p = some m)
    (hq : s.allocs q = some n) (hne : p ≠ q) : Block.Apart ⟨p, m⟩ ⟨q, n⟩ := by
  obtain ⟨b, hb, hbp, hbm⟩ := hs.activeBacked p m hp
  obtain ⟨c, hc, hcq, hcn⟩ := hs.activeBacked q n hq
  have hapart : b.Apart c :=
    s.heap.apart.forall hb hc (fun heq => hne (hbp.symm.trans ((congrArg Block.addr heq).trans hcq)))
  refine ⟨hne, ?_⟩
  obtain ⟨-, hbefore | hafter⟩ := hapart
  · left
    simp only at hbp hcq hbm ⊢
    omega
  · right
    simp only at hbp hcq hcn ⊢
    omega

/-! ### Exit -/

lemma foldl_free_returned (frees : List Block) (h : System) (hne : ∀ f ∈ frees, f.addr ≠ 0) :
    (frees.foldl (fun h f => h.free f.addr) h).returned = h.returned ++ frees.map Block.addr := by
  induction frees generalizing h with
  | nil => simp
  | cons f frees ih =>
    rw [List.foldl_cons, ih _ (fun g hg => hne g (List.mem_cons_of_mem _ hg)),
      System.free_returned h (hne f List.mem_cons_self), List.map_cons, List.append_assoc,
      List.singleton_append]

/-- At exit every address on the free list is given back, in the order of the list. -/
lemma State.Inv.exit_returned {s : State} (hs : s.Inv) :
    (exit s).heap.returned = s.frees.map Block.addr := by
  unfold exit
  cases hi : s.atexitInstalled with
  | false => simp [hs.installed hi, hs.returned]
  | true =>
    have hne : ∀ f ∈ s.frees, f.addr ≠ 0 := fun f hf => (hs.freeBacked f hf).nonnull hs
    rw [if_pos rfl]
    change (s.frees.foldl (fun h f => h.free f.addr) s.heap).returned = _
    rw [foldl_free_returned s.frees s.heap hne, hs.returned, List.nil_append]

/-- After any calls of `base_malloc` and `base_free`, with any draws and any answers of the
system: the active blocks are those that the callers hold, of the sizes they asked for; they
share no byte and each lies in a block of the system; no address is both active and free, or
free twice; nothing has been given back, and exit gives back each free address once. -/
theorem baseAlloc_blocks (calls : List Call) :
    let s := run State.start calls
    let active := ledger State.start (fun _ => none) calls
    (∀ p, s.allocs p = active p) ∧
    (∀ p q m n, p ≠ q → active p = some m → active q = some n → p + m ≤ q ∨ q + n ≤ p) ∧
    (∀ p n, active p = some n → ∃ b ∈ s.heap.held, b.addr = p ∧ n ≤ b.size) ∧
    (∀ f ∈ s.frees, active f.addr = none) ∧
    (s.frees.map Block.addr).Nodup ∧
    s.heap.returned = [] ∧
    (exit s).heap.returned = s.frees.map Block.addr := by
  have hstart : Agrees State.start (fun _ => none) := fun p => rfl
  obtain ⟨hs, hl⟩ := run_inv State.start_inv hstart calls
  refine ⟨hl, ?_, ?_, ?_, hs.freeNodup, hs.returned, hs.exit_returned⟩
  · intro p q m n hne hp hq
    rw [← hl] at hp hq
    exact (hs.active_apart hp hq hne).2
  · intro p n hp
    rw [← hl] at hp
    exact hs.activeBacked p n hp
  · intro f hf
    rw [← hl]
    exact hs.separate f hf

end Cs300Projects.Dmalloc
