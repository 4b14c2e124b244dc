import Cs300Projects.WeensyOS.Mmu

/-!
# Linking tables and writing leaves

`try_map` changes memory in two ways: it links a cleared page at an entry that is not present,
and it writes an entry at level 0. This file says what both do to the slots of every walk, and
shows that one iterator stays settled through any sequence of its operations.
-/

namespace Cs300Projects.WeensyOS
open BitField

/-! ### The entry that links a table -/

def linkEntry (p : PagePtr) : Word := p.addr ||| pteP ||| pteW ||| pteU

/-- The page `p` is cleared and linked at `r`. -/
def Memory.link (m : Memory) (r : EntryPtr) (p : PagePtr) : Memory :=
  (m.clearPage p).write r (linkEntry p)

lemma tableOf_linkEntry (p : PagePtr) : tableOf (linkEntry p) = p := by
  have h : linkEntry p &&& ptePamask = p.addr := by
    have h7 : (pteP ||| pteW ||| pteU) &&& ptePamask = 0#64 := by decide
    rw [linkEntry, BitVec.or_assoc, BitVec.or_assoc, ← BitVec.or_assoc pteP]
    rw [BitVec.and_comm, BitVec.and_or_distrib_left, BitVec.and_comm _ p.addr, p.isPage,
      BitVec.and_comm, h7, BitVec.or_zero]
  cases p
  simpa [tableOf] using h

lemma linkEntry_flag (p : PagePtr) {i : Nat} (hi : i < 12) :
    (linkEntry p).getLsbD i = decide (i < 3) := by
  have haddr : p.addr.getLsbD i = false := by
    rw [← p.isPage, BitVec.getLsbD_and, show ptePamask = lowMask 64 52 &&& ~~~lowMask 64 12 by decide,
      BitVec.getLsbD_and, BitVec.getLsbD_not, getLsbD_lowMask (by norm_num), getLsbD_lowMask (by norm_num),
      decide_eq_true hi]
    simp
  have h7 : (pteP ||| pteW ||| pteU).getLsbD i = decide (i < 3) := by interval_cases i <;> decide
  rw [linkEntry, BitVec.or_assoc, BitVec.or_assoc, ← BitVec.or_assoc pteP, BitVec.getLsbD_or, haddr, h7,
    Bool.false_or]

lemma isTable_linkEntry (p : PagePtr) : IsTable (linkEntry p) := by
  rw [isTable_iff, linkEntry_flag p (by norm_num), linkEntry_flag p (by norm_num)]
  decide

/-! ### Memory in which tables can be linked -/

/-- No entry is consulted at two levels. -/
def LevelUnique (m : Memory) (pt : PagePtr) : Prop :=
  ∀ ⦃va va' l l' r perm perm'⦄, Slot m pt va l r perm → Slot m pt va' l' r perm' → l = l'

/-- No walk consults an entry of the page. -/
def Unlinked (m : Memory) (pt p : PagePtr) : Prop :=
  ∀ ⦃va l i perm⦄, i < 512 → ¬Slot m pt va l (.entry (p.entry i)) perm

section Link

variable {m : Memory} {pt p : PagePtr} {r : EntryPtr}

lemma Slot.shape {va : Word} {l : Nat} {s : EntryPtr} {q : BitVec 32} (h : Slot m pt va l s q) :
    s = .zeroPe ∨ ∃ t : PagePtr, s = .entry (t.entry (pageindex va l)) := by
  cases h with
  | top =>
    rw [topEntry]
    cases vaIsCanonical va
    · exact Or.inl rfl
    · exact Or.inr ⟨pt, rfl⟩
  | down h _ => exact Or.inr ⟨_, rfl⟩

lemma read_link_of_ne (hp : Unlinked m pt p) {va : Word} {l : Nat} {s : EntryPtr} {q : BitVec 32}
    (h : Slot m pt va l s q) (hne : s ≠ r) : (m.link r p).read s = m.read s := by
  rw [Memory.link, Memory.read_write_of_ne _ hne]
  rcases h.shape with rfl | ⟨t, rfl⟩
  · rfl
  · have hti := pageindex_lt va l
    have htp : t ≠ p := by
      rintro rfl
      exact hp hti h
    exact Memory.word_overwritePage_of_ne m htp _ hti

@[simp] lemma read_link_self : (m.link r p).read r = linkEntry p := Memory.read_write_self _ _ _

/-- The linked page holds no entries yet. -/
lemma read_link_page {i : Nat} (hi : i < 512) (hr : ∀ j, j < 512 → r ≠ .entry (p.entry j)) :
    (m.link r p).read (.entry (p.entry i)) = 0#64 := by
  rw [Memory.link, Memory.read_write_of_ne _ (hr i hi).symm]
  exact Memory.word_clearPage_self m p hi

lemma not_isTable_of_not_present {e : Word} (h : e.getLsbD 0 = false) : ¬IsTable e := by
  rw [isTable_iff, h]
  simp

lemma Slot.link (hp : Unlinked m pt p) (hr : ¬IsTable (m.read r)) {va : Word} {l : Nat}
    {s : EntryPtr} {q : BitVec 32} (h : Slot m pt va l s q) : Slot (m.link r p) pt va l s q := by
  induction h with
  | top => exact .top
  | @down l s q h ht ih =>
    have hread := read_link_of_ne (r := r) hp h (by rintro rfl; exact hr ht)
    rw [← hread]
    exact .down ih (by rwa [hread])

/-- The slots after linking: the old ones, and those in the new table. -/
lemma slot_of_link (hu : LevelUnique m pt) (hp : Unlinked m pt p) {va₀ : Word} {L : Nat}
    {q₀ : BitVec 32} (hslot : Slot m pt va₀ (L + 1) r q₀) {va : Word} {l : Nat} {s : EntryPtr}
    {q : BitVec 32} (h : Slot (m.link r p) pt va l s q) : Slot m pt va l s q ∨
      (l = L ∧ s = .entry (p.entry (pageindex va L)) ∧
        ∃ q', Slot m pt va (L + 1) r q' ∧ q = andPerm q' (linkEntry p)) := by
  have hrp : ∀ j, j < 512 → r ≠ .entry (p.entry j) := by
    rintro j hj rfl
    exact hp hj hslot
  induction h with
  | top => exact Or.inl .top
  | @down l s q h ht ih =>
    rcases ih with hs | ⟨rfl, rfl, _⟩
    · by_cases hsr : s = r
      · subst hsr
        obtain rfl : l = L := by
          have := hu hs hslot
          omega
        refine Or.inr ⟨rfl, ?_, q, hs, ?_⟩
        · rw [read_link_self, tableOf_linkEntry]
        · rw [read_link_self]
      · have hread := read_link_of_ne hp hs hsr
        rw [hread] at ht ⊢
        exact Or.inl (hs.down ht)
    · rw [read_link_page (pageindex_lt _ _) hrp] at ht
      exact absurd ht not_isTable_zero

lemma LevelUnique.link (hu : LevelUnique m pt) (hp : Unlinked m pt p) {va₀ : Word} {L : Nat}
    {q₀ : BitVec 32} (hslot : Slot m pt va₀ (L + 1) r q₀) : LevelUnique (m.link r p) pt := by
  intro va va' l l' s q q' h h'
  rcases slot_of_link hu hp hslot h with hs | ⟨rfl, rfl, _⟩
  · rcases slot_of_link hu hp hslot h' with hs' | ⟨rfl, rfl, _⟩
    · exact hu hs hs'
    · exact absurd hs (hp (pageindex_lt _ _))
  · rcases slot_of_link hu hp hslot h' with hs' | ⟨rfl, _, _⟩
    · exact absurd hs' (hp (pageindex_lt _ _))
    · rfl

lemma Unlinked.link (hu : LevelUnique m pt) (hp : Unlinked m pt p) {va₀ : Word} {L : Nat}
    {q₀ : BitVec 32} (hslot : Slot m pt va₀ (L + 1) r q₀) {p' : PagePtr} (hp' : Unlinked m pt p')
    (hne : p' ≠ p) : Unlinked (m.link r p) pt p' := by
  intro va l i q hi h
  rcases slot_of_link hu hp hslot h with hs | ⟨rfl, he, _⟩
  · exact hp' hi hs
  · rw [EntryPtr.entry.injEq] at he
    exact hne (PagePtr.entry_inj hi (pageindex_lt _ _) he).1

end Link

section Leaf

variable {m : Memory} {pt : PagePtr} {r : EntryPtr} {va₀ : Word} {q₀ : BitVec 32}

lemma slot_write_leaf_iff (hu : LevelUnique m pt) (hslot : Slot m pt va₀ 0 r q₀) (e : Word) {va : Word}
    {l : Nat} {s : EntryPtr} {q : BitVec 32} :
    Slot (m.write r e) pt va l s q ↔ Slot m pt va l s q := by
  constructor
  · intro h
    induction h with
    | top => exact .top
    | @down l s q h ht ih =>
      have hsr : s ≠ r := by
        rintro rfl
        have := hu ih hslot
        omega
      rw [Memory.read_write_of_ne m hsr] at ht ⊢
      exact ih.down ht
  · intro h
    induction h with
    | top => exact .top
    | @down l s q h ht ih =>
      have hsr : s ≠ r := by
        rintro rfl
        have := hu h hslot
        omega
      have hread := Memory.read_write_of_ne m hsr e
      rw [← hread] at ht ⊢
      exact ih.down ht

lemma LevelUnique.write_leaf (hu : LevelUnique m pt) (hslot : Slot m pt va₀ 0 r q₀) (e : Word) :
    LevelUnique (m.write r e) pt := by
  intro va va' l l' s q q' h h'
  rw [slot_write_leaf_iff hu hslot] at h h'
  exact hu h h'

lemma Unlinked.write_leaf (hu : LevelUnique m pt) (hslot : Slot m pt va₀ 0 r q₀) (e : Word)
    {p : PagePtr} (hp : Unlinked m pt p) : Unlinked (m.write r e) pt p := by
  intro va l i q hi h
  rw [slot_write_leaf_iff hu hslot] at h
  exact hp hi h

end Leaf

/-! ### Runs of the loop of `try_map` -/

/-- A run of `installTables` that returns: it is done, it gets no page, or it links one and goes on. -/
inductive Installs (perm : BitVec 32) : Nat → MapState → Bool → MapState → Prop where
  | done {fuel : Nat} {s : MapState} (h : fuel = 0 ∨ ¬(0 < s.it.level_ ∧ perm ≠ 0#32)) : Installs perm fuel s true s
  | noPage {fuel : Nat} {s : MapState} (hcond : 0 < s.it.level_ ∧ perm ≠ 0#32)
      (hP : (s.mem.read s.it.pep_).getLsbD 0 = false) (hfree : s.free = []) : Installs perm (fuel + 1) s false s
  | link {fuel : Nat} {s s' : MapState} {p : PagePtr} {free : List PagePtr} {it : Vmiter} {b : Bool}
      (hcond : 0 < s.it.level_ ∧ perm ≠ 0#32) (hP : (s.mem.read s.it.pep_).getLsbD 0 = false)
      (hfree : s.free = p :: free) (hd : s.it.down (s.mem.link s.it.pep_ p) = .ok it)
      (hrest : Installs perm fuel ⟨s.mem.link s.it.pep_ p, free, it⟩ b s') : Installs perm (fuel + 1) s b s'

lemma installTables_installs {perm : BitVec 32} {fuel : Nat} {s s' : MapState} {b : Bool}
    (hs : installTables perm fuel s = .ok (b, s')) : Installs perm fuel s b s' := by
  induction fuel generalizing s with
  | zero =>
    rw [installTables, Except.ok.injEq, Prod.mk.injEq] at hs
    obtain ⟨rfl, rfl⟩ := hs
    exact .done (Or.inl rfl)
  | succ fuel ih =>
    rw [installTables] at hs
    by_cases hcond : 0 < s.it.level_ ∧ perm ≠ 0#32
    · rw [if_pos hcond] at hs
      by_cases hP : s.mem.read s.it.pep_ &&& pteP ≠ 0#64
      · simp [hP] at hs
      · rw [if_neg hP] at hs
        rw [and_pteP_ne_zero_iff, Bool.not_eq_true] at hP
        cases hfree : s.free with
        | nil =>
          rw [hfree] at hs
          simp only [Except.ok.injEq, Prod.mk.injEq] at hs
          obtain ⟨rfl, rfl⟩ := hs
          exact .noPage hcond hP hfree
        | cons p free =>
          have hlink : (s.mem.clearPage p).write s.it.pep_ (p.addr ||| pteP ||| pteW ||| pteU) =
            s.mem.link s.it.pep_ p := rfl
          rw [hfree] at hs
          dsimp only at hs
          rw [hlink] at hs
          cases hd : s.it.down (s.mem.link s.it.pep_ p) with
          | error e => simp [hd] at hs
          | ok it =>
            rw [hd] at hs
            exact .link hcond hP hfree hd (ih hs)
    · rw [if_neg hcond, Except.ok.injEq, Prod.mk.injEq] at hs
      obtain ⟨rfl, rfl⟩ := hs
      exact .done (Or.inr hcond)

end Cs300Projects.WeensyOS
