import Cs300Projects.WeensyOS.Kernel
import Cs300Projects.WeensyOS.VmiterUnmap

/-!
# The kernel page table

`init_kernel_memory` of `k-hardware.cc` writes the upper levels of `kernel_pagetable` by hand and its lowest
level with a `vmiter`. The loop is run again by `kernel`, and `lookup_symbol` adds a large page for the symbol
table.
-/

namespace Cs300Projects.WeensyOS
open Loop

/-- `PTE_PWU`, as the `int` argument of `map`. -/
def ptePwu : BitVec 32 := 0x7#32

def symtabAddr : Word := 0x1000000#64

/-- `vmiter::map` -/
def MapState.map (pa : Word) (perm : BitVec 32) (s : MapState) : Except Stop MapState :=
  match tryMap pa perm s with
  | .error e => .error e
  | .ok (r, s) => if r = 0 then .ok s else .error (.assertFail "r == 0")

/-- The entry of a large page for the kernel. -/
def largeEntry (pa : Word) : Word := pa ||| pteP ||| pteW ||| ptePs

/-- Where the linker has put `kernel_pagetable[5]`. -/
structure KernelPagetable where
  addr : Word
  aligned : addr.toNat % 4096 = 0
  bound : addr.toNat + 5 * 4096 ≤ 2 ^ 52

/-- Memory and the pages that `kalloc` is still going to return. -/
structure TableState where
  mem : Memory
  free : List PagePtr

namespace KernelPagetable

variable (K : KernelPagetable)

/-- The address is in `kernel_pagetable`. -/
def Inside (a : Word) : Prop := K.addr.toNat ≤ a.toNat ∧ a.toNat < K.addr.toNat + 5 * 4096

instance (a : Word) : Decidable (K.Inside a) := inferInstanceAs (Decidable (_ ∧ _))

lemma toNat_addr (i : Fin 5) : (K.addr + 4096#64 * BitVec.ofNat 64 i.val).toNat = K.addr.toNat + 4096 * i.val := by
  have hbound := K.bound
  have hi := i.isLt
  simp only [BitVec.toNat_add, BitVec.toNat_mul, BitVec.toNat_ofNat]
  omega

/-- `&kernel_pagetable[i]` -/
def page (i : Fin 5) : PagePtr where
  addr := K.addr + 4096#64 * BitVec.ofNat 64 i.val
  isPage := by
    have hbound := K.bound
    have haligned := K.aligned
    apply BitVec.eq_of_toNat_eq
    rw [toNat_and_ptePamask, toNat_addr]
    omega

/-- `kernel_pagetable[i].entry[j] = e` -/
def setEntry (i : Fin 5) (j : Nat) (e : Word) (m : Memory) : Memory := m.write (.entry ((K.page i).entry j)) e

/-- `memset(kernel_pagetable, 0, sizeof(kernel_pagetable))` -/
def clear (m : Memory) : Memory := { m with word := fun a => if K.Inside a then 0#64 else m.word a }

/-- The entries that `init_kernel_memory` writes itself. -/
def initTables (m : Memory) : Memory :=
  let m := K.clear m
  let m := K.setEntry 0 0 (linkEntry (K.page 1)) m
  let m := K.setEntry 1 0 (linkEntry (K.page 2)) m
  let m := K.setEntry 2 0 (linkEntry (K.page 3)) m
  let m := K.setEntry 2 1 (linkEntry (K.page 4)) m
  let m := K.setEntry 1 1 (largeEntry (1#64 <<< 30)) m
  let m := K.setEntry 1 2 (largeEntry (2#64 <<< 30)) m
  K.setEntry 1 3 (largeEntry (3#64 <<< 30)) m

/-- The top of `kernel_pagetable`. -/
def top : PagePtr := K.page 0

/-- One round of the loops over physical memory, which differ in what they do at address 0. -/
def mapRound (atNull : MapState → Except Stop MapState) (s : MapState) : Round MapState (Except Stop MapState) :=
  if s.it.va_.toNat < Kernel.memsizePhysical then
    match if s.it.va_ ≠ 0#64 then s.map s.it.va_ ptePwu else atNull s with
    | .error e => .done (.error e)
    | .ok s =>
      match s.it.advance s.mem pagesize with
      | .error e => .done (.error e)
      | .ok it => .next { s with it := it }
  else .done (.ok s)

def mapLoop (atNull : MapState → Except Stop MapState) (fuel : Nat) (s : TableState) : Option (Except Stop TableState) :=
  match Vmiter.new s.mem (K.page 0) 0#64 with
  | .error e => some (.error e)
  | .ok it => (run (mapRound atNull) fuel ⟨s.mem, s.free, it⟩).map (Except.map fun s => ⟨s.mem, s.free⟩)

def initKernelMemory (fuel : Nat) (s : TableState) : Option (Except Stop TableState) :=
  K.mapLoop .ok fuel { s with mem := K.initTables s.mem }

/-- The loop of `kernel`, after which not even the kernel has a page at address 0. -/
def remap (fuel : Nat) (s : TableState) : Option (Except Stop TableState) :=
  K.mapLoop (fun s => s.map s.it.va_ 0#32) fuel s

/-- `lookup_symbol`, before it searches. -/
def mapSymtab (m : Memory) : Memory :=
  if m.word ((K.page 2).entry (symtabAddr / 0x200000#64).toNat) = 0#64 then
    m.write (.entry ((K.page 2).entry (symtabAddr / 0x200000#64).toNat)) (largeEntry symtabAddr)
  else m

/-- What happens after `init_kernel_memory`. -/
inductive Event where
  | remap
  | lookupSymbol
  /-- The rest of memory and the free pages change. -/
  | elsewhere (word : Word → Word) (free : List PagePtr)

def step (fuel : Nat) (s : TableState) : Event → Option (Except Stop TableState)
  | .remap => K.remap fuel s
  | .lookupSymbol => some (.ok { s with mem := K.mapSymtab s.mem })
  | .elsewhere word free =>
    some (.ok ⟨{ s.mem with word := fun a => if K.Inside a then s.mem.word a else word a }, free⟩)

def steps (fuel : Nat) (s : TableState) : List Event → Option (Except Stop TableState)
  | [] => some (.ok s)
  | e :: events =>
    match K.step fuel s e with
    | some (.ok s') => steps fuel s' events
    | r => r

/-- `init_kernel_memory` and what comes after it. -/
def boot (fuel : Nat) (s : TableState) (events : List Event) : Option (Except Stop TableState) :=
  match K.initKernelMemory fuel s with
  | some (.ok s') => K.steps fuel s' events
  | r => r

/-! ### The entries -/

/-- The entry of the page at `4096 * j`, for everyone. -/
def pageEntry (j : Nat) : Word := BitVec.ofNat 64 (4096 * j) ||| ptePwu.signExtend 64

/-- The entries when the pages below `n` are mapped and, if `sym`, the symbol table is. -/
def entries (n : Nat) (sym : Bool) : Fin 5 → Fin 512 → Word
  | 0, j => if j.val = 0 then linkEntry (K.page 1) else 0#64
  | 1, j =>
    if j.val = 0 then linkEntry (K.page 2)
    else if j.val ≤ 3 then largeEntry (BitVec.ofNat 64 j.val <<< 30) else 0#64
  | 2, j =>
    if j.val = 0 then linkEntry (K.page 3)
    else if j.val = 1 then linkEntry (K.page 4)
    else if sym = true ∧ j.val = 8 then largeEntry symtabAddr else 0#64
  | 3, j => if 1 ≤ j.val ∧ j.val < n then pageEntry j.val else 0#64
  | 4, _ => 0#64

def Holds (n : Nat) (sym : Bool) (m : Memory) : Prop :=
  m.zeroPe = 0#64 ∧ ∀ i (j : Fin 512), m.word ((K.page i).entry j) = K.entries n sym i j

lemma page_injective : Function.Injective K.page := by
  intro i i' h
  have haddr := congrArg (fun t => t.addr.toNat) h
  simp only [page, toNat_addr] at haddr
  omega

lemma inside_entry (i : Fin 5) (j : Fin 512) : K.Inside ((K.page i).entry j) := by
  have hi := i.isLt
  have hj := j.isLt
  rw [Inside, PagePtr.toNat_entry _ hj, page, toNat_addr]
  omega

lemma word_setEntry (i i' : Fin 5) {j : Nat} (hj : j < 512) (j' : Fin 512) (e : Word) (m : Memory) :
    (K.setEntry i j e m).word ((K.page i').entry j') =
      if i' = i ∧ j'.val = j then e else m.word ((K.page i').entry j') := by
  by_cases h : i' = i ∧ j'.val = j
  · rw [if_pos h, h.1, h.2]
    exact Memory.read_write_self m (.entry ((K.page i).entry j)) e
  · rw [if_neg h]
    have hne : EntryPtr.entry ((K.page i').entry j') ≠ .entry ((K.page i).entry j) := by
      intro heq
      rw [EntryPtr.entry.injEq] at heq
      obtain ⟨hpage, hindex⟩ := PagePtr.entry_inj j'.isLt hj heq
      exact h ⟨K.page_injective hpage, hindex⟩
    exact Memory.read_write_of_ne m hne e

/-- The memories agree outside of `kernel_pagetable`. -/
def Elsewhere (m m' : Memory) : Prop := ∀ a, ¬K.Inside a → m'.word a = m.word a

variable {K} in
lemma Elsewhere.trans {m m' m'' : Memory} (h : K.Elsewhere m m') (h' : K.Elsewhere m' m'') : K.Elsewhere m m'' :=
  fun a ha => (h' a ha).trans (h a ha)

lemma elsewhere_setEntry (i : Fin 5) {j : Nat} (hj : j < 512) (e : Word) (m : Memory) : K.Elsewhere m (K.setEntry i j e m) := by
  intro a ha
  have hne : EntryPtr.entry a ≠ .entry ((K.page i).entry j) := by
    intro heq
    rw [EntryPtr.entry.injEq] at heq
    exact ha (heq ▸ K.inside_entry i ⟨j, hj⟩)
  exact Memory.read_write_of_ne m hne e

lemma elsewhere_initTables (m : Memory) : K.Elsewhere m (K.initTables m) := by
  have hclear : K.Elsewhere m (K.clear m) := fun a ha => if_neg ha
  have hset : ∀ {m'} i {j} e, j < 512 → K.Elsewhere m m' → K.Elsewhere m (K.setEntry i j e m') :=
    fun i _ e hj h => h.trans (K.elsewhere_setEntry i hj e _)
  unfold initTables
  iterate 7 apply hset _ _ (by decide)
  exact hclear

lemma elsewhere_mapSymtab (m : Memory) : K.Elsewhere m (K.mapSymtab m) := by
  rw [mapSymtab]
  split
  · exact K.elsewhere_setEntry 2 (by decide) (largeEntry symtabAddr) m
  · exact fun a _ => rfl

lemma initTables_holds {m : Memory} (hz : m.zeroPe = 0#64) : K.Holds 0 false (K.initTables m) := by
  refine ⟨hz, ?_⟩
  intro i j
  simp only [initTables, word_setEntry, Nat.reduceLT]
  have hclear : (K.clear m).word ((K.page i).entry j) = 0#64 := if_pos (K.inside_entry i j)
  rw [hclear]
  obtain rfl | rfl | rfl | rfl | rfl : i = 0 ∨ i = 1 ∨ i = 2 ∨ i = 3 ∨ i = 4 := by omega
  · simp [entries]
  · by_cases hj : j.val ≤ 3
    · obtain h | h | h | h : j.val = 0 ∨ j.val = 1 ∨ j.val = 2 ∨ j.val = 3 := by omega
      · simp [entries, h]
      · simp [entries, h]
      · simp [entries, h]
      · simp [entries, h]
    · have hne : ∀ k, k ≤ 3 → j.val ≠ k := fun k hk h => hj (h ▸ hk)
      simp [entries, hj, hne 0 (by decide), hne 1 (by decide), hne 2 (by decide), hne 3 (by decide)]
  · by_cases h0 : j.val = 0
    · simp [entries, h0]
    · simp [entries, h0]
  · simp [entries]
  · simp [entries]

/-- Only the fourth page says which pages are mapped. -/
lemma entries_of_ne_three {n n' : Nat} {sym : Bool} {i : Fin 5} (hi : i ≠ 3) (j : Fin 512) :
    K.entries n' sym i j = K.entries n sym i j := by
  obtain rfl | rfl | rfl | rfl : i = 0 ∨ i = 1 ∨ i = 2 ∨ i = 4 := by omega
  all_goals rfl

/-- Only the third page says whether the symbol table is mapped. -/
lemma entries_of_ne_two {n : Nat} {sym sym' : Bool} {i : Fin 5} (hi : i ≠ 2) (j : Fin 512) :
    K.entries n sym' i j = K.entries n sym i j := by
  obtain rfl | rfl | rfl | rfl : i = 0 ∨ i = 1 ∨ i = 3 ∨ i = 4 := by omega
  all_goals rfl

section Writes

variable {K} {n : Nat} {sym : Bool} {m : Memory}

lemma Holds.setEntry {n' : Nat} {sym' : Bool} (h : K.Holds n sym m) {i : Fin 5} (j : Fin 512) {e : Word}
    (hentry : K.entries n' sym' i j = e)
    (hother : ∀ i' j', ¬(i' = i ∧ j' = j) → K.entries n' sym' i' j' = K.entries n sym i' j') :
    K.Holds n' sym' (K.setEntry i j.val e m) := by
  refine ⟨h.1, ?_⟩
  intro i' j'
  rw [K.word_setEntry i i' j.isLt]
  by_cases hij : i' = i ∧ j' = j
  · rw [if_pos ⟨hij.1, congrArg Fin.val hij.2⟩, hij.1, hij.2, hentry]
  · rw [if_neg (fun hval => hij ⟨hval.1, Fin.ext hval.2⟩), h.2, hother i' j' hij]

lemma Holds.congr {n' : Nat} (h : K.Holds n sym m) (hn : ∀ j, 1 ≤ j → (j < n' ↔ j < n)) : K.Holds n' sym m := by
  refine ⟨h.1, ?_⟩
  intro i j
  rw [h.2]
  by_cases hi : i = 3
  · subst hi
    have hiff : (1 ≤ j.val ∧ j.val < n') ↔ 1 ≤ j.val ∧ j.val < n := and_congr_right (hn j.val)
    simp only [entries, hiff]
  · exact K.entries_of_ne_three hi j

lemma Holds.mapPage (h : K.Holds n sym m) {j : Nat} (hlt : j < 512) (hpos : 0 < j) (hle : j ≤ n) :
    K.Holds (max n (j + 1)) sym (K.setEntry 3 j (pageEntry j) m) := by
  refine h.setEntry ⟨j, hlt⟩ (if_pos (by dsimp only; omega)) ?_
  intro i' j' hne
  by_cases hi : i' = 3
  · subst hi
    have hj : j'.val ≠ j := fun heq => hne ⟨rfl, Fin.ext heq⟩
    have hiff : (1 ≤ j'.val ∧ j'.val < max n (j + 1)) ↔ 1 ≤ j'.val ∧ j'.val < n := by omega
    simp only [entries, hiff]
  · exact K.entries_of_ne_three hi j'

/-- Address 0 is not mapped anyway. -/
lemma Holds.unmapNull (h : K.Holds n sym m) : K.Holds n sym (K.setEntry 3 0 0#64 m) :=
  h.setEntry 0 (by simp [entries]) fun _ _ _ => rfl

lemma largeEntry_symtabAddr_ne : largeEntry symtabAddr ≠ 0#64 := by decide

lemma Holds.mapSymtab (h : K.Holds n sym m) : K.Holds n true (K.mapSymtab m) := by
  have hword : m.word ((K.page 2).entry (symtabAddr / 0x200000#64).toNat) = K.entries n sym 2 8 := h.2 2 8
  rw [KernelPagetable.mapSymtab, hword]
  cases sym with
  | false =>
    rw [if_pos (by simp [entries])]
    refine h.setEntry 8 (by simp [entries]) ?_
    intro i' j' hne
    by_cases hi : i' = 2
    · subst hi
      have hj : j'.val ≠ 8 := fun heq => hne ⟨rfl, Fin.ext heq⟩
      simp [entries, hj]
    · exact K.entries_of_ne_two hi j'
  | true =>
    rw [if_neg (by simpa [entries] using largeEntry_symtabAddr_ne)]
    exact h

/-- Nothing else writes to the table. -/
lemma Holds.elsewhere (h : K.Holds n sym m) (word : Word → Word) :
    K.Holds n sym { m with word := fun a => if K.Inside a then m.word a else word a } := by
  refine ⟨h.1, ?_⟩
  intro i j
  exact (if_pos (K.inside_entry i j)).trans (h.2 i j)

end Writes

/-! ### Iterators -/

/-- The permissions that the links above level 2, 1 and 0 leave. -/
def perm₂ : BitVec 32 := andPerm initialPerm (linkEntry (K.page 1))
def perm₁ : BitVec 32 := andPerm K.perm₂ (linkEntry (K.page 2))
def perm₀ (i : Fin 5) : BitVec 32 := andPerm K.perm₁ (linkEntry (K.page i))

/-- The iterator that stands at an address of the two tables of 4 KiB pages. -/
def lowIter (va : Word) : Vmiter :=
  let i : Fin 5 := if va.toNat < 0x200000 then 3 else 4
  ⟨K.page 0, .entry ((K.page i).entry (pageindex va 0)), 0, K.perm₀ i, va⟩

end KernelPagetable

end Cs300Projects.WeensyOS
