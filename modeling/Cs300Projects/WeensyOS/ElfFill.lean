import Cs300Projects.WeensyOS.ElfReferences
import Cs300Projects.WeensyOS.ElfSort

/-!
# Filling in all references

The loop of `rewrite_symtabref` on a laid out image. When it ends, all references have the same value and nothing else has
changed; if they had it before, nothing has.
-/

namespace Cs300Projects.WeensyOS.Elf

open Bytes Loop Symtab

namespace ElfInfo

variable {e ei : ElfInfo} {k i j : Nat} {name : List UInt8} {sym : Symbol} {m : Nat → UInt8} {J : Nat → Prop}

/-! ### The open file and the file -/

lemma TableAt.symbol (h : ei.TableAt k) (j : Nat) : symbolAt ei.data (ei.symbol j) = ei.toFile.symbol k j := by
  unfold ElfInfo.symbol File.symbol
  rw [h.symtab, Option.getD_some]

lemma TableAt.named (h : ei.TableAt k) (name : List UInt8) (j : Nat) :
    streq ei.data (ei.symstrtab + stName ei.data (ei.symbol j)) name = true ↔
      ei.toFile.Named k name (ei.toFile.symbol k j) := by
  unfold File.Named ElfInfo.symbol
  rw [File.symbol_stName, h.symstrtab, h.symtab, Option.getD_some]

/-- What a search finds. -/
lemma TableAt.findSymbol (h : ei.TableAt k) (name : List UInt8) (i : Nat) :
    (∀ j, ei.findSymbol name i = some j → j < ei.toFile.symbolCount k ∧ ei.toFile.Named k name (ei.toFile.symbol k j)) ∧
      ∀ j, i ≤ j → j < ei.toFile.symbolCount k → (∀ l, ei.findSymbol name i = some l → j < l) →
        ¬ ei.toFile.Named k name (ei.toFile.symbol k j) := by
  have hsought := seek_sought (fun i => streq ei.data (ei.symstrtab + stName ei.data (ei.symbol i)) name)
    (ei.nsymtab - i) i
  have hcount : ei.nsymtab = ei.toFile.symbolCount k := h.nsymtab
  unfold ElfInfo.findSymbol
  simp only
  generalize seek (fun i => streq ei.data (ei.symstrtab + stName ei.data (ei.symbol i)) name) (ei.nsymtab - i) i = n at hsought
  constructor
  · intro j hj
    split at hj
    · cases hj
    · rename_i hlt
      obtain rfl := Option.some.inj hj
      have hge := hsought.ge
      exact ⟨by omega, (h.named name n).1 (hsought.here (by omega))⟩
  · intro j hij hj hbefore hnamed
    have hle := hsought.le
    have hjn : j < n := by
      split at hbefore
      · omega
      · exact hbefore n rfl
    have hfalse := hsought.before j hij hjn
    rw [(h.named name j).2 hnamed] at hfalse
    cases hfalse

lemma accepted_iff (hsht : ei.sht.offset = eShoff ei.data 0) : ei.Accepted sym ↔ ei.toFile.Accepts sym := by
  unfold Accepted
  rw [shdr_eq hsht]
  exact ⟨fun h => ⟨h.1, h.2.1, h.2.2.1, h.2.2.2⟩, fun h => ⟨h.size, h.type, h.start, h.last⟩⟩

lemma symtabrefOffset_eq (hsht : ei.sht.offset = eShoff ei.data 0) (sym : Symbol) :
    ei.symtabrefOffset sym = ei.toFile.referenceOffset sym := by
  unfold symtabrefOffset
  rw [shdr_eq hsht]
  rfl

/-! ### The loop -/

/-- `ei` has the size and the pointers of `e`. -/
structure SamePointers (e ei : ElfInfo) : Prop where
  size : ei.size = e.size
  pht : ei.pht = e.pht
  sht : ei.sht = e.sht
  symtab : ei.symtab = e.symtab
  nsymtab : ei.nsymtab = e.nsymtab
  symstrtab : ei.symstrtab = e.symstrtab

lemma SamePointers.refl (e : ElfInfo) : SamePointers e e := ⟨rfl, rfl, rfl, rfl, rfl, rfl⟩

lemma SamePointers.write (h : SamePointers e ei) (data : Nat → UInt8) (changed : Bool) :
    SamePointers e { ei with data := data, changed := changed } :=
  ⟨h.size, h.pht, h.sht, h.symtab, h.nsymtab, h.symstrtab⟩

lemma TableAt.inPlace (h : e.TableAt k) (hk : e.toFile.SymtabAt k) (hin : File.InPlace J e.toFile ei.toFile)
    (hsame : SamePointers e ei) : ei.TableAt k := by
  have hlt := Nat.lt_of_succ_lt hk.lt
  have hlink : e.toFile.link k = k + 1 := hk.link
  have hsymtab := h.symtab
  have hnsymtab := h.nsymtab
  have hsymstrtab := h.symstrtab
  rw [← hin.offset k hlt] at hsymtab
  rw [← hin.sectionSize k hlt] at hnsymtab
  rw [← hin.link k hlt, ← hin.offset _ (by rw [hin.link k hlt, hlink]; exact hk.lt)] at hsymstrtab
  exact ⟨hsame.symtab.trans hsymtab, hsame.nsymtab.trans hnsymtab, hsame.symstrtab.trans hsymstrtab⟩

/-- The state of a run on a laid out image, when `symtab()` has found its table. -/
structure Indexed (e : ElfInfo) (k : Nat) : Prop extends Ready e k where
  table : e.TableAt k

/-- The sections that objects can be in. -/
def InProgbits (e : ElfInfo) (i : Nat) : Prop := e.toFile.type i = elfShtProgbits

/-- The loop has passed the symbol `j`. -/
def Rewriting.Passed (t : Rewriting) (j : Nat) : Prop := ∀ i, t.sym = some i → j < i

/-- `ei` is `e` but for objects that were filled in. -/
structure Kept (e ei : ElfInfo) : Prop where
  same : SamePointers e ei
  frame : File.Frame (e.toFile.Contents e.InProgbits) e.toFile ei.toFile

section Kept

lemma Kept.refl (e : ElfInfo) : Kept e e := ⟨.refl e, rfl, fun _ _ => rfl⟩

lemma Kept.inPlace (h : Kept e ei) (he : Indexed e k) : File.InPlace e.InProgbits e.toFile ei.toFile :=
  h.frame.inPlace_contents he.valid he.layout fun _ => Or.inr

lemma Indexed.not_progbits (he : Indexed e k) : ¬ e.InProgbits k ∧ ¬ e.InProgbits (k + 1) := by
  unfold InProgbits
  rw [he.symtabAt.type, he.symtabAt.strtab]
  decide

lemma Kept.sht (h : Kept e ei) (he : Indexed e k) : ei.sht.offset = eShoff ei.data 0 := by
  have hshoff : eShoff ei.data 0 = eShoff e.data 0 := (h.inPlace he).shoff
  rw [hshoff, h.same.sht]
  exact he.sht

lemma Kept.tableAt (h : Kept e ei) (he : Indexed e k) : ei.TableAt k :=
  he.table.inPlace he.symtabAt (h.inPlace he) h.same

lemma Kept.symbol (h : Kept e ei) (he : Indexed e k) (hj : j < e.toFile.symbolCount k) :
    ei.toFile.symbol k j = e.toFile.symbol k j :=
  (h.inPlace he).symbol he.symtabAt he.not_progbits.1 hj

lemma Kept.named (h : Kept e ei) (he : Indexed e k) (hname : 0 ∉ name) (hj : j < e.toFile.symbolCount k) :
    ei.toFile.Named k name (ei.toFile.symbol k j) ↔ e.toFile.Named k name (e.toFile.symbol k j) := by
  rw [h.symbol he hj]
  exact (h.inPlace he).named he.valid he.symtabAt he.not_progbits.2 hname
    (he.valid.stName_lt he.symtabAt (File.mem_symbols.2 ⟨j, hj, rfl⟩))

lemma Kept.findSymbol (h : Kept e ei) (he : Indexed e k) (hname : 0 ∉ name) (i : Nat) :
    (∀ j, ei.findSymbol name i = some j → j < e.toFile.symbolCount k ∧ e.toFile.Named k name (e.toFile.symbol k j)) ∧
      ∀ j, i ≤ j → j < e.toFile.symbolCount k → (∀ l, ei.findSymbol name i = some l → j < l) →
        ¬ e.toFile.Named k name (e.toFile.symbol k j) := by
  obtain ⟨hfound, hpassed⟩ := (h.tableAt he).findSymbol name i
  have hcount := (h.inPlace he).symbolCount he.symtabAt
  rw [hcount] at hfound hpassed
  constructor
  · intro j hj
    obtain ⟨hlt, hnamed⟩ := hfound j hj
    exact ⟨hlt, (h.named he hname hlt).1 hnamed⟩
  · intro j hij hj hbefore hnamed
    exact hpassed j hij hj hbefore ((h.named he hname hj).2 hnamed)

lemma Kept.isObject (h : Kept e ei) (he : Indexed e k) :
    ei.IsObject sym ↔ sym.stInfo &&& elfSttMask = elfSttObject ∧ sym.stShndx.toNat < eShnum e.data 0 := by
  have hshnum : eShnum ei.data 0 = eShnum e.data 0 := (h.inPlace he).shnum
  unfold IsObject shnum
  rw [hshnum]

lemma Kept.accepted (h : Kept e ei) (he : Indexed e k) (hlt : sym.stShndx.toNat < eShnum e.data 0) :
    ei.Accepted sym ↔ e.toFile.Accepts sym :=
  (accepted_iff (h.sht he)).trans ((h.inPlace he).accepts hlt)

lemma Kept.symtabrefOffset (h : Kept e ei) (he : Indexed e k) (hlt : sym.stShndx.toNat < eShnum e.data 0)
    (haccepts : e.toFile.Accepts sym) : ei.symtabrefOffset sym = e.toFile.referenceOffset sym := by
  have hin := h.inPlace he
  rw [symtabrefOffset_eq (h.sht he)]
  unfold File.referenceOffset
  rw [hin.offset _ hlt, hin.addr _ hlt haccepts.type]

end Kept

/-- The state of the loop: the references that it has passed have the value `x`. -/
structure Filling (e : ElfInfo) (k : Nat) (name : List UInt8) (loadaddr : Nat) (x : Symtabref) (t : Rewriting) : Prop where
  kept : Kept e t.ei
  current : ∀ i, t.sym = some i → i < e.toFile.symbolCount k ∧ e.toFile.Named k name (e.toFile.symbol k i)
  passed : ∀ j, j < e.toFile.symbolCount k → t.Passed j → e.toFile.IsReference k name (e.toFile.symbol k j) →
    e.toFile.Accepts (e.toFile.symbol k j) ∧ symtabrefAt t.ei.data (e.toFile.referenceOffset (e.toFile.symbol k j)) = x
  pending : ∀ sym, e.toFile.Reference k name sym → e.toFile.Accepts sym →
    symtabrefAt t.ei.data (e.toFile.referenceOffset sym) = x ∨
      ∀ o, o < symtabrefSize → t.ei.data (e.toFile.referenceOffset sym + o) = e.data (e.toFile.referenceOffset sym + o)
  unchanged : (∀ sym, e.toFile.Reference k name sym → symtabrefAt e.data (e.toFile.referenceOffset sym) = x) → t.ei = e
  unfound : t.nfound = 0 → t.loadaddr = loadaddr ∧ t.ei = e ∧
    ∀ j, j < e.toFile.symbolCount k → t.Passed j → ¬ e.toFile.IsReference k name (e.toFile.symbol k j)
  found : 0 < t.nfound → t.loadaddr = x.sym ∧ ∃ sym, e.toFile.Reference k name sym

section Filling

variable {loadaddr strtabOff size l : Nat} {x : Symtabref} {t t' : Rewriting}

lemma filling_start (he : Indexed e k) (hname : 0 ∉ name) (x : Symtabref) :
    Filling e k name loadaddr x ⟨e, e.findSymbol name 0, loadaddr, 0⟩ := by
  obtain ⟨hfound, hpassed⟩ := (Kept.refl e).findSymbol he hname 0
  have hnone : ∀ j, j < e.toFile.symbolCount k → Rewriting.Passed ⟨e, e.findSymbol name 0, loadaddr, 0⟩ j →
      ¬ e.toFile.IsReference k name (e.toFile.symbol k j) :=
    fun j hj hpass href => hpassed j (Nat.zero_le j) hj hpass href.named
  refine ⟨Kept.refl e, hfound, ?_, fun _ _ _ => Or.inr fun _ _ => rfl, fun _ => rfl, fun _ => ⟨rfl, rfl, hnone⟩, ?_⟩
  · intro j hj hpass href
    exact absurd href (hnone j hj hpass)
  · intro hpos
    exact absurd hpos (Nat.lt_irrefl 0)

/-- The word that is read at the current reference is the address that all of them get. -/
lemma Filling.word (h : Filling e k name loadaddr x t) (hplain : e.toFile.PlainReferences k name loadaddr)
    (hl : e.toFile.loadAddress k name loadaddr = x.sym) (hi : t.sym = some i)
    (href : e.toFile.Reference k name (e.toFile.symbol k i)) (haccepts : e.toFile.Accepts (e.toFile.symbol k i)) :
    (if t.loadaddr = 0 then readLE t.ei.data (e.toFile.referenceOffset (e.toFile.symbol k i)) 8 else t.loadaddr) = x.sym := by
  rcases Nat.eq_zero_or_pos t.nfound with hzero | hpos
  · obtain ⟨hload, hei, hnone⟩ := h.unfound hzero
    rw [hload]
    split
    · rename_i hgiven
      have hlt := (h.current i hi).1
      have hfirst : e.toFile.firstReference k name = some (e.toFile.symbol k i) := by
        apply File.firstReference_eq hlt href.toIsReference haccepts
        intro j hj
        refine hnone j (Nat.lt_trans hj hlt) fun l hl => ?_
        rw [hi, Option.some.injEq] at hl
        exact hl ▸ hj
      rw [← hl, hgiven, hei, File.loadAddress, if_pos rfl, hfirst]
    · rename_i hgiven
      rw [← hl, File.loadAddress_given hgiven]
  · rw [(h.found hpos).1]
    split
    · rename_i hnull
      rcases h.pending _ href haccepts with hx | hsame
      · rw [← hx]
        rfl
      · rw [hnull, ← hplain.word (hl.trans hnull) _ href haccepts]
        apply readLE_shift
        intro o ho
        exact hsame o (by unfold symtabrefSize; omega)
    · rfl

/-- Two references are in one place, or apart. -/
lemma references_apart (he : Indexed e k) (hplain : e.toFile.PlainReferences k name loadaddr) {sym' : Symbol}
    (href : e.toFile.Reference k name sym) (haccepts : e.toFile.Accepts sym) (href' : e.toFile.Reference k name sym')
    (haccepts' : e.toFile.Accepts sym') : e.toFile.referenceOffset sym' = e.toFile.referenceOffset sym ∨
      Apart (e.toFile.referenceOffset sym') symtabrefSize (e.toFile.referenceOffset sym) symtabrefSize := by
  obtain ⟨hoffset, hinside⟩ := haccepts.offset_eq he.valid href.inSection (hplain.low sym href haccepts)
  obtain ⟨hoffset', hinside'⟩ := haccepts'.offset_eq he.valid href'.inSection (hplain.low sym' href' haccepts')
  rw [hoffset, hoffset']
  by_cases hsame : sym'.stShndx = sym.stShndx
  · have hstart := haccepts.start
    have hstart' := haccepts'.start
    rw [hsame] at hstart' ⊢
    rcases hplain.apart sym' sym href' href hsame with heq | hapart
    · exact Or.inl (by rw [heq])
    · refine Or.inr ?_
      unfold Apart at hapart ⊢
      omega
  · have hne : sym'.stShndx.toNat ≠ sym.stShndx.toNat := fun heq => hsame (UInt16.toNat_inj.1 heq)
    have hpos : 0 < symtabrefSize := by decide
    have hapart := he.layout.contents _ _ (haccepts'.stored href'.inSection) (haccepts.stored href.inSection) hne
      (Or.inr haccepts'.type) (by omega) (by omega)
    refine Or.inr ?_
    unfold Apart at hapart ⊢
    omega

/-- The object of a reference is filled in. -/
structure Wrote (e : ElfInfo) (x : Symtabref) (sym : Symbol) (ei ei' : ElfInfo) : Prop where
  kept : Kept e ei'
  object : symtabrefAt ei'.data (e.toFile.referenceOffset sym) = x
  within : Within ei.data ei'.data (e.toFile.referenceOffset sym) symtabrefSize
  same : symtabrefAt ei.data (e.toFile.referenceOffset sym) = x → ei' = ei

lemma Kept.write (h : Kept e ei) (he : Indexed e k) (hplain : e.toFile.PlainReferences k name loadaddr)
    (href : e.toFile.Reference k name sym) (haccepts : e.toFile.Accepts sym) {off : Nat}
    (hoff : off = e.toFile.referenceOffset sym) (hread : symtabrefAt (writeSymtabref ei.data off x) off = x) :
    Wrote e x sym ei
      (if symtabrefAt ei.data off = x then ei else { ei with data := writeSymtabref ei.data off x, changed := true }) := by
  obtain ⟨hobject, hwithin, -⟩ := object_written hread rfl
  rw [hoff] at hobject hwithin ⊢
  refine ⟨⟨?_, ?_⟩, hobject, hwithin, fun hx => if_pos hx⟩
  · split
    · exact h.same
    · exact h.same.write _ _
  · obtain ⟨hoffset, hinside⟩ := haccepts.offset_eq he.valid href.inSection (hplain.low sym href haccepts)
    constructor
    · split
      · exact h.frame.size
      · exact h.frame.size
    · intro y hy
      rw [hwithin y ?_]
      · exact h.frame.data y hy
      · by_contra hin
        refine hy ⟨_, haccepts.stored href.inSection, haccepts.type, ?_, ?_⟩
        · unfold Outside at hin
          omega
        · unfold Outside at hin
          omega

/-- A symbol that the next search passes was passed before, or is the current one. -/
lemma Kept.passed (h : Kept e ei) (he : Indexed e k) (hname : 0 ∉ name) (hi : t.sym = some i)
    (hnext : t'.sym = ei.findSymbol name (i + 1)) (hj : j < e.toFile.symbolCount k) (hpass : t'.Passed j)
    (href : e.toFile.IsReference k name (e.toFile.symbol k j)) : t.Passed j ∨ j = i := by
  rcases Nat.lt_trichotomy j i with hlt | heq | hgt
  · refine Or.inl fun l hl => ?_
    rw [hi, Option.some.injEq] at hl
    exact hl ▸ hlt
  · exact Or.inr heq
  · exact absurd href.named ((h.findSymbol he hname (i + 1)).2 j hgt hj (hnext ▸ hpass))

lemma Filling.skip (h : Filling e k name loadaddr x t) (he : Indexed e k) (hname : 0 ∉ name) (hi : t.sym = some i)
    (hnot : ¬ e.toFile.IsReference k name (e.toFile.symbol k i)) :
    Filling e k name loadaddr x { t with sym := t.ei.findSymbol name (i + 1) } := by
  have hbefore : ∀ j, j < e.toFile.symbolCount k →
      Rewriting.Passed { t with sym := t.ei.findSymbol name (i + 1) } j →
        e.toFile.IsReference k name (e.toFile.symbol k j) → t.Passed j := by
    intro j hj hpass href
    rcases h.kept.passed he hname hi rfl hj hpass href with hpassed | rfl
    · exact hpassed
    · exact absurd href hnot
  refine ⟨h.kept, (h.kept.findSymbol he hname (i + 1)).1, ?_, h.pending, h.unchanged, fun hzero => ?_, h.found⟩
  · intro j hj hpass href
    exact h.passed j hj (hbefore j hj hpass href) href
  · obtain ⟨hload, hei, hnone⟩ := h.unfound hzero
    exact ⟨hload, hei, fun j hj hpass href => hnone j hj (hbefore j hj hpass href) href⟩

lemma Filling.fill (h : Filling e k name loadaddr x t) (he : Indexed e k) (hname : 0 ∉ name)
    (hplain : e.toFile.PlainReferences k name loadaddr) (hi : t.sym = some i)
    (href : e.toFile.Reference k name (e.toFile.symbol k i)) (haccepts : e.toFile.Accepts (e.toFile.symbol k i))
    (hwrote : Wrote e x (e.toFile.symbol k i) t.ei ei) :
    Filling e k name loadaddr x ⟨ei, ei.findSymbol name (i + 1), x.sym, t.nfound + 1⟩ := by
  -- the object of a reference is the one that was written, or is as before
  have hobject : ∀ sym, e.toFile.Reference k name sym → e.toFile.Accepts sym →
      symtabrefAt ei.data (e.toFile.referenceOffset sym) = x ∨
        ∀ o, o < symtabrefSize →
          ei.data (e.toFile.referenceOffset sym + o) = t.ei.data (e.toFile.referenceOffset sym + o) := by
    intro sym href' haccepts'
    rcases references_apart he hplain href haccepts href' haccepts' with heq | hapart
    · rw [heq]
      exact Or.inl hwrote.object
    · exact Or.inr fun o ho => hwrote.within _ (hapart.outside (Nat.le_add_right _ _) (Nat.add_lt_add_left ho _))
  have hkeep : ∀ sym, e.toFile.Reference k name sym → e.toFile.Accepts sym →
      symtabrefAt t.ei.data (e.toFile.referenceOffset sym) = x → symtabrefAt ei.data (e.toFile.referenceOffset sym) = x := by
    intro sym href' haccepts' hx
    rcases hobject sym href' haccepts' with hnew | hsame
    · exact hnew
    · exact (File.symtabrefAt_shift hsame).trans hx
  refine ⟨hwrote.kept, (hwrote.kept.findSymbol he hname (i + 1)).1, ?_, ?_, ?_, ?_, fun _ => ⟨rfl, _, href⟩⟩
  · intro j hj hpass href'
    rcases hwrote.kept.passed he hname hi rfl hj hpass href' with hpassed | rfl
    · obtain ⟨haccepts', hx⟩ := h.passed j hj hpassed href'
      exact ⟨haccepts', hkeep _ ⟨href', File.mem_symbols.2 ⟨j, hj, rfl⟩⟩ haccepts' hx⟩
    · exact ⟨haccepts, hwrote.object⟩
  · intro sym href' haccepts'
    rcases h.pending sym href' haccepts' with hx | hbytes
    · exact Or.inl (hkeep sym href' haccepts' hx)
    · rcases hobject sym href' haccepts' with hnew | hsame
      · exact Or.inl hnew
      · exact Or.inr fun o ho => (hsame o ho).trans (hbytes o ho)
  · intro hall
    have hei := h.unchanged hall
    exact (hwrote.same (by rw [hei]; exact hall _ href)).trans hei
  · intro hzero
    exact absurd hzero (Nat.succ_ne_zero _)

/-- A round for a symbol goes on, or exits because of a reference that is not accepted. -/
lemma Filling.round (h : Filling e k name loadaddr x t) (he : Indexed e k) (hname : 0 ∉ name)
    (hplain : e.toFile.PlainReferences k name loadaddr) (hl : e.toFile.loadAddress k name loadaddr = x.sym)
    (hx : x = xstref x.sym (e.toFile.symbolCount k) strtabOff size) (hsym64 : x.sym < 2 ^ 64) (hsize64 : size < 2 ^ 64)
    (hi : t.sym = some i) :
    (∃ t', rewriteRound name strtabOff size t = .next t' ∧ Filling e k name loadaddr x t') ∨
    (rewriteRound name strtabOff size t = .done none ∧
      ∃ sym, e.toFile.Reference k name sym ∧ ¬ e.toFile.Accepts sym) := by
  obtain ⟨hlt, hnamed⟩ := h.current i hi
  have hsym : symbolAt t.ei.data (t.ei.symbol i) = e.toFile.symbol k i :=
    ((h.kept.tableAt he).symbol i).trans (h.kept.symbol he hlt)
  by_cases hobject : t.ei.IsObject (e.toFile.symbol k i)
  · obtain ⟨htype, hshndx⟩ := (h.kept.isObject he).1 hobject
    have href : e.toFile.Reference k name (e.toFile.symbol k i) :=
      ⟨⟨hnamed, htype, hshndx⟩, File.mem_symbols.2 ⟨i, hlt, rfl⟩⟩
    by_cases hacc : t.ei.Accepted (e.toFile.symbol k i)
    · have haccepts := (h.kept.accepted he hshndx).1 hacc
      have hoff := h.kept.symtabrefOffset he hshndx haccepts
      have hword := h.word hplain hl hi href haccepts
      have hcount : t.ei.nsymtab = e.toFile.symbolCount k :=
        (h.kept.tableAt he).nsymtab.trans ((h.kept.inPlace he).symbolCount he.symtabAt)
      have hcount64 : e.toFile.symbolCount k < 2 ^ 64 := Nat.lt_trans (Nat.mod_lt _ (by decide)) (by decide : 2 ^ 32 < 2 ^ 64)
      have hread : symtabrefAt (writeSymtabref t.ei.data (t.ei.symtabrefOffset (e.toFile.symbol k i)) x)
          (t.ei.symtabrefOffset (e.toFile.symbol k i)) = x := by
        apply symtabrefAt_writeSymtabref _ _ hsym64
        · rw [hx]
          exact hcount64
        · rw [hx]
          exact Nat.mod_lt _ (by decide)
        · rw [hx]
          exact hsize64
      refine Or.inl ⟨_, ?_, h.fill he hname hplain hi href haccepts (h.kept.write he hplain href haccepts hoff hread)⟩
      unfold rewriteRound
      simp only [hi, hsym, if_pos hobject, if_pos hacc]
      rw [hoff, hword, hcount, ← hx]
    · refine Or.inr ⟨?_, _, href, fun haccepts => hacc ((h.kept.accepted he hshndx).2 haccepts)⟩
      unfold rewriteRound
      simp only [hi, hsym, if_pos hobject, if_neg hacc]
  · have hnot : ¬ e.toFile.IsReference k name (e.toFile.symbol k i) :=
      fun href => hobject ((h.kept.isObject he).2 ⟨href.object, href.inSection⟩)
    refine Or.inl ⟨_, ?_, h.skip he hname hi hnot⟩
    unfold rewriteRound
    simp only [hi, hsym, if_neg hobject]

/-- What the loop leaves: all references have the value `x`. -/
structure FilledIn (e : ElfInfo) (k : Nat) (name : List UInt8) (x : Symtabref) (r : Rewriting) : Prop where
  kept : Kept e r.ei
  accepted : ∀ sym, e.toFile.Reference k name sym → e.toFile.Accepts sym
  object : ∀ sym, e.toFile.Reference k name sym → symtabrefAt r.ei.data (e.toFile.referenceOffset sym) = x
  unchanged : (∀ sym, e.toFile.Reference k name sym → symtabrefAt e.data (e.toFile.referenceOffset sym) = x) → r.ei = e
  loadaddr : r.loadaddr = x.sym
  nfound : r.nfound = 0 ↔ ∀ sym, ¬ e.toFile.Reference k name sym

lemma Filling.filledIn (h : Filling e k name loadaddr x t) (hl : e.toFile.loadAddress k name loadaddr = x.sym)
    (hend : t.sym = none) : FilledIn e k name x t := by
  have hpass : ∀ j, t.Passed j := by
    intro j i hi
    rw [hend] at hi
    cases hi
  have hnone : t.nfound = 0 → ∀ sym, ¬ e.toFile.Reference k name sym := by
    intro hzero sym href
    obtain ⟨j, hj, rfl⟩ := File.mem_symbols.1 href.mem
    exact (h.unfound hzero).2.2 j hj (hpass j) href.toIsReference
  refine ⟨h.kept, ?_, ?_, h.unchanged, ?_, hnone, ?_⟩
  · intro sym href
    obtain ⟨j, hj, rfl⟩ := File.mem_symbols.1 href.mem
    exact (h.passed j hj (hpass j) href.toIsReference).1
  · intro sym href
    obtain ⟨j, hj, rfl⟩ := File.mem_symbols.1 href.mem
    exact (h.passed j hj (hpass j) href.toIsReference).2
  · rcases Nat.eq_zero_or_pos t.nfound with hzero | hpos
    · rw [(h.unfound hzero).1, ← hl, File.loadAddress_unreferenced (hnone hzero)]
    · exact (h.found hpos).1
  · intro hall
    rcases Nat.eq_zero_or_pos t.nfound with hzero | hpos
    · exact hzero
    · obtain ⟨sym, href⟩ := (h.found hpos).2
      exact absurd href (hall sym)

/-- The loop fills in all references, or exits because of one that is not accepted. -/
lemma rewriteSymtabref_spec {loadaddr : UInt64} (hopen : ei.Opened) (he : Indexed ei.loadSymtab k) (hname : 0 ∉ name)
    (hplain : ei.toFile.PlainReferences k name loadaddr.toNat) (hl : ei.toFile.loadAddress k name loadaddr.toNat = x.sym)
    (hx : x = xstref x.sym (ei.toFile.symbolCount k) strtabOff size) (hsym64 : x.sym < 2 ^ 64) (hsize64 : size < 2 ^ 64)
    (hstrtab64 : strtabOff < 2 ^ 64) :
    (∃ r, ei.rewriteSymtabref name loadaddr.toNat strtabOff size = some r ∧
      FilledIn ei.loadSymtab k name x r) ∨
    (ei.rewriteSymtabref name loadaddr.toNat strtabOff size = none ∧
      ∃ sym, ei.toFile.Reference k name sym ∧ ¬ ei.toFile.Accepts sym) := by
  have hfile := ei.loadSymtab_file.1
  have hends : ∃ result, run (rewriteRound name (UInt64.ofNat strtabOff).toNat (UInt64.ofNat size).toNat)
      (ei.loadSymtab.nsymtab + 1) (ei.startRewriting name loadaddr) = some result := rewriting_ends hopen
  obtain ⟨result, hrun⟩ := hends
  rw [UInt64.toNat_ofNat_of_lt' hstrtab64, UInt64.toNat_ofNat_of_lt' hsize64] at hrun
  have hexit : (∃ r, result = some r ∧ FilledIn ei.loadSymtab k name x r) ∨
      (result = none ∧ ∃ sym, ei.toFile.Reference k name sym ∧ ¬ ei.toFile.Accepts sym) := by
    refine run_invariant _ (Filling ei.loadSymtab k name loadaddr.toNat x)
      (fun result => (∃ r, result = some r ∧ FilledIn ei.loadSymtab k name x r) ∨
        (result = none ∧ ∃ sym, ei.toFile.Reference k name sym ∧ ¬ ei.toFile.Accepts sym)) ?_ ?_
      (filling_start he hname x) hrun
    · intro t t' ht hstep
      cases hi : t.sym with
      | none => simp [rewriteRound, hi] at hstep
      | some i =>
        rcases ht.round he hname (hfile ▸ hplain) (hfile ▸ hl) (hfile ▸ hx) hsym64 hsize64 hi with
          ⟨u, hnext, hu⟩ | ⟨hdone, -⟩
        · rw [hstep, Round.next.injEq] at hnext
          exact hnext ▸ hu
        · rw [hstep] at hdone
          cases hdone
    · intro t result' ht hstep
      cases hi : t.sym with
      | none =>
        have hresult : result' = some t := by
          simp only [rewriteRound, hi, Round.done.injEq] at hstep
          exact hstep.symm
        exact Or.inl ⟨t, hresult, ht.filledIn (hfile ▸ hl) hi⟩
      | some i =>
        rcases ht.round he hname (hfile ▸ hplain) (hfile ▸ hl) (hfile ▸ hx) hsym64 hsize64 hi with
          ⟨u, hnext, -⟩ | ⟨hdone, hbad⟩
        · rw [hstep] at hnext
          cases hnext
        · rw [hstep, Round.done.injEq] at hdone
          exact Or.inr ⟨hdone, hfile ▸ hbad⟩
  have hwhole : ei.rewriteSymtabref name loadaddr.toNat strtabOff size = result := congrArg Option.join hrun
  rw [hwhole]
  rcases hexit with ⟨r, rfl, hr⟩ | ⟨rfl, hbad⟩
  · exact Or.inl ⟨r, rfl, hr⟩
  · exact Or.inr ⟨rfl, hbad⟩

end Filling

end ElfInfo

end Cs300Projects.WeensyOS.Elf
