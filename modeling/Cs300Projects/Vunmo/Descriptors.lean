import Cs300Projects.Vunmo.Connections

/-!
# Descriptors of connections

While every response is written to, and every request read from, a connection that is still
connected, each system call hits a descriptor that is open for the connection it is made for. The
two places do not test `is_connected`: a call there on a closed connection misses.
-/

namespace Cs300Projects.Vunmo

variable {ι τ : Type*}

namespace Pc

/-- The connections that a thread has locked. -/
def held : Pc ι → List ι
  | reading _ => []
  | collecting available => available
  | write c _ => [c]
  | clearFlag c => [c]
  | read c _ => [c]
  | closeRequest c _ _ => [c]
  | closeNotification c _ _ => [c]
  | clearFlagAfter c _ => [c]
  | unlock c _ => [c]
  | accepted _ => []
  | testConnected c _ => [c]
  | rejectRequest c _ => [c]
  | rejectNotification c _ => [c]
  | installRequest c _ => [c]
  | installNotification c _ => [c]
  | setFlag c => [c]

/-- The accepted connection that a thread has not yet given to a client. -/
def newGen : Pc ι → Option Nat
  | accepted new => some new.gen
  | testConnected _ new => some new.gen
  | rejectRequest _ new => some new.gen
  | rejectNotification _ new => some new.gen
  | installRequest _ new => some new.gen
  | _ => none

end Pc

namespace State

/-! ### The invariant -/

/-- The descriptors that are open for the connection `g` are the two given ones. -/
def Live (s : State ι τ) (g a b : Nat) : Prop := a ≠ b ∧ ∀ n, s.table n = some g ↔ n = a ∨ n = b

def OnlyOpen (s : State ι τ) (g a : Nat) : Prop := ∀ n, s.table n = some g ↔ n = a

def Closed (s : State ι τ) (g : Nat) : Prop := ∀ n, s.table n ≠ some g

/-- Both descriptors of a connected client are open, and none of a disconnected one. -/
def ConnOk (s : State ι τ) (c : ι) : Prop :=
  ((s.conns c).isConnected = true →
    s.Live (s.conns c).gen (s.conns c).requestFd (s.conns c).notificationFd) ∧
  ((s.conns c).isConnected = false → s.Closed (s.conns c).gen)

/-- What holds when a thread is about to execute a statement. -/
def PcOk (s : State ι τ) : Pc ι → Prop
  | .reading _ => True
  | .collecting available => ∀ c ∈ available, s.ConnOk c
  | .write c .request => s.ConnOk c
  | .write c .notification => s.ConnOk c ∧ (s.conns c).isConnected = true
  | .clearFlag c => s.ConnOk c ∧ (s.conns c).isConnected = true
  | .read c _ => s.ConnOk c
  | .closeRequest c inRead _ => (s.conns c).isConnected = inRead ∧
    s.Live (s.conns c).gen (s.conns c).requestFd (s.conns c).notificationFd
  | .closeNotification c inRead _ => (s.conns c).isConnected = inRead ∧
    s.OnlyOpen (s.conns c).gen (s.conns c).notificationFd
  | .clearFlagAfter c _ => s.Closed (s.conns c).gen
  | .unlock c _ => s.ConnOk c
  | .accepted new => s.Live new.gen new.requestFd new.notificationFd
  | .testConnected c new => s.ConnOk c ∧ s.Live new.gen new.requestFd new.notificationFd
  | .rejectRequest c new => s.ConnOk c ∧ s.Live new.gen new.requestFd new.notificationFd
  | .rejectNotification c new => s.ConnOk c ∧ s.OnlyOpen new.gen new.notificationFd
  | .installRequest c new => (s.conns c).isConnected = false ∧
    s.Live new.gen new.requestFd new.notificationFd
  | .installNotification c new => (s.conns c).isConnected = false ∧ (s.conns c).gen = new.gen ∧
    (s.conns c).requestFd = new.requestFd ∧ s.Live new.gen new.requestFd new.notificationFd
  | .setFlag c => s.Live (s.conns c).gen (s.conns c).requestFd (s.conns c).notificationFd

/-- Accepted connections are numbered in order, and each belongs to one client or thread. -/
structure GensOk (s : State ι τ) : Prop where
  conn_lt : ∀ c, (s.conns c).gen < s.nextGen
  conn_inj : ∀ c c', (s.conns c).gen = (s.conns c').gen → c = c'
  table_lt : ∀ n g, s.table n = some g → g < s.nextGen
  new_lt : ∀ t g, (s.pc t).newGen = some g → g < s.nextGen
  new_conn : ∀ t g, (s.pc t).newGen = some g → ∀ c, (s.conns c).gen ≠ g
  new_inj : ∀ t t' g, (s.pc t).newGen = some g → (s.pc t').newGen = some g → t = t'

structure Inv (s : State ι τ) : Prop where
  gens : s.GensOk
  held_iff : ∀ t c, c ∈ (s.pc t).held ↔ (s.conns c).mtx = some t
  free : ∀ c, (s.conns c).mtx = none → s.ConnOk c
  pcs : ∀ t, s.PcOk (s.pc t)

/-! ### What other threads see -/

/-- The same descriptors are open for the connection `g`. -/
def SameFds (s s' : State ι τ) (g : Nat) : Prop := ∀ n, s'.table n = some g ↔ s.table n = some g

section Frame

variable {s s' : State ι τ}

lemma Live.frame {g a b : Nat} (h : s.Live g a b) (hg : SameFds s s' g) : s'.Live g a b :=
  ⟨h.1, fun n => (hg n).trans (h.2 n)⟩

lemma OnlyOpen.frame {g a : Nat} (h : s.OnlyOpen g a) (hg : SameFds s s' g) : s'.OnlyOpen g a :=
  fun n => (hg n).trans (h n)

lemma Closed.frame {g : Nat} (h : s.Closed g) (hg : SameFds s s' g) : s'.Closed g :=
  fun n hn => h n ((hg n).1 hn)

lemma ConnOk.frame {c : ι} (h : s.ConnOk c) (hc : s'.conns c = s.conns c)
    (hg : SameFds s s' (s.conns c).gen) : s'.ConnOk c := by
  unfold ConnOk
  rw [hc]
  exact ⟨fun hon => (h.1 hon).frame hg, fun hoff => (h.2 hoff).frame hg⟩

/-- A statement is still in order when the connections of its thread have not been touched. -/
lemma PcOk.frame {pc : Pc ι} (h : s.PcOk pc) (hc : ∀ c ∈ pc.held, s'.conns c = s.conns c)
    (hg : ∀ c ∈ pc.held, SameFds s s' (s.conns c).gen)
    (hn : ∀ g, pc.newGen = some g → SameFds s s' g) : s'.PcOk pc := by
  cases pc with
  | reading rest => trivial
  | collecting available => exact fun c hmem => (h c hmem).frame (hc c hmem) (hg c hmem)
  | write c side =>
    have hcc := hc c List.mem_cons_self
    have hgc := hg c List.mem_cons_self
    cases side with
    | request => exact ConnOk.frame h hcc hgc
    | notification => exact ⟨ConnOk.frame h.1 hcc hgc, by rw [hcc]; exact h.2⟩
  | clearFlag c =>
    have hcc := hc c List.mem_cons_self
    exact ⟨h.1.frame hcc (hg c List.mem_cons_self), by rw [hcc]; exact h.2⟩
  | read c rest => exact ConnOk.frame h (hc c List.mem_cons_self) (hg c List.mem_cons_self)
  | closeRequest c inRead rest =>
    dsimp only [PcOk] at h ⊢
    rw [hc c List.mem_cons_self]
    exact ⟨h.1, h.2.frame (hg c List.mem_cons_self)⟩
  | closeNotification c inRead rest =>
    dsimp only [PcOk] at h ⊢
    rw [hc c List.mem_cons_self]
    exact ⟨h.1, h.2.frame (hg c List.mem_cons_self)⟩
  | clearFlagAfter c rest =>
    dsimp only [PcOk] at h ⊢
    rw [hc c List.mem_cons_self]
    exact h.frame (hg c List.mem_cons_self)
  | unlock c rest => exact ConnOk.frame h (hc c List.mem_cons_self) (hg c List.mem_cons_self)
  | accepted new => exact Live.frame h (hn new.gen rfl)
  | testConnected c new =>
    exact ⟨h.1.frame (hc c List.mem_cons_self) (hg c List.mem_cons_self), h.2.frame (hn new.gen rfl)⟩
  | rejectRequest c new =>
    exact ⟨h.1.frame (hc c List.mem_cons_self) (hg c List.mem_cons_self), h.2.frame (hn new.gen rfl)⟩
  | rejectNotification c new =>
    exact ⟨h.1.frame (hc c List.mem_cons_self) (hg c List.mem_cons_self), h.2.frame (hn new.gen rfl)⟩
  | installRequest c new =>
    dsimp only [PcOk] at h ⊢
    rw [hc c List.mem_cons_self]
    exact ⟨h.1, h.2.frame (hn new.gen rfl)⟩
  | installNotification c new =>
    dsimp only [PcOk] at h ⊢
    obtain ⟨hoff, hgen, hreq, hlive⟩ := h
    have hgc := hg c List.mem_cons_self
    rw [hgen] at hgc
    rw [hc c List.mem_cons_self]
    exact ⟨hoff, hgen, hreq, hlive.frame hgc⟩
  | setFlag c =>
    dsimp only [PcOk] at h ⊢
    rw [hc c List.mem_cons_self]
    exact h.frame (hg c List.mem_cons_self)

variable [DecidableEq τ]

/-- A step of thread `t` that keeps to its own connections preserves the invariant, when its next
statement is in order. -/
lemma Inv.of_step (h : s.Inv) {t : τ} {pc' : Pc ι} (hpc : s'.pc = Function.update s.pc t pc')
    (hgens : s'.GensOk)
    (hconns : ∀ c, c ∉ (s.pc t).held → c ∉ pc'.held → s'.conns c = s.conns c)
    (hlocked : ∀ c, c ∈ pc'.held → (s'.conns c).mtx = some t)
    (hacquired : ∀ c, c ∈ pc'.held → c ∉ (s.pc t).held → (s.conns c).mtx = none)
    (hreleased : ∀ c, c ∈ (s.pc t).held → c ∉ pc'.held → (s'.conns c).mtx = none ∧ s'.ConnOk c)
    (htable : ∀ g, g < s.nextGen → (∀ c ∈ (s.pc t).held, (s.conns c).gen ≠ g) →
      (s.pc t).newGen ≠ some g → SameFds s s' g)
    (hok : s'.PcOk pc') : s'.Inv := by
  have hself : s'.pc t = pc' := by rw [hpc, Function.update_self]
  have hother : ∀ t', t' ≠ t → s'.pc t' = s.pc t' := by
    intro t' ht
    rw [hpc, Function.update_of_ne ht]
  -- a connection that thread `t` does not lock before or after the step
  have houtside : ∀ c, c ∉ (s.pc t).held → c ∉ pc'.held →
      s'.conns c = s.conns c ∧ SameFds s s' (s.conns c).gen := by
    intro c hc hc'
    refine ⟨hconns c hc hc', htable _ (h.gens.conn_lt c) (fun d hd he => ?_) (fun hnew => ?_)⟩
    · exact hc (h.gens.conn_inj d c he ▸ hd)
    · exact h.gens.new_conn t _ hnew c rfl
  refine ⟨hgens, fun t' c => ?_, fun c hfree => ?_, fun t' => ?_⟩
  · by_cases ht : t' = t
    · subst ht
      rw [hself]
      constructor
      · exact hlocked c
      · intro hmtx
        by_contra hc'
        by_cases hc : c ∈ (s.pc t').held
        · rw [(hreleased c hc hc').1] at hmtx
          exact absurd hmtx (by simp)
        · rw [(houtside c hc hc').1, ← h.held_iff] at hmtx
          exact hc hmtx
    · rw [hother t' ht]
      constructor
      · intro hheld
        have hmtx := (h.held_iff t' c).1 hheld
        have hc : c ∉ (s.pc t).held := by
          rw [h.held_iff, hmtx, Option.some.injEq]
          exact ht
        have hc' : c ∉ pc'.held := by
          intro hmem
          rw [hacquired c hmem hc] at hmtx
          exact absurd hmtx (by simp)
        rw [(houtside c hc hc').1]
        exact hmtx
      · intro hmtx
        have hc' : c ∉ pc'.held := by
          intro hmem
          rw [hlocked c hmem, Option.some.injEq] at hmtx
          exact ht hmtx.symm
        have hc : c ∉ (s.pc t).held := by
          intro hmem
          rw [(hreleased c hmem hc').1] at hmtx
          exact absurd hmtx (by simp)
        rw [(houtside c hc hc').1, ← h.held_iff] at hmtx
        exact hmtx
  · have hc' : c ∉ pc'.held := by
      intro hmem
      rw [hlocked c hmem] at hfree
      exact absurd hfree (by simp)
    by_cases hc : c ∈ (s.pc t).held
    · exact (hreleased c hc hc').2
    · obtain ⟨hsame, hfds⟩ := houtside c hc hc'
      rw [hsame] at hfree
      exact (h.free c hfree).frame hsame hfds
  · by_cases ht : t' = t
    · rw [ht, hself]
      exact hok
    · rw [hother t' ht]
      have hc : ∀ c ∈ (s.pc t').held, s'.conns c = s.conns c ∧ SameFds s s' (s.conns c).gen := by
        intro c hmem
        have hmtx := (h.held_iff t' c).1 hmem
        have hc : c ∉ (s.pc t).held := by
          rw [h.held_iff, hmtx, Option.some.injEq]
          exact ht
        apply houtside c hc
        intro hmem'
        rw [hacquired c hmem' hc] at hmtx
        exact absurd hmtx (by simp)
      refine (h.pcs t').frame (fun c hmem => (hc c hmem).1) (fun c hmem => (hc c hmem).2) (fun g hg => ?_)
      exact htable g (h.gens.new_lt t' g hg) (fun c _ => h.gens.new_conn t' g hg c)
        (fun hnew => ht (h.gens.new_inj t' t g hg hnew))

end Frame

end State

end Cs300Projects.Vunmo
