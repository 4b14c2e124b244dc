import Cs300Projects.Vunmo.Descriptors

/-!
# One step of a thread

Each kind of statement preserves the invariant: a move of the program counter, an update of the
locked connection, a close, a lock and an unlock, an accept and an install. From these, every step
preserves it, as long as the connection is connected at a response and at a read.
-/

namespace Cs300Projects.Vunmo

namespace State

variable {ι τ : Type*} {s s' : State ι τ}

/-! ### Descriptors -/

lemma open_of_close {table : Nat → Option Nat} {fd n g : Nat}
    (h : Function.update table fd none n = some g) : table n = some g := by
  by_cases hn : n = fd
  · rw [hn, Function.update_self] at h
    exact absurd h (by simp)
  · rwa [Function.update_of_ne hn] at h

lemma SameFds.of_table (h : s'.table = s.table) (g : Nat) : SameFds s s' g := by
  intro n
  rw [h]

/-- A close is seen by one connection only. -/
lemma SameFds.of_close {fd g g₀ : Nat} (h : s'.table = Function.update s.table fd none)
    (hfd : s.table fd = some g₀) (hne : g₀ ≠ g) : SameFds s s' g := by
  intro n
  rw [h]
  by_cases hn : n = fd
  · subst hn
    rw [Function.update_self, hfd]
    simpa using hne
  · rw [Function.update_of_ne hn]

lemma Live.close {fd g b : Nat} (hlive : s.Live g fd b)
    (h : s'.table = Function.update s.table fd none) : s'.OnlyOpen g b := by
  intro n
  rw [h]
  by_cases hn : n = fd
  · subst hn
    rw [Function.update_self]
    simpa using hlive.1
  · rw [Function.update_of_ne hn, hlive.2 n]
    simp [hn]

lemma OnlyOpen.close {fd g : Nat} (hopen : s.OnlyOpen g fd)
    (h : s'.table = Function.update s.table fd none) : s'.Closed g := by
  intro n
  rw [h]
  by_cases hn : n = fd
  · subst hn
    rw [Function.update_self]
    simp
  · rw [Function.update_of_ne hn, ne_eq, hopen n]
    exact hn

lemma Live.left {g a b : Nat} (h : s.Live g a b) : s.table a = some g := (h.2 a).2 (Or.inl rfl)

lemma Live.right {g a b : Nat} (h : s.Live g a b) : s.table b = some g := (h.2 b).2 (Or.inr rfl)

lemma OnlyOpen.left {g a : Nat} (h : s.OnlyOpen g a) : s.table a = some g := (h a).2 rfl

/-! ### Locks and the connections under them -/

section Locks

variable [DecidableEq ι] {c d : ι}

lemma connOk_lock {t : τ} : (s.lock t c).ConnOk d ↔ s.ConnOk d := by
  by_cases hd : d = c
  · subst hd
    simp [ConnOk, lock, Live, Closed]
  · simp [ConnOk, lock, setConn_of_ne s hd, Live, Closed]

@[simp] lemma unlockAll_pc (s : State ι τ) (cs : List ι) : (s.unlockAll cs).pc = s.pc := by
  induction cs generalizing s with
  | nil => rfl
  | cons c cs ih => exact ih (s.unlock c)

@[simp] lemma unlockAll_table (s : State ι τ) (cs : List ι) : (s.unlockAll cs).table = s.table := by
  induction cs generalizing s with
  | nil => rfl
  | cons c cs ih => exact ih (s.unlock c)

@[simp] lemma unlockAll_nextGen (s : State ι τ) (cs : List ι) : (s.unlockAll cs).nextGen = s.nextGen := by
  induction cs generalizing s with
  | nil => rfl
  | cons c cs ih => exact ih (s.unlock c)

lemma unlockAll_conns (s : State ι τ) (cs : List ι) (d : ι) :
    (s.unlockAll cs).conns d = if d ∈ cs then { s.conns d with mtx := none } else s.conns d := by
  induction cs generalizing s with
  | nil => rfl
  | cons c cs ih =>
    have hstep : s.unlockAll (c :: cs) = (s.unlock c).unlockAll cs := rfl
    rw [hstep, ih]
    by_cases hd : d = c
    · subst hd
      simp [unlock]
    · simp [unlock, setConn_of_ne s hd, hd]

lemma unlockAll_gen (s : State ι τ) (cs : List ι) (d : ι) :
    ((s.unlockAll cs).conns d).gen = (s.conns d).gen := by
  rw [unlockAll_conns]
  split <;> rfl

lemma connOk_unlockAll {cs : List ι} : (s.unlockAll cs).ConnOk d ↔ s.ConnOk d := by
  unfold ConnOk Live Closed
  rw [unlockAll_conns, unlockAll_table]
  split <;> rfl

end Locks

/-! ### The kinds of statements -/

section Kinds

variable [DecidableEq τ] {t : τ} {c : ι} {pc pc' : Pc ι}

lemma newGen_of_none (h : pc'.newGen = none) (g : Nat) (hg : pc'.newGen = some g) : pc.newGen = some g := by
  rw [h] at hg
  cases hg

lemma GensOk.of_step (h : s.GensOk) (hpc : s'.pc = Function.update s.pc t pc')
    (hnew : ∀ g, pc'.newGen = some g → (s.pc t).newGen = some g)
    (hgen : ∀ c, (s'.conns c).gen = (s.conns c).gen)
    (htable : ∀ n g, s'.table n = some g → s.table n = some g) (hnext : s'.nextGen = s.nextGen) :
    s'.GensOk := by
  have hnews : ∀ t' g, (s'.pc t').newGen = some g → (s.pc t').newGen = some g := by
    intro t' g hg
    rw [hpc] at hg
    by_cases ht : t' = t
    · subst ht
      rw [Function.update_self] at hg
      exact hnew g hg
    · rwa [Function.update_of_ne ht] at hg
  constructor
  · intro d
    rw [hgen, hnext]
    exact h.conn_lt d
  · intro d d' he
    rw [hgen, hgen] at he
    exact h.conn_inj d d' he
  · intro n g hn
    rw [hnext]
    exact h.table_lt n g (htable n g hn)
  · intro t' g hg
    rw [hnext]
    exact h.new_lt t' g (hnews t' g hg)
  · intro t' g hg d
    rw [hgen]
    exact h.new_conn t' g (hnews t' g hg) d
  · intro t' t'' g hg hg'
    exact h.new_inj t' t'' g (hnews t' g hg) (hnews t'' g hg')

/-- A statement between the lock and the unlock of `c`. -/
lemma Inv.of_own (h : s.Inv) (hpc : s'.pc = Function.update s.pc t pc')
    (hheld : (s.pc t).held = [c]) (hheld' : pc'.held = [c]) (hgens : s'.GensOk)
    (hconns : ∀ d, d ≠ c → s'.conns d = s.conns d) (hmtx : (s'.conns c).mtx = (s.conns c).mtx)
    (htable : ∀ g, (s.conns c).gen ≠ g → (s.pc t).newGen ≠ some g → SameFds s s' g)
    (hok : s'.PcOk pc') : s'.Inv := by
  have hlock : (s.conns c).mtx = some t := by
    rw [← h.held_iff, hheld]
    exact List.mem_singleton_self c
  apply h.of_step hpc hgens
  · intro d hd _
    rw [hheld, List.mem_singleton] at hd
    exact hconns d hd
  · intro d hd
    rw [hheld', List.mem_singleton] at hd
    rw [hd, hmtx, hlock]
  · intro d hd hd'
    rw [hheld'] at hd
    rw [hheld] at hd'
    exact absurd hd hd'
  · intro d hd hd'
    rw [hheld] at hd
    rw [hheld'] at hd'
    exact absurd hd hd'
  · intro g _ hg hnew
    exact htable g (hg c (hheld ▸ List.mem_singleton_self c)) hnew
  · exact hok

lemma Inv.of_move (h : s.Inv) (hp : s.pc t = pc) (hheld : pc.held = [c]) (hheld' : pc'.held = [c])
    (hnew : ∀ g, pc'.newGen = some g → pc.newGen = some g) (hok : s.PcOk pc') :
    (s.setPc t pc').Inv := by
  subst hp
  apply h.of_own rfl hheld hheld'
  · exact h.gens.of_step rfl hnew (fun _ => rfl) (fun _ _ hn => hn) rfl
  · exact fun _ _ => rfl
  · rfl
  · exact fun g _ _ => SameFds.of_table rfl g
  · exact hok.frame (fun _ _ => rfl) (fun _ _ => SameFds.of_table rfl _) (fun g _ => SameFds.of_table rfl g)

/-- A close of a descriptor of the locked connection, or of the one just accepted. -/
lemma Inv.of_close (h : s.Inv) {fd g₀ : Nat} (hp : s.pc t = pc) (hfd : s.table fd = some g₀)
    (hown : (s.conns c).gen = g₀ ∨ pc.newGen = some g₀) (hheld : pc.held = [c])
    (hheld' : pc'.held = [c]) (hnew : ∀ g, pc'.newGen = some g → pc.newGen = some g)
    (hok : ((s.setFd fd none).setPc t pc').PcOk pc') : ((s.setFd fd none).setPc t pc').Inv := by
  subst hp
  apply h.of_own rfl hheld hheld'
  · exact h.gens.of_step rfl hnew (fun _ => rfl) (fun _ _ hn => open_of_close hn) rfl
  · exact fun _ _ => rfl
  · rfl
  · intro g hg hg'
    apply SameFds.of_close rfl hfd
    rintro rfl
    exact hown.elim hg hg'
  · exact hok

/-- `accept_client` numbers the connection that it accepts. -/
lemma Inv.of_accept (h : s.Inv) (hidle : s.pc t = .reading []) {a b : Nat} (ha : s.table a = none)
    (hb : s.table b = none) (hab : a ≠ b)
    (hpc : s'.pc = Function.update s.pc t (.accepted ⟨a, b, s.nextGen⟩)) (hconns : s'.conns = s.conns)
    (htable : s'.table = Function.update (Function.update s.table a (some s.nextGen)) b (some s.nextGen))
    (hnext : s'.nextGen = s.nextGen + 1) : s'.Inv := by
  have hentry : ∀ n, s'.table n = if n = a ∨ n = b then some s.nextGen else s.table n := by
    intro n
    rw [htable]
    by_cases hnb : n = b
    · rw [hnb, Function.update_self, if_pos (Or.inr rfl)]
    · rw [Function.update_of_ne hnb]
      by_cases hna : n = a
      · rw [hna, Function.update_self, if_pos (Or.inl rfl)]
      · rw [Function.update_of_ne hna, if_neg (not_or.2 ⟨hna, hnb⟩)]
  have hself : s'.pc t = .accepted ⟨a, b, s.nextGen⟩ := by rw [hpc, Function.update_self]
  have hother : ∀ t', t' ≠ t → s'.pc t' = s.pc t' := by
    intro t' ht
    rw [hpc, Function.update_of_ne ht]
  -- the only new number is the one of the connection just accepted
  have hnews : ∀ t' g, (s'.pc t').newGen = some g →
      t' = t ∧ g = s.nextGen ∨ t' ≠ t ∧ (s.pc t').newGen = some g := by
    intro t' g hg
    by_cases ht : t' = t
    · subst ht
      rw [hself] at hg
      exact Or.inl ⟨rfl, (Option.some.inj hg).symm⟩
    · rw [hother t' ht] at hg
      exact Or.inr ⟨ht, hg⟩
  apply h.of_step hpc
  · constructor
    · intro c
      rw [hconns, hnext]
      exact Nat.lt_succ_of_lt (h.gens.conn_lt c)
    · rw [hconns]
      exact h.gens.conn_inj
    · intro n g hn
      rw [hentry] at hn
      rw [hnext]
      split at hn
      · rw [← Option.some.inj hn]
        exact Nat.lt_succ_self _
      · exact Nat.lt_succ_of_lt (h.gens.table_lt n g hn)
    · intro t' g hg
      rw [hnext]
      rcases hnews t' g hg with ⟨-, rfl⟩ | ⟨-, hold⟩
      · exact Nat.lt_succ_self _
      · exact Nat.lt_succ_of_lt (h.gens.new_lt t' g hold)
    · intro t' g hg c
      rw [hconns]
      rcases hnews t' g hg with ⟨-, rfl⟩ | ⟨-, hold⟩
      · exact Nat.ne_of_lt (h.gens.conn_lt c)
      · exact h.gens.new_conn t' g hold c
    · intro t' t'' g hg hg'
      rcases hnews t' g hg with ⟨rfl, he⟩ | ⟨-, hold⟩ <;> rcases hnews t'' g hg' with ⟨rfl, he'⟩ | ⟨-, hold'⟩
      · rfl
      · exact absurd he (Nat.ne_of_lt (h.gens.new_lt t'' g hold'))
      · exact absurd he' (Nat.ne_of_lt (h.gens.new_lt t' g hold))
      · exact h.gens.new_inj t' t'' g hold hold'
  · exact fun d _ _ => congrFun hconns d
  · exact fun d hd => absurd hd List.not_mem_nil
  · exact fun d hd => absurd hd List.not_mem_nil
  · intro d hd
    rw [hidle] at hd
    exact absurd hd List.not_mem_nil
  · intro g hg _ _ n
    rw [hentry]
    split
    · rename_i hn
      have hfree : s.table n = none := by
        rcases hn with rfl | rfl
        · exact ha
        · exact hb
      rw [hfree]
      simpa using Nat.ne_of_gt hg
    · rfl
  · refine ⟨hab, fun n => ?_⟩
    rw [hentry]
    split
    · rename_i hn
      simpa using hn
    · rename_i hn
      constructor
      · intro htab
        exact absurd (h.gens.table_lt n _ htab) (Nat.lt_irrefl _)
      · exact fun he => absurd he hn

variable [DecidableEq ι]

lemma Inv.of_setConn (h : s.Inv) {conn : Conn τ} (hp : s.pc t = pc) (hmtx : conn.mtx = (s.conns c).mtx)
    (hgen : conn.gen = (s.conns c).gen) (hheld : pc.held = [c]) (hheld' : pc'.held = [c])
    (hnew : ∀ g, pc'.newGen = some g → pc.newGen = some g)
    (hok : ((s.setConn c conn).setPc t pc').PcOk pc') : ((s.setConn c conn).setPc t pc').Inv := by
  subst hp
  apply h.of_own rfl hheld hheld'
  · refine h.gens.of_step rfl hnew ?_ (fun _ _ hn => hn) rfl
    intro d
    rw [setPc_conns]
    by_cases hd : d = c
    · subst hd
      rw [setConn_self, hgen]
    · rw [setConn_of_ne s hd]
  · exact fun d hd => setConn_of_ne s hd conn
  · rw [setPc_conns, setConn_self, hmtx]
  · exact fun g _ _ => SameFds.of_table rfl g
  · exact hok

/-- A `lock`, or a `try_lock` that succeeds; the thread may hold other connections. -/
lemma Inv.of_lock (h : s.Inv) (hp : s.pc t = pc) (hfree : (s.conns c).mtx = none)
    (hheld : ∀ d, d ∈ pc'.held ↔ d ∈ pc.held ∨ d = c)
    (hnew : ∀ g, pc'.newGen = some g → pc.newGen = some g)
    (hok : ((s.lock t c).setPc t pc').PcOk pc') : ((s.lock t c).setPc t pc').Inv := by
  subst hp
  apply h.of_step rfl
  · refine h.gens.of_step rfl hnew ?_ (fun _ _ hn => hn) rfl
    intro d
    rw [setPc_conns, lock]
    by_cases hd : d = c
    · subst hd
      rw [setConn_self]
    · rw [setConn_of_ne s hd]
  · intro d _ hd
    rw [hheld] at hd
    exact setConn_of_ne s (fun he => hd (Or.inr he)) _
  · intro d hd
    rw [setPc_conns, lock]
    by_cases he : d = c
    · rw [he, setConn_self]
    · rw [setConn_of_ne s he, ← h.held_iff]
      exact ((hheld d).1 hd).resolve_right he
  · intro d hd hd'
    rw [((hheld d).1 hd).resolve_left hd']
    exact hfree
  · intro d hd hd'
    exact absurd ((hheld d).2 (Or.inl hd)) hd'
  · exact fun g _ _ _ => SameFds.of_table rfl g
  · exact hok

/-- An `unlock` of all connections that the thread holds. -/
lemma Inv.of_unlock (h : s.Inv) (cs : List ι) (hp : s.pc t = pc) (hheld : pc.held = cs)
    (hheld' : pc'.held = []) (hnew : ∀ g, pc'.newGen = some g → pc.newGen = some g)
    (hcs : ∀ d ∈ cs, s.ConnOk d) (hok : ((s.unlockAll cs).setPc t pc').PcOk pc') :
    ((s.unlockAll cs).setPc t pc').Inv := by
  subst hp
  apply h.of_step
  · rw [setPc_pc, unlockAll_pc]
  · refine h.gens.of_step ?_ hnew (s.unlockAll_gen cs) ?_ (s.unlockAll_nextGen cs)
    · rw [setPc_pc, unlockAll_pc]
    · intro n g hn
      rwa [setPc_table, unlockAll_table] at hn
  · intro d hd _
    rw [hheld] at hd
    rw [setPc_conns, unlockAll_conns, if_neg hd]
  · intro d hd
    rw [hheld'] at hd
    exact absurd hd List.not_mem_nil
  · intro d hd
    rw [hheld'] at hd
    exact absurd hd List.not_mem_nil
  · intro d hd _
    rw [hheld] at hd
    constructor
    · rw [setPc_conns, unlockAll_conns, if_pos hd]
    · exact connOk_unlockAll.2 (hcs d hd)
  · exact fun g _ _ _ => SameFds.of_table (s.unlockAll_table cs) g
  · exact hok

/-- From `handle_reconnecting_client`'s first assignment on, `c` stands for the new connection. -/
lemma Inv.of_install (h : s.Inv) {new : NewClient} (hp : s.pc t = .installRequest c new) :
    ((s.setConn c { s.conns c with requestFd := new.requestFd, gen := new.gen }).setPc t
      (.installNotification c new)).Inv := by
  have hok := h.pcs t
  rw [hp] at hok
  have hnew : (s.pc t).newGen = some new.gen := by rw [hp]; rfl
  apply h.of_own rfl (by rw [hp]; rfl) rfl
  · have hnews : ∀ t' g, (Function.update s.pc t (.installNotification c new) t').newGen = some g →
        t' ≠ t ∧ (s.pc t').newGen = some g := by
      intro t' g hg
      by_cases ht : t' = t
      · subst ht
        rw [Function.update_self] at hg
        exact absurd hg (by simp [Pc.newGen])
      · rw [Function.update_of_ne ht] at hg
        exact ⟨ht, hg⟩
    have hgen : ∀ d, ((s.setConn c { s.conns c with requestFd := new.requestFd, gen := new.gen }).conns d).gen
        = if d = c then new.gen else (s.conns d).gen := by
      intro d
      by_cases hd : d = c
      · rw [hd, setConn_self, if_pos rfl]
      · rw [setConn_of_ne s hd, if_neg hd]
    constructor
    · intro d
      rw [setPc_conns, hgen]
      split
      · exact h.gens.new_lt t _ hnew
      · exact h.gens.conn_lt d
    · intro d d' he
      rw [setPc_conns, hgen, hgen] at he
      split at he <;> split at he
      · rename_i hd hd'
        rw [hd, hd']
      · exact absurd he.symm (h.gens.new_conn t _ hnew d')
      · exact absurd he (h.gens.new_conn t _ hnew d)
      · exact h.gens.conn_inj d d' he
    · exact h.gens.table_lt
    · exact fun t' g hg => h.gens.new_lt t' g (hnews t' g hg).2
    · intro t' g hg d
      obtain ⟨ht, hold⟩ := hnews t' g hg
      rw [setPc_conns, hgen]
      split
      · rintro rfl
        exact ht (h.gens.new_inj t' t _ hold hnew)
      · exact h.gens.new_conn t' g hold d
    · exact fun t' t'' g hg hg' => h.gens.new_inj t' t'' g (hnews t' g hg).2 (hnews t'' g hg').2
  · exact fun d hd => setConn_of_ne s hd _
  · rw [setPc_conns, setConn_self]
  · exact fun g _ _ => SameFds.of_table rfl g
  · simp only [PcOk, setPc_conns, setConn_self]
    exact ⟨hok.1, trivial, trivial, hok.2⟩

end Kinds

end State

end Cs300Projects.Vunmo
