import Cs300Projects.Vunmo.DescriptorSteps

/-!
# Runs of the Vunmo server

No system call misses its connection, and no descriptor is closed twice, in exactly the runs where
responses are written and requests read on connections that are still connected.
-/

namespace Cs300Projects.Vunmo

namespace State

variable {ι τ : Type*} {s s' : State ι τ} {events : List Event}

/-! ### System calls -/

/-- What a system call of a step is like when it hits its connection. -/
structure Hits (s s' : State ι τ) (e : Event) : Prop where
  owner : e.owner = some e.gen
  table : s.table e.fd = some e.gen
  closed : e.op = .close → s'.table e.fd ≠ some e.gen

lemma Hits.of_event {op : FdOp} {fd gen : Nat} (h : s.table fd = some gen)
    (hclosed : op = .close → s'.table fd ≠ some gen) : Hits s s' (s.event op fd gen) :=
  ⟨h, h, hclosed⟩

/-- What a step guarantees: the invariant, and at most one system call, which hits its connection. -/
structure StepOk (s s' : State ι τ) (events : List Event) : Prop where
  inv : s'.Inv
  length : events.length ≤ 1
  hits : ∀ e ∈ events, Hits s s' e

lemma StepOk.silent (h : s'.Inv) : StepOk s s' [] := ⟨h, Nat.zero_le _, by simp⟩

lemma StepOk.call {e : Event} (h : s'.Inv) (he : Hits s s' e) : StepOk s s' [e] :=
  ⟨h, Nat.le_refl _, by simpa using he⟩

lemma ConnOk.live {c : ι} (h : s.ConnOk c) (hon : (s.conns c).isConnected = true) :
    s.Live (s.conns c).gen (s.conns c).requestFd (s.conns c).notificationFd :=
  h.1 hon

/-- The closed descriptors, each with the connection that it was closed for. -/
def closes (events : List Event) : List (Nat × Nat) :=
  (events.filter (·.op = .close)).map fun e => (e.gen, e.fd)

lemma mem_closes {p : Nat × Nat} :
    p ∈ closes events ↔ ∃ e ∈ events, e.op = .close ∧ (e.gen, e.fd) = p := by
  simp [closes, and_assoc]

lemma nodup_closes (h : events.length ≤ 1) : (closes events).Nodup := by
  have hlen : (closes events).length ≤ 1 := by
    rw [closes, List.length_map]
    exact Nat.le_trans (List.length_filter_le _ _) h
  match hc : closes events, hlen with
  | [], _ => exact List.nodup_nil
  | [p], _ => exact List.pairwise_singleton _ p

lemma closes_append (events events' : List Event) :
    closes (events ++ events') = closes events ++ closes events' := by
  simp [closes]

/-- A descriptor that was open for an earlier connection and has been closed. -/
def Gone (s : State ι τ) (p : Nat × Nat) : Prop := p.1 < s.nextGen ∧ s.table p.2 ≠ some p.1

variable [DecidableEq τ] [DecidableEq ι]

/-! ### The test that two operations do not make -/

/-- `send_notification` tests `is_connected` under the lock that it writes under. This is the same for
the write of `send_response` and the read of `read_request`. -/
def Connected (s : State ι τ) : Action ι τ → Prop
  | .proceed t _ =>
    match s.pc t with
    | .write c .request => (s.conns c).isConnected = true
    | .read c _ => (s.conns c).isConnected = true
    | _ => True
  | _ => True

def AllConnected (s : State ι τ) : List (Action ι τ) → Prop
  | [] => True
  | a :: actions => s.Connected a ∧
    match s.step a with
    | none => True
    | some (s', _) => AllConnected s' actions

/-! ### One step -/

lemma proceed_spec (h : s.Inv) {t : τ} {full : Bool} (hcond : s.Connected (.proceed t full))
    (hstep : s.proceed t full = some (s', events)) : StepOk s s' events := by
  have hok := h.pcs t
  cases hp : s.pc t with
  | reading rest => simp [proceed, hp] at hstep
  | collecting available => simp [proceed, hp] at hstep
  | accepted new => simp [proceed, hp] at hstep
  | write c side =>
    simp only [proceed, hp] at hstep
    cases hstep
    rw [hp] at hok
    have hconn : s.ConnOk c ∧ (s.conns c).isConnected = true := by
      cases side with
      | request =>
        simp only [Connected, hp] at hcond
        exact ⟨hok, hcond⟩
      | notification => exact hok
    have hfd : s.table ((s.conns c).fd side) = some (s.conns c).gen := by
      cases side with
      | request => exact (hconn.1.live hconn.2).left
      | notification => exact (hconn.1.live hconn.2).right
    apply StepOk.call
    · cases full with
      | true => exact h.of_move hp rfl rfl (newGen_of_none rfl) hconn.1
      | false => exact h.of_move hp rfl rfl (newGen_of_none rfl) hconn
    · exact Hits.of_event hfd (by simp)
  | read c rest =>
    simp only [proceed, hp] at hstep
    cases hstep
    rw [hp] at hok
    simp only [Connected, hp] at hcond
    have hlive := ConnOk.live hok hcond
    apply StepOk.call
    · cases full with
      | true => exact h.of_move hp rfl rfl (newGen_of_none rfl) hok
      | false => exact h.of_move hp rfl rfl (newGen_of_none rfl) ⟨hcond, hlive⟩
    · exact Hits.of_event hlive.left (by simp)
  | clearFlag c =>
    simp only [proceed, hp] at hstep
    cases hstep
    rw [hp] at hok
    apply StepOk.silent
    refine h.of_setConn hp rfl rfl rfl rfl (newGen_of_none rfl) ?_
    simp only [PcOk, setPc_conns, setConn_self]
    exact ⟨trivial, hok.1.live hok.2⟩
  | closeRequest c inRead rest =>
    simp only [proceed, hp] at hstep
    cases hstep
    rw [hp] at hok
    apply StepOk.call
    · refine h.of_close hp hok.2.left (Or.inl rfl) rfl rfl (newGen_of_none rfl) ?_
      exact ⟨hok.1, hok.2.close rfl⟩
    · exact Hits.of_event hok.2.left (by simp)
  | closeNotification c inRead rest =>
    simp only [proceed, hp] at hstep
    cases hstep
    rw [hp] at hok
    apply StepOk.call
    · cases inRead with
      | true =>
        refine h.of_close hp hok.2.left (Or.inl rfl) rfl rfl (newGen_of_none rfl) ?_
        exact hok.2.close rfl
      | false =>
        refine h.of_close hp hok.2.left (Or.inl rfl) rfl rfl (newGen_of_none rfl) ?_
        exact ⟨fun hon => absurd (hok.1.symm.trans hon) (by simp), fun _ => hok.2.close rfl⟩
    · exact Hits.of_event hok.2.left (by simp)
  | clearFlagAfter c rest =>
    simp only [proceed, hp] at hstep
    cases hstep
    rw [hp] at hok
    apply StepOk.silent
    refine h.of_setConn hp rfl rfl rfl rfl (newGen_of_none rfl) ?_
    simp only [PcOk, ConnOk, setPc_conns, setConn_self]
    exact ⟨fun hon => absurd hon (by simp), fun _ => hok⟩
  | unlock c rest =>
    simp only [proceed, hp] at hstep
    cases hstep
    rw [hp] at hok
    apply StepOk.silent
    refine h.of_unlock [c] hp rfl rfl (newGen_of_none rfl) ?_ ?_
    · intro d hd
      rw [List.mem_singleton.1 hd]
      exact hok
    · trivial
  | testConnected c new =>
    simp only [proceed, hp] at hstep
    cases hstep
    rw [hp] at hok
    apply StepOk.silent
    cases hon : (s.conns c).isConnected with
    | true => exact h.of_move hp rfl rfl (fun _ hg => hg) hok
    | false => exact h.of_move hp rfl rfl (fun _ hg => hg) ⟨hon, hok.2⟩
  | rejectRequest c new =>
    simp only [proceed, hp] at hstep
    cases hstep
    rw [hp] at hok
    have hnew : (s.pc t).newGen = some new.gen := by rw [hp]; rfl
    apply StepOk.call
    · refine h.of_close hp hok.2.left (Or.inr rfl) rfl rfl (fun _ hg => hg) ?_
      refine ⟨hok.1.frame rfl ?_, hok.2.close rfl⟩
      exact SameFds.of_close rfl hok.2.left (h.gens.new_conn t _ hnew c).symm
    · exact Hits.of_event hok.2.left (by simp)
  | rejectNotification c new =>
    simp only [proceed, hp] at hstep
    cases hstep
    rw [hp] at hok
    have hnew : (s.pc t).newGen = some new.gen := by rw [hp]; rfl
    apply StepOk.call
    · refine h.of_close hp hok.2.left (Or.inr rfl) rfl rfl (newGen_of_none rfl) ?_
      refine ConnOk.frame hok.1 rfl ?_
      exact SameFds.of_close rfl hok.2.left (h.gens.new_conn t _ hnew c).symm
    · exact Hits.of_event hok.2.left (by simp)
  | installRequest c new =>
    simp only [proceed, hp] at hstep
    cases hstep
    exact .silent (h.of_install hp)
  | installNotification c new =>
    simp only [proceed, hp] at hstep
    cases hstep
    rw [hp] at hok
    obtain ⟨-, hgen, hreq, hlive⟩ := hok
    apply StepOk.silent
    refine h.of_setConn hp rfl rfl rfl rfl (newGen_of_none rfl) ?_
    simp only [PcOk, setPc_conns, setConn_self, hgen, hreq]
    exact hlive
  | setFlag c =>
    simp only [proceed, hp] at hstep
    cases hstep
    rw [hp] at hok
    apply StepOk.silent
    refine h.of_setConn hp rfl rfl rfl rfl (newGen_of_none rfl) ?_
    simp only [PcOk, ConnOk, setPc_conns, setConn_self]
    exact ⟨fun _ => hok, fun hoff => absurd hoff (by simp)⟩

/-- One step preserves the invariant, and its system call hits its connection. -/
lemma step_spec (h : s.Inv) {a : Action ι τ} (hcond : s.Connected a)
    (hstep : s.step a = some (s', events)) : StepOk s s' events := by
  cases a with
  | sendResponse t c =>
    simp only [step] at hstep
    split at hstep
    · rename_i hguard
      cases hstep
      apply StepOk.silent
      refine h.of_lock hguard.1 hguard.2 (by simp [Pc.held]) (newGen_of_none rfl) ?_
      exact connOk_lock.2 (h.free c hguard.2)
    · cases hstep
  | sendNotification t c =>
    simp only [step] at hstep
    split at hstep
    · rename_i hguard
      cases hstep
      apply StepOk.silent
      have hok := (connOk_lock (t := t) (c := c)).2 (h.free c hguard.2)
      cases hon : (s.conns c).isConnected with
      | true =>
        refine h.of_lock hguard.1 hguard.2 (by simp [Pc.held]) (newGen_of_none rfl) ⟨hok, ?_⟩
        rw [setPc_conns, lock, setConn_self]
        exact hon
      | false => exact h.of_lock hguard.1 hguard.2 (by simp [Pc.held]) (newGen_of_none rfl) hok
    · cases hstep
  | snapshot t c =>
    simp only [step] at hstep
    split at hstep
    · rename_i hfree
      have hok := (connOk_lock (t := t) (c := c)).2 (h.free c hfree)
      split at hstep
      · rename_i hp
        split at hstep
        · cases hstep
          apply StepOk.silent
          refine h.of_lock hp hfree (by simp [Pc.held]) (newGen_of_none rfl) ?_
          intro d hd
          rw [List.mem_singleton.1 hd]
          exact hok
        · cases hstep
          exact .silent h
      · rename_i available hp
        split at hstep
        · cases hstep
          apply StepOk.silent
          refine h.of_lock hp hfree (by simp [Pc.held]) (newGen_of_none rfl) ?_
          have hall := h.pcs t
          rw [hp] at hall
          intro d hd
          rcases List.mem_append.1 hd with hmem | hmem
          · exact connOk_lock.2 (hall d hmem)
          · rw [List.mem_singleton.1 hmem]
            exact hok
        · cases hstep
          exact .silent h
      · cases hstep
    · cases hstep
  | poll t ready =>
    simp only [step] at hstep
    split at hstep
    · rename_i available hp
      split at hstep
      · cases hstep
        apply StepOk.silent
        have hall := h.pcs t
        rw [hp] at hall
        exact h.of_unlock available hp rfl rfl (newGen_of_none rfl) hall trivial
      · cases hstep
    · cases hstep
  | lockRead t =>
    simp only [step] at hstep
    split at hstep
    · rename_i c rest hp
      split at hstep
      · rename_i hfree
        cases hstep
        apply StepOk.silent
        refine h.of_lock hp hfree (by simp [Pc.held]) (newGen_of_none rfl) ?_
        exact connOk_lock.2 (h.free c hfree)
      · cases hstep
    · cases hstep
  | skipRead t =>
    simp only [step] at hstep
    split at hstep
    · rename_i c rest hp
      cases hstep
      apply StepOk.silent
      exact h.of_unlock [] hp rfl rfl (newGen_of_none rfl) (fun _ hd => absurd hd List.not_mem_nil) trivial
    · cases hstep
  | acceptClient t a b =>
    simp only [step] at hstep
    split at hstep
    · rename_i hguard
      cases hstep
      obtain ⟨hidle, ha, hb, hab⟩ := hguard
      exact .silent (h.of_accept hidle ha hb hab rfl rfl rfl rfl)
    · cases hstep
  | reconnect t c =>
    simp only [step] at hstep
    split at hstep
    · rename_i new hp
      split at hstep
      · rename_i hfree
        cases hstep
        apply StepOk.silent
        have hlive := h.pcs t
        rw [hp] at hlive
        refine h.of_lock hp hfree (by simp [Pc.held]) (fun _ hg => hg) ?_
        exact ⟨connOk_lock.2 (h.free c hfree), hlive⟩
      · cases hstep
    · cases hstep
  | proceed t full => exact proceed_spec h hcond hstep

/-- A response written, or a request read, on a closed connection misses it. -/
lemma step_miss (h : s.Inv) {a : Action ι τ} (hcond : ¬ s.Connected a)
    (hstep : s.step a = some (s', events)) : ∃ e ∈ events, e.owner ≠ some e.gen := by
  cases a with
  | proceed t full =>
    have hok := h.pcs t
    simp only [step] at hstep
    cases hp : s.pc t with
    | write c side =>
      cases side with
      | request =>
        simp only [Connected, hp, Bool.not_eq_true] at hcond
        simp only [proceed, hp] at hstep
        cases hstep
        rw [hp] at hok
        exact ⟨_, List.mem_singleton_self _, hok.2 hcond _⟩
      | notification => exact absurd (by simp [Connected, hp]) hcond
    | read c rest =>
      simp only [Connected, hp, Bool.not_eq_true] at hcond
      simp only [proceed, hp] at hstep
      cases hstep
      rw [hp] at hok
      exact ⟨_, List.mem_singleton_self _, hok.2 hcond _⟩
    | _ => exact absurd (by simp [Connected, hp]) hcond
  | _ => exact absurd trivial hcond

/-! ### Runs -/

lemma proceed_table {t : τ} {full : Bool} (hstep : s.proceed t full = some (s', events)) :
    s'.nextGen = s.nextGen ∧ ∀ n g, s'.table n = some g → s.table n = some g := by
  unfold proceed at hstep
  split at hstep <;> cases hstep
  all_goals first
    | exact ⟨rfl, fun _ _ hn => hn⟩
    | exact ⟨rfl, fun _ _ hn => open_of_close hn⟩

/-- An open descriptor was open before the step, unless its connection is new. -/
lemma step_table {a : Action ι τ} (hstep : s.step a = some (s', events)) :
    s.nextGen ≤ s'.nextGen ∧ ∀ n g, s'.table n = some g → s.table n = some g ∨ g = s.nextGen := by
  cases a with
  | proceed t full =>
    obtain ⟨hnext, htable⟩ := proceed_table hstep
    exact ⟨Nat.le_of_eq hnext.symm, fun n g hn => Or.inl (htable n g hn)⟩
  | acceptClient t a b =>
    simp only [step] at hstep
    split at hstep
    · cases hstep
      refine ⟨Nat.le_succ _, fun n g hn => ?_⟩
      simp only [setPc_table, setFd_table, Function.update_apply] at hn
      split at hn
      · exact Or.inr (Option.some.inj hn).symm
      · split at hn
        · exact Or.inr (Option.some.inj hn).symm
        · exact Or.inl hn
    · cases hstep
  | poll t ready =>
    simp only [step] at hstep
    split at hstep
    · split at hstep
      · cases hstep
        rw [setPc_nextGen, setPc_table, unlockAll_nextGen, unlockAll_table]
        exact ⟨Nat.le_refl _, fun _ _ hn => Or.inl hn⟩
      · cases hstep
    · cases hstep
  | _ =>
    simp only [step] at hstep
    repeat' split at hstep
    all_goals cases hstep
    all_goals exact ⟨Nat.le_refl _, fun _ _ hn => Or.inl hn⟩

lemma Gone.after {a : Action ι τ} {p : Nat × Nat} (h : s.Gone p)
    (hstep : s.step a = some (s', events)) : s'.Gone p := by
  obtain ⟨hnext, htable⟩ := step_table hstep
  refine ⟨Nat.lt_of_lt_of_le h.1 hnext, fun hopen => ?_⟩
  rcases htable p.2 p.1 hopen with hold | hnew
  · exact h.2 hold
  · exact absurd hnew (Nat.ne_of_lt h.1)

lemma Hits.gone {a : Action ι τ} {e : Event} (h : s.Inv) (hstep : s.step a = some (s', events))
    (he : Hits s s' e) (hclose : e.op = .close) : s'.Gone (e.gen, e.fd) :=
  ⟨Nat.lt_of_lt_of_le (h.gens.table_lt e.fd e.gen he.table) (step_table hstep).1, he.closed hclose⟩

/-- No system call is made for a client once it is disconnected and its descriptors are closed. -/
def Quiet (s : State ι τ) : List (Action ι τ) → Prop
  | [] => True
  | a :: actions =>
    match s.step a with
    | none => True
    | some (s', events) =>
      (∀ c, (s.conns c).isConnected = false → s.Closed (s.conns c).gen →
        ∀ e ∈ events, e.gen ≠ (s.conns c).gen) ∧ Quiet s' actions

/-- Every system call of a run hits a descriptor that is open for the connection it is made for. -/
structure Safe (s : State ι τ) (actions : List (Action ι τ)) (events : List Event) : Prop where
  quiet : s.Quiet actions
  owner : ∀ e ∈ events, e.owner = some e.gen
  nodup : (closes events).Nodup

/-- No thread is inside an operation, the descriptors of each client are open exactly while it is
connected, and no two clients stand for the same accepted connection. -/
structure Start (s : State ι τ) : Prop where
  idle : ∀ t, s.pc t = .reading []
  unlocked : ∀ c, (s.conns c).mtx = none
  conns : ∀ c, s.ConnOk c
  conn_lt : ∀ c, (s.conns c).gen < s.nextGen
  conn_inj : ∀ c c', (s.conns c).gen = (s.conns c').gen → c = c'
  table_lt : ∀ n g, s.table n = some g → g < s.nextGen

lemma run_cons {a : Action ι τ} {actions : List (Action ι τ)}
    (hrun : s.run (a :: actions) = some (s', events)) :
    ∃ s₁ events₁ events₂, s.step a = some (s₁, events₁) ∧ s₁.run actions = some (s', events₂) ∧
      events = events₁ ++ events₂ := by
  simp only [run] at hrun
  split at hrun
  · cases hrun
  · rename_i s₁ events₁ hstep
    split at hrun
    · cases hrun
    · rename_i s₂ events₂ hrest
      cases hrun
      exact ⟨s₁, events₁, events₂, hstep, hrest, rfl⟩

lemma AllConnected.after {a : Action ι τ} {actions : List (Action ι τ)}
    (h : s.AllConnected (a :: actions)) (hstep : s.step a = some (s', events)) :
    s'.AllConnected actions := by
  have hrest := h.2
  rw [hstep] at hrest
  exact hrest

lemma quiet_of_connected (actions : List (Action ι τ)) (h : s.Inv) (hall : s.AllConnected actions) :
    s.Quiet actions := by
  induction actions generalizing s with
  | nil => trivial
  | cons a actions ih =>
    unfold Quiet
    split
    · trivial
    · rename_i s' events hstep
      have hspec := step_spec h hall.1 hstep
      refine ⟨fun c _ hclosed e he hgen => ?_, ih hspec.inv (hall.after hstep)⟩
      exact hclosed e.fd (hgen ▸ (hspec.hits e he).table)

lemma run_owner (actions : List (Action ι τ)) (h : s.Inv) (hall : s.AllConnected actions)
    (hrun : s.run actions = some (s', events)) : ∀ e ∈ events, e.owner = some e.gen := by
  induction actions generalizing s events with
  | nil =>
    cases hrun
    simp
  | cons a actions ih =>
    obtain ⟨s₁, events₁, events₂, hstep, hrest, rfl⟩ := run_cons hrun
    have hspec := step_spec h hall.1 hstep
    intro e he
    rcases List.mem_append.1 he with hfirst | hlater
    · exact (hspec.hits e hfirst).owner
    · exact ih hspec.inv (hall.after hstep) hrest e hlater

/-- A closed descriptor is not closed again: it is gone after the step that closes it. -/
lemma run_closes (actions : List (Action ι τ)) (h : s.Inv) (hall : s.AllConnected actions)
    (hrun : s.run actions = some (s', events)) :
    (∀ p, s.Gone p → p ∉ closes events) ∧ (closes events).Nodup := by
  induction actions generalizing s events with
  | nil =>
    cases hrun
    simp [closes]
  | cons a actions ih =>
    obtain ⟨s₁, events₁, events₂, hstep, hrest, rfl⟩ := run_cons hrun
    have hspec := step_spec h hall.1 hstep
    obtain ⟨hgone, hnodup⟩ := ih hspec.inv (hall.after hstep) hrest
    rw [closes_append]
    constructor
    · intro p hp hmem
      rcases List.mem_append.1 hmem with hfirst | hlater
      · obtain ⟨e, he, -, rfl⟩ := mem_closes.1 hfirst
        exact hp.2 (hspec.hits e he).table
      · exact hgone p (hp.after hstep) hlater
    · rw [List.nodup_append]
      refine ⟨nodup_closes hspec.length, hnodup, fun p hp q hq heq => ?_⟩
      obtain ⟨e, he, hclose, rfl⟩ := mem_closes.1 hp
      exact hgone _ ((hspec.hits e he).gone h hstep hclose) (heq ▸ hq)

lemma connected_of_owner (actions : List (Action ι τ)) (h : s.Inv)
    (hrun : s.run actions = some (s', events)) (howner : ∀ e ∈ events, e.owner = some e.gen) :
    s.AllConnected actions := by
  induction actions generalizing s events with
  | nil => trivial
  | cons a actions ih =>
    obtain ⟨s₁, events₁, events₂, hstep, hrest, rfl⟩ := run_cons hrun
    have hcond : s.Connected a := by
      by_contra hcond
      obtain ⟨e, he, hmiss⟩ := step_miss h hcond hstep
      exact hmiss (howner e (List.mem_append_left _ he))
    refine ⟨hcond, ?_⟩
    rw [hstep]
    apply ih (step_spec h hcond hstep).1 hrest
    intro e he
    exact howner e (List.mem_append_right _ he)

omit [DecidableEq ι] [DecidableEq τ] in
lemma Start.inv (h : s.Start) : s.Inv := by
  have hnone : ∀ t, (s.pc t).newGen = none := fun t => by rw [h.idle t]; rfl
  constructor
  · exact ⟨h.conn_lt, h.conn_inj, h.table_lt, fun t g hg => by simp [hnone] at hg,
      fun t g hg => by simp [hnone] at hg, fun t t' g hg => by simp [hnone] at hg⟩
  · intro t c
    rw [h.idle t, h.unlocked c]
    simp [Pc.held]
  · exact fun c _ => h.conns c
  · intro t
    rw [h.idle t]
    trivial

/-- A run keeps to open descriptors exactly when its responses are written, and its requests read, on
clients that are connected at that moment. -/
theorem safe_iff_connected (h : s.Start) (actions : List (Action ι τ))
    (hrun : s.run actions = some (s', events)) : s.Safe actions events ↔ s.AllConnected actions := by
  constructor
  · intro hsafe
    exact connected_of_owner actions h.inv hrun hsafe.owner
  · intro hall
    exact ⟨quiet_of_connected actions h.inv hall, run_owner actions h.inv hall hrun,
      (run_closes actions h.inv hall hrun).2⟩

/-- Client 0 is connected, client 1 has left. -/
def sampleState : State (Fin 2) Nat where
  conns c := if c = 0 then ⟨3, 4, true, none, 0⟩ else ⟨5, 6, false, none, 1⟩
  pc _ := .reading []
  table n := if n = 3 ∨ n = 4 then some 0 else none
  nextGen := 2

lemma sampleState_start : sampleState.Start := by
  constructor
  · exact fun _ => rfl
  · decide
  · intro c
    by_cases hc : c = 0
    · simp only [ConnOk, Live, Closed, sampleState, hc]
      simp only [ite_true, Option.ite_none_right_eq_some]
      simp
    · simp [ConnOk, Live, Closed, sampleState, hc]
  · decide
  · decide
  · intro n g hn
    simp only [sampleState, Option.ite_none_right_eq_some, Option.some.injEq] at hn
    rw [← hn.2]
    decide

/-- A response that is cut short: client 0 is disconnected under its lock. -/
theorem safe_iff_connected_sample : ∃ s' events,
    sampleState.run [.sendResponse 7 0, .proceed 7 false, .proceed 7 true, .proceed 7 true, .proceed 7 true,
      .proceed 7 true] = some (s', events) ∧
    sampleState.Safe [.sendResponse 7 0, .proceed 7 false, .proceed 7 true, .proceed 7 true, .proceed 7 true,
      .proceed 7 true] events :=
  ⟨_, _, rfl, (safe_iff_connected sampleState_start _ rfl).2
    ⟨trivial, rfl, trivial, trivial, trivial, trivial, trivial⟩⟩

/-- Client 0 hangs up while its request is read. Client 1 reconnects and gets its descriptor numbers. Then
a response to client 0 is written to a descriptor of client 1, and both are closed for it. -/
def lateResponse : List (Action (Fin 2) Nat) :=
  [.snapshot 1 0, .poll 1 [0], .lockRead 1, .proceed 1 false, .proceed 1 true, .proceed 1 true,
    .proceed 1 true, .proceed 1 true,
    .acceptClient 2 3 4, .reconnect 2 1, .proceed 2 true, .proceed 2 true, .proceed 2 true, .proceed 2 true,
    .proceed 2 true,
    .sendResponse 7 0, .proceed 7 false, .proceed 7 true, .proceed 7 true, .proceed 7 true]

theorem response_reaches_other_client : ∃ s' events,
    sampleState.run lateResponse = some (s', events) ∧ ⟨.write, 3, 0, some 2⟩ ∈ events ∧
      (s'.conns 1).gen = 2 ∧ (s'.conns 1).requestFd = 3 ∧ ¬ (closes events).Nodup ∧
      ¬ sampleState.Safe lateResponse events := by
  refine ⟨_, _, rfl, ?_, rfl, rfl, ?_, ?_⟩
  · decide
  · decide
  · intro hsafe
    exact absurd hsafe.nodup (by decide)

end State

end Cs300Projects.Vunmo
