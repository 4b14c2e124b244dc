import Cs300Projects.Vunmo.Accept

/-!
# Where the accepted descriptors are

`accept_client` closes nothing. A descriptor is held by the entry of a client that waits for its other one, or by a
connection that was returned; one that is held by neither is open without anyone knowing it.
-/

namespace Cs300Projects.Vunmo

open Loop

/-- The descriptor that `accept` has returned. -/
def Arrival.accepted : Arrival → Option Nat
  | .stopped fd => fd
  | .short fd => some fd
  | .hello fd _ _ => some fd

inductive Place where
  | pending (id : BitVec 64)
  | returned (i : Nat)
  deriving DecidableEq

/-- The connection at a place. -/
def connAt (returned : List ClientConn) (s : Acceptor) : Place → Option ClientConn
  | .pending id => s.incompleteConns id
  | .returned i => returned[i]?

/-- Every descriptor accepted with the arrivals is held in one place, by the client that sent it. -/
def EachHeld (arrivals : List Arrival) : Prop :=
  ∀ k a fd, arrivals[k]? = some a → a.accepted = some fd →
    ∃! place, ∃ c type, connAt (acceptAll .start arrivals).1 (acceptAll .start arrivals).2 place = some c ∧
      c.Has ⟨fd, k⟩ ∧ a = .hello fd c.id type

/-- The arrival brings a descriptor that can be kept: with a complete hello, for a half that its client does not have
yet; or it brings none. -/
def Acceptor.Keeps (s : Acceptor) : Arrival → Prop
  | .stopped fd => fd = none
  | .short _ => False
  | .hello _ id type =>
    (type = requestsHello ∧ ∀ p, s.incompleteConns id = some p → p.requestFd = none) ∨
      (type = notificationsHello ∧ ∀ p, s.incompleteConns id = some p → p.notificationFd = none)

section Holders

variable {s : Acceptor} {past : List Arrival} {returned : List ClientConn} {c : ClientConn} {d : Descriptor}

/-- The connection is returned, or waits. -/
def Holder (returned : List ClientConn) (s : Acceptor) (c : ClientConn) : Prop :=
  c ∈ returned ∨ ∃ id, s.incompleteConns id = some c

lemma holder_iff : Holder returned s c ↔ ∃ place, connAt returned s place = some c := by
  constructor
  · rintro (hc | ⟨id, hc⟩)
    · obtain ⟨i, hi⟩ := List.mem_iff_getElem?.1 hc
      exact ⟨.returned i, hi⟩
    · exact ⟨.pending id, hc⟩
  · rintro ⟨place, hc⟩
    cases place with
    | pending id => exact Or.inr ⟨id, hc⟩
    | returned i => exact Or.inl (List.mem_of_getElem? hc)

lemma Acceptor.Inv.from (h : s.Inv past returned) (hc : Holder returned s c) : c.From past := by
  rcases hc with hc | ⟨id, hc⟩
  · exact (h.complete c hc).1
  · exact (h.pending id c hc).2

/-- A descriptor is in one place. -/
lemma Acceptor.Inv.place_unique (h : s.Inv past returned) {place place' : Place} {c' : ClientConn}
    (hc : connAt returned s place = some c) (hd : c.Has d) (hc' : connAt returned s place' = some c') (hd' : c'.Has d) :
    place = place' := by
  cases place with
  | pending id =>
    cases place' with
    | pending id' =>
      obtain ⟨hid, hfrom⟩ := h.pending id c hc
      obtain ⟨hid', hfrom'⟩ := h.pending id' c' hc'
      by_contra hne
      exact hfrom.apart hfrom' (by rintro heq; exact hne (by rw [← hid, ← hid', heq])) d hd hd'
    | returned i => exact absurd hd (h.apart_pending c' (List.mem_of_getElem? hc') id c hc d hd')
  | returned i =>
    cases place' with
    | pending id' => exact absurd hd' (h.apart_pending c (List.mem_of_getElem? hc) id' c' hc' d hd)
    | returned j =>
      obtain ⟨hi, rfl⟩ := List.getElem?_eq_some_iff.1 hc
      obtain ⟨hj, rfl⟩ := List.getElem?_eq_some_iff.1 hc'
      rcases Nat.lt_trichotomy i j with hlt | rfl | hgt
      · exact absurd hd' (List.pairwise_iff_getElem.1 h.apart i j hi hj hlt d hd)
      · rfl
      · exact absurd hd (List.pairwise_iff_getElem.1 h.apart j i hj hi hgt d hd')

/-- Every accepted descriptor has a holder. -/
def Covered (past : List Arrival) (returned : List ClientConn) (s : Acceptor) : Prop :=
  ∀ k a fd, past[k]? = some a → a.accepted = some fd → ∃ c, Holder returned s c ∧ c.Has ⟨fd, k⟩

lemma eachHeld_iff (arrivals : List Arrival) :
    EachHeld arrivals ↔ Covered arrivals (acceptAll .start arrivals).1 (acceptAll .start arrivals).2 := by
  have hinv := Acceptor.start_inv.all arrivals
  rw [List.nil_append, List.nil_append] at hinv
  constructor
  · intro h k a fd ha hfd
    obtain ⟨place, ⟨c, type, hc, hd, -⟩, -⟩ := h k a fd ha hfd
    exact ⟨c, holder_iff.2 ⟨place, hc⟩, hd⟩
  · intro h k a fd ha hfd
    obtain ⟨c, hholder, hd⟩ := h k a fd ha hfd
    obtain ⟨type, htype⟩ := (hinv.from hholder).of_has hd
    obtain ⟨place, hc⟩ := holder_iff.1 hholder
    rw [ha, Option.some.injEq] at htype
    refine ⟨place, ⟨c, type, hc, hd, htype⟩, ?_⟩
    rintro place' ⟨c', type', hc', hd', -⟩
    exact hinv.place_unique hc' hd' hc hd

end Holders

/-! ### One more arrival -/

section Step

variable {s : Acceptor} {past : List Arrival} {returned : List ClientConn} {c : ClientConn} {a : Arrival}

/-- The connections returned and the state after one more arrival. -/
def acceptNext (returned : List ClientConn) (s : Acceptor) (a : Arrival) : List ClientConn × Acceptor :=
  match acceptRound s a with
  | .next s' => (returned, s')
  | .done (r, s') => (returned ++ r.toList, s')

lemma acceptAll_append (s : Acceptor) (before : List Arrival) (a : Arrival) :
    acceptAll s (before ++ [a]) = acceptNext (acceptAll s before).1 (acceptAll s before).2 a := by
  induction before generalizing s with
  | nil =>
    rw [List.nil_append, acceptAll, acceptAll]
    unfold acceptNext
    cases acceptRound s a with
    | next s' => rfl
    | done r =>
      obtain ⟨r, s'⟩ := r
      dsimp only
      rw [acceptAll, List.append_nil, List.nil_append]
  | cons b before ih =>
    rw [List.cons_append, acceptAll, acceptAll]
    cases acceptRound s b with
    | next s' => exact ih s'
    | done r =>
      obtain ⟨r, s'⟩ := r
      dsimp only
      rw [ih]
      unfold acceptNext
      cases acceptRound (acceptAll s' before).2 a with
      | next s'' => rfl
      | done r'' => simp

/-- The client that waits at `id`, or a new one, with the descriptor of a hello. -/
def clientWith (s : Acceptor) (d : Descriptor) (id : BitVec 64) (type : BitVec 32) : ClientConn :=
  let client := (s.incompleteConns id).getD ⟨id, none, none⟩
  if type = requestsHello then { client with requestFd := some d }
  else if type = notificationsHello then { client with notificationFd := some d }
  else client

/-- A hello changes the holder of its client's descriptors, whether this one goes on waiting or is returned. -/
lemma holder_hello (fd : Nat) (id : BitVec 64) (type : BitVec 32) :
    Holder (acceptNext returned s (.hello fd id type)).1 (acceptNext returned s (.hello fd id type)).2 c ↔
      c ∈ returned ∨ c = clientWith s ⟨fd, s.serial⟩ id type ∨ ∃ id' ≠ id, s.incompleteConns id' = some c := by
  have hupdate : ∀ r : Option ClientConn, (∃ id', Function.update s.incompleteConns id r id' = some c) ↔
      r = some c ∨ ∃ id' ≠ id, s.incompleteConns id' = some c := by
    intro r
    constructor
    · rintro ⟨id', hid'⟩
      by_cases heq : id' = id
      · rw [heq, Function.update_self] at hid'
        exact Or.inl hid'
      · rw [Function.update_of_ne heq] at hid'
        exact Or.inr ⟨id', heq, hid'⟩
    · rintro (hr | ⟨id', hne, hid'⟩)
      · exact ⟨id, by rw [Function.update_self, hr]⟩
      · exact ⟨id', by rw [Function.update_of_ne hne, hid']⟩
  have hsome : ∀ client, some client = some c ↔ c = client := by
    intro client
    rw [Option.some.injEq, eq_comm]
  unfold acceptNext acceptRound clientWith Holder
  dsimp only
  generalize (s.incompleteConns id).getD ⟨id, none, none⟩ = client
  by_cases hbad : type ≠ requestsHello ∧ type ≠ notificationsHello
  · simp only [if_pos hbad, if_neg hbad.1, if_neg hbad.2, hupdate, hsome]
  · rw [if_neg hbad]
    generalize (if type = requestsHello then { client with requestFd := some ⟨fd, s.serial⟩ }
      else if type = notificationsHello then { client with notificationFd := some ⟨fd, s.serial⟩ }
      else client : ClientConn) = client'
    by_cases hready : client'.requestFd.isSome = true ∧ client'.notificationFd.isSome = true
    · simp only [if_pos hready, hupdate, Option.toList_some, List.mem_append, List.mem_singleton, reduceCtorEq, false_or,
        or_assoc]
    · simp only [if_neg hready, hupdate, hsome]

lemma Acceptor.Inv.next (h : s.Inv past returned) (a : Arrival) :
    (acceptNext returned s a).2.Inv (past ++ [a]) (acceptNext returned s a).1 := by
  obtain ⟨hnext, hdone⟩ := h.round a
  unfold acceptNext
  cases hround : acceptRound s a with
  | next s' => exact hnext s' hround
  | done r => exact (hdone r.1 r.2 hround).1

/-- A descriptor that is lost with the arrival of another one. -/
lemma Acceptor.Inv.not_covered (h : s.Inv past returned) {fd : Nat} {id : BitVec 64} {type : BitVec 32} {p : ClientConn}
    {d : Descriptor} (hp : s.incompleteConns id = some p) (hd : p.Has d)
    (hlost : ¬ (clientWith s ⟨fd, s.serial⟩ id type).Has d) :
    ¬ Covered (past ++ [.hello fd id type]) (acceptNext returned s (.hello fd id type)).1
      (acceptNext returned s (.hello fd id type)).2 := by
  intro hcovered
  obtain ⟨hid, hfrom⟩ := h.pending id p hp
  obtain ⟨type', hpast⟩ := hfrom.of_has hd
  have hstill : (past ++ [.hello fd id type])[d.serial]? = some (.hello d.fd p.id type') := by
    rw [List.getElem?_append_left (hfrom.serial_lt hd)]
    exact hpast
  obtain ⟨c, hholder, hc⟩ := hcovered d.serial _ d.fd hstill rfl
  rcases (holder_hello fd id type).1 hholder with hreturned | rfl | ⟨id', hne, hpending⟩
  · exact h.apart_pending c hreturned id p hp d hc hd
  · exact hlost hc
  · obtain ⟨hid', hfrom'⟩ := h.pending id' c hpending
    exact hfrom'.apart hfrom (by rw [hid, hid']; exact hne) d hc hd

lemma getElem?_snoc {k : Nat} {a' : Arrival} (h : (past ++ [a])[k]? = some a') :
    past[k]? = some a' ∨ (k = past.length ∧ a' = a) := by
  rw [List.getElem?_append] at h
  split at h
  · exact Or.inl h
  · rw [List.getElem?_singleton] at h
    split at h
    · exact Or.inr ⟨by omega, (Option.some.inj h).symm⟩
    · cases h

section Keeps

variable {fd : Nat} {id : BitVec 64} {type : BitVec 32}

lemma Acceptor.Keeps.has_new (h : s.Keeps (.hello fd id type)) (d : Descriptor) : (clientWith s d id type).Has d := by
  unfold clientWith
  rcases h with ⟨rfl, -⟩ | ⟨rfl, -⟩
  · exact Or.inl rfl
  · exact Or.inr rfl

lemma Acceptor.Keeps.has_old (h : s.Keeps (.hello fd id type)) {p : ClientConn} (hp : s.incompleteConns id = some p)
    {d' : Descriptor} (hd' : p.Has d') (d : Descriptor) : (clientWith s d id type).Has d' := by
  unfold clientWith
  rw [hp, Option.getD_some]
  rcases h with ⟨rfl, hfree⟩ | ⟨rfl, hfree⟩
  · refine Or.inr (hd'.resolve_left ?_)
    rw [hfree p hp]
    exact nofun
  · refine Or.inl (hd'.resolve_right ?_)
    rw [hfree p hp]
    exact nofun

end Keeps

/-- All descriptors that were held are held after an arrival that can be kept. -/
lemma Acceptor.Inv.covered_next (h : s.Inv past returned) (hcovered : Covered past returned s) (hkeeps : s.Keeps a) :
    Covered (past ++ [a]) (acceptNext returned s a).1 (acceptNext returned s a).2 := by
  intro k a' fd hk hfd
  cases a with
  | short fd' => exact hkeeps.elim
  | stopped fd' =>
    rcases getElem?_snoc hk with hold | ⟨-, rfl⟩
    · obtain ⟨c, hholder, hc⟩ := hcovered k a' fd hold hfd
      exact ⟨c, hholder.imp_left (List.mem_append_left _), hc⟩
    · have hnone : (Arrival.stopped fd').accepted = none := hkeeps
      rw [hnone] at hfd
      cases hfd
  | hello fd' id type =>
    rcases getElem?_snoc hk with hold | ⟨hlast, rfl⟩
    · obtain ⟨c, hholder, hc⟩ := hcovered k a' fd hold hfd
      rcases hholder with hreturned | ⟨id', hpending⟩
      · exact ⟨c, (holder_hello fd' id type).2 (Or.inl hreturned), hc⟩
      · by_cases hid : id' = id
        · subst hid
          exact ⟨_, (holder_hello fd' id' type).2 (Or.inr (Or.inl rfl)), hkeeps.has_old hpending hc _⟩
        · exact ⟨c, (holder_hello fd' id type).2 (Or.inr (Or.inr ⟨id', hid, hpending⟩)), hc⟩
    · obtain rfl : fd' = fd := Option.some.inj hfd
      refine ⟨_, (holder_hello fd' id type).2 (Or.inr (Or.inl rfl)), ?_⟩
      rw [hlast, ← h.serial]
      exact hkeeps.has_new _

/-- An arrival after which all descriptors are held can be kept. -/
lemma Acceptor.Inv.keeps_of_covered (h : s.Inv past returned)
    (hcovered : Covered (past ++ [a]) (acceptNext returned s a).1 (acceptNext returned s a).2) : s.Keeps a := by
  -- the holder of the new descriptor has it from a complete hello
  have hnew : ∀ fd, a.accepted = some fd → ∃ id type, a = .hello fd id type ∧
      (type = requestsHello ∨ type = notificationsHello) := by
    intro fd hfd
    have hlast : (past ++ [a])[past.length]? = some a := by simp
    obtain ⟨c, hholder, hc⟩ := hcovered past.length a fd hlast hfd
    have hfrom := (h.next a).from hholder
    rcases hc with hrequest | hnotification
    · have heq := hfrom.request _ hrequest
      rw [hlast, Option.some.injEq] at heq
      exact ⟨c.id, requestsHello, heq, Or.inl rfl⟩
    · have heq := hfrom.notification _ hnotification
      rw [hlast, Option.some.injEq] at heq
      exact ⟨c.id, notificationsHello, heq, Or.inr rfl⟩
  cases a with
  | stopped fd =>
    cases fd with
    | none => rfl
    | some fd =>
      obtain ⟨id, type, heq, -⟩ := hnew fd rfl
      cases heq
  | short fd =>
    obtain ⟨id, type, heq, -⟩ := hnew fd rfl
    cases heq
  | hello fd id type =>
    obtain ⟨id', type', heq, htype⟩ := hnew fd rfl
    obtain ⟨-, rfl, rfl⟩ := Arrival.hello.inj heq
    have hkept : ∀ p d, s.incompleteConns id = some p → p.Has d →
        (clientWith s ⟨fd, s.serial⟩ id type).Has d ∧ (⟨fd, s.serial⟩ : Descriptor) ≠ d ∧
          ¬ (p.requestFd = some d ∧ p.notificationFd = some d) := by
      intro p d hp hd
      have hfrom := (h.pending id p hp).2
      refine ⟨?_, ?_, ?_⟩
      · by_contra hlost
        exact h.not_covered hp hd hlost hcovered
      · rintro rfl
        have hlt := hfrom.serial_lt hd
        rw [h.serial] at hlt
        exact Nat.lt_irrefl _ hlt
      · rintro ⟨hrequest, hnotification⟩
        have heq := hfrom.notification d hnotification
        rw [hfrom.request d hrequest] at heq
        exact absurd (Arrival.hello.inj (Option.some.inj heq)).2.2 (by decide)
    rcases htype with rfl | rfl
    · refine Or.inl ⟨rfl, fun p hp => ?_⟩
      by_contra hne
      obtain ⟨d, hd⟩ := Option.ne_none_iff_exists'.1 hne
      obtain ⟨hhas, hold, honce⟩ := hkept p d hp (Or.inl hd)
      unfold clientWith at hhas
      rw [hp, Option.getD_some, if_pos rfl] at hhas
      rcases hhas with hrequest | hnotification
      · exact hold (Option.some.inj hrequest)
      · exact honce ⟨hd, hnotification⟩
    · refine Or.inr ⟨rfl, fun p hp => ?_⟩
      by_contra hne
      obtain ⟨d, hd⟩ := Option.ne_none_iff_exists'.1 hne
      obtain ⟨hhas, hold, honce⟩ := hkept p d hp (Or.inr hd)
      unfold clientWith at hhas
      rw [hp, Option.getD_some, if_neg (by decide), if_pos rfl] at hhas
      rcases hhas with hrequest | hnotification
      · exact honce ⟨hrequest, hd⟩
      · exact hold (Option.some.inj hnotification)

end Step

/-- All descriptors of a run are held at all times exactly when each arrival can be kept in the state in which it comes. -/
theorem descriptors_held_iff (arrivals : List Arrival) :
    (∀ before, before <+: arrivals → EachHeld before) ↔
      ∀ before a, before ++ [a] <+: arrivals → (acceptAll .start before).2.Keeps a := by
  have hinv : ∀ before, (acceptAll .start before).2.Inv before (acceptAll .start before).1 := by
    intro before
    have h := Acceptor.start_inv.all before
    rwa [List.nil_append, List.nil_append] at h
  simp only [eachHeld_iff]
  constructor
  · intro h before a hprefix
    have hcovered := h (before ++ [a]) hprefix
    rw [acceptAll_append] at hcovered
    exact (hinv before).keeps_of_covered hcovered
  · intro h before
    induction before using List.reverseRecOn with
    | nil =>
      intro _ k a fd hk
      cases hk
    | append_singleton before a ih =>
      intro hprefix
      rw [acceptAll_append]
      exact (hinv before).covered_next (ih ((List.prefix_append before [a]).trans hprefix)) (h before a hprefix)

/-- The descriptor of a client that closes its connection before its hello is complete is dropped. -/
theorem descriptor_dropped : ¬ ∀ arrivals before : List Arrival, before <+: arrivals → EachHeld before := by
  intro h
  obtain ⟨place, ⟨c, type, -, -, heq⟩, -⟩ := h [.short 5] [.short 5] (List.prefix_refl _) 0 (.short 5) 5 rfl rfl
  cases heq

end Cs300Projects.Vunmo
