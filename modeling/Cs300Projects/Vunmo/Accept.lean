import Cs300Projects.Lib.Loop
import Mathlib.Data.BitVec
import Mathlib.Logic.Function.Basic

/-!
# Accepting clients

`accept_client` of `vunmo-server.cc`, called again and again. A client's two descriptors arrive with one hello
each, in any order and between those of other clients; what has come of a client waits in `incomplete_conns`.
A descriptor is the number that `accept` returned, together with the place of its arrival.
-/

namespace Cs300Projects.Vunmo

open Loop

def requestsHello : BitVec 32 := 0
def notificationsHello : BitVec 32 := 1

/-- What `accept` and the read of the hello give. A call that finds the server stopped may have accepted a socket. -/
inductive Arrival where
  | stopped (fd : Option Nat)
  | short (fd : Nat)
  | hello (fd : Nat) (clientId : BitVec 64) (type : BitVec 32)
  deriving DecidableEq

/-- `serial` counts the arrivals: the number of a descriptor may be given again after it is closed. -/
structure Descriptor where
  fd : Nat
  serial : Nat
  deriving DecidableEq

/-- The fields that `accept_client` sets; a descriptor of -1 is `none`. -/
structure ClientConn where
  id : BitVec 64
  requestFd : Option Descriptor
  notificationFd : Option Descriptor
  deriving DecidableEq

structure Acceptor where
  incompleteConns : BitVec 64 → Option ClientConn
  serial : Nat

/-- One round of the loop of `accept_client`, which ends with `none` for `nullptr`. -/
def acceptRound (s : Acceptor) : Arrival → Round Acceptor (Option ClientConn × Acceptor)
  | .stopped _ => .done (none, { s with serial := s.serial + 1 })
  | .short _ => .next { s with serial := s.serial + 1 }
  | .hello fd clientId type =>
    let cfd : Descriptor := ⟨fd, s.serial⟩
    -- if no existing incomplete client connection, create one
    let client := (s.incompleteConns clientId).getD ⟨clientId, none, none⟩
    -- set correct fd in client
    let client' :=
      if type = requestsHello then { client with requestFd := some cfd }
      else if type = notificationsHello then { client with notificationFd := some cfd }
      else client
    if type ≠ requestsHello ∧ type ≠ notificationsHello then
      .next ⟨Function.update s.incompleteConns clientId (some client), s.serial + 1⟩
    else if client'.requestFd.isSome ∧ client'.notificationFd.isSome then
      -- if client ready, remove from incomplete connections and return it
      .done (some client', ⟨Function.update s.incompleteConns clientId none, s.serial + 1⟩)
    else .next ⟨Function.update s.incompleteConns clientId (some client'), s.serial + 1⟩

/-- A call on the arrivals from now on: what it returns and the arrivals that it leaves, or `none` while it waits. -/
def acceptClient (s : Acceptor) : List Arrival → Option (Option ClientConn × Acceptor × List Arrival)
  | [] => none
  | a :: arrivals =>
    match acceptRound s a with
    | .next s' => acceptClient s' arrivals
    | .done (r, s') => some (r, s', arrivals)

/-- Calls of `accept_client` one after the other: the connections returned and the state after all arrivals. -/
def acceptAll (s : Acceptor) : List Arrival → List ClientConn × Acceptor
  | [] => ([], s)
  | a :: arrivals =>
    match acceptRound s a with
    | .next s' => acceptAll s' arrivals
    | .done (r, s') => (r.toList ++ (acceptAll s' arrivals).1, (acceptAll s' arrivals).2)

def Acceptor.start : Acceptor := ⟨fun _ => none, 0⟩

/-- The descriptor is one of the connection's. -/
def ClientConn.Has (c : ClientConn) (d : Descriptor) : Prop := c.requestFd = some d ∨ c.notificationFd = some d

/-- No descriptor belongs to both. -/
def ClientConn.Apart (c c' : ClientConn) : Prop := ∀ d, c.Has d → ¬c'.Has d

/-! ### What one arrival does -/

/-- The descriptors of the connection came with hellos of its client, each of its own type. -/
structure ClientConn.From (c : ClientConn) (past : List Arrival) : Prop where
  request : ∀ d, c.requestFd = some d → past[d.serial]? = some (.hello d.fd c.id requestsHello)
  notification : ∀ d, c.notificationFd = some d → past[d.serial]? = some (.hello d.fd c.id notificationsHello)

section From

variable {c c' : ClientConn} {past : List Arrival} {d : Descriptor}

lemma ClientConn.From.of_has (h : c.From past) (hd : c.Has d) :
    ∃ type, past[d.serial]? = some (.hello d.fd c.id type) := by
  cases hd with
  | inl hrequest => exact ⟨_, h.request d hrequest⟩
  | inr hnotification => exact ⟨_, h.notification d hnotification⟩

lemma ClientConn.From.serial_lt (h : c.From past) (hd : c.Has d) : d.serial < past.length := by
  obtain ⟨type, hpast⟩ := h.of_has hd
  exact (List.getElem?_eq_some_iff.1 hpast).1

lemma ClientConn.From.append (h : c.From past) (a : Arrival) : c.From (past ++ [a]) := by
  constructor
  case request =>
    intro d hd
    rw [List.getElem?_append_left (h.serial_lt (Or.inl hd))]
    exact h.request d hd
  case notification =>
    intro d hd
    rw [List.getElem?_append_left (h.serial_lt (Or.inr hd))]
    exact h.notification d hd

/-- An arrival has one client. -/
lemma ClientConn.From.apart (h : c.From past) (h' : c'.From past) (hid : c.id ≠ c'.id) : c.Apart c' := by
  intro d hd hd'
  obtain ⟨type, hpast⟩ := h.of_has hd
  obtain ⟨type', hpast'⟩ := h'.of_has hd'
  rw [hpast, Option.some.injEq, Arrival.hello.injEq] at hpast'
  exact hid hpast'.2.1

end From

/-- What holds after the arrivals `past`, of which the connections `returned` have come. -/
structure Acceptor.Inv (past : List Arrival) (returned : List ClientConn) (s : Acceptor) : Prop where
  serial : s.serial = past.length
  pending : ∀ id p, s.incompleteConns id = some p → p.id = id ∧ p.From past
  complete : ∀ c ∈ returned, c.From past ∧ c.requestFd.isSome ∧ c.notificationFd.isSome
  apart : returned.Pairwise ClientConn.Apart
  apart_pending : ∀ c ∈ returned, ∀ id p, s.incompleteConns id = some p → c.Apart p

section Step

variable {s s' : Acceptor} {past : List Arrival} {returned : List ClientConn} {a : Arrival}

lemma Acceptor.Inv.skip (h : s.Inv past returned) (a : Arrival) :
    Acceptor.Inv (past ++ [a]) returned { s with serial := s.serial + 1 } := by
  refine ⟨?_, ?_, ?_, h.apart, h.apart_pending⟩
  · rw [List.length_append, h.serial]
    rfl
  · intro id p hp
    obtain ⟨hid, hfrom⟩ := h.pending id p hp
    exact ⟨hid, hfrom.append a⟩
  · intro c hc
    obtain ⟨hfrom, hsome⟩ := h.complete c hc
    exact ⟨hfrom.append a, hsome⟩

/-- The client that waits at `id`, or a new one. -/
lemma Acceptor.Inv.client (h : s.Inv past returned) (id : BitVec 64) :
    ((s.incompleteConns id).getD ⟨id, none, none⟩).id = id ∧
      ((s.incompleteConns id).getD ⟨id, none, none⟩).From past ∧
      ∀ c ∈ returned, c.Apart ((s.incompleteConns id).getD ⟨id, none, none⟩) := by
  cases hp : s.incompleteConns id with
  | none =>
    refine ⟨rfl, ⟨by simp, by simp⟩, fun c _ d _ hd => ?_⟩
    simp [ClientConn.Has] at hd
  | some p =>
    obtain ⟨hid, hfrom⟩ := h.pending id p hp
    exact ⟨hid, hfrom, fun c hc => h.apart_pending c hc id p hp⟩

lemma Acceptor.Inv.put (h : s.Inv past returned) (a : Arrival) {id : BitVec 64} {client : ClientConn}
    (hid : client.id = id) (hfrom : client.From (past ++ [a])) (hapart : ∀ c ∈ returned, c.Apart client) :
    Acceptor.Inv (past ++ [a]) returned ⟨Function.update s.incompleteConns id (some client), s.serial + 1⟩ := by
  have hskip := h.skip a
  refine ⟨hskip.serial, ?_, hskip.complete, h.apart, ?_⟩
  · intro id' p hp
    dsimp only at hp
    by_cases heq : id' = id
    · rw [heq, Function.update_self, Option.some.injEq] at hp
      exact heq ▸ hp ▸ ⟨hid, hfrom⟩
    · rw [Function.update_of_ne heq] at hp
      exact hskip.pending id' p hp
  · intro c hc id' p hp
    dsimp only at hp
    by_cases heq : id' = id
    · rw [heq, Function.update_self, Option.some.injEq] at hp
      exact hp ▸ hapart c hc
    · rw [Function.update_of_ne heq] at hp
      exact h.apart_pending c hc id' p hp

lemma Acceptor.Inv.complete_client (h : s.Inv past returned) (a : Arrival) {id : BitVec 64} {client : ClientConn}
    (hid : client.id = id) (hfrom : client.From (past ++ [a])) (hapart : ∀ c ∈ returned, c.Apart client)
    (hsome : client.requestFd.isSome ∧ client.notificationFd.isSome) :
    Acceptor.Inv (past ++ [a]) (returned ++ [client]) ⟨Function.update s.incompleteConns id none, s.serial + 1⟩ := by
  have hskip := h.skip a
  have hpending : ∀ id' p, Function.update s.incompleteConns id none id' = some p →
      id' ≠ id ∧ s.incompleteConns id' = some p := by
    intro id' p hp
    by_cases heq : id' = id
    · simp [heq] at hp
    · rw [Function.update_of_ne heq] at hp
      exact ⟨heq, hp⟩
  refine ⟨hskip.serial, fun id' p hp => hskip.pending id' p (hpending id' p hp).2, ?_, ?_, ?_⟩
  · intro c hc
    rw [List.mem_append, List.mem_singleton] at hc
    cases hc with
    | inl hc => exact hskip.complete c hc
    | inr hc => exact hc ▸ ⟨hfrom, hsome⟩
  · rw [List.pairwise_append]
    refine ⟨h.apart, List.pairwise_singleton _ _, fun c hc c' hc' => ?_⟩
    rw [List.mem_singleton] at hc'
    exact hc' ▸ hapart c hc
  · intro c hc id' p hp
    obtain ⟨hne, hp⟩ := hpending id' p hp
    rw [List.mem_append, List.mem_singleton] at hc
    cases hc with
    | inl hc => exact h.apart_pending c hc id' p hp
    | inr hc =>
      obtain ⟨hpid, hpfrom⟩ := hskip.pending id' p hp
      rw [hc]
      exact hfrom.apart hpfrom (by rw [hid, hpid]; exact hne.symm)

/-- A new descriptor is in no connection that has been returned. -/
lemma Acceptor.Inv.apart_new (h : s.Inv past returned) {client client' : ClientConn}
    (hapart : ∀ c ∈ returned, c.Apart client) (hnew : ∀ d, client'.Has d → client.Has d ∨ d.serial = s.serial) :
    ∀ c ∈ returned, c.Apart client' := by
  intro c hc d hd hd'
  cases hnew d hd' with
  | inl hold => exact hapart c hc d hd hold
  | inr hserial =>
    have hlt := (h.complete c hc).1.serial_lt hd
    rw [hserial, h.serial] at hlt
    exact Nat.lt_irrefl _ hlt

lemma Acceptor.Inv.set_fd (h : s.Inv past returned) (fd : Nat) {id : BitVec 64} {type : BitVec 32}
    {client client' : ClientConn} (hid : client.id = id) (hfrom : client.From past)
    (hapart : ∀ c ∈ returned, c.Apart client)
    (hclient : (type = requestsHello ∧ client' = { client with requestFd := some ⟨fd, s.serial⟩ }) ∨
      (type = notificationsHello ∧ client' = { client with notificationFd := some ⟨fd, s.serial⟩ })) :
    client'.id = id ∧ client'.From (past ++ [.hello fd id type]) ∧ ∀ c ∈ returned, c.Apart client' := by
  have hold := hfrom.append (.hello fd id type)
  have hlast : (past ++ [Arrival.hello fd id type])[s.serial]? = some (.hello fd id type) := by simp [h.serial]
  rcases hclient with ⟨rfl, rfl⟩ | ⟨rfl, rfl⟩
  · refine ⟨hid, ⟨fun d hd => ?_, hold.notification⟩, h.apart_new hapart fun d hd => ?_⟩
    · rw [Option.some.injEq] at hd
      rw [← hd, hlast, hid]
    · cases hd with
      | inl hd => exact Or.inr (Option.some.inj hd ▸ rfl)
      | inr hd => exact Or.inl (Or.inr hd)
  · refine ⟨hid, ⟨hold.request, fun d hd => ?_⟩, h.apart_new hapart fun d hd => ?_⟩
    · rw [Option.some.injEq] at hd
      rw [← hd, hlast, hid]
    · cases hd with
      | inl hd => exact Or.inl (Or.inl hd)
      | inr hd => exact Or.inr (Option.some.inj hd ▸ rfl)

/-- A round that goes on has returned nothing; one that returns a connection has erased its client. -/
lemma Acceptor.Inv.round (h : s.Inv past returned) (a : Arrival) :
    (∀ s', acceptRound s a = .next s' → Acceptor.Inv (past ++ [a]) returned s') ∧
      ∀ r s', acceptRound s a = .done (r, s') → Acceptor.Inv (past ++ [a]) (returned ++ r.toList) s' ∧
        ∀ c, r = some c → s'.incompleteConns c.id = none := by
  cases a with
  | stopped _ =>
    refine ⟨fun s' hs => by simp [acceptRound] at hs, fun r s' hs => ?_⟩
    simp only [acceptRound, Round.done.injEq, Prod.mk.injEq] at hs
    obtain ⟨rfl, rfl⟩ := hs
    rw [Option.toList_none, List.append_nil]
    exact ⟨h.skip _, by simp⟩
  | short fd =>
    refine ⟨fun s' hs => ?_, fun r s' hs => by simp [acceptRound] at hs⟩
    simp only [acceptRound, Round.next.injEq] at hs
    exact hs ▸ h.skip _
  | hello fd id type =>
    obtain ⟨hid, hfrom, hapart⟩ := h.client id
    unfold acceptRound
    dsimp only
    generalize (s.incompleteConns id).getD ⟨id, none, none⟩ = client at hid hfrom hapart
    by_cases hbad : type ≠ requestsHello ∧ type ≠ notificationsHello
    · rw [if_pos hbad]
      refine ⟨fun s' hs => ?_, fun r s' hs => by simp at hs⟩
      rw [Round.next.injEq] at hs
      exact hs ▸ h.put _ hid (hfrom.append _) hapart
    · rw [if_neg hbad]
      generalize hclient : (if type = requestsHello then { client with requestFd := some ⟨fd, s.serial⟩ }
        else if type = notificationsHello then { client with notificationFd := some ⟨fd, s.serial⟩ }
        else client : ClientConn) = client'
      have hset : (type = requestsHello ∧ client' = { client with requestFd := some ⟨fd, s.serial⟩ }) ∨
          (type = notificationsHello ∧ client' = { client with notificationFd := some ⟨fd, s.serial⟩ }) := by
        by_cases hrequests : type = requestsHello
        · rw [if_pos hrequests] at hclient
          exact Or.inl ⟨hrequests, hclient.symm⟩
        · by_cases hnotifications : type = notificationsHello
          · rw [if_neg hrequests, if_pos hnotifications] at hclient
            exact Or.inr ⟨hnotifications, hclient.symm⟩
          · exact absurd ⟨hrequests, hnotifications⟩ hbad
      obtain ⟨hid', hfrom', hapart'⟩ := h.set_fd fd hid hfrom hapart hset
      by_cases hready : client'.requestFd.isSome = true ∧ client'.notificationFd.isSome = true
      · rw [if_pos hready]
        refine ⟨fun s' hs => by simp at hs, fun r s' hs => ?_⟩
        rw [Round.done.injEq, Prod.mk.injEq] at hs
        obtain ⟨rfl, rfl⟩ := hs
        refine ⟨h.complete_client _ hid' hfrom' hapart' hready, fun c hc => ?_⟩
        rw [Option.some.injEq] at hc
        rw [← hc, hid']
        exact Function.update_self ..
      · rw [if_neg hready]
        refine ⟨fun s' hs => ?_, fun r s' hs => by simp at hs⟩
        rw [Round.next.injEq] at hs
        exact hs ▸ h.put _ hid' hfrom' hapart'

end Step

/-! ### Runs -/

section Runs

variable {s s' : Acceptor} {past arrivals rest : List Arrival} {returned : List ClientConn}

lemma Acceptor.start_inv : Acceptor.start.Inv [] [] := by
  refine ⟨rfl, fun id p hp => ?_, by simp, List.Pairwise.nil, by simp⟩
  simp [start] at hp

lemma Acceptor.Inv.all (h : s.Inv past returned) (arrivals : List Arrival) :
    (acceptAll s arrivals).2.Inv (past ++ arrivals) (returned ++ (acceptAll s arrivals).1) := by
  induction arrivals generalizing s past returned with
  | nil => simpa [acceptAll] using h
  | cons a arrivals ih =>
    rw [acceptAll, ← List.singleton_append, ← List.append_assoc]
    cases hround : acceptRound s a with
    | next s' => exact ih ((h.round a).1 s' hround)
    | done r =>
      obtain ⟨r, s'⟩ := r
      dsimp only
      rw [← List.append_assoc]
      exact ih ((h.round a).2 r s' hround).1

/-- A call that returns a connection leaves no entry of its client. -/
lemma Acceptor.Inv.erased (h : s.Inv past returned) {c : ClientConn}
    (hcall : acceptClient s arrivals = some (some c, s', rest)) : s'.incompleteConns c.id = none := by
  induction arrivals generalizing s past returned with
  | nil => simp [acceptClient] at hcall
  | cons a arrivals ih =>
    rw [acceptClient] at hcall
    cases hround : acceptRound s a with
    | next s₁ =>
      rw [hround] at hcall
      exact ih ((h.round a).1 s₁ hround) hcall
    | done r =>
      obtain ⟨r, s₁⟩ := r
      simp only [hround, Option.some.injEq, Prod.mk.injEq] at hcall
      obtain ⟨rfl, rfl, rfl⟩ := hcall
      exact ((h.round a).2 _ _ hround).2 c rfl

end Runs

/-- For every sequence of arrivals: the descriptors of a returned connection came with the two hellos of its
client, no descriptor is in two of the connections that are returned or wait, and a call that returns a
connection leaves none of its client waiting. -/
theorem accept_client_pairs (arrivals : List Arrival) :
    (∀ c ∈ (acceptAll .start arrivals).1, ∃ r n, c.requestFd = some r ∧ c.notificationFd = some n ∧
      arrivals[r.serial]? = some (.hello r.fd c.id requestsHello) ∧
      arrivals[n.serial]? = some (.hello n.fd c.id notificationsHello)) ∧
    (acceptAll .start arrivals).1.Pairwise ClientConn.Apart ∧
    (∀ c ∈ (acceptAll .start arrivals).1, ∀ id p, (acceptAll .start arrivals).2.incompleteConns id = some p → c.Apart p) ∧
    (∀ id id' p p', id ≠ id' → (acceptAll .start arrivals).2.incompleteConns id = some p →
      (acceptAll .start arrivals).2.incompleteConns id' = some p' → p.Apart p') ∧
    ∀ before after c s' rest, arrivals = before ++ after →
      acceptClient (acceptAll .start before).2 after = some (some c, s', rest) → s'.incompleteConns c.id = none := by
  have h := Acceptor.start_inv.all arrivals
  rw [List.nil_append, List.nil_append] at h
  refine ⟨fun c hc => ?_, h.apart, h.apart_pending, fun id id' p p' hne hp hp' => ?_,
    fun before after c s' rest _ hcall => ?_⟩
  · obtain ⟨hfrom, hrequest, hnotification⟩ := h.complete c hc
    obtain ⟨r, hr⟩ := Option.isSome_iff_exists.1 hrequest
    obtain ⟨n, hn⟩ := Option.isSome_iff_exists.1 hnotification
    exact ⟨r, n, hr, hn, hfrom.request r hr, hfrom.notification n hn⟩
  · obtain ⟨hid, hfrom⟩ := h.pending id p hp
    obtain ⟨hid', hfrom'⟩ := h.pending id' p' hp'
    exact hfrom.apart hfrom' (by rw [hid, hid']; exact hne)
  · exact (Acceptor.start_inv.all before).erased hcall

end Cs300Projects.Vunmo
