import Cs300Projects.Vunmo.Client

/-!
# The clients that `fetch_requests` reads from

`fetch_requests` tries the mutex of every client twice, and `poll` runs between the two rounds while nothing is locked.
The results of `poll` stand in an array beside the vector of the clients that were locked in the first round, and the
loop that drops the clients without input erases from this vector as it goes.
-/

namespace Cs300Projects.Vunmo

/-- The connections of the server in the order of the map's iteration. -/
structure ConnMap (κ : Type*) where
  clients : List κ
  nodup : clients.Nodup

/-- The fields of a `client_conn_t` that its mutex guards. -/
structure ConnFields where
  requestFd : Nat
  notificationFd : Nat
  isConnected : Bool

structure PollFd where
  fd : Nat
  events : BitVec 16
  deriving DecidableEq

def pollin : BitVec 16 := 1

/-- `sizeof(request_t)` -/
def requestSize : Int := 32

/-- What is not decided by the call itself: for each of the two rounds whether a mutex is free and what it guards then, the
results of `poll`, and those of `read`. -/
structure Outcome (κ : Type*) where
  free₁ : κ → Bool
  fields₁ : κ → ConnFields
  poll : Int
  revents : Nat → BitVec 16
  free₂ : κ → Bool
  fields₂ : κ → ConnFields
  bytesRead : κ → Int
  request : κ → ClientRequest

inductive FetchEvent (κ : Type*) where
  | poll (fds : List PollFd)
  | read (c : κ) (fd : Nat)
  | close (fd : Nat)
  | disconnect (c : κ)
  deriving DecidableEq

/-- The locks that the call holds, and what it has done. -/
structure Fetch (κ : Type*) where
  mapLocked : Bool
  locked : List κ
  log : List (FetchEvent κ)

section Code

variable {κ : Type*} [DecidableEq κ]

namespace Fetch

/-- A thread must not lock a mutex that it holds, nor unlock one that it does not hold: `none` in both cases. -/
def lockMap (s : Fetch κ) : Option (Fetch κ) :=
  if s.mapLocked then none else some { s with mapLocked := true }

def unlockMap (s : Fetch κ) : Option (Fetch κ) :=
  if s.mapLocked then some { s with mapLocked := false } else none

def tryLock (s : Fetch κ) (free : Bool) (c : κ) : Option (Bool × Fetch κ) :=
  if c ∈ s.locked then none
  else if free then some (true, { s with locked := s.locked ++ [c] })
  else some (false, s)

def unlock (s : Fetch κ) (c : κ) : Option (Fetch κ) :=
  if c ∈ s.locked then some { s with locked := s.locked.erase c } else none

def emit (s : Fetch κ) (events : List (FetchEvent κ)) : Fetch κ := { s with log := s.log ++ events }

end Fetch

end Code

/-- The statements that `fetch_requests` is made of. Each is followed by the rest of the call, which may depend on what the
statement gives. -/
structure FetchOps (κ : Type*) (ρ : Type*) where
  lockMap : ρ → ρ
  unlockMap : ρ → ρ
  clientConns : (ConnMap κ → ρ) → ρ
  tryLock : κ → (Bool → ρ) → ρ
  unlock : κ → ρ → ρ
  isConnected : κ → (Bool → ρ) → ρ
  requestFd : κ → (Nat → ρ) → ρ
  poll : List PollFd → (Int → (Nat → BitVec 16) → ρ) → ρ
  read : κ → (Int → ClientRequest → ρ) → ρ
  close : κ → ρ → ρ
  disconnect : κ → ρ → ρ

namespace FetchOps

variable {κ ρ : Type*} (ops : FetchOps κ ρ)

/-- The first round: `availableClients` are locked. -/
def collectClients (availableClients : List κ) : List κ → (List κ → ρ) → ρ
  | [], next => next availableClients
  | client :: rest, next =>
    ops.tryLock client fun locked =>
      if locked then
        ops.isConnected client fun connected =>
          if connected then collectClients (availableClients ++ [client]) rest next
          else ops.unlock client (collectClients availableClients rest next)
      else collectClients availableClients rest next

def preparePollFds (pollFds : List PollFd) : List κ → (List PollFd → ρ) → ρ
  | [], next => next pollFds
  | client :: rest, next =>
    ops.requestFd client fun fd => ops.unlock client (preparePollFds (pollFds ++ [⟨fd, pollin⟩]) rest next)

/-- The loop from `i - 1` down to `0` that erases the clients with nothing to read. -/
def dropIdle (revents : Nat → BitVec 16) : Nat → List κ → List κ
  | 0, availableClients => availableClients
  | i + 1, availableClients =>
    if revents i &&& pollin = 0 then dropIdle revents i (availableClients.eraseIdx i)
    else dropIdle revents i availableClients

/-- The descriptors are closed when less than a whole request is read. -/
def readRequest (client : κ) (next : Option ClientRequest → ρ) : ρ :=
  ops.read client fun bytesRead req =>
    if bytesRead < requestSize then ops.close client (ops.disconnect client (next none)) else next (some req)

/-- The second round. -/
def readClients (requests : List ClientRequest) : List κ → (List ClientRequest → ρ) → ρ
  | [], next => next requests
  | client :: rest, next =>
    ops.tryLock client fun locked =>
      if locked then
        ops.readRequest client fun req => ops.unlock client (readClients (requests ++ req.toList) rest next)
      else readClients requests rest next

/-- The statements of the second round are `later`: what threads share may have changed in between. -/
def fetchRequests (later : FetchOps κ ρ) (next : List ClientRequest → ρ) : ρ :=
  ops.lockMap <| ops.clientConns fun clientConns =>
  ops.collectClients [] clientConns.clients fun availableClients =>
    if availableClients.length = 0 then ops.unlockMap (next [])
    else
      ops.preparePollFds [] availableClients fun pollFds =>
      ops.unlockMap <| ops.poll pollFds fun result revents =>
        if result ≤ 0 then next []
        else later.readClients [] (dropIdle revents availableClients.length availableClients) next

end FetchOps

section Code

variable {κ : Type*} [DecidableEq κ] (o : Outcome κ)

/-- What a call returns and leaves, from its locks and what it has done on. -/
abbrev FetchRun (κ : Type*) := Fetch κ → Option (List ClientRequest × Fetch κ)

/-- The statements in a round that finds `free` mutexes and `fields`. -/
def Outcome.ops (clientConns : ConnMap κ) (free : κ → Bool) (fields : κ → ConnFields) : FetchOps κ (FetchRun κ) where
  lockMap next s := s.lockMap.bind next
  unlockMap next s := s.unlockMap.bind next
  clientConns next := next clientConns
  tryLock c next s := (s.tryLock (free c) c).bind fun r => next r.1 r.2
  unlock c next s := (s.unlock c).bind next
  isConnected c next := next (fields c).isConnected
  requestFd c next := next (fields c).requestFd
  poll fds next s := next o.poll o.revents (s.emit [.poll fds])
  read c next s := next (o.bytesRead c) (o.request c) (s.emit [.read c (fields c).requestFd])
  close c next s := next (s.emit [.close (fields c).requestFd, .close (fields c).notificationFd])
  disconnect c next s := next (s.emit [.disconnect c])

def fetchRequests (clientConns : ConnMap κ) : Option (List ClientRequest × Fetch κ) :=
  (o.ops clientConns o.free₁ o.fields₁).fetchRequests (o.ops clientConns o.free₂ o.fields₂)
    (fun requests s => some (requests, s)) ⟨false, [], []⟩

end Code

section Meaning

variable {κ : Type*}

def FetchEvent.readFrom : FetchEvent κ → Option κ
  | .read c _ => some c
  | _ => none

def FetchEvent.disconnected : FetchEvent κ → Option κ
  | .disconnect c => some c
  | _ => none

/-- The clients that were read from. -/
def Fetch.reads (s : Fetch κ) : List κ := s.log.filterMap FetchEvent.readFrom

/-- The clients that were marked as disconnected. -/
def Fetch.disconnected (s : Fetch κ) : List κ := s.log.filterMap FetchEvent.disconnected

variable (o : Outcome κ)

def Outcome.available (c : κ) : Bool := o.free₁ c && (o.fields₁ c).isConnected

def Outcome.short (c : κ) : Bool := o.bytesRead c < requestSize

/-- The request of a client, if it is complete. -/
def Outcome.complete (c : κ) : Option ClientRequest := if o.short c then none else some (o.request c)

/-- The clients that have an entry in `poll_fds`. -/
def ConnMap.polled (clientConns : ConnMap κ) : List κ := clientConns.clients.filter o.available

variable [DecidableEq κ]

/-- The index of a client's own entry in `poll_fds`. -/
def ConnMap.entry (clientConns : ConnMap κ) (c : κ) : Nat := (clientConns.polled o).idxOf c

/-- What a call has done when it returns. -/
structure Fetch.Right (clientConns : ConnMap κ) (requests : List ClientRequest) (s : Fetch κ) : Prop where
  unlocked : s.mapLocked = false ∧ s.locked = []
  poll_fds : ∀ pollFds, .poll pollFds ∈ s.log →
    pollFds = (clientConns.polled o).map fun c => ⟨(o.fields₁ c).requestFd, pollin⟩
  order : s.reads.Sublist clientConns.clients
  once : s.reads.Nodup
  mem_reads : ∀ c, c ∈ s.reads ↔
    (c ∈ clientConns.clients ∧ o.free₁ c ∧ (o.fields₁ c).isConnected) ∧
      (0 < o.poll ∧ o.revents (clientConns.entry o c) &&& pollin ≠ 0) ∧ o.free₂ c
  requests_eq : requests = s.reads.filterMap o.complete
  disconnected_eq : s.disconnected = s.reads.filter o.short

end Meaning

section Log

variable {κ : Type*} (o : Outcome κ)

/-- What reading from a client adds to the log. -/
def Outcome.readLog (c : κ) : List (FetchEvent κ) :=
  .read c (o.fields₂ c).requestFd ::
    if o.short c then [.close (o.fields₂ c).requestFd, .close (o.fields₂ c).notificationFd, .disconnect c] else []

lemma reads_readLog (clients : List κ) :
    (clients.flatMap o.readLog).filterMap FetchEvent.readFrom = clients := by
  induction clients with
  | nil => rfl
  | cons client rest ih =>
    rw [List.flatMap_cons, List.filterMap_append, ih]
    cases hshort : o.short client with
    | false => simp [Outcome.readLog, hshort, FetchEvent.readFrom]
    | true => simp [Outcome.readLog, hshort, FetchEvent.readFrom]

lemma disconnected_readLog (clients : List κ) :
    (clients.flatMap o.readLog).filterMap FetchEvent.disconnected = clients.filter o.short := by
  induction clients with
  | nil => rfl
  | cons client rest ih =>
    rw [List.flatMap_cons, List.filterMap_append, ih]
    cases hshort : o.short client with
    | false => simp [Outcome.readLog, hshort, FetchEvent.disconnected]
    | true => simp [Outcome.readLog, hshort, FetchEvent.disconnected, List.filterMap_cons]

end Log

section Proof

variable {κ : Type*} [DecidableEq κ] (o : Outcome κ) {mapLocked : Bool} {log : List (FetchEvent κ)}

/-! ### The statements -/

section Statements

variable (clientConns : ConnMap κ) (free : κ → Bool) (fields : κ → ConnFields) {locked : List κ} {c : κ} (next : FetchRun κ)

lemma lockMap_eq : (o.ops clientConns free fields).lockMap next ⟨false, locked, log⟩ = next ⟨true, locked, log⟩ := rfl

lemma unlockMap_eq : (o.ops clientConns free fields).unlockMap next ⟨true, locked, log⟩ = next ⟨false, locked, log⟩ := rfl

lemma clientConns_eq (next : ConnMap κ → FetchRun κ) :
    (o.ops clientConns free fields).clientConns next = next clientConns := rfl

lemma isConnected_eq (next : Bool → FetchRun κ) :
    (o.ops clientConns free fields).isConnected c next = next (fields c).isConnected := rfl

lemma requestFd_eq (next : Nat → FetchRun κ) :
    (o.ops clientConns free fields).requestFd c next = next (fields c).requestFd := rfl

lemma poll_eq (fds : List PollFd) (next : Int → (Nat → BitVec 16) → FetchRun κ) (s : Fetch κ) :
    (o.ops clientConns free fields).poll fds next s = next o.poll o.revents (s.emit [.poll fds]) := rfl

lemma tryLock_eq (h : c ∉ locked) (next : Bool → FetchRun κ) :
    (o.ops clientConns free fields).tryLock c next ⟨mapLocked, locked, log⟩ =
      next (free c) ⟨mapLocked, if free c then locked ++ [c] else locked, log⟩ := by
  unfold Outcome.ops Fetch.tryLock
  dsimp only
  rw [if_neg h]
  cases free c <;> rfl

lemma unlock_append (h : c ∉ locked) :
    (o.ops clientConns free fields).unlock c next ⟨mapLocked, locked ++ [c], log⟩ = next ⟨mapLocked, locked, log⟩ := by
  unfold Outcome.ops Fetch.unlock
  dsimp only
  rw [if_pos (List.mem_append_right _ List.mem_cons_self), List.erase_append_right _ h, List.erase_cons_head,
    List.append_nil, Option.bind_some]

lemma unlock_cons :
    (o.ops clientConns free fields).unlock c next ⟨mapLocked, c :: locked, log⟩ = next ⟨mapLocked, locked, log⟩ := by
  unfold Outcome.ops Fetch.unlock
  dsimp only
  rw [if_pos List.mem_cons_self, List.erase_cons_head, Option.bind_some]

lemma readRequest_eq (next : Option ClientRequest → FetchRun κ) :
    (o.ops clientConns free o.fields₂).readRequest c next ⟨mapLocked, locked, log⟩ =
      next (o.complete c) ⟨mapLocked, locked, log ++ o.readLog c⟩ := by
  unfold FetchOps.readRequest Outcome.complete Outcome.readLog Outcome.short Outcome.ops Fetch.emit
  by_cases hshort : o.bytesRead c < requestSize
  · simp [hshort]
  · simp [hshort]

end Statements

/-! ### The loops -/

lemma collectClients_eq (clientConns : ConnMap κ) (clients availableClients : List κ) (h : (availableClients ++ clients).Nodup)
    (next : List κ → FetchRun κ) :
    (o.ops clientConns o.free₁ o.fields₁).collectClients availableClients clients next ⟨mapLocked, availableClients, log⟩ =
      next (availableClients ++ clients.filter o.available)
        ⟨mapLocked, availableClients ++ clients.filter o.available, log⟩ := by
  induction clients generalizing availableClients with
  | nil => rw [FetchOps.collectClients, List.filter_nil, List.append_nil]
  | cons client rest ih =>
    have hnew : client ∉ availableClients := by
      intro hmem
      exact List.disjoint_of_nodup_append h hmem List.mem_cons_self
    have hrest : (availableClients ++ rest).Nodup := h.sublist ((List.sublist_cons_self _ _).append_left _)
    rw [FetchOps.collectClients, tryLock_eq o clientConns _ _ hnew]
    cases hfree : o.free₁ client with
    | false =>
      rw [List.filter_cons_of_neg (by simp [Outcome.available, hfree])]
      exact ih availableClients hrest
    | true =>
      rw [if_pos rfl, if_pos rfl, isConnected_eq]
      cases hconnected : (o.fields₁ client).isConnected with
      | false =>
        rw [List.filter_cons_of_neg (by simp [Outcome.available, hconnected]), if_neg Bool.false_ne_true,
          unlock_append _ _ _ _ _ hnew]
        exact ih availableClients hrest
      | true =>
        rw [List.filter_cons_of_pos (by simp [Outcome.available, hfree, hconnected]), if_pos rfl,
          ih (availableClients ++ [client]) (by rwa [List.append_assoc]), List.append_assoc]
        rfl

lemma preparePollFds_eq (clientConns : ConnMap κ) (clients : List κ) (pollFds : List PollFd)
    (next : List PollFd → FetchRun κ) :
    (o.ops clientConns o.free₁ o.fields₁).preparePollFds pollFds clients next ⟨mapLocked, clients, log⟩ =
      next (pollFds ++ clients.map fun c => ⟨(o.fields₁ c).requestFd, pollin⟩) ⟨mapLocked, [], log⟩ := by
  induction clients generalizing pollFds with
  | nil => rw [FetchOps.preparePollFds, List.map_nil, List.append_nil]
  | cons client rest ih =>
    rw [FetchOps.preparePollFds, requestFd_eq, unlock_cons, ih, List.append_assoc]
    rfl

/-- Whether the entry of `poll_fds` at an index reports `POLLIN`. -/
def Outcome.ready (i : Nat) : Bool := o.revents i &&& pollin ≠ 0

/-- The loop looks at each client of `before` with the index that the client had in the beginning, since what is erased stands
behind it. -/
lemma dropIdle_append (before after : List κ) (h : before.Nodup) :
    FetchOps.dropIdle o.revents before.length (before ++ after) = before.filter (fun c => o.ready (before.idxOf c)) ++ after := by
  induction before using List.reverseRecOn generalizing after with
  | nil => rfl
  | append_singleton before client ih =>
    have hnew : client ∉ before := fun hmem => List.disjoint_of_nodup_append h hmem List.mem_cons_self
    have hsame : before.filter (fun c => o.ready ((before ++ [client]).idxOf c)) =
        before.filter fun c => o.ready (before.idxOf c) := by
      refine List.filter_congr fun c hc => ?_
      rw [List.idxOf_append_of_mem hc]
    have hlast : (before ++ [client]).idxOf client = before.length := by
      rw [List.idxOf_append_of_notMem hnew, List.idxOf_cons_self, Nat.add_zero]
    rw [List.length_append, List.length_singleton, FetchOps.dropIdle, List.filter_append, hsame]
    by_cases hidle : o.revents before.length &&& pollin = 0
    · rw [if_pos hidle, List.append_assoc, List.eraseIdx_append_of_length_le (Nat.le_refl _), Nat.sub_self,
        List.filter_cons_of_neg (by simp [Outcome.ready, hlast, hidle])]
      simpa using ih after h.of_append_left
    · rw [if_neg hidle, List.filter_cons_of_pos (by simpa [Outcome.ready, hlast] using hidle), List.append_assoc]
      simpa using ih (client :: after) h.of_append_left

lemma dropIdle_eq (clients : List κ) (h : clients.Nodup) :
    FetchOps.dropIdle o.revents clients.length clients = clients.filter fun c => o.ready (clients.idxOf c) := by
  simpa using dropIdle_append o clients [] h

lemma readClients_eq (clientConns : ConnMap κ) (clients : List κ) (requests : List ClientRequest)
    (next : List ClientRequest → FetchRun κ) :
    (o.ops clientConns o.free₂ o.fields₂).readClients requests clients next ⟨mapLocked, [], log⟩ =
      next (requests ++ (clients.filter o.free₂).filterMap o.complete)
        ⟨mapLocked, [], log ++ (clients.filter o.free₂).flatMap o.readLog⟩ := by
  induction clients generalizing requests log with
  | nil => simp [FetchOps.readClients]
  | cons client rest ih =>
    rw [FetchOps.readClients, tryLock_eq o clientConns _ _ List.not_mem_nil]
    cases hfree : o.free₂ client with
    | false =>
      rw [List.filter_cons_of_neg (by simp [hfree])]
      exact ih requests
    | true =>
      rw [List.filter_cons_of_pos hfree, List.flatMap_cons, ← List.append_assoc, if_pos rfl, if_pos rfl, List.nil_append,
        readRequest_eq, unlock_cons, ih]
      cases hcomplete : o.complete client with
      | none => simp [hcomplete]
      | some req => simp [hcomplete]

/-! ### The whole call -/

/-- The clients that are read from. -/
def ConnMap.readable (clientConns : ConnMap κ) : List κ :=
  if o.poll ≤ 0 then []
  else ((clientConns.polled o).filter fun c => o.ready (clientConns.entry o c)).filter o.free₂

def ConnMap.pollLog (clientConns : ConnMap κ) : List (FetchEvent κ) :=
  if clientConns.polled o = [] then []
  else [.poll ((clientConns.polled o).map fun c => ⟨(o.fields₁ c).requestFd, pollin⟩)]

lemma fetchRequests_eq (clientConns : ConnMap κ) :
    fetchRequests o clientConns = some ((clientConns.readable o).filterMap o.complete,
      ⟨false, [], clientConns.pollLog o ++ (clientConns.readable o).flatMap o.readLog⟩) := by
  have hpolled : clientConns.clients.filter o.available = clientConns.polled o := rfl
  have hnodup : (clientConns.polled o).Nodup := clientConns.nodup.filter _
  rw [fetchRequests, FetchOps.fetchRequests, lockMap_eq, clientConns_eq,
    collectClients_eq o _ _ [] clientConns.nodup, List.nil_append, hpolled]
  by_cases hempty : clientConns.polled o = []
  · simp [ConnMap.readable, ConnMap.pollLog, hempty, unlockMap_eq]
  · have hlength : ¬ (clientConns.polled o).length = 0 := fun hlength => hempty (List.length_eq_zero_iff.1 hlength)
    rw [if_neg hlength, preparePollFds_eq, List.nil_append, unlockMap_eq, poll_eq]
    by_cases hnothing : o.poll ≤ 0
    · simp [ConnMap.readable, ConnMap.pollLog, hempty, hnothing, Fetch.emit]
    · rw [if_neg hnothing, dropIdle_eq o _ hnodup, Fetch.emit, readClients_eq, List.nil_append]
      simp only [ConnMap.readable, ConnMap.pollLog, if_neg hempty, if_neg hnothing, ConnMap.entry]
      rfl

lemma ConnMap.readable_sublist (clientConns : ConnMap κ) : (clientConns.readable o).Sublist clientConns.clients := by
  unfold ConnMap.readable
  split
  · exact List.nil_sublist _
  · exact List.filter_sublist.trans (List.filter_sublist.trans List.filter_sublist)

lemma ConnMap.mem_readable (clientConns : ConnMap κ) (c : κ) : c ∈ clientConns.readable o ↔
    (c ∈ clientConns.clients ∧ o.free₁ c ∧ (o.fields₁ c).isConnected) ∧
      (0 < o.poll ∧ o.revents (clientConns.entry o c) &&& pollin ≠ 0) ∧ o.free₂ c := by
  unfold ConnMap.readable
  split
  · simp only [List.not_mem_nil, false_iff]
    rintro ⟨-, ⟨hpoll, -⟩, -⟩
    omega
  · have hpoll : 0 < o.poll := by omega
    simp only [ConnMap.polled, List.mem_filter, Outcome.available, Outcome.ready, Bool.and_eq_true, decide_eq_true_eq, hpoll,
      true_and, ne_eq, and_assoc]

/-- A call returns; it reads from the clients that it should read from, and it holds no lock in the end. -/
theorem fetchRequests_right (clientConns : ConnMap κ) :
    ∃ requests s, fetchRequests o clientConns = some (requests, s) ∧ s.Right o clientConns requests := by
  refine ⟨_, _, fetchRequests_eq o clientConns, ?_⟩
  set s : Fetch κ := ⟨false, [], clientConns.pollLog o ++ (clientConns.readable o).flatMap o.readLog⟩
  have hreads : s.reads = clientConns.readable o := by
    unfold Fetch.reads
    rw [List.filterMap_append, reads_readLog]
    unfold ConnMap.pollLog
    split <;> rfl
  have hdisconnected : s.disconnected = (clientConns.readable o).filter o.short := by
    unfold Fetch.disconnected
    rw [List.filterMap_append, disconnected_readLog]
    unfold ConnMap.pollLog
    split <;> rfl
  have hpoll : ∀ pollFds, .poll pollFds ∈ s.log →
      pollFds = (clientConns.polled o).map fun c => ⟨(o.fields₁ c).requestFd, pollin⟩ := by
    intro pollFds hmem
    rcases List.mem_append.1 hmem with hpolled | hread
    · unfold ConnMap.pollLog at hpolled
      split at hpolled
      · cases hpolled
      · exact FetchEvent.poll.inj (List.mem_singleton.1 hpolled)
    · obtain ⟨c, -, hc⟩ := List.mem_flatMap.1 hread
      unfold Outcome.readLog at hc
      split at hc <;> simp at hc
  constructor
  · exact ⟨rfl, rfl⟩
  · exact hpoll
  · rw [hreads]
    exact clientConns.readable_sublist o
  · rw [hreads]
    exact clientConns.nodup.sublist (clientConns.readable_sublist o)
  · intro c
    rw [hreads]
    exact clientConns.mem_readable o c
  · rw [hreads]
  · rw [hreads, hdisconnected]

end Proof

end Cs300Projects.Vunmo
