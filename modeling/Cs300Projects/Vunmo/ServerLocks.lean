import Cs300Projects.Lib.Locking
import Cs300Projects.Vunmo.Connections
import Cs300Projects.Vunmo.FetchRequests
import Cs300Projects.Vunmo.Messages

/-!
# The mutexes of the Vunmo server

`send_response`, `send_notification`, `handle_missing_clients`, `handle_reconnecting_client` and `fetch_requests` as programs
of threads that lock the mutexes of the server. `get_account` is a stub that is left to be written; it is a parameter, with
what its comment promises. However the statements of the threads interleave, no thread waits forever, and the fields of a
client are accessed only by the thread that has locked its mutex.
-/

namespace Cs300Projects.Vunmo

open Locking Locking.Prog

/-- The mutexes: of the two maps, of an account, and of a client. -/
inductive ServerLock (κ : Type) where
  | accounts
  | account (id : Word)
  | clientConns
  | client (c : κ)
  deriving DecidableEq

/-- What is written to a client. -/
inductive Outgoing where
  | response (resp : Response)
  | notification (n : Notification)

/-- The accesses to what the threads share: the maps, the fields of the clients, and the system calls. -/
inductive Access (κ : Type) where
  | findAccount (id : Word)
  | findClient (id : Word)
  | clients
  | isConnected (c : κ)
  | setConnected (c : κ) (b : Bool)
  | requestFd (c : κ)
  | setFds (c : κ) (requestFd notificationFd : Nat)
  | write (c : κ) (side : Side) (msg : Outgoing)
  | read (c : κ)
  | close (c : κ) (side : Side)
  | closeNew (fd : Nat)
  | poll (fds : List PollFd)

/-- The answers: for `write` and `read` the number of bytes, for `poll` its result and the events of each entry. -/
@[reducible] def Answer (κ : Type) : Access κ → Type
  | .findAccount _ => Option Word
  | .findClient _ => Option κ
  | .clients => ConnMap κ
  | .isConnected _ => Bool
  | .setConnected _ _ => Unit
  | .requestFd _ => Nat
  | .setFds _ _ _ => Unit
  | .write _ _ _ => Int
  | .read _ => Int × ClientRequest
  | .close _ _ => Unit
  | .closeNew _ => Unit
  | .poll _ => Int × (Nat → BitVec 16)

abbrev ServerProg (κ : Type) : Type → Type := Prog (ServerLock κ) (Access κ) (Answer κ)

/-- What the threads share. -/
structure Shared (κ : Type) where
  accounts : Word → Bool
  clientConns : ConnMap κ
  id : κ → Word
  conn : κ → ConnFields

section Code

variable {κ : Type} [DecidableEq κ]

def Shared.setConn (s : Shared κ) (c : κ) (conn : ConnFields) : Shared κ :=
  { s with conn := Function.update s.conn c conn }

/-- An access with its answer. The answers of the system calls are arbitrary. -/
def effect (s : Shared κ) : (a : Access κ) → Answer κ a → Shared κ → Prop
  | .findAccount id, r, s' => r = (if s.accounts id then some id else none) ∧ s' = s
  | .findClient id, r, s' => r = s.clientConns.clients.find? (fun c => s.id c = id) ∧ s' = s
  | .clients, r, s' => r = s.clientConns ∧ s' = s
  | .isConnected c, r, s' => r = (s.conn c).isConnected ∧ s' = s
  | .setConnected c b, _, s' => s' = s.setConn c { s.conn c with isConnected := b }
  | .requestFd c, r, s' => r = (s.conn c).requestFd ∧ s' = s
  | .setFds c a b, _, s' => s' = s.setConn c { s.conn c with requestFd := a, notificationFd := b }
  | .write _ _ _, _, s' => s' = s
  | .read _, _, s' => s' = s
  | .close _ _, _, s' => s' = s
  | .closeNew _, _, s' => s' = s
  | .poll _, _, s' => s' = s

/-- `sizeof(response_t)` -/
def responseSize : Int := 112

/-- `sizeof(notification_t)` -/
def notificationSize : Int := 128

namespace Server

def sendResponse (clientId : Word) (resp : Response) : ServerProg κ Int := do
  mutexLock .clientConns
  match ← perform (Access.findClient clientId) with
  | none =>
    mutexUnlock .clientConns
    return -ecliNotFound
  | some client =>
    mutexLock (.client client)
    mutexUnlock .clientConns
    let bytes ← perform (Access.write client .request (.response resp))
    -- close client connection on error
    if bytes < responseSize then
      perform (Access.setConnected client false)
      perform (Access.close client .request)
      perform (Access.close client .notification)
    mutexUnlock (.client client)
    return 0

def sendNotification (clientId : Word) (n : Notification) : ServerProg κ Int := do
  mutexLock .clientConns
  match ← perform (Access.findClient clientId) with
  | none =>
    mutexUnlock .clientConns
    return -ecliNotFound
  | some client =>
    mutexLock (.client client)
    mutexUnlock .clientConns
    if ← perform (Access.isConnected client) then
      let bytes ← perform (Access.write client .notification (.notification n))
      if bytes < notificationSize then
        perform (Access.setConnected client false)
        perform (Access.close client .request)
        perform (Access.close client .notification)
    mutexUnlock (.client client)
    return 0

/-- `amount` is not initialised. -/
def handleMissingClients (getAccount : Word → ServerProg κ (Option Word)) (err : Int) (req : Request) (amount : Word) :
    ServerProg κ Unit :=
  match missingMessage err req with
  | none => pure ()
  | some message => do
    match ← getAccount req.originClientId with
    | none => pure ()
    | some firstAccount =>
      let _ ← sendResponse firstAccount ⟨amount, 0, message⟩
      mutexUnlock (.account firstAccount)

def handleReconnectingClient (newClient : ConnFields) (existingClient : κ) : ServerProg κ Unit := do
  mutexLock (.client existingClient)
  if ← perform (Access.isConnected existingClient) then
    perform (Access.closeNew newClient.requestFd)
    perform (Access.closeNew newClient.notificationFd)
  else
    perform (Access.setFds existingClient newClient.requestFd newClient.notificationFd)
    perform (Access.setConnected existingClient true)
  mutexUnlock (.client existingClient)

/-- The statements of `fetch_requests` in a thread. -/
def fetchOps {ρ : Type} : FetchOps κ (ServerProg κ ρ) where
  lockMap next := do
    mutexLock .clientConns
    next
  unlockMap next := do
    mutexUnlock .clientConns
    next
  clientConns next := do next (← perform Access.clients)
  tryLock c next := do next (← mutexTryLock (.client c))
  unlock c next := do
    mutexUnlock (.client c)
    next
  isConnected c next := do next (← perform (Access.isConnected c))
  requestFd c next := do next (← perform (Access.requestFd c))
  poll fds next := do
    let (result, revents) ← perform (Access.poll fds)
    next result revents
  read c next := do
    let (bytesRead, req) ← perform (Access.read c)
    next bytesRead req
  close c next := do
    perform (Access.close c .request)
    perform (Access.close c .notification)
    next
  disconnect c next := do
    perform (Access.setConnected c false)
    next

def fetchRequests : ServerProg κ (List ClientRequest) := fetchOps.fetchRequests fetchOps pure

/-- A call that a thread makes. -/
inductive Call (κ : Type) where
  | sendResponse (clientId : Word) (resp : Response)
  | sendNotification (clientId : Word) (n : Notification)
  | handleMissingClients (err : Int) (req : Request) (amount : Word)
  | handleReconnectingClient (newClient : ConnFields) (existingClient : κ)
  | fetchRequests

variable (getAccount : Word → ServerProg κ (Option Word))

def Call.prog : Call κ → ServerProg κ Unit
  | .sendResponse clientId resp => do
    let _ ← Server.sendResponse clientId resp
  | .sendNotification clientId n => do
    let _ ← Server.sendNotification clientId n
  | .handleMissingClients err req amount => Server.handleMissingClients getAccount err req amount
  | .handleReconnectingClient newClient existingClient => Server.handleReconnectingClient newClient existingClient
  | .fetchRequests => do
    let _ ← Server.fetchRequests

/-- The calls of a thread, one after the other. -/
def runCalls : List (Call κ) → ServerProg κ Unit
  | [] => pure ()
  | call :: calls => do
    call.prog getAccount
    runCalls calls

/-- Threads that start with their calls, with no mutex locked. -/
def start {n : Nat} (calls : Fin n → List (Call κ)) (s : Shared κ) :
    Config (ServerLock κ) (Access κ) (Answer κ) Unit (Fin n) (Shared κ) :=
  ⟨fun _ => none, s, fun t => runCalls getAccount (calls t)⟩

end Server

end Code

/-! ### The discipline -/

section Discipline

variable {κ : Type}

/-- The order in which a thread may wait for mutexes. -/
def ServerLock.rank : ServerLock κ → Nat
  | .accounts => 0
  | .account _ => 1
  | .clientConns => 2
  | .client _ => 3

/-- The mutexes that must be locked for an access. -/
def Access.guard : Access κ → Finset (ServerLock κ)
  | .findAccount _ => {.accounts}
  | .findClient _ => {.clientConns}
  | .clients => {.clientConns}
  | .isConnected c => {.client c}
  | .setConnected c _ => {.client c}
  | .requestFd c => {.client c}
  | .setFds c _ _ => {.client c}
  | .write c _ _ => {.client c}
  | .read c => {.client c}
  | .close c _ => {.client c}
  | .closeNew _ => ∅
  | .poll _ => ∅

variable {held : Finset (ServerLock κ)} {c : κ}

/-- Only mutexes of accounts are locked. -/
def OnlyAccounts (held : Finset (ServerLock κ)) : Prop := ∀ l ∈ held, l.rank < 2

lemma OnlyAccounts.clientConns (h : OnlyAccounts held) : .clientConns ∉ held :=
  fun hin => absurd (h _ hin) (Nat.lt_irrefl 2)

lemma OnlyAccounts.client (h : OnlyAccounts held) (c : κ) : .client c ∉ held := by
  intro hin
  have hlt := h _ hin
  change 3 < 2 at hlt
  omega

lemma OnlyAccounts.lt_client (h : OnlyAccounts held) (c : κ) : ∀ l ∈ held, l.rank < (ServerLock.client c).rank :=
  fun l hl => Nat.lt_succ_of_lt (h l hl)

lemma onlyAccounts_empty : OnlyAccounts (∅ : Finset (ServerLock κ)) := fun l hl => absurd hl (Finset.notMem_empty l)

variable [DecidableEq κ]

/-- The program is safe, and ends as `Q` says. -/
abbrev SafeProg {ρ : Type} (p : ServerProg κ ρ) (held : Finset (ServerLock κ)) (Q : ρ → Finset (ServerLock κ) → Prop) : Prop :=
  p.Safe ServerLock.rank Access.guard held Q

/-- What the comment on `get_account` promises: the account that is found is locked, and nothing else. -/
def LocksAccount (getAccount : Word → ServerProg κ (Option Word)) : Prop :=
  ∀ id, SafeProg (getAccount id) ∅ fun r held =>
    match r with
    | some account => held = {.account account}
    | none => held = ∅

lemma OnlyAccounts.insert_lt_client (h : OnlyAccounts held) (c : κ) :
    ∀ l ∈ insert .clientConns held, l.rank < (ServerLock.client c).rank := by
  intro l hl
  rcases Finset.mem_insert.1 hl with rfl | hl
  · exact (by decide : 2 < 3)
  · exact h.lt_client c l hl

/-- The map is unlocked when the client is locked. -/
lemma OnlyAccounts.handOver (h : OnlyAccounts held) (c : κ) :
    (insert (.client c) (insert .clientConns held) : Finset (ServerLock κ)).erase .clientConns = insert (.client c) held := by
  rw [Finset.erase_insert_of_ne (by simp), Finset.erase_insert h.clientConns]

lemma guard_subset (c : κ) : ({.client c} : Finset (ServerLock κ)) ⊆ insert (.client c) held :=
  Finset.singleton_subset_iff.2 (Finset.mem_insert_self _ _)

lemma guard_conns : ({.clientConns} : Finset (ServerLock κ)) ⊆ insert .clientConns held :=
  Finset.singleton_subset_iff.2 (Finset.mem_insert_self _ _)

namespace Server

/-- Unlocking a client at the end of a function. -/
lemma safe_release {ρ : Type} (h : OnlyAccounts held) (r : ρ) :
    SafeProg (do mutexUnlock (.client c); return r) (insert (.client c) held) fun _ rest => rest = held := by
  refine safe_unlock (Finset.mem_insert_self _ _) ?_
  exact safe_pure (Finset.erase_insert (h.client c))

/-- Finding and locking a client, which both functions that send begin with. -/
lemma safe_lockClient (h : OnlyAccounts held) (clientId : Word) {f : κ → ServerProg κ Int}
    (hf : ∀ client, SafeProg (f client) (insert (.client client) held) fun _ rest => rest = held) :
    SafeProg (do
      mutexLock .clientConns
      match ← perform (Access.findClient clientId) with
      | none =>
        mutexUnlock .clientConns
        return -ecliNotFound
      | some client =>
        mutexLock (.client client)
        mutexUnlock .clientConns
        f client) held fun _ rest => rest = held := by
  refine safe_lock h ?_
  refine safe_perform guard_conns fun entry => ?_
  cases entry with
  | none =>
    refine safe_unlock (Finset.mem_insert_self _ _) ?_
    exact safe_pure (Finset.erase_insert h.clientConns)
  | some client =>
    refine safe_lock (h.insert_lt_client client) ?_
    refine safe_unlock (Finset.mem_insert_of_mem (Finset.mem_insert_self _ _)) ?_
    rw [h.handOver client]
    exact hf client

/-- A client is disconnected before it is unlocked. -/
lemma safe_disconnect {ρ : Type} (h : OnlyAccounts held) (r : ρ) :
    SafeProg (do
      perform (Access.setConnected c false)
      perform (Access.close c .request)
      perform (Access.close c .notification)
      mutexUnlock (.client c)
      return r) (insert (.client c) held) fun _ rest => rest = held := by
  refine safe_perform (guard_subset c) fun _ => ?_
  refine safe_perform (guard_subset c) fun _ => ?_
  refine safe_perform (guard_subset c) fun _ => ?_
  exact safe_release h r

lemma safe_sendResponse (h : OnlyAccounts held) (clientId : Word) (resp : Response) :
    SafeProg (sendResponse clientId resp : ServerProg κ Int) held fun _ rest => rest = held := by
  refine safe_lockClient h clientId fun client => ?_
  refine safe_perform (guard_subset client) fun bytes => ?_
  dsimp only
  split
  · exact safe_disconnect h 0
  · exact safe_release h 0

lemma safe_sendNotification (h : OnlyAccounts held) (clientId : Word) (n : Notification) :
    SafeProg (sendNotification clientId n : ServerProg κ Int) held fun _ rest => rest = held := by
  refine safe_lockClient h clientId fun client => ?_
  refine safe_perform (guard_subset client) fun connected => ?_
  dsimp only
  split
  · refine safe_perform (guard_subset client) fun bytes => ?_
    split
    · exact safe_disconnect h 0
    · exact safe_release h 0
  · exact safe_release h 0

lemma safe_handleMissingClients {getAccount : Word → ServerProg κ (Option Word)} (hget : LocksAccount getAccount) (err : Int)
    (req : Request) (amount : Word) :
    SafeProg (handleMissingClients getAccount err req amount) ∅ fun _ rest => rest = ∅ := by
  unfold handleMissingClients
  split
  · exact safe_pure rfl
  · refine safe_bind ((hget req.originClientId).mono fun found held hfound => ?_)
    cases found with
    | none =>
      dsimp only at hfound
      rw [hfound]
      exact safe_pure rfl
    | some firstAccount =>
      dsimp only at hfound
      rw [hfound]
      have haccounts : OnlyAccounts ({.account firstAccount} : Finset (ServerLock κ)) := by
        intro l hl
        rw [Finset.mem_singleton] at hl
        rw [hl]
        exact (by decide : 1 < 2)
      refine safe_bind ((safe_sendResponse haccounts _ _).mono fun _ rest hrest => ?_)
      rw [hrest]
      refine safe_unlock (Finset.mem_singleton_self _) ?_
      exact safe_pure (Finset.erase_singleton _)

lemma safe_handleReconnectingClient (newClient : ConnFields) (existingClient : κ) :
    SafeProg (handleReconnectingClient newClient existingClient) ∅ fun _ rest => rest = ∅ := by
  have hrelease : SafeProg (mutexUnlock (.client existingClient)) (insert (.client existingClient) ∅) fun _ rest => rest = ∅ :=
    ⟨Finset.mem_insert_self _ _, Finset.erase_insert (Finset.notMem_empty _)⟩
  refine safe_lock (onlyAccounts_empty.lt_client existingClient) ?_
  refine safe_perform (guard_subset existingClient) fun connected => ?_
  dsimp only
  split
  · refine safe_perform (Finset.empty_subset _) fun _ => ?_
    refine safe_perform (Finset.empty_subset _) fun _ => ?_
    exact hrelease
  · refine safe_perform (guard_subset existingClient) fun _ => ?_
    refine safe_perform (guard_subset existingClient) fun _ => ?_
    exact hrelease

/-! ### The rounds of `fetch_requests` -/

/-- The mutexes of the map and of clients. -/
def withClients (clients : List κ) : Finset (ServerLock κ) := insert .clientConns (clients.toFinset.image .client)

lemma mem_withClients {clients : List κ} : .client c ∈ withClients clients ↔ c ∈ clients := by
  unfold withClients
  simp

lemma withClients_append (clients : List κ) (c : κ) :
    withClients (clients ++ [c]) = insert (.client c) (withClients clients) := by
  unfold withClients
  ext l
  simp only [List.toFinset_append, Finset.mem_insert, Finset.mem_image, Finset.mem_union, List.mem_toFinset, List.mem_singleton]
  constructor
  · rintro (rfl | ⟨d, hd | rfl, rfl⟩)
    · exact Or.inr (Or.inl rfl)
    · exact Or.inr (Or.inr ⟨d, hd, rfl⟩)
    · exact Or.inl rfl
  · rintro (rfl | rfl | ⟨d, hd, rfl⟩)
    · exact Or.inr ⟨c, Or.inr rfl, rfl⟩
    · exact Or.inl rfl
    · exact Or.inr ⟨d, Or.inl hd, rfl⟩

section Rounds

variable {ρ : Type} {Q : ρ → Finset (ServerLock κ) → Prop}

lemma safe_collectClients {available rest : List κ} (hnodup : (available ++ rest).Nodup) {next : List κ → ServerProg κ ρ}
    (hnext : ∀ clients, clients.Nodup → SafeProg (next clients) (withClients clients) Q) :
    SafeProg (fetchOps.collectClients available rest next) (withClients available) Q := by
  induction rest generalizing available with
  | nil =>
    rw [List.append_nil] at hnodup
    exact hnext available hnodup
  | cons client rest ih =>
    have hfresh : .client client ∉ withClients available := by
      rw [mem_withClients]
      exact fun hin => (List.nodup_middle.1 hnodup).notMem (List.mem_append_left _ hin)
    have hskip : (available ++ rest).Nodup := hnodup.sublist (List.Sublist.append_left (List.sublist_cons_self _ _) _)
    have htake : (available ++ [client] ++ rest).Nodup := by
      rw [List.append_assoc]
      exact hnodup
    refine safe_tryLock hfresh ?_ ?_
    · refine safe_perform (guard_subset client) fun connected => ?_
      cases connected with
      | false =>
        refine safe_unlock (Finset.mem_insert_self _ _) ?_
        rw [Finset.erase_insert hfresh]
        exact ih hskip
      | true =>
        rw [← withClients_append]
        exact ih htake
    · exact ih hskip

lemma safe_preparePollFds {fds : List PollFd} {clients : List κ} (hnodup : clients.Nodup) {next : List PollFd → ServerProg κ ρ}
    (hnext : ∀ pollFds, SafeProg (next pollFds) {.clientConns} Q) :
    SafeProg (fetchOps.preparePollFds fds clients next) (withClients clients) Q := by
  induction clients generalizing fds with
  | nil => exact hnext fds
  | cons client rest ih =>
    have hcons : withClients (client :: rest) = insert (.client client) (withClients rest) := by
      unfold withClients
      rw [List.toFinset_cons, Finset.image_insert, Finset.insert_comm]
    have hfresh : .client client ∉ withClients rest := by
      rw [mem_withClients]
      exact hnodup.notMem
    rw [hcons]
    refine safe_perform (guard_subset client) fun fd => ?_
    refine safe_unlock (Finset.mem_insert_self _ _) ?_
    rw [Finset.erase_insert hfresh]
    exact ih hnodup.of_cons

lemma safe_readClients {requests : List ClientRequest} {clients : List κ} {next : List ClientRequest → ServerProg κ ρ}
    (hnext : ∀ requests, SafeProg (next requests) ∅ Q) : SafeProg (fetchOps.readClients requests clients next) ∅ Q := by
  induction clients generalizing requests with
  | nil => exact hnext requests
  | cons client rest ih =>
    refine safe_tryLock (Finset.notMem_empty _) ?_ ih
    have hrest : ∀ req : Option ClientRequest, SafeProg (do
        mutexUnlock (.client client)
        fetchOps.readClients (requests ++ req.toList) rest next) (insert (.client client) ∅) Q := by
      intro req
      refine safe_unlock (Finset.mem_insert_self _ _) ?_
      rw [Finset.erase_insert (Finset.notMem_empty _)]
      exact ih
    refine safe_perform (guard_subset client) fun answer => ?_
    dsimp only
    split
    · refine safe_perform (guard_subset client) fun _ => ?_
      refine safe_perform (guard_subset client) fun _ => ?_
      refine safe_perform (guard_subset client) fun _ => ?_
      exact hrest none
    · exact hrest (some answer.2)

end Rounds

lemma safe_fetchRequests : SafeProg (fetchRequests : ServerProg κ (List ClientRequest)) ∅ fun _ held => held = ∅ := by
  have hdone : ({.clientConns} : Finset (ServerLock κ)).erase .clientConns = ∅ := Finset.erase_singleton _
  refine safe_lock (fun l hl => absurd hl (Finset.notMem_empty l)) ?_
  refine safe_perform guard_conns fun clientConns => ?_
  have hnodup : ([] ++ clientConns.clients).Nodup := clientConns.nodup
  refine safe_collectClients hnodup fun available hnodup' => ?_
  split
  · rename_i hnone
    rw [List.length_eq_zero_iff.1 hnone]
    refine safe_unlock (Finset.mem_insert_self _ _) ?_
    exact safe_pure hdone
  · refine safe_preparePollFds hnodup' fun fds => ?_
    refine safe_unlock (Finset.mem_singleton_self _) ?_
    rw [hdone]
    refine safe_perform (Finset.empty_subset _) fun answer => ?_
    dsimp only
    split
    · exact safe_pure rfl
    · exact safe_readClients fun _ => safe_pure rfl

/-! ### The threads -/

section Threads

variable {getAccount : Word → ServerProg κ (Option Word)} (hget : LocksAccount getAccount)
include hget

lemma safe_call (call : Call κ) : SafeProg (call.prog getAccount) ∅ fun _ rest => rest = ∅ := by
  have hreturn : ∀ (rest : Finset (ServerLock κ)), rest = ∅ →
      SafeProg (pure () : ServerProg κ Unit) rest fun _ rest => rest = ∅ := fun _ hrest => safe_pure hrest
  cases call with
  | sendResponse clientId resp =>
    exact safe_bind ((safe_sendResponse onlyAccounts_empty clientId resp).mono fun _ => hreturn)
  | sendNotification clientId n =>
    exact safe_bind ((safe_sendNotification onlyAccounts_empty clientId n).mono fun _ => hreturn)
  | handleMissingClients err req amount => exact safe_handleMissingClients hget err req amount
  | handleReconnectingClient newClient existingClient => exact safe_handleReconnectingClient newClient existingClient
  | fetchRequests => exact safe_bind (safe_fetchRequests.mono fun _ => hreturn)

lemma safe_runCalls (calls : List (Call κ)) : SafeProg (runCalls getAccount calls) ∅ fun _ rest => rest = ∅ := by
  induction calls with
  | nil => exact safe_pure rfl
  | cons call calls ih =>
    refine safe_bind ((safe_call hget call).mono ?_)
    rintro _ _ rfl
    exact ih

variable {n : Nat} (calls : Fin n → List (Call κ)) (s : Shared κ)

lemma disciplined_start : Disciplined ServerLock.rank Access.guard (start getAccount calls s) fun _ => ∅ :=
  ⟨fun _ _ => iff_of_false (Finset.notMem_empty _) (fun hnone => nomatch hnone), fun t => safe_runCalls hget (calls t)⟩

end Threads

omit [DecidableEq κ] in
lemma effect_total [DecidableEq κ] (s : Shared κ) (a : Access κ) : ∃ b s', effect s a b s' := by
  cases a with
  | findAccount id => exact ⟨_, _, rfl, rfl⟩
  | findClient id => exact ⟨_, _, rfl, rfl⟩
  | clients => exact ⟨_, _, rfl, rfl⟩
  | isConnected c => exact ⟨_, _, rfl, rfl⟩
  | setConnected c b => exact ⟨(), _, rfl⟩
  | requestFd c => exact ⟨_, _, rfl, rfl⟩
  | setFds c a b => exact ⟨(), _, rfl⟩
  | write c side msg => exact ⟨0, _, rfl⟩
  | read c => exact ⟨(0, ⟨.balance, 0, 0, 0⟩), _, rfl⟩
  | close c side => exact ⟨(), _, rfl⟩
  | closeNew fd => exact ⟨(), _, rfl⟩
  | poll fds => exact ⟨(0, fun _ => 0), _, rfl⟩

/-- The fields of a client change only by accesses that its mutex guards. -/
lemma effect_conn {s s' : Shared κ} {a : Access κ} {b : Answer κ a} (h : effect s a b s') {c : κ}
    (hne : s'.conn c ≠ s.conn c) : .client c ∈ a.guard := by
  have hset : ∀ (d : κ) (conn : ConnFields), s' = s.setConn d conn → .client c ∈ ({.client d} : Finset (ServerLock κ)) := by
    rintro d conn rfl
    change Function.update s.conn d conn c ≠ s.conn c at hne
    by_cases hd : c = d
    · rw [hd]
      exact Finset.mem_singleton_self _
    · exact absurd (Function.update_of_ne hd conn s.conn) hne
  cases a with
  | setConnected d b => exact hset d _ h
  | setFds d a b => exact hset d _ h
  | findAccount id => exact absurd (congrArg (fun s => s.conn c) h.2) hne
  | findClient id => exact absurd (congrArg (fun s => s.conn c) h.2) hne
  | clients => exact absurd (congrArg (fun s => s.conn c) h.2) hne
  | isConnected d => exact absurd (congrArg (fun s => s.conn c) h.2) hne
  | requestFd d => exact absurd (congrArg (fun s => s.conn c) h.2) hne
  | write d side msg => exact absurd (congrArg (fun s => s.conn c) h) hne
  | read d => exact absurd (congrArg (fun s => s.conn c) h) hne
  | close d side => exact absurd (congrArg (fun s => s.conn c) h) hne
  | closeNew fd => exact absurd (congrArg (fun s => s.conn c) h) hne
  | poll fds => exact absurd (congrArg (fun s => s.conn c) h) hne

/-! ### Two versions of `get_account` -/

/-- `get_account` as it stands: no account is found. -/
def getAccount (_ : Word) : ServerProg κ (Option Word) := return none

lemma locksAccount_getAccount : LocksAccount (getAccount (κ := κ)) := fun _ => safe_pure rfl

/-- A `get_account` that does what the comment promises. -/
def lockAccount (id : Word) : ServerProg κ (Option Word) := do
  mutexLock .accounts
  match ← perform (Access.findAccount id) with
  | none =>
    mutexUnlock .accounts
    return none
  | some account =>
    mutexLock (.account account)
    mutexUnlock .accounts
    return some account

lemma locksAccount_lockAccount : LocksAccount (lockAccount (κ := κ)) := by
  intro id
  refine safe_lock (fun l hl => absurd hl (Finset.notMem_empty l)) ?_
  refine safe_perform (Finset.Subset.refl _) fun found => ?_
  cases found with
  | none =>
    refine safe_unlock (Finset.mem_insert_self _ _) ?_
    exact safe_pure (Finset.erase_insert (Finset.notMem_empty _))
  | some account =>
    refine safe_lock (fun l hl => ?_) ?_
    · rw [Finset.mem_insert] at hl
      rcases hl with rfl | hl
      · exact Nat.zero_lt_one
      · exact absurd hl (Finset.notMem_empty l)
    · refine safe_unlock (Finset.mem_insert_of_mem (Finset.mem_insert_self _ _)) ?_
      refine safe_pure ?_
      dsimp only
      rw [Finset.erase_insert_of_ne (by simp), Finset.erase_insert (Finset.notMem_empty _)]
      rfl

/-- Two threads: one sends a response and answers a request without a target, and one fetches requests. -/
def twoThreads : Fin 2 → List (Call Word)
  | 0 => [.sendResponse 3 ⟨0, 1, ""⟩, .handleMissingClients (-etarNotFound) ⟨3, 5, 1⟩ 0]
  | 1 => [.fetchRequests]

/-- A client that is connected, with an account. -/
def oneClient : Shared Word :=
  ⟨fun id => id = 3, ⟨[3], List.nodup_singleton 3⟩, id, fun _ => ⟨4, 5, true⟩⟩

/-! ### The runs of the server -/

/-- A run of the server, from threads that start with their calls. -/
abbrev Reachable (getAccount : Word → ServerProg κ (Option Word)) {n : Nat} (calls : Fin n → List (Call κ)) (s : Shared κ)
    (c : Config (ServerLock κ) (Access κ) (Answer κ) Unit (Fin n) (Shared κ)) : Prop :=
  Reaches effect (start getAccount calls s) c

end Server

end Discipline

end Cs300Projects.Vunmo
