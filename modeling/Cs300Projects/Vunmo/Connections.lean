import Mathlib.Logic.Function.Basic
import Mathlib.Tactic.Common

/-!
# Threads, connections and descriptors of the Vunmo server

`send_response`, `send_notification`, `fetch_requests` and `handle_reconnecting_client` of
`vunmo-server.cc`, statement by statement, for any number of threads. Every statement that locks,
tests or sets a field, or makes a system call, is a step of its own, and steps of different threads
interleave. A descriptor number is open for one accepted connection at a time, and may be given
to another one once it is closed.
-/

namespace Cs300Projects.Vunmo

inductive Side where
  | request
  | notification
  deriving DecidableEq

/-- A `client_conn_t`. `gen` is the accepted connection that its descriptors came with. -/
structure Conn (τ : Type*) where
  requestFd : Nat
  notificationFd : Nat
  isConnected : Bool
  mtx : Option τ
  gen : Nat

def Conn.fd {τ : Type*} (conn : Conn τ) : Side → Nat
  | .request => conn.requestFd
  | .notification => conn.notificationFd

/-- The `client_conn_t` that `accept_client` returns for a client that reconnects. -/
structure NewClient where
  requestFd : Nat
  notificationFd : Nat
  gen : Nat
  deriving DecidableEq

/-- The statement that a thread executes next. `rest` is what the read phase of `fetch_requests` still
has to visit after it; a thread at `reading []` is outside all operations. -/
inductive Pc (ι : Type*) where
  | reading (rest : List ι)
  | collecting (available : List ι)
  | write (c : ι) (side : Side)
  | clearFlag (c : ι)
  | read (c : ι) (rest : List ι)
  | closeRequest (c : ι) (inRead : Bool) (rest : List ι)
  | closeNotification (c : ι) (inRead : Bool) (rest : List ι)
  | clearFlagAfter (c : ι) (rest : List ι)
  | unlock (c : ι) (rest : List ι)
  | accepted (new : NewClient)
  | testConnected (c : ι) (new : NewClient)
  | rejectRequest (c : ι) (new : NewClient)
  | rejectNotification (c : ι) (new : NewClient)
  | installRequest (c : ι) (new : NewClient)
  | installNotification (c : ι) (new : NewClient)
  | setFlag (c : ι)
  deriving DecidableEq

inductive FdOp where
  | read
  | write
  | close
  deriving DecidableEq

/-- A system call on a descriptor, made for the connection `gen`; `owner` is the connection that the
number was open for. -/
structure Event where
  op : FdOp
  fd : Nat
  gen : Nat
  owner : Option Nat
  deriving DecidableEq

structure State (ι τ : Type*) where
  conns : ι → Conn τ
  pc : τ → Pc ι
  table : Nat → Option Nat
  nextGen : Nat

/-- What a thread does next. The flag of `proceed` says whether a read or write is complete. -/
inductive Action (ι τ : Type*) where
  | sendResponse (t : τ) (c : ι)
  | sendNotification (t : τ) (c : ι)
  | snapshot (t : τ) (c : ι)
  | poll (t : τ) (ready : List ι)
  | lockRead (t : τ)
  | skipRead (t : τ)
  | acceptClient (t : τ) (requestFd notificationFd : Nat)
  | reconnect (t : τ) (c : ι)
  | proceed (t : τ) (full : Bool)

section Steps

variable {ι τ : Type*}

namespace State

def setFd (s : State ι τ) (fd : Nat) (owner : Option Nat) : State ι τ :=
  { s with table := Function.update s.table fd owner }

@[simp] lemma setFd_table (s : State ι τ) (fd : Nat) (owner : Option Nat) :
    (s.setFd fd owner).table = Function.update s.table fd owner := rfl

def event (s : State ι τ) (op : FdOp) (fd gen : Nat) : Event := ⟨op, fd, gen, s.table fd⟩

section Threads

variable [DecidableEq τ]

def setPc (s : State ι τ) (t : τ) (pc : Pc ι) : State ι τ :=
  { s with pc := Function.update s.pc t pc }

@[simp] lemma setPc_conns (s : State ι τ) (t : τ) (pc : Pc ι) : (s.setPc t pc).conns = s.conns := rfl

@[simp] lemma setPc_pc (s : State ι τ) (t : τ) (pc : Pc ι) :
    (s.setPc t pc).pc = Function.update s.pc t pc := rfl

@[simp] lemma setPc_table (s : State ι τ) (t : τ) (pc : Pc ι) : (s.setPc t pc).table = s.table := rfl

@[simp] lemma setPc_nextGen (s : State ι τ) (t : τ) (pc : Pc ι) : (s.setPc t pc).nextGen = s.nextGen :=
  rfl

end Threads

section Clients

variable [DecidableEq ι]

def setConn (s : State ι τ) (c : ι) (conn : Conn τ) : State ι τ :=
  { s with conns := Function.update s.conns c conn }

@[simp] lemma setConn_self (s : State ι τ) (c : ι) (conn : Conn τ) : (s.setConn c conn).conns c = conn :=
  Function.update_self ..

lemma setConn_of_ne (s : State ι τ) {c d : ι} (hd : d ≠ c) (conn : Conn τ) :
    (s.setConn c conn).conns d = s.conns d :=
  Function.update_of_ne hd ..

@[simp] lemma setConn_table (s : State ι τ) (c : ι) (conn : Conn τ) : (s.setConn c conn).table = s.table :=
  rfl

/-- `client->mtx.lock()`, or a `try_lock` that succeeds. -/
def lock (s : State ι τ) (t : τ) (c : ι) : State ι τ :=
  s.setConn c { s.conns c with mtx := some t }

def unlock (s : State ι τ) (c : ι) : State ι τ := s.setConn c { s.conns c with mtx := none }

def unlockAll (s : State ι τ) (cs : List ι) : State ι τ := cs.foldl unlock s

def setConnected (s : State ι τ) (c : ι) (b : Bool) : State ι τ :=
  s.setConn c { s.conns c with isConnected := b }

end Clients

variable [DecidableEq ι] [DecidableEq τ]

/-- The statement at which the thread stands. -/
def proceed (s : State ι τ) (t : τ) (full : Bool) : Option (State ι τ × List Event) :=
  match s.pc t with
  | .reading _ => none
  | .collecting _ => none
  | .accepted _ => none
  | .write c side =>
    let conn := s.conns c
    some (s.setPc t (if full then .unlock c [] else .clearFlag c),
      [s.event .write (conn.fd side) conn.gen])
  | .clearFlag c => some ((s.setConnected c false).setPc t (.closeRequest c false []), [])
  | .read c rest =>
    let conn := s.conns c
    some (s.setPc t (if full then .unlock c rest else .closeRequest c true rest),
      [s.event .read conn.requestFd conn.gen])
  | .closeRequest c inRead rest =>
    let conn := s.conns c
    some ((s.setFd conn.requestFd none).setPc t (.closeNotification c inRead rest),
      [s.event .close conn.requestFd conn.gen])
  | .closeNotification c inRead rest =>
    let conn := s.conns c
    some ((s.setFd conn.notificationFd none).setPc t
      (if inRead then .clearFlagAfter c rest else .unlock c rest),
      [s.event .close conn.notificationFd conn.gen])
  | .clearFlagAfter c rest => some ((s.setConnected c false).setPc t (.unlock c rest), [])
  | .unlock c rest => some ((s.unlock c).setPc t (.reading rest), [])
  | .testConnected c new =>
    some (s.setPc t (if (s.conns c).isConnected then .rejectRequest c new else .installRequest c new), [])
  | .rejectRequest c new =>
    some ((s.setFd new.requestFd none).setPc t (.rejectNotification c new),
      [s.event .close new.requestFd new.gen])
  | .rejectNotification c new =>
    some ((s.setFd new.notificationFd none).setPc t (.unlock c []),
      [s.event .close new.notificationFd new.gen])
  | .installRequest c new =>
    some ((s.setConn c { s.conns c with requestFd := new.requestFd, gen := new.gen }).setPc t
      (.installNotification c new), [])
  | .installNotification c new =>
    some ((s.setConn c { s.conns c with notificationFd := new.notificationFd }).setPc t (.setFlag c), [])
  | .setFlag c => some ((s.setConnected c true).setPc t (.unlock c []), [])

/-- One step of a thread, with its system calls; `none` when the thread cannot make it. -/
def step (s : State ι τ) : Action ι τ → Option (State ι τ × List Event)
  | .sendResponse t c =>
    if s.pc t = .reading [] ∧ (s.conns c).mtx = none then
      some ((s.lock t c).setPc t (.write c .request), [])
    else none
  | .sendNotification t c =>
    if s.pc t = .reading [] ∧ (s.conns c).mtx = none then
      some ((s.lock t c).setPc t
        (if (s.conns c).isConnected then .write c .notification else .unlock c []), [])
    else none
  | .snapshot t c =>
    -- the first round of `fetch_requests`: disconnected clients are unlocked at once
    if (s.conns c).mtx = none then
      match s.pc t with
      | .reading [] =>
        if (s.conns c).isConnected then some ((s.lock t c).setPc t (.collecting [c]), []) else some (s, [])
      | .collecting available =>
        if (s.conns c).isConnected then
          some ((s.lock t c).setPc t (.collecting (available ++ [c])), [])
        else some (s, [])
      | _ => none
    else none
  | .poll t ready =>
    match s.pc t with
    | .collecting available =>
      if ready.Sublist available then some ((s.unlockAll available).setPc t (.reading ready), [])
      else none
    | _ => none
  | .lockRead t =>
    match s.pc t with
    | .reading (c :: rest) =>
      if (s.conns c).mtx = none then some ((s.lock t c).setPc t (.read c rest), []) else none
    | _ => none
  | .skipRead t =>
    match s.pc t with
    | .reading (_ :: rest) => some (s.setPc t (.reading rest), [])
    | _ => none
  | .acceptClient t a b =>
    if s.pc t = .reading [] ∧ s.table a = none ∧ s.table b = none ∧ a ≠ b then
      some ({ (((s.setFd a (some s.nextGen)).setFd b (some s.nextGen)).setPc t
        (.accepted ⟨a, b, s.nextGen⟩)) with nextGen := s.nextGen + 1 }, [])
    else none
  | .reconnect t c =>
    match s.pc t with
    | .accepted new =>
      if (s.conns c).mtx = none then some ((s.lock t c).setPc t (.testConnected c new), []) else none
    | _ => none
  | .proceed t full => s.proceed t full

/-- The steps of an interleaving, with all system calls in order. -/
def run (s : State ι τ) : List (Action ι τ) → Option (State ι τ × List Event)
  | [] => some (s, [])
  | a :: actions =>
    match s.step a with
    | none => none
    | some (s', events) =>
      match run s' actions with
      | none => none
      | some (s'', events') => some (s'', events ++ events')

end State

end Steps

end Cs300Projects.Vunmo
