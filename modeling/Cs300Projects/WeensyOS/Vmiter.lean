import Cs300Projects.Lib.Loop
import Cs300Projects.WeensyOS.PageTable

/-!
# `vmiter`: the virtual memory iterator

The class `vmiter` of `k-vmiter.hh` and `k-vmiter.cc`. Operations that the kernel can stop in
return `Except Stop`; memory is passed in explicitly, and `tryMap`, which writes it, passes it on.
-/

namespace Cs300Projects.WeensyOS
open Loop

/-- The ways the kernel stops: `panic` and a failed `assert`, with its expression. -/
inductive Stop where
  | panic
  | assertFail (expr : String)
  deriving DecidableEq

structure Vmiter where
  pt_ : PagePtr
  pep_ : EntryPtr
  level_ : Nat
  perm_ : BitVec 32
  va_ : Word
  deriving DecidableEq

def initialPerm : BitVec 32 := 0xFFF#32

/-- `perm &= e`: computed in 64 bits, then truncated to `int`. -/
def andPerm (perm : BitVec 32) (e : Word) : BitVec 32 := (perm.signExtend 64 &&& e).setWidth 32

namespace EntryPtr

/-- `((uintptr_t) pep & PAGEOFFMASK) >> 3` -/
def index : EntryPtr → Nat
  | .zeroPe => 0
  | .entry a => ((a &&& pageoffmaskBase) >>> 3).toNat

/-- `pep + k`. Nothing moves a pointer to the shared zero entry: `vmiter` then has level 3. -/
def add (k : Int) : EntryPtr → EntryPtr
  | .zeroPe => .zeroPe
  | .entry a => .entry (a + 8#64 * BitVec.ofInt 64 k)

end EntryPtr

namespace Vmiter

/-! ### Walking -/

/-- The loop of `down`, which runs at most `level_` times. -/
def descend (m : Memory) : Nat → Vmiter → Vmiter
  | 0, it => it
  | level + 1, it =>
    if IsTable (m.read it.pep_) then
      descend m level
        { it with
          perm_ := andPerm it.perm_ (m.read it.pep_)
          level_ := level
          pep_ := .entry ((tableOf (m.read it.pep_)).entry (pageindex it.va_ level)) }
    else it

/-- The test for uninitialized memory at the end of `down`. -/
def check (m : Memory) (it : Vmiter) : Except Stop Vmiter :=
  if 0x100000000#64 ≤ m.read it.pep_ &&& ptePamask then .error .panic else .ok it

def down (m : Memory) (it : Vmiter) : Except Stop Vmiter := check m (descend m it.level_ it)

def realFind (m : Memory) (va : Word) (it : Vmiter) : Except Stop Vmiter :=
  let it :=
    if it.level_ = 3 ∨ (it.va_ ^^^ va) &&& ~~~pageoffmask (it.level_ + 1) ≠ 0#64 then
      if vaIsCanonical va then
        { it with level_ := 3, perm_ := initialPerm, pep_ := .entry (it.pt_.entry (pageindex va 3)) }
      else
        { it with level_ := 3, perm_ := 0#32, pep_ := .zeroPe }
    else
      { it with pep_ := it.pep_.add ((pageindex va it.level_ : Int) - it.pep_.index) }
  down m { it with va_ := va }

/-- `vmiter(pt, va)` -/
def new (m : Memory) (pt : PagePtr) (va : Word) : Except Stop Vmiter :=
  realFind m va ⟨pt, .entry (pt.entry 0), 3, initialPerm, 0#64⟩

def find (m : Memory) (va : Word) (it : Vmiter) : Except Stop Vmiter := realFind m va it

/-! ### Observers -/

def lastVa (it : Vmiter) : Word := (it.va_ ||| pageoffmask it.level_) + 1#64

def low (it : Vmiter) : Bool := decide (it.va_ ≤ vaLowmax)

def present (m : Memory) (it : Vmiter) : Bool := decide (m.read it.pep_ &&& pteP ≠ 0#64)

def pa (m : Memory) (it : Vmiter) : Word :=
  if m.read it.pep_ &&& pteP ≠ 0#64 then
    let pa := m.read it.pep_ &&& ptePamask
    let pa := if 0 < it.level_ then pa &&& ~~~0x1000#64 else pa
    pa + (it.va_ &&& pageoffmask it.level_)
  else -1#64

def perm (m : Memory) (it : Vmiter) : Word :=
  if m.read it.pep_ &&& pteP ≠ 0#64 then m.read it.pep_ &&& it.perm_.signExtend 64 else 0#64

/-- `perm(p)`: are all permissions `p` enabled? -/
def hasPerm (m : Memory) (p : Word) (it : Vmiter) : Bool :=
  decide (m.read it.pep_ &&& it.perm_.signExtend 64 &&& p = p)

def writable (m : Memory) (it : Vmiter) : Bool := it.hasPerm m (pteP ||| pteW)

def user (m : Memory) (it : Vmiter) : Bool := it.hasPerm m (pteP ||| pteU)

/-! ### Moving -/

/-- `it += delta` -/
def advance (m : Memory) (delta : Word) (it : Vmiter) : Except Stop Vmiter :=
  it.find m (it.va_ + delta)

/-- `it -= delta` -/
def retreat (m : Memory) (delta : Word) (it : Vmiter) : Except Stop Vmiter :=
  it.find m (it.va_ - delta)

def next (m : Memory) (it : Vmiter) : Except Stop Vmiter :=
  let level := if 0 < it.level_ ∧ it.perm m = 0#64 then it.level_ else 0
  it.realFind m ((it.va_ ||| pageoffmask level) + 1#64)

def nextRange (m : Memory) (it : Vmiter) : Except Stop Vmiter := it.realFind m it.lastVa

/-! ### Permission of a range -/

def permRangeRound (m : Memory) (last p : Word) (it : Vmiter) :
    Round Vmiter (Except Stop (Bool × Vmiter)) :=
  if it.va_ < last then
    if it.hasPerm m p then
      match it.nextRange m with
      | .ok it' => .next it'
      | .error e => .done (.error e)
    else .done (.ok (false, it))
  else .done (.ok (true, it))

/-- `perm(last_va, p)` -/
def permRange (fuel : Nat) (m : Memory) (last p : Word) (it : Vmiter) :
    Option (Except Stop (Bool × Vmiter)) :=
  run (permRangeRound m last p) fuel it

/-- `find(first).perm(last, p)` -/
def findPermRange (fuel : Nat) (m : Memory) (first last p : Word) (it : Vmiter) :
    Option (Except Stop (Bool × Vmiter)) :=
  match it.find m first with
  | .ok it' => it'.permRange fuel m last p
  | .error e => some (.error e)

/-- `low_perm(first, last, p)` -/
def lowPerm (fuel : Nat) (m : Memory) (first last p : Word) (it : Vmiter) :
    Option (Except Stop (Bool × Vmiter)) :=
  if first ≤ last ∧ last ≤ vaLowend then
    if first = last then some (.ok (true, it)) else it.findPermRange fuel m first last p
  else some (.ok (false, it))

/-- `low_perm(first, size, p)` -/
def lowPermSize (fuel : Nat) (m : Memory) (first size p : Word) (it : Vmiter) :
    Option (Except Stop (Bool × Vmiter)) :=
  if first ≤ vaLowend ∧ size ≤ vaLowend - first then
    if size = 0#64 then some (.ok (true, it)) else it.findPermRange fuel m first (first + size) p
  else some (.ok (false, it))

end Vmiter

/-! ### Mapping -/

/-- Memory, the pages that `kalloc` is still going to return, and the iterator. -/
structure MapState where
  mem : Memory
  free : List PagePtr
  it : Vmiter

/-- The loop of `try_map`: installs tables until `level_` is 0. Every round goes down, so it
runs at most `level_` times. The flag is false when `kalloc` returned `nullptr`. -/
def installTables (perm : BitVec 32) : Nat → MapState → Except Stop (Bool × MapState)
  | 0, s => .ok (true, s)
  | fuel + 1, s =>
    if 0 < s.it.level_ ∧ perm ≠ 0#32 then
      if s.mem.read s.it.pep_ &&& pteP ≠ 0#64 then .error (.assertFail "!(*pep_ & PTE_P)")
      else
        match s.free with
        | [] => .ok (false, s)
        | pt :: free =>
          let mem := (s.mem.clearPage pt).write s.it.pep_ (pt.addr ||| pteP ||| pteW ||| pteU)
          match s.it.down mem with
          | .ok it => installTables perm fuel ⟨mem, free, it⟩
          | .error e => .error e
    else .ok (true, s)

def tryMap (pa : Word) (perm : BitVec 32) (s : MapState) : Except Stop (Int × MapState) :=
  let perm64 := perm.signExtend 64
  let pa := if pa = -1#64 ∧ perm = 0#32 then 0#64 else pa
  if s.it.va_ &&& pageoffmaskBase ≠ 0#64 then .error (.assertFail "!(va_ & PAGEOFFMASK)")
  else if perm64 &&& pteP ≠ 0#64 ∧ pa = -1#64 then .error (.assertFail "pa != (uintptr_t) -1")
  else if perm64 &&& pteP ≠ 0#64 ∧ pa &&& ptePamask ≠ pa then
    .error (.assertFail "(pa & PTE_PAMASK) == pa")
  else if perm64 &&& pteP = 0#64 ∧ pa &&& pteP ≠ 0#64 then .error (.assertFail "!(pa & PTE_P)")
  else if (perm &&& ~~~s.it.perm_).signExtend 64 &&& (pteP ||| pteW ||| pteU) ≠ 0#64 then
    .error (.assertFail "!(perm & ~perm_ & (PTE_P | PTE_W | PTE_U))")
  else
    match installTables perm s.it.level_ s with
    | .error e => .error e
    | .ok (false, s) => .ok (-1, s)
    | .ok (true, s) =>
      if s.it.level_ = 0 then .ok (0, { s with mem := s.mem.write s.it.pep_ (pa ||| perm64) })
      else .ok (0, s)

end Cs300Projects.WeensyOS
