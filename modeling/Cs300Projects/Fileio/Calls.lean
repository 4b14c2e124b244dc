import Cs300Projects.Lib.Overwrite
import Cs300Projects.Lib.Session

/-!
# The file interface and its two reference implementations

The calls of `io300.h` on one open file, over a regular file without I/O errors. The naive
implementation makes a system call for each of them. The one over stdio keeps the bytes that it
has been given until the C library writes them out, and how many of them it writes out at each
call is up to the library.
-/

namespace Cs300Projects.Fileio

inductive Call where
  | seek (pos : Nat)
  | readc
  | writec (ch : BitVec 32)
  | read (sz : Nat)
  | write (buff : List UInt8)
  | flush
  | filesize
  deriving DecidableEq, Repr

/-- The value that a call returns, and the bytes that it has put into the caller's buffer. -/
structure Result where
  value : Int
  buff : List UInt8 := []
  deriving DecidableEq, Repr

/-- `(unsigned char) ch` and `(char) ch`: the byte that is written for `ch`. -/
def byteOf (ch : BitVec 32) : UInt8 := UInt8.ofNat ch.toNat

/-- A regular file and the offset of the descriptor that is open on it. -/
structure OpenFile where
  bytes : List UInt8
  offset : Nat
  deriving DecidableEq, Repr

namespace OpenFile

/-- `lseek(fd, pos, SEEK_SET)`. -/
def lseek (f : OpenFile) (pos : Nat) : Nat × OpenFile := (pos, { f with offset := pos })

/-- Behind the end of the file there is nothing to read. -/
def read (f : OpenFile) (sz : Nat) : List UInt8 × OpenFile :=
  let data := (f.bytes.drop f.offset).take sz
  (data, { f with offset := f.offset + data.length })

/-- Between the end of the file and the first byte written the file gets bytes of zero. -/
def write (f : OpenFile) (data : List UInt8) : Nat × OpenFile :=
  (data.length, ⟨overwrite 0 f.bytes f.offset data, f.offset + data.length⟩)

/-- `st_size` of `fstat`. -/
def size (f : OpenFile) : Nat := f.bytes.length

end OpenFile

/-- What `io300.h` says that a call returns, and what it does to the file. -/
def contract (f : OpenFile) : Call → Result × OpenFile
  | .seek pos => (⟨pos, []⟩, { f with offset := pos })
  | .readc =>
    match f.bytes[f.offset]? with
    | some c => (⟨c.toNat, []⟩, { f with offset := f.offset + 1 })
    | none => (⟨-1, []⟩, f)
  | .writec ch => (⟨(byteOf ch).toNat, []⟩, (f.write [byteOf ch]).2)
  | .read sz => (⟨(f.read sz).1.length, (f.read sz).1⟩, (f.read sz).2)
  | .write buff => (⟨buff.length, []⟩, (f.write buff).2)
  | .flush => (⟨0, []⟩, f)
  | .filesize => (⟨f.size, []⟩, f)

def Contract.step (f : OpenFile) (c : Call) : Option (Result × OpenFile) := some (contract f c)

/-- A session by the contract: the results, and the bytes of the file in the end. -/
def Contract.session (bytes : List UInt8) (calls : List Call) : Option (List Result × List UInt8) :=
  (Session.run Contract.step ⟨bytes, 0⟩ calls).map fun (results, f) => (results, f.bytes)

namespace Naive

/-- The offset is returned as an `int`. -/
def io300Seek (f : OpenFile) (pos : Nat) : Int × OpenFile :=
  let (offset, f) := f.lseek pos
  ((BitVec.ofNat 32 offset).toInt, f)

def io300Readc (f : OpenFile) : Int × OpenFile :=
  match f.read 1 with
  | ([c], f) => (c.toNat, f)
  | (_, f) => (-1, f)

def io300Writec (f : OpenFile) (ch : BitVec 32) : Int × OpenFile :=
  let (n, f) := f.write [byteOf ch]
  (if n = 1 then ch.toInt else -1, f)

def io300Read (f : OpenFile) (sz : Nat) : Int × List UInt8 × OpenFile :=
  let (data, f) := f.read sz
  (data.length, data, f)

def io300Write (f : OpenFile) (buff : List UInt8) : Int × OpenFile :=
  let (n, f) := f.write buff
  (n, f)

/-- A no-op: nothing is buffered. -/
def io300Flush (f : OpenFile) : Int × OpenFile := (0, f)

def io300Filesize (f : OpenFile) : Int := f.size

/-- The bytes of the file after `io300_close`. -/
def io300Close (f : OpenFile) : List UInt8 := (io300Flush f).2.bytes

def step (f : OpenFile) : Call → Option (Result × OpenFile)
  | .seek pos => let (r, f) := io300Seek f pos; some (⟨r, []⟩, f)
  | .readc => let (r, f) := io300Readc f; some (⟨r, []⟩, f)
  | .writec ch => let (r, f) := io300Writec f ch; some (⟨r, []⟩, f)
  | .read sz => let (r, data, f) := io300Read f sz; some (⟨r, data⟩, f)
  | .write buff => let (r, f) := io300Write f buff; some (⟨r, []⟩, f)
  | .flush => let (r, f) := io300Flush f; some (⟨r, []⟩, f)
  | .filesize => some (⟨io300Filesize f, []⟩, f)

def session (bytes : List UInt8) (calls : List Call) : Option (List Result × List UInt8) :=
  (Session.run step ⟨bytes, 0⟩ calls).map fun (results, f) => (results, io300Close f)

end Naive

/-- The last operation on a stream that was not followed by a seek or a flush. -/
inductive Mode where
  | neutral
  | reading
  | writing
  deriving DecidableEq, Repr

/-- A stream opened with `r+`: `pending` holds the bytes written to the stream from `position` on that
have not been written to the file, and `drains` how many of them the library will write out at the
calls to come. -/
structure Stream where
  bytes : List UInt8
  position : Nat
  pending : List UInt8
  mode : Mode
  eof : Bool
  drains : Nat → Nat

namespace Stream

/-- The first `n` of the pending bytes reach the file. -/
def drain (s : Stream) (n : Nat) : Stream :=
  { s with
    bytes := overwrite 0 s.bytes s.position (s.pending.take n)
    position := s.position + (s.pending.take n).length
    pending := s.pending.drop n }

/-- What is pending is written. After a flush there may be input or output: one that follows input, which the C standard leaves
undefined, is taken to end it as well. -/
def fflush (s : Stream) : Stream := { s.drain s.pending.length with mode := .neutral }

/-- `fseek(f, pos, SEEK_SET)`, which writes what is pending and clears the end-of-file indicator. -/
def fseek (s : Stream) (pos : Nat) : Stream := { s.fflush with position := pos, eof := false }

/-- Input must not follow output directly, and there is none while the end-of-file indicator is set. -/
def fread (s : Stream) (n : Nat) : Option (List UInt8 × Stream) :=
  if n = 0 then some ([], s)
  else if s.mode = .writing then none
  else
    let data := if s.eof then [] else (s.bytes.drop s.position).take n
    some (data, { s with position := s.position + data.length, mode := .reading, eof := decide (data.length < n) })

/-- Output must not follow input directly. -/
def fwrite (s : Stream) (data : List UInt8) : Option (Nat × Stream) :=
  if data = [] then some (0, s)
  else if s.mode = .reading then none
  else
    let s' := { s with pending := s.pending ++ data, mode := .writing, drains := fun i => s.drains (i + 1) }
    some (data.length, s'.drain (s.drains 0))

def fgetc (s : Stream) : Option (Int × Stream) := do
  match ← s.fread 1 with
  | ([c], s) => some (c.toNat, s)
  | (_, s) => some (-1, s)

/-- `fputc` returns the character that it has written. -/
def fputc (s : Stream) (ch : BitVec 32) : Option (Int × Stream) := do
  let (_, s) ← s.fwrite [byteOf ch]
  some ((byteOf ch).toNat, s)

/-- There are no I/O errors. -/
def ferror (_ : Stream) : Bool := false

end Stream

namespace Stdio

/-- `fseek` returns 0. -/
def io300Seek (s : Stream) (pos : Nat) : Int × Stream := (0, s.fseek pos)

def io300Readc (s : Stream) : Option (Int × Stream) := s.fgetc

def io300Writec (s : Stream) (ch : BitVec 32) : Option (Int × Stream) := s.fputc ch

def io300Read (s : Stream) (sz : Nat) : Option (Int × List UInt8 × Stream) := do
  let (data, s) ← s.fread sz
  some (if data.length ≠ 0 ∨ sz = 0 ∨ s.ferror = false then data.length else -1, data, s)

def io300Write (s : Stream) (buff : List UInt8) : Option (Int × Stream) := do
  let (n, s) ← s.fwrite buff
  some (if n ≠ 0 ∨ buff.length = 0 ∨ s.ferror = false then n else -1, s)

def io300Flush (s : Stream) : Int × Stream := (0, s.fflush)

/-- `fstat` looks at the file, not at the stream. -/
def io300Filesize (s : Stream) : Int := s.bytes.length

/-- The bytes of the file after `io300_close`, whose `fclose` flushes a second time. -/
def io300Close (s : Stream) : List UInt8 := (io300Flush s).2.fflush.bytes

def step (s : Stream) : Call → Option (Result × Stream)
  | .seek pos => let (r, s) := io300Seek s pos; some (⟨r, []⟩, s)
  | .readc => do let (r, s) ← io300Readc s; some (⟨r, []⟩, s)
  | .writec ch => do let (r, s) ← io300Writec s ch; some (⟨r, []⟩, s)
  | .read sz => do let (r, data, s) ← io300Read s sz; some (⟨r, data⟩, s)
  | .write buff => do let (r, s) ← io300Write s buff; some (⟨r, []⟩, s)
  | .flush => let (r, s) := io300Flush s; some (⟨r, []⟩, s)
  | .filesize => some (⟨io300Filesize s, []⟩, s)

def session (drains : Nat → Nat) (bytes : List UInt8) (calls : List Call) : Option (List Result × List UInt8) :=
  (Session.run step ⟨bytes, 0, [], .neutral, false, drains⟩ calls).map fun (results, s) => (results, io300Close s)

end Stdio

/-- A call of `io300_readc` or `io300_read`. -/
def Call.reads : Call → Bool
  | .readc | .read _ => true
  | _ => false

/-- A call of `io300_writec` or `io300_write`. -/
def Call.writes : Call → Bool
  | .writec _ | .write _ => true
  | _ => false

/-- A call after which the stream may be turned from reading to writing and back. -/
def Call.syncs : Call → Bool
  | .seek _ | .flush => true
  | _ => false

/-- A seek or a flush stands between a read and a following write, and between a write and a
following read. -/
def Separated (calls : List Call) : Prop :=
  ∀ before a between b after, calls = before ++ a :: (between ++ b :: after) →
    (a.reads = true ∧ b.writes = true) ∨ (a.writes = true ∧ b.reads = true) → ∃ c ∈ between, c.syncs = true

/-- Both implementations give the answers of the contract and leave its bytes, however the library
buffers. -/
def Interchangeable (bytes : List UInt8) (calls : List Call) : Prop :=
  ∃ answers, Contract.session bytes calls = some answers ∧ Naive.session bytes calls = some answers ∧
    ∀ drains, Stdio.session drains bytes calls = some answers

end Cs300Projects.Fileio
