import MoonNet.Foundation.Memory
import MoonNet.Kernel.Results

/-!
# The byte buffer

A buffer is one contiguous vector with two positions: bytes before the reader
have been consumed, bytes between the reader and the writer are readable, and
the rest of the vector is free.  The functions below follow the C++ code line
by line; positions are natural numbers, which agree with `uint64_t` as long as
`writer + len` does not wrap.  A copy outside the vector has no result.
-/

namespace MoonNet

open Foundation
open Kernel

def BUFSIZE : Nat := 1024

/-- Length of the stack buffer of a scatter read, `IOBUF`. -/
def IOBUF : Nat := 65536

structure Buffer where
  buffer : List UInt8
  reader : Nat
  writer : Nat
deriving DecidableEq, Repr

namespace Buffer

/-- The constructor: `reader_(0), writer_(0), buffer_(BUFSIZE)`. -/
def fresh : Buffer where
  buffer := List.replicate BUFSIZE 0
  reader := 0
  writer := 0

def readbytes (b : Buffer) : Nat :=
  b.writer - b.reader

def writebytes (b : Buffer) : Nat :=
  b.buffer.length - b.writer

def reset (b : Buffer) : Buffer :=
  { b with reader := 0, writer := 0 }

def compact (b : Buffer) : Option Buffer := do
  let rbytes := b.readbytes
  let moved <- Memory.copyOut b.buffer b.reader rbytes
  let buffer <- Memory.copyIn b.buffer 0 moved
  some { buffer := buffer, reader := 0, writer := rbytes }

def ableWirte (b : Buffer) (len : Nat) : Option Buffer :=
  (if b.writebytes < len ∧ 0 < b.reader then b.compact else some b).map
    fun b =>
      if b.writebytes < len then
        { b with buffer := Memory.resize b.buffer (b.writer + len) 0 }
      else
        b

def append (b : Buffer) (data : List UInt8) : Option Buffer := do
  let b <- b.ableWirte data.length
  let buffer <- Memory.copyIn b.buffer b.writer data
  some { b with buffer := buffer, writer := b.writer + data.length }

/-- `reader_ += rbytes; if (reader_ == writer_) reset();` -/
def advance (b : Buffer) (rbytes : Nat) : Buffer :=
  let b := { b with reader := b.reader + rbytes }
  if b.reader = b.writer then b.reset else b

/--
The overloads `remove(char *, size_t)` and `remove(size_t)` both copy out the
first bytes of the readable region; they differ in where the bytes go.
-/
def remove (b : Buffer) (len : Nat) : Option (Buffer × List UInt8) := do
  let rbytes := min len b.readbytes
  let data <- Memory.copyOut b.buffer b.reader rbytes
  some (b.advance rbytes, data)

/-- `remove()`: everything readable. -/
def removeAll (b : Buffer) : Option (Buffer × List UInt8) :=
  b.remove b.readbytes

def retrieve (b : Buffer) (len : Nat) : Buffer :=
  b.advance (min len b.readbytes)

/-- The number of buffers passed to `readv`. -/
def iovlen (b : Buffer) : Nat :=
  if b.writebytes < IOBUF then 2 else 1

/-- Total length of the buffers passed to `readv`. -/
def iovBytes (b : Buffer) : Nat :=
  if b.iovlen = 2 then b.writebytes + IOBUF else b.writebytes

/--
`readiov`: the kernel fills the free end of the vector first and the stack
buffer `buf[IOBUF]` after it; the surplus in `buf` is appended.  The result
carries the return value and the value stored in `errnum`, if any.
-/
def readiov (b : Buffer) (r : ReadResult) :
    Option (Buffer × Int × Option Errno) :=
  match r with
  | ReadResult.failed errno => some (b, -1, some errno)
  | ReadResult.received bytes => do
      let wbytes := b.writebytes
      let n := bytes.length
      let filled <- Memory.copyIn b.buffer b.writer (bytes.take wbytes)
      let b := { b with buffer := filled }
      if n <= wbytes then
        some ({ b with writer := b.writer + n }, (n : Int), none)
      else do
        let buf <-
          Memory.copyIn (List.replicate IOBUF 0) 0 (bytes.drop wbytes)
        let surplus <- Memory.copyOut buf 0 (n - wbytes)
        let b <- append { b with writer := b.buffer.length } surplus
        some (b, (n : Int), none)

/-- The readable region `buffer_[reader_..writer_)`. -/
def contents (b : Buffer) : List UInt8 :=
  Memory.slice b.buffer b.reader b.readbytes

structure WellFormed (b : Buffer) : Prop where
  reader_le_writer : b.reader <= b.writer
  writer_le_size : b.writer <= b.buffer.length

instance (b : Buffer) : Decidable b.WellFormed :=
  decidable_of_iff (b.reader <= b.writer ∧ b.writer <= b.buffer.length)
    ⟨fun h => ⟨h.left, h.right⟩, fun h => ⟨h.reader_le_writer, h.writer_le_size⟩⟩

/-!
## Calls on a buffer

One constructor for each public operation that changes the buffer, with what
the caller sees of it.
-/

inductive Op where
  | append (data : List UInt8)
  | removeInto (len : Nat)
  | removeString (len : Nat)
  | removeAll
  | retrieve (len : Nat)
  | reset
  | readiov (result : ReadResult)
deriving DecidableEq, Repr

inductive Output where
  | none
  | copied (data : List UInt8) (count : Nat)
  | string (data : List UInt8)
  | read (n : Int) (errnum : Option Errno)
deriving DecidableEq, Repr

def step (b : Buffer) : Op -> Option (Buffer × Output)
  | Op.append data => (b.append data).map fun b => (b, Output.none)
  | Op.removeInto len =>
      (b.remove len).map fun r => (r.fst, Output.copied r.snd r.snd.length)
  | Op.removeString len =>
      (b.remove len).map fun r => (r.fst, Output.string r.snd)
  | Op.removeAll => b.removeAll.map fun r => (r.fst, Output.string r.snd)
  | Op.retrieve len => some (b.retrieve len, Output.none)
  | Op.reset => some (b.reset, Output.none)
  | Op.readiov r =>
      (b.readiov r).map fun r => (r.fst, Output.read r.snd.fst r.snd.snd)

/-- `readv` returns at most the bytes that the passed buffers hold. -/
def Op.Allowed (b : Buffer) : Op -> Prop
  | Op.readiov (ReadResult.received bytes) => bytes.length <= b.iovBytes
  | _ => True

instance (b : Buffer) (op : Op) : Decidable (op.Allowed b) := by
  unfold Op.Allowed
  split <;> infer_instance

end Buffer

end MoonNet
