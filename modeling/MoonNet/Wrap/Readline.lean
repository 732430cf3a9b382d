import Mathlib.Logic.Function.Basic
import MoonNet.Foundation.Runs
import MoonNet.Kernel.Results

/-!
# `Readline`

`Readline` reads a line byte by byte with `my_read`, which reads ahead.  The
bytes it has read ahead are in static variables: all descriptors share them.
A call runs to its end before the next one starts; what the `read` calls made
by it return is given with the call.
-/

namespace MoonNet

open Foundation
open Kernel

universe u

/--
The static variables of `my_read` and the descriptors: `ahead` is what is in
`read_buf` from `read_ptr` on, `unread` what the kernel has not given out yet.
Histories: `stream` is the whole stream of a descriptor, `returned` what the
calls on it have stored in the buffer of the caller, and `owner` the descriptor
that `read_buf` was read from.
-/
structure Readline (F : Type u) where
  readCnt : Int
  ahead : List UInt8
  owner : Option F
  unread : F -> List UInt8
  stream : F -> List UInt8
  returned : F -> List UInt8

namespace Readline

variable {F : Type u} [DecidableEq F]

/-- Static variables start out as zero. -/
def start (stream : F -> List UInt8) : Readline F where
  readCnt := 0
  ahead := []
  owner := none
  unread := stream
  stream := stream
  returned := fun _ => []

def READ_SIZE : Nat := 100

/-- `read` into `read_buf`, again after each `EINTR`. -/
def refill (fd : F) : Readline F -> List ReadResult ->
    Option (Readline F × List ReadResult)
  | _, [] => none
  | s, ReadResult.failed errno :: results =>
      if errno = Errno.eintr then
        refill fd { s with readCnt := -1 } results
      else some ({ s with readCnt := -1 }, results)
  | s, ReadResult.received bytes :: results =>
      if bytes.length <= READ_SIZE ∧ bytes <+: s.unread fd then
        some ({ s with
          readCnt := bytes.length
          ahead := if bytes = [] then s.ahead else bytes
          owner := some fd
          unread :=
            Function.update s.unread fd ((s.unread fd).drop bytes.length) },
          results)
      else none

/-- `read_cnt--; *ptr = *read_ptr++;` -/
def takeByte (s : Readline F) : Option (Readline F × UInt8) :=
  match s.ahead with
  | [] => none
  | c :: ahead =>
      some ({ s with readCnt := s.readCnt - 1, ahead := ahead }, c)

/-- What `my_read` returns: 1 and a byte, 0, or -1. -/
inductive Rc where
  | one (c : UInt8)
  | zero
  | minusOne
deriving DecidableEq, Repr

def myRead (fd : F) (s : Readline F) (results : List ReadResult) :
    Option (Readline F × List ReadResult × Rc) :=
  if s.readCnt <= 0 then
    (refill fd s results).bind fun p =>
      if p.fst.readCnt < 0 then some (p.fst, p.snd, Rc.minusOne)
      else if p.fst.readCnt = 0 then some (p.fst, p.snd, Rc.zero)
      else p.fst.takeByte.map fun q => (q.fst, p.snd, Rc.one q.snd)
  else s.takeByte.map fun q => (q.fst, results, Rc.one q.snd)

/-- `*ptr++ = c` -/
def store (s : Readline F) (fd : F) (c : UInt8) : Readline F :=
  { s with
    returned := Function.update s.returned fd (s.returned fd ++ [c]) }

/-- `'\n'` -/
def newline : UInt8 := 10

/-- The loop with `count` turns to go; the last component is what is returned. -/
def readlineLoop (fd : F) : Nat -> Int -> Readline F -> List ReadResult ->
    Option (Readline F × List ReadResult × Int)
  | 0, n, s, results => some (s, results, n)
  | count + 1, n, s, results =>
      (myRead fd s results).bind fun p =>
        match p with
        | (s, results, Rc.one c) =>
            if c = newline then some (s.store fd c, results, n)
            else readlineLoop fd count (n + 1) (s.store fd c) results
        | (s, results, Rc.zero) => some (s, results, n - 1)
        | (s, results, Rc.minusOne) => some (s, results, -1)

/-- `for (n = 1; n < maxlen; ++n)` -/
def readline (fd : F) (maxlen : Nat) (s : Readline F)
    (results : List ReadResult) :
    Option (Readline F × List ReadResult × Int) :=
  readlineLoop fd (maxlen - 1) 1 s results

structure Call (F : Type u) where
  fd : F
  maxlen : Nat
  results : List ReadResult
deriving DecidableEq, Repr

/-- A call that makes as many `read` calls as results are given. -/
def step (s : Readline F) (call : Call F) : Option (Readline F) :=
  match s.readline call.fd call.maxlen call.results with
  | some (s, [], _) => some s
  | _ => none

/-!
## Streams
-/

def aheadOf (s : Readline F) (fd : F) : List UInt8 :=
  if 0 < s.readCnt ∧ s.owner = some fd then s.ahead else []

def account (s : Readline F) (fd : F) : List UInt8 :=
  s.returned fd ++ s.aheadOf fd ++ s.unread fd

/--
The bytes of every stream are returned for its own descriptor, in order and
none missing, up to those that are read ahead or unread.
-/
def Apart (s : Readline F) : Prop :=
  forall fd, s.account fd = s.stream fd

/-- A call that reads finds nothing read ahead, or bytes of its own stream. -/
def OwnAhead (s : Readline F) (call : Call F) : Prop :=
  1 < call.maxlen -> 0 < s.readCnt -> s.owner = some call.fd

theorem Apart.returned_of_stream {s : Readline F} (h : s.Apart) (fd : F) :
    s.returned fd <+: s.stream fd := by
  rw [<- h fd]
  unfold account
  rw [List.append_assoc]
  exact List.prefix_append _ _

end Readline

end MoonNet
