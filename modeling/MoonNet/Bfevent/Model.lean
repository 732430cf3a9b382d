import MoonNet.Buffer.Valid
import MoonNet.Event.Model

/-!
# The buffered event

A `bfevent` owns an input and an output buffer, the interest mask of its inner
event and three callbacks, of which only the presence matters here.  The
kernel's end of its descriptor records every byte range that was offered to a
`write` or `writev` call and every byte that was accepted.
-/

namespace MoonNet

open Kernel

structure Bfevent where
  ev : Interest
  inbuff : ValidBuffer
  outbuff : ValidBuffer
  readcb : Bool
  writecb : Bool
  eventcb : Bool
  closed : Bool
deriving DecidableEq

namespace Bfevent

def enableRead (b : Bfevent) : Bfevent :=
  { b with ev := b.ev.enableRead }

def enableWrite (b : Bfevent) : Bfevent :=
  { b with ev := b.ev.enableWrite }

def enableET (b : Bfevent) : Bfevent :=
  { b with ev := b.ev.enableET }

def disableRead (b : Bfevent) : Bfevent :=
  { b with ev := b.ev.disableRead }

def disableWrite (b : Bfevent) : Bfevent :=
  { b with ev := b.ev.disableWrite }

def disableET (b : Bfevent) : Bfevent :=
  { b with ev := b.ev.disableET }

end Bfevent

/--
The caller's memory around the pointer `data`: `mem i` is the byte at
`data + i`.  No object is longer than `PTRDIFF_MAX`, so the conversion of the
length to `ssize_t` keeps it.
-/
structure Payload where
  mem : Int -> UInt8
  len : Nat
  len_lt : len < 2 ^ 63

namespace Payload

/-- The `count` bytes at `data + off`. -/
def bytesAt (p : Payload) (off : Int) (count : Nat) : List UInt8 :=
  (List.range count).map fun i : Nat => p.mem (off + i)

/-- The payload `[data, data + len)`. -/
def bytes (p : Payload) : List UInt8 :=
  p.bytesAt 0 p.len

end Payload

inductive Region where
  | backlog (bytes : List UInt8)
  | payload (off : Int) (count len : Nat)
deriving DecidableEq, Repr

/-- The range lies in the backlog or in `[data, data + len)`. -/
def Region.InBounds : Region -> Prop
  | Region.backlog _ => True
  | Region.payload off count len => 0 <= off ∧ off + count <= len

instance (r : Region) : Decidable r.InBounds := by
  cases r <;> unfold Region.InBounds <;> infer_instance

structure Wire where
  accepted : List UInt8
  offered : List Region
deriving DecidableEq, Repr

/-- One `write` or `writev` call and its result. -/
def Wire.offer (w : Wire) (regions : List Region) (bytes : List UInt8) :
    WriteResult -> Wire
  | WriteResult.failed _ => { w with offered := w.offered ++ regions }
  | WriteResult.accepted n =>
      { accepted := w.accepted ++ bytes.take n
        offered := w.offered ++ regions }

structure Conn where
  bev : Bfevent
  wire : Wire
deriving DecidableEq

namespace Conn

def writeable (c : Conn) : Bool :=
  c.bev.ev.writeable

def enableWrite (c : Conn) : Conn :=
  { c with bev.ev := c.bev.ev.enableWrite }

def disableWrite (c : Conn) : Conn :=
  { c with bev.ev := c.bev.ev.disableWrite }

def setOutbuff (c : Conn) (b : ValidBuffer) : Conn :=
  { c with bev.outbuff := b }

def backlog (c : Conn) : List UInt8 :=
  c.bev.outbuff.contents

def offer (c : Conn) (regions : List Region) (bytes : List UInt8)
    (r : WriteResult) : Conn :=
  { c with wire := c.wire.offer regions bytes r }

/-- The first branch of `sendout` is taken. -/
def direct (c : Conn) : Bool :=
  !c.writeable && c.bev.outbuff.readbytes == 0

/-- `if (relen > 0) { outbuff_.append(data, relen); ... }` at `data + off`. -/
def appendRest (c : Conn) (p : Payload) (off relen : Int) : Conn :=
  if 0 < relen then
    let c := c.setOutbuff (c.bev.outbuff.append (p.bytesAt off relen.toNat))
    if c.writeable then c else c.enableWrite
  else
    c

/--
The second branch: backlog and payload are gathered into one `writev` call.
The payload part starts at `data + n`, where `n` is what the first branch left
in it, also when that was the `-1` of a refused write.
-/
def gather (c : Conn) (p : Payload) (n relen : Int) (r : WriteResult) :
    Conn × Bool :=
  let wbytes := c.bev.outbuff.readbytes
  let c' := c.offer
    [Region.backlog c.backlog, Region.payload n relen.toNat p.len]
    (c.backlog ++ p.bytesAt n relen.toNat) r
  match r with
  | WriteResult.failed errno =>
      if errno.wouldBlock then (c'.appendRest p 0 relen, false)
      else (c', false)
  | WriteResult.accepted wvn =>
      let tlen : Int := wbytes + relen
      if (wvn : Int) < tlen then
        if wvn < wbytes then
          ((c'.setOutbuff (c'.bev.outbuff.retrieve wvn)).appendRest p 0 relen,
            false)
        else
          let diff : Int := wvn - wbytes
          ((c'.setOutbuff c'.bev.outbuff.reset).appendRest p (n + diff)
            (relen - diff), false)
      else
        (c'.setOutbuff c'.bev.outbuff.reset, c'.bev.writecb)

/--
`sendout(data, len)` with the results of its `write` and its `writev`, if it
makes these calls.  The flag says that the call ends by invoking `writecb_`.
-/
def sendout (c : Conn) (p : Payload) (written gathered : WriteResult) :
    Conn × Bool :=
  let relen : Int := p.len
  if c.direct then
    let c' := c.offer [Region.payload 0 p.len p.len] p.bytes written
    match written with
    | WriteResult.accepted n =>
        let relen := relen - p.len
        if relen = 0 ∧ c'.bev.writecb then (c', true)
        else if 0 < relen then c'.gather p n relen gathered
        else (c', false)
    | WriteResult.failed errno =>
        if errno.wouldBlock then
          if 0 < relen then c'.gather p (-1) relen gathered else (c', false)
        else (c', false)
  else if 0 < relen then c.gather p 0 relen gathered
  else (c, false)

end Conn

end MoonNet
