import MoonNet.Buffer.Valid
import MoonNet.Event.Model
import MoonNet.Foundation.Loop

/-!
# The datagram event

A `udpevent` owns an input buffer, the interest mask of its inner event and two
callbacks, of which only the presence matters here.  A `recvfrom` call takes one
datagram off the queue of the socket and cuts it off at the end of the buffer
that it is given.
-/

namespace MoonNet

open Foundation
open Kernel

universe u

structure Udpevent where
  ev : Interest
  inbuff : ValidBuffer
  started : Bool
  receiveCb : Bool
  eventCb : Bool
deriving DecidableEq

namespace Udpevent

/-- The constructor, with the mask that `init_sock` gives the inner event. -/
def init : Udpevent where
  ev := { events := EPOLLIN ||| EPOLLET, registered := none }
  inbuff := ValidBuffer.fresh
  started := false
  receiveCb := false
  eventCb := false

def updateEp (u : Udpevent) : Udpevent :=
  if u.started then { u with ev := u.ev.updateEp } else u

def setcb (u : Udpevent) (rcb ecb : Bool) : Udpevent :=
  updateEp { u with receiveCb := rcb, eventCb := ecb }

def enableListen (u : Udpevent) : Udpevent :=
  if u.started then u
  else { u with ev := u.ev.enableListen, started := true }

/-- The event that `server::add_udpev` puts into its list. -/
def added (rcb : Bool) : Udpevent :=
  (init.setcb rcb true).enableListen

def enableRead (u : Udpevent) : Udpevent :=
  { u with ev := u.ev.enableRead }

def enableET (u : Udpevent) : Udpevent :=
  { u with ev := u.ev.enableET }

def disableRead (u : Udpevent) : Udpevent :=
  { u with ev := u.ev.disableRead }

/-- The body of `disable_ET` is `ev_->disable_read();`. -/
def disableET (u : Udpevent) : Udpevent :=
  { u with ev := u.ev.disableRead }

end Udpevent

/-- A datagram waiting on a socket. -/
structure Datagram (A : Type u) where
  sender : A
  payload : List UInt8
deriving DecidableEq, Repr

/-- What a `recvfrom` call returns. -/
inductive RecvResult (A : Type u) where
  | failed (errno : Errno)
  | received (sender : A) (bytes : List UInt8)
deriving DecidableEq, Repr

/-- A `recvfrom` call with a buffer of `size` bytes, without real errors. -/
def recvfrom {A : Type u} (size : Nat) :
    List (Datagram A) -> RecvResult A × List (Datagram A)
  | [] => (RecvResult.failed Errno.eagain, [])
  | d :: rest => (RecvResult.received d.sender (d.payload.take size), rest)

/--
A datagram event and the queue of its socket.  `appends` are the arguments of
the calls of `inbuff_.append` so far, `received` are those of `receive_cb_`, and
`events` counts the calls of `event_cb_`.
-/
structure Reception (A : Type u) where
  udp : Udpevent
  queue : List (Datagram A)
  appends : List (List UInt8)
  received : List A
  events : Nat

namespace Reception

variable {A : Type u}

/-- `if (event_cb_) event_cb_();` -/
def eventCb (s : Reception A) : Reception A :=
  if s.udp.eventCb then { s with events := s.events + 1 } else s

/--
`if (receive_cb_) receive_cb_(cli_addr, this);` where the callback leaves
`effect n b` of the contents `b` of `inbuff_` in its `n`-th call.
-/
def receiveCb (effect : Nat -> ValidBuffer -> ValidBuffer) (s : Reception A)
    (sender : A) : Reception A :=
  if s.udp.receiveCb then
    { s with
      udp.inbuff := effect s.received.length s.udp.inbuff
      received := s.received ++ [sender] }
  else s

/-- `inbuff_.append(buf, n)` -/
def append (s : Reception A) (bytes : List UInt8) : Reception A :=
  { s with
    udp.inbuff := s.udp.inbuff.append bytes
    appends := s.appends ++ [bytes] }

/-- The body of the loop after the call of `recvfrom`. -/
def onResult (effect : Nat -> ValidBuffer -> ValidBuffer) (s : Reception A) :
    RecvResult A -> Round (Reception A)
  | RecvResult.received sender (b :: rest) =>
      Round.again ((s.append (b :: rest)).receiveCb effect sender)
  | RecvResult.received _ [] => Round.leave s.eventCb
  | RecvResult.failed errno =>
      if errno.wouldBlock then Round.leave s else Round.leave s.eventCb

/-- The body of the loop in `handle_receive`. -/
def round (effect : Nat -> ValidBuffer -> ValidBuffer) (s : Reception A) :
    Round (Reception A) :=
  let r := recvfrom BUFSIZE s.queue
  { s with queue := r.snd }.onResult effect r.fst

/-- A call of `handle_receive` in the state `s` returns in the state `t`. -/
def HandleReceive (effect : Nat -> ValidBuffer -> ValidBuffer)
    (s t : Reception A) : Prop :=
  LoopReturns (round effect) s t

end Reception

end MoonNet
