import MoonNet.Bfevent.Duplex
import MoonNet.Udpevent.Model

/-!
# Serving a datagram event

The loop thread serves a registered `udpevent`: `epoll_wait` reports it,
`handle_cb` calls `handle_receive`, and this runs the callbacks of the user.
Datagrams arrive at any time.  The registration is edge-triggered like that of a
connection.
-/

namespace MoonNet

open Foundation
open Kernel

universe u

namespace Udploop

/--
Where the loop thread is: elsewhere, before the tests of `handle_cb`, before a
call of `recvfrom`, in a callback, or before the `break` that follows
`event_cb_`.
-/
inductive Phase (A : Type u) where
  | elsewhere
  | handleCb (revents : Mask)
  | receiving
  | receiveCb (sender : A)
  | eventCb
  | leaving
deriving DecidableEq, Repr

namespace Phase

variable {A : Type u}

def user : Phase A -> Bool
  | elsewhere | receiveCb _ | eventCb => true
  | handleCb _ | receiving | leaving => false

def receives : Phase A -> Bool
  | elsewhere => false
  | handleCb _ | receiving | receiveCb _ | eventCb | leaving => true

def after (u : Udpevent) : RecvResult A -> Phase A
  | RecvResult.received sender (_ :: _) =>
      if u.receiveCb then receiveCb sender else receiving
  | RecvResult.received _ [] => if u.eventCb then eventCb else leaving
  | RecvResult.failed errno =>
      if errno.wouldBlock then elsewhere
      else if u.eventCb then eventCb
      else leaving

end Phase

inductive Call where
  | setcb (receiveCb eventCb : Bool)
  | updateEp
  | enableRead
  | enableET
  | disableRead
  | disableET
deriving DecidableEq, Repr

end Udploop

namespace Udpevent

def disableCb (u : Udpevent) : Udpevent :=
  { u with receiveCb := false, eventCb := false }

def call (u : Udpevent) : Udploop.Call -> Udpevent
  | Udploop.Call.setcb receiveCb eventCb => u.setcb receiveCb eventCb
  | Udploop.Call.updateEp => u.updateEp
  | Udploop.Call.enableRead => u.enableRead
  | Udploop.Call.enableET => u.enableET
  | Udploop.Call.disableRead => u.disableRead
  | Udploop.Call.disableET => u.disableET

end Udpevent

/--
A datagram event in its loop.  `edge` says that the kernel has something to
report.  Histories: the datagrams that have arrived, those that `recvfrom` has
taken off the queue of the socket, and the bytes that the user has received.
-/
structure Udploop (A : Type u) where
  base : Reception A
  edge : Bool
  phase : Udploop.Phase A
  arrived : List (Datagram A)
  taken : List (Datagram A)
  received : List UInt8

namespace Udploop

variable {A : Type u}

/-- After `setcb` and `enable_listen`. -/
def start (receiveCb eventCb : Bool) : Udploop A where
  base :=
    { udp := (Udpevent.init.setcb receiveCb eventCb).enableListen
      queue := []
      appends := []
      received := []
      events := 0 }
  edge := false
  phase := Phase.elsewhere
  arrived := []
  taken := []
  received := []

inductive Action (A : Type u) where
  | arrives (d : Datagram A)
  | wake
  | wait (revents : Mask)
  | proceed
  | recvfrom (failure : Option Errno)
  | receive (len : Nat)
  | receiveAll
  | call (c : Call)
  | disableCb

def readable (s : Udploop A) : Bool :=
  !s.base.queue.isEmpty

def watched (s : Udploop A) : Bool :=
  match s.base.udp.ev.registered with
  | none => false
  | some mask => mask &&& EPOLLIN != 0

def notify (s : Udploop A) : Udploop A :=
  { s with edge := s.edge || (s.watched && s.readable) }

def goto (s : Udploop A) (p : Phase A) : Udploop A :=
  { s with phase := p }

/--
`epoll_wait` reports the descriptor.  It reports `EPOLLIN` if the mask has it
and a datagram is waiting.
-/
def wait (s : Udploop A) (revents : Mask) : Option (Udploop A) :=
  match s.phase with
  | Phase.elsewhere =>
      if s.edge = true ∧ (s.watched = true -> s.readable = true ->
          Duplex.has revents EPOLLIN = true) then
        some { s with edge := false, phase := Phase.handleCb revents }
      else none
  | _ => none

/--
What follows without a call of the kernel.  The inner event has a callback for
the first test of `handle_cb` only.
-/
def proceed (s : Udploop A) : Option (Udploop A) :=
  match s.phase with
  | Phase.handleCb revents =>
      some (s.goto
        (if Duplex.readFlags revents then Phase.receiving
          else Phase.elsewhere))
  | Phase.receiveCb _ => some (s.goto Phase.receiving)
  | Phase.eventCb => some (s.goto Phase.leaving)
  | Phase.leaving => some (s.goto Phase.elsewhere)
  | Phase.elsewhere | Phase.receiving => none

def onResult (s : Udploop A) (r : RecvResult A) : Udploop A :=
  { s with
    base :=
      match s.base.onResult (fun _ inbuff => inbuff) r with
      | Round.again base | Round.leave base => base
    phase := Phase.after s.base.udp r }

/-- `recvfrom` takes a datagram off the queue, unless it fails. -/
def recvfrom (s : Udploop A) (failure : Option Errno) : Option (Udploop A) :=
  match s.phase, failure with
  | Phase.receiving, none =>
      let r := MoonNet.recvfrom BUFSIZE s.base.queue
      some ({ s with
        base.queue := r.snd
        taken := s.taken ++ s.base.queue.take 1 }.onResult r.fst)
  | Phase.receiving, some errno =>
      if errno.wouldBlock then none
      else some (s.onResult (RecvResult.failed errno))
  | _, _ => none

/-- `receive(data, len)` and `receive(len)` -/
def receive (s : Udploop A) (len : Nat) : Udploop A :=
  let r := s.base.udp.inbuff.remove len
  { s with
    base.udp.inbuff := r.fst
    received := s.received ++ r.snd }

def receiveAll (s : Udploop A) : Udploop A :=
  s.receive s.base.udp.inbuff.readbytes

def call (s : Udploop A) (c : Call) : Udploop A :=
  { s with base.udp := s.base.udp.call c }.notify

def ifUser (s t : Udploop A) : Option (Udploop A) :=
  if s.phase.user then some t else none

def step : StepFn (Udploop A) (Action A) := fun s a =>
  match a with
  | Action.arrives d =>
      some { s with
        base.queue := s.base.queue ++ [d]
        arrived := s.arrived ++ [d] }.notify
  | Action.wake => some { s with edge := true }
  | Action.wait revents => s.wait revents
  | Action.proceed => s.proceed
  | Action.recvfrom failure => s.recvfrom failure
  | Action.receive len => s.ifUser (s.receive len)
  | Action.receiveAll => s.ifUser s.receiveAll
  | Action.call c => s.ifUser (s.call c)
  | Action.disableCb =>
      s.ifUser { s with base.udp := s.base.udp.disableCb }

end Udploop

end MoonNet
