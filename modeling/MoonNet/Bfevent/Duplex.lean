import MoonNet.Bfevent.Outbound

/-!
# A connection in both directions

The loop thread serves a registered `bfevent`: `epoll_wait` reports it,
`handle_cb` runs `handle_read`, `handle_write` and `handle_event` one after the
other, and these run callbacks of the user, who receives and sends bytes there
and elsewhere on the loop thread.  The peer sends bytes and finally ends its
stream.  What concerns the output is a state of the outbound machine, whose
activations are always the innermost ones; the interest in `EPOLLOUT` is left to
it.

The registration is edge-triggered.  `EPOLL_CTL_MOD` and arriving bytes make an
edge due if the mask has `EPOLLIN` and the socket is readable; the kernel may
look at the descriptor for other reasons, such as room in the send buffer.
-/

namespace MoonNet

open Foundation
open Kernel

namespace ValidBuffer

theorem remove_isSome (b : ValidBuffer) (len : Nat) :
    (b.raw.remove len).isSome := by
  rcases Buffer.remove_spec b.wellFormed len with ⟨b', hb, _⟩
  simp [hb]

/-- `remove`: the buffer and the bytes that are copied out. -/
def remove (b : ValidBuffer) (len : Nat) : ValidBuffer × List UInt8 :=
  ({ raw := ((b.raw.remove len).get (remove_isSome b len)).fst
     wellFormed := by
      rcases Buffer.remove_spec b.wellFormed len with ⟨b', hb, hwell, _⟩
      simpa [hb] using hwell },
    ((b.raw.remove len).get (remove_isSome b len)).snd)

@[simp] theorem remove_fst (b : ValidBuffer) (len : Nat) :
    (b.remove len).fst.contents = b.contents.drop len := by
  rcases Buffer.remove_spec b.wellFormed len with ⟨b', hb, _, hcontents⟩
  simpa [contents, remove, hb] using hcontents

@[simp] theorem remove_snd (b : ValidBuffer) (len : Nat) :
    (b.remove len).snd = b.contents.take len := by
  rcases Buffer.remove_spec b.wellFormed len with ⟨b', hb, _⟩
  simp [contents, remove, hb]

end ValidBuffer

namespace Duplex

def has (revents flags : Mask) : Bool :=
  revents &&& flags != 0

/--
Where the loop thread is: elsewhere, in `handle_cb` before one of its three
tests or in what follows such a test, or in a callback.  `revents` is what
`epoll_wait` has reported.
-/
inductive Phase where
  | elsewhere
  | testIn (revents : Mask)
  | reading (revents : Mask)
  | testReadcb (revents : Mask)
  | readcb (revents : Mask)
  | testEventcb (revents : Mask)
  | endcb (revents : Mask)
  | testOut (revents : Mask)
  | writing (revents : Mask)
  | testErr (revents : Mask)
  | eventcb
deriving DecidableEq, Repr

def Phase.user : Phase -> Bool
  | elsewhere | readcb _ | endcb _ | eventcb => true
  | _ => false

def Phase.reads : Phase -> Bool
  | testIn _ | reading _ | testReadcb _ | readcb _ | testEventcb _
  | endcb _ => true
  | _ => false

def Phase.writes : Phase -> Bool
  | testIn revents | reading revents | testReadcb revents | readcb revents
  | testEventcb revents | endcb revents | testOut revents =>
      has revents EPOLLOUT
  | writing _ | testErr _ | eventcb | elsewhere => false

end Duplex

/--
`socket` holds the bytes that wait to be read, `eof` says that the peer has ended
its stream, and `ended` that a read has returned 0.  Histories: the bytes that
have arrived and those that the user has received.
-/
structure Duplex where
  out : Outbound.State
  socket : List UInt8
  eof : Bool
  ended : Bool
  edge : Bool
  phase : Duplex.Phase
  arrived : List UInt8
  received : List UInt8
deriving DecidableEq

namespace Duplex

def start (bev : Bfevent) : Duplex where
  out := Outbound.start bev
  socket := []
  eof := false
  ended := false
  edge := false
  phase := Phase.elsewhere
  arrived := []
  received := []

inductive Action where
  | peerSends (bytes : List UInt8)
  | peerEnds
  | wake
  | wait (revents : Mask)
  | proceed
  | readiov (r : ReadResult)
  | receive (len : Nat)
  | receiveAll
  | setrcb (readcb : Bool)
  | enableRead
  | disableRead
  | sendout (p : Payload) (written gathered : WriteResult)
  | writeRound (r : WriteResult)
  | writeDone
  | callbackReturn

def bev (s : Duplex) : Bfevent :=
  s.out.conn.bev

def setBev (s : Duplex) (b : Bfevent) : Duplex :=
  { s with out.conn.bev := b }

def readable (s : Duplex) : Bool :=
  !s.socket.isEmpty || s.eof

def watched (s : Duplex) : Bool :=
  match s.bev.ev.registered with
  | none => false
  | some mask => mask &&& EPOLLIN != 0

def notify (s : Duplex) : Duplex :=
  { s with edge := s.edge || (s.watched && s.readable) }

/-- `outbuff_` and `writecb_` are not in use by an activation of the library. -/
def userCode (s : Duplex) : Bool :=
  if s.out.stack.isEmpty then s.phase.user else Outbound.userCode s.out.stack

def goto (s : Duplex) (p : Phase) : Duplex :=
  { s with phase := p }

def outbound (s : Duplex) (a : Outbound.Action) : Option Duplex :=
  (Outbound.step s.out a).map fun out => { s with out := out }

/-- The first test of `handle_cb`. -/
def readFlags (revents : Mask) : Bool :=
  has revents EPOLLIN || has revents EPOLLRDHUP || has revents EPOLLPRI

/--
`epoll_wait` reports the descriptor.  It reports `EPOLLIN` if the mask has it and
the socket is readable.
-/
def wait (s : Duplex) (revents : Mask) : Option Duplex :=
  if s.phase = Phase.elsewhere ∧ s.out.stack = [] ∧ s.edge = true ∧
      (s.watched = true -> s.readable = true -> has revents EPOLLIN = true) then
    some { s with edge := false, phase := Phase.testIn revents }
  else none

/--
What follows without a call of the kernel: the tests in `handle_cb` and in
`handle_read`, and the returns from callbacks and from `handle_write`.
-/
def proceed (s : Duplex) : Option Duplex :=
  if s.out.stack.isEmpty then
    match s.phase with
    | Phase.testIn revents =>
        some (s.goto
          (if readFlags revents then Phase.reading revents
            else Phase.testOut revents))
    | Phase.testReadcb revents =>
        some (s.goto
          (if s.bev.readcb then Phase.readcb revents
            else Phase.reading revents))
    | Phase.readcb revents => some (s.goto (Phase.reading revents))
    | Phase.testEventcb revents =>
        some (s.goto
          (if s.bev.eventcb then Phase.endcb revents
            else Phase.testOut revents))
    | Phase.endcb revents => some (s.goto (Phase.testOut revents))
    | Phase.testOut revents =>
        if has revents EPOLLOUT then
          (s.goto (Phase.writing revents)).outbound Outbound.Action.handleWrite
        else some (s.goto (Phase.testErr revents))
    | Phase.writing revents => some (s.goto (Phase.testErr revents))
    | Phase.testErr revents =>
        some (s.goto
          (if has revents (EPOLLERR ||| EPOLLHUP) && s.bev.eventcb then
            Phase.eventcb
          else Phase.elsewhere))
    | Phase.eventcb => some (s.goto Phase.elsewhere)
    | Phase.elsewhere | Phase.reading _ => none
  else none

/-- `readiov` in the loop of `handle_read`, and how the loop goes on. -/
def readiov (s : Duplex) (r : ReadResult) : Option Duplex :=
  match s.phase, r with
  | Phase.reading revents, ReadResult.received [] =>
      if s.socket = [] ∧ s.eof = true then
        some { s with ended := true, phase := Phase.testEventcb revents }
      else none
  | Phase.reading revents, ReadResult.received (b :: rest) =>
      if h : (b :: rest).length <= s.bev.inbuff.iovBytes then
        if (b :: rest).isPrefixOf s.socket then
          some ({ s with
            socket := s.socket.drop (b :: rest).length
            phase := Phase.testReadcb revents }.setBev
              { s.bev with inbuff := s.bev.inbuff.receive (b :: rest) h })
        else none
      else none
  | Phase.reading revents, ReadResult.failed errno =>
      if errno.wouldBlock then
        if s.readable then none else some (s.goto (Phase.testOut revents))
      else some (s.goto (Phase.testEventcb revents))
  | _, _ => none

/-- `receive(data, len)` and `receive(len)` -/
def receive (s : Duplex) (len : Nat) : Duplex :=
  let r := s.bev.inbuff.remove len
  { s with received := s.received ++ r.snd }.setBev
    { s.bev with inbuff := r.fst }

def receiveAll (s : Duplex) : Duplex :=
  s.receive s.bev.inbuff.readbytes

/-- `setrcb`, with `update_ep` of the buffered event. -/
def setrcb (s : Duplex) (readcb : Bool) : Duplex :=
  let ev := if s.bev.closed then s.bev.ev else s.bev.ev.updateEp
  (s.setBev { s.bev with readcb := readcb, ev := ev }).notify

def enableRead (s : Duplex) : Duplex :=
  (s.setBev s.bev.enableRead).notify

def disableRead (s : Duplex) : Duplex :=
  (s.setBev s.bev.disableRead).notify

def ifUser (s t : Duplex) : Option Duplex :=
  if s.userCode then some t else none

def step : StepFn Duplex Action := fun s a =>
  match a with
  | Action.peerSends bytes =>
      if s.eof || bytes.isEmpty then none
      else
        some { s with
          socket := s.socket ++ bytes
          arrived := s.arrived ++ bytes }.notify
  | Action.peerEnds =>
      if s.eof then none else some { s with eof := true }.notify
  | Action.wake => some { s with edge := true }
  | Action.wait revents => s.wait revents
  | Action.proceed => s.proceed
  | Action.readiov r => s.readiov r
  | Action.receive len => s.ifUser (s.receive len)
  | Action.receiveAll => s.ifUser s.receiveAll
  | Action.setrcb readcb => s.ifUser (s.setrcb readcb)
  | Action.enableRead => s.ifUser s.enableRead
  | Action.disableRead => s.ifUser s.disableRead
  | Action.sendout p written gathered =>
      if s.userCode then
        s.outbound (Outbound.Action.sendout p written gathered)
      else none
  | Action.writeRound r => s.outbound (Outbound.Action.writeRound r)
  | Action.writeDone => s.outbound Outbound.Action.writeDone
  | Action.callbackReturn => s.outbound Outbound.Action.callbackReturn

end Duplex

end MoonNet
