import MoonNet.Bfevent.Model
import MoonNet.Foundation.Runs

/-!
# Accepting a connection

The acceptor's thread runs `acceptcb_` for a new descriptor.  The constructor of
`bfevent` registers the descriptor with a loop of the pool, so the thread of that
loop can run `handle_read` while `acceptcb_` goes on to set the callbacks.  The
steps of both threads interleave with what the peer sends.

The registration is edge-triggered: an edge is due when bytes or the end of the
stream arrive, and when `EPOLL_CTL_ADD` or `EPOLL_CTL_MOD` finds the socket
readable.  `epoll_wait` takes the edge.
-/

namespace MoonNet

open Foundation
open Kernel

namespace Accept

/-- The statement of `acceptcb_` that the acceptor's thread executes next. -/
inductive Acceptor where
  | construct
  | setReadcb
  | setWritecb
  | setEventcb
  | updateEp
  | insert
  | returned
deriving DecidableEq, Repr

/--
The loop thread has nothing to do for this descriptor, calls `readiov`, tests
`readcb_`, calls it, tests `eventcb_`, or has given the event to `handle_close`.
-/
inductive LoopThread where
  | idle
  | reading
  | testReadcb
  | callReadcb
  | testEventcb
  | closed
deriving DecidableEq, Repr

end Accept

/--
`socket` holds the bytes that have arrived and were not read, `eof` says that the
peer will send no more.  `reported` records that `readcb_` has been called since
the last byte was read.
-/
structure Accept where
  bev : Bfevent
  socket : List UInt8
  eof : Bool
  edge : Bool
  acceptor : Accept.Acceptor
  loop : Accept.LoopThread
  reported : Bool
deriving DecidableEq

namespace Accept

/-- The members of the event before the body of its constructor. -/
def newBfevent : Bfevent where
  ev := { events := EPOLLIN ||| EPOLLET, registered := none }
  inbuff := ValidBuffer.fresh
  outbuff := ValidBuffer.fresh
  readcb := false
  writecb := false
  eventcb := false
  closed := false

def start : Accept where
  bev := newBfevent
  socket := []
  eof := false
  edge := false
  acceptor := Acceptor.construct
  loop := LoopThread.idle
  reported := false

def readable (s : Accept) : Bool :=
  !s.socket.isEmpty || s.eof

def inbuff (s : Accept) : ValidBuffer :=
  s.bev.inbuff

def notify (s : Accept) : Accept :=
  { s with edge := s.edge || (s.bev.ev.registered.isSome && s.readable) }

inductive Action where
  | acceptor
  | peerSends (bytes : List UInt8)
  | peerEnds
  | wait
  | readiov (r : ReadResult)
  | testReadcb
  | callReadcb (consumed : Nat)
  | testEventcb
deriving DecidableEq, Repr

/--
`acceptcb_` on a server with a read callback; `writecb` says whether it has a
write callback.  After `handle_close` the event is deleted, so its members
cannot be used.
-/
def acceptorStep (writecb : Bool) (s : Accept) : Option Accept :=
  match s.acceptor with
  | Acceptor.construct =>
      some { s with
        bev.ev := s.bev.ev.enableListen
        acceptor := Acceptor.setReadcb }.notify
  | Acceptor.setReadcb =>
      some { s with bev.readcb := true, acceptor := Acceptor.setWritecb }
  | Acceptor.setWritecb =>
      some { s with bev.writecb := writecb, acceptor := Acceptor.setEventcb }
  | Acceptor.setEventcb =>
      some { s with bev.eventcb := true, acceptor := Acceptor.updateEp }
  | Acceptor.updateEp =>
      if s.loop = LoopThread.closed then none
      else if s.bev.closed then some { s with acceptor := Acceptor.insert }
      else
        some { s with
          bev.ev := s.bev.ev.updateEp
          acceptor := Acceptor.insert }.notify
  | Acceptor.insert => some { s with acceptor := Acceptor.returned }
  | Acceptor.returned => none

/-- `readv` returns bytes that have arrived, the end of the stream, or fails. -/
def readStep (s : Accept) (r : ReadResult) : Option Accept :=
  match r with
  | ReadResult.received [] =>
      if s.socket = [] ∧ s.eof then
        some { s with loop := LoopThread.testEventcb }
      else none
  | ReadResult.received (b :: rest) =>
      if h : (b :: rest).length <= s.inbuff.iovBytes then
        if (b :: rest).isPrefixOf s.socket then
          some { s with
            bev.inbuff := s.inbuff.receive (b :: rest) h
            socket := s.socket.drop (b :: rest).length
            loop := LoopThread.testReadcb
            reported := false }
        else none
      else none
  | ReadResult.failed errno =>
      if errno.wouldBlock then
        if s.readable then none else some { s with loop := LoopThread.idle }
      else some { s with loop := LoopThread.testEventcb }

/-- The part of `handle_close` that the connection sees. -/
def close (s : Accept) : Accept :=
  { s with
    bev.readcb := false
    bev.writecb := false
    bev.eventcb := false
    loop := LoopThread.closed }

/-- `epoll_wait` and `handle_read`; `readcb_` takes bytes out of `inbuff_`. -/
def loopStep (s : Accept) (a : Action) : Option Accept :=
  match s.loop, a with
  | LoopThread.idle, Action.wait =>
      if s.edge then some { s with edge := false, loop := LoopThread.reading }
      else none
  | LoopThread.reading, Action.readiov r => s.readStep r
  | LoopThread.testReadcb, Action.testReadcb =>
      some { s with
        loop :=
          if s.bev.readcb then LoopThread.callReadcb else LoopThread.reading }
  | LoopThread.callReadcb, Action.callReadcb consumed =>
      some { s with
        bev.inbuff := s.inbuff.retrieve consumed
        loop := LoopThread.reading
        reported := true }
  | LoopThread.testEventcb, Action.testEventcb =>
      some (if s.bev.eventcb then s.close
        else { s with loop := LoopThread.idle })
  | _, _ => none

def step (writecb : Bool) (s : Accept) (a : Action) : Option Accept :=
  match a with
  | Action.acceptor => s.acceptorStep writecb
  | Action.peerSends bytes =>
      if s.eof || bytes.isEmpty then none
      else some { s with socket := s.socket ++ bytes }.notify
  | Action.peerEnds => some { s with eof := true }.notify
  | _ => s.loopStep a

/--
`acceptcb_` has returned and nothing more is going to happen for the descriptor
by itself, but bytes were read that `readcb_` was never told about.
-/
structure Stranded (s : Accept) : Prop where
  returned : s.acceptor = Acceptor.returned
  idle : s.loop = LoopThread.idle
  edge : s.edge = false
  held : s.inbuff.contents ≠ []
  unreported : s.reported = false

/-- When `handle_read` tests `readcb_`, it is set. -/
def ReadcbSet (s : Accept) (a : Action) : Prop :=
  a = Action.testReadcb -> s.bev.readcb = true

/-- What the two threads of the program do, as opposed to the peer. -/
def Action.Local : Action -> Prop
  | Action.peerSends _ | Action.peerEnds => False
  | _ => True

end Accept

end MoonNet
