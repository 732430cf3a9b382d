import Mathlib.Logic.Function.Basic
import MoonNet.Foundation.Runs
import MoonNet.Server.Acceptcb
import MoonNet.Server.BaseEvent

/-!
# A server on a single event loop

`eventloop::loop` takes a batch of ready events from `epoll_wait`, dispatches
them one after the other, and then deletes the events in `delque_`.  A dispatch
runs handlers of the library, and these run callbacks of the user, which may
call back into the library at any depth.  The activations are kept on a stack.
Reads, writes and accepts take their results from the environment, and so does a
running callback its next call.

Objects are numbered in the order of their creation, and a number is never used
again.  The trace records what the deletion of events is about.
-/

namespace MoonNet

open Foundation
open Kernel

/-- Which of the callbacks given to `set_tcpcb` are set. -/
structure TcpCallbacks where
  readcb : Bool
  writecb : Bool
  eventcb : Bool
deriving DecidableEq, Repr

namespace Serverloop

/-- The three tests of `handle_cb`. -/
inductive Stage where
  | read
  | write
  | event
deriving DecidableEq, Repr

inductive Frame where
  | handleCb (x : Nat) (revents : Mask) (stage : Stage)
  | handleRead (x : Nat)
  | handleWrite (x : Nat)
  | leaveWrite (x : Nat)
  | handleTimeout (x : Nat)
  | readSignals (x : Nat)
  | handleSignals (x : Nat) (count : Nat)
  | handleReceive (x : Nat)
  | handleAccept
  | readEventfd
  | tcpEventcb (x : Nat)
  | delev (x : Nat)
  | destroy (x : Nat)
  | user (x : Nat)
deriving DecidableEq, Repr

/-- Where `loop` is; `rest` is what remains of the batch or of `delque_`. -/
inductive Phase where
  | waiting
  | dispatching (rest : List (Nat × Mask))
  | flushing (rest : List Nat)
  | stopped
deriving DecidableEq, Repr

/--
`epoll_wait` has returned, an event is dispatched, a callback of the user is
called for an event, an event enters `delque_`, the deletion of the events in
`delque_` begins, and an event is deleted, whose epoll-level event may be listed
in `evlist_`.
-/
inductive Entry where
  | waited
  | dispatched (x : Nat)
  | called (x : Nat)
  | queued (x : Nat)
  | flush
  | destroyed (x : Nat) (listed : Bool)
deriving DecidableEq, Repr

end Serverloop

structure Serverloop where
  heap : Nat -> Option BaseEvent
  next : Nat
  evlist : List Nat
  events : List Nat
  delque : List Nat
  shutdown : Bool
  phase : Serverloop.Phase
  stack : List Serverloop.Frame
  trace : List Serverloop.Entry

namespace Serverloop

def start : Serverloop where
  heap := Function.update (fun _ => none) 0
    (some (BaseEvent.wakeup
      { events := EPOLLIN, registered := some EPOLLIN }))
  next := 1
  evlist := [0]
  events := []
  delque := []
  shutdown := false
  phase := Phase.waiting
  stack := []
  trace := []

def put (s : Serverloop) (x : Nat) (o : BaseEvent) : Serverloop :=
  { s with heap := Function.update s.heap x (some o) }

def record (s : Serverloop) (e : Entry) : Serverloop :=
  { s with trace := s.trace ++ [e] }

def push (s : Serverloop) (f : Frame) : Serverloop :=
  { s with stack := f :: s.stack }

def call (s : Serverloop) (x : Nat) : Serverloop :=
  (s.record (Entry.called x)).push (Frame.user x)

def callIf (s : Serverloop) (cb : Bool) (x : Nat) : Serverloop :=
  if cb then s.call x else s

/-!
## Creation
-/

/-- A new object whose epoll-level event is given to `add_event`. -/
def create (s : Serverloop) (o : BaseEvent) : Serverloop :=
  { s.put s.next o with
    next := s.next + 1
    evlist := s.evlist ++ [s.next] }

inductive Addition where
  | event (events : Mask) (readcb writecb eventcb : Bool)
  | timerevent (cb : Bool)
  | signalevent (cb : Bool)
  | udpevent (receiveCb : Bool)
deriving DecidableEq, Repr

def listening (events : Mask) : Interest :=
  { events := events, registered := none : Interest }.enableListen

def Addition.toBaseEvent : Addition -> BaseEvent
  | event events readcb writecb eventcb =>
      BaseEvent.event (listening events) readcb writecb eventcb
  | timerevent cb => BaseEvent.timerevent (listening EPOLLIN) cb
  | signalevent cb => BaseEvent.signalevent (listening EPOLLIN) cb
  | udpevent receiveCb =>
      -- `addev` and `add_udpev` set an error callback of their own.
      BaseEvent.udpevent (listening (EPOLLIN ||| EPOLLET)) ValidBuffer.fresh
        true receiveCb true

/-- `addev`, `add_timeev`, `add_sev` and `add_udpev`. -/
def addev (s : Serverloop) (e : Addition) : Serverloop :=
  { s.create e.toBaseEvent with events := s.events ++ [s.next] }

def listen (s : Serverloop) : Serverloop :=
  s.create (BaseEvent.acceptor (listening (EPOLLIN ||| EPOLLET)))

/-- `acceptcb_`, when acceptor and connection share the loop. -/
def acceptcb (tcp : TcpCallbacks) (s : Serverloop) : Serverloop :=
  let bev := { Accept.newBfevent with
    ev := Accept.newBfevent.ev.enableListen.updateEp
    readcb := tcp.readcb
    writecb := tcp.writecb
    eventcb := true }
  { s.create (BaseEvent.bfevent
      { bev := bev, wire := { accepted := [], offered := [] } }) with
    events := s.events ++ [s.next] }

/-!
## Closing and deletion
-/

def handleClose (s : Serverloop) (x : Nat) (o : BaseEvent) : Serverloop :=
  { s.put x o.disableCb with
    events := s.events.filter fun y => y != x
    delque := s.delque ++ [x] }.record (Entry.queued x)

/-- `if (eventcb_) eventcb_();` of a connection, which runs `tcp_eventcb_`. -/
def eventcb (tcp : TcpCallbacks) (s : Serverloop) (x : Nat) (c : Conn) :
    Serverloop :=
  if c.bev.eventcb then
    if tcp.eventcb then (s.push (Frame.tcpEventcb x)).call x
    else s.handleClose x (BaseEvent.bfevent c)
  else s

/-- `del_listen`, without the report of a connection's last bytes. -/
def delListen (s : Serverloop) (x : Nat) (o : BaseEvent) : Serverloop :=
  let s := s.put x o.delListen
  if o.listens then { s with evlist := s.evlist.filter fun y => y != x } else s

/-- The rest of `server::delev` when nothing is left to report. -/
def finishDelev (s : Serverloop) (x : Nat) (o : BaseEvent) : Serverloop :=
  (s.delListen x o).handleClose x o.delListen

def delev (s : Serverloop) (x : Nat) : Option Serverloop :=
  match s.heap x with
  | none | some (BaseEvent.wakeup _) | some (BaseEvent.acceptor _) => none
  | some o =>
      if o.reportsRest then some ((s.push (Frame.delev x)).call x)
      else some (s.finishDelev x o)

/-- `delete ev_`, and the descriptor where the destructor closes it. -/
def deleteEv (s : Serverloop) (x : Nat) (o : BaseEvent) : Serverloop :=
  let s := s.record (Entry.destroyed x (s.evlist.contains x))
  match o with
  | BaseEvent.event .. | BaseEvent.bfevent .. => s
  | o => s.put x o.closeFd

/--
The rest of a destructor when nothing is left to report: a connection that is
not closed is taken off the loop, and its descriptor is closed.
-/
def finishDestroy (s : Serverloop) (x : Nat) (o : BaseEvent) : Serverloop :=
  match o with
  | BaseEvent.bfevent c =>
      if c.bev.closed then s.deleteEv x o
      else
        let s := s.delListen x o
        (s.put x o.delListen.closeFd).deleteEv x o.delListen.closeFd
  | o => s.deleteEv x o

def destroy (s : Serverloop) (x : Nat) : Option Serverloop :=
  match s.heap x with
  | none => none
  | some o =>
      match o with
      | BaseEvent.bfevent c =>
          if c.bev.closed = false ∧ o.reportsRest then
            some ((s.push (Frame.destroy x)).call x)
          else some (s.finishDestroy x o)
      | o => some (s.finishDestroy x o)

/-!
## Handlers
-/

def readReady (s : Serverloop) (x : Nat) : BaseEvent -> Serverloop
  | BaseEvent.event _ readcb _ _ => s.callIf readcb x
  | BaseEvent.bfevent _ => s.push (Frame.handleRead x)
  | BaseEvent.timerevent _ _ => s.push (Frame.handleTimeout x)
  | BaseEvent.signalevent _ _ => s.push (Frame.readSignals x)
  | BaseEvent.udpevent .. => s.push (Frame.handleReceive x)
  | BaseEvent.wakeup _ => s.push Frame.readEventfd
  | BaseEvent.acceptor _ => s.push Frame.handleAccept

def writeReady (s : Serverloop) (x : Nat) : BaseEvent -> Serverloop
  | BaseEvent.event _ _ writecb _ => s.callIf writecb x
  | BaseEvent.bfevent _ => s.push (Frame.handleWrite x)
  | _ => s

def eventReady (tcp : TcpCallbacks) (s : Serverloop) (x : Nat) :
    BaseEvent -> Serverloop
  | BaseEvent.event _ _ _ eventcb => s.callIf eventcb x
  | BaseEvent.bfevent c => s.eventcb tcp x c
  | _ => s

/-- `event::handle_cb` from one of its tests on. -/
def handleCb (tcp : TcpCallbacks) (s : Serverloop) (x : Nat) (revents : Mask)
    (stage : Stage) (o : BaseEvent) : Serverloop :=
  match stage with
  | Stage.read =>
      let s := s.push (Frame.handleCb x revents Stage.write)
      if revents &&& EPOLLIN != 0 || revents &&& EPOLLRDHUP != 0 ||
          revents &&& EPOLLPRI != 0 then
        s.readReady x o
      else s
  | Stage.write =>
      let s := s.push (Frame.handleCb x revents Stage.event)
      if revents &&& EPOLLOUT != 0 then s.writeReady x o else s
  | Stage.event =>
      if revents &&& (EPOLLERR ||| EPOLLHUP) != 0 then s.eventReady tcp x o
      else s

def handleRead (tcp : TcpCallbacks) (s : Serverloop) (x : Nat) (c : Conn)
    (r : ReadResult) : Option Serverloop :=
  match r with
  | ReadResult.received [] => some (s.eventcb tcp x c)
  | ReadResult.received (b :: rest) =>
      if h : (b :: rest).length <= c.bev.inbuff.iovBytes then
        let c := { c with bev.inbuff := c.bev.inbuff.receive (b :: rest) h }
        some (((s.put x (BaseEvent.bfevent c)).push
          (Frame.handleRead x)).callIf c.bev.readcb x)
      else none
  | ReadResult.failed errno =>
      some (if errno.wouldBlock then s else s.eventcb tcp x c)

def leaveWrite (s : Serverloop) (x : Nat) (c : Conn) : Serverloop :=
  s.put x (BaseEvent.bfevent (Outbound.finishWrite c))

/-- One round of `handle_write`, on a backlog that is not empty. -/
def handleWrite (tcp : TcpCallbacks) (s : Serverloop) (x : Nat) (c : Conn)
    (r : WriteResult) : Serverloop :=
  let c := c.offer [Region.backlog c.backlog] c.backlog r
  let s := s.put x (BaseEvent.bfevent c)
  match r with
  | WriteResult.accepted n =>
      if 0 < n then
        let c := c.setOutbuff (c.bev.outbuff.retrieve n)
        ((s.put x (BaseEvent.bfevent c)).push (Frame.handleWrite x)).callIf
          c.bev.writecb x
      else s.push (Frame.handleWrite x)
  | WriteResult.failed errno =>
      if errno.wouldBlock then s.leaveWrite x c
      else (s.push (Frame.leaveWrite x)).eventcb tcp x c

/-- `read(fd_, &exp, sizeof(exp))` and the call of `cb_`. -/
def handleTimeout (s : Serverloop) (x : Nat) (cb : Bool) (r : ReadResult) :
    Serverloop :=
  match r with
  | ReadResult.received bytes =>
      if bytes.length = 8 then s.callIf cb x else s
  | ReadResult.failed _ => s

def readSignals (s : Serverloop) (x : Nat) (r : ReadResult) :
    Option Serverloop :=
  match r with
  | ReadResult.received bytes =>
      if bytes.length <= 1024 then
        some (s.push (Frame.handleSignals x bytes.length))
      else none
  | ReadResult.failed _ => some s

/--
`udpevent::handle_receive`.  The error callback that `addev` and `add_udpev`
install refers to variables of a call that has returned, so a run that calls it
ends here.
-/
def handleReceive (s : Serverloop) (x : Nat) (ev : Interest)
    (inbuff : ValidBuffer) (started receiveCb eventCb : Bool)
    (r : ReadResult) : Option Serverloop :=
  match r with
  | ReadResult.received [] => if eventCb then none else some s
  | ReadResult.received (b :: rest) =>
      if (b :: rest).length <= BUFSIZE then
        some (((s.put x (BaseEvent.udpevent ev (inbuff.append (b :: rest))
          started receiveCb eventCb)).push (Frame.handleReceive x)).callIf
            receiveCb x)
      else none
  | ReadResult.failed errno =>
      if errno.wouldBlock then some s
      else if eventCb then none
      else some s

/-- `accept` returns a descriptor, or it fails and the loop is left. -/
def handleAccept (tcp : TcpCallbacks) (s : Serverloop) (accepted : Bool) :
    Serverloop :=
  if accepted then (s.acceptcb tcp).push Frame.handleAccept else s

/-- `read_eventfd`; an unexpected error ends the process. -/
def readEventfd (s : Serverloop) (r : ReadResult) : Option Serverloop :=
  match r with
  | ReadResult.received _ | ReadResult.failed Errno.eagain
  | ReadResult.failed Errno.eintr => some { s with shutdown := true }
  | ReadResult.failed (Errno.other _) => none

/-!
## Steps
-/

inductive Action where
  | wait (batch : List (Nat × Mask))
  | waitFailed (errno : Errno)
  | proceed
  | read (r : ReadResult)
  | write (r : WriteResult)
  | accept (accepted : Bool)
  | addev (e : Addition)
  | listen
  | delev (x : Nat)
  | sendout (x : Nat) (p : Payload) (written gathered : WriteResult)
  | receive (x : Nat) (len : Nat)
  | ret

def reports (s : Serverloop) (x : Nat) : Bool :=
  match s.heap x with
  | none => false
  | some o => o.registered

/-- `eventloop::loop` outside of all handlers. -/
def loopStep (s : Serverloop) (a : Action) : Option Serverloop :=
  match s.phase, a with
  | Phase.waiting, Action.wait batch =>
      if s.shutdown then none
      else if batch.all fun e => s.reports e.fst then
        some { s.record Entry.waited with phase := Phase.dispatching batch }
      else none
  | Phase.waiting, Action.waitFailed errno =>
      if s.shutdown then none
      else if errno = Errno.eintr then some s
      else some { s with phase := Phase.stopped }
  | Phase.waiting, Action.proceed =>
      if s.shutdown then some { s with phase := Phase.stopped } else none
  | Phase.waiting, Action.addev e => some (s.addev e)
  | Phase.waiting, Action.listen => some s.listen
  | Phase.dispatching ((x, revents) :: rest), Action.proceed =>
      some ({ s.record (Entry.dispatched x) with
        phase := Phase.dispatching rest }.push
          (Frame.handleCb x revents Stage.read))
  | Phase.dispatching [], Action.proceed =>
      if s.delque = [] then some { s with phase := Phase.waiting }
      else
        some { s.record Entry.flush with phase := Phase.flushing s.delque }
  | Phase.flushing (x :: rest), Action.proceed =>
      { s with phase := Phase.flushing rest }.destroy x
  | Phase.flushing [], Action.proceed =>
      some { s with delque := [], phase := Phase.waiting }
  | _, _ => none

def onConn (s : Serverloop) (x : Nat) (k : Conn -> Option Serverloop) :
    Option Serverloop :=
  match s.heap x with
  | some (BaseEvent.bfevent c) => k c
  | _ => none

def userStep (s : Serverloop) (rest : List Frame) (a : Action) :
    Option Serverloop :=
  match a with
  | Action.addev e => some (s.addev e)
  | Action.listen => some s.listen
  | Action.delev x => s.delev x
  | Action.sendout x p written gathered =>
      s.onConn x fun c =>
        let r := c.sendout p written gathered
        some ((s.put x (BaseEvent.bfevent r.fst)).callIf r.snd x)
  | Action.receive x len =>
      s.onConn x fun c =>
        some (s.put x (BaseEvent.bfevent
          { c with bev.inbuff := c.bev.inbuff.retrieve len }))
  | Action.ret => some { s with stack := rest }
  | _ => none

def frameStep (tcp : TcpCallbacks) (s : Serverloop) (f : Frame) (a : Action) :
    Option Serverloop :=
  match f, a with
  | Frame.handleCb x revents stage, Action.proceed =>
      (s.heap x).map (s.handleCb tcp x revents stage)
  | Frame.handleRead x, Action.read r =>
      s.onConn x fun c => s.handleRead tcp x c r
  | Frame.handleWrite x, Action.proceed =>
      s.onConn x fun c =>
        if c.bev.outbuff.readbytes = 0 then some (s.leaveWrite x c) else none
  | Frame.handleWrite x, Action.write r =>
      s.onConn x fun c =>
        if 0 < c.bev.outbuff.readbytes then some (s.handleWrite tcp x c r)
        else none
  | Frame.leaveWrite x, Action.proceed =>
      s.onConn x fun c => some (s.leaveWrite x c)
  | Frame.handleTimeout x, Action.read r =>
      match s.heap x with
      | some (BaseEvent.timerevent _ cb) => some (s.handleTimeout x cb r)
      | _ => none
  | Frame.readSignals x, Action.read r => s.readSignals x r
  | Frame.handleSignals _ 0, Action.proceed => some s
  | Frame.handleSignals x (count + 1), Action.proceed =>
      match s.heap x with
      | some (BaseEvent.signalevent _ cb) =>
          some ((s.push (Frame.handleSignals x count)).callIf cb x)
      | _ => none
  | Frame.handleReceive x, Action.read r =>
      match s.heap x with
      | some (BaseEvent.udpevent ev inbuff started receiveCb eventCb) =>
          s.handleReceive x ev inbuff started receiveCb eventCb r
      | _ => none
  | Frame.handleAccept, Action.accept accepted =>
      some (s.handleAccept tcp accepted)
  | Frame.readEventfd, Action.read r => s.readEventfd r
  | Frame.tcpEventcb x, Action.proceed => (s.heap x).map (s.handleClose x)
  | Frame.delev x, Action.proceed => (s.heap x).map (s.finishDelev x)
  | Frame.destroy x, Action.proceed => (s.heap x).map (s.finishDestroy x)
  | _, _ => none

def step (tcp : TcpCallbacks) (s : Serverloop) (a : Action) :
    Option Serverloop :=
  match s.stack with
  | [] => s.loopStep a
  | Frame.user _ :: rest => s.userStep rest a
  | f :: rest => { s with stack := rest }.frameStep tcp f a

/-!
## What a trace must look like
-/

def Entry.queued? : Entry -> Option Nat
  | queued x => some x
  | _ => none

def Entry.destroyed? : Entry -> Option Nat
  | destroyed x _ => some x
  | _ => none

/-- The events that have entered `delque_`, in this order. -/
def queuedIn (past : List Entry) : List Nat :=
  past.filterMap Entry.queued?

def destroyedIn (past : List Entry) : List Nat :=
  past.filterMap Entry.destroyed?

/-- The deletion of the events in `delque_` has begun after the last batch. -/
def flushed (past : List Entry) : Bool :=
  past.foldl (fun b e =>
    match e with
    | Entry.waited => false
    | Entry.flush => true
    | _ => b) false

/--
A batch begins when all queued events have been deleted; an event is dispatched
only before it is deleted; callbacks are called, and events queued, only within
a batch, and only for events that have not been queued; and an event is deleted
only after the batch, if it has been queued, not been deleted, and is no longer
listed in `evlist_`.
-/
def Permitted (past : List Entry) : Entry -> Prop
  | Entry.waited => forall x, x ∈ queuedIn past -> x ∈ destroyedIn past
  | Entry.dispatched x => x ∉ destroyedIn past
  | Entry.called x => x ∉ queuedIn past ∧ flushed past = false
  | Entry.queued x => x ∉ queuedIn past ∧ flushed past = false
  | Entry.flush => True
  | Entry.destroyed x listed =>
      x ∈ queuedIn past ∧ x ∉ destroyedIn past ∧ flushed past = true ∧
        listed = false

def Drained (s : Serverloop) (x : Nat) : Prop :=
  match s.heap x with
  | some (BaseEvent.bfevent c) => c.bev.inbuff.contents = []
  | _ => True

/--
A callback gives an event to `delev` only if it has not been queued, and a
connection only when its input has been drained.
-/
def Unqueued (s : Serverloop) : Action -> Prop
  | Action.delev x => x ∉ queuedIn s.trace ∧ s.Drained x
  | _ => True

/--
The condition under which the deletions are exact.  Besides `Unqueued`, the event
must not be a connection that `tcp_eventcb_` is about to close: when the user's
callback has returned, `tcp_eventcb_` calls `handle_close` without looking
whether the callback has deleted the connection, so it is queued twice.
-/
def Disciplined (s : Serverloop) : Action -> Prop
  | Action.delev x =>
      x ∉ queuedIn s.trace ∧ Frame.tcpEventcb x ∉ s.stack ∧ s.Drained x
  | _ => True

instance (s : Serverloop) (x : Nat) : Decidable (s.Drained x) := by
  unfold Drained
  split <;> infer_instance

instance (s : Serverloop) (a : Action) : Decidable (Unqueued s a) := by
  cases a <;> unfold Unqueued <;> infer_instance

instance (s : Serverloop) (a : Action) : Decidable (Disciplined s a) := by
  cases a <;> unfold Disciplined <;> infer_instance

end Serverloop

end MoonNet
