import Mathlib.Logic.Function.Basic
import MoonNet.Foundation.Runs

/-!
# The list of a server's connections

`acceptcb_` runs on the acceptor's thread: it constructs a `bfevent` on a loop
of the pool, sets its callbacks, and inserts the pointer into `events_`.  The
thread of that loop calls `tcp_eventcb_` at the end of the stream or on an
error; `handle_close` removes the pointer from `events_`, clears the callbacks
and queues the event, which is destroyed at the end of the batch.

Pointers come from a type `A`, and memory that has been freed may be returned by
a later `new`.  Loops come from a type `L`.  Of the members of an event only its
loop and the presence of `eventcb_` matter here.
-/

namespace MoonNet

open Foundation

universe u v

namespace Events

/-- What `acceptcb_` executes next, and the event it has constructed. -/
inductive Acceptor (A : Type u) where
  | waiting
  | setEventcb (bev : A)
  | updateEp (bev : A)
  | insert (bev : A)
deriving DecidableEq, Repr

namespace Acceptor

variable {A : Type u}

def bev? : Acceptor A -> Option A
  | waiting => none
  | setEventcb bev | updateEp bev | insert bev => some bev

end Acceptor

/-- What a loop thread executes next of `handle_close`, and for which event. -/
inductive LoopThread (A : Type u) where
  | waiting
  | remove (bev : A)
  | disableCb (bev : A)
  | addPendingDel (bev : A)
deriving DecidableEq, Repr

namespace LoopThread

variable {A : Type u}

def closing? : LoopThread A -> Option A
  | waiting => none
  | remove bev | disableCb bev | addPendingDel bev => some bev

def removed? : LoopThread A -> Option A
  | waiting | remove _ => none
  | disableCb bev | addPendingDel bev => some bev

end LoopThread

end Events

/--
`getloop` has a value for the events that have been constructed and not been
destroyed.
-/
structure Events (A : Type u) (L : Type v) where
  getloop : A -> Option L
  eventcb : A -> Bool
  events : List A
  delque : L -> List A
  acceptor : Events.Acceptor A
  thread : L -> Events.LoopThread A

namespace Events

variable {A : Type u} {L : Type v} [DecidableEq A] [DecidableEq L]

def start : Events A L where
  getloop := fun _ => none
  eventcb := fun _ => false
  events := []
  delque := fun _ => []
  acceptor := Acceptor.waiting
  thread := fun _ => LoopThread.waiting

/--
`handleEvent` is the call of `tcp_eventcb_` by the thread of `loop` at the end of
the stream or on an error, `closeStep` the next statement of its `handle_close`,
and `endBatch` the deletion of what is queued.
-/
inductive Action (A : Type u) (L : Type v) where
  | accept (bev : A) (loop : L)
  | acceptor
  | handleEvent (loop : L) (bev : A)
  | closeStep (loop : L)
  | endBatch (loop : L)
deriving DecidableEq, Repr

def gone (s : Events A L) (bev : A) : Bool :=
  (s.getloop bev).isNone

/-- `new bfevent(pool_.ev_dispatch(), fd, EPOLLIN | EPOLLET)` -/
def accept (s : Events A L) (bev : A) (loop : L) : Option (Events A L) :=
  match s.acceptor with
  | Acceptor.waiting =>
      if s.gone bev then
        some { s with
          getloop := Function.update s.getloop bev (some loop)
          eventcb := Function.update s.eventcb bev false
          acceptor := Acceptor.setEventcb bev }
      else none
  | _ => none

/--
The rest of `acceptcb_`: `setcb` assigns the callbacks and calls `update_ep`,
both on the event, so they have no result if it has been destroyed; the
insertion only copies the pointer.
-/
def acceptorStep (s : Events A L) : Option (Events A L) :=
  match s.acceptor with
  | Acceptor.waiting => none
  | Acceptor.setEventcb bev =>
      if s.gone bev then none
      else
        some { s with
          eventcb := Function.update s.eventcb bev true
          acceptor := Acceptor.updateEp bev }
  | Acceptor.updateEp bev =>
      if s.gone bev then none
      else some { s with acceptor := Acceptor.insert bev }
  | Acceptor.insert bev =>
      some { s with
        events := s.events ++ [bev]
        acceptor := Acceptor.waiting }

def setThread (s : Events A L) (loop : L) (t : LoopThread A) : Events A L :=
  { s with thread := Function.update s.thread loop t }

/-- An event that is registered with `loop` and has an `eventcb_`. -/
def handleEvent (s : Events A L) (loop : L) (bev : A) : Option (Events A L) :=
  match s.thread loop with
  | LoopThread.waiting =>
      if s.getloop bev = some loop ∧ s.eventcb bev = true then
        some (s.setThread loop (LoopThread.remove bev))
      else none
  | _ => none

def closeStep (s : Events A L) (loop : L) : Option (Events A L) :=
  match s.thread loop with
  | LoopThread.waiting => none
  | LoopThread.remove bev =>
      some { s.setThread loop (LoopThread.disableCb bev) with
        events := s.events.filter fun e => e != bev }
  | LoopThread.disableCb bev =>
      some { s.setThread loop (LoopThread.addPendingDel bev) with
        eventcb := Function.update s.eventcb bev false }
  | LoopThread.addPendingDel bev =>
      some { s.setThread loop LoopThread.waiting with
        delque := Function.update s.delque loop (s.delque loop ++ [bev]) }

/-- Delete events one by one; no result is a use of an event that is gone. -/
def deleteAll (getloop : A -> Option L) : List A -> Option (A -> Option L)
  | [] => some getloop
  | ev :: rest =>
      match getloop ev with
      | none => none
      | some _ => deleteAll (Function.update getloop ev none) rest

/-- `for (auto ev : delque_) delete ev; delque_.clear();` -/
def endBatch (s : Events A L) (loop : L) : Option (Events A L) :=
  match s.thread loop with
  | LoopThread.waiting =>
      (deleteAll s.getloop (s.delque loop)).map fun getloop =>
        { s with
          getloop := getloop
          delque := Function.update s.delque loop [] }
  | _ => none

def step (s : Events A L) : Action A L -> Option (Events A L)
  | Action.accept bev loop => s.accept bev loop
  | Action.acceptor => s.acceptorStep
  | Action.handleEvent loop bev => s.handleEvent loop bev
  | Action.closeStep loop => s.closeStep loop
  | Action.endBatch loop => s.endBatch loop

/-- `for (auto &ev : events_) { ev->close(); delete ev; }` of `~server` -/
def closeEvents (s : Events A L) : Option (A -> Option L) :=
  deleteAll s.getloop s.events

/-- `events_` lists events that are not gone, each of them once. -/
def ListsLive (s : Events A L) : Prop :=
  s.events.Nodup ∧ forall bev, bev ∈ s.events -> s.gone bev = false

/-- When `handle_close` removes an event from `events_`, it is there. -/
def RemovesListed (s : Events A L) : Action A L -> Prop
  | Action.closeStep loop =>
      match s.thread loop with
      | LoopThread.remove bev => bev ∈ s.events
      | _ => True
  | _ => True

end Events

end MoonNet
