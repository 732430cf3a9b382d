import MoonNet.Eventloop.Leaving

/-!
# The thread of a loop

A `loopthread` creates an event loop and runs it in a thread of its own.  The
constructor starts the thread before it stores `timeout_`, which is declared
behind `t_`.  Any threads may ask for the loop with `getloop`, which sleeps until
the loop is published, and may call `loopbreak` on it.  The owner may call
`join`, and it destroys the object, which looks at `loop_` without the mutex.
A critical section under `mx_` is one step, and so is each other access to a
member; inside the loop the steps are those of `Stop`.
-/

namespace MoonNet

open Foundation
open Kernel

universe u

namespace Loopthread

def MAX_EPOLL_TIMEOUT_MSEC : Int :=
  35 * 60 * 1000

/--
The owner: in the constructor, before the store of its parameter to `timeout_`,
at the test and before the second store; outside; in `join`; and in the
destructor, at the test of `loop_`, in `loopbreak`, at the `join` of each
branch, at `delete loop_` and in the `loopbreak` that this calls.
-/
inductive Owner where
  | storeTimeout (timeout : Int)
  | testTimeout
  | clampTimeout
  | idle
  | join
  | testLoop
  | loopbreak
  | joinLoop
  | deleteLoop
  | deleting
  | joinNull
  | destroyed
deriving DecidableEq, Repr

/-- The thread of `t_` in `_init_`. -/
inductive Thread where
  | create
  | publish
  | callLoop
  | inLoop
  | ended
deriving DecidableEq, Repr

/-- A thread that calls `getloop`; a loop is known by its `timeout_`. -/
inductive Caller where
  | outside
  | test
  | asleep
  | returned (loop : Int)
deriving DecidableEq, Repr

/-- `cv_.notify_all()` -/
def Caller.notified : Caller -> Caller
  | Caller.asleep => Caller.test
  | c => c

end Loopthread

/-- `joined` says that `t_` is not joinable any more; `created` is a history. -/
structure Loopthread (ι : Type u) where
  timeout : Int
  loop : Option Int
  owner : Loopthread.Owner
  thread : Loopthread.Thread
  callers : ι -> Loopthread.Caller
  stop : Stop (Option ι)
  joined : Bool
  deleted : Bool
  created : Option Int

namespace Loopthread

variable {ι : Type u}

/-- The thread has been started; `garbage` is what `timeout_` holds by then. -/
def start (garbage timeout : Int) : Loopthread ι where
  timeout := garbage
  loop := none
  owner := Owner.storeTimeout timeout
  thread := Thread.create
  callers := fun _ => Caller.outside
  stop := Stop.start
  joined := false
  deleted := false
  created := none

inductive Action (ι : Type u) where
  | owner (failure : Option Errno)
  | join
  | destroy
  | thread
  | loop (a : Stop.Action (Option ι))
  | getloop (i : ι)
  | caller (i : ι)
  | wake (i : ι)
  | loopbreak (i : ι) (failure : Option Errno)

def withStop (s : Loopthread ι) (stop : Option (Stop (Option ι))) :
    Option (Loopthread ι) :=
  stop.map fun stop => { s with stop := stop }

/-!
## The thread
-/

/-- `_init_` outside the loop; `loop` returns when it has been left. -/
def threadStep (s : Loopthread ι) : Option (Loopthread ι) :=
  match s.thread with
  | Thread.create =>
      some { s with created := some s.timeout, thread := Thread.publish }
  | Thread.publish =>
      some { s with
        loop := s.created
        thread := Thread.callLoop
        callers := fun i => (s.callers i).notified }
  | Thread.callLoop =>
      { s with thread := Thread.inLoop }.withStop s.stop.enterLoop
  | Thread.inLoop =>
      if s.stop.loop = Stop.LoopThread.outside then
        some { s with thread := Thread.ended }
      else none
  | Thread.ended => none

section

variable [DecidableEq ι]

/-- A step of `loop_->loop()`. -/
def loopStep (s : Loopthread ι) (a : Stop.Action (Option ι)) :
    Option (Loopthread ι) :=
  if s.thread = Thread.inLoop ∧ s.stop.loop ≠ Stop.LoopThread.outside ∧
      a.byLoop = true then
    s.withStop (s.stop.step a)
  else none

/-!
## The owner
-/

/-- `if (t_.joinable()) t_.join();` -/
def joinThread (s : Loopthread ι) (next : Owner) : Option (Loopthread ι) :=
  if s.joined then some { s with owner := next }
  else if s.thread = Thread.ended then
    some { s with owner := next, joined := true }
  else none

/-- The next step of a `loopbreak`. -/
def breakStep (s : Loopthread ι) (i : Option ι) (failure : Option Errno) :
    Option (Stop (Option ι)) :=
  match s.stop.breaker i with
  | Stop.Breaker.outside => s.stop.loopbreak i
  | Stop.Breaker.test => s.stop.breakTest i
  | Stop.Breaker.write => s.stop.writeEventfd i failure

/-- The owner goes on when its `loopbreak` has returned. -/
def onReturn (next : Loopthread ι -> Loopthread ι) (s : Loopthread ι) :
    Loopthread ι :=
  if s.stop.breaker none = Stop.Breaker.outside then next s else s

def ownerStep (s : Loopthread ι) (failure : Option Errno) :
    Option (Loopthread ι) :=
  match s.owner with
  | Owner.storeTimeout timeout =>
      some { s with timeout := timeout, owner := Owner.testTimeout }
  | Owner.testTimeout =>
      some { s with
        owner := if MAX_EPOLL_TIMEOUT_MSEC < s.timeout then Owner.clampTimeout
          else Owner.idle }
  | Owner.clampTimeout =>
      some { s with timeout := MAX_EPOLL_TIMEOUT_MSEC, owner := Owner.idle }
  | Owner.idle | Owner.destroyed => none
  | Owner.join => s.joinThread Owner.idle
  | Owner.testLoop =>
      match s.loop with
      | none => some { s with owner := Owner.joinNull }
      | some _ =>
          { s with owner := Owner.loopbreak }.withStop (s.stop.loopbreak none)
  | Owner.loopbreak =>
      (s.withStop (s.breakStep none failure)).map
        (onReturn fun t => { t with owner := Owner.joinLoop })
  | Owner.joinLoop => s.joinThread Owner.deleteLoop
  | Owner.deleteLoop =>
      { s with owner := Owner.deleting }.withStop (s.stop.loopbreak none)
  | Owner.deleting =>
      (s.withStop (s.breakStep none failure)).map
        (onReturn fun t => { t with owner := Owner.destroyed, deleted := true })
  | Owner.joinNull => s.joinThread Owner.destroyed

def call (s : Loopthread ι) (next : Owner) : Option (Loopthread ι) :=
  match s.owner with
  | Owner.idle => some { s with owner := next }
  | _ => none

/-!
## The other threads
-/

def setCaller (s : Loopthread ι) (i : ι) (c : Caller) : Loopthread ι :=
  { s with callers := fun j => if j = i then c else s.callers j }

def callGetloop (s : Loopthread ι) (i : ι) : Option (Loopthread ι) :=
  match s.callers i, s.stop.breaker (some i) with
  | Caller.outside, Stop.Breaker.outside
  | Caller.returned _, Stop.Breaker.outside =>
      some (s.setCaller i Caller.test)
  | _, _ => none

/-- `cv_.wait(lock, [&]() { return loop_ != nullptr; }); ep = loop_;` -/
def callerStep (s : Loopthread ι) (i : ι) : Option (Loopthread ι) :=
  match s.callers i with
  | Caller.test =>
      match s.loop with
      | none => some (s.setCaller i Caller.asleep)
      | some loop => some (s.setCaller i (Caller.returned loop))
  | _ => none

/-- A thread may wake up without having been notified. -/
def wakeStep (s : Loopthread ι) (i : ι) : Option (Loopthread ι) :=
  match s.callers i with
  | Caller.asleep => some (s.setCaller i Caller.test)
  | _ => none

/-- A step of `loopbreak` on a loop that is not being deleted. -/
def breakerStep (s : Loopthread ι) (i : ι) (failure : Option Errno) :
    Option (Loopthread ι) :=
  match s.callers i, s.owner with
  | Caller.returned _, Owner.deleteLoop | Caller.returned _, Owner.deleting
  | Caller.returned _, Owner.destroyed => none
  | Caller.returned _, _ => s.withStop (s.breakStep (some i) failure)
  | _, _ => none

def step (s : Loopthread ι) : Action ι -> Option (Loopthread ι)
  | Action.owner failure => s.ownerStep failure
  | Action.join => s.call Owner.join
  | Action.destroy => s.call Owner.testLoop
  | Action.thread => s.threadStep
  | Action.loop a => s.loopStep a
  | Action.getloop i => s.callGetloop i
  | Action.caller i => s.callerStep i
  | Action.wake i => s.wakeStep i
  | Action.loopbreak i failure => s.breakerStep i failure

end

end Loopthread

end MoonNet
