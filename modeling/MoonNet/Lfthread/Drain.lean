import Mathlib.Data.List.Perm.Subperm
import MoonNet.Lfthread.Model
import MoonNet.Ringbuff.Shared

/-!
# Draining a running lock-free thread

While the worker polls, other threads enqueue tasks and move the queued tasks to
a container by `swap_to_list` or `swap_to_vector`.  The worker's pop and a drain
are both consumers of the ring buffer, whose steps are those of
`Ringbuff.Shared`.
-/

namespace MoonNet

open Foundation
open Ringbuff

universe u

namespace Lfthread

/--
Who accesses the ring buffer: the worker, or another thread.  One of the other
threads at a time is in an enqueue and one at a time in a drain.
-/
inductive Caller where
  | worker
  | other
deriving DecidableEq, Repr

/--
The object between its construction and `t_shutdown`.  Histories: `invoked`
lists what the worker has called, and `queued` what had been accepted when the
latest drain was called.
-/
structure Running (τ : Type u) where
  buffer : Shared Caller (Task τ)
  worker : Worker τ
  invoked : List (Task τ)
  queued : List (Task τ)

namespace Running

variable {τ : Type u}

/-- The constructor starts the worker. -/
def start (size : UInt64) : Running τ where
  buffer := Shared.start (fun _ => Task.empty) size.toNat
  worker := Worker.testShutdown
  invoked := []
  queued := []

/-- `enqueue` and `drain` continue the call that is under way. -/
inductive Action (τ : Type u) where
  | enqueueTask (t : τ)
  | enqueueTaskMove (t : τ)
  | swapToList
  | swapToVector
  | enqueue
  | drain
  | worker
deriving DecidableEq, Repr

def access (moved : Task τ -> Task τ) (s : Running τ) (i : Caller)
    (a : Spsc.Action (Task τ)) : Option (Running τ) :=
  (Shared.step moved s.buffer (i, a)).map fun buffer =>
    { s with buffer := buffer }

/-- `t_task` as long as `shutdown_` is false. -/
def workerStep (moved : Task τ -> Task τ) (s : Running τ) :
    Option (Running τ) :=
  match s.worker with
  | Worker.testShutdown =>
      { s with worker := Worker.polling }.access moved Caller.worker
        Spsc.Action.popMove
  | Worker.polling =>
      match s.buffer.consumer Caller.worker with
      | Consumer.popped (some task) =>
          some { s with worker := Worker.invoke task }
      | Consumer.popped none => some { s with worker := Worker.testShutdown }
      | _ => s.access moved Caller.worker Spsc.Action.consume
  | Worker.invoke task =>
      some { s with
        worker := Worker.testShutdown
        invoked := s.invoked ++ [task] }
  | _ => none

def step (moved : Task τ -> Task τ) (s : Running τ) :
    Action τ -> Option (Running τ)
  | Action.enqueueTask t =>
      s.access moved Caller.other (Spsc.Action.push (Task.client t))
  | Action.enqueueTaskMove t =>
      s.access moved Caller.other (Spsc.Action.pushMove (Task.client t))
  | Action.swapToList =>
      { s with queued := s.buffer.accepted }.access moved Caller.other
        Spsc.Action.swapToList
  | Action.swapToVector =>
      { s with queued := s.buffer.accepted }.access moved Caller.other
        Spsc.Action.swapToVector
  | Action.enqueue => s.access moved Caller.other Spsc.Action.produce
  | Action.drain => s.access moved Caller.other Spsc.Action.consume
  | Action.worker => s.workerStep moved

/-!
# Exactly once
-/

def popping : Consumer (Task τ) -> List (Task τ)
  | Consumer.popStoreTail task _ | Consumer.popped (some task) => [task]
  | _ => []

/-- The task that the worker has popped and not invoked yet. -/
def inHand (s : Running τ) : List (Task τ) :=
  match s.worker with
  | Worker.polling => popping (s.buffer.consumer Caller.worker)
  | Worker.invoke task => [task]
  | _ => []

/-- What the drains have moved to their containers. -/
def transferred (s : Running τ) : List (Task τ) :=
  s.buffer.obtainedBy Caller.other

def taken (s : Running τ) : List (Task τ) :=
  s.invoked ++ s.inHand ++ s.transferred

/--
No task is invoked or transferred twice or without having been queued.  Whenever
no pop and no drain is between reading and storing `tail_`, every other task is
still in the queue, these remaining tasks are the latest ones in their order,
and after a drain none of them had been queued before the drain was called.
-/
structure ExactlyOnce (s : Running τ) : Prop where
  subperm : List.Subperm s.taken s.buffer.accepted
  perm : s.buffer.Settled ->
    List.Perm (s.taken ++ s.buffer.ring.contents) s.buffer.accepted
  remaining : s.buffer.Settled ->
    s.buffer.ring.contents <:+ s.buffer.accepted
  drained : s.buffer.Settled ->
    s.buffer.consumer Caller.other = Consumer.drained ->
      exists later, s.buffer.accepted = s.queued ++ later ∧
        s.buffer.ring.contents <:+ later

/--
When the worker's pop reads its cell, `tail_` is what it has loaded, the queue
is not empty and no drain is between finding tasks and storing `tail_`; when a
drain finds tasks, the head it has loaded lies between tail and head, and the
worker's pop is not between its read and its store.
-/
def TakesAlone (s : Running τ) : Action τ -> Prop
  | Action.worker => s.buffer.ReadsAlone Caller.worker
  | Action.drain => s.buffer.ReadsAlone Caller.other
  | _ => True

end Running

end Lfthread

end MoonNet
