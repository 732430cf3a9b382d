import MoonNet.Ringbuff.Threads
import MoonNet.Ringbuff.Valid

/-!
# The lock-free thread

An `lfthread` owns a ring buffer of tasks and one worker thread.  Its client
enqueues tasks and finally calls `t_shutdown`, which sets a flag, pushes an
empty task to wake the worker up and joins it.  The worker polls the ring buffer
until it sees the flag and drains it afterwards.  The steps of both threads are
those of `Ringbuff.Spsc` and each access to `shutdown_`.
-/

namespace MoonNet

open Foundation
open Ringbuff

universe u

/-- A `std::function<void()>`: a task of the client, `[]() {}`, or no target. -/
inductive Task (τ : Type u) where
  | client (t : τ)
  | wakeup
  | empty
deriving DecidableEq, Repr

namespace Task

variable {τ : Type u}

def client? : Task τ -> Option τ
  | client t => some t
  | _ => none

end Task

namespace Lfthread

/-- The client: outside of any call, in `enqueue_task`, or in `t_shutdown`. -/
inductive Client (τ : Type u) where
  | running
  | enqueue (t : τ)
  | testShutdown
  | setShutdown
  | pushWakeup
  | waking
  | join
  | done
deriving DecidableEq, Repr

/-- The worker in `t_task`. -/
inductive Worker (τ : Type u) where
  | testShutdown
  | polling
  | invoke (task : Task τ)
  | draining
  | discard
  | exited
deriving DecidableEq, Repr

end Lfthread

/--
The object, both threads, and two histories: `accepted` holds the tasks whose
enqueue returned true and `invoked` what the worker has called.
-/
structure Lfthread (τ : Type u) where
  buffer : Spsc (Task τ)
  shutdown : Bool
  client : Lfthread.Client τ
  worker : Lfthread.Worker τ
  accepted : List τ
  invoked : List (Task τ)

namespace Lfthread

variable {τ : Type u}

/-- `lfthread(size)`: the ring buffer holds functions without a target. -/
def start (size : UInt64) : Lfthread τ where
  buffer := Spsc.start (fun _ => Task.empty) size.toNat
  shutdown := false
  client := Client.running
  worker := Worker.testShutdown
  accepted := []
  invoked := []

inductive Action (τ : Type u) where
  | enqueueTask (t : τ)
  | enqueueTaskMove (t : τ)
  | tShutdown
  | client
  | worker
deriving DecidableEq, Repr

def withBuffer (s : Lfthread τ) (b : Option (Spsc (Task τ))) :
    Option (Lfthread τ) :=
  b.map fun buffer => { s with buffer := buffer }

def callEnqueue (s : Lfthread τ) (t : τ) : Option (Lfthread τ) :=
  match s.client with
  | Client.running =>
      { s with client := Client.enqueue t }.withBuffer
        (s.buffer.callPush (Task.client t))
  | _ => none

def callShutdown (s : Lfthread τ) : Option (Lfthread τ) :=
  match s.client with
  | Client.running => some { s with client := Client.testShutdown }
  | _ => none

def clientStep (s : Lfthread τ) : Option (Lfthread τ) :=
  match s.client with
  | Client.running | Client.done => none
  | Client.enqueue t =>
      match s.buffer.producer with
      | Producer.returned ok =>
          some { s with
            client := Client.running
            accepted := if ok then s.accepted ++ [t] else s.accepted }
      | _ => s.withBuffer s.buffer.produce
  | Client.testShutdown =>
      if s.shutdown then some { s with client := Client.done }
      else some { s with client := Client.setShutdown }
  | Client.setShutdown =>
      some { s with client := Client.pushWakeup, shutdown := true }
  | Client.pushWakeup =>
      { s with client := Client.waking }.withBuffer
        (s.buffer.callPush Task.wakeup)
  | Client.waking =>
      match s.buffer.producer with
      | Producer.returned _ => some { s with client := Client.join }
      | _ => s.withBuffer s.buffer.produce
  | Client.join =>
      match s.worker with
      | Worker.exited => some { s with client := Client.done }
      | _ => none

/-- Call `buffer_.pop` in the final loop. -/
def callDrain (s : Lfthread τ) : Option (Lfthread τ) :=
  { s with worker := Worker.draining }.withBuffer
    (s.buffer.callConsumer (Consumer.popLoadTail false))

def workerStep (moved : Task τ -> Task τ) (s : Lfthread τ) :
    Option (Lfthread τ) :=
  match s.worker with
  | Worker.testShutdown =>
      if s.shutdown then s.callDrain
      else
        { s with worker := Worker.polling }.withBuffer
          (s.buffer.callConsumer (Consumer.popLoadTail true))
  | Worker.polling =>
      match s.buffer.consumer with
      | Consumer.popped (some task) =>
          some { s with worker := Worker.invoke task }
      | Consumer.popped none => some { s with worker := Worker.testShutdown }
      | _ => s.withBuffer (s.buffer.consume moved)
  | Worker.invoke task =>
      some { s with
        worker := Worker.testShutdown
        invoked := s.invoked ++ [task] }
  | Worker.draining =>
      match s.buffer.consumer with
      | Consumer.popped (some _) => some { s with worker := Worker.discard }
      | Consumer.popped none => some { s with worker := Worker.exited }
      | _ => s.withBuffer (s.buffer.consume moved)
  -- `task();` names the type, not the variable: it builds a function without
  -- a target and drops it.
  | Worker.discard => s.callDrain
  | Worker.exited => none

def step (moved : Task τ -> Task τ) (s : Lfthread τ) :
    Action τ -> Option (Lfthread τ)
  | Action.enqueueTask t => s.callEnqueue t
  | Action.enqueueTaskMove t => s.callEnqueue t
  | Action.tShutdown => s.callShutdown
  | Action.client => s.clientStep
  | Action.worker => s.workerStep moved

/--
The accepted tasks have been invoked once each, in their order, and nothing
else but the wake-up task has been invoked.
-/
def AllInvoked (s : Lfthread τ) : Prop :=
  s.invoked.filterMap Task.client? = s.accepted ∧
    forall task, task ∈ s.invoked ->
      task = Task.wakeup ∨ exists t, task = Task.client t

/--
When the worker finds `shutdown_` set at the head of its polling loop, no task
of the client is left in the ring buffer.
-/
def LeavesEmpty (s : Lfthread τ) (a : Action τ) : Prop :=
  a = Action.worker -> s.worker = Worker.testShutdown -> s.shutdown = true ->
    forall t, Task.client t ∉ s.buffer.ring.contents

end Lfthread

end MoonNet
