import Mathlib.Algebra.Group.Int.Defs
import Mathlib.Algebra.Group.Nat.Defs
import MoonNet.Foundation.Runs

/-!
# The thread pool

Worker threads take tasks from a queue that is guarded by a mutex.  A manager
thread compares the number of queued tasks with `live_num`, adds threads or lets
some of them exit through `exit_num`.  Each critical section and each access to
one of the three atomic counters is one step; the threads' steps interleave in
any order, and a waiting worker may go on whenever its wait condition holds.
The counters are 32-bit; arithmetic on their values is exact.
-/

namespace MoonNet

open Foundation

universe u

/-- The value that an `int` holds after it was set to `x`. -/
def wrap32 (x : Int) : Int :=
  Int.bmod x (2 ^ 32)

theorem wrap32_lt (x : Int) : wrap32 x < 2 ^ 31 :=
  Int.bmod_lt (by decide)

theorem le_wrap32 (x : Int) : -2 ^ 31 <= wrap32 x :=
  Int.le_bmod (by decide)

theorem wrap32_eq {x : Int} (hle : -2 ^ 31 <= x) (hlt : x < 2 ^ 31) :
    wrap32 x = x := by
  unfold wrap32
  apply Int.bmod_eq_of_le
  · exact hle
  · exact hlt

theorem wrap32_pred {x : Int} (hpos : 0 < x) (hlt : x < 2 ^ 31) :
    wrap32 (x - 1) = x - 1 := by
  apply wrap32_eq
  · omega
  · omega

theorem wrap32_succ {x : Int} (hlt : wrap32 x < 2 ^ 31 - 1) :
    wrap32 (x + 1) = wrap32 x + 1 := by
  have hle := le_wrap32 x
  have hadd : wrap32 (wrap32 x + 1) = wrap32 (x + 1) :=
    Int.bmod_add_bmod ..
  rw [<- hadd]
  apply wrap32_eq
  · omega
  · omega

namespace Threadpool

/--
A worker in `t_task`: at its critical section, with a task before `++run_num`,
before `--live_num`, before running the task, or returned.
-/
inductive Worker (τ : Type u) where
  | waiting
  | popped (t : τ)
  | counted (t : τ)
  | runs (t : τ)
  | exited
deriving DecidableEq, Repr

/-- The manager in `adjust_task`; `size` and the like are its local values. -/
inductive Manager where
  | testShutdown
  | readThreads
  | readTasks (size : Nat)
  | compareTasks (size : Nat) (tasks : Nat)
  | compareMax (size : Nat)
  | addThreads (size : Nat)
  | readRun
  | compareRun (run : Int)
  | compareMin
  | compareTen
  | readSurplus
  | storeExit (value : Int)
  | readExit
  | release (x : Int)
  | exited
deriving DecidableEq, Repr

/--
The thread that owns the pool: in `init`, outside of any call, in `t_shutdown`
before the loop that joins, in that loop at thread `i` of `n`, or behind it.
-/
inductive Owner where
  | init (i : Nat)
  | running
  | notify
  | join (i n : Nat)
  | joined
deriving DecidableEq, Repr

end Threadpool

/--
The vector `threads` starts with `num` threads that were never started, which
cannot be joined; `workers` are the threads behind them.  Two histories are
kept: `accepted` holds the tasks that were put into the queue and `executed`
those that have been run.
-/
structure Threadpool (τ : Type u) where
  num : Nat
  workers : List (Threadpool.Worker τ)
  tasks : List τ
  maxThrNum : Int
  runNum : Int
  liveNum : Int
  exitNum : Int
  shutdown : Bool
  manager : Threadpool.Manager
  owner : Threadpool.Owner
  accepted : List τ
  executed : List τ

namespace Threadpool

variable {τ : Type u}

/-- `threadpool(num)` on a machine with `hardware` hardware threads. -/
def start (num hardware : Nat) : Threadpool τ where
  num := num
  workers := []
  tasks := []
  maxThrNum := wrap32 (hardware + 1)
  runNum := 0
  liveNum := 0
  exitNum := 0
  shutdown := false
  manager := Manager.testShutdown
  owner := Owner.init 0
  accepted := []
  executed := []

def minThrNum (s : Threadpool τ) : Int :=
  s.num

/-- `threads.size()` -/
def threadsSize (s : Threadpool τ) : Nat :=
  s.num + s.workers.length

def addWorkers (s : Threadpool τ) (n : Nat) : Threadpool τ :=
  { s with workers := s.workers ++ List.replicate n Worker.waiting }

inductive Action (τ : Type u) where
  | owner
  | tShutdown
  | addTask (t : τ)
  | manager
  | worker (i : Nat)
deriving DecidableEq, Repr

/-- Other threads use the pool when its constructor has returned. -/
def addTask (s : Threadpool τ) (t : τ) : Option (Threadpool τ) :=
  match s.owner with
  | Owner.init _ => none
  | _ =>
      if s.shutdown then some s
      else
        some { s with tasks := s.tasks ++ [t], accepted := s.accepted ++ [t] }

def tShutdown (s : Threadpool τ) : Option (Threadpool τ) :=
  match s.owner with
  | Owner.running =>
      some { s with shutdown := true, owner := Owner.notify }
  | _ => none

/-- Thread `i` of `threads` cannot be joined, or its join returns. -/
def joins (s : Threadpool τ) (i : Nat) : Bool :=
  i < s.num ||
    match s.workers[i - s.num]? with
    | some Worker.exited => true
    | _ => false

def ownerStep (s : Threadpool τ) : Option (Threadpool τ) :=
  match s.owner with
  | Owner.init i =>
      if (i : Int) < s.minThrNum then
        some { s.addWorkers 1 with owner := Owner.init (i + 1) }
      else some { s with owner := Owner.running }
  | Owner.running | Owner.joined => none
  | Owner.notify => some { s with owner := Owner.join 0 s.threadsSize }
  | Owner.join i n =>
      if i < n then
        if s.joins i then some { s with owner := Owner.join (i + 1) n }
        else none
      else some { s with owner := Owner.joined }

def setWorker (s : Threadpool τ) (i : Nat) (w : Worker τ) : Threadpool τ :=
  { s with workers := s.workers.set i w }

/-- The critical section of `t_task`. -/
def takeTask (s : Threadpool τ) (i : Nat) : Option (Threadpool τ) :=
  if 0 < s.exitNum then
    some { s.setWorker i Worker.exited with exitNum := wrap32 (s.exitNum - 1) }
  else
    match s.tasks with
    | [] => if s.shutdown then some (s.setWorker i Worker.exited) else none
    | t :: rest =>
        some { s.setWorker i (Worker.popped t) with tasks := rest }

def workerStep (s : Threadpool τ) (i : Nat) : Option (Threadpool τ) :=
  match s.workers[i]? with
  | none | some Worker.exited => none
  | some Worker.waiting => s.takeTask i
  | some (Worker.popped t) =>
      some { s.setWorker i (Worker.counted t) with
        runNum := wrap32 (s.runNum + 1) }
  | some (Worker.counted t) =>
      some { s.setWorker i (Worker.runs t) with
        liveNum := wrap32 (s.liveNum - 1) }
  | some (Worker.runs t) =>
      some { s.setWorker i Worker.waiting with
        executed := s.executed ++ [t] }

/-- How many threads the loop `i < max_thr_num && add < 10` adds. -/
def addCount (s : Threadpool τ) (size : Nat) : Nat :=
  min 10 (s.maxThrNum - size).toNat

def goto (s : Threadpool τ) (m : Manager) : Threadpool τ :=
  { s with manager := m }

def managerStep (s : Threadpool τ) : Option (Threadpool τ) :=
  match s.manager with
  | Manager.testShutdown =>
      some (s.goto (if s.shutdown then Manager.exited else Manager.readThreads))
  | Manager.readThreads => some (s.goto (Manager.readTasks s.threadsSize))
  | Manager.readTasks size =>
      some (s.goto (Manager.compareTasks size s.tasks.length))
  | Manager.compareTasks size tasks =>
      -- `live_num` is converted to `size_t`, so a negative one is huge.
      some (s.goto
        (if s.liveNum % 2 ^ 64 < tasks then Manager.compareMax size
          else Manager.readRun))
  | Manager.compareMax size =>
      some (s.goto
        (if s.liveNum < s.maxThrNum ∧ (size : Int) < s.maxThrNum then
          Manager.addThreads size
        else Manager.readRun))
  | Manager.addThreads size =>
      let add := s.addCount size
      some { s.addWorkers add with
        liveNum := wrap32 (s.liveNum + add)
        manager := Manager.readRun }
  | Manager.readRun => some (s.goto (Manager.compareRun s.runNum))
  | Manager.compareRun run =>
      some (s.goto
        (if run * 2 < s.liveNum then Manager.compareMin
          else Manager.testShutdown))
  | Manager.compareMin =>
      some (s.goto
        (if s.minThrNum < s.liveNum then Manager.compareTen
          else Manager.testShutdown))
  | Manager.compareTen =>
      some (s.goto
        (if 10 <= s.liveNum - s.minThrNum then Manager.storeExit 10
          else Manager.readSurplus))
  | Manager.readSurplus =>
      some (s.goto (Manager.storeExit (s.liveNum - s.minThrNum)))
  | Manager.storeExit value =>
      some { s with exitNum := wrap32 value, manager := Manager.readExit }
  | Manager.readExit => some (s.goto (Manager.release s.exitNum))
  | Manager.release x =>
      some { s with
        liveNum := wrap32 (s.liveNum - x.toNat)
        manager := Manager.testShutdown }
  | Manager.exited => none

def step (s : Threadpool τ) : Action τ -> Option (Threadpool τ)
  | Action.owner => s.ownerStep
  | Action.tShutdown => s.tShutdown
  | Action.addTask t => s.addTask t
  | Action.manager => s.managerStep
  | Action.worker i => s.workerStep i

/-!
## Conditions
-/

/-- `t_shutdown` has begun to join the threads. -/
def Joining (s : Threadpool τ) : Prop :=
  match s.owner with
  | Owner.join _ _ | Owner.joined => True
  | _ => False

/-- The manager adds no thread once `t_shutdown` has begun to join. -/
def NoLateThread (s : Threadpool τ) (a : Action τ) : Prop :=
  a = Action.manager -> s.Joining ->
    forall size, s.manager ≠ Manager.addThreads size

def Served (s : Threadpool τ) : Prop :=
  (exists w, w ∈ s.workers ∧ w ≠ Worker.exited) ∨ s.tasks = []

/--
When `t_shutdown` begins to join, some worker is left or the queue is empty;
and from then on a worker leaves through `exit_num` only if another one is left
or the queue is empty.
-/
def KeepsServed (s : Threadpool τ) (a : Action τ) : Prop :=
  (a = Action.owner -> s.owner = Owner.notify -> s.Served) ∧
    forall i, a = Action.worker i -> s.Joining ->
      s.workers[i]? = some Worker.waiting -> 0 < s.exitNum ->
        (s.setWorker i Worker.exited).Served

end Threadpool

end MoonNet
