import MoonNet.Lfthread.Model
import MoonNet.Looptpool.Adjust
import MoonNet.Threadpool.Model

/-!
# The lock-free thread pool

Each worker is an `lfthread` with a ring buffer of its own.  In dynamic mode a
task goes to the worker with the fewest tasks and a mentor thread is started to
adjust the number of workers; in static mode the workers take turns.  Calls on
the pool run one at a time here; between them the workers go on to pop, so that
the ring buffers become anything.
-/

namespace MoonNet

open Foundation

universe u

inductive PoolMode where
  | static
  | dynamic
deriving DecidableEq, Repr

/-- The queue and the flag of an `lfthread` in the pool. -/
structure PoolWorker (τ : Type u) where
  buffer : Ringbuff (Task τ)
  shutdown : Bool

namespace PoolWorker

variable {τ : Type u}

/-- `new lfthread(size)` -/
def new (size : Nat) : PoolWorker τ where
  buffer := Ringbuff.new (fun _ => Task.empty) size
  shutdown := false

/-- The length, a `size_t`, is converted to `int`. -/
def getload (w : PoolWorker τ) : Int :=
  wrap32 w.buffer.size

def enqueueTask (w : PoolWorker τ) (task : Task τ) :
    Option (PoolWorker τ × Bool) :=
  (w.buffer.push task).map fun r => ({ w with buffer := r.fst }, r.snd.fst)

def swapToRingbuff (w : PoolWorker τ) (rb : Ringbuff (Task τ)) :
    PoolWorker τ × Ringbuff (Task τ) :=
  let p := w.buffer.swap rb
  ({ w with buffer := p.fst }, p.snd)

/-- `t_shutdown` up to the join of the thread. -/
def tShutdown (w : PoolWorker τ) : Option (PoolWorker τ) :=
  if w.shutdown then some w
  else
    (w.buffer.push Task.wakeup).map fun r =>
      { w with buffer := r.fst, shutdown := true }

end PoolWorker

structure Lfthreadpool (τ : Type u) where
  tnum : Nat
  mentor : Option AdjustTask
  workers : List (PoolWorker τ)
  shutdown : Bool
  mode : PoolMode
  buffsize : Nat
  next : Nat
  timesec : Int
  coolsec : Int
  loadMax : Int
  loadMin : Int
  maxTnum : Int
  minTnum : Int

namespace Lfthreadpool

variable {τ : Type u}

/-- `setnum(n)`; `tnum_` is a `size_t`, the bounds are of type `int`. -/
def setnum (p : Lfthreadpool τ) (n : Nat) : Lfthreadpool τ :=
  { p with
    tnum := n
    maxTnum := wrap32 (n * 2 - 1)
    minTnum := wrap32 n }

/-- The number of `getcores` on a machine with `hardware` hardware threads. -/
def getcores (hardware : Nat) : Nat :=
  (if hardware / 2 = 0 then 4 else hardware / 2) + 1

def init (p : Lfthreadpool τ) : Lfthreadpool τ :=
  { p with
    workers := p.workers ++ List.replicate p.tnum (PoolWorker.new p.buffsize)
    mentor :=
      if p.mode = PoolMode.dynamic then some AdjustTask.test else none }

def members (buffsize : Nat) (mode : PoolMode) : Lfthreadpool τ where
  tnum := 0
  mentor := none
  workers := []
  shutdown := false
  mode := mode
  buffsize := buffsize
  next := 0
  timesec := 5
  coolsec := 30
  loadMax := 80
  loadMin := 20
  maxTnum := 0
  minTnum := 0

def new (hardware : Nat) (tnum : Int) (buffsize : Nat) (mode : PoolMode) :
    Lfthreadpool τ :=
  ((members buffsize mode).setnum
    (if tnum <= 0 then getcores hardware else tnum.toNat)).init

/-!
## Choosing a worker
-/

/-- The loads of the workers below `tnum_`. -/
def loads (p : Lfthreadpool τ) : List Int :=
  (p.workers.take p.tnum).map PoolWorker.getload

def getminidx (p : Lfthreadpool τ) : Nat :=
  match p.loads with
  | [] => 0
  | first :: rest =>
      Looptpool.pickIdx (fun cur best => decide (cur < best)) first 0 1 rest

def getmaxidx (p : Lfthreadpool τ) : Nat :=
  match p.loads with
  | [] => 0
  | first :: rest =>
      Looptpool.pickIdx (fun cur best => decide (best < cur)) first 0 1 rest

def getnext (p : Lfthreadpool τ) : Lfthreadpool τ × Nat :=
  match p.mode with
  | PoolMode.dynamic => (p, p.getminidx)
  | PoolMode.static =>
      let next := (p.next + 1) % p.tnum
      ({ p with next := next }, next)

/-- `add_task`, and what it returns. -/
def addTask (p : Lfthreadpool τ) (task : Task τ) :
    Option (Lfthreadpool τ × Bool) :=
  if p.shutdown then some (p, false)
  else
    let q := p.getnext
    match q.fst.workers[q.snd]? with
    | none => some (q.fst, false)
    | some w =>
        (w.enqueueTask task).map fun r =>
          ({ q.fst with workers := q.fst.workers.set q.snd r.fst }, r.snd)

/-!
## The mentor
-/

/--
`while (rb.pop_move(_t)) add_task(std::move(_t));` with `fuel` turns at most;
`moved` is what a move leaves.
-/
def redistribute (moved : Task τ -> Task τ) :
    Nat -> Ringbuff (Task τ) -> Task τ -> Lfthreadpool τ ->
      Option (Lfthreadpool τ)
  | 0, _, _, _ => none
  | fuel + 1, rb, task, p =>
      match rb.popMove moved task with
      | none => none
      | some (_, false, _) => some p
      | some (rb, true, task) =>
          (p.addTask task).bind fun r =>
            redistribute moved fuel rb (moved task) r.fst

/--
`del_thread_dispath`; a loop over `rb` that has not ended after `capacity_`
turns never does.
-/
def delThreadDispath (moved : Task τ -> Task τ) (p : Lfthreadpool τ) :
    Option (Lfthreadpool τ) :=
  let idx := p.getmaxidx
  match p.workers[idx]? with
  | none => none
  | some w =>
      let swapped := w.swapToRingbuff
        (Ringbuff.new (fun _ => Task.empty) p.buffsize)
      swapped.fst.tShutdown.bind fun _ =>
        redistribute moved (swapped.snd.capacity + 1) swapped.snd Task.empty
          { p with
            workers := Looptpool.removeAt idx p.workers
            tnum := p.tnum - 1 }

def addThread (p : Lfthreadpool τ) : Lfthreadpool τ :=
  { p with
    workers := p.workers ++ [PoolWorker.new p.buffsize]
    tnum := p.tnum + 1 }

def getload (p : Lfthreadpool τ) : Int :=
  loadScale p.loads (wrap32 p.tnum)

/-- The body of the loop in `adjust_task` after the second test. -/
def adjust (moved : Task τ -> Task τ) (p : Lfthreadpool τ) :
    Option (Lfthreadpool τ) :=
  let num := wrap32 p.tnum
  (if p.minTnum < num ∧ num < p.maxTnum then
    let load := p.getload
    if load < p.loadMin then
      (p.delThreadDispath moved).map fun p : Lfthreadpool τ =>
        { p with timesec := p.timesec + p.coolsec }
    else if p.loadMax < load then
      some { p.addThread with timesec := p.timesec - p.coolsec }
    else some p
  else some p).map fun p =>
    if p.timesec < ADJUST_TIMEOUT_SEC then
      { p with timesec := ADJUST_TIMEOUT_SEC }
    else p

/-- The loop of `adjust_task` goes on while `shutdown_` is set. -/
def mentorStep (moved : Task τ -> Task τ) (p : Lfthreadpool τ) :
    Option (Lfthreadpool τ) :=
  match p.mentor with
  | none => none
  | some AdjustTask.test =>
      some { p with
        mentor := if p.shutdown then some AdjustTask.asleep else none }
  | some AdjustTask.asleep =>
      if p.shutdown then some { p with mentor := none }
      else
        (p.adjust moved).map fun p : Lfthreadpool τ =>
          { p with mentor := some AdjustTask.test }

inductive Action (τ : Type u) where
  | work (buffers : List (Ringbuff (Task τ)))
  | addTask (task : Task τ)
  | mentor
  | tShutdown

/-- `work` is what the workers have done; `t_shutdown` begins with its flag. -/
def step (moved : Task τ -> Task τ) (p : Lfthreadpool τ) :
    Action τ -> Option (Lfthreadpool τ)
  | Action.work buffers =>
      if buffers.length = p.workers.length then
        some { p with
          workers := List.zipWith
            (fun w buffer => { w with buffer := buffer }) p.workers buffers }
      else none
  | Action.addTask task => (p.addTask task).map Prod.fst
  | Action.mentor => p.mentorStep moved
  | Action.tShutdown => some { p with shutdown := true }

/--
Some run of the mentor, with loads as the callers and the workers make them,
leaves a number of workers that is not `n` and within the bounds.
-/
def Resizes (moved : Task τ -> Task τ) (hardware n buffsize : Nat) : Prop :=
  exists acts s,
    StepFn.run (step moved) (new hardware n buffsize PoolMode.dynamic) acts =
      some s ∧ s.workers.length ≠ n ∧
      s.minTnum <= s.workers.length ∧ (s.workers.length : Int) <= s.maxTnum

end Lfthreadpool

end MoonNet
