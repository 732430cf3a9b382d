import MoonNet.Looptpool.Adjust
import MoonNet.Looptpool.Turns
import MoonNet.Threadpool.Model

/-!
# The number of loops as an `int`

`t_num` is set from an `int` that nothing checks, while `loadvec_` grows by one
loop after the other, so the two agree only if the calls keep them in step, and
as long as the number of loops is one that an `int` can hold.  The
manager thread changes both as well, one after the other and without a lock, so
that they disagree for as long as it takes to delete a loop.  A call that indexes
`loadvec_` out of bounds has no result, and neither has one that assigns to a
`manager_` that is still joinable, which ends the process.
-/

namespace MoonNet

open Foundation

universe u

/--
The manager thread in `adjust_task`: at the test of its loop, asleep, in
`delloop_dispatch` when the events of loop `idx` have been dispatched or when
the loop is out of `loadvec_`, in `addloop` when the new loop is in it, or
returned.
-/
inductive ManagerThread where
  | test
  | asleep
  | emptied (idx : Nat)
  | popped
  | added
  | returned
deriving DecidableEq, Repr

/-- `manager_` is joinable if the thread was started. -/
structure CalledPool (E : Type u) where
  base : Eventloop E
  loadvec : List (Eventloop E)
  tNum : Int
  next : Int
  dispath : Bool
  manager : Option ManagerThread
  timeout : Int
  maxTnum : Int
  minTnum : Int

inductive PoolCall (E : Type u) where
  | createPool (n : Int32) (timeout : Int) (wakeup : Nat -> E)
  | createPoolNoadjust (n : Int32) (timeout : Int) (wakeup : Nat -> E)
  | addloop (wakeup : E)
  | delloopDispatch
  | evDispatch

inductive CallEnd (state : Type u) where
  | returns (s : state)
  | terminated
  | outOfBounds

namespace CalledPool

variable {E : Type u} (fd : E -> Int) (mask : E -> Mask) (refused : E -> Bool)

def new (base : Eventloop E) (dispath : Bool) : CalledPool E where
  base := base
  loadvec := []
  tNum := 0
  next := 0
  dispath := dispath
  manager := if dispath then some ManagerThread.test else none
  timeout := -1
  maxTnum := 0
  minTnum := 0

/-!
## Creating loops
-/

def settnum (s : CalledPool E) (n : Int) : CalledPool E :=
  { s with tNum := n, maxTnum := wrap32 (n * 2 - 1), minTnum := n }

def settnumNoadjust (s : CalledPool E) (n : Int) : CalledPool E :=
  { s with tNum := n, minTnum := n, maxTnum := n }

def initPool (s : CalledPool E) (timeout : Int) (wakeup : Nat -> E) :
    CalledPool E :=
  { s with
    timeout := timeout
    loadvec := s.loadvec ++ (List.range s.tNum.toNat).map fun i =>
      AdjustedPool.newLoop fd mask refused (wakeup i) }

/-- No result stands for the end of the process. -/
def initAdjust (s : CalledPool E) : Option (CalledPool E) :=
  match s.manager with
  | some _ => none
  | none => some { s with manager := some ManagerThread.test }

def stopAdjust (s : CalledPool E) : CalledPool E :=
  if s.dispath then { s with dispath := false } else s

def createPool (s : CalledPool E) (n timeout : Int) (wakeup : Nat -> E) :
    Option (CalledPool E) :=
  let s := { s with dispath := true }
  ((s.settnum n).initPool fd mask refused timeout wakeup).initAdjust

def createPoolNoadjust (s : CalledPool E) (n timeout : Int)
    (wakeup : Nat -> E) : CalledPool E :=
  ((s.settnumNoadjust n).initPool fd mask refused timeout wakeup).stopAdjust

/-- `addloop` up to `++t_num`. -/
def emplaceLoop (s : CalledPool E) (wakeup : E) : CalledPool E :=
  { s with
    loadvec := s.loadvec ++ [AdjustedPool.newLoop fd mask refused wakeup] }

def addloop (s : CalledPool E) (wakeup : E) : CalledPool E :=
  { s.emplaceLoop fd mask refused wakeup with tNum := wrap32 (s.tNum + 1) }

/-!
## Indexing loops
-/

/--
The loads that `getminload` and `getmaxidx` read: that of loop 0, and those of
the loops below `t_num`, which is converted to `unsigned int`.
-/
def scanned (s : CalledPool E) : Option (List Int) :=
  let size := max 1 (s.tNum % 2 ^ 32).toNat
  if size <= s.loadvec.length then
    some ((s.loadvec.take size).map Eventloop.load)
  else none

def pick (better : Int -> Int -> Bool) : List Int -> Nat
  | [] => 0
  | first :: rest => Looptpool.pickIdx better first 0 1 rest

def getminload (s : CalledPool E) : Option Nat :=
  s.scanned.map (pick fun cur best => decide (cur < best))

def getmaxidx (s : CalledPool E) : Option Nat :=
  s.scanned.map (pick fun cur best => decide (best < cur))

/-- The pool, and the loop to use; no index stands for the base loop. -/
def evDispatch (s : CalledPool E) : Option (CalledPool E × Option Nat) :=
  if s.tNum = 0 then some (s, none)
  else if s.dispath then s.getminload.map fun idx => (s, some idx)
  else
    let next := (s.next + 1).tmod s.tNum
    if 0 <= next ∧ next < s.loadvec.length then
      some ({ s with next := next }, some next.toNat)
    else none

def dispatchEvent (s : CalledPool E) (ev : E) : Option (CalledPool E) :=
  s.evDispatch.map fun r =>
    match r.snd with
    | none =>
        { r.fst with
          base := r.fst.base.addEvent fd ev (mask ev) (refused ev) }
    | some idx =>
        { r.fst with loadvec := r.fst.loadvec.modify idx fun loop =>
            loop.addEvent fd ev (mask ev) (refused ev) }

def dispatchAll (s : CalledPool E) : List E -> Option (CalledPool E)
  | [] => some s
  | ev :: rest =>
      (s.dispatchEvent fd mask refused ev).bind fun s => dispatchAll s rest

/--
`delloop_dispatch` up to the removal of the loop, and the index of the loop;
`t` is the `t_num` that `getmaxidx` has read.
-/
def emptyLoop (s : CalledPool E) (t : Int) : Option (CalledPool E × Nat) :=
  ({ s with tNum := t }.getmaxidx).bind fun idx =>
    (s.loadvec[idx]?).bind fun ep =>
      let (ep, list) := ep.getallev []
      let s := { s with loadvec := s.loadvec.set idx ep }
      (s.dispatchAll fd mask refused list).map fun s => (s, idx)

/-- `loadvec_[idx] = std::move(loadvec_.back()); loadvec_.pop_back();` -/
def popLoop (s : CalledPool E) (idx : Nat) : CalledPool E :=
  { s with loadvec := Looptpool.removeAt idx s.loadvec }

def delloopDispatch (s : CalledPool E) (t : Int) : Option (CalledPool E) :=
  (s.emptyLoop fd mask refused t).map fun r =>
    { r.fst.popLoop r.snd with tNum := wrap32 (r.fst.tNum - 1) }

/-!
## The manager thread
-/

def getscale (s : CalledPool E) : Int :=
  loadScale (s.loadvec.map Eventloop.load) s.tNum

def scaleMin : Int := 20

def scaleMax : Int := 80

def goto (s : CalledPool E) (m : ManagerThread) : CalledPool E :=
  { s with manager := some m }

/-- The body of the loop in `adjust_task` after the second test. -/
def adjust (s : CalledPool E) (wakeup : E) : CallEnd (CalledPool E) :=
  if s.minTnum < s.tNum ∧ s.tNum < s.maxTnum then
    let scale := s.getscale
    if scale < scaleMin then
      match s.emptyLoop fd mask refused s.tNum with
      | none => CallEnd.outOfBounds
      | some (s, idx) => CallEnd.returns (s.goto (ManagerThread.emptied idx))
    else if scaleMax < scale then
      CallEnd.returns
        ((s.emplaceLoop fd mask refused wakeup).goto ManagerThread.added)
    else CallEnd.returns (s.goto ManagerThread.test)
  else CallEnd.returns (s.goto ManagerThread.test)

/--
A step of the manager.  Between `popped` and the next one the removed loop is
deleted, which joins its thread.
-/
def managerStep (s : CalledPool E) (wakeup : E) :
    Option (CallEnd (CalledPool E)) :=
  match s.manager with
  | none | some ManagerThread.returned => none
  | some ManagerThread.test =>
      some (CallEnd.returns
        (s.goto (if s.dispath then ManagerThread.asleep
          else ManagerThread.returned)))
  | some ManagerThread.asleep =>
      if s.dispath then some (s.adjust fd mask refused wakeup)
      else some (CallEnd.returns (s.goto ManagerThread.returned))
  | some (ManagerThread.emptied idx) =>
      some (CallEnd.returns ((s.popLoop idx).goto ManagerThread.popped))
  | some ManagerThread.popped =>
      some (CallEnd.returns
        ({ s with tNum := wrap32 (s.tNum - 1) }.goto ManagerThread.test))
  | some ManagerThread.added =>
      some (CallEnd.returns
        ({ s with tNum := wrap32 (s.tNum + 1) }.goto ManagerThread.test))

/-!
## Calls
-/

/-- The call, where a dispatch uses the `t_num` that it has read before. -/
def call (s : CalledPool E) (t : Int) : PoolCall E -> CallEnd (CalledPool E)
  | PoolCall.createPool n timeout wakeup =>
      match s.createPool fd mask refused n.toInt timeout wakeup with
      | none => CallEnd.terminated
      | some s => CallEnd.returns s
  | PoolCall.createPoolNoadjust n timeout wakeup =>
      CallEnd.returns
        (s.createPoolNoadjust fd mask refused n.toInt timeout wakeup)
  | PoolCall.addloop wakeup =>
      CallEnd.returns (s.addloop fd mask refused wakeup)
  | PoolCall.delloopDispatch =>
      match s.delloopDispatch fd mask refused t with
      | none => CallEnd.outOfBounds
      | some s => CallEnd.returns s
  | PoolCall.evDispatch =>
      match { s with tNum := t }.evDispatch with
      | none => CallEnd.outOfBounds
      | some r => CallEnd.returns { r.fst with tNum := s.tNum }

def Matched (s : CalledPool E) : Prop :=
  s.tNum = s.loadvec.length

/--
Loops are created in an empty pool and their number is not negative (unless the
process ends, for a manager is there already), a loop is added to a pool that
has fewer than the greatest `int`, and one is deleted from a pool that has one.
-/
def Fits (s : CalledPool E) : PoolCall E -> Prop
  | PoolCall.createPool n _ _ =>
      s.manager ≠ none ∨ 0 <= n.toInt ∧ s.loadvec = []
  | PoolCall.createPoolNoadjust n _ _ => 0 <= n.toInt ∧ s.loadvec = []
  | PoolCall.addloop _ => s.loadvec.length < 2 ^ 31 - 1
  | PoolCall.delloopDispatch => s.loadvec ≠ []
  | PoolCall.evDispatch => True

def Resizing (s : CalledPool E) : Prop :=
  match s.manager with
  | some (ManagerThread.emptied _) | some ManagerThread.popped
  | some ManagerThread.added => True
  | _ => False

/-- The next step of the manager begins to resize the pool. -/
def Resizes (s : CalledPool E) : Prop :=
  s.manager = some ManagerThread.asleep ∧ s.dispath = true ∧
    (s.minTnum < s.tNum ∧ s.tNum < s.maxTnum) ∧
      (s.getscale < scaleMin ∨ scaleMax < s.getscale)

end CalledPool

/-- A pool in use: a call that has begun, with the `t_num` that it has read. -/
structure UsedPool (E : Type u) where
  pool : CalledPool E
  running : Option (PoolCall E × Int)

inductive PoolAction (E : Type u) where
  | begin (a : PoolCall E)
  | finish
  | manager (wakeup : E)
  | work (f : Nat -> Eventloop E -> Eventloop E)

namespace UsedPool

variable {E : Type u} (fd : E -> Int) (mask : E -> Mask) (refused : E -> Bool)

/-- How a step ends; calls are made one after the other. -/
def stepEnd (s : UsedPool E) : PoolAction E -> Option (CallEnd (UsedPool E))
  | PoolAction.begin a =>
      match s.running with
      | some _ => none
      | none => some (CallEnd.returns { s with running := some (a, s.pool.tNum) })
  | PoolAction.finish =>
      s.running.map fun r =>
        match s.pool.call fd mask refused r.snd r.fst with
        | CallEnd.returns pool =>
            CallEnd.returns { pool := pool, running := none }
        | CallEnd.terminated => CallEnd.terminated
        | CallEnd.outOfBounds => CallEnd.outOfBounds
  | PoolAction.manager wakeup =>
      (s.pool.managerStep fd mask refused wakeup).map fun r =>
        match r with
        | CallEnd.returns pool => CallEnd.returns { s with pool := pool }
        | CallEnd.terminated => CallEnd.terminated
        | CallEnd.outOfBounds => CallEnd.outOfBounds
  | PoolAction.work f =>
      some (CallEnd.returns
        { s with pool := { s.pool with loadvec := s.pool.loadvec.mapIdx f } })

def step (s : UsedPool E) (a : PoolAction E) : Option (UsedPool E) :=
  match s.stepEnd fd mask refused a with
  | some (CallEnd.returns s) => some s
  | _ => none

/--
A call that ends, and the manager, use indices of `loadvec_` only, and `t_num`
counts the loops when the call returns.
-/
def CountsLoops (s : UsedPool E) (a : PoolAction E) : Prop :=
  match s.stepEnd fd mask refused a with
  | some (CallEnd.returns s') => a = PoolAction.finish -> s'.pool.Matched
  | some CallEnd.outOfBounds => False
  | some CallEnd.terminated | none => True

/-- The call that ends is one that `Fits` allows. -/
def Fits (s : UsedPool E) : PoolAction E -> Prop
  | PoolAction.finish =>
      match s.running with
      | some (a, _) => s.pool.Fits a
      | none => True
  | _ => True

/-- No call overlaps a resizing by the manager. -/
def Apart (s : UsedPool E) : PoolAction E -> Prop
  | PoolAction.begin _ => ¬ s.pool.Resizing
  | PoolAction.manager _ => s.running ≠ none -> ¬ s.pool.Resizes
  | _ => True

def new (base : Eventloop E) (dispath : Bool) : UsedPool E where
  pool := CalledPool.new base dispath
  running := none

end UsedPool

end MoonNet
