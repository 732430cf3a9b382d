import MoonNet.Eventloop.Model

/-!
# The loop pool

The pool keeps its loops in `loadvec_` and dispatches events to them, to the one
with the least load if dynamic dispatch is on, and in turns otherwise.  `t_num`
counts the loops.  Whether `epoll_ctl` refuses a registration is up to the
kernel; `mask` and `refused` say, for each event, what is registered for it and
whether the kernel refuses it.
-/

namespace MoonNet

open Foundation

universe u

structure Looptpool (E : Type u) where
  base : Eventloop E
  loadvec : List (Eventloop E)
  tNum : Nat
  next : Nat
  dispath : Bool

namespace Looptpool

variable {E : Type u} (fd : E -> Int) (mask : E -> Mask) (refused : E -> Bool)

/--
The loop `for (int i = 1; i < size; ++i)` of `getminload` and `getmaxidx`:
`best` is the load of loop `idx`, the best one before loop `i`.
-/
def pickIdx (better : Int -> Int -> Bool) (best : Int) (idx i : Nat) :
    List Int -> Nat
  | [] => idx
  | cur :: rest =>
      if better cur best then pickIdx better cur i (i + 1) rest
      else pickIdx better best idx (i + 1) rest

def loads (p : Looptpool E) : List Int :=
  p.loadvec.map Eventloop.load

/-- The index of the loop that `getminload` returns. -/
def getminload (p : Looptpool E) : Nat :=
  match p.loads with
  | [] => 0
  | first :: rest => pickIdx (fun cur best => decide (cur < best)) first 0 1 rest

def getmaxidx (p : Looptpool E) : Nat :=
  match p.loads with
  | [] => 0
  | first :: rest => pickIdx (fun cur best => decide (best < cur)) first 0 1 rest

/-- The loop to use next; no index stands for the base loop. -/
def evDispatch (p : Looptpool E) : Looptpool E × Option Nat :=
  if p.tNum = 0 then (p, none)
  else if p.dispath then (p, some p.getminload)
  else
    let next := (p.next + 1) % p.tNum
    ({ p with next := next }, some next)

def dispatchEvent (p : Looptpool E) (ev : E) : Looptpool E :=
  match p.evDispatch with
  | (p, none) =>
      { p with base := p.base.addEvent fd ev (mask ev) (refused ev) }
  | (p, some idx) =>
      { p with loadvec := p.loadvec.modify idx fun loop =>
          loop.addEvent fd ev (mask ev) (refused ev) }

/-- `loadvec_[idx] = std::move(loadvec_.back()); loadvec_.pop_back();` -/
def removeAt {α : Type u} (idx : Nat) (xs : List α) : List α :=
  match xs.getLast? with
  | none => xs
  | some back => (xs.set idx back).dropLast

def place (n idx i : Nat) : Nat :=
  if i + 1 = n then idx else i

/--
`delloop_dispatch`, with the events that are destroyed together with the
removed loop: its destructor deletes every event of its `evlist_`.  The thread
of that loop is joined first and has flushed `delque_` by then.
-/
def delloopDispatch (p : Looptpool E) : Looptpool E × List E :=
  let idx := p.getmaxidx
  match p.loadvec[idx]? with
  | none => (p, [])
  | some ep =>
      let (ep, list) := ep.getallev []
      let p := { p with loadvec := p.loadvec.set idx ep }
      let p := list.foldl (dispatchEvent fd mask refused) p
      let destroyed :=
        match p.loadvec[idx]? with
        | none => []
        | some ep => ep.evlist
      ({ p with
          loadvec := removeAt idx p.loadvec
          tNum := p.tNum - 1 }, destroyed)

/-!
## What removing a loop is for
-/

def listed (p : Looptpool E) : List E :=
  p.loadvec.flatMap Eventloop.evlist

/--
A pool in dynamic dispatch: `t_num` counts the loops, there is one, `load_`
counts the events of each loop, and no event is listed twice.
-/
structure Dispatching (p : Looptpool E) : Prop where
  dispath_eq : p.dispath = true
  tNum_eq : p.tNum = p.loadvec.length
  nonempty : 0 < p.loadvec.length
  load_eq : forall loop, loop ∈ p.loadvec -> loop.load = loop.evlist.length
  nodup : p.listed.Nodup

/-- The event of the loop's own wake-up descriptor. -/
def IsWakeup (loop : Eventloop E) (ev : E) : Prop :=
  fd ev = loop.eventfd

/--
The events of the removed loop `victim`, its wake-up event apart, are listed
once among the remaining loops and are not destroyed, no remaining loop lists
the wake-up event, and each remaining loop keeps its events.
-/
structure Conserves [DecidableEq E] (p : Looptpool E) (idx : Nat)
    (victim : Eventloop E) (result : Looptpool E × List E) : Prop where
  moved : forall ev, ev ∈ victim.evlist -> ¬ IsWakeup fd victim ev ->
    result.fst.listed.count ev = 1
  wakeup : forall ev, ev ∈ victim.evlist -> IsWakeup fd victim ev ->
    ev ∉ result.fst.listed
  kept : forall i loop, p.loadvec[i]? = some loop -> i ≠ idx ->
    exists loop',
      result.fst.loadvec[place p.loadvec.length idx i]? = some loop' ∧
        loop.evlist <+: loop'.evlist
  destroyed : forall ev, ev ∈ result.snd -> IsWakeup fd victim ev

end Looptpool

end MoonNet
