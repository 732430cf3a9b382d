import Mathlib.Logic.Function.Basic
import MoonNet.Event.Model
import MoonNet.Foundation.Runs

/-!
# Registration with an event loop

An event loop keeps the events added to it in `evlist_`, counts them in
`load_`, and registers their descriptors with its epoll instance.  An event is a
pointer, so events are taken from any type with decidable equality, and `fd`
gives the descriptor of each one, which never changes.

The kernel holds at most one registration per descriptor.  `EPOLL_CTL_ADD`
fails for a registered descriptor, `EPOLL_CTL_DEL` and `EPOLL_CTL_MOD` fail for
one that is not registered, and `refused` says that a call fails for another
reason, such as a lack of memory.  `load_` is an `int`; it stays in range as
long as it counts descriptors.
-/

namespace MoonNet

open Foundation

universe u

/-- The `epoll_event` stored for a descriptor. -/
structure Registration (E : Type u) where
  event : E
  events : Mask
deriving DecidableEq, Repr

abbrev Epoll (E : Type u) :=
  Int -> Option (Registration E)

namespace Epoll

variable {E : Type u}

/-- `EPOLL_CTL_ADD`; no result is a return value of -1. -/
def add (k : Epoll E) (fd : Int) (r : Registration E) (refused : Bool) :
    Option (Epoll E) :=
  if (k fd).isSome || refused then none
  else some (Function.update k fd (some r))

def del (k : Epoll E) (fd : Int) (refused : Bool) : Option (Epoll E) :=
  if (k fd).isNone || refused then none
  else some (Function.update k fd none)

def mod (k : Epoll E) (fd : Int) (r : Registration E) (refused : Bool) :
    Option (Epoll E) :=
  if (k fd).isNone || refused then none
  else some (Function.update k fd (some r))

end Epoll

structure Eventloop (E : Type u) where
  eventfd : Int
  epoll : Epoll E
  load : Int
  evlist : List E

namespace Eventloop

variable {E : Type u} [DecidableEq E] (fd : E -> Int)

/--
A loop on which nothing has been called.  The constructor goes on to add the
event of its own wake-up descriptor `eventfd_` with `add_event`.
-/
def new (eventfd : Int) : Eventloop E where
  eventfd := eventfd
  epoll := fun _ => none
  load := 0
  evlist := []

/--
`load_` counts descriptors, which are numbered by an `int`, so that it does not
wrap; `addEventInt` is `add_event` on a loop whose `load_` has any value.
-/
def updateload (s : Eventloop E) (n : Int) : Eventloop E :=
  { s with load := s.load + n }

/-- A failed `epoll_ctl` is reported with `perror`; the rest is done anyway. -/
def ctl (s : Eventloop E) (result : Option (Epoll E)) : Eventloop E :=
  match result with
  | none => s
  | some epoll => { s with epoll := epoll }

def addEvent (s : Eventloop E) (event : E) (events : Mask) (refused : Bool) :
    Eventloop E :=
  let s := s.ctl (s.epoll.add (fd event) { event := event, events := events }
    refused)
  let s := s.updateload 1
  { s with evlist := s.evlist ++ [event] }

/-- `std::list::remove` removes every equal element. -/
def delEvent (s : Eventloop E) (event : E) (refused : Bool) : Eventloop E :=
  let s := s.ctl (s.epoll.del (fd event) refused)
  let s := s.updateload (-1)
  { s with evlist := s.evlist.filter fun e => e != event }

def modEvent (s : Eventloop E) (event : E) (events : Mask) (refused : Bool) :
    Eventloop E :=
  s.ctl (s.epoll.mod (fd event) { event := event, events := events } refused)

omit [DecidableEq E] in
theorem addEvent_evlist (s : Eventloop E) (event : E) (events : Mask)
    (refused : Bool) :
    (s.addEvent fd event events refused).evlist = s.evlist ++ [event] := by
  unfold addEvent ctl
  split <;> rfl

omit [DecidableEq E] in
theorem addEvent_load (s : Eventloop E) (event : E) (events : Mask)
    (refused : Bool) :
    (s.addEvent fd event events refused).load = s.load + 1 := by
  unfold addEvent ctl
  split <;> rfl

theorem delEvent_evlist (s : Eventloop E) (event : E) (refused : Bool) :
    (s.delEvent fd event refused).evlist =
      s.evlist.filter fun e => e != event := by
  unfold delEvent ctl
  split <;> rfl

/-- `list.swap(evlist_)` -/
def getallev (s : Eventloop E) (list : List E) : Eventloop E × List E :=
  ({ s with evlist := list }, s.evlist)

inductive Action (E : Type u) where
  | addEvent (event : E) (events : Mask) (refused : Bool)
  | delEvent (event : E) (refused : Bool)
  | modEvent (event : E) (events : Mask) (refused : Bool)
  | getallev (list : List E)
deriving DecidableEq, Repr

def apply (s : Eventloop E) : Action E -> Eventloop E
  | Action.addEvent event events refused =>
      s.addEvent fd event events refused
  | Action.delEvent event refused => s.delEvent fd event refused
  | Action.modEvent event events refused =>
      s.modEvent fd event events refused
  | Action.getallev list => (s.getallev list).fst

def step (s : Eventloop E) (a : Action E) : Option (Eventloop E) :=
  some (s.apply fd a)

def Registered (s : Eventloop E) (event : E) : Prop :=
  exists fd r, s.epoll fd = some r ∧ r.event = event

/-- The three views of the registered events agree. -/
structure Consistent (s : Eventloop E) : Prop where
  load_eq : s.load = s.evlist.length
  nodup : s.evlist.Nodup
  mem_iff : forall event, event ∈ s.evlist <-> s.Registered event

/-- If this call is an `EPOLL_CTL_ADD` that fails, it has no effect. -/
def FailedAddUnchanged (s : Eventloop E) : Action E -> Prop
  | Action.addEvent event events refused =>
      s.epoll.add (fd event) { event := event, events := events } refused =
          none ->
        (s.addEvent fd event events refused).load = s.load ∧
          (s.addEvent fd event events refused).evlist = s.evlist
  | _ => True

/--
An event is added only while its descriptor is free, and deleted only while it
is registered, and the kernel does not refuse the call; a modification that is
not refused does not name a descriptor registered for another event; and
`getallev` is passed a rearrangement of `evlist_`.
-/
def Keeps (s : Eventloop E) : Action E -> Prop
  | Action.addEvent event _ refused =>
      s.epoll (fd event) = none ∧ refused = false
  | Action.delEvent event refused => s.Registered event ∧ refused = false
  | Action.modEvent event _ refused =>
      refused = false ->
        forall r, s.epoll (fd event) = some r -> r.event = event
  | Action.getallev list => list.Perm s.evlist

end Eventloop

end MoonNet
