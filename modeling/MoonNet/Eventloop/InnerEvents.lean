import MoonNet.Eventloop.Model

/-!
# Who deletes the inner events

An object of kind `bfevent`, `udpevent`, `timerevent` or `signalevent` owns an
inner event and adds it to the `evlist_` of its loop while it listens.  The
destructor of the object deletes the inner event, and the destructor of the loop
deletes every event that is still in `evlist_`.

Objects come from a type `O` and inner events from a type `E`, where an inner
event stands for one result of `new event`, so none is named twice.  A
`udpevent` that was constructed for port -1 has no inner event.
-/

namespace MoonNet

open Foundation

universe u v

namespace InnerEvents

inductive Kind where
  | bfevent
  | udpevent (port : Int)
  | timerevent
  | signalevent
deriving DecidableEq, Repr

/-- An object with its `ev_`, and `closed_` or `started_` where it has one. -/
inductive Wrapper (E : Type u) where
  | bfevent (ev : E) (closed : Bool)
  | udpevent (ev : Option E) (started : Bool)
  | timerevent (ev : E)
  | signalevent (ev : E)
deriving DecidableEq, Repr

namespace Wrapper

variable {E : Type u}

def inner : Wrapper E -> Option E
  | bfevent ev _ | timerevent ev | signalevent ev => some ev
  | udpevent ev _ => ev

/-- The destructor takes the inner event out of `evlist_`. -/
def deregisters : Wrapper E -> Prop
  | bfevent _ _ => True
  | _ => False

instance (w : Wrapper E) : Decidable w.deregisters :=
  match w with
  | bfevent _ _ => inferInstanceAs (Decidable True)
  | udpevent _ _ => inferInstanceAs (Decidable False)
  | timerevent _ => inferInstanceAs (Decidable False)
  | signalevent _ => inferInstanceAs (Decidable False)

end Wrapper

end InnerEvents

/--
`object` has a value for the objects that have not been destroyed.  Two
histories are kept: `constructed` and `deleted` list the inner events that were
constructed and deleted; `wakeup` is the event of the loop itself.
-/
structure InnerEvents (O : Type v) (E : Type u) where
  loop : Option (Eventloop E)
  object : O -> Option (InnerEvents.Wrapper E)
  delque : List O
  wakeup : E
  constructed : List E
  deleted : List E

namespace InnerEvents

variable {O : Type v} {E : Type u} [DecidableEq O] [DecidableEq E]
variable (fd : E -> Int) (mask : E -> Mask) (refused : E -> Bool)

/-- `event::enable_listen`; the kernel may refuse the registration. -/
def addEvent (l : Eventloop E) (ev : E) : Eventloop E :=
  l.addEvent fd ev (mask ev) (refused ev)

def delEvent (l : Eventloop E) (ev : E) : Eventloop E :=
  l.delEvent fd ev (refused ev)

/-- `create_eventfd` adds the wake-up event. -/
def start (wakeup : E) : InnerEvents O E where
  loop := some (addEvent fd mask refused (Eventloop.new (fd wakeup)) wakeup)
  object := fun _ => none
  delque := []
  wakeup := wakeup
  constructed := [wakeup]
  deleted := []

namespace Wrapper

/-- The constructors; that of `bfevent` calls `enable_listen` of `ev_`. -/
def new (l : Eventloop E) (kind : Kind) (ev : E) : Wrapper E × Eventloop E :=
  match kind with
  | Kind.bfevent => (bfevent ev false, addEvent fd mask refused l ev)
  | Kind.udpevent port =>
      (udpevent (if port = -1 then none else some ev) false, l)
  | Kind.timerevent => (timerevent ev, l)
  | Kind.signalevent => (signalevent ev, l)

def enableListen (l : Eventloop E) (w : Wrapper E) :
    Wrapper E × Eventloop E :=
  match w with
  | bfevent ev closed =>
      if closed then (bfevent ev false, addEvent fd mask refused l ev)
      else (w, l)
  | udpevent ev started =>
      if started then (w, l)
      else
        (udpevent ev true,
          match ev with
          | none => l
          | some ev => addEvent fd mask refused l ev)
  | timerevent ev | signalevent ev => (w, addEvent fd mask refused l ev)

/-- What `bfevent` does with its buffers does not concern `evlist_`. -/
def delListen (l : Eventloop E) (w : Wrapper E) : Wrapper E × Eventloop E :=
  match w with
  | bfevent ev _ => (bfevent ev true, delEvent fd refused l ev)
  | udpevent ev started =>
      if started then
        (udpevent ev false,
          match ev with
          | none => l
          | some ev => delEvent fd refused l ev)
      else (w, l)
  | timerevent ev | signalevent ev => (w, delEvent fd refused l ev)

/-- `close` is `close_event` for a `bfevent` and `del_listen` for the others. -/
def close (l : Eventloop E) (w : Wrapper E) : Wrapper E × Eventloop E :=
  match w with
  | bfevent ev closed =>
      if closed then (w, l) else delListen fd refused l (bfevent ev closed)
  | _ => delListen fd refused l w

/-- What the destructor does before it deletes `ev_`. -/
def destructor (l : Eventloop E) (w : Wrapper E) : Eventloop E :=
  match w with
  | bfevent ev closed => (close fd refused l (bfevent ev closed)).snd
  | _ => l

end Wrapper

inductive Action (O : Type v) (E : Type u) where
  | construct (o : O) (kind : Kind) (ev : E)
  | enableListen (o : O)
  | delListen (o : O)
  | close (o : O)
  | receiveError (o : O)
  | endBatch
  | destroy (o : O)
  | destroyLoop
deriving DecidableEq, Repr

variable (s : InnerEvents O E)

/-- `delete o`; once the loop is gone its list is not there to be used. -/
def destroyObject (s : InnerEvents O E) (o : O) : InnerEvents O E :=
  match s.object o with
  | none => s
  | some w =>
      { s with
        loop := s.loop.map fun l => w.destructor fd refused l
        object := Function.update s.object o none
        deleted := s.deleted ++ w.inner.toList }

def construct (o : O) (kind : Kind) (ev : E) : Option (InnerEvents O E) :=
  match s.loop, s.object o with
  | some l, none =>
      if ev ∈ s.constructed then none
      else
        let (w, l) := Wrapper.new fd mask refused l kind ev
        some { s with
          loop := some l
          object := Function.update s.object o (some w)
          constructed := s.constructed ++ w.inner.toList }
  | _, _ => none

def call (o : O)
    (f : Eventloop E -> Wrapper E -> Wrapper E × Eventloop E) :
    Option (InnerEvents O E) :=
  match s.loop, s.object o with
  | some l, some w =>
      let (w, l) := f l w
      some { s with
        loop := some l
        object := Function.update s.object o (some w) }
  | _, _ => none

/--
`recvfrom` fails in `handle_receive`, and the event callback that a server has
set calls `handle_close`, which clears this callback and queues the object.
-/
def receiveError (o : O) : Option (InnerEvents O E) :=
  match s.loop, s.object o with
  | some _, some (Wrapper.udpevent (some _) _) =>
      if o ∈ s.delque then none
      else some { s with delque := s.delque ++ [o] }
  | _, _ => none

/-- `for (auto ev : delque_) delete ev; delque_.clear();` -/
def deleteQueued (s : InnerEvents O E) : InnerEvents O E :=
  s.delque.foldl (destroyObject fd refused) { s with delque := [] }

/-- `~eventloop`: first `evlist_` is deleted, then `delque_`. -/
def destroyLoop : Option (InnerEvents O E) :=
  match s.loop with
  | none => none
  | some l =>
      some (deleteQueued fd refused { s with
        loop := none
        deleted := s.deleted ++ l.evlist })

/-- A queued object belongs to the loop and is destroyed by it. -/
def step : Action O E -> Option (InnerEvents O E)
  | Action.construct o kind ev => s.construct fd mask refused o kind ev
  | Action.enableListen o => s.call o (Wrapper.enableListen fd mask refused)
  | Action.delListen o => s.call o (Wrapper.delListen fd refused)
  | Action.close o => s.call o (Wrapper.close fd refused)
  | Action.receiveError o => s.receiveError o
  | Action.endBatch =>
      match s.loop with
      | none => none
      | some _ => some (deleteQueued fd refused s)
  | Action.destroy o =>
      if (s.object o).isNone ∨ o ∈ s.delque then none
      else some (destroyObject fd refused s o)
  | Action.destroyLoop => s.destroyLoop fd refused

/-!
## Conditions
-/

def evlist : List E :=
  match s.loop with
  | none => []
  | some l => l.evlist

def Finished : Prop :=
  s.loop = none ∧ forall o, s.object o = none

/--
No inner event in `evlist_` has been deleted, none has been deleted twice, and
in the end each one that was constructed has been deleted.
-/
structure SingleOwner : Prop where
  listed : forall ev, ev ∈ s.evlist -> ev ∉ s.deleted
  once : s.deleted.Nodup
  complete : s.Finished -> s.deleted.Perm s.constructed

/--
The inner event of the object is not in `evlist_`, unless its destructor takes
it out, and the destructor of the loop has not deleted it.
-/
def Releasable (o : O) : Prop :=
  match s.object o with
  | none => True
  | some w =>
      forall ev, w.inner = some ev ->
        ev ∉ s.deleted ∧ (w.deregisters ∨ ev ∉ s.evlist)

/--
An object that the user or the loop destroys is releasable; and when the loop is
destroyed, `evlist_` lists nothing twice and nothing that a queued object owns.
-/
def Releases : Action O E -> Prop
  | Action.destroy o => s.Releasable o
  | Action.endBatch => forall o, o ∈ s.delque -> s.Releasable o
  | Action.destroyLoop =>
      s.evlist.Nodup ∧ forall o, o ∈ s.delque ->
        forall w ev, s.object o = some w -> w.inner = some ev ->
          ev ∉ s.evlist
  | _ => True

end InnerEvents

end MoonNet
