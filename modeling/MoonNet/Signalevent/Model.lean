import Mathlib.Logic.Function.Basic
import MoonNet.Foundation.Runs

/-!
# Signal events

The handler of a signal runs outside of every object.  It finds the object to
tell through the static pointer `sigev_`, which each constructor sets and each
destructor clears, and writes the signal number to the pipe of that object;
`handle_read` reads the pipe and calls the callback.  A pipe has room for every
byte, and `pipe` does not fail.
-/

namespace MoonNet

open Foundation

universe u

/--
The `signalevent` objects and the disposition of each signal.  Objects are named
by their construction.  Histories: `registered` lists the calls of `add_signal`,
the newest first, `arrivals` the signals that arrived and whose they were, and
`reported` what the callback of each object was called with.
-/
structure Signals (O : Type u) where
  sigev : Option O
  created : O -> Bool
  live : O -> Bool
  pipe : O -> List Nat
  cb : O -> Bool
  handled : Int -> Bool
  registered : List (Int × O)
  arrivals : List (Int × Option O)
  reported : O -> List Int

namespace Signals

variable {O : Type u} [DecidableEq O]

def start : Signals O where
  sigev := none
  created := fun _ => false
  live := fun _ => false
  pipe := fun _ => []
  cb := fun _ => false
  handled := fun _ => false
  registered := []
  arrivals := []
  reported := fun _ => []

/-- The live object on which `add_signal(signo)` was called last. -/
def owner (s : Signals O) (signo : Int) : Option O :=
  (s.registered.find? fun r => r.fst == signo && s.live r.snd).map Prod.snd

def construct (s : Signals O) (o : O) : Option (Signals O) :=
  if s.created o then none
  else
    some { s with
      sigev := some o
      created := Function.update s.created o true
      live := Function.update s.live o true
      pipe := Function.update s.pipe o [] }

/-- The destructor closes the pipe. -/
def destroy (s : Signals O) (o : O) : Option (Signals O) :=
  if s.live o then
    some { s with
      sigev := none
      live := Function.update s.live o false
      pipe := Function.update s.pipe o [] }
  else none

/--
`sigaction` tells for which signals a handler can be set; the process exits if
the handler cannot be set.
-/
def addSignal (sigaction : Int -> Bool) (s : Signals O) (o : O) (signo : Int) :
    Option (Signals O) :=
  if s.live o ∧ sigaction signo then
    some { s with
      handled := Function.update s.handled signo true
      registered := (signo, o) :: s.registered }
  else none

def addSignals (sigaction : Int -> Bool) (o : O) :
    Signals O -> List Int -> Option (Signals O)
  | s, [] => some s
  | s, sig :: signals =>
      (s.addSignal sigaction o sig).bind fun s =>
        addSignals sigaction o s signals

def setcb (s : Signals O) (o : O) (cb : Bool) : Option (Signals O) :=
  if s.live o then some { s with cb := Function.update s.cb o cb } else none

/-- `static_cast<uint8_t>` -/
def castUint8 (signo : Int) : Nat :=
  (signo % 256).toNat

def handleSignal (s : Signals O) (signo : Int) : Signals O :=
  match s.sigev with
  | none => s
  | some o =>
      { s with
        pipe := Function.update s.pipe o (s.pipe o ++ [castUint8 signo]) }

/--
A signal arrives.  Without a handler it has its default action, in which the
objects have no part.
-/
def arrive (s : Signals O) (signo : Int) : Signals O :=
  if s.handled signo then
    { s.handleSignal signo with
      arrivals := s.arrivals ++ [(signo, s.owner signo)] }
  else s

/-- `sizeof(signals)` in `handle_read` -/
def READ_SIZE : Nat := 1024

def handleRead (s : Signals O) (o : O) : Option (Signals O) :=
  if s.live o then
    let signals := (s.pipe o).take READ_SIZE
    some { s with
      pipe := Function.update s.pipe o ((s.pipe o).drop READ_SIZE)
      reported :=
        if s.cb o then
          Function.update s.reported o
            (s.reported o ++ signals.map Int.ofNat)
        else s.reported }
  else none

inductive Action (O : Type u) where
  | construct (o : O)
  | destroy (o : O)
  | addSignal (o : O) (signo : Int)
  | addSignals (o : O) (signals : List Int)
  | setcb (o : O)
  | disableCb (o : O)
  | arrive (signo : Int)
  | handleRead (o : O)
deriving DecidableEq, Repr

def step (sigaction : Int -> Bool) (s : Signals O) :
    Action O -> Option (Signals O)
  | Action.construct o => s.construct o
  | Action.destroy o => s.destroy o
  | Action.addSignal o signo => s.addSignal sigaction o signo
  | Action.addSignals o signals => addSignals sigaction o s signals
  | Action.setcb o => s.setcb o true
  | Action.disableCb o => s.setcb o false
  | Action.arrive signo => some (s.arrive signo)
  | Action.handleRead o => s.handleRead o

def addSev (o : O) (signo : Int) : List (Action O) :=
  [Action.construct o, Action.addSignal o signo, Action.setcb o]

/-!
## Routing
-/

def owned (s : Signals O) (o : O) : List Int :=
  (s.arrivals.filter fun a => a.snd == some o).map Prod.fst

/--
Every object has reported the signals that were its own and no others, each
once, in the order of their arrival, except those still in its pipe.
-/
def Routed (s : Signals O) : Prop :=
  forall o, s.reported o ++ (s.pipe o).map Int.ofNat = s.owned o

/--
When a signal with a handler arrives, `sigev_` is its owner; an object is
destroyed with an empty pipe; and an object reads a pipe that is not empty only
if it has a callback.
-/
def Undisturbed (s : Signals O) : Action O -> Prop
  | Action.arrive signo => s.handled signo = true -> s.sigev = s.owner signo
  | Action.destroy o => s.pipe o = []
  | Action.handleRead o => s.cb o = true ∨ s.pipe o = []
  | _ => True

end Signals

end MoonNet
