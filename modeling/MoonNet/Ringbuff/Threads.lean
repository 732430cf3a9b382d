import MoonNet.Foundation.Runs
import MoonNet.Ringbuff.Model

/-!
# A producer and a consumer thread

One thread calls `push` and `push_move`, another one `pop`, `pop_move` and the
draining operations.  Each atomic load, each atomic store and each access to a
cell is one step, and the steps of the two threads interleave in any order.
What a call has loaded into local variables is part of its program counter.
-/

namespace MoonNet

open Foundation

universe u

namespace Ringbuff

inductive Producer (T : Type u) where
  | idle
  | loadHead (item : T)
  | loadTail (item : T) (head : Nat)
  | write (item : T) (head nhead : Nat)
  | storeHead (item : T) (nhead : Nat)
  | returned (ok : Bool)
deriving DecidableEq, Repr

/--
The consumer.  `move` tells `pop_move` from `pop`; `copyLoop` is a drain at cell
`i` of the loop that ends at `limit`, with the second loop still to run if
`wraps`.
-/
inductive Consumer (T : Type u) where
  | idle
  | popLoadTail (move : Bool)
  | popLoadHead (move : Bool) (tail : Nat)
  | popRead (move : Bool) (tail : Nat)
  | popStoreTail (item : T) (tail : Nat)
  | popped (result : Option T)
  | drainLoadHead
  | drainLoadTail (head : Nat)
  | copyLoop (i limit : Nat) (wraps : Bool) (head : Nat)
  | drained
deriving DecidableEq, Repr

/--
The shared ring buffer and both threads.  Three history variables follow the
items: `published` grows with each store to `head_`, `obtained` with each cell
the consumer reads, and `copied` counts the cells that the consumer operation in
progress has read.
-/
structure Spsc (T : Type u) where
  ring : Ringbuff T
  producer : Producer T
  consumer : Consumer T
  published : List T
  obtained : List T
  copied : Nat

namespace Spsc

variable {T : Type u}

def start (cell : Nat -> T) (size : Nat) : Spsc T where
  ring := new cell size
  producer := Producer.idle
  consumer := Consumer.idle
  published := []
  obtained := []
  copied := 0

/--
`push` and `push_move` make the same accesses and differ only in the caller's
item, which is local to the producer; the same holds for the four overloads of
`swap_to_list` and `swap_to_vector`.
-/
inductive Action (T : Type u) where
  | push (item : T)
  | pushMove (item : T)
  | pop
  | popMove
  | swapToList
  | swapToVector
  | produce
  | consume
deriving DecidableEq, Repr

def callPush (s : Spsc T) (item : T) : Option (Spsc T) :=
  match s.producer with
  | Producer.idle | Producer.returned _ =>
      some { s with producer := Producer.loadHead item }
  | _ => none

def callConsumer (s : Spsc T) (entry : Consumer T) : Option (Spsc T) :=
  match s.consumer with
  | Consumer.idle | Consumer.popped _ | Consumer.drained =>
      some { s with consumer := entry }
  | _ => none

def produce (s : Spsc T) : Option (Spsc T) :=
  match s.producer with
  | Producer.idle | Producer.returned _ => none
  | Producer.loadHead item =>
      some { s with producer := Producer.loadTail item s.ring.head }
  | Producer.loadTail item head =>
      let nhead := next s.ring.capacity head
      if nhead = s.ring.tail then
        some { s with producer := Producer.returned false }
      else some { s with producer := Producer.write item head nhead }
  | Producer.write item head nhead =>
      (s.ring.buffer.write head item).map fun buffer =>
        { s with
          ring := { s.ring with buffer := buffer }
          producer := Producer.storeHead item nhead }
  | Producer.storeHead item nhead =>
      some { s with
        ring := { s.ring with head := nhead }
        producer := Producer.returned true
        published := s.published ++ [item] }

/-- Read cell `i`, leave `left x` in it and go on to `after x`. -/
def obtain (left : T -> T) (s : Spsc T) (i : Nat) (after : T -> Consumer T) :
    Option (Spsc T) :=
  (s.ring.buffer.take left i).map fun p =>
    { s with
      ring := { s.ring with buffer := p.fst }
      consumer := after p.snd
      obtained := s.obtained ++ [p.snd]
      copied := s.copied + 1 }

/-- Store `tail` to `tail_` and return. -/
def release (s : Spsc T) (tail : Nat) (after : Consumer T) : Spsc T :=
  { s with
    ring := { s.ring with tail := tail }
    consumer := after
    copied := 0 }

def consume (moved : T -> T) (s : Spsc T) : Option (Spsc T) :=
  match s.consumer with
  | Consumer.idle | Consumer.popped _ | Consumer.drained => none
  | Consumer.popLoadTail move =>
      some { s with consumer := Consumer.popLoadHead move s.ring.tail }
  | Consumer.popLoadHead move tail =>
      if tail = s.ring.head then
        some { s with consumer := Consumer.popped none }
      else some { s with consumer := Consumer.popRead move tail }
  | Consumer.popRead move tail =>
      s.obtain (if move then moved else id) tail
        fun x => Consumer.popStoreTail x tail
  | Consumer.popStoreTail item tail =>
      some (s.release (next s.ring.capacity tail)
        (Consumer.popped (some item)))
  | Consumer.drainLoadHead =>
      some { s with consumer := Consumer.drainLoadTail s.ring.head }
  | Consumer.drainLoadTail head =>
      let tail := s.ring.tail
      if tail = head then some { s with consumer := Consumer.drained }
      else if tail < head then
        some { s with consumer := Consumer.copyLoop tail head false head }
      else
        some { s with
          consumer := Consumer.copyLoop tail s.ring.capacity true head }
  | Consumer.copyLoop i limit wraps head =>
      if i < limit then
        s.obtain moved i fun _ => Consumer.copyLoop (i + 1) limit wraps head
      else if wraps then
        some { s with consumer := Consumer.copyLoop 0 head false head }
      else some (s.release head Consumer.drained)

def step (moved : T -> T) (s : Spsc T) : Action T -> Option (Spsc T)
  | Action.push item => s.callPush item
  | Action.pushMove item => s.callPush item
  | Action.pop => s.callConsumer (Consumer.popLoadTail false)
  | Action.popMove => s.callConsumer (Consumer.popLoadTail true)
  | Action.swapToList => s.callConsumer Consumer.drainLoadHead
  | Action.swapToVector => s.callConsumer Consumer.drainLoadHead
  | Action.produce => s.produce
  | Action.consume => s.consume moved

/-- The cells the consumer operation in progress is about to read. -/
def toRead (s : Spsc T) : List Nat :=
  match s.consumer with
  | Consumer.popRead _ tail => [tail]
  | Consumer.copyLoop i limit wraps head =>
      List.range' i (limit - i) ++ if wraps then List.range head else []
  | _ => []

end Spsc

end Ringbuff

end MoonNet
