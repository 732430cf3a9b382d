import MoonNet.Foundation.Circular
import MoonNet.Foundation.Sole
import MoonNet.Ringbuff.Threads

/-!
# A ring buffer shared by any number of threads

Any number of threads call `push` and `push_move`, and any number call `pop`,
`pop_move` and the draining operations.  Each thread executes the accesses of
`Ringbuff.Spsc`, and the accesses of all threads interleave in any order.
-/

namespace MoonNet

open Foundation

universe u v

namespace Ringbuff

/--
The shared ring buffer and the program counters of the threads.  Histories:
`accepted` lists the items of the pushes that returned true and `popped` those
of the pops that did; `obtained` lists what was read from a cell and by whom,
and `copied` counts the cells read since the last store to `tail_`.
-/
structure Shared (ι : Type v) (T : Type u) where
  ring : Ringbuff T
  producer : ι -> Producer T
  consumer : ι -> Consumer T
  accepted : List T
  popped : List T
  obtained : List (ι × T)
  copied : Nat

namespace Shared

variable {ι : Type v} {T : Type u} [DecidableEq ι]

def start (cell : Nat -> T) (size : Nat) : Shared ι T where
  ring := new cell size
  producer := fun _ => Producer.idle
  consumer := fun _ => Consumer.idle
  accepted := []
  popped := []
  obtained := []
  copied := 0

def view (s : Shared ι T) (p : Producer T) (c : Consumer T) : Spsc T where
  ring := s.ring
  producer := p
  consumer := c
  published := s.accepted
  obtained := s.obtained.map Prod.snd
  copied := s.copied

def focus (s : Shared ι T) (i : ι) : Spsc T :=
  s.view (s.producer i) (s.consumer i)

def unfocus (s : Shared ι T) (i : ι) (q : Spsc T) : Shared ι T where
  ring := q.ring
  producer := Function.update s.producer i q.producer
  consumer := Function.update s.consumer i q.consumer
  accepted := q.published
  popped := s.popped
  obtained := s.obtained ++
    (q.obtained.drop s.obtained.length).map fun x => (i, x)
  copied := q.copied

def returning : Consumer T -> List T
  | Consumer.popStoreTail item _ => [item]
  | _ => []

def step (moved : T -> T) (s : Shared ι T) :
    ι × Spsc.Action T -> Option (Shared ι T)
  | (i, Spsc.Action.consume) =>
      ((s.focus i).consume moved).map fun q =>
        { s.unfocus i q with popped := s.popped ++ returning (s.consumer i) }
  | (i, a) => (Spsc.step moved (s.focus i) a).map (s.unfocus i)

def obtainedBy (s : Shared ι T) (i : ι) : List T :=
  (s.obtained.filter fun x => x.fst = i).map Prod.snd

/-!
## Conditions
-/

/-- A push has written its cell and not stored `head_` yet. -/
def Storing : Producer T -> Prop
  | Producer.storeHead _ _ => True
  | _ => False

/--
A pop has read its cell, or a drain has found what to copy, and has not stored
`tail_` yet.
-/
def Releasing : Consumer T -> Prop
  | Consumer.popStoreTail _ _ | Consumer.copyLoop _ _ _ _ => True
  | _ => False

/-- No thread has read a cell without having stored `tail_`. -/
def Settled (s : Shared ι T) : Prop :=
  forall i, ¬ Releasing (s.consumer i)

/--
When a push writes its cell, `head_` is what the push has loaded, the buffer is
not full, and no other push is about to store `head_`.
-/
def WritesAlone (s : Shared ι T) (i : ι) : Prop :=
  match s.producer i with
  | Producer.write _ head nhead =>
      head = s.ring.head ∧ nhead ≠ s.ring.tail ∧
        forall j, j ≠ i -> ¬ Storing (s.producer j)
  | _ => True

/--
When a pop reads its cell, `tail_` is what the pop has loaded, the buffer is not
empty, and no other pop or drain is about to store `tail_`; when a drain finds
something to copy, the same holds and the head it has loaded lies between tail
and head.
-/
def ReadsAlone (s : Shared ι T) (i : ι) : Prop :=
  match s.consumer i with
  | Consumer.popRead _ tail =>
      tail = s.ring.tail ∧ tail ≠ s.ring.head ∧
        forall j, j ≠ i -> ¬ Releasing (s.consumer j)
  | Consumer.drainLoadTail head =>
      s.ring.tail ≠ head ->
        head < s.ring.capacity ∧
        Circular.distance s.ring.capacity s.ring.tail head <=
            Circular.distance s.ring.capacity s.ring.tail s.ring.head ∧
          forall j, j ≠ i -> ¬ Releasing (s.consumer j)
  | _ => True

/-- No two pushes and no two operations of consumers get in each other's way. -/
def Exclusive (s : Shared ι T) : ι × Spsc.Action T -> Prop
  | (i, Spsc.Action.produce) => s.WritesAlone i
  | (i, Spsc.Action.consume) => s.ReadsAlone i
  | _ => True

end Shared

end Ringbuff

end MoonNet
