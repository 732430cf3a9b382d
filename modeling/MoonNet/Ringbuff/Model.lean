import Mathlib.Data.Nat.Bitwise
import Mathlib.Logic.Function.Basic
import MoonNet.Kernel.SizeT

/-!
# The ring buffer

A ring buffer is a block of `capacity_` cells with two indices: `head_` is the
cell the next push writes and `tail_` the cell the next pop reads.  Indices are
`size_t`, so that sums and differences wrap at `2 ^ 64`; an access outside the
block has no result.  This module holds the functions as one thread runs them;
the interleaved threads are the subject of `Ringbuff.Threads`.
-/

namespace MoonNet

universe u

/-- The block `new T[size]`. -/
structure Cells (T : Type u) where
  size : Nat
  cell : Nat -> T

namespace Cells

variable {T : Type u}

def read (c : Cells T) (i : Nat) : Option T :=
  if i < c.size then some (c.cell i) else none

def write (c : Cells T) (i : Nat) (x : T) : Option (Cells T) :=
  if i < c.size then some { c with cell := Function.update c.cell i x }
  else none

/-- Read a cell and leave `left x` in it, where `x` is what it held. -/
def take (left : T -> T) (c : Cells T) (i : Nat) : Option (Cells T × T) :=
  (c.read i).bind fun x => (c.write i (left x)).map fun c => (c, x)

end Cells

structure Ringbuff (T : Type u) where
  head : Nat
  tail : Nat
  capacity : Nat
  buffer : Cells T

namespace Ringbuff

variable {T : Type u}

/-!
## Capacity
-/

def isPowtwo (n : Nat) : Bool :=
  n != 0 && (n &&& SizeT.sub n 1) == 0

/-- `n |= n >> s` -/
def orShift (s n : Nat) : Nat :=
  n ||| n >>> s

def nextPowtwo (n : Nat) : Nat :=
  if n = 0 then 1
  else
    SizeT.add
      (orShift 32 (orShift 16 (orShift 8 (orShift 4 (orShift 2 (orShift 1
        (SizeT.sub n 1)))))))
      1

def adjSize (size : Nat) : Nat :=
  if isPowtwo size then size else nextPowtwo size

/-- The constructor; `cell` is what the new block holds. -/
def new (cell : Nat -> T) (size : Nat) : Ringbuff T where
  head := 0
  tail := 0
  capacity := adjSize size
  buffer := { size := adjSize size, cell := cell }

/-- `(i + 1) & (capacity_ - 1)` -/
def next (capacity i : Nat) : Nat :=
  SizeT.add i 1 &&& SizeT.sub capacity 1

/-!
## Single items

`push` and `push_move` differ in what they leave in the caller's item, `pop` and
`pop_move` in what they leave in the cell: a copy leaves the value itself, a
move leaves `moved x`.  The last component of each result is the caller's item
after the call.
-/

def pushWith (left : T -> T) (r : Ringbuff T) (item : T) :
    Option (Ringbuff T × Bool × T) :=
  let nhead := next r.capacity r.head
  if nhead = r.tail then some (r, false, item)
  else
    (r.buffer.write r.head item).map fun buffer =>
      ({ r with buffer := buffer, head := nhead }, true, left item)

def push (r : Ringbuff T) (item : T) : Option (Ringbuff T × Bool × T) :=
  r.pushWith id item

def pushMove (moved : T -> T) (r : Ringbuff T) (item : T) :
    Option (Ringbuff T × Bool × T) :=
  r.pushWith moved item

def popWith (left : T -> T) (r : Ringbuff T) (item : T) :
    Option (Ringbuff T × Bool × T) :=
  if r.tail = r.head then some (r, false, item)
  else
    (r.buffer.take left r.tail).map fun p =>
      ({ r with buffer := p.fst, tail := next r.capacity r.tail }, true, p.snd)

def pop (r : Ringbuff T) (item : T) : Option (Ringbuff T × Bool × T) :=
  r.popWith id item

def popMove (moved : T -> T) (r : Ringbuff T) (item : T) :
    Option (Ringbuff T × Bool × T) :=
  r.popWith moved item

def empty (r : Ringbuff T) : Bool :=
  r.head == r.tail

def full (r : Ringbuff T) : Bool :=
  next r.capacity r.head == r.tail

def size (r : Ringbuff T) : Nat :=
  if r.tail <= r.head then SizeT.sub r.head r.tail
  else SizeT.add (SizeT.sub r.capacity r.tail) r.head

/-!
## Draining

The list overloads run a loop and the vector overloads `std::move` with a back
inserter; both move the cells of a range to the end of the target, one by one.
-/

def moveCells (moved : T -> T) :
    Nat -> Nat -> Cells T -> List T -> Option (Cells T × List T)
  | 0, _, c, target => some (c, target)
  | count + 1, i, c, target =>
      (c.take moved i).bind fun p =>
        moveCells moved count (i + 1) p.fst (target ++ [p.snd])

/-- `for (size_t i = first; i < last; ++i)` -/
def moveRange (moved : T -> T) (c : Cells T) (first last : Nat)
    (target : List T) : Option (Cells T × List T) :=
  moveCells moved (last - first) first c target

def drain (moved : T -> T) (r : Ringbuff T) (target : List T) :
    Option (Ringbuff T × List T) :=
  if r.tail = r.head then some (r, target)
  else
    (if r.tail < r.head then
      moveRange moved r.buffer r.tail r.head target
    else
      (moveRange moved r.buffer r.tail r.capacity target).bind fun p =>
        moveRange moved p.fst 0 r.head p.snd).map fun p =>
      ({ r with buffer := p.fst, tail := r.head }, p.snd)

/-- What `vec_.reserve` is called with, if it is called. -/
def reserved (r : Ringbuff T) (vec : List T) : Option Nat :=
  if r.tail = r.head then none
  else
    some (vec.length +
      SizeT.sub (SizeT.add r.head r.capacity) r.tail % r.capacity)

def swapToListInto (moved : T -> T) (r : Ringbuff T) (list : List T) :
    Option (Ringbuff T × List T) :=
  r.drain moved list

def swapToVectorInto (moved : T -> T) (r : Ringbuff T) (vec : List T) :
    Option (Ringbuff T × List T × Option Nat) :=
  (r.drain moved vec).map fun p => (p.fst, p.snd, r.reserved vec)

def swapToList (moved : T -> T) (r : Ringbuff T) :
    Option (Ringbuff T × List T) :=
  r.drain moved []

def swapToVector (moved : T -> T) (r : Ringbuff T) :
    Option (Ringbuff T × List T × Option Nat) :=
  (r.drain moved []).map fun p => (p.fst, p.snd, r.reserved [])

/--
`swap` stores the indices of the other ring buffer and exchanges the blocks;
what `exchange` returns is not used.
-/
def swap (r other : Ringbuff T) : Ringbuff T × Ringbuff T :=
  ({ r with head := other.head, tail := other.tail, buffer := other.buffer },
    { other with buffer := r.buffer })

/-!
## Calls on a ring buffer
-/

inductive Op (T : Type u) where
  | push (item : T)
  | pushMove (item : T)
  | pop (item : T)
  | popMove (item : T)
  | size
  | empty
  | full
  | swapToListInto (list : List T)
  | swapToVectorInto (vec : List T)
  | swapToList
  | swapToVector
deriving DecidableEq, Repr

/-- What a call returns; `item` is the caller's item after the call. -/
inductive Output (T : Type u) where
  | returned (ok : Bool) (item : T)
  | count (n : Nat)
  | flag (b : Bool)
  | list (items : List T)
  | vector (items : List T) (reserved : Option Nat)
deriving DecidableEq, Repr

def step (moved : T -> T) (r : Ringbuff T) :
    Op T -> Option (Ringbuff T × Output T)
  | Op.push item =>
      (r.push item).map fun p => (p.fst, Output.returned p.snd.fst p.snd.snd)
  | Op.pushMove item =>
      (r.pushMove moved item).map fun p =>
        (p.fst, Output.returned p.snd.fst p.snd.snd)
  | Op.pop item =>
      (r.pop item).map fun p => (p.fst, Output.returned p.snd.fst p.snd.snd)
  | Op.popMove item =>
      (r.popMove moved item).map fun p =>
        (p.fst, Output.returned p.snd.fst p.snd.snd)
  | Op.size => some (r, Output.count r.size)
  | Op.empty => some (r, Output.flag r.empty)
  | Op.full => some (r, Output.flag r.full)
  | Op.swapToListInto list =>
      (r.swapToListInto moved list).map fun p => (p.fst, Output.list p.snd)
  | Op.swapToVectorInto vec =>
      (r.swapToVectorInto moved vec).map fun p =>
        (p.fst, Output.vector p.snd.fst p.snd.snd)
  | Op.swapToList =>
      (r.swapToList moved).map fun p => (p.fst, Output.list p.snd)
  | Op.swapToVector =>
      (r.swapToVector moved).map fun p =>
        (p.fst, Output.vector p.snd.fst p.snd.snd)

/--
Call `pop_move` until it returns false, `fuel` calls at most, and collect what
it returns behind `target`.
-/
def popUntilFalse (moved : T -> T) :
    Nat -> Ringbuff T -> T -> List T -> Option (Ringbuff T × List T)
  | 0, _, _, _ => none
  | fuel + 1, r, item, target =>
      match r.popMove moved item with
      | none => none
      | some (r, false, _) => some (r, target)
      | some (r, true, item) =>
          popUntilFalse moved fuel r item (target ++ [item])

end Ringbuff

end MoonNet
