import MoonNet.Ringbuff.Threads

/-!
# What an access changes

The accesses of the producer and of the consumer, each with what must hold
before it and with the state behind it.  The invariants of the ring buffer are
proved by cases on these.
-/

namespace MoonNet

open Foundation

universe u

namespace Ringbuff

namespace Spsc

variable {T : Type u} {moved : T -> T} {s s' : Spsc T}

/-!
# Calls
-/

theorem callPush_eq {item : T} (hstep : s.callPush item = some s') :
    s' = { s with producer := Producer.loadHead item } := by
  unfold callPush at hstep
  split at hstep <;> cases hstep <;> rfl

theorem callConsumer_eq {entry : Consumer T}
    (hstep : s.callConsumer entry = some s') :
    s' = { s with consumer := entry } := by
  unfold callConsumer at hstep
  split at hstep <;> cases hstep <;> rfl

/-!
# The producer
-/

inductive ProduceStep (s : Spsc T) : Spsc T -> Prop where
  | loadsHead (item : T) (hp : s.producer = Producer.loadHead item) :
      ProduceStep s { s with
        producer := Producer.loadTail item s.ring.head }
  | fails (item : T) (head : Nat)
      (hp : s.producer = Producer.loadTail item head)
      (hfull : next s.ring.capacity head = s.ring.tail) :
      ProduceStep s { s with producer := Producer.returned false }
  | finds (item : T) (head : Nat)
      (hp : s.producer = Producer.loadTail item head)
      (hroom : next s.ring.capacity head ≠ s.ring.tail) :
      ProduceStep s { s with
        producer := Producer.write item head (next s.ring.capacity head) }
  | writes (item : T) (head nhead : Nat) (buffer : Cells T)
      (hp : s.producer = Producer.write item head nhead)
      (hwrite : s.ring.buffer.write head item = some buffer) :
      ProduceStep s { s with
        ring := { s.ring with buffer := buffer }
        producer := Producer.storeHead item nhead }
  | stores (item : T) (nhead : Nat)
      (hp : s.producer = Producer.storeHead item nhead) :
      ProduceStep s { s with
        ring := { s.ring with head := nhead }
        producer := Producer.returned true
        published := s.published ++ [item] }

theorem produce_iff : s.produce = some s' <-> ProduceStep s s' := by
  constructor
  · intro hstep
    cases hp : s.producer with
    | idle =>
        simp [produce, hp] at hstep
    | returned ok =>
        simp [produce, hp] at hstep
    | loadHead item =>
        simp only [produce, hp, Option.some.injEq] at hstep
        subst hstep
        exact ProduceStep.loadsHead item hp
    | loadTail item head =>
        simp only [produce, hp] at hstep
        split at hstep
        · rename_i hfull
          cases hstep
          exact ProduceStep.fails item head hp hfull
        · rename_i hroom
          cases hstep
          exact ProduceStep.finds item head hp hroom
    | write item head nhead =>
        simp only [produce, hp, Option.map_eq_some_iff] at hstep
        rcases hstep with ⟨buffer, hwrite, hs'⟩
        subst hs'
        exact ProduceStep.writes item head nhead buffer hp hwrite
    | storeHead item nhead =>
        simp only [produce, hp, Option.some.injEq] at hstep
        subst hstep
        exact ProduceStep.stores item nhead hp
  · intro hstep
    cases hstep with
    | loadsHead item hp => simp only [produce, hp]
    | fails item head hp hfull => simp only [produce, hp, if_pos hfull]
    | finds item head hp hroom => simp only [produce, hp, if_neg hroom]
    | writes item head nhead buffer hp hwrite =>
        simp only [produce, hp, hwrite, Option.map_some]
    | stores item nhead hp => simp only [produce, hp]

/-!
# The consumer
-/

theorem obtain_eq_some {left : T -> T} {i : Nat} {after : T -> Consumer T} :
    s.obtain left i after = some s' <->
      exists buffer x, s.ring.buffer.take left i = some (buffer, x) ∧
        s' = { s with
          ring := { s.ring with buffer := buffer }
          consumer := after x
          obtained := s.obtained ++ [x]
          copied := s.copied + 1 } := by
  unfold obtain
  rw [Option.map_eq_some_iff]
  constructor
  · intro h
    rcases h with ⟨⟨buffer, x⟩, htake, hs'⟩
    exact ⟨buffer, x, htake, hs'.symm⟩
  · intro h
    rcases h with ⟨buffer, x, htake, hs'⟩
    exact ⟨(buffer, x), htake, hs'.symm⟩

inductive ConsumeStep (moved : T -> T) (s : Spsc T) : Spsc T -> Prop where
  | loadsTail (move : Bool) (hc : s.consumer = Consumer.popLoadTail move) :
      ConsumeStep moved s { s with
        consumer := Consumer.popLoadHead move s.ring.tail }
  | fails (move : Bool) (tail : Nat)
      (hc : s.consumer = Consumer.popLoadHead move tail)
      (hempty : tail = s.ring.head) :
      ConsumeStep moved s { s with consumer := Consumer.popped none }
  | finds (move : Bool) (tail : Nat)
      (hc : s.consumer = Consumer.popLoadHead move tail)
      (hitem : tail ≠ s.ring.head) :
      ConsumeStep moved s { s with consumer := Consumer.popRead move tail }
  | reads (move : Bool) (tail : Nat) (t : Spsc T)
      (hc : s.consumer = Consumer.popRead move tail)
      (hobtain : s.obtain (if move then moved else id) tail
        (fun x => Consumer.popStoreTail x tail) = some t) :
      ConsumeStep moved s t
  | stores (item : T) (tail : Nat)
      (hc : s.consumer = Consumer.popStoreTail item tail) :
      ConsumeStep moved s (s.release (next s.ring.capacity tail)
        (Consumer.popped (some item)))
  | drainsHead (hc : s.consumer = Consumer.drainLoadHead) :
      ConsumeStep moved s { s with
        consumer := Consumer.drainLoadTail s.ring.head }
  | drainsNothing (head : Nat)
      (hc : s.consumer = Consumer.drainLoadTail head)
      (hempty : s.ring.tail = head) :
      ConsumeStep moved s { s with consumer := Consumer.drained }
  | drainsRange (head : Nat) (hc : s.consumer = Consumer.drainLoadTail head)
      (hitems : s.ring.tail ≠ head) (hlt : s.ring.tail < head) :
      ConsumeStep moved s { s with
        consumer := Consumer.copyLoop s.ring.tail head false head }
  | drainsAround (head : Nat) (hc : s.consumer = Consumer.drainLoadTail head)
      (hitems : s.ring.tail ≠ head) (hge : ¬ s.ring.tail < head) :
      ConsumeStep moved s { s with
        consumer := Consumer.copyLoop s.ring.tail s.ring.capacity true head }
  | copies (i limit : Nat) (wraps : Bool) (head : Nat) (t : Spsc T)
      (hc : s.consumer = Consumer.copyLoop i limit wraps head)
      (hlt : i < limit)
      (hobtain : s.obtain moved i
        (fun _ => Consumer.copyLoop (i + 1) limit wraps head) = some t) :
      ConsumeStep moved s t
  | wraps (i limit head : Nat)
      (hc : s.consumer = Consumer.copyLoop i limit true head)
      (hend : ¬ i < limit) :
      ConsumeStep moved s { s with
        consumer := Consumer.copyLoop 0 head false head }
  | ends (i limit head : Nat)
      (hc : s.consumer = Consumer.copyLoop i limit false head)
      (hend : ¬ i < limit) :
      ConsumeStep moved s (s.release head Consumer.drained)

theorem consume_iff : s.consume moved = some s' <-> ConsumeStep moved s s' := by
  constructor
  · intro hstep
    cases hc : s.consumer with
    | idle =>
        simp [consume, hc] at hstep
    | popped result =>
        simp [consume, hc] at hstep
    | drained =>
        simp [consume, hc] at hstep
    | popLoadTail move =>
        simp only [consume, hc, Option.some.injEq] at hstep
        subst hstep
        exact ConsumeStep.loadsTail move hc
    | popLoadHead move tail =>
        simp only [consume, hc] at hstep
        split at hstep
        · rename_i hempty
          cases hstep
          exact ConsumeStep.fails move tail hc hempty
        · rename_i hitem
          cases hstep
          exact ConsumeStep.finds move tail hc hitem
    | popRead move tail =>
        simp only [consume, hc] at hstep
        exact ConsumeStep.reads move tail s' hc hstep
    | popStoreTail item tail =>
        simp only [consume, hc, Option.some.injEq] at hstep
        subst hstep
        exact ConsumeStep.stores item tail hc
    | drainLoadHead =>
        simp only [consume, hc, Option.some.injEq] at hstep
        subst hstep
        exact ConsumeStep.drainsHead hc
    | drainLoadTail head =>
        simp only [consume, hc] at hstep
        split at hstep
        · rename_i hempty
          cases hstep
          exact ConsumeStep.drainsNothing head hc hempty
        · rename_i hitems
          split at hstep
          · rename_i hlt
            cases hstep
            exact ConsumeStep.drainsRange head hc hitems hlt
          · rename_i hge
            cases hstep
            exact ConsumeStep.drainsAround head hc hitems hge
    | copyLoop i limit wraps head =>
        simp only [consume, hc] at hstep
        split at hstep
        · rename_i hlt
          exact ConsumeStep.copies i limit wraps head s' hc hlt hstep
        · rename_i hend
          cases wraps with
          | true =>
              simp only [if_true, Option.some.injEq] at hstep
              subst hstep
              exact ConsumeStep.wraps i limit head hc hend
          | false =>
              simp only [Bool.false_eq_true, if_false,
                Option.some.injEq] at hstep
              subst hstep
              exact ConsumeStep.ends i limit head hc hend
  · intro hstep
    cases hstep with
    | loadsTail move hc => simp only [consume, hc]
    | fails move tail hc hempty => simp only [consume, hc, if_pos hempty]
    | finds move tail hc hitem => simp only [consume, hc, if_neg hitem]
    | reads move tail t hc hobtain => simp only [consume, hc, hobtain]
    | stores item tail hc => simp only [consume, hc]
    | drainsHead hc => simp only [consume, hc]
    | drainsNothing head hc hempty =>
        simp only [consume, hc, if_pos hempty]
    | drainsRange head hc hitems hlt =>
        simp only [consume, hc, if_neg hitems, if_pos hlt]
    | drainsAround head hc hitems hge =>
        simp only [consume, hc, if_neg hitems, if_neg hge]
    | copies i limit wraps head t hc hlt hobtain =>
        simp only [consume, hc, if_pos hlt, hobtain]
    | wraps i limit head hc hend =>
        simp only [consume, hc, if_neg hend, if_true]
    | ends i limit head hc hend =>
        simp only [consume, hc, if_neg hend, Bool.false_eq_true, if_false]

end Spsc

end Ringbuff

end MoonNet
