import MoonNet.Foundation.Runs
import MoonNet.Ringbuff.Valid

/-!
# The ring buffer is a bounded queue

The abstract queue holds at most `bound` items.  Each operation of the ring
buffer is specified on valid ring buffers first; the simulation of a call and
of a sequence of calls follow.
-/

namespace MoonNet

open Foundation
open Foundation.Circular

universe u

/-!
# The abstract queue
-/

namespace BoundedQueue

variable {T : Type u}

open Ringbuff (Op Output)

def push (bound : Nat) (q : List T) (item left : T) : List T × Output T :=
  if q.length < bound then (q ++ [item], Output.returned true left)
  else (q, Output.returned false item)

def pop (item : T) : List T -> List T × Output T
  | [] => ([], Output.returned false item)
  | x :: rest => (rest, Output.returned true x)

def reserved (q vec : List T) : Option Nat :=
  if q.length = 0 then none else some (vec.length + q.length)

def step (bound : Nat) (moved : T -> T) (q : List T) :
    Op T -> List T × Output T
  | Op.push item => push bound q item item
  | Op.pushMove item => push bound q item (moved item)
  | Op.pop item => pop item q
  | Op.popMove item => pop item q
  | Op.size => (q, Output.count q.length)
  | Op.empty => (q, Output.flag (q.length == 0))
  | Op.full => (q, Output.flag (q.length == bound))
  | Op.swapToListInto list => ([], Output.list (list ++ q))
  | Op.swapToVectorInto vec =>
      ([], Output.vector (vec ++ q) (reserved q vec))
  | Op.swapToList => ([], Output.list q)
  | Op.swapToVector => ([], Output.vector q (reserved q []))

end BoundedQueue

namespace Ringbuff

variable {T : Type u}

def dropped (moved : T -> T) (r : Ringbuff T) (n : Nat) : Ringbuff T :=
  { r with
    tail := (r.tail + n) % r.capacity
    buffer := { r.buffer with
      cell := mapWindow moved r.capacity r.buffer.cell r.tail n } }

theorem dropped_valid {r : Ringbuff T} (h : r.Valid) (moved : T -> T)
    (n : Nat) : (r.dropped moved n).Valid where
  capacity_eq := h.capacity_eq
  block := h.block
  head_lt := h.head_lt
  tail_lt := Nat.mod_lt _ h.capacity_pos

theorem dropped_held {r : Ringbuff T} (h : r.Valid) (moved : T -> T)
    {n : Nat} (hn : n <= r.held) :
    (r.dropped moved n).held = r.held - n :=
  h.distance_tail_add hn

theorem dropped_one_contents {r : Ringbuff T} (h : r.Valid) (moved : T -> T)
    (hpos : 0 < r.held) :
    r.contents = r.buffer.cell r.tail :: (r.dropped moved 1).contents := by
  have hlt := h.held_lt
  have htail : r.tail % r.capacity = r.tail := Nat.mod_eq_of_lt h.tail_lt
  have hheld : (r.dropped moved 1).held = r.held - 1 :=
    dropped_held h moved hpos
  unfold contents
  rw [hheld, show r.held = r.held - 1 + 1 by omega, window_cons, htail]
  congr 1
  show window r.buffer.cell r.capacity ((r.tail + 1) % r.capacity) _ =
    window (Function.update r.buffer.cell (r.tail % r.capacity)
      (moved (r.buffer.cell (r.tail % r.capacity)))) r.capacity
      ((r.tail + 1) % r.capacity) _
  rw [window_mod_start, window_mod_start, window_update_start _ _ (by omega)]
  rfl

/-!
# Operations
-/

theorem pushWith_full (left : T -> T) {r : Ringbuff T} (h : r.Valid)
    (hfull : r.held = r.capacity - 1) (item : T) :
    r.pushWith left item = some (r, false, item) := by
  simp [pushWith, h.next_head_eq_tail_iff.mpr hfull]

theorem pushWith_room (left : T -> T) {r : Ringbuff T} (h : r.Valid)
    (hroom : r.held ≠ r.capacity - 1) (item : T) :
    exists r', r.pushWith left item = some (r', true, left item) ∧
      r'.Valid ∧ r'.capacity = r.capacity ∧
      r'.contents = r.contents ++ [item] := by
  have hheld := h.held_lt
  have hnext : next r.capacity r.head = (r.head + 1) % r.capacity :=
    h.next_eq h.head_lt
  have hne : next r.capacity r.head ≠ r.tail :=
    fun heq => hroom (h.next_head_eq_tail_iff.mp heq)
  refine ⟨{ r with
    head := (r.head + 1) % r.capacity
    buffer := { r.buffer with
      cell := Function.update r.buffer.cell r.head item } },
    ?_, ?_, rfl, ?_⟩
  · have hwrite := Cells.write_eq_some (c := r.buffer) item
      (h.block ▸ h.head_lt)
    simp only [pushWith, if_neg hne, hwrite, Option.map_some]
    rw [hnext]
  · exact { capacity_eq := h.capacity_eq, block := h.block,
            head_lt := Nat.mod_lt _ h.capacity_pos, tail_lt := h.tail_lt }
  · have hlen : distance r.capacity r.tail ((r.head + 1) % r.capacity) =
        r.held + 1 :=
      h.distance_head_succ (by omega)
    show window (Function.update r.buffer.cell r.head item) r.capacity r.tail
      (distance r.capacity r.tail ((r.head + 1) % r.capacity)) = _
    rw [hlen, <- h.tail_add_held, window_write_end _ _ hheld]
    rfl

theorem popWith_empty (left : T -> T) {r : Ringbuff T} (h : r.Valid)
    (hempty : r.held = 0) (item : T) :
    r.popWith left item = some (r, false, item) := by
  simp [popWith, h.held_eq_zero_iff.mp hempty]

theorem popWith_held (left : T -> T) {r : Ringbuff T} (h : r.Valid)
    (hheld : r.held ≠ 0) (item : T) :
    r.popWith left item =
      some (r.dropped left 1, true, r.buffer.cell r.tail) := by
  have hne : r.tail ≠ r.head := fun heq => hheld (h.held_eq_zero_iff.mpr heq)
  have htake := Cells.take_eq_some left (c := r.buffer) (h.block ▸ h.tail_lt)
  simp only [popWith, if_neg hne, htake, Option.map_some]
  rw [h.next_eq h.tail_lt]
  simp [dropped, mapWindow, Nat.mod_eq_of_lt h.tail_lt]

/-!
# Drains
-/

theorem moveCells_eq (moved : T -> T) (c : Cells T) {i n : Nat}
    (hfit : i + n <= c.size) (target : List T) :
    moveCells moved n i c target =
      some ({ c with cell := mapWindow moved c.size c.cell i n },
        target ++ window c.cell c.size i n) := by
  induction n generalizing c i target with
  | zero =>
      simp [moveCells, mapWindow]
  | succ n ih =>
      have hi : i < c.size := by
        omega
      have hmod : i % c.size = i := Nat.mod_eq_of_lt hi
      have hrest : window
          (Function.update c.cell (i % c.size) (moved (c.cell i))) c.size
          (i + 1) n = window c.cell c.size (i + 1) n :=
        window_update_start c.cell (moved (c.cell i)) (by omega)
      rw [hmod] at hrest
      simp only [moveCells, Cells.take_eq_some moved hi, Option.bind_some]
      rw [ih _ (by show i + 1 + n <= c.size; omega)]
      simp only [hrest, mapWindow, hmod]
      rw [window_cons, hmod, window_mod_start, List.append_assoc]
      rfl

theorem dropped_held_eq (moved : T -> T) {r : Ringbuff T} (h : r.Valid) :
    r.dropped moved r.held =
      { r with
        tail := r.head
        buffer := { r.buffer with
          cell := mapWindow moved r.capacity r.buffer.cell r.tail r.held } } := by
  unfold dropped
  rw [h.tail_add_held]

theorem moveRange_wrapped (moved : T -> T) (c : Cells T) {tail head : Nat}
    (htail : tail < c.size) (hhead : head <= tail) (target : List T) :
    ((moveRange moved c tail c.size target).bind fun p =>
        moveRange moved p.fst 0 head p.snd) =
      some ({ c with
          cell := mapWindow moved c.size c.cell tail (c.size - tail + head) },
        target ++ window c.cell c.size tail (c.size - tail + head)) := by
  have hsplit : tail + (c.size - tail) = c.size := by
    omega
  have hrest : window (mapWindow moved c.size c.cell tail (c.size - tail))
      c.size (tail + (c.size - tail)) head =
        window c.cell c.size (tail + (c.size - tail)) head :=
    window_mapWindow moved c.cell (by omega)
  have hzero : window (mapWindow moved c.size c.cell tail (c.size - tail))
      c.size 0 head = window c.cell c.size 0 head := by
    rw [hsplit, <- window_mod_start, <- window_mod_start c.cell _ c.size,
      Nat.mod_self] at hrest
    exact hrest
  unfold moveRange
  rw [moveCells_eq moved c (by omega) target, Option.bind_some,
    moveCells_eq moved _ (by show 0 + (head - 0) <= c.size; omega),
    window_add, mapWindow_add, hsplit, Nat.mod_self, Nat.sub_zero,
    List.append_assoc, <- mapWindow_mod_start _ _ _ c.size, Nat.mod_self]
  simp only [hzero]

theorem with_tail_of_eq {r : Ringbuff T} (h : r.tail = r.head) :
    { r with tail := r.head } = r := by
  cases r with
  | mk head tail capacity buffer =>
      cases h
      rfl

theorem drain_eq (moved : T -> T) {r : Ringbuff T} (h : r.Valid)
    (target : List T) :
    r.drain moved target =
      some (r.dropped moved r.held, target ++ r.contents) := by
  have htail := h.tail_lt
  have hhead := h.head_lt
  have hblock := h.block
  rw [dropped_held_eq moved h]
  unfold contents
  by_cases hempty : r.tail = r.head
  · have hzero : r.held = 0 := h.held_eq_zero_iff.mpr hempty
    simp [drain, hempty, hzero, mapWindow, with_tail_of_eq hempty]
  · by_cases hwrap : r.tail < r.head
    · have hheld : r.held = r.head - r.tail := by
        rw [h.held_eq, if_pos (by omega)]
      simp only [drain, if_neg hempty, if_pos hwrap, moveRange]
      rw [moveCells_eq moved r.buffer (by omega) target, hblock, hheld]
      rfl
    · have hheld : r.held = r.capacity - r.tail + r.head := by
        rw [h.held_eq, if_neg (by omega)]
      have hrange := moveRange_wrapped moved r.buffer
        (show r.tail < r.buffer.size by omega)
        (show r.head <= r.tail by omega) target
      rw [hblock] at hrange
      simp only [drain, if_neg hempty, if_neg hwrap, hrange, hheld, hblock]
      rfl

theorem dropped_dropped (moved : T -> T) (r : Ringbuff T) (m n : Nat) :
    (r.dropped moved m).dropped moved n = r.dropped moved (m + n) := by
  simp [dropped, mapWindow_add, Nat.add_assoc]

theorem popUntilFalse_eq (moved : T -> T) {r : Ringbuff T} (h : r.Valid)
    (item : T) (target : List T) {fuel : Nat} (hfuel : r.held < fuel) :
    popUntilFalse moved fuel r item target = r.drain moved target := by
  rw [drain_eq moved h target]
  induction fuel generalizing r item target with
  | zero =>
      omega
  | succ fuel ih =>
      by_cases hempty : r.held = 0
      · have hsame : r.dropped moved 0 = r := by
          simp [dropped, mapWindow, Nat.mod_eq_of_lt h.tail_lt]
        simp [popUntilFalse, popMove, popWith_empty moved h hempty item,
          contents, hempty, hsame]
      · have hone : 1 <= r.held := Nat.pos_of_ne_zero hempty
        have hlen : (r.dropped moved 1).held = r.held - 1 :=
          dropped_held h moved hone
        simp only [popUntilFalse, popMove, popWith_held moved h hempty item]
        rw [ih (dropped_valid h moved 1) _ _ (by omega), hlen, dropped_dropped,
          Nat.add_sub_cancel' hone, dropped_one_contents h moved hone,
          List.append_assoc]
        rfl

/-!
# Refinement

The relation between a ring buffer and the abstract queue, and the simulation
of one call and of every sequence of calls on a new ring buffer.
-/

structure Refines (capacity : Nat) (r : Ringbuff T) (q : List T) : Prop where
  valid : r.Valid
  capacity_eq : r.capacity = capacity
  contents_eq : r.contents = q

theorem Refines.length_eq {capacity : Nat} {r : Ringbuff T} {q : List T}
    (h : Refines capacity r q) : q.length = r.held := by
  rw [<- h.contents_eq, contents_length]

theorem pushWith_refines (left : T -> T) {capacity : Nat} {r : Ringbuff T}
    {q : List T} (h : Refines capacity r q) (item : T) :
    exists r',
      ((r.pushWith left item).map fun p =>
        (p.fst, Output.returned p.snd.fst p.snd.snd)) =
          some (r', (BoundedQueue.push (capacity - 1) q item (left item)).snd) ∧
      Refines capacity r'
        (BoundedQueue.push (capacity - 1) q item (left item)).fst := by
  have hcap := h.capacity_eq
  have hlt := h.valid.held_lt
  have hlen := h.length_eq
  by_cases hfull : r.held = r.capacity - 1
  · have hbound : ¬ q.length < capacity - 1 := by
      omega
    refine ⟨r, ?_, ?_⟩
    · simp [pushWith_full left h.valid hfull, BoundedQueue.push, hbound]
    · simpa [BoundedQueue.push, hbound] using h
  · have hbound : q.length < capacity - 1 := by
      omega
    rcases pushWith_room left h.valid hfull item with
      ⟨r', hr, hvalid, hcapacity, hcontents⟩
    refine ⟨r', ?_, ?_⟩
    · simp [hr, BoundedQueue.push, hbound]
    · simp only [BoundedQueue.push, if_pos hbound]
      exact { valid := hvalid, capacity_eq := hcapacity.trans hcap,
              contents_eq := by rw [hcontents, h.contents_eq] }

theorem popWith_refines (left : T -> T) {capacity : Nat} {r : Ringbuff T}
    {q : List T} (h : Refines capacity r q) (item : T) :
    exists r',
      ((r.popWith left item).map fun p =>
        (p.fst, Output.returned p.snd.fst p.snd.snd)) =
          some (r', (BoundedQueue.pop item q).snd) ∧
      Refines capacity r' (BoundedQueue.pop item q).fst := by
  have hlen := h.length_eq
  by_cases hempty : r.held = 0
  · have hnil : q = [] := List.length_eq_zero_iff.mp (by omega)
    subst hnil
    exact ⟨r, by simp [popWith_empty left h.valid hempty, BoundedQueue.pop], h⟩
  · have hcontents :=
      dropped_one_contents h.valid left (Nat.pos_of_ne_zero hempty)
    rw [h.contents_eq] at hcontents
    subst hcontents
    refine ⟨r.dropped left 1, ?_, ?_⟩
    · simp [popWith_held left h.valid hempty, BoundedQueue.pop]
    · exact { valid := dropped_valid h.valid left 1,
              capacity_eq := h.capacity_eq, contents_eq := rfl }

theorem drained_refines (moved : T -> T) {capacity : Nat} {r : Ringbuff T}
    {q : List T} (h : Refines capacity r q) :
    Refines capacity (r.dropped moved r.held) [] where
  valid := dropped_valid h.valid moved r.held
  capacity_eq := h.capacity_eq
  contents_eq := by
    have hzero : (r.dropped moved r.held).held = 0 := by
      rw [dropped_held h.valid moved (Nat.le_refl _), Nat.sub_self]
    unfold contents
    rw [hzero, window_zero]

theorem reserved_refines {capacity : Nat} {r : Ringbuff T} {q : List T}
    (h : Refines capacity r q) (vec : List T) :
    r.reserved vec = BoundedQueue.reserved q vec := by
  rw [h.valid.reserved_eq, BoundedQueue.reserved, h.length_eq]

theorem step_refines (moved : T -> T) {capacity : Nat} {r : Ringbuff T}
    {q : List T} (h : Refines capacity r q) (op : Op T) :
    exists r',
      step moved r op =
        some (r', (BoundedQueue.step (capacity - 1) moved q op).snd) ∧
      Refines capacity r'
        (BoundedQueue.step (capacity - 1) moved q op).fst := by
  have hlen := h.length_eq
  have hq : r.contents = q := h.contents_eq
  have hdrained := drained_refines moved h
  cases op with
  | push item =>
      exact pushWith_refines id h item
  | pushMove item =>
      exact pushWith_refines moved h item
  | pop item =>
      exact popWith_refines id h item
  | popMove item =>
      exact popWith_refines moved h item
  | size =>
      refine ⟨r, ?_, h⟩
      simp [step, BoundedQueue.step, h.valid.size_eq, hlen]
  | empty =>
      refine ⟨r, ?_, h⟩
      have hiff : r.head = r.tail <-> r.held = 0 := by
        rw [h.valid.held_eq_zero_iff]
        exact eq_comm
      simp [step, BoundedQueue.step, empty, hlen, Bool.beq_eq_decide_eq, hiff]
  | full =>
      refine ⟨r, ?_, h⟩
      have hiff := h.valid.next_head_eq_tail_iff
      rw [h.capacity_eq] at hiff
      simp [step, BoundedQueue.step, full, hlen, Bool.beq_eq_decide_eq,
        h.capacity_eq, hiff]
  | swapToListInto list =>
      refine ⟨_, ?_, hdrained⟩
      simp [step, swapToListInto, drain_eq moved h.valid, hq,
        BoundedQueue.step]
  | swapToVectorInto vec =>
      refine ⟨_, ?_, hdrained⟩
      simp [step, swapToVectorInto, drain_eq moved h.valid, hq,
        reserved_refines h, BoundedQueue.step]
  | swapToList =>
      refine ⟨_, ?_, hdrained⟩
      simp [step, swapToList, drain_eq moved h.valid, hq, BoundedQueue.step]
  | swapToVector =>
      refine ⟨_, ?_, hdrained⟩
      simp [step, swapToVector, drain_eq moved h.valid, hq,
        reserved_refines h, BoundedQueue.step]

theorem new_refines (cell : Nat -> T) {size : Nat} (hsize : size <= 2 ^ 63) :
    Refines (adjSize size) (new cell size) [] where
  valid := new_valid cell hsize
  capacity_eq := rfl
  contents_eq := new_contents cell size

/--
Every sequence of calls on a new ring buffer has the results of the queue
bounded at `capacity_ - 1` items.  Afterwards the indices are below the
capacity, the cells from tail to head are the queue, and popping until the
first false ends in the state of a drain, with the same items.
-/
theorem calls_refine_boundedQueue (moved : T -> T) (cell : Nat -> T)
    (size : Nat) (hsize : size <= 2 ^ 63) (ops : List (Op T)) :
    exists r,
      OutStepFn.runOut (step moved) (new cell size) ops =
        some (r, (OutStepFn.runTotal
          (BoundedQueue.step (adjSize size - 1) moved) [] ops).snd) ∧
      r.capacity = adjSize size ∧
      r.head < r.capacity ∧ r.tail < r.capacity ∧
      r.contents = (OutStepFn.runTotal
        (BoundedQueue.step (adjSize size - 1) moved) [] ops).fst ∧
      forall item target,
        popUntilFalse moved r.capacity r item target =
          r.drain moved target := by
  have hsim : forall r q op, Refines (adjSize size) r q -> True ->
      exists r',
        step moved r op = some (r',
          (BoundedQueue.step (adjSize size - 1) moved q op).snd) ∧
        Refines (adjSize size) r'
          (BoundedQueue.step (adjSize size - 1) moved q op).fst := by
    intro r q op hR _
    exact step_refines moved hR op
  rcases OutStepFn.runOut_refines hsim (new_refines cell hsize)
      (StepFn.meets_of_forall (fun _ _ => trivial) _ ops) with ⟨r, hrun, hR⟩
  refine ⟨r, hrun, hR.capacity_eq, hR.valid.head_lt, hR.valid.tail_lt,
    hR.contents_eq, ?_⟩
  intro item target
  exact popUntilFalse_eq moved hR.valid item target hR.valid.held_lt

theorem calls_refine_boundedQueue_wrapped :
    exists r,
      OutStepFn.runOut (step fun _ => 0) (new (fun _ => 0) 3)
          [Op.push 1, Op.pushMove 2, Op.push 3, Op.push 4, Op.pop 9,
            Op.popMove 9, Op.push 5, Op.push 6, Op.full,
            Op.swapToVectorInto [7]] =
        some (r,
          [Output.returned true 1, Output.returned true 0,
            Output.returned true 3, Output.returned false 4,
            Output.returned true 1, Output.returned true 2,
            Output.returned true 5, Output.returned true 6,
            Output.flag true, Output.vector [7, 3, 5, 6] (some 4)]) ∧
      r.capacity = 4 ∧ r.head < r.capacity ∧ r.tail < r.capacity ∧
      r.contents = [] ∧
      forall item target,
        popUntilFalse (fun _ => 0) r.capacity r item target =
          r.drain (fun _ => 0) target :=
  calls_refine_boundedQueue (fun _ => 0) (fun _ => 0) 3 (by decide)
    [Op.push 1, Op.pushMove 2, Op.push 3, Op.push 4, Op.pop 9, Op.popMove 9,
      Op.push 5, Op.push 6, Op.full, Op.swapToVectorInto [7]]

end Ringbuff

end MoonNet
