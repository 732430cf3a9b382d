import MoonNet.Ringbuff.Steps
import MoonNet.Ringbuff.Valid

/-!
# Safety of one producer and one consumer

The invariant relates the local copies of the indices to the shared ones and
says where the published items are: those the consumer has read come first and
the cells from tail to head that it has not copied yet follow.  The producer
only moves the head and the consumer only moves the tail, so that each thread
keeps what the other one relies on.
-/

namespace MoonNet

open Foundation
open Foundation.Circular

universe u

namespace Ringbuff

namespace Spsc

variable {T : Type u}

def unread (s : Spsc T) : List T :=
  window s.ring.buffer.cell s.ring.capacity (s.ring.tail + s.copied)
    (s.ring.held - s.copied)

/-!
# Invariant
-/

def ProducerInv (r : Ringbuff T) : Producer T -> Prop
  | Producer.idle | Producer.loadHead _ | Producer.returned _ => True
  | Producer.loadTail _ head => head = r.head
  | Producer.write _ head nhead =>
      head = r.head ∧ nhead = (r.head + 1) % r.capacity ∧
        r.held + 1 < r.capacity
  | Producer.storeHead item nhead =>
      nhead = (r.head + 1) % r.capacity ∧ r.held + 1 < r.capacity ∧
        r.buffer.cell r.head = item

/--
A drain that found `n` items and has copied some of them.  The range is one
loop, or the loop to the end of the block followed by the loop from its start.
-/
def Cursor (capacity tail copied n i limit : Nat) (wraps : Bool) (head : Nat) :
    Prop :=
  head < capacity ∧
    if wraps then
      limit = capacity ∧ i = tail + copied ∧ i <= capacity ∧
        tail + n = capacity + head
    else
      limit = head ∧ i <= head ∧
        ((tail + copied = i ∧ tail + n = head) ∨
          (tail + copied = capacity + i ∧ tail + n = capacity + head))

def ConsumerInv (r : Ringbuff T) (copied : Nat) : Consumer T -> Prop
  | Consumer.idle | Consumer.popped _ | Consumer.drained
  | Consumer.popLoadTail _ | Consumer.drainLoadHead => copied = 0
  | Consumer.popLoadHead _ tail => copied = 0 ∧ tail = r.tail
  | Consumer.popRead _ tail => copied = 0 ∧ tail = r.tail ∧ 0 < r.held
  | Consumer.popStoreTail _ tail => copied = 1 ∧ tail = r.tail
  | Consumer.drainLoadTail head =>
      copied = 0 ∧ exists n, n <= r.held ∧ head = (r.tail + n) % r.capacity
  | Consumer.copyLoop i limit wraps head =>
      exists n, n <= r.held ∧
        Cursor r.capacity r.tail copied n i limit wraps head

structure Inv (s : Spsc T) : Prop where
  valid : s.ring.Valid
  producer : ProducerInv s.ring s.producer
  consumer : ConsumerInv s.ring s.copied s.consumer
  copied_le : s.copied <= s.ring.held
  flow : s.published = s.obtained ++ s.unread

theorem start_inv (cell : Nat -> T) {size : Nat} (hsize : size <= 2 ^ 63) :
    Inv (start cell size) where
  valid := new_valid cell hsize
  producer := trivial
  consumer := rfl
  copied_le := Nat.zero_le _
  flow := by
    have hempty := new_contents cell size
    show [] = [] ++ (start cell size).unread
    rw [List.nil_append]
    exact hempty.symm

/-!
# The drain cursor
-/

namespace Cursor

variable {capacity tail copied n i limit head : Nat} {wraps : Bool}

theorem slot_eq (h : Cursor capacity tail copied n i limit wraps head)
    (hlt : i < limit) :
    copied < n ∧ i = (tail + copied) % capacity := by
  rcases h with ⟨hhead, hrange⟩
  cases wraps with
  | true =>
      rcases hrange with ⟨hlimit, hi, hle, hn⟩
      refine ⟨by omega, ?_⟩
      rw [<- hi, Nat.mod_eq_of_lt (by omega)]
  | false =>
      rcases hrange with ⟨hlimit, hle, hdirect | hwrapped⟩
      · refine ⟨by omega, ?_⟩
        rw [hdirect.left, Nat.mod_eq_of_lt (by omega)]
      · refine ⟨by omega, ?_⟩
        rw [hwrapped.left, Nat.add_mod_left, Nat.mod_eq_of_lt (by omega)]

theorem advance (h : Cursor capacity tail copied n i limit wraps head)
    (hlt : i < limit) :
    Cursor capacity tail (copied + 1) n (i + 1) limit wraps head := by
  rcases h with ⟨hhead, hrange⟩
  refine ⟨hhead, ?_⟩
  cases wraps with
  | true =>
      rcases hrange with ⟨hlimit, hi, hle, hn⟩
      exact ⟨hlimit, by omega, by omega, hn⟩
  | false =>
      rcases hrange with ⟨hlimit, hle, hdirect | hwrapped⟩
      · exact ⟨hlimit, by omega, Or.inl ⟨by omega, hdirect.right⟩⟩
      · exact ⟨hlimit, by omega, Or.inr ⟨by omega, hwrapped.right⟩⟩

theorem wrap (h : Cursor capacity tail copied n i limit true head)
    (hend : ¬ i < limit) :
    Cursor capacity tail copied n 0 head false head := by
  rcases h with ⟨hhead, hlimit, hi, hle, hn⟩
  exact ⟨hhead, rfl, Nat.zero_le head, Or.inr ⟨by omega, hn⟩⟩

theorem finish (h : Cursor capacity tail copied n i limit false head)
    (hend : ¬ i < limit) :
    copied = n ∧ head = (tail + n) % capacity := by
  rcases h with ⟨hhead, hlimit, hle, hdirect | hwrapped⟩
  · refine ⟨by omega, ?_⟩
    rw [hdirect.right, Nat.mod_eq_of_lt hhead]
  · refine ⟨by omega, ?_⟩
    rw [hwrapped.right, Nat.add_mod_left, Nat.mod_eq_of_lt hhead]

theorem start (htail : tail < capacity) (hn : n < capacity)
    (hhead : head = (tail + n) % capacity) (hne : tail ≠ head) :
    if tail < head then Cursor capacity tail 0 n tail head false head
    else Cursor capacity tail 0 n tail capacity true head := by
  have hlt : head < capacity := by
    rw [hhead]
    exact Nat.mod_lt _ (Nat.lt_of_le_of_lt (Nat.zero_le _) htail)
  have hdist : distance capacity tail head = n := by
    rw [hhead]
    exact distance_add htail hn
  rw [distance_eq htail hlt] at hdist
  split
  · rw [if_pos (by omega)] at hdist
    exact ⟨hlt, rfl, by omega, Or.inl ⟨rfl, by omega⟩⟩
  · rw [if_neg (by omega)] at hdist
    exact ⟨hlt, rfl, rfl, by omega, by omega⟩

theorem toRead_mem (h : Cursor capacity tail copied n i limit wraps head)
    {slot : Nat}
    (hslot : slot ∈ List.range' i (limit - i) ++
      if wraps then List.range head else []) :
    exists j, j < n ∧ slot = (tail + j) % capacity := by
  rcases h with ⟨hhead, hrange⟩
  cases wraps with
  | true =>
      rcases hrange with ⟨hlimit, hi, hle, hn⟩
      rw [if_pos rfl, List.mem_append, List.mem_range'_1, List.mem_range]
        at hslot
      cases hslot with
      | inl hfirst =>
          refine ⟨slot - tail, by omega, ?_⟩
          rw [Nat.mod_eq_of_lt (by omega)]
          omega
      | inr hsecond =>
          refine ⟨capacity + slot - tail, by omega, ?_⟩
          rw [show tail + (capacity + slot - tail) = capacity + slot by omega,
            Nat.add_mod_left, Nat.mod_eq_of_lt (by omega)]
  | false =>
      rw [if_neg Bool.false_ne_true, List.append_nil, List.mem_range'_1]
        at hslot
      rcases hrange with ⟨hlimit, hle, hdirect | hwrapped⟩
      · refine ⟨slot - tail, by omega, ?_⟩
        rw [Nat.mod_eq_of_lt (by omega)]
        omega
      · refine ⟨capacity + slot - tail, by omega, ?_⟩
        rw [show tail + (capacity + slot - tail) = capacity + slot by omega,
          Nat.add_mod_left, Nat.mod_eq_of_lt (by omega)]

end Cursor

/-!
# Steps of one thread keep what the other one knows
-/

theorem ProducerInv.frame {r r' : Ringbuff T} {p : Producer T}
    (h : ProducerInv r p) (hcap : r'.capacity = r.capacity)
    (hhead : r'.head = r.head) (hheld : r'.held <= r.held)
    (hcell : r'.buffer.cell r.head = r.buffer.cell r.head) :
    ProducerInv r' p := by
  cases p with
  | idle => trivial
  | loadHead item => trivial
  | returned ok => trivial
  | loadTail item head =>
      exact Eq.trans h hhead.symm
  | write item head nhead =>
      rcases h with ⟨hlocal, hnext, hroom⟩
      rw [<- hhead, <- hcap] at hnext
      exact ⟨hlocal.trans hhead.symm, hnext, by omega⟩
  | storeHead item nhead =>
      rcases h with ⟨hnext, hroom, hitem⟩
      rw [<- hhead, <- hcap] at hnext
      rw [<- hcell, <- hhead] at hitem
      exact ⟨hnext, by omega, hitem⟩

theorem ConsumerInv.frame {r r' : Ringbuff T} {copied : Nat} {c : Consumer T}
    (h : ConsumerInv r copied c) (hcap : r'.capacity = r.capacity)
    (htail : r'.tail = r.tail) (hheld : r.held <= r'.held) :
    ConsumerInv r' copied c := by
  cases c with
  | idle => exact h
  | popped result => exact h
  | drained => exact h
  | popLoadTail move => exact h
  | drainLoadHead => exact h
  | popLoadHead move tail =>
      exact ⟨h.left, h.right.trans htail.symm⟩
  | popRead move tail =>
      rcases h with ⟨hcopied, hlocal, hpos⟩
      exact ⟨hcopied, hlocal.trans htail.symm, Nat.lt_of_lt_of_le hpos hheld⟩
  | popStoreTail item tail =>
      exact ⟨h.left, h.right.trans htail.symm⟩
  | drainLoadTail head =>
      rcases h with ⟨hcopied, n, hn, hhead⟩
      rw [<- htail, <- hcap] at hhead
      exact ⟨hcopied, n, Nat.le_trans hn hheld, hhead⟩
  | copyLoop i limit wraps head =>
      rcases h with ⟨n, hn, hcursor⟩
      rw [<- htail, <- hcap] at hcursor
      exact ⟨n, Nat.le_trans hn hheld, hcursor⟩

/-!
# Producer
-/

namespace Inv

variable {s s' : Spsc T}

theorem slot_ne_head (h : Inv s) {j : Nat} (hj : j < s.ring.held) :
    (s.ring.tail + j) % s.ring.capacity ≠ s.ring.head := by
  have hheld := h.valid.held_lt
  rw [<- h.valid.tail_add_held]
  exact add_mod_ne hj (by omega)

theorem write_inv (h : Inv s) {item : T} {head nhead : Nat} {buffer : Cells T}
    (hp : s.producer = Producer.write item head nhead)
    (hwrite : s.ring.buffer.write head item = some buffer) :
    Inv { s with
      ring := { s.ring with buffer := buffer }
      producer := Producer.storeHead item nhead } := by
  have hlocal := h.producer
  rw [hp] at hlocal
  rcases hlocal with ⟨hhead, hnext, hroom⟩
  subst hhead
  have hfit : s.ring.head < s.ring.buffer.size := h.valid.block ▸ h.valid.head_lt
  rw [Cells.write_eq_some item hfit] at hwrite
  cases hwrite
  exact {
    valid := { h.valid with }
    producer := ⟨hnext, hroom, Function.update_self _ _ _⟩
    consumer := h.consumer.frame rfl rfl (Nat.le_refl _)
    copied_le := h.copied_le
    flow := by
      have hframe : window (Function.update s.ring.buffer.cell s.ring.head item)
          s.ring.capacity (s.ring.tail + s.copied) (s.ring.held - s.copied) =
            s.unread := by
        apply window_update_of_ne
        intro j hj
        rw [Nat.add_assoc]
        exact h.slot_ne_head (by omega)
      show s.published = s.obtained ++ window _ _ _ _
      rw [h.flow, <- hframe]
      rfl }

theorem storeHead_inv (h : Inv s) {item : T} {nhead : Nat}
    (hp : s.producer = Producer.storeHead item nhead) :
    Inv { s with
      ring := { s.ring with head := nhead }
      producer := Producer.returned true
      published := s.published ++ [item] } := by
  have hlocal := h.producer
  rw [hp] at hlocal
  rcases hlocal with ⟨hnext, hroom, hitem⟩
  subst hnext
  have hcopied := h.copied_le
  have hheld : distance s.ring.capacity s.ring.tail
      ((s.ring.head + 1) % s.ring.capacity) = s.ring.held + 1 :=
    h.valid.distance_head_succ hroom
  exact {
    valid := { h.valid with head_lt := Nat.mod_lt _ h.valid.capacity_pos }
    producer := trivial
    consumer := h.consumer.frame rfl rfl (by
      show s.ring.held <= distance _ _ _
      rw [hheld]
      exact Nat.le_succ _)
    copied_le := by
      show s.copied <= distance _ _ _
      rw [hheld]
      exact Nat.le_succ_of_le hcopied
    flow := by
      show s.published ++ [item] = s.obtained ++ window s.ring.buffer.cell
        s.ring.capacity (s.ring.tail + s.copied) (distance _ _ _ - s.copied)
      rw [hheld, Nat.succ_sub hcopied, window_snoc, Nat.add_assoc,
        Nat.add_sub_cancel' hcopied, h.valid.tail_add_held, hitem, h.flow,
        List.append_assoc]
      rfl }

theorem produce_inv (h : Inv s) (hstep : s.produce = some s') : Inv s' := by
  have hlocal := h.producer
  cases produce_iff.mp hstep with
  | loadsHead item hp => exact { h with producer := rfl }
  | fails item head hp hfull => exact { h with producer := trivial }
  | finds item head hp hroom =>
      rw [hp] at hlocal
      have hhead : head = s.ring.head := hlocal
      subst hhead
      have hnotfull : s.ring.held ≠ s.ring.capacity - 1 :=
        fun heq => hroom (h.valid.next_head_eq_tail_iff.mpr heq)
      have hlt := h.valid.held_lt
      exact { h with producer := ⟨rfl, h.valid.next_eq h.valid.head_lt, by
        show s.ring.held + 1 < s.ring.capacity
        omega⟩ }
  | writes item head nhead buffer hp hwrite => exact h.write_inv hp hwrite
  | stores item nhead hp => exact h.storeHead_inv hp

/-!
# Consumer
-/

theorem obtain_inv (h : Inv s) {left : T -> T} {i : Nat}
    {after : T -> Consumer T} (hlt : s.copied < s.ring.held)
    (hslot : i = (s.ring.tail + s.copied) % s.ring.capacity)
    (hafter : forall x, ConsumerInv s.ring (s.copied + 1) (after x))
    (hstep : s.obtain left i after = some s') : Inv s' := by
  have hheld := h.valid.held_lt
  have hfit : i < s.ring.buffer.size := by
    rw [h.valid.block, hslot]
    exact Nat.mod_lt _ h.valid.capacity_pos
  have hhead : s.ring.head ≠ i := by
    rw [hslot]
    exact fun heq => h.slot_ne_head hlt heq.symm
  rcases obtain_eq_some.mp hstep with ⟨buffer, x, htake, hs'⟩
  rw [Cells.take_eq_some left hfit] at htake
  cases htake
  subst hs'
  exact {
    valid := { h.valid with }
    producer := h.producer.frame rfl rfl (Nat.le_refl _)
      (Function.update_of_ne hhead _ _)
    consumer := (hafter _).frame rfl rfl (Nat.le_refl _)
    copied_le := hlt
    flow := by
      have hrest : window
          (Function.update s.ring.buffer.cell
            ((s.ring.tail + s.copied) % s.ring.capacity)
            (left (s.ring.buffer.cell i)))
          s.ring.capacity (s.ring.tail + s.copied + 1)
          (s.ring.held - (s.copied + 1)) =
        window s.ring.buffer.cell s.ring.capacity
          (s.ring.tail + s.copied + 1) (s.ring.held - (s.copied + 1)) :=
        window_update_start _ _ (by omega)
      have hfirst : s.unread = s.ring.buffer.cell i ::
          window s.ring.buffer.cell s.ring.capacity
            (s.ring.tail + s.copied + 1) (s.ring.held - (s.copied + 1)) := by
        unfold unread
        rw [show s.ring.held - s.copied = s.ring.held - (s.copied + 1) + 1
          by omega, window_cons, window_mod_start, <- hslot]
      rw [<- hslot] at hrest
      rw [h.flow, hfirst, <- hrest, List.append_cons]
      rfl }

theorem release_inv (h : Inv s) {tail : Nat} {after : Consumer T}
    (htail : tail = (s.ring.tail + s.copied) % s.ring.capacity)
    (hafter : ConsumerInv { s.ring with tail := tail } 0 after) :
    Inv (s.release tail after) := by
  have hheld : distance s.ring.capacity tail s.ring.head =
      s.ring.held - s.copied := by
    rw [htail]
    exact h.valid.distance_tail_add h.copied_le
  exact {
    valid := { h.valid with
      tail_lt := by
        show tail < s.ring.capacity
        rw [htail]
        exact Nat.mod_lt _ h.valid.capacity_pos }
    producer := h.producer.frame rfl rfl (by
      show distance s.ring.capacity tail s.ring.head <= s.ring.held
      rw [hheld]
      exact Nat.sub_le _ _) rfl
    consumer := hafter
    copied_le := Nat.zero_le _
    flow := by
      show s.published = s.obtained ++ window s.ring.buffer.cell
        s.ring.capacity (tail + 0) (distance s.ring.capacity tail s.ring.head - 0)
      rw [hheld, h.flow, htail, Nat.add_zero, Nat.sub_zero, window_mod_start]
      rfl }

theorem drain_cursor (h : Inv s) {head : Nat}
    (hc : s.consumer = Consumer.drainLoadTail head)
    (hitems : s.ring.tail ≠ head) :
    exists n, n <= s.ring.held ∧
      if s.ring.tail < head then
        Cursor s.ring.capacity s.ring.tail s.copied n s.ring.tail head false
          head
      else
        Cursor s.ring.capacity s.ring.tail s.copied n s.ring.tail
          s.ring.capacity true head := by
  have hlocal := h.consumer
  rw [hc] at hlocal
  rcases hlocal with ⟨hcopied, n, hn, hhead⟩
  refine ⟨n, hn, ?_⟩
  rw [hcopied]
  exact Cursor.start h.valid.tail_lt
    (Nat.lt_of_le_of_lt hn h.valid.held_lt) hhead hitems

theorem consume_inv (h : Inv s) {moved : T -> T}
    (hstep : s.consume moved = some s') : Inv s' := by
  have hlocal := h.consumer
  cases consume_iff.mp hstep with
  | loadsTail move hc =>
      rw [hc] at hlocal
      exact { h with consumer := ⟨hlocal, rfl⟩ }
  | fails move tail hc hempty =>
      rw [hc] at hlocal
      exact { h with consumer := hlocal.left }
  | finds move tail hc hitem =>
      rw [hc] at hlocal
      rw [hlocal.right] at hitem
      have hpos : s.ring.held ≠ 0 :=
        fun heq => hitem (h.valid.held_eq_zero_iff.mp heq)
      exact { h with consumer :=
        ⟨hlocal.left, hlocal.right, Nat.pos_of_ne_zero hpos⟩ }
  | reads move tail t hc hobtain =>
      rw [hc] at hlocal
      rcases hlocal with ⟨hcopied, htail, hpos⟩
      have hslot : tail = (s.ring.tail + s.copied) % s.ring.capacity := by
        rw [hcopied, htail, Nat.add_zero, Nat.mod_eq_of_lt h.valid.tail_lt]
      refine h.obtain_inv ?_ hslot ?_ hobtain
      · rw [hcopied]
        exact hpos
      · intro x
        exact ⟨by rw [hcopied], htail⟩
  | stores item tail hc =>
      rw [hc] at hlocal
      rcases hlocal with ⟨hcopied, htail⟩
      refine h.release_inv ?_ rfl
      rw [htail, hcopied, h.valid.next_eq h.valid.tail_lt]
  | drainsHead hc =>
      rw [hc] at hlocal
      exact { h with consumer :=
        ⟨hlocal, s.ring.held, Nat.le_refl _, h.valid.tail_add_held.symm⟩ }
  | drainsNothing head hc hempty =>
      rw [hc] at hlocal
      exact { h with consumer := hlocal.left }
  | drainsRange head hc hitems hlt =>
      rcases h.drain_cursor hc hitems with ⟨n, hn, hcursor⟩
      rw [if_pos hlt] at hcursor
      exact { h with consumer := ⟨n, hn, hcursor⟩ }
  | drainsAround head hc hitems hge =>
      rcases h.drain_cursor hc hitems with ⟨n, hn, hcursor⟩
      rw [if_neg hge] at hcursor
      exact { h with consumer := ⟨n, hn, hcursor⟩ }
  | copies i limit wraps head t hc hlt hobtain =>
      rw [hc] at hlocal
      rcases hlocal with ⟨n, hn, hcursor⟩
      have hslot := hcursor.slot_eq hlt
      have hafter : ConsumerInv s.ring (s.copied + 1)
          (Consumer.copyLoop (i + 1) limit wraps head : Consumer T) :=
        ⟨n, hn, hcursor.advance hlt⟩
      exact h.obtain_inv (Nat.lt_of_lt_of_le hslot.left hn) hslot.right
        (fun _ => hafter) hobtain
  | wraps i limit head hc hend =>
      rw [hc] at hlocal
      rcases hlocal with ⟨n, hn, hcursor⟩
      exact { h with consumer := ⟨n, hn, hcursor.wrap hend⟩ }
  | ends i limit head hc hend =>
      rw [hc] at hlocal
      rcases hlocal with ⟨n, hn, hcursor⟩
      have hdone := hcursor.finish hend
      rw [<- hdone.left] at hdone
      exact h.release_inv hdone.right rfl

/-!
# Runs
-/

theorem callPush_inv (h : Inv s) {item : T}
    (hstep : s.callPush item = some s') : Inv s' := by
  rw [callPush_eq hstep]
  exact { h with producer := trivial }

theorem callConsumer_eq (h : Inv s) {entry : Consumer T}
    (hstep : s.callConsumer entry = some s') :
    s.copied = 0 ∧ s' = { s with consumer := entry } := by
  have hlocal := h.consumer
  cases hc : s.consumer with
  | idle =>
      rw [hc] at hlocal
      simp only [callConsumer, hc, Option.some.injEq] at hstep
      exact ⟨hlocal, hstep.symm⟩
  | popped result =>
      rw [hc] at hlocal
      simp only [callConsumer, hc, Option.some.injEq] at hstep
      exact ⟨hlocal, hstep.symm⟩
  | drained =>
      rw [hc] at hlocal
      simp only [callConsumer, hc, Option.some.injEq] at hstep
      exact ⟨hlocal, hstep.symm⟩
  | _ =>
      simp [callConsumer, hc] at hstep

theorem callConsumer_inv (h : Inv s) {entry : Consumer T}
    (hentry : ConsumerInv s.ring 0 entry)
    (hstep : s.callConsumer entry = some s') : Inv s' := by
  rcases h.callConsumer_eq hstep with ⟨hcopied, hs'⟩
  subst hs'
  rw [<- hcopied] at hentry
  exact { h with consumer := hentry }

theorem step_inv (h : Inv s) {moved : T -> T} {a : Action T}
    (hstep : step moved s a = some s') : Inv s' := by
  have hpop : forall move,
      ConsumerInv s.ring 0 (Consumer.popLoadTail move : Consumer T) :=
    fun _ => rfl
  have hdrain : ConsumerInv s.ring 0 (Consumer.drainLoadHead : Consumer T) :=
    rfl
  cases a with
  | push item => exact h.callPush_inv hstep
  | pushMove item => exact h.callPush_inv hstep
  | pop => exact h.callConsumer_inv (hpop false) hstep
  | popMove => exact h.callConsumer_inv (hpop true) hstep
  | swapToList => exact h.callConsumer_inv hdrain hstep
  | swapToVector => exact h.callConsumer_inv hdrain hstep
  | produce => exact h.produce_inv hstep
  | consume => exact h.consume_inv hstep

theorem produce_enabled (h : Inv s)
    (hbusy : s.producer ≠ Producer.idle ∧
      forall ok, s.producer ≠ Producer.returned ok) :
    s.produce.isSome = true := by
  have hlocal := h.producer
  cases hp : s.producer with
  | idle => exact absurd hp hbusy.left
  | returned ok => exact absurd hp (hbusy.right ok)
  | loadHead item => simp [produce, hp]
  | loadTail item head =>
      simp only [produce, hp]
      split <;> rfl
  | write item head nhead =>
      rw [hp] at hlocal
      have hfit : head < s.ring.buffer.size := by
        rw [hlocal.left, h.valid.block]
        exact h.valid.head_lt
      simp [produce, hp, Cells.write_eq_some item hfit]
  | storeHead item nhead => simp [produce, hp]

theorem obtain_enabled (h : Inv s) {left : T -> T} {j : Nat}
    {after : T -> Consumer T} :
    (s.obtain left ((s.ring.tail + j) % s.ring.capacity) after).isSome =
      true := by
  have hfit : (s.ring.tail + j) % s.ring.capacity < s.ring.buffer.size := by
    rw [h.valid.block]
    exact Nat.mod_lt _ h.valid.capacity_pos
  simp [obtain, Cells.take_eq_some left hfit]

theorem consume_enabled (h : Inv s) (moved : T -> T)
    (hbusy : s.consumer ≠ Consumer.idle ∧ s.consumer ≠ Consumer.drained ∧
      forall result, s.consumer ≠ Consumer.popped result) :
    (s.consume moved).isSome = true := by
  have hlocal := h.consumer
  cases hc : s.consumer with
  | idle => exact absurd hc hbusy.left
  | drained => exact absurd hc hbusy.right.left
  | popped result => exact absurd hc (hbusy.right.right result)
  | popLoadTail move => simp [consume, hc]
  | popLoadHead move tail =>
      simp only [consume, hc]
      split <;> rfl
  | popRead move tail =>
      rw [hc] at hlocal
      have hslot : tail = (s.ring.tail + 0) % s.ring.capacity := by
        rw [hlocal.right.left, Nat.add_zero, Nat.mod_eq_of_lt h.valid.tail_lt]
      simp only [consume, hc]
      rw [hslot]
      exact h.obtain_enabled
  | popStoreTail item tail => simp [consume, hc]
  | drainLoadHead => simp [consume, hc]
  | drainLoadTail head =>
      simp only [consume, hc]
      split
      · rfl
      · split <;> rfl
  | copyLoop i limit wraps head =>
      rw [hc] at hlocal
      rcases hlocal with ⟨n, hn, hcursor⟩
      simp only [consume, hc]
      split
      · rename_i hlt
        rw [(hcursor.slot_eq hlt).right]
        exact h.obtain_enabled
      · split <;> rfl

theorem toRead_mem (h : Inv s) {slot : Nat} (hslot : slot ∈ s.toRead) :
    exists j, j < s.ring.held ∧
      slot = (s.ring.tail + j) % s.ring.capacity := by
  have hlocal := h.consumer
  unfold toRead at hslot
  split at hslot
  · rename_i move tail hc
    rw [hc] at hlocal
    refine ⟨0, hlocal.right.right, ?_⟩
    rw [List.mem_singleton.mp hslot, hlocal.right.left, Nat.add_zero,
      Nat.mod_eq_of_lt h.valid.tail_lt]
  · rename_i i limit wraps head hc
    rw [hc] at hlocal
    rcases hlocal with ⟨n, hn, hcursor⟩
    rcases hcursor.toRead_mem hslot with ⟨j, hj, hmod⟩
    exact ⟨j, Nat.lt_of_lt_of_le hj hn, hmod⟩
  · cases hslot

theorem full_of_returned_false (h : Inv s) (hstep : s.produce = some s')
    (hfalse : s'.producer = Producer.returned false) :
    (exists item head, s.producer = Producer.loadTail item head) ∧
      s.ring.held = s.ring.capacity - 1 := by
  have hlocal := h.producer
  cases produce_iff.mp hstep with
  | fails item head hp hfull =>
      rw [hp] at hlocal
      have hhead : head = s.ring.head := hlocal
      rw [hhead] at hfull
      exact ⟨⟨item, head, hp⟩, h.valid.next_head_eq_tail_iff.mp hfull⟩
  | _ => cases hfalse

theorem empty_of_popped_none (h : Inv s) {moved : T -> T}
    (hstep : s.consume moved = some s')
    (hnone : s'.consumer = Consumer.popped none) :
    (exists move tail, s.consumer = Consumer.popLoadHead move tail) ∧
      s.ring.held = 0 := by
  have hlocal := h.consumer
  cases consume_iff.mp hstep with
  | fails move tail hc hempty =>
      rw [hc] at hlocal
      rw [hlocal.right] at hempty
      exact ⟨⟨move, tail, hc⟩, h.valid.held_eq_zero_iff.mpr hempty⟩
  | reads move tail t hc hobtain =>
      rcases obtain_eq_some.mp hobtain with ⟨buffer, x, _, hs'⟩
      subst hs'
      cases hnone
  | copies i limit wraps head t hc hlt hobtain =>
      rcases obtain_eq_some.mp hobtain with ⟨buffer, x, _, hs'⟩
      subst hs'
      cases hnone
  | _ => cases hnone

end Inv

theorem run_inv (moved : T -> T) (cell : Nat -> T) {size : Nat}
    (hsize : size <= 2 ^ 63) {acts : List (Action T)} {s : Spsc T}
    (hrun : StepFn.run (step moved) (start cell size) acts = some s) :
    Inv s := by
  have hpres : forall s a s', Inv s -> step moved s a = some s' -> Inv s' := by
    intro s a s' h hstep
    exact h.step_inv hstep
  exact StepFn.run_invariant hpres (start_inv cell hsize) hrun

/-!
# Frames

What a step of one thread leaves alone, without any invariant.
-/

theorem produce_frame {s s' : Spsc T} (hstep : s.produce = some s') :
    s'.consumer = s.consumer ∧ s'.obtained = s.obtained := by
  cases produce_iff.mp hstep <;> exact ⟨rfl, rfl⟩

theorem obtain_frame {s s' : Spsc T} {left : T -> T} {i : Nat}
    {after : T -> Consumer T} (hstep : s.obtain left i after = some s') :
    s'.producer = s.producer ∧ s'.published = s.published ∧
      exists x, s'.obtained = s.obtained ++ [x] ∧ s'.consumer = after x := by
  rcases obtain_eq_some.mp hstep with ⟨buffer, x, _, hs'⟩
  subst hs'
  exact ⟨rfl, rfl, x, rfl, rfl⟩

theorem consume_frame {s s' : Spsc T} {moved : T -> T}
    (hstep : s.consume moved = some s') :
    s'.producer = s.producer ∧ s'.published = s.published ∧
      s.obtained <+: s'.obtained := by
  have hobtained : forall {left : T -> T} {i : Nat} {after : T -> Consumer T},
      s.obtain left i after = some s' ->
        s'.producer = s.producer ∧ s'.published = s.published ∧
          s.obtained <+: s'.obtained := by
    intro left i after h
    rcases obtain_frame h with ⟨hproducer, hpublished, x, hobtained, _⟩
    exact ⟨hproducer, hpublished, ⟨[x], hobtained.symm⟩⟩
  cases consume_iff.mp hstep with
  | reads move tail t hc hobtain => exact hobtained hobtain
  | copies i limit wraps head t hc hlt hobtain => exact hobtained hobtain
  | _ => exact ⟨rfl, rfl, List.prefix_rfl⟩

/-!
# What a pop returns
-/

def HandsLast (s : Spsc T) : Prop :=
  match s.consumer with
  | Consumer.popStoreTail item _ | Consumer.popped (some item) =>
      s.obtained.getLast? = some item
  | _ => True

theorem HandsLast.frame {s s' : Spsc T} (h : HandsLast s)
    (hconsumer : s'.consumer = s.consumer)
    (hobtained : s'.obtained = s.obtained) : HandsLast s' := by
  unfold HandsLast at h ⊢
  rw [hconsumer, hobtained]
  exact h

theorem HandsLast.consume {s s' : Spsc T} {moved : T -> T} (h : HandsLast s)
    (hstep : s.consume moved = some s') : HandsLast s' := by
  cases consume_iff.mp hstep with
  | reads move tail t hc hobtain =>
      rcases obtain_frame hobtain with ⟨_, _, x, hobtained, hconsumer⟩
      unfold HandsLast
      rw [hconsumer, hobtained]
      exact List.getLast?_concat
  | stores item tail hc =>
      unfold HandsLast at h
      rw [hc] at h
      exact h
  | copies i limit wraps head t hc hlt hobtain =>
      rcases obtain_frame hobtain with ⟨_, _, x, _, hconsumer⟩
      unfold HandsLast
      rw [hconsumer]
      trivial
  | _ => trivial

theorem HandsLast.step {s s' : Spsc T} {moved : T -> T} (h : HandsLast s)
    {a : Action T} (hstep : Spsc.step moved s a = some s') :
    HandsLast s' := by
  cases a with
  | push item | pushMove item =>
      rw [callPush_eq hstep]
      exact h.frame rfl rfl
  | pop | popMove | swapToList | swapToVector =>
      rw [callConsumer_eq hstep]
      trivial
  | produce =>
      have hframe := produce_frame hstep
      exact h.frame hframe.left hframe.right
  | consume => exact h.consume hstep

theorem run_handsLast (moved : T -> T) (cell : Nat -> T) (size : Nat)
    {acts : List (Action T)} {s : Spsc T}
    (hrun : StepFn.run (step moved) (start cell size) acts = some s) :
    HandsLast s := by
  have hstart : HandsLast (start cell size) := trivial
  exact StepFn.run_invariant (fun _ _ _ h hstep => HandsLast.step h hstep)
    hstart hrun

/-!
# A block without cells

For sizes above `2 ^ 63` the capacity is 0.  The ring buffer then looks neither
full nor empty of room, and the first push writes outside the block.
-/

structure NoCells (s : Spsc T) : Prop where
  capacity_eq : s.ring.capacity = 0
  block : s.ring.buffer.size = 0
  head_eq : s.ring.head = 0
  tail_eq : s.ring.tail = 0
  producer :
    match s.producer with
    | Producer.idle | Producer.loadHead _ | Producer.write _ _ _ => True
    | Producer.loadTail _ head => head = 0
    | _ => False
  consumer :
    match s.consumer with
    | Consumer.idle | Consumer.popLoadTail _ | Consumer.popped none => True
    | Consumer.popLoadHead _ tail => tail = 0
    | _ => False

theorem start_noCells (cell : Nat -> T) {size : Nat} (hlt : size < SIZE_T)
    (hsize : 2 ^ 63 < size) : NoCells (start cell size) where
  capacity_eq := adjSize_zero_of_lt hlt hsize
  block := adjSize_zero_of_lt hlt hsize
  head_eq := rfl
  tail_eq := rfl
  producer := trivial
  consumer := trivial

namespace NoCells

variable {s s' : Spsc T}

theorem callPush_noCells (h : NoCells s) {item : T}
    (hstep : s.callPush item = some s') : NoCells s' := by
  rw [callPush_eq hstep]
  exact { h with producer := trivial }

theorem callPop_noCells (h : NoCells s) {move : Bool}
    (hstep : s.callConsumer (Consumer.popLoadTail move) = some s') :
    NoCells s' := by
  rw [callConsumer_eq hstep]
  exact { h with consumer := trivial }

theorem produce_noCells (h : NoCells s) (hstep : s.produce = some s') :
    NoCells s' := by
  have hproducer := h.producer
  cases produce_iff.mp hstep with
  | loadsHead item hp => exact { h with producer := h.head_eq }
  | fails item head hp hfull =>
      simp only [hp] at hproducer
      rw [h.capacity_eq, h.tail_eq, hproducer] at hfull
      exact absurd hfull (by decide)
  | finds item head hp hroom => exact { h with producer := trivial }
  | writes item head nhead buffer hp hwrite =>
      simp [Cells.write, h.block] at hwrite
  | stores item nhead hp =>
      simp only [hp] at hproducer

theorem consume_noCells (h : NoCells s) {moved : T -> T}
    (hstep : s.consume moved = some s') : NoCells s' := by
  have hconsumer := h.consumer
  cases consume_iff.mp hstep with
  | loadsTail move hc => exact { h with consumer := h.tail_eq }
  | fails move tail hc hempty => exact { h with consumer := trivial }
  | finds move tail hc hitem =>
      simp only [hc] at hconsumer
      exact absurd (hconsumer.trans h.head_eq.symm) hitem
  | reads move tail t hc hobtain => simp only [hc] at hconsumer
  | stores item tail hc => simp only [hc] at hconsumer
  | drainsHead hc => simp only [hc] at hconsumer
  | drainsNothing head hc hempty => simp only [hc] at hconsumer
  | drainsRange head hc hitems hlt => simp only [hc] at hconsumer
  | drainsAround head hc hitems hge => simp only [hc] at hconsumer
  | copies i limit wraps head t hc hlt hobtain =>
      simp only [hc] at hconsumer
  | wraps i limit head hc hend => simp only [hc] at hconsumer
  | ends i limit head hc hend => simp only [hc] at hconsumer

end NoCells

/-!
# Safety
-/

/--
In every state that any interleaving of the two threads reaches: what the
consumer has obtained followed by the cells from tail to head that it has not
copied yet is what the producer has published; a cell about to be written is
none of those from tail to head and none that the consumer is still to read; a
push fails only on a full queue and a pop only on an empty one; and what a pop
returns is the item that has been obtained last.
-/
theorem spsc_safe (moved : T -> T) (cell : Nat -> T) (size : Nat)
    (hsize : size <= 2 ^ 63) (acts : List (Action T)) (s : Spsc T)
    (hrun : StepFn.run (step moved) (start cell size) acts = some s) :
    s.obtained <+: s.published ∧
      s.published = s.obtained ++
        window s.ring.buffer.cell s.ring.capacity (s.ring.tail + s.copied)
          (s.ring.held - s.copied) ∧
      (forall item head nhead,
        s.producer = Producer.write item head nhead ->
          (forall j, j < s.ring.held ->
            head ≠ (s.ring.tail + j) % s.ring.capacity) ∧
          forall slot, slot ∈ s.toRead -> head ≠ slot) ∧
      (forall s', s.produce = some s' ->
        s'.producer = Producer.returned false ->
          (exists item head, s.producer = Producer.loadTail item head) ∧
            s.ring.held = s.ring.capacity - 1) ∧
      (forall s', s.consume moved = some s' ->
        s'.consumer = Consumer.popped none ->
          (exists move tail, s.consumer = Consumer.popLoadHead move tail) ∧
            s.ring.held = 0) ∧
      forall item, s.consumer = Consumer.popped (some item) ->
        s.obtained.getLast? = some item := by
  have h : Inv s := run_inv moved cell hsize hrun
  refine ⟨⟨s.unread, h.flow.symm⟩, h.flow, ?_, ?_, ?_, ?_⟩
  · intro item head nhead hp
    have hlocal := h.producer
    rw [hp] at hlocal
    have hfree : forall j, j < s.ring.held ->
        head ≠ (s.ring.tail + j) % s.ring.capacity := by
      intro j hj heq
      exact h.slot_ne_head hj (heq.symm.trans hlocal.left)
    refine ⟨hfree, ?_⟩
    intro slot hslot
    rcases h.toRead_mem hslot with ⟨j, hj, hmod⟩
    rw [hmod]
    exact hfree j hj
  · intro s' hstep hfalse
    exact h.full_of_returned_false hstep hfalse
  · intro s' hstep hnone
    exact h.empty_of_popped_none hstep hnone
  · intro item hpopped
    have hlast := run_handsLast moved cell size hrun
    unfold HandsLast at hlast
    rw [hpopped] at hlast
    exact hlast

/-- A drain has copied one of two items while the producer is writing. -/
theorem spsc_safe_duringDrain :
    exists s,
      StepFn.run (step id) (start (fun _ => 0) 4)
          (Action.push 1 :: List.replicate 4 Action.produce ++
            Action.pushMove 2 :: List.replicate 4 Action.produce ++
            Action.swapToVector :: List.replicate 3 Action.consume ++
            Action.push 3 :: List.replicate 2 Action.produce) = some s ∧
        s.producer = Producer.write 3 2 3 ∧ s.toRead = [1] ∧
        s.published = [1, 2] ∧ s.obtained = [1] ∧
        s.obtained <+: s.published :=
  ⟨_, rfl, rfl, rfl, rfl, rfl,
    (spsc_safe id (fun _ => 0) 4 (by decide)
      (Action.push 1 :: List.replicate 4 Action.produce ++
        Action.pushMove 2 :: List.replicate 4 Action.produce ++
        Action.swapToVector :: List.replicate 3 Action.consume ++
        Action.push 3 :: List.replicate 2 Action.produce) _ rfl).left⟩

end Spsc

end Ringbuff

end MoonNet
