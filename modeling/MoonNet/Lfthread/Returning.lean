import MoonNet.Foundation.Progress
import MoonNet.Lfthread.Shutdown

/-!
# `t_shutdown` joins a worker that leaves

When `shutdown_` has been stored, the worker leaves its polling loop after the
round that it is in and takes what is left in the ring buffer.  The client puts
one more item there.  So both threads come to an end in whatever order they are
scheduled.
-/

namespace MoonNet

open Foundation
open Ringbuff

universe u

/-!
# What is left of a push and of a pop
-/

namespace Ringbuff

variable {T : Type u}

def Producer.Rests : Producer T -> Prop
  | Producer.idle | Producer.returned _ => True
  | _ => False

def Consumer.Rests : Consumer T -> Prop
  | Consumer.idle | Consumer.popped _ | Consumer.drained => True
  | _ => False

def Consumer.Pops : Consumer T -> Prop
  | Consumer.popLoadTail _ | Consumer.popLoadHead _ _ | Consumer.popRead _ _
  | Consumer.popStoreTail _ _ | Consumer.popped _ => True
  | _ => False

def Producer.stepsLeft : Producer T -> Nat
  | Producer.idle => 0
  | Producer.returned _ => 1
  | Producer.storeHead _ _ => 10
  | Producer.write _ _ _ => 11
  | Producer.loadTail _ _ => 12
  | Producer.loadHead _ => 13

namespace Spsc

variable {moved : T -> T} {b b' : Spsc T}

def waiting (b : Spsc T) : Nat :=
  b.published.length - b.obtained.length

theorem Inv.obtained_le (h : Inv b) :
    b.obtained.length <= b.published.length := by
  rw [h.flow, List.length_append]
  exact Nat.le_add_right _ _

theorem produce_left (hstep : b.produce = some b') :
    b'.producer.stepsLeft + 8 * b'.waiting <
      b.producer.stepsLeft + 8 * b.waiting := by
  unfold waiting
  cases produce_iff.mp hstep with
  | loadsHead item hp =>
      rw [hp]
      exact Nat.add_lt_add_right (Nat.lt_succ_self 12) _
  | fails item head hp hfull =>
      rw [hp]
      exact Nat.add_lt_add_right (Nat.le_of_ble_eq_true rfl) _
  | finds item head hp hroom =>
      rw [hp]
      exact Nat.add_lt_add_right (Nat.lt_succ_self 11) _
  | writes item head nhead buffer hp hwrite =>
      rw [hp]
      exact Nat.add_lt_add_right (Nat.lt_succ_self 10) _
  | stores item nhead hp =>
      rw [hp]
      show 1 + 8 * ((b.published ++ [item]).length - b.obtained.length) <
        10 + 8 * (b.published.length - b.obtained.length)
      rw [List.length_append]
      show 1 + 8 * (b.published.length + 1 - b.obtained.length) < _
      omega

theorem consume_pops (hpops : b.consumer.Pops)
    (hstep : b.consume moved = some b') : b'.consumer.Pops := by
  cases consume_iff.mp hstep with
  | reads move tail t hc hobtain =>
      rcases obtain_eq_some.mp hobtain with ⟨buffer, x, _, rfl⟩
      trivial
  | loadsTail | fails | finds | stores => trivial
  | copies i limit wraps head t hc hlt hobtain =>
      rw [hc] at hpops
      exact hpops.elim
  | drainsHead hc | drainsNothing _ hc | drainsRange _ hc
  | drainsAround _ hc | wraps _ _ _ hc | ends _ _ _ hc =>
      rw [hc] at hpops
      exact hpops.elim

/--
A measure of pops that reading a cell raises by less than eight, and that all
other accesses lower, is lowered together with the items that wait.
-/
theorem consume_left (left : Consumer T -> Nat) (h' : Inv b')
    (hpops : b.consumer.Pops)
    (htail : forall move tail, left (Consumer.popLoadHead move tail) <
      left (Consumer.popLoadTail move))
    (hnone : forall move tail, left (Consumer.popped none) <
      left (Consumer.popLoadHead move tail))
    (hfound : forall move tail, left (Consumer.popRead move tail) <
      left (Consumer.popLoadHead move tail))
    (hread : forall move tail x, left (Consumer.popStoreTail x tail) <
      left (Consumer.popRead move tail) + 8)
    (hstore : forall x tail, left (Consumer.popped (some x)) <
      left (Consumer.popStoreTail x tail))
    (hstep : b.consume moved = some b') :
    left b'.consumer + 8 * b'.waiting < left b.consumer + 8 * b.waiting := by
  unfold waiting
  cases consume_iff.mp hstep with
  | loadsTail move hc =>
      rw [hc]
      exact Nat.add_lt_add_right (htail move _) _
  | fails move tail hc hempty =>
      rw [hc]
      exact Nat.add_lt_add_right (hnone move tail) _
  | finds move tail hc hitem =>
      rw [hc]
      exact Nat.add_lt_add_right (hfound move tail) _
  | reads move tail t hc hobtain =>
      rcases obtain_eq_some.mp hobtain with ⟨buffer, x, _, rfl⟩
      have hlt := hread move tail x
      have hlength : (b.obtained ++ [x]).length = b.obtained.length + 1 :=
        List.length_append
      have hroom : (b.obtained ++ [x]).length <= b.published.length :=
        h'.obtained_le
      rw [hc]
      show left (Consumer.popStoreTail x tail) +
        8 * (b.published.length - (b.obtained ++ [x]).length) < _
      omega
  | stores item tail hc =>
      rw [hc]
      exact Nat.add_lt_add_right (hstore item tail) _
  | copies i limit wraps head t hc hlt hobtain =>
      rw [hc] at hpops
      exact hpops.elim
  | drainsHead hc | drainsNothing _ hc | drainsRange _ hc
  | drainsAround _ hc | wraps _ _ _ hc | ends _ _ _ hc =>
      rw [hc] at hpops
      exact hpops.elim

end Spsc

end Ringbuff

/-!
# The steps of both threads
-/

namespace Lfthread

variable {τ : Type u} {moved : Task τ -> Task τ} {s s' : Lfthread τ}

def Client.Pushes : Client τ -> Prop
  | Client.enqueue _ | Client.waking => True
  | _ => False

def Worker.InPop : Worker τ -> Prop
  | Worker.polling | Worker.draining => True
  | _ => False

inductive ClientStep (s : Lfthread τ) : Lfthread τ -> Prop where
  | produces (b : Spsc (Task τ)) (hc : s.client.Pushes)
      (hb : s.buffer.produce = some b) : ClientStep s { s with buffer := b }
  | returns (t : τ) (ok : Bool) (hc : s.client = Client.enqueue t)
      (hok : s.buffer.producer = Producer.returned ok) :
      ClientStep s { s with
        client := Client.running
        accepted := if ok then s.accepted ++ [t] else s.accepted }
  | tests (c : Client τ) (hc : s.client = Client.testShutdown)
      (hnext : c = Client.done ∨ c = Client.setShutdown) :
      ClientStep s { s with client := c }
  | sets (hc : s.client = Client.setShutdown) :
      ClientStep s { s with client := Client.pushWakeup, shutdown := true }
  | wakes (hc : s.client = Client.pushWakeup) :
      ClientStep s { s with
        client := Client.waking
        buffer := { s.buffer with
          producer := Producer.loadHead Task.wakeup } }
  | woken (ok : Bool) (hc : s.client = Client.waking)
      (hok : s.buffer.producer = Producer.returned ok) :
      ClientStep s { s with client := Client.join }
  | joins (hc : s.client = Client.join) (hw : s.worker = Worker.exited) :
      ClientStep s { s with client := Client.done }

theorem clientStep_cases (hstep : s.clientStep = some s') :
    ClientStep s s' := by
  cases hc : s.client with
  | running =>
      simp only [clientStep, hc] at hstep
      cases hstep
  | done =>
      simp only [clientStep, hc] at hstep
      cases hstep
  | enqueue t =>
      have hpushes : s.client.Pushes := hc ▸ trivial
      simp only [clientStep, hc] at hstep
      split at hstep
      · rename_i ok hok
        cases hstep
        exact ClientStep.returns t ok hc hok
      · rcases withBuffer_eq_some.mp hstep with ⟨b, hb, rfl⟩
        exact ClientStep.produces b hpushes hb
  | testShutdown =>
      simp only [clientStep, hc] at hstep
      split at hstep
      · cases hstep
        exact ClientStep.tests _ hc (Or.inl rfl)
      · cases hstep
        exact ClientStep.tests _ hc (Or.inr rfl)
  | setShutdown =>
      simp only [clientStep, hc, Option.some.injEq] at hstep
      subst hstep
      exact ClientStep.sets hc
  | pushWakeup =>
      simp only [clientStep, hc] at hstep
      rcases withBuffer_eq_some.mp hstep with ⟨b, hb, rfl⟩
      have heq := Spsc.callPush_eq hb
      subst heq
      exact ClientStep.wakes hc
  | waking =>
      have hpushes : s.client.Pushes := hc ▸ trivial
      simp only [clientStep, hc] at hstep
      split at hstep
      · rename_i ok hok
        cases hstep
        exact ClientStep.woken ok hc hok
      · rcases withBuffer_eq_some.mp hstep with ⟨b, hb, rfl⟩
        exact ClientStep.produces b hpushes hb
  | join =>
      simp only [clientStep, hc] at hstep
      split at hstep
      · rename_i hw
        cases hstep
        exact ClientStep.joins hc hw
      · cases hstep

inductive WorkerStep (moved : Task τ -> Task τ) (s : Lfthread τ) :
    Lfthread τ -> Prop where
  | polls (hw : s.worker = Worker.testShutdown) (hset : s.shutdown = false) :
      WorkerStep moved s { s with
        worker := Worker.polling
        buffer := { s.buffer with consumer := Consumer.popLoadTail true } }
  | drains (hw : s.worker = Worker.testShutdown ∧ s.shutdown = true ∨
        s.worker = Worker.discard) :
      WorkerStep moved s { s with
        worker := Worker.draining
        buffer := { s.buffer with consumer := Consumer.popLoadTail false } }
  | consumes (b : Spsc (Task τ)) (hw : s.worker.InPop)
      (hb : s.buffer.consume moved = some b) :
      WorkerStep moved s { s with buffer := b }
  | takes (task : Task τ) (hw : s.worker = Worker.polling)
      (hc : s.buffer.consumer = Consumer.popped (some task)) :
      WorkerStep moved s { s with worker := Worker.invoke task }
  | misses (hw : s.worker = Worker.polling)
      (hc : s.buffer.consumer = Consumer.popped none) :
      WorkerStep moved s { s with worker := Worker.testShutdown }
  | invokes (task : Task τ) (hw : s.worker = Worker.invoke task) :
      WorkerStep moved s { s with
        worker := Worker.testShutdown, invoked := s.invoked ++ [task] }
  | drops (task : Task τ) (hw : s.worker = Worker.draining)
      (hc : s.buffer.consumer = Consumer.popped (some task)) :
      WorkerStep moved s { s with worker := Worker.discard }
  | exits (hw : s.worker = Worker.draining)
      (hc : s.buffer.consumer = Consumer.popped none) :
      WorkerStep moved s { s with worker := Worker.exited }

theorem callDrain_cases (hw : s.worker = Worker.testShutdown ∧
      s.shutdown = true ∨ s.worker = Worker.discard)
    (hstep : s.callDrain = some s') : WorkerStep moved s s' := by
  rcases withBuffer_eq_some.mp hstep with ⟨b, hb, rfl⟩
  have heq := Spsc.callConsumer_eq hb
  subst heq
  exact WorkerStep.drains hw

theorem workerStep_cases (hstep : s.workerStep moved = some s') :
    WorkerStep moved s s' := by
  cases hw : s.worker with
  | testShutdown =>
      simp only [workerStep, hw] at hstep
      split at hstep
      · rename_i hset
        exact callDrain_cases (Or.inl ⟨hw, hset⟩) hstep
      · rename_i hset
        rcases withBuffer_eq_some.mp hstep with ⟨b, hb, rfl⟩
        have heq := Spsc.callConsumer_eq hb
        subst heq
        exact WorkerStep.polls hw (eq_false_of_ne_true hset)
  | polling =>
      have hpop : s.worker.InPop := hw ▸ trivial
      simp only [workerStep, hw] at hstep
      split at hstep
      · rename_i task hc
        cases hstep
        exact WorkerStep.takes task hw hc
      · rename_i hc
        cases hstep
        exact WorkerStep.misses hw hc
      · rcases withBuffer_eq_some.mp hstep with ⟨b, hb, rfl⟩
        exact WorkerStep.consumes b hpop hb
  | invoke task =>
      simp only [workerStep, hw, Option.some.injEq] at hstep
      subst hstep
      exact WorkerStep.invokes task hw
  | draining =>
      have hpop : s.worker.InPop := hw ▸ trivial
      simp only [workerStep, hw] at hstep
      split at hstep
      · rename_i task hc
        cases hstep
        exact WorkerStep.drops task hw hc
      · rename_i hc
        cases hstep
        exact WorkerStep.exits hw hc
      · rcases withBuffer_eq_some.mp hstep with ⟨b, hb, rfl⟩
        exact WorkerStep.consumes b hpop hb
  | discard =>
      simp only [workerStep, hw] at hstep
      exact callDrain_cases (Or.inr hw) hstep
  | exited =>
      simp only [workerStep, hw] at hstep
      cases hstep

/-!
# Which calls are in progress
-/

structure InCalls (s : Lfthread τ) : Prop where
  producer : ¬ s.client.Pushes -> s.buffer.producer.Rests
  resting : ¬ s.worker.InPop -> s.buffer.consumer.Rests
  popping : s.worker.InPop -> s.buffer.consumer.Pops

theorem start_inCalls (size : UInt64) :
    InCalls (start size : Lfthread τ) where
  producer := fun _ => trivial
  resting := fun _ => trivial
  popping := fun hpop => hpop.elim

theorem InCalls.client (h : InCalls s) (hstep : s.clientStep = some s') :
    InCalls s' := by
  cases clientStep_cases hstep with
  | produces b hc hb =>
      have hframe := Spsc.produce_frame hb
      exact { producer := fun hno => absurd hc hno
              resting := by
                rw [show b.consumer = s.buffer.consumer from hframe.left]
                exact h.resting
              popping := by
                rw [show b.consumer = s.buffer.consumer from hframe.left]
                exact h.popping }
  | returns t ok hc hok =>
      exact { h with producer := fun _ => hok ▸ trivial }
  | tests c hc hnext =>
      have hrests := h.producer (hc ▸ id)
      exact { h with producer := fun _ => hrests }
  | sets hc =>
      have hrests := h.producer (hc ▸ id)
      exact { h with producer := fun _ => hrests }
  | wakes hc =>
      exact { h with producer := fun hno => absurd trivial hno }
  | woken ok hc hok =>
      exact { h with producer := fun _ => hok ▸ trivial }
  | joins hc hw =>
      have hrests := h.producer (hc ▸ id)
      exact { h with producer := fun _ => hrests }

theorem InCalls.worker (h : InCalls s)
    (hstep : s.workerStep moved = some s') : InCalls s' := by
  cases workerStep_cases hstep with
  | polls hw hset =>
      exact { producer := h.producer
              resting := fun hno => absurd trivial hno
              popping := fun _ => trivial }
  | drains hw =>
      exact { producer := h.producer
              resting := fun hno => absurd trivial hno
              popping := fun _ => trivial }
  | consumes b hw hb =>
      have hframe := Spsc.consume_frame hb
      exact { producer := by
                rw [show b.producer = s.buffer.producer from hframe.left]
                exact h.producer
              resting := fun hno => absurd hw hno
              popping := fun _ => Spsc.consume_pops (h.popping hw) hb }
  | takes task hw hc =>
      exact { producer := h.producer
              resting := fun _ => hc ▸ trivial
              popping := fun hpop => hpop.elim }
  | misses hw hc =>
      exact { producer := h.producer
              resting := fun _ => hc ▸ trivial
              popping := fun hpop => hpop.elim }
  | invokes task hw =>
      exact { producer := h.producer
              resting := fun _ => h.resting (hw ▸ id)
              popping := fun hpop => hpop.elim }
  | drops task hw hc =>
      exact { producer := h.producer
              resting := fun _ => hc ▸ trivial
              popping := fun hpop => hpop.elim }
  | exits hw hc =>
      exact { producer := h.producer
              resting := fun _ => hc ▸ trivial
              popping := fun hpop => hpop.elim }

theorem InCalls.step (h : InCalls s) {a : Action τ}
    (hstep : Lfthread.step moved s a = some s') : InCalls s' := by
  have henqueue : forall t, s.callEnqueue t = some s' -> InCalls s' := by
    intro t hcall
    unfold callEnqueue at hcall
    split at hcall
    · rcases withBuffer_eq_some.mp hcall with ⟨b, hb, rfl⟩
      have heq := Spsc.callPush_eq hb
      subst heq
      exact { h with producer := fun hno => absurd trivial hno }
    · cases hcall
  cases a with
  | enqueueTask t => exact henqueue t hstep
  | enqueueTaskMove t => exact henqueue t hstep
  | tShutdown =>
      simp only [Lfthread.step, callShutdown] at hstep
      split at hstep
      · rename_i hc
        cases hstep
        have hrests := h.producer (hc ▸ id)
        exact { h with producer := fun _ => hrests }
      · cases hstep
  | client => exact h.client hstep
  | worker => exact h.worker hstep

/-!
# What is left after `shutdown_` has been stored
-/

def clientLeft (s : Lfthread τ) : Nat :=
  match s.client with
  | Client.pushWakeup => 17
  | Client.waking => 3 + s.buffer.producer.stepsLeft
  | Client.join => 1
  | _ => 0

def pollingLeft {T : Type u} : Consumer T -> Nat
  | Consumer.popLoadTail _ => 9
  | Consumer.popLoadHead _ _ => 8
  | Consumer.popRead _ _ => 7
  | Consumer.popStoreTail _ _ => 8
  | Consumer.popped (some _) => 7
  | Consumer.popped none => 6
  | _ => 0

def drainingLeft {T : Type u} : Consumer T -> Nat
  | Consumer.popLoadTail _ => 4
  | Consumer.popLoadHead _ _ => 3
  | Consumer.popRead _ _ => 2
  | Consumer.popStoreTail _ _ => 7
  | Consumer.popped (some _) => 6
  | Consumer.popped none => 1
  | _ => 0

def workerLeft (s : Lfthread τ) : Nat :=
  match s.worker with
  | Worker.testShutdown => 5
  | Worker.polling => pollingLeft s.buffer.consumer
  | Worker.invoke _ => 6
  | Worker.draining => drainingLeft s.buffer.consumer
  | Worker.discard => 5
  | Worker.exited => 0

def left (s : Lfthread τ) : Nat :=
  s.clientLeft + s.workerLeft + 8 * s.buffer.waiting

/-- `shutdown_` has been stored. -/
structure Closing (s : Lfthread τ) : Prop where
  inv : Inv s
  calls : InCalls s
  shutdown : s.shutdown = true

theorem Closing.client_cases (h : Closing s) :
    s.client = Client.pushWakeup ∨ s.client = Client.waking ∨
      s.client = Client.join ∨ s.client = Client.done := by
  have hclient := h.inv.client
  unfold ClientInv at hclient
  rw [h.shutdown] at hclient
  cases hc : s.client with
  | running | testShutdown | setShutdown | enqueue =>
      rw [hc] at hclient
      cases hclient.left
  | pushWakeup => exact Or.inl rfl
  | waking => exact Or.inr (Or.inl rfl)
  | join => exact Or.inr (Or.inr (Or.inl rfl))
  | done => exact Or.inr (Or.inr (Or.inr rfl))

theorem Closing.client_lowers (h : Closing s)
    (hstep : s.clientStep = some s') :
    s'.shutdown = true ∧ s'.left < s.left := by
  have hpast := h.client_cases
  unfold left clientLeft
  cases clientStep_cases hstep with
  | produces b hc hb =>
      have hlower := Spsc.produce_left hb
      have hwaking : s.client = Client.waking := by
        rcases hpast with hone | hone | hone | hone
        · exact absurd hc (hone ▸ id)
        · exact hone
        · exact absurd hc (hone ▸ id)
        · exact absurd hc (hone ▸ id)
      have hworker : workerLeft { s with buffer := b } = s.workerLeft := by
        unfold workerLeft
        rw [show b.consumer = s.buffer.consumer from
          (Spsc.produce_frame hb).left]
      rw [hworker]
      simp only [hwaking]
      exact ⟨h.shutdown, by omega⟩
  | returns t ok hc hok =>
      rw [hc] at hpast
      rcases hpast with hone | hone | hone | hone <;> cases hone
  | tests c hc hnext =>
      rw [hc] at hpast
      rcases hpast with hone | hone | hone | hone <;> cases hone
  | sets hc =>
      rw [hc] at hpast
      rcases hpast with hone | hone | hone | hone <;> cases hone
  | wakes hc =>
      refine ⟨h.shutdown, ?_⟩
      rw [hc]
      show 3 + 13 + s.workerLeft + 8 * s.buffer.waiting <
        17 + s.workerLeft + 8 * s.buffer.waiting
      omega
  | woken ok hc hok =>
      refine ⟨h.shutdown, ?_⟩
      rw [hc, hok]
      show 1 + s.workerLeft + 8 * s.buffer.waiting <
        3 + 1 + s.workerLeft + 8 * s.buffer.waiting
      omega
  | joins hc hw =>
      refine ⟨h.shutdown, ?_⟩
      rw [hc]
      show 0 + s.workerLeft + 8 * s.buffer.waiting <
        1 + s.workerLeft + 8 * s.buffer.waiting
      omega

theorem Closing.worker_lowers (h : Closing s)
    (hstep : s.workerStep moved = some s') :
    s'.shutdown = true ∧ s'.left < s.left := by
  have hinv' : Inv s' := h.inv.workerStep_inv hstep
  unfold left
  cases workerStep_cases hstep with
  | polls hw hset =>
      rw [h.shutdown] at hset
      cases hset
  | drains hw =>
      have hworker : s.workerLeft = 5 := by
        unfold workerLeft
        rcases hw with ⟨hone, _⟩ | hone
        · rw [hone]
        · rw [hone]
      refine ⟨h.shutdown, ?_⟩
      rw [hworker]
      show s.clientLeft + 4 + 8 * s.buffer.waiting < _
      omega
  | consumes b hw hb =>
      have hpops := h.calls.popping hw
      have hbuffer : b.Inv := hinv'.buffer
      have hclient : clientLeft { s with buffer := b } = s.clientLeft := by
        unfold clientLeft
        rw [show b.producer = s.buffer.producer from
          (Spsc.consume_frame hb).left]
      rw [hclient]
      refine ⟨h.shutdown, ?_⟩
      unfold workerLeft
      cases hworker : s.worker with
      | polling =>
          have hlower := Spsc.consume_left pollingLeft hbuffer hpops
            (fun _ _ => Nat.lt_succ_self 8)
            (fun _ _ => Nat.le_succ 7) (fun _ _ => Nat.lt_succ_self 7)
            (fun _ _ _ => Nat.le_of_ble_eq_true rfl)
            (fun _ _ => Nat.lt_succ_self 7) hb
          show s.clientLeft + pollingLeft b.consumer + 8 * b.waiting <
            s.clientLeft + pollingLeft s.buffer.consumer +
              8 * s.buffer.waiting
          omega
      | draining =>
          have hlower := Spsc.consume_left drainingLeft hbuffer hpops
            (fun _ _ => Nat.lt_succ_self 3)
            (fun _ _ => Nat.le_succ 2) (fun _ _ => Nat.lt_succ_self 2)
            (fun _ _ _ => Nat.le_of_ble_eq_true rfl)
            (fun _ _ => Nat.lt_succ_self 6) hb
          show s.clientLeft + drainingLeft b.consumer + 8 * b.waiting <
            s.clientLeft + drainingLeft s.buffer.consumer +
              8 * s.buffer.waiting
          omega
      | testShutdown | invoke | discard | exited =>
          rw [hworker] at hw
          exact hw.elim
  | takes task hw hc =>
      refine ⟨h.shutdown, ?_⟩
      unfold workerLeft
      rw [hw, hc]
      show s.clientLeft + 6 + 8 * s.buffer.waiting <
        s.clientLeft + 7 + 8 * s.buffer.waiting
      omega
  | misses hw hc =>
      refine ⟨h.shutdown, ?_⟩
      unfold workerLeft
      rw [hw, hc]
      show s.clientLeft + 5 + 8 * s.buffer.waiting <
        s.clientLeft + 6 + 8 * s.buffer.waiting
      omega
  | invokes task hw =>
      refine ⟨h.shutdown, ?_⟩
      unfold workerLeft
      rw [hw]
      show s.clientLeft + 5 + 8 * s.buffer.waiting <
        s.clientLeft + 6 + 8 * s.buffer.waiting
      omega
  | drops task hw hc =>
      refine ⟨h.shutdown, ?_⟩
      unfold workerLeft
      rw [hw, hc]
      show s.clientLeft + 5 + 8 * s.buffer.waiting <
        s.clientLeft + 6 + 8 * s.buffer.waiting
      omega
  | exits hw hc =>
      refine ⟨h.shutdown, ?_⟩
      unfold workerLeft
      rw [hw, hc]
      show s.clientLeft + 0 + 8 * s.buffer.waiting <
        s.clientLeft + 1 + 8 * s.buffer.waiting
      omega

theorem Closing.step (h : Closing s) {a : Action τ}
    (hstep : Lfthread.step moved s a = some s') :
    Closing s' ∧ s'.left < s.left := by
  have hlower : s'.shutdown = true ∧ s'.left < s.left := by
    have hnot : s.client = Client.running -> False := by
      intro hc
      have hpast := h.client_cases
      rw [hc] at hpast
      rcases hpast with hone | hone | hone | hone <;> cases hone
    have henqueue : forall t, s.callEnqueue t = some s' -> False := by
      intro t hcall
      unfold callEnqueue at hcall
      split at hcall
      · rename_i hc
        exact hnot hc
      · cases hcall
    cases a with
    | enqueueTask t => exact (henqueue t hstep).elim
    | enqueueTaskMove t => exact (henqueue t hstep).elim
    | tShutdown =>
        have hcall : s.callShutdown = some s' := hstep
        unfold callShutdown at hcall
        split at hcall
        · rename_i hc
          exact (hnot hc).elim
        · cases hcall
    | client => exact h.client_lowers hstep
    | worker => exact h.worker_lowers hstep
  exact ⟨⟨h.inv.step_inv hstep, h.calls.step hstep, hlower.left⟩,
    hlower.right⟩

/-!
# Nobody waits for ever
-/

theorem worker_goes (h : Inv s) (hcalls : InCalls s)
    (hleft : s.worker ≠ Worker.exited) :
    exists s', s.workerStep moved = some s' := by
  have hcall : forall (w : Worker τ) entry, s.buffer.consumer.Rests ->
      exists s', { s with worker := w }.withBuffer
        (s.buffer.callConsumer entry) = some s' := by
    intro w entry hrests
    refine ⟨_, withBuffer_eq_some.mpr ⟨{ s.buffer with consumer := entry },
      ?_, rfl⟩⟩
    unfold Spsc.callConsumer
    cases hc : s.buffer.consumer with
    | idle | popped | drained => rfl
    | _ =>
        rw [hc] at hrests
        exact hrests.elim
  have hpop : s.buffer.consumer.Pops ->
      (forall result, s.buffer.consumer ≠ Consumer.popped result) ->
      exists s', s.withBuffer (s.buffer.consume moved) = some s' := by
    intro hpops hstill
    have hbusy : s.buffer.consumer ≠ Consumer.idle ∧
        s.buffer.consumer ≠ Consumer.drained := by
      constructor
      · intro hc
        rw [hc] at hpops
        exact hpops
      · intro hc
        rw [hc] at hpops
        exact hpops
    have hsome := h.buffer.consume_enabled moved
      ⟨hbusy.left, hbusy.right, hstill⟩
    rcases Option.isSome_iff_exists.mp hsome with ⟨b, hb⟩
    exact ⟨_, withBuffer_eq_some.mpr ⟨b, hb, rfl⟩⟩
  unfold workerStep
  cases hw : s.worker with
  | exited => exact absurd hw hleft
  | invoke task => exact ⟨_, rfl⟩
  | testShutdown =>
      simp only
      split
      · exact hcall _ _ (hcalls.resting (hw ▸ id))
      · exact hcall _ _ (hcalls.resting (hw ▸ id))
  | discard => exact hcall _ _ (hcalls.resting (hw ▸ id))
  | polling =>
      simp only
      split
      · exact ⟨_, rfl⟩
      · exact ⟨_, rfl⟩
      · rename_i hsome hnone
        refine hpop (hcalls.popping (hw ▸ trivial)) ?_
        intro result hc
        cases result with
        | none => exact hnone hc
        | some task => exact hsome task hc
  | draining =>
      simp only
      split
      · exact ⟨_, rfl⟩
      · exact ⟨_, rfl⟩
      · rename_i hsome hnone
        refine hpop (hcalls.popping (hw ▸ trivial)) ?_
        intro result hc
        cases result with
        | none => exact hnone hc
        | some task => exact hsome task hc

theorem Closing.client_goes (h : Closing s)
    (hleft : s.client ≠ Client.done)
    (hjoin : s.client = Client.join -> s.worker = Worker.exited) :
    exists s', s.clientStep = some s' := by
  unfold clientStep
  rcases h.client_cases with hc | hc | hc | hc
  · rw [hc]
    have hrests := h.calls.producer (hc ▸ id)
    refine ⟨_, withBuffer_eq_some.mpr ⟨{ s.buffer with
      producer := Producer.loadHead Task.wakeup }, ?_, rfl⟩⟩
    unfold Spsc.callPush
    cases hp : s.buffer.producer with
    | idle | returned => rfl
    | _ =>
        rw [hp] at hrests
        exact hrests.elim
  · rw [hc]
    have hclient := h.inv.client
    unfold ClientInv Pushing at hclient
    rw [hc] at hclient
    simp only
    split
    · exact ⟨_, rfl⟩
    · rename_i hstill
      have hbusy : s.buffer.producer ≠ Producer.idle := by
        intro hp
        rw [hp] at hclient
        exact hclient.right
      have hsome := h.inv.buffer.produce_enabled ⟨hbusy, hstill⟩
      rcases Option.isSome_iff_exists.mp hsome with ⟨b, hb⟩
      exact ⟨_, withBuffer_eq_some.mpr ⟨b, hb, rfl⟩⟩
  · rw [hc, hjoin hc]
    exact ⟨_, rfl⟩
  · exact absurd hc hleft

/-- `t_shutdown` and the worker have returned. -/
structure Over (s : Lfthread τ) : Prop where
  client : s.client = Client.done
  worker : s.worker = Worker.exited

theorem Closing.over_of_stuck (h : Closing s)
    (hclient : s.clientStep = none) (hworker : s.workerStep moved = none) :
    Over s := by
  have hexited : s.worker = Worker.exited := by
    by_contra hleft
    rcases worker_goes h.inv h.calls hleft with ⟨s', hs'⟩
    rw [hs'] at hworker
    cases hworker
  refine ⟨?_, hexited⟩
  by_contra hleft
  rcases h.client_goes hleft (fun _ => hexited) with ⟨s', hs'⟩
  rw [hs'] at hclient
  cases hclient

theorem Closing.settles (h : Closing s) {own : Action τ -> Prop}
    (hclient : own Action.client) (hworker : own Action.worker) :
    StepFn.Settles (Lfthread.step moved) own Over s := by
  have hlower : forall (s : Lfthread τ) a s', Closing s -> own a ->
      Lfthread.step moved s a = some s' -> Closing s' ∧ s'.left < s.left :=
    fun s a s' h _ hstep => h.step hstep
  have hstuck : forall s : Lfthread τ, Closing s ->
      (forall a, own a -> Lfthread.step moved s a = none) -> Over s :=
    fun s h hnone => h.over_of_stuck (hnone _ hclient) (hnone _ hworker)
  exact StepFn.settles_of_rank left hlower hstuck h

theorem run_inv {size : UInt64} (hsize : size.toNat <= 2 ^ 63)
    {acts : List (Action τ)}
    (hrun : StepFn.run (step moved) (start size) acts = some s) :
    Inv s ∧ InCalls s := by
  have hpres : forall (s : Lfthread τ) a s', Inv s ∧ InCalls s ->
      step moved s a = some s' -> Inv s' ∧ InCalls s' := by
    intro s a s' h hstep
    exact ⟨h.left.step_inv hstep, h.right.step hstep⟩
  exact StepFn.run_invariant hpres ⟨start_inv hsize, start_inCalls size⟩ hrun

/--
When `t_shutdown` has stored `shutdown_`, the client and the worker take finitely
many steps, in whatever order, and at their end both have returned.
-/
theorem shutdown_settles (moved : Task τ -> Task τ) (size : UInt64)
    (hsize : size.toNat <= 2 ^ 63) (acts : List (Action τ)) (s : Lfthread τ)
    (hrun : StepFn.run (step moved) (start size) acts = some s)
    (hset : s.shutdown = true) :
    StepFn.Settles (step moved) (fun _ => True) Over s := by
  have hinv := run_inv hsize hrun
  have hclosing : Closing s :=
    { inv := hinv.left, calls := hinv.right, shutdown := hset }
  exact hclosing.settles trivial trivial

def oneTaken : List (Action Nat) :=
  Action.enqueueTask 1 :: List.replicate 5 Action.client ++
    Action.enqueueTaskMove 2 :: List.replicate 5 Action.client ++
    List.replicate 6 Action.worker ++
    Action.tShutdown :: List.replicate 2 Action.client

theorem shutdown_settles_oneTaken :
    exists s, StepFn.run (step id) (start 4) oneTaken = some s ∧
      StepFn.Settles (step id) (fun _ => True) Over s := by
  refine ⟨_, rfl, ?_⟩
  exact shutdown_settles id 4 (by decide) oneTaken _ rfl rfl

/-!
# The client and the worker alone
-/

/-- The client is in `t_shutdown`, and no enqueueing is in the way. -/
def Action.Closes : Action τ -> Prop
  | Action.enqueueTask _ | Action.enqueueTaskMove _ => False
  | _ => True

section

variable (h : Inv s) (hcalls : InCalls s)

include h hcalls

theorem canReach_of_setShutdown (hc : s.client = Client.setShutdown) :
    StepFn.CanReach (step moved) Action.Closes Over s := by
  have hstep : step moved s Action.client =
      some { s with client := Client.pushWakeup, shutdown := true } := by
    show s.clientStep = _
    unfold clientStep
    rw [hc]
  have hclosing : Closing { s with
      client := Client.pushWakeup, shutdown := true } :=
    { inv := h.step_inv hstep, calls := hcalls.step hstep, shutdown := rfl }
  have hsettles : StepFn.Settles (step moved) Action.Closes Over _ :=
    hclosing.settles trivial trivial
  exact hsettles.canReach.after hstep trivial

theorem canReach_of_testShutdown (hc : s.client = Client.testShutdown) :
    StepFn.CanReach (step moved) Action.Closes Over s := by
  have hunset : s.shutdown = false := by
    have hclient := h.client
    unfold ClientInv at hclient
    rw [hc] at hclient
    exact hclient.left
  have hstep : step moved s Action.client =
      some { s with client := Client.setShutdown } := by
    show s.clientStep = _
    unfold clientStep
    rw [hc, hunset]
    rfl
  have hafter : StepFn.CanReach (step moved) Action.Closes Over _ :=
    canReach_of_setShutdown (h.step_inv hstep) (hcalls.step hstep) rfl
  exact hafter.after hstep trivial

theorem canReach_of_running (hc : s.client = Client.running) :
    StepFn.CanReach (step moved) Action.Closes Over s := by
  have hstep : step moved s Action.tShutdown =
      some { s with client := Client.testShutdown } := by
    show s.callShutdown = _
    unfold callShutdown
    rw [hc]
  have hafter : StepFn.CanReach (step moved) Action.Closes Over _ :=
    canReach_of_testShutdown (h.step_inv hstep) (hcalls.step hstep) rfl
  exact hafter.after hstep trivial

theorem canReach_over (hnot : forall t, s.client ≠ Client.enqueue t) :
    StepFn.CanReach (step moved) Action.Closes Over s := by
  have hclosing : s.shutdown = true ->
      StepFn.CanReach (step moved) Action.Closes Over s := by
    intro hset
    have hstored : Closing s :=
      { inv := h, calls := hcalls, shutdown := hset }
    have hsettles : StepFn.Settles (step moved) Action.Closes Over s :=
      hstored.settles trivial trivial
    exact hsettles.canReach
  have hclient := h.client
  unfold ClientInv at hclient
  cases hc : s.client with
  | enqueue t => exact absurd hc (hnot t)
  | running => exact canReach_of_running h hcalls hc
  | testShutdown => exact canReach_of_testShutdown h hcalls hc
  | setShutdown => exact canReach_of_setShutdown h hcalls hc
  | pushWakeup | waking | join | done =>
      rw [hc] at hclient
      exact hclosing hclient.left

end

end Lfthread

end MoonNet
