import MoonNet.Lfthread.Model
import MoonNet.Ringbuff.Spsc

/-!
# What happens to accepted tasks at shutdown

Tasks that the worker takes in its polling loop are invoked, tasks that it takes
in the final loop are dropped.  All accepted tasks are therefore invoked exactly
if the worker has taken all of them when it leaves the polling loop.
-/

namespace MoonNet

open Foundation
open Ringbuff

universe u

namespace Lfthread

variable {τ : Type u}

/-!
# Invariant
-/

def Pushing (b : Spsc (Task τ)) (item : Task τ) (base : List (Task τ)) :
    Prop :=
  match b.producer with
  | Producer.idle => False
  | Producer.loadHead x | Producer.loadTail x _ | Producer.write x _ _
  | Producer.storeHead x _ => x = item ∧ b.published = base
  | Producer.returned ok =>
      b.published = if ok then base ++ [item] else base

def Popping (b : Spsc (Task τ)) (base : List (Task τ)) : Prop :=
  match b.consumer with
  | Consumer.popLoadTail _ | Consumer.popLoadHead _ _
  | Consumer.popRead _ _ | Consumer.popped none => b.obtained = base
  | Consumer.popStoreTail x _ | Consumer.popped (some x) =>
      b.obtained = base ++ [x]
  | _ => False

def acceptedTasks (s : Lfthread τ) : List (Task τ) :=
  s.accepted.map Task.client

def Leaving : Worker τ -> Prop
  | Worker.draining | Worker.discard | Worker.exited => True
  | _ => False

def ClientInv (s : Lfthread τ) : Prop :=
  match s.client with
  | Client.running | Client.testShutdown | Client.setShutdown =>
      s.shutdown = false ∧ s.buffer.published = s.acceptedTasks
  | Client.enqueue t =>
      s.shutdown = false ∧ Pushing s.buffer (Task.client t) s.acceptedTasks
  | Client.pushWakeup =>
      s.shutdown = true ∧ s.buffer.published = s.acceptedTasks
  | Client.waking =>
      s.shutdown = true ∧ Pushing s.buffer Task.wakeup s.acceptedTasks
  | Client.join =>
      s.shutdown = true ∧ exists ok,
        s.buffer.published =
          if ok = true then s.acceptedTasks ++ [Task.wakeup]
          else s.acceptedTasks
  | Client.done =>
      s.shutdown = true ∧ s.worker = Worker.exited ∧ exists ok,
        s.buffer.published =
          if ok = true then s.acceptedTasks ++ [Task.wakeup]
          else s.acceptedTasks

def WorkerInv (s : Lfthread τ) : Prop :=
  match s.worker with
  | Worker.testShutdown => s.buffer.obtained = s.invoked
  | Worker.polling => Popping s.buffer s.invoked
  | Worker.invoke task => s.buffer.obtained = s.invoked ++ [task]
  | Worker.draining | Worker.discard | Worker.exited =>
      s.shutdown = true ∧ s.invoked <+: s.buffer.obtained

structure Inv (s : Lfthread τ) : Prop where
  buffer : s.buffer.Inv
  client : ClientInv s
  worker : WorkerInv s

theorem start_inv {size : UInt64} (hsize : size.toNat <= 2 ^ 63) :
    Inv (start size : Lfthread τ) where
  buffer := Spsc.start_inv _ hsize
  client := ⟨rfl, rfl⟩
  worker := rfl

theorem withBuffer_eq_some {s s' : Lfthread τ} {b : Option (Spsc (Task τ))} :
    s.withBuffer b = some s' <->
      exists buffer, b = some buffer ∧ s' = { s with buffer := buffer } := by
  simp [withBuffer, eq_comm]

theorem Pushing.produce {b b' : Spsc (Task τ)} {item : Task τ}
    {base : List (Task τ)} (h : Pushing b item base)
    (hstep : b.produce = some b') : Pushing b' item base := by
  unfold Pushing at h
  cases Spsc.produce_iff.mp hstep with
  | loadsHead x hp =>
      rw [hp] at h
      exact h
  | fails x head hp hfull =>
      rw [hp] at h
      exact h.right
  | finds x head hp hroom =>
      rw [hp] at h
      exact h
  | writes x head nhead buffer hp hwrite =>
      rw [hp] at h
      exact h
  | stores x nhead hp =>
      rw [hp] at h
      show b.published ++ [x] = base ++ [item]
      rw [h.left, h.right]

theorem Popping.consume {b b' : Spsc (Task τ)} {base : List (Task τ)}
    {moved : Task τ -> Task τ} (h : Popping b base)
    (hstep : b.consume moved = some b') : Popping b' base := by
  have hpc : forall {c : Consumer (Task τ)}, b.consumer = c ->
      Popping { b with consumer := c } base := by
    intro c hc
    rw [<- hc]
    exact h
  cases Spsc.consume_iff.mp hstep with
  | loadsTail move hc =>
      have hbase := hpc hc
      exact hbase
  | fails move tail hc hempty =>
      have hbase := hpc hc
      exact hbase
  | finds move tail hc hitem =>
      have hbase := hpc hc
      exact hbase
  | reads move tail b' hc hobtain =>
      have hbase : b.obtained = base := hpc hc
      rcases Spsc.obtain_eq_some.mp hobtain with ⟨buffer, x, _, hb'⟩
      rw [hb']
      show b.obtained ++ [x] = base ++ [x]
      rw [hbase]
  | stores x tail hc =>
      have hbase := hpc hc
      exact hbase
  | drainsHead hc => exact (hpc hc).elim
  | drainsNothing head hc hempty => exact (hpc hc).elim
  | drainsRange head hc hitems hlt => exact (hpc hc).elim
  | drainsAround head hc hitems hge => exact (hpc hc).elim
  | copies i limit wraps head b' hc hlt hobtain => exact (hpc hc).elim
  | wraps i limit head hc hend => exact (hpc hc).elim
  | ends i limit head hc hend => exact (hpc hc).elim

/-!
# Steps of one thread keep what the other one knows
-/

theorem WorkerInv.frame {s s' : Lfthread τ} (h : WorkerInv s)
    (hworker : s'.worker = s.worker) (hinvoked : s'.invoked = s.invoked)
    (hconsumer : s'.buffer.consumer = s.buffer.consumer)
    (hobtained : s'.buffer.obtained = s.buffer.obtained)
    (hshutdown : s.shutdown = true -> s'.shutdown = true) : WorkerInv s' := by
  unfold WorkerInv Popping at *
  rw [hworker, hinvoked, hconsumer, hobtained]
  cases hw : s.worker with
  | testShutdown => simpa only [hw] using h
  | polling => simpa only [hw] using h
  | invoke task => simpa only [hw] using h
  | draining =>
      rw [hw] at h
      exact ⟨hshutdown h.left, h.right⟩
  | discard =>
      rw [hw] at h
      exact ⟨hshutdown h.left, h.right⟩
  | exited =>
      rw [hw] at h
      exact ⟨hshutdown h.left, h.right⟩

theorem ClientInv.frame {s s' : Lfthread τ} (h : ClientInv s)
    (hclient : s'.client = s.client) (hshutdown : s'.shutdown = s.shutdown)
    (haccepted : s'.accepted = s.accepted)
    (hproducer : s'.buffer.producer = s.buffer.producer)
    (hpublished : s'.buffer.published = s.buffer.published)
    (hworker : s.worker = Worker.exited -> s'.worker = Worker.exited) :
    ClientInv s' := by
  unfold ClientInv Pushing acceptedTasks at *
  rw [hclient, hshutdown, haccepted, hproducer, hpublished]
  cases hc : s.client with
  | done =>
      rw [hc] at h
      exact ⟨h.left, hworker h.right.left, h.right.right⟩
  | _ => simpa only [hc] using h

/-!
# Client
-/

namespace Inv

variable {s s' : Lfthread τ}

theorem callPush_inv (h : Inv s) {item : Task τ} {c : Client τ}
    (hclient : ClientInv { s with
      client := c
      buffer := { s.buffer with producer := Producer.loadHead item } })
    (hstep : { s with client := c }.withBuffer (s.buffer.callPush item) =
      some s') : Inv s' := by
  rcases withBuffer_eq_some.mp hstep with ⟨b, hb, hs'⟩
  subst hs'
  have hbuffer : b.Inv := h.buffer.callPush_inv hb
  have heq := Spsc.callPush_eq hb
  subst heq
  exact {
    buffer := hbuffer
    client := hclient
    worker := h.worker.frame rfl rfl rfl rfl id }

theorem callEnqueue_inv (h : Inv s) {t : τ}
    (hstep : s.callEnqueue t = some s') : Inv s' := by
  have hclient := h.client
  unfold callEnqueue at hstep
  split at hstep
  · rename_i hc
    unfold ClientInv at hclient
    rw [hc] at hclient
    refine h.callPush_inv ?_ hstep
    exact ⟨hclient.left, rfl, hclient.right⟩
  · cases hstep

theorem callShutdown_inv (h : Inv s) (hstep : s.callShutdown = some s') :
    Inv s' := by
  have hclient := h.client
  unfold callShutdown at hstep
  split at hstep
  · rename_i hc
    unfold ClientInv at hclient
    rw [hc] at hclient
    cases hstep
    exact { h with
      client := hclient
      worker := h.worker.frame rfl rfl rfl rfl id }
  · cases hstep

theorem push_inv (h : Inv s) {item : Task τ}
    (hpushing : Pushing s.buffer item s.acceptedTasks)
    (hclient : forall b, Pushing b item s.acceptedTasks ->
      ClientInv { s with buffer := b })
    (hstep : s.withBuffer s.buffer.produce = some s') : Inv s' := by
  rcases withBuffer_eq_some.mp hstep with ⟨b, hb, hs'⟩
  subst hs'
  have hframe := Spsc.produce_frame hb
  exact {
    buffer := h.buffer.produce_inv hb
    client := hclient b (hpushing.produce hb)
    worker := h.worker.frame rfl rfl hframe.left hframe.right id }

theorem enqueue_inv (h : Inv s) {t : τ} (hc : s.client = Client.enqueue t)
    (hstep : s.clientStep = some s') : Inv s' := by
  have hclient := h.client
  unfold ClientInv at hclient
  rw [hc] at hclient
  rcases hclient with ⟨hshutdown, hpushing⟩
  simp only [clientStep, hc] at hstep
  split at hstep
  · rename_i ok hp
    cases hstep
    unfold Pushing at hpushing
    rw [hp] at hpushing
    refine { h with client := ⟨hshutdown, ?_⟩,
                    worker := h.worker.frame rfl rfl rfl rfl id }
    show s.buffer.published =
      List.map Task.client (if ok = true then s.accepted ++ [t] else s.accepted)
    cases ok with
    | false => exact hpushing
    | true =>
        rw [if_pos rfl, List.map_append]
        exact hpushing
  · refine h.push_inv hpushing ?_ hstep
    intro b hb
    unfold ClientInv
    simp only [hc]
    exact ⟨hshutdown, hb⟩

theorem waking_inv (h : Inv s) (hc : s.client = Client.waking)
    (hstep : s.clientStep = some s') : Inv s' := by
  have hclient := h.client
  unfold ClientInv at hclient
  rw [hc] at hclient
  rcases hclient with ⟨hshutdown, hpushing⟩
  simp only [clientStep, hc] at hstep
  split at hstep
  · rename_i ok hp
    cases hstep
    unfold Pushing at hpushing
    rw [hp] at hpushing
    exact { h with client := ⟨hshutdown, ok, hpushing⟩,
                   worker := h.worker.frame rfl rfl rfl rfl id }
  · refine h.push_inv hpushing ?_ hstep
    intro b hb
    unfold ClientInv
    simp only [hc]
    exact ⟨hshutdown, hb⟩

theorem clientStep_inv (h : Inv s) (hstep : s.clientStep = some s') :
    Inv s' := by
  have hclient := h.client
  unfold ClientInv at hclient
  cases hc : s.client with
  | running =>
      simp [clientStep, hc] at hstep
  | done =>
      simp [clientStep, hc] at hstep
  | enqueue t =>
      exact h.enqueue_inv hc hstep
  | testShutdown =>
      rw [hc] at hclient
      have hunset : ¬ s.shutdown = true := by
        rw [hclient.left]
        exact Bool.false_ne_true
      simp only [clientStep, hc, if_neg hunset, Option.some.injEq] at hstep
      subst hstep
      exact { h with client := hclient,
                     worker := h.worker.frame rfl rfl rfl rfl id }
  | setShutdown =>
      rw [hc] at hclient
      simp only [clientStep, hc, Option.some.injEq] at hstep
      subst hstep
      exact { h with client := ⟨rfl, hclient.right⟩,
                     worker := h.worker.frame rfl rfl rfl rfl fun _ => rfl }
  | pushWakeup =>
      rw [hc] at hclient
      simp only [clientStep, hc] at hstep
      refine h.callPush_inv ?_ hstep
      exact ⟨hclient.left, rfl, hclient.right⟩
  | waking =>
      exact h.waking_inv hc hstep
  | join =>
      rw [hc] at hclient
      simp only [clientStep, hc] at hstep
      split at hstep
      · rename_i hw
        cases hstep
        exact { h with client := ⟨hclient.left, hw, hclient.right⟩,
                       worker := h.worker.frame rfl rfl rfl rfl id }
      · cases hstep

/-!
# Worker
-/

theorem callPop_inv (h : Inv s) {move : Bool} {w : Worker τ}
    (hrunning : s.worker ≠ Worker.exited)
    (hworker : WorkerInv { s with
      worker := w
      buffer := { s.buffer with consumer := Consumer.popLoadTail move } })
    (hstep : { s with worker := w }.withBuffer
      (s.buffer.callConsumer (Consumer.popLoadTail move)) = some s') :
    Inv s' := by
  rcases withBuffer_eq_some.mp hstep with ⟨b, hb, hs'⟩
  subst hs'
  have hentry : Spsc.ConsumerInv s.buffer.ring 0
      (Consumer.popLoadTail move : Consumer (Task τ)) :=
    rfl
  have hbuffer : b.Inv := h.buffer.callConsumer_inv hentry hb
  have heq := (h.buffer.callConsumer_eq hb).right
  subst heq
  exact {
    buffer := hbuffer
    client := h.client.frame rfl rfl rfl rfl rfl
      (fun hexited => absurd hexited hrunning)
    worker := hworker }

theorem pop_inv (h : Inv s) {moved : Task τ -> Task τ}
    (hworker : forall b, s.buffer.consume moved = some b ->
      WorkerInv { s with buffer := b })
    (hstep : s.withBuffer (s.buffer.consume moved) = some s') : Inv s' := by
  rcases withBuffer_eq_some.mp hstep with ⟨b, hb, hs'⟩
  subst hs'
  have hframe := Spsc.consume_frame hb
  exact {
    buffer := h.buffer.consume_inv hb
    client := h.client.frame rfl rfl rfl hframe.left hframe.right.left id
    worker := hworker b hb }

theorem testShutdown_inv (h : Inv s) {moved : Task τ -> Task τ}
    (hw : s.worker = Worker.testShutdown)
    (hstep : s.workerStep moved = some s') : Inv s' := by
  have hworker := h.worker
  unfold WorkerInv at hworker
  rw [hw] at hworker
  have hrunning : s.worker ≠ Worker.exited := by
    rw [hw]
    intro hne
    cases hne
  simp only [workerStep, hw] at hstep
  split at hstep
  · rename_i hshutdown
    refine h.callPop_inv hrunning ?_ hstep
    exact ⟨hshutdown, hworker ▸ List.prefix_rfl⟩
  · refine h.callPop_inv hrunning ?_ hstep
    exact hworker

theorem polling_inv (h : Inv s) {moved : Task τ -> Task τ}
    (hw : s.worker = Worker.polling)
    (hstep : s.workerStep moved = some s') : Inv s' := by
  have hworker := h.worker
  unfold WorkerInv at hworker
  rw [hw] at hworker
  have hrunning : s.worker = Worker.exited -> False := by
    rw [hw]
    intro hne
    cases hne
  simp only [workerStep, hw] at hstep
  split at hstep
  · rename_i task hc
    cases hstep
    unfold Popping at hworker
    rw [hc] at hworker
    exact { h with
      client := h.client.frame rfl rfl rfl rfl rfl fun he => (hrunning he).elim
      worker := hworker }
  · rename_i hc
    cases hstep
    unfold Popping at hworker
    rw [hc] at hworker
    exact { h with
      client := h.client.frame rfl rfl rfl rfl rfl fun he => (hrunning he).elim
      worker := hworker }
  · refine h.pop_inv ?_ hstep
    intro b hb
    unfold WorkerInv
    simp only [hw]
    exact hworker.consume hb

theorem draining_inv (h : Inv s) {moved : Task τ -> Task τ}
    (hw : s.worker = Worker.draining)
    (hstep : s.workerStep moved = some s') : Inv s' := by
  have hworker := h.worker
  unfold WorkerInv at hworker
  rw [hw] at hworker
  simp only [workerStep, hw] at hstep
  split at hstep
  · cases hstep
    exact { h with
      client := h.client.frame rfl rfl rfl rfl rfl (by simp [hw])
      worker := hworker }
  · cases hstep
    exact { h with
      client := h.client.frame rfl rfl rfl rfl rfl (by simp [hw])
      worker := hworker }
  · refine h.pop_inv ?_ hstep
    intro b hb
    unfold WorkerInv
    simp only [hw]
    exact ⟨hworker.left,
      hworker.right.trans (Spsc.consume_frame hb).right.right⟩

theorem workerStep_inv (h : Inv s) {moved : Task τ -> Task τ}
    (hstep : s.workerStep moved = some s') : Inv s' := by
  have hworker := h.worker
  unfold WorkerInv at hworker
  cases hw : s.worker with
  | testShutdown =>
      exact h.testShutdown_inv hw hstep
  | polling =>
      exact h.polling_inv hw hstep
  | invoke task =>
      rw [hw] at hworker
      simp only [workerStep, hw, Option.some.injEq] at hstep
      subst hstep
      exact { h with
        client := h.client.frame rfl rfl rfl rfl rfl (by simp [hw])
        worker := hworker }
  | draining =>
      exact h.draining_inv hw hstep
  | discard =>
      rw [hw] at hworker
      simp only [workerStep, hw] at hstep
      refine h.callPop_inv ?_ ?_ hstep
      · rw [hw]
        intro hne
        cases hne
      · exact hworker
  | exited =>
      simp [workerStep, hw] at hstep

theorem step_inv (h : Inv s) {moved : Task τ -> Task τ} {a : Action τ}
    (hstep : step moved s a = some s') : Inv s' := by
  cases a with
  | enqueueTask t => exact h.callEnqueue_inv hstep
  | enqueueTaskMove t => exact h.callEnqueue_inv hstep
  | tShutdown => exact h.callShutdown_inv hstep
  | client => exact h.clientStep_inv hstep
  | worker => exact h.workerStep_inv hstep

end Inv

/-!
# Leaving the polling loop
-/

theorem clientStep_frame {s s' : Lfthread τ} (hstep : s.clientStep = some s') :
    s'.worker = s.worker ∧ s'.invoked = s.invoked ∧
      ((forall t, s.client ≠ Client.enqueue t) ->
        s'.accepted = s.accepted) := by
  have hbuffer : forall {b}, s.withBuffer b = some s' ->
      s'.worker = s.worker ∧ s'.invoked = s.invoked ∧
        s'.accepted = s.accepted := by
    intro b h
    rcases withBuffer_eq_some.mp h with ⟨buffer, _, hs'⟩
    subst hs'
    exact ⟨rfl, rfl, rfl⟩
  cases hc : s.client with
  | enqueue t =>
      simp only [clientStep, hc] at hstep
      split at hstep
      · cases hstep
        exact ⟨rfl, rfl, fun hne => absurd rfl (hne t)⟩
      · have hframe := hbuffer hstep
        exact ⟨hframe.left, hframe.right.left, fun _ => hframe.right.right⟩
  | testShutdown =>
      simp only [clientStep, hc] at hstep
      split at hstep <;> cases hstep <;> exact ⟨rfl, rfl, fun _ => rfl⟩
  | pushWakeup =>
      simp only [clientStep, hc] at hstep
      rcases withBuffer_eq_some.mp hstep with ⟨buffer, _, hs'⟩
      subst hs'
      exact ⟨rfl, rfl, fun _ => rfl⟩
  | waking =>
      simp only [clientStep, hc] at hstep
      split at hstep
      · cases hstep
        exact ⟨rfl, rfl, fun _ => rfl⟩
      · have hframe := hbuffer hstep
        exact ⟨hframe.left, hframe.right.left, fun _ => hframe.right.right⟩
  | join =>
      simp only [clientStep, hc] at hstep
      split at hstep
      · cases hstep
        exact ⟨rfl, rfl, fun _ => rfl⟩
      · cases hstep
  | _ =>
      simp only [clientStep, hc, reduceCtorEq, Option.some.injEq] at hstep
      try
        subst hstep
        exact ⟨rfl, rfl, fun _ => rfl⟩

theorem workerStep_leaving {s s' : Lfthread τ} {moved : Task τ -> Task τ}
    (hleaving : Leaving s.worker) (hstep : s.workerStep moved = some s') :
    Leaving s'.worker ∧ s'.invoked = s.invoked ∧
      s'.accepted = s.accepted := by
  cases hw : s.worker with
  | draining =>
      simp only [workerStep, hw] at hstep
      split at hstep
      · cases hstep
        exact ⟨trivial, rfl, rfl⟩
      · cases hstep
        exact ⟨trivial, rfl, rfl⟩
      · rcases withBuffer_eq_some.mp hstep with ⟨buffer, _, hs'⟩
        subst hs'
        exact ⟨hleaving, rfl, rfl⟩
  | discard =>
      simp only [workerStep, hw] at hstep
      rcases withBuffer_eq_some.mp hstep with ⟨buffer, _, hs'⟩
      subst hs'
      exact ⟨trivial, rfl, rfl⟩
  | exited =>
      simp [workerStep, hw] at hstep
  | _ =>
      rw [hw] at hleaving
      exact hleaving.elim

theorem call_frame {s s' : Lfthread τ}
    (hstep : (exists t, s.callEnqueue t = some s') ∨
      s.callShutdown = some s') :
    s'.worker = s.worker := by
  rcases hstep with ⟨t, hcall⟩ | hcall
  · unfold callEnqueue at hcall
    split at hcall
    · rcases withBuffer_eq_some.mp hcall with ⟨b, _, hs'⟩
      subst hs'
      rfl
    · cases hcall
  · unfold callShutdown at hcall
    split at hcall <;> cases hcall
    rfl

theorem leaving_cases {s s' : Lfthread τ} {moved : Task τ -> Task τ}
    {a : Action τ} (hstep : step moved s a = some s')
    (hleaving : Leaving s'.worker) :
    Leaving s.worker ∨
      (a = Action.worker ∧ s.worker = Worker.testShutdown ∧
        s.shutdown = true) := by
  have hsame : s'.worker = s.worker -> Leaving s.worker := by
    intro heq
    rw [<- heq]
    exact hleaving
  cases a with
  | enqueueTask t => exact Or.inl (hsame (call_frame (Or.inl ⟨t, hstep⟩)))
  | enqueueTaskMove t => exact Or.inl (hsame (call_frame (Or.inl ⟨t, hstep⟩)))
  | tShutdown => exact Or.inl (hsame (call_frame (Or.inr hstep)))
  | client => exact Or.inl (hsame (clientStep_frame hstep).left)
  | worker =>
      cases hw : s.worker with
      | testShutdown =>
          simp only [step, workerStep, hw] at hstep
          split at hstep
          · rename_i hshutdown
            exact Or.inr ⟨rfl, rfl, hshutdown⟩
          · rcases withBuffer_eq_some.mp hstep with ⟨b, _, hs'⟩
            subst hs'
            exact hleaving.elim
      | polling =>
          simp only [step, workerStep, hw] at hstep
          split at hstep
          · cases hstep
            exact hleaving.elim
          · cases hstep
            exact hleaving.elim
          · rcases withBuffer_eq_some.mp hstep with ⟨b, _, hs'⟩
            subst hs'
            rw [hw] at hsame
            exact Or.inl (hsame rfl)
      | invoke task =>
          simp only [step, workerStep, hw, Option.some.injEq] at hstep
          subst hstep
          exact hleaving.elim
      | _ => exact Or.inl trivial

namespace Inv

variable {s s' : Lfthread τ}

theorem shutdown_of_leaving (h : Inv s) (hleaving : Leaving s.worker) :
    s.shutdown = true ∧ s.invoked <+: s.buffer.obtained := by
  have hworker := h.worker
  unfold WorkerInv at hworker
  cases hw : s.worker with
  | draining =>
      rw [hw] at hworker
      exact hworker
  | discard =>
      rw [hw] at hworker
      exact hworker
  | exited =>
      rw [hw] at hworker
      exact hworker
  | _ =>
      rw [hw] at hleaving
      exact hleaving.elim

theorem published_eq (h : Inv s) (hshutdown : s.shutdown = true) :
    exists rest, s.buffer.published = s.acceptedTasks ++ rest ∧
      forall task, task ∈ rest -> task = Task.wakeup := by
  have hclient := h.client
  unfold ClientInv at hclient
  have hnone : s.buffer.published = s.acceptedTasks ->
      exists rest, s.buffer.published = s.acceptedTasks ++ rest ∧
        forall task, task ∈ rest -> task = Task.wakeup := by
    intro heq
    exact ⟨[], by rw [heq, List.append_nil], by simp⟩
  have hreturned : forall ok : Bool,
      s.buffer.published =
        (if ok = true then s.acceptedTasks ++ [Task.wakeup]
          else s.acceptedTasks) ->
      exists rest, s.buffer.published = s.acceptedTasks ++ rest ∧
        forall task, task ∈ rest -> task = Task.wakeup := by
    intro ok heq
    cases ok with
    | false => exact hnone heq
    | true => exact ⟨[Task.wakeup], heq, by simp⟩
  have hunset : s.shutdown = false -> False := by
    rw [hshutdown]
    intro hne
    cases hne
  cases hc : s.client with
  | pushWakeup =>
      rw [hc] at hclient
      exact hnone hclient.right
  | waking =>
      rw [hc] at hclient
      have hpushing := hclient.right
      unfold Pushing at hpushing
      cases hp : s.buffer.producer with
      | idle =>
          rw [hp] at hpushing
          exact hpushing.elim
      | returned ok =>
          rw [hp] at hpushing
          exact hreturned ok hpushing
      | _ =>
          rw [hp] at hpushing
          exact hnone hpushing.right
  | join =>
      rw [hc] at hclient
      rcases hclient.right with ⟨ok, heq⟩
      exact hreturned ok heq
  | done =>
      rw [hc] at hclient
      rcases hclient.right.right with ⟨ok, heq⟩
      exact hreturned ok heq
  | _ =>
      rw [hc] at hclient
      exact (hunset hclient.left).elim

theorem leaving_step (h : Inv s) (hleaving : Leaving s.worker)
    {moved : Task τ -> Task τ} {a : Action τ}
    (hstep : step moved s a = some s') :
    Leaving s'.worker ∧ s'.invoked = s.invoked ∧
      s'.accepted = s.accepted := by
  have hshutdown := (h.shutdown_of_leaving hleaving).left
  have hclient := h.client
  unfold ClientInv at hclient
  have hrunning : s.client ≠ Client.running := by
    intro hc
    simp [hc, hshutdown] at hclient
  have henqueue : forall t, s.client ≠ Client.enqueue t := by
    intro t hc
    simp [hc, hshutdown] at hclient
  have hcall : forall t, s.callEnqueue t = some s' -> False := by
    intro t hcall
    unfold callEnqueue at hcall
    split at hcall
    · contradiction
    · cases hcall
  cases a with
  | enqueueTask t => exact (hcall t hstep).elim
  | enqueueTaskMove t => exact (hcall t hstep).elim
  | tShutdown =>
      have hshut : s.callShutdown = some s' := hstep
      unfold callShutdown at hshut
      split at hshut
      · contradiction
      · cases hshut
  | client =>
      have hframe := clientStep_frame hstep
      rw [hframe.left]
      exact ⟨hleaving, hframe.right.left, hframe.right.right henqueue⟩
  | worker =>
      exact workerStep_leaving hleaving hstep

theorem taken_iff (h : Inv s) (hshutdown : s.shutdown = true)
    (hcopied : s.buffer.copied = 0) :
    s.acceptedTasks <+: s.buffer.obtained <->
      forall t, Task.client t ∉ s.buffer.ring.contents := by
  have hflow := h.buffer.flow
  rcases h.published_eq hshutdown with ⟨rest, hpublished, hrest⟩
  have hunread : s.buffer.unread = s.buffer.ring.contents := by
    unfold Spsc.unread
    rw [hcopied]
    rfl
  rw [hunread, hpublished] at hflow
  constructor
  · intro htaken t hmem
    rcases htaken with ⟨extra, hextra⟩
    rw [<- hextra, List.append_assoc] at hflow
    have hsame : rest = extra ++ s.buffer.ring.contents :=
      List.append_cancel_left hflow
    have hwakeup := hrest (Task.client t)
      (hsame ▸ List.mem_append_right extra hmem)
    cases hwakeup
  · intro hnone
    rcases List.append_eq_append_iff.mp hflow with
      ⟨extra, hobtained, _⟩ | ⟨left, haccepted, hcontents⟩
    · exact ⟨extra, hobtained.symm⟩
    · cases left with
      | nil =>
          rw [List.append_nil] at haccepted
          exact ⟨[], by rw [haccepted, List.append_nil]⟩
      | cons task left =>
          have hmem : task ∈ s.acceptedTasks := by
            rw [haccepted]
            simp
          rcases List.mem_map.mp hmem with ⟨t, _, ht⟩
          exact absurd (by rw [hcontents, ht]; simp) (hnone t)

theorem allInvoked_iff (h : Inv s) (hleaving : Leaving s.worker) :
    AllInvoked s <-> s.acceptedTasks <+: s.invoked := by
  rcases h.shutdown_of_leaving hleaving with ⟨hshutdown, htaken⟩
  rcases h.published_eq hshutdown with ⟨rest, hpublished, hrest⟩
  have hfront : s.invoked <+: s.acceptedTasks ++ rest := by
    rw [<- hpublished, h.buffer.flow]
    exact htaken.trans (List.prefix_append _ _)
  have hclients : s.acceptedTasks.filterMap Task.client? = s.accepted := by
    simp [acceptedTasks, List.filterMap_map, Task.client?, Function.comp_def]
  have hlength : s.acceptedTasks.length = s.accepted.length :=
    List.length_map _
  constructor
  · intro hall
    rcases List.prefix_or_prefix_of_prefix hfront
      (List.prefix_append s.acceptedTasks rest) with hshort | hlong
    · have hle : s.accepted.length <= s.invoked.length := by
        rw [<- hall.left]
        exact List.length_filterMap_le _ _
      have heq : s.invoked = s.acceptedTasks :=
        hshort.eq_of_length_le (by rw [hlength]; exact hle)
      exact ⟨[], by rw [heq, List.append_nil]⟩
    · exact hlong
  · intro hlong
    rcases hlong with ⟨extra, hinvoked⟩
    rw [<- hinvoked, List.prefix_append_right_inj] at hfront
    have hextra : forall task, task ∈ extra -> task = Task.wakeup :=
      fun task hmem => hrest task (hfront.mem hmem)
    constructor
    · have hnone : extra.filterMap Task.client? = [] := by
        apply List.filterMap_eq_nil_iff.mpr
        intro task hmem
        rw [hextra task hmem]
        rfl
      rw [<- hinvoked, List.filterMap_append, hclients, hnone,
        List.append_nil]
    · intro task hmem
      rw [<- hinvoked, List.mem_append] at hmem
      cases hmem with
      | inl haccepted =>
          rcases List.mem_map.mp haccepted with ⟨t, _, ht⟩
          exact Or.inr ⟨t, ht.symm⟩
      | inr hwakeup =>
          exact Or.inl (hextra task hwakeup)

theorem leave_step (h : Inv s) {moved : Task τ -> Task τ}
    (hw : s.worker = Worker.testShutdown) (hshutdown : s.shutdown = true)
    (hstep : step moved s Action.worker = some s') :
    Leaving s'.worker ∧ s'.invoked = s.invoked ∧ s'.accepted = s.accepted ∧
      (s.acceptedTasks <+: s.invoked <-> LeavesEmpty s Action.worker) := by
  have hworker := h.worker
  unfold WorkerInv at hworker
  rw [hw] at hworker
  simp only [step, workerStep, hw, if_pos hshutdown] at hstep
  rcases withBuffer_eq_some.mp hstep with ⟨b, hb, hs'⟩
  subst hs'
  have hcopied := (h.buffer.callConsumer_eq hb).left
  refine ⟨trivial, rfl, rfl, ?_⟩
  rw [<- hworker, h.taken_iff hshutdown hcopied]
  constructor
  · intro hnone _ _ _
    exact hnone
  · intro hguard
    exact hguard rfl hw hshutdown

end Inv

/-!
# Runs

A worker that leaves the polling loop too early has dropped tasks for good; one
that leaves it with no task of the client in the ring buffer has dropped none.
-/

def Kept (s : Lfthread τ) : Prop :=
  Leaving s.worker -> s.acceptedTasks <+: s.invoked

def Dropped (s : Lfthread τ) : Prop :=
  Leaving s.worker ∧ ¬ s.acceptedTasks <+: s.invoked

theorem Kept.step {s s' : Lfthread τ} (hkept : Kept s) (h : Inv s)
    {moved : Task τ -> Task τ} {a : Action τ} (hguard : LeavesEmpty s a)
    (hstep : step moved s a = some s') : Kept s' := by
  intro hleaving
  unfold acceptedTasks
  rcases leaving_cases hstep hleaving with hbefore | ⟨ha, hw, hshutdown⟩
  · have hsame := h.leaving_step hbefore hstep
    rw [hsame.right.left, hsame.right.right]
    exact hkept hbefore
  · subst ha
    rcases h.leave_step hw hshutdown hstep with
      ⟨_, hinvoked, haccepted, hiff⟩
    rw [hinvoked, haccepted]
    exact hiff.mpr hguard

theorem dropped_of_not_leavesEmpty {s s' : Lfthread τ} (h : Inv s)
    {moved : Task τ -> Task τ} {a : Action τ} (hguard : ¬ LeavesEmpty s a)
    (hstep : Lfthread.step moved s a = some s') : Dropped s' := by
  have hleave : a = Action.worker ∧ s.worker = Worker.testShutdown ∧
      s.shutdown = true := by
    by_contra hnot
    apply hguard
    intro ha hw hshutdown
    exact absurd ⟨ha, hw, hshutdown⟩ hnot
  rcases hleave with ⟨ha, hw, hshutdown⟩
  subst ha
  rcases h.leave_step hw hshutdown hstep with
    ⟨hleaving, hinvoked, haccepted, hiff⟩
  refine ⟨hleaving, ?_⟩
  unfold acceptedTasks
  rw [hinvoked, haccepted]
  exact fun hfront => hguard (hiff.mp hfront)

theorem Dropped.step {s s' : Lfthread τ} (hdropped : Dropped s) (h : Inv s)
    {moved : Task τ -> Task τ} {a : Action τ}
    (hstep : Lfthread.step moved s a = some s') : Dropped s' := by
  have hsame := h.leaving_step hdropped.left hstep
  refine ⟨hsame.left, ?_⟩
  unfold acceptedTasks
  rw [hsame.right.left, hsame.right.right]
  exact hdropped.right

structure Overrun (s : Lfthread τ) : Prop where
  buffer : s.buffer.NoCells
  client :
    match s.client with
    | Client.testShutdown => s.shutdown = false
    | Client.running => s.shutdown = false
    | Client.join | Client.done => False
    | _ => True

theorem Overrun.clientStep {s s' : Lfthread τ} (h : Overrun s)
    (hstep : s.clientStep = some s') : Overrun s' := by
  have hclient := h.client
  have hproducer := h.buffer.producer
  have hbusy : s.withBuffer s.buffer.produce = some s' ->
      s'.client = s.client ∧ s'.shutdown = s.shutdown ∧ s'.buffer.NoCells := by
    intro hpush
    rcases withBuffer_eq_some.mp hpush with ⟨b, hb, hs'⟩
    subst hs'
    exact ⟨rfl, rfl, h.buffer.produce_noCells hb⟩
  cases hc : s.client with
  | enqueue t =>
      simp only [Lfthread.clientStep, hc] at hstep
      split at hstep
      · rename_i ok hp
        simp only [hp] at hproducer
      · have hsame := hbusy hstep
        refine { buffer := hsame.right.right, client := ?_ }
        rw [hsame.left, hc]
        trivial
  | waking =>
      simp only [Lfthread.clientStep, hc] at hstep
      split at hstep
      · rename_i ok hp
        simp only [hp] at hproducer
      · have hsame := hbusy hstep
        refine { buffer := hsame.right.right, client := ?_ }
        rw [hsame.left, hc]
        trivial
  | testShutdown =>
      simp only [hc] at hclient
      have hunset : ¬ s.shutdown = true := by
        rw [hclient]
        exact Bool.false_ne_true
      simp only [Lfthread.clientStep, hc, if_neg hunset,
        Option.some.injEq] at hstep
      subst hstep
      exact { h with client := trivial }
  | setShutdown =>
      simp only [Lfthread.clientStep, hc, Option.some.injEq] at hstep
      subst hstep
      exact { h with client := trivial }
  | pushWakeup =>
      simp only [Lfthread.clientStep, hc] at hstep
      rcases withBuffer_eq_some.mp hstep with ⟨b, hb, hs'⟩
      subst hs'
      exact { buffer := h.buffer.callPush_noCells hb, client := trivial }
  | running =>
      simp [Lfthread.clientStep, hc] at hstep
  | join =>
      simp only [hc] at hclient
  | done =>
      simp only [hc] at hclient

theorem Overrun.workerStep {s s' : Lfthread τ} (h : Overrun s)
    {moved : Task τ -> Task τ} (hstep : s.workerStep moved = some s') :
    Overrun s' := by
  have hpop : forall {move : Bool} {w : Worker τ},
      { s with worker := w }.withBuffer
        (s.buffer.callConsumer (Consumer.popLoadTail move)) = some s' ->
          Overrun s' := by
    intro move w hcall
    rcases withBuffer_eq_some.mp hcall with ⟨b, hb, hs'⟩
    subst hs'
    exact { buffer := h.buffer.callPop_noCells hb, client := h.client }
  have hconsume : s.withBuffer (s.buffer.consume moved) = some s' ->
      Overrun s' := by
    intro hcall
    rcases withBuffer_eq_some.mp hcall with ⟨b, hb, hs'⟩
    subst hs'
    exact { buffer := h.buffer.consume_noCells hb, client := h.client }
  cases hw : s.worker with
  | testShutdown =>
      simp only [Lfthread.workerStep, hw] at hstep
      split at hstep
      · exact hpop hstep
      · exact hpop hstep
  | polling =>
      simp only [Lfthread.workerStep, hw] at hstep
      split at hstep
      · cases hstep
        exact { h with }
      · cases hstep
        exact { h with }
      · exact hconsume hstep
  | invoke task =>
      simp only [Lfthread.workerStep, hw, Option.some.injEq] at hstep
      subst hstep
      exact { h with }
  | draining =>
      simp only [Lfthread.workerStep, hw] at hstep
      split at hstep
      · cases hstep
        exact { h with }
      · cases hstep
        exact { h with }
      · exact hconsume hstep
  | discard =>
      simp only [Lfthread.workerStep, hw] at hstep
      exact hpop hstep
  | exited =>
      simp [Lfthread.workerStep, hw] at hstep

theorem Overrun.step {s s' : Lfthread τ} (h : Overrun s)
    {moved : Task τ -> Task τ} {a : Action τ}
    (hstep : Lfthread.step moved s a = some s') : Overrun s' := by
  have henqueue : forall t, s.callEnqueue t = some s' -> Overrun s' := by
    intro t hcall
    unfold callEnqueue at hcall
    split at hcall
    · rcases withBuffer_eq_some.mp hcall with ⟨b, hb, hs'⟩
      subst hs'
      exact { buffer := h.buffer.callPush_noCells hb, client := trivial }
    · cases hcall
  cases a with
  | enqueueTask t => exact henqueue t hstep
  | enqueueTaskMove t => exact henqueue t hstep
  | tShutdown =>
      have hcall : s.callShutdown = some s' := hstep
      have hclient := h.client
      unfold callShutdown at hcall
      split at hcall
      · rename_i hc
        simp only [hc] at hclient
        cases hcall
        exact { h with client := hclient }
      · cases hcall
  | client => exact h.clientStep hstep
  | worker => exact h.workerStep hstep

/--
In every run in which `t_shutdown` has returned, for every size of the ring
buffer: all accepted tasks have been invoked exactly if the ring buffer held no
task of the client when the worker left its polling loop.
-/
theorem allInvoked_iff_leavesEmpty (moved : Task τ -> Task τ) (size : UInt64)
    (acts : List (Action τ)) (s : Lfthread τ)
    (hrun : StepFn.run (step moved) (start size) acts = some s)
    (hdone : s.client = Client.done) :
    AllInvoked s <-> StepFn.Meets (step moved) LeavesEmpty (start size) acts := by
  by_cases hsize : size.toNat <= 2 ^ 63
  · have hinv : Inv s :=
      StepFn.run_invariant (fun _ _ _ h hstep => h.step_inv hstep)
        (start_inv hsize) hrun
    have hleaving : Leaving s.worker := by
      have hclient := hinv.client
      unfold ClientInv at hclient
      rw [hdone] at hclient
      rw [hclient.right.left]
      trivial
    rw [hinv.allInvoked_iff hleaving]
    constructor
    · intro hkept
      have hnot : ¬ Dropped s := fun hdropped => hdropped.right hkept
      exact StepFn.meets_of_not_absorbed
        (fun _ _ _ h hstep => h.step_inv hstep)
        (fun _ _ _ h hstep hguard =>
          dropped_of_not_leavesEmpty h hguard hstep)
        (fun _ _ _ h hdropped hstep => hdropped.step h hstep)
        (start_inv hsize) hrun hnot
    · intro hmeets
      have hpres : forall s a s', Inv s ∧ Kept s -> LeavesEmpty s a ->
          step moved s a = some s' -> Inv s' ∧ Kept s' := by
        intro s a s' h hguard hstep
        exact ⟨h.left.step_inv hstep, h.right.step h.left hguard hstep⟩
      have hkept := StepFn.run_invariant_of_meets hpres
        ⟨start_inv hsize, fun hleaving => hleaving.elim⟩ hmeets hrun
      exact hkept.right hleaving
  · have hoverrun : Overrun s :=
      StepFn.run_invariant (fun _ _ _ h hstep => h.step hstep)
        { buffer := Spsc.start_noCells _ size.toNat_lt (by omega),
          client := rfl } hrun
    have hclient := hoverrun.client
    simp only [hdone] at hclient

theorem allInvoked_iff_leavesEmpty_polled :
    exists s : Lfthread Nat,
      StepFn.run (step id) (start 2)
          (Action.enqueueTask 7 :: List.replicate 5 Action.client ++
            List.replicate 7 Action.worker ++
            Action.tShutdown :: List.replicate 8 Action.client ++
            List.replicate 10 Action.worker ++ [Action.client]) = some s ∧
        s.client = Client.done ∧ s.invoked = [Task.client 7] ∧
        (AllInvoked s <->
          StepFn.Meets (step id) LeavesEmpty (start 2)
          (Action.enqueueTask 7 :: List.replicate 5 Action.client ++
            List.replicate 7 Action.worker ++
            Action.tShutdown :: List.replicate 8 Action.client ++
            List.replicate 10 Action.worker ++ [Action.client])) :=
  ⟨_, rfl, rfl, rfl,
    allInvoked_iff_leavesEmpty id 2
          (Action.enqueueTask 7 :: List.replicate 5 Action.client ++
            List.replicate 7 Action.worker ++
            Action.tShutdown :: List.replicate 8 Action.client ++
            List.replicate 10 Action.worker ++ [Action.client]) _ rfl rfl⟩

/-- The flag is set before the worker has polled the only task. -/
theorem shutdown_before_poll_drops_task :
    exists s : Lfthread Nat,
      StepFn.run (step id) (start 2)
          (Action.enqueueTask 7 :: List.replicate 5 Action.client ++
            Action.tShutdown :: List.replicate 6 Action.client ++
            List.replicate 10 Action.worker ++ [Action.client]) = some s ∧
        s.client = Client.done ∧ s.accepted = [7] ∧ s.invoked = [] ∧
        ¬ AllInvoked s := by
  refine ⟨_, rfl, rfl, rfl, rfl, ?_⟩
  intro hall
  have hlost : ([] : List Nat) = [7] := hall.left
  cases hlost

end Lfthread

end MoonNet
