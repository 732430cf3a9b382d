import MoonNet.Lfthread.Shutdown

/-!
# What a worker has invoked

At any time the worker has invoked the tasks that its client has enqueued, in
their order, up to some task; one whose enqueue has not returned yet may be
among them.
-/

namespace MoonNet

open Foundation
open Ringbuff

universe u

namespace Lfthread

variable {τ : Type u}

def Client.pending : Client τ -> List τ
  | Client.enqueue t => [t]
  | _ => []

def invokedTasks (s : Lfthread τ) : List τ :=
  s.invoked.filterMap Task.client?

def Enqueued (s : Lfthread τ) : Prop :=
  exists rest, s.buffer.published <+: s.acceptedTasks ++ rest ∧
    rest.filterMap Task.client? = s.client.pending ∧
    forall task, task ∈ rest -> task = Task.wakeup ∨ exists t, task = Task.client t

namespace Inv

variable {s : Lfthread τ}

theorem enqueued_none (hpublished : s.buffer.published = s.acceptedTasks)
    (hpending : s.client.pending = []) : s.Enqueued :=
  ⟨[], hpublished ▸ List.prefix_append _ _, hpending.symm, nofun⟩

theorem enqueued_one {task : Task τ} {ok : Bool}
    (hpublished : s.buffer.published =
      if ok = true then s.acceptedTasks ++ [task] else s.acceptedTasks)
    (hpending : [task].filterMap Task.client? = s.client.pending)
    (htask : task = Task.wakeup ∨ exists t, task = Task.client t) :
    s.Enqueued := by
  refine ⟨[task], ?_, hpending, ?_⟩
  · rw [hpublished]
    split
    · exact List.prefix_rfl
    · exact List.prefix_append _ _
  · intro other hmem
    rw [List.mem_singleton.mp hmem]
    exact htask

theorem pushing_published {task : Task τ}
    (h : Pushing s.buffer task s.acceptedTasks) :
    exists ok : Bool, s.buffer.published =
      if ok = true then s.acceptedTasks ++ [task] else s.acceptedTasks := by
  unfold Pushing at h
  cases hp : s.buffer.producer with
  | idle =>
      rw [hp] at h
      exact h.elim
  | returned ok =>
      rw [hp] at h
      exact ⟨ok, h⟩
  | _ =>
      rw [hp] at h
      exact ⟨false, h.right⟩

theorem enqueued (h : Inv s) : s.Enqueued := by
  have hclient := h.client
  unfold ClientInv at hclient
  cases hc : s.client with
  | enqueue t =>
      rw [hc] at hclient
      rcases pushing_published hclient.right with ⟨ok, hpublished⟩
      exact enqueued_one hpublished (hc ▸ rfl) (Or.inr ⟨t, rfl⟩)
  | waking =>
      rw [hc] at hclient
      rcases pushing_published hclient.right with ⟨ok, hpublished⟩
      exact enqueued_one hpublished (hc ▸ rfl) (Or.inl rfl)
  | join =>
      rw [hc] at hclient
      rcases hclient.right with ⟨ok, hpublished⟩
      exact enqueued_one hpublished (hc ▸ rfl) (Or.inl rfl)
  | done =>
      rw [hc] at hclient
      rcases hclient.right.right with ⟨ok, hpublished⟩
      exact enqueued_one hpublished (hc ▸ rfl) (Or.inl rfl)
  | _ =>
      rw [hc] at hclient
      exact enqueued_none hclient.right (hc ▸ rfl)

theorem invoked_obtained (h : Inv s) : s.invoked <+: s.buffer.obtained := by
  have hworker := h.worker
  unfold WorkerInv at hworker
  have hall : s.buffer.obtained = s.invoked ->
      s.invoked <+: s.buffer.obtained := by
    intro hsame
    exact hsame ▸ List.prefix_rfl
  have hbut : forall task, s.buffer.obtained = s.invoked ++ [task] ->
      s.invoked <+: s.buffer.obtained := by
    intro task hone
    exact ⟨[task], hone.symm⟩
  cases hw : s.worker with
  | testShutdown =>
      rw [hw] at hworker
      exact hall hworker
  | polling =>
      rw [hw] at hworker
      have hpopping : Popping s.buffer s.invoked := hworker
      unfold Popping at hpopping
      cases hc : s.buffer.consumer with
      | popLoadTail move =>
          rw [hc] at hpopping
          exact hall hpopping
      | popLoadHead move tail =>
          rw [hc] at hpopping
          exact hall hpopping
      | popRead move tail =>
          rw [hc] at hpopping
          exact hall hpopping
      | popStoreTail x tail =>
          rw [hc] at hpopping
          exact hbut x hpopping
      | popped result =>
          rw [hc] at hpopping
          cases result with
          | none => exact hall hpopping
          | some x => exact hbut x hpopping
      | _ =>
          rw [hc] at hpopping
          exact hpopping.elim
  | invoke task =>
      rw [hw] at hworker
      exact hbut task hworker
  | draining => exact (h.shutdown_of_leaving (hw ▸ trivial)).right
  | discard => exact (h.shutdown_of_leaving (hw ▸ trivial)).right
  | exited => exact (h.shutdown_of_leaving (hw ▸ trivial)).right

/--
The tasks that the worker has invoked are the first of those that its client has
enqueued, and it has invoked nothing else but the wake-up task.
-/
theorem invoked_prefix (h : Inv s) :
    s.invokedTasks <+: s.accepted ++ s.client.pending ∧
      forall task, task ∈ s.invoked ->
        task = Task.wakeup ∨ exists t, task = Task.client t := by
  rcases h.enqueued with ⟨rest, hpublished, hpending, hrest⟩
  have hfront : s.invoked <+: s.acceptedTasks ++ rest := by
    refine h.invoked_obtained.trans (List.IsPrefix.trans ?_ hpublished)
    rw [h.buffer.flow]
    exact List.prefix_append _ _
  have hclients : s.acceptedTasks.filterMap Task.client? = s.accepted := by
    simp [acceptedTasks, List.filterMap_map, Task.client?, Function.comp_def]
  constructor
  · have hfilter := hfront.filterMap Task.client?
    rw [List.filterMap_append, hclients, hpending] at hfilter
    exact hfilter
  · intro task hmem
    rcases List.mem_append.mp (hfront.mem hmem) with haccepted | hlater
    · rcases List.mem_map.mp haccepted with ⟨t, _, ht⟩
      exact Or.inr ⟨t, ht.symm⟩
    · exact hrest task hlater

end Inv

/-!
# What the client knows of a step
-/

theorem workerStep_client {s s' : Lfthread τ} {moved : Task τ -> Task τ}
    (hstep : s.workerStep moved = some s') :
    s'.client = s.client ∧ s'.accepted = s.accepted := by
  have hbuffer : forall {w : Worker τ} {b},
      { s with worker := w }.withBuffer b = some s' ->
      s'.client = s.client ∧ s'.accepted = s.accepted := by
    intro w b h
    rcases withBuffer_eq_some.mp h with ⟨buffer, _, hs'⟩
    subst hs'
    exact ⟨rfl, rfl⟩
  unfold workerStep at hstep
  split at hstep
  · split at hstep
    · exact hbuffer hstep
    · exact hbuffer hstep
  · split at hstep
    · cases hstep
      exact ⟨rfl, rfl⟩
    · cases hstep
      exact ⟨rfl, rfl⟩
    · exact hbuffer hstep
  · cases hstep
    exact ⟨rfl, rfl⟩
  · split at hstep
    · cases hstep
      exact ⟨rfl, rfl⟩
    · cases hstep
      exact ⟨rfl, rfl⟩
    · exact hbuffer hstep
  · exact hbuffer hstep
  · cases hstep

end Lfthread

end MoonNet
