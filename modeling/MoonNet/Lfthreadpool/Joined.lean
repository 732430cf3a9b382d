import MoonNet.Lfthread.Returning
import MoonNet.Lfthreadpool.Served

/-!
# `t_shutdown` joins all workers

The client shuts down one worker after the other.  Workers that are still to be
shut down go on polling meanwhile, so an end is reached if the scheduler lets the
client and the worker that it joins go on.
-/

namespace MoonNet

open Foundation
open Ringbuff

universe u

namespace StaticPool

variable {τ : Type u} {moved : Task τ -> Task τ} {s s' : StaticPool τ}

/-- Steps of the client in its call, and steps of the workers. -/
def Action.Internal : Action τ -> Prop
  | Action.client | Action.worker _ => True
  | _ => False

structure Sound (s : StaticPool τ) : Prop where
  inv : Inv s
  calls : forall w, w ∈ s.workers -> Lfthread.InCalls w
  closed : forall i, s.client = Client.stopping i -> s.shutdown = true

theorem start_sound (hardware : Nat) (n : Int) {size : UInt64}
    (hsize : size.toNat <= 2 ^ 63) :
    Sound (start hardware n size : StaticPool τ) where
  inv := start_inv hardware n hsize
  calls := by
    intro w hw
    rw [List.eq_of_mem_replicate hw]
    exact Lfthread.start_inCalls size
  closed := nofun

theorem Sound.next (h : Sound s) {a : Action τ}
    (hstep : StaticPool.step moved s a = some s') : Sound s' where
  inv := h.inv.next (step_steps hstep)
  calls := ((family moved).moved s a s' hstep).all_keeps
    (fun _ _ _ hw hstep => hw.step hstep) h.calls
  closed := by
    intro i hi
    cases step_steps hstep with
    | refuses hc hshutdown => exact h.closed i hi
    | skips hc hshutdown hnone => exact h.closed i hi
    | adds hb hc hshutdown hw hstep => cases hi
    | shuts hc hshutdown => rfl
    | pushes hc hw hstill hstep => exact h.closed i hi
    | returns hc hw hok hstep => cases hi
    | stops hc hw ha hstep => exact h.closed i hi
    | stopped hc hw hdone => exact h.closed _ hc
    | ends hc hnone => cases hi
    | works hw hstep => exact h.closed i hi

/-!
# One worker
-/

def labelAt (i : Nat) : Lfthread.Action τ -> Action τ
  | Lfthread.Action.worker => Action.worker i
  | _ => Action.client

def putAt (s : StaticPool τ) (i : Nat) (w : Lfthread τ) : StaticPool τ :=
  { s with workers := s.workers.set i w }

theorem putAt_getElem? {i : Nat} (hi : i < s.workers.length)
    (w : Lfthread τ) : (s.putAt i w).workers[i]? = some w :=
  List.getElem?_set_self hi

theorem putAt_putAt (i : Nat) (w w' : Lfthread τ) :
    (s.putAt i w).putAt i w' = s.putAt i w' := by
  show { s with workers := (s.workers.set i w).set i w' } = _
  rw [List.set_set]
  rfl

theorem move_putAt {i : Nat} (hi : i < s.workers.length)
    {w w' : Lfthread τ} {a : Lfthread.Action τ}
    (hstep : w.step moved a = some w') :
    (s.putAt i w).move moved i a = some (s.putAt i w') := by
  unfold move
  rw [putAt_getElem? hi]
  simp only
  rw [hstep]
  exact congrArg some (putAt_putAt i w w')

theorem step_putAt {i : Nat} (hc : s.client = Client.stopping i)
    (hi : i < s.workers.length) {w w' : Lfthread τ} {a : Lfthread.Action τ}
    (ha : a.Closes) (hstep : w.step moved a = some w') :
    (labelAt i a).Internal ∧
      step moved (s.putAt i w) (labelAt i a) = some (s.putAt i w') := by
  have hmove : forall b, w.step moved b = some w' ->
      (s.putAt i w).move moved i b = some (s.putAt i w') :=
    fun b hb => move_putAt hi hb
  have hclient : (s.putAt i w).client = Client.stopping i := hc
  cases a with
  | enqueueTask t => exact ha.elim
  | enqueueTaskMove t => exact ha.elim
  | worker => exact ⟨trivial, hmove _ hstep⟩
  | tShutdown =>
      refine ⟨trivial, ?_⟩
      have hrunning : w.client = Lfthread.Client.running := by
        have hcall : w.callShutdown = some w' := hstep
        unfold Lfthread.callShutdown at hcall
        split at hcall
        · rename_i hrunning
          exact hrunning
        · cases hcall
      show (s.putAt i w).clientStep moved = _
      unfold clientStep
      rw [hclient]
      simp only
      rw [putAt_getElem? hi]
      simp only
      rw [hrunning]
      exact hmove _ hstep
  | client =>
      refine ⟨trivial, ?_⟩
      show (s.putAt i w).clientStep moved = _
      unfold clientStep
      rw [hclient]
      simp only
      rw [putAt_getElem? hi]
      simp only
      have hcall : w.clientStep = some w' := hstep
      unfold Lfthread.clientStep at hcall
      split
      · rename_i hrunning
        rw [hrunning] at hcall
        cases hcall
      · rename_i hdone
        rw [hdone] at hcall
        cases hcall
      · exact hmove _ hstep

theorem Sound.joins (h : Sound s) {i : Nat}
    (hc : s.client = Client.stopping i) (hi : i < s.workers.length) :
    StepFn.CanReach (step moved) Action.Internal
      (fun t => Sound t ∧ t.client = Client.stopping (i + 1) ∧
        t.workers.length = s.workers.length) s := by
  have hw : s.workers[i]? = some s.workers[i] := List.getElem?_eq_getElem hi
  have hmem := List.getElem_mem hi
  have hplace := (place_stopping hc).mp (h.inv.places i _ hw)
  have hnot : forall t, s.workers[i].client ≠ Lfthread.Client.enqueue t := by
    intro t henqueue
    rcases hplace.right.right.right rfl with hrunning | hstopping
    · rw [hrunning] at henqueue
      cases henqueue
    · rw [henqueue] at hstopping
      exact hstopping
  have hself : s.putAt i s.workers[i] = s := by
    show { s with workers := s.workers.set i s.workers[i] } = s
    rw [List.set_getElem_self]
  have hover : StepFn.CanReach (Lfthread.step moved)
      Lfthread.Action.Closes Lfthread.Over s.workers[i] :=
    Lfthread.canReach_over (h.inv.workers _ hmem) (h.calls _ hmem) hnot
  have hlift : StepFn.CanReach (step moved) Action.Internal
      (fun t => exists w, Lfthread.Over w ∧ t = s.putAt i w)
      (s.putAt i s.workers[i]) :=
    hover.lift (s.putAt i) (labelAt i)
      fun w a w' ha hstep => step_putAt hc hi ha hstep
  rw [hself] at hlift
  have hkeeps := hlift.keeps (fun s a s' hs hstep => hs.next hstep) h
  refine hkeeps.trans ?_
  rintro t ⟨⟨w', hdone, rfl⟩, hsound⟩
  have hstep : step moved (s.putAt i w') Action.client =
      some { s.putAt i w' with client := Client.stopping (i + 1) } := by
    have hclient : (s.putAt i w').client = Client.stopping i := hc
    show (s.putAt i w').clientStep moved = _
    unfold clientStep
    rw [hclient]
    simp only
    rw [putAt_getElem? hi]
    simp only
    rw [hdone.client]
  have hafter : StepFn.CanReach (step moved) Action.Internal
      (fun t => Sound t ∧ t.client = Client.stopping (i + 1) ∧
        t.workers.length = s.workers.length) _ :=
    StepFn.canReach_here ⟨hsound.next hstep, rfl, List.length_set⟩
  exact hafter.after hstep trivial

/-!
# All workers
-/

theorem Sound.returns (h : Sound s) {i : Nat}
    (hc : s.client = Client.stopping i) :
    StepFn.CanReach (step moved) Action.Internal Shut s := by
  induction hleft : s.workers.length - i generalizing s i with
  | zero =>
      have hnone : s.workers[i]? = none :=
        List.getElem?_eq_none (Nat.le_of_sub_eq_zero hleft)
      have hstep : step moved s Action.client =
          some { s with client := Client.running } := by
        show s.clientStep moved = _
        unfold clientStep
        rw [hc]
        simp only
        rw [hnone]
      have hshut : StepFn.CanReach (step moved) Action.Internal Shut
          { s with client := Client.running } :=
        StepFn.canReach_here ⟨rfl, h.closed i hc⟩
      exact hshut.after hstep trivial
  | succ n ih =>
      have hi : i < s.workers.length := by omega
      refine (h.joins hc hi).trans ?_
      rintro t ⟨hsound, hnext, hlength⟩
      apply ih hsound hnext
      rw [hlength]
      omega

/--
From every state of a static pool in which the client is in `t_shutdown`, the
client and the workers can go on until it has returned.
-/
theorem shutdown_canReturn (moved : Task τ -> Task τ) (hardware : Nat)
    (n : Int) (size : UInt64) (hsize : size.toNat <= 2 ^ 63)
    (acts : List (Action τ)) (s : StaticPool τ) (i : Nat)
    (hrun : StepFn.run (step moved) (start hardware n size) acts = some s)
    (hstopping : s.client = Client.stopping i) :
    StepFn.CanReach (step moved) Action.Internal Shut s := by
  have hpres : forall (s : StaticPool τ) a s', Sound s ->
      step moved s a = some s' -> Sound s' :=
    fun s a s' hs hstep => hs.next hstep
  have hsound := StepFn.run_invariant hpres
    (start_sound hardware n hsize) hrun
  exact hsound.returns hstopping

def oneAdded : List (Action Nat) :=
  Action.addTask 7 :: List.replicate 5 Action.client ++ [Action.tShutdown]

theorem shutdown_canReturn_oneAdded :
    exists s, StepFn.run (step id) (start 1 2 2) oneAdded = some s ∧
      StepFn.CanReach (step id) Action.Internal Shut s := by
  refine ⟨_, rfl, ?_⟩
  exact shutdown_canReturn id 1 2 2 (by decide) oneAdded _ 0 rfl rfl

end StaticPool

end MoonNet
