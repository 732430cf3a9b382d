import MoonNet.Acceptor.Backlog
import MoonNet.Foundation.Progress

/-!
# The acceptor comes to rest

As long as no call of `accept` fails but with `EAGAIN`, the loop of
`handle_accept` is left on an empty queue only.  So once no more connections
arrive, the loop thread comes to rest in whatever order it is reported and goes
on, and it has passed on every connection by then.
-/

namespace MoonNet

open Foundation
open Kernel

namespace Backlog

variable {s s' : Backlog}

/-- No connection is aborted, and `accept` fails with `EAGAIN` only. -/
def Untroubled (_ : Backlog) : Action -> Prop
  | Action.aborts => False
  | Action.accept failure => failure = none
  | _ => True

/-- The loop of `handle_accept` is left on an empty queue only. -/
structure Calm (s : Backlog) : Prop where
  inv : Inv s
  inOrder : InOrder s
  attended : Attended s
  queued : Acceptor.Untroubled s.base.arrivals
  stays : s.phase ≠ Phase.leaving

theorem start_calm : Calm start where
  inv := start_inv
  inOrder := start_inOrder
  attended := fun hshutdown => by cases hshutdown
  queued := nofun
  stays := nofun

theorem Calm.accept_cases (h : Calm s) (hstep : s.accept none = some s') :
    s.phase = Phase.accepting ∧
      ((s.base.arrivals = [] ∧ s' = s.drained) ∨
        exists cfd rest, s.base.arrivals = Arrival.connected cfd :: rest ∧
          s' = s.accepted cfd rest) := by
  rcases Backlog.accept_cases hstep with ⟨hphase, ⟨_, harrivals, rfl⟩ |
    ⟨cfd, rest, _, harrivals, rfl⟩ | ⟨a, rest, errno, _, harrivals, hnone, _⟩ |
    ⟨errno, hno, _⟩⟩
  · exact ⟨hphase, Or.inl ⟨harrivals, rfl⟩⟩
  · exact ⟨hphase, Or.inr ⟨cfd, rest, harrivals, rfl⟩⟩
  · rcases h.queued a (harrivals ▸ List.mem_cons_self) with ⟨cfd, rfl⟩
    cases hnone
  · cases hno

theorem accepted_phase (s : Backlog) (cfd : Nat) (rest : List Arrival) :
    (s.accepted cfd rest).phase = Phase.callback ∨
      (s.accepted cfd rest).phase = Phase.accepting := by
  unfold accepted
  dsimp only
  split
  · exact Or.inl rfl
  · exact Or.inr rfl

theorem Calm.stays_after (h : Calm s) {a : Action} (hguard : Untroubled s a)
    (hstep : step s a = some s') : s'.phase ≠ Phase.leaving := by
  cases a with
  | connects cfd =>
      cases hstep
      exact h.stays
  | aborts => exact hguard.elim
  | wake =>
      simp only [step] at hstep
      split at hstep
      · cases hstep
        exact h.stays
      · cases hstep
  | wait revents =>
      rcases wait_cases hstep with ⟨_, _, _, rfl⟩
      exact Phase.noConfusion
  | proceed =>
      rcases proceed_cases hstep with ⟨_, p, rfl, rfl | rfl, _⟩
      · exact Phase.noConfusion
      · exact Phase.noConfusion
  | accept failure =>
      have hnone : failure = none := hguard
      rw [hnone] at hstep
      rcases h.accept_cases hstep with ⟨_, ⟨_, rfl⟩ | ⟨cfd, rest, _, rfl⟩⟩
      · exact Phase.noConfusion
      · rcases accepted_phase s cfd rest with hphase | hphase
        · rw [hphase]
          exact Phase.noConfusion
        · rw [hphase]
          exact Phase.noConfusion
  | listen =>
      cases hstep
      unfold listen
      split
      · exact h.stays
      · exact h.stays
  | stop =>
      cases hstep
      unfold stop
      split
      · exact h.stays
      · exact h.stays

theorem Calm.queued_after (h : Calm s) {a : Action} (hguard : Untroubled s a)
    (hstep : step s a = some s') : Acceptor.Untroubled s'.base.arrivals := by
  cases a with
  | connects cfd =>
      cases hstep
      intro a ha
      rcases List.mem_append.mp ha with hold | hnew
      · exact h.queued a hold
      · exact ⟨cfd, List.mem_singleton.mp hnew⟩
  | aborts => exact hguard.elim
  | wake =>
      simp only [step] at hstep
      split at hstep
      · cases hstep
        exact h.queued
      · cases hstep
  | wait revents =>
      rcases wait_cases hstep with ⟨_, _, _, rfl⟩
      exact h.queued
  | proceed =>
      rcases proceed_cases hstep with ⟨_, p, rfl, _⟩
      exact h.queued
  | accept failure =>
      have hnone : failure = none := hguard
      rw [hnone] at hstep
      rcases h.accept_cases hstep with
        ⟨_, ⟨_, rfl⟩ | ⟨cfd, rest, harrivals, rfl⟩⟩
      · intro a ha
        cases ha
      · have hqueued := h.queued
        rw [harrivals] at hqueued
        show Acceptor.Untroubled (s.base.taken cfd rest).arrivals
        rw [Acceptor.taken_arrivals]
        exact Acceptor.untroubled_cons.mp hqueued
  | listen =>
      cases hstep
      unfold listen
      split
      · exact h.queued
      · exact h.queued
  | stop =>
      cases hstep
      unfold stop
      split
      · exact h.queued
      · exact h.queued

theorem step_calm {a : Action} (h : Calm s) (hguard : Untroubled s a)
    (hstep : step s a = some s') : Calm s' := by
  have hleaves : LeavesNoneBehind s a := by
    cases a with
    | proceed => exact fun hphase => absurd hphase h.stays
    | _ => trivial
  exact
    { inv := step_inv h.inv hstep
      inOrder := step_inOrder h.inOrder hstep
      attended := (step_attended_iff h.inv h.attended hstep).mpr hleaves
      queued := h.queued_after hguard hstep
      stays := h.stays_after hguard hstep }

/-!
# The steps that are left
-/

/-- What the loop thread does while nothing arrives and no call fails. -/
def Action.Own : Action -> Prop
  | wait _ | proceed => True
  | accept failure => failure = none
  | connects _ | aborts | wake | listen | stop => False

/-- A listening acceptor has passed on each connection once, in order. -/
def AllPassed (s : Backlog) : Prop :=
  s.shutdown = false -> s.base.passed = connections s.arrived

def Phase.stepsLeft : Phase -> Nat
  | elsewhere => 0
  | handleCb _ => 2
  | accepting => 1
  | callback => 2
  | leaving => 0

def left (s : Backlog) : Nat :=
  3 * s.base.arrivals.length + (if s.edge then 3 else 0) + s.phase.stepsLeft

theorem untroubled_of_own {a : Action} (hown : a.Own) : Untroubled s a := by
  cases a with
  | aborts => exact hown
  | accept failure => exact hown
  | _ => trivial

theorem step_left {a : Action} (h : Calm s) (hown : a.Own)
    (hstep : step s a = some s') : left s' < left s := by
  cases a with
  | wait revents =>
      rcases wait_cases hstep with ⟨hphase, hedge, _, rfl⟩
      unfold left
      dsimp only
      rw [hphase, hedge]
      exact Nat.lt_succ_self _
  | proceed =>
      rcases proceed_cases hstep with ⟨haccepts, p, rfl, hp, _⟩
      have hafter : p.stepsLeft <= 1 := by
        rcases hp with rfl | rfl
        · exact Nat.zero_le 1
        · exact Nat.le_refl 1
      have hbefore : 2 <= s.phase.stepsLeft := by
        cases hphase : s.phase with
        | elsewhere =>
            rw [hphase] at haccepts
            cases haccepts
        | handleCb revents => exact Nat.le_refl 2
        | accepting =>
            have hproceed : s.proceed = some (s.goto p) := hstep
            unfold proceed at hproceed
            simp only [hphase] at hproceed
            cases hproceed
        | callback => exact Nat.le_refl 2
        | leaving => exact absurd hphase h.stays
      exact Nat.add_lt_add_left (Nat.lt_of_le_of_lt hafter hbefore) _
  | accept failure =>
      have hnone : failure = none := hown
      rw [hnone] at hstep
      rcases h.accept_cases hstep with
        ⟨hphase, ⟨harrivals, rfl⟩ | ⟨cfd, rest, harrivals, rfl⟩⟩
      · unfold left drained
        dsimp only
        rw [hphase, harrivals]
        exact Nat.lt_succ_self _
      · have hafter : (s.accepted cfd rest).phase.stepsLeft <= 2 := by
          rcases accepted_phase s cfd rest with hcalls | hgoes
          · rw [hcalls]
            exact Nat.le_refl 2
          · rw [hgoes]
            exact Nat.le_succ 1
        have hrest : (s.accepted cfd rest).base.arrivals = rest :=
          Acceptor.taken_arrivals s.base cfd rest
        have hedge : (s.accepted cfd rest).edge = s.edge := rfl
        have hbefore : s.phase.stepsLeft = 1 := by
          rw [hphase]
          rfl
        unfold left
        rw [hrest, hedge, hbefore, harrivals, List.length_cons]
        omega
  | connects cfd => exact hown.elim
  | aborts => exact hown.elim
  | wake => exact hown.elim
  | listen => exact hown.elim
  | stop => exact hown.elim

theorem atRest_of_stuck (h : Calm s)
    (hstuck : forall a : Action, a.Own -> step s a = none) : s.AtRest := by
  cases hphase : s.phase with
  | elsewhere =>
      refine ⟨hphase, Bool.eq_false_iff.mpr ?_⟩
      intro hedge
      have hnone : s.wait EPOLLIN = none :=
        hstuck (Action.wait EPOLLIN) trivial
      unfold wait at hnone
      simp only [hphase] at hnone
      rw [if_pos ⟨hedge, fun _ _ => rfl⟩] at hnone
      cases hnone
  | handleCb revents =>
      have hnone : s.proceed = none := hstuck Action.proceed trivial
      unfold proceed at hnone
      simp only [hphase] at hnone
      cases hnone
  | accepting =>
      have hnone : s.accept none = none := hstuck (Action.accept none) rfl
      unfold accept at hnone
      simp only [hphase] at hnone
      cases hnone
  | callback =>
      have hnone : s.proceed = none := hstuck Action.proceed trivial
      unfold proceed at hnone
      simp only [hphase] at hnone
      cases hnone
  | leaving => exact absurd hphase h.stays

/--
In a run in which no connection is aborted and no call fails: once nothing
arrives any more, the loop thread takes finitely many steps, in whatever order,
and at their end a listening acceptor has passed on every connection.
-/
theorem backlog_settles (acts : List Action) (t : Backlog)
    (hrun : StepFn.run step start acts = some t)
    (hmeets : StepFn.Meets step Untroubled start acts) :
    StepFn.Settles step Action.Own AllPassed t := by
  have hcalm : Calm t := StepFn.run_invariant_of_meets
    (fun _ _ _ h hguard hstep => step_calm h hguard hstep) start_calm hmeets
    hrun
  have hlower : forall s a s', Calm s -> Action.Own a ->
      step s a = some s' -> Calm s' ∧ left s' < left s := by
    intro s a s' hs hown hstep
    exact ⟨step_calm hs (untroubled_of_own hown) hstep,
      step_left hs hown hstep⟩
  refine StepFn.settles_of_rank left hlower ?_ hcalm
  intro s hs hstuck
  exact passed_atRest hs.inOrder hs.attended (atRest_of_stuck hs hstuck)

def oneWaits : List Action :=
  [Action.listen, Action.connects 7, Action.wait EPOLLIN, Action.proceed,
    Action.accept none, Action.connects 8]

theorem backlog_settles_oneWaits :
    exists t, StepFn.run step start oneWaits = some t ∧
      t.base.passed = [7] ∧ StepFn.Settles step Action.Own AllPassed t := by
  refine ⟨_, rfl, rfl, backlog_settles oneWaits _ rfl ?_⟩
  exact ⟨trivial, trivial, trivial, trivial, rfl, trivial, trivial⟩

end Backlog

end MoonNet
