import Mathlib.Algebra.Group.Nat.Defs
import MoonNet.Foundation.Simulation

/-!
# Waiting for work

Waiters sleep when they find no work.  Whoever offers work signals afterwards,
once for each unit, and a signal wakes one sleeper if there is one.  What keeps
work from being stranded while somebody sleeps is that each unit is covered: by
a waiter that is up and will look again, or by a signal that is to come.
-/

namespace MoonNet
namespace Foundation

structure WaitSet where
  work : Nat
  movers : Nat
  signals : Nat
  sleepers : Nat

namespace WaitSet

/--
Work can be offered in place of other work.  A waiter takes a unit and goes on,
or leaves with it, and then some signals may be cancelled; it departs or sleeps
when there is no work.
-/
inductive Action where
  | offer (instead units : Nat)
  | arrive (count : Nat)
  | signal (count : Nat)
  | wake
  | wakeAll
  | take
  | leave (cancelled : Nat)
  | depart
  | sleep

def step : StepFn WaitSet Action := fun q a =>
  match a with
  | Action.offer instead units =>
      if instead <= q.work then
        some { q with
          work := q.work - instead + units, signals := q.signals + units }
      else none
  | Action.arrive count => some { q with movers := q.movers + count }
  | Action.signal count =>
      if count <= q.signals then
        some { q with
          signals := q.signals - count
          movers := q.movers + min count q.sleepers
          sleepers := q.sleepers - min count q.sleepers }
      else none
  | Action.wake =>
      if 0 < q.sleepers then
        some { q with movers := q.movers + 1, sleepers := q.sleepers - 1 }
      else none
  | Action.wakeAll =>
      some { q with movers := q.movers + q.sleepers, sleepers := 0 }
  | Action.take =>
      if 0 < q.work ∧ 0 < q.movers then some { q with work := q.work - 1 }
      else none
  | Action.leave cancelled =>
      if 0 < q.work ∧ 0 < q.movers ∧ cancelled <= q.signals then
        some { q with
          work := q.work - 1
          movers := q.movers - 1
          signals := q.signals - cancelled }
      else none
  | Action.depart =>
      if q.work = 0 ∧ 0 < q.movers then
        some { q with movers := q.movers - 1 }
      else none
  | Action.sleep =>
      if q.work = 0 ∧ 0 < q.movers then
        some { q with movers := q.movers - 1, sleepers := q.sleepers + 1 }
      else none

/-- While somebody sleeps, every unit has a waiter that is up, or a signal. -/
def Covered (q : WaitSet) : Prop :=
  0 < q.sleepers -> q.work <= q.movers + q.signals

def KeepsCover (q : WaitSet) (a : Action) : Prop :=
  forall cancelled, a = Action.leave cancelled -> 0 < q.sleepers ->
    q.work + cancelled <= q.movers + q.signals

theorem Covered.not_stranded {q : WaitSet} (h : Covered q)
    (hwork : 0 < q.work) (hsleepers : 0 < q.sleepers) :
    0 < q.movers ∨ 0 < q.signals := by
  have hcover := h hsleepers
  omega

theorem step_covered_iff {q q' : WaitSet} {a : Action} (h : Covered q)
    (hstep : step q a = some q') : Covered q' <-> KeepsCover q a := by
  unfold Covered at h
  cases a with
  | offer instead units =>
      refine iff_of_true ?_ nofun
      simp only [step] at hstep
      split at hstep
      · cases hstep
        intro hsleepers
        have hcover := h hsleepers
        show q.work - instead + units <= q.movers + (q.signals + units)
        omega
      · cases hstep
  | arrive count =>
      refine iff_of_true ?_ nofun
      cases hstep
      intro hsleepers
      have hcover := h hsleepers
      show q.work <= q.movers + count + q.signals
      omega
  | signal count =>
      refine iff_of_true ?_ nofun
      simp only [step] at hstep
      split at hstep
      · rename_i hle
        cases hstep
        -- Somebody still sleeps, so every signal has woken one.
        intro hsleepers
        have hleft : 0 < q.sleepers - min count q.sleepers := hsleepers
        have hall : min count q.sleepers = count := by omega
        have hcover := h (by omega)
        show q.work <= q.movers + min count q.sleepers + (q.signals - count)
        rw [hall]
        omega
      · cases hstep
  | wake =>
      refine iff_of_true ?_ nofun
      simp only [step] at hstep
      split at hstep
      · rename_i hpos
        cases hstep
        intro _
        have hcover := h hpos
        show q.work <= q.movers + 1 + q.signals
        omega
      · cases hstep
  | wakeAll =>
      refine iff_of_true ?_ nofun
      cases hstep
      intro hsleepers
      cases hsleepers
  | take =>
      refine iff_of_true ?_ nofun
      simp only [step] at hstep
      split at hstep
      · cases hstep
        intro hsleepers
        have hcover := h hsleepers
        show q.work - 1 <= q.movers + q.signals
        omega
      · cases hstep
  | leave cancelled =>
      simp only [step] at hstep
      split at hstep
      · rename_i hcan
        cases hstep
        constructor
        · intro hafter c hc hsleepers
          cases hc
          have hcover : q.work - 1 <=
              q.movers - 1 + (q.signals - cancelled) := hafter hsleepers
          omega
        · intro hkeeps hsleepers
          have hspare := hkeeps cancelled rfl hsleepers
          show q.work - 1 <= q.movers - 1 + (q.signals - cancelled)
          omega
      · cases hstep
  | depart =>
      refine iff_of_true ?_ nofun
      simp only [step] at hstep
      split at hstep
      · rename_i hcan
        cases hstep
        intro _
        show q.work <= _
        rw [hcan.left]
        exact Nat.zero_le _
      · cases hstep
  | sleep =>
      refine iff_of_true ?_ nofun
      simp only [step] at hstep
      split at hstep
      · rename_i hcan
        cases hstep
        intro _
        show q.work <= _
        rw [hcan.left]
        exact Nat.zero_le _
      · cases hstep

end WaitSet

end Foundation
end MoonNet
