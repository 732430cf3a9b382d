import Mathlib.Algebra.GroupWithZero.Nat
import Mathlib.Algebra.Order.Ring.Nat
import MoonNet.Foundation.Runs

/-!
# Expiring timers

A schedule has a first deadline, and then one after each period.  A timer counts
the deadlines that have passed and hands the count over when it is read, so that
a reader that comes late gets several of them at once.
-/

namespace MoonNet
namespace Foundation

/-- No deadline, one deadline, or with a `period` a series of them. -/
structure Schedule where
  first : Option Nat
  period : Nat
deriving DecidableEq, Repr

namespace Schedule

def due (s : Schedule) (now : Nat) : Nat :=
  match s.first with
  | none => 0
  | some first =>
      if now < first then 0
      else if s.period = 0 then 1
      else (now - first) / s.period + 1

def deadline (s : Schedule) (count : Nat) : Option Nat :=
  match s.first with
  | none => none
  | some first =>
      if s.period = 0 then if count = 0 then some first else none
      else some (first + count * s.period)

theorem due_of_lt {s : Schedule} {now : Nat}
    (hbefore : forall first, s.first = some first -> now < first) :
    s.due now = 0 := by
  unfold due
  cases hfirst : s.first with
  | none => rfl
  | some first => exact if_pos (hbefore first hfirst)

theorem deadline_zero (s : Schedule) : s.deadline 0 = s.first := by
  unfold deadline
  cases s.first with
  | none => rfl
  | some first =>
      dsimp only
      rw [Nat.zero_mul, Nat.add_zero, if_pos rfl]
      exact ite_self _

section

variable {s : Schedule} {first : Nat} (hfirst : s.first = some first)

include hfirst

theorem due_once (hperiod : s.period = 0) {now : Nat} (hle : first <= now) :
    s.due now = 1 := by
  unfold due
  rw [hfirst]
  dsimp only
  rw [if_neg (Nat.not_lt.mpr hle), if_pos hperiod]

theorem due_periodic (hperiod : s.period ≠ 0) {now : Nat}
    (hle : first <= now) : s.due now = (now - first) / s.period + 1 := by
  unfold due
  rw [hfirst]
  dsimp only
  rw [if_neg (Nat.not_lt.mpr hle), if_neg hperiod]

theorem deadline_once (hperiod : s.period = 0) (count : Nat) :
    s.deadline (count + 1) = none := by
  unfold deadline
  rw [hfirst]
  dsimp only
  rw [if_pos hperiod, if_neg (Nat.succ_ne_zero count)]

theorem deadline_periodic (hperiod : s.period ≠ 0) (count : Nat) :
    s.deadline count = some (first + count * s.period) := by
  unfold deadline
  rw [hfirst]
  exact if_neg hperiod

end

theorem due_succ (s : Schedule) (now : Nat) :
    s.due (now + 1) =
      if s.deadline (s.due now) = some (now + 1) then s.due now + 1
      else s.due now := by
  cases hfirst : s.first with
  | none =>
      have hnever : forall t, s.due t = 0 := by
        intro t
        apply due_of_lt
        intro first hsome
        rw [hfirst] at hsome
        cases hsome
      rw [hnever, hnever, deadline_zero, hfirst]
      exact (if_neg nofun).symm
  | some first =>
      have hbefore : forall t, t < first -> s.due t = 0 := by
        intro t hlt
        apply due_of_lt
        intro f hf
        rw [hfirst] at hf
        exact Option.some.inj hf ▸ hlt
      by_cases hlt : now + 1 < first
      · rw [hbefore _ hlt, hbefore _ (Nat.lt_of_succ_lt hlt), deadline_zero,
          hfirst, if_neg]
        intro hsome
        exact Nat.ne_of_gt hlt (Option.some.inj hsome)
      · have hle : first <= now + 1 := Nat.le_of_not_lt hlt
        by_cases hnow : now < first
        · have hexact : first = now + 1 := Nat.le_antisymm hle hnow
          rw [hbefore _ hnow, deadline_zero, hfirst,
            if_pos (congrArg some hexact)]
          by_cases hperiod : s.period = 0
          · exact due_once hfirst hperiod hle
          · rw [due_periodic hfirst hperiod hle, <- hexact, Nat.sub_self,
              Nat.zero_div]
        · have hpast : first <= now := Nat.le_of_not_lt hnow
          by_cases hperiod : s.period = 0
          · rw [due_once hfirst hperiod hle, due_once hfirst hperiod hpast,
              deadline_once hfirst hperiod 0]
            exact (if_neg nofun).symm
          · rw [due_periodic hfirst hperiod hle,
              due_periodic hfirst hperiod hpast,
              deadline_periodic hfirst hperiod]
            -- The quotient grows exactly at the multiples of the period.
            have hsucc : now + 1 - first = (now - first) + 1 := by omega
            have hdiv := Nat.succ_div (a := now - first) (b := s.period)
            rw [hsucc, hdiv]
            have hmult : (some (first + ((now - first) / s.period + 1) *
                s.period) = some (now + 1)) <->
                  s.period ∣ now - first + 1 := by
              rw [Option.some.injEq]
              constructor
              · intro heq
                refine ⟨(now - first) / s.period + 1, ?_⟩
                rw [Nat.mul_comm]
                omega
              · intro hdvd
                have hback := Nat.div_mul_cancel hdvd
                rw [hdiv, if_pos hdvd] at hback
                omega
            by_cases hdvd : s.period ∣ now - first + 1
            · rw [if_pos hdvd, if_pos (hmult.mpr hdvd)]
            · rw [if_neg hdvd, if_neg fun hsome => hdvd (hmult.mp hsome)]

end Schedule

/-!
## A timer and its reader
-/

/-- `reads` is a history of when the timer was read, and of what it gave. -/
structure Expiry where
  schedule : Schedule
  now : Nat
  next : Option Nat
  unread : Nat
  reads : List (Nat × Nat)
deriving DecidableEq, Repr

namespace Expiry

inductive Action where
  | tick
  | read
deriving DecidableEq, Repr

def start (schedule : Schedule) (now : Nat) : Expiry where
  schedule := schedule
  now := now
  next := schedule.first
  unread := 0
  reads := []

def tick (s : Expiry) : Expiry :=
  if s.next = some (s.now + 1) then
    { s with
      now := s.now + 1
      next := if s.schedule.period = 0 then none
        else some (s.now + 1 + s.schedule.period)
      unread := s.unread + 1 }
  else { s with now := s.now + 1 }

/-- A read fails as long as no deadline has passed since the last one. -/
def read (s : Expiry) : Option Expiry :=
  if 0 < s.unread then
    some { s with reads := s.reads ++ [(s.now, s.unread)], unread := 0 }
  else none

def step : StepFn Expiry Action := fun s a =>
  match a with
  | Action.tick => some s.tick
  | Action.read => s.read

/-- The deadlines that the reader has been told of. -/
def told (s : Expiry) : Nat :=
  (s.reads.map Prod.snd).sum

/--
Each read at `time` gave all deadlines up to then that no read before it had
given, and there was one at least; `before` is what was given before.
-/
def Punctual (due : Nat -> Nat) : Nat -> List (Nat × Nat) -> Prop
  | _, [] => True
  | before, (time, count) :: rest =>
      0 < count ∧ before + count = due time ∧
        Punctual due (before + count) rest

theorem punctual_append {due : Nat -> Nat} {before : Nat}
    {reads : List (Nat × Nat)} {time count : Nat} :
    Punctual due before (reads ++ [(time, count)]) <->
      Punctual due before reads ∧ 0 < count ∧
        before + (reads.map Prod.snd).sum + count = due time := by
  induction reads generalizing before with
  | nil =>
      show 0 < count ∧ before + count = due time ∧ True <-> _
      simp [Punctual]
  | cons r rest ih =>
      rw [List.cons_append, List.map_cons, List.sum_cons, <- Nat.add_assoc]
      simp only [Punctual, ih, and_assoc]

theorem Punctual.congr {due due' : Nat -> Nat} {reads : List (Nat × Nat)}
    {before : Nat} (heq : forall time, due time = due' time)
    (h : Punctual due before reads) : Punctual due' before reads := by
  have hsame : due = due' := funext heq
  exact hsame ▸ h

structure OnSchedule (s : Expiry) : Prop where
  next : s.next = s.schedule.deadline (s.schedule.due s.now)
  all : s.told + s.unread = s.schedule.due s.now
  punctual : Punctual s.schedule.due 0 s.reads

theorem start_onSchedule {schedule : Schedule} {now : Nat}
    (hbefore : forall first, schedule.first = some first -> now < first) :
    OnSchedule (start schedule now) where
  next := by
    show schedule.first = schedule.deadline (schedule.due now)
    rw [Schedule.due_of_lt hbefore, Schedule.deadline_zero]
  all := (Schedule.due_of_lt hbefore).symm
  punctual := trivial

theorem tick_onSchedule {s : Expiry} (h : OnSchedule s) :
    OnSchedule s.tick := by
  have hdue := Schedule.due_succ s.schedule s.now
  rw [<- h.next] at hdue
  unfold tick
  by_cases hnext : s.next = some (s.now + 1)
  · rw [if_pos hnext] at hdue ⊢
    refine { next := ?_, all := ?_, punctual := h.punctual }
    · show (if s.schedule.period = 0 then none
        else some (s.now + 1 + s.schedule.period)) =
          s.schedule.deadline (s.schedule.due (s.now + 1))
      rw [hdue]
      have hhere := h.next
      rw [hnext] at hhere
      cases hfirst : s.schedule.first with
      | none =>
          unfold Schedule.deadline at hhere
          rw [hfirst] at hhere
          cases hhere
      | some first =>
          by_cases hperiod : s.schedule.period = 0
          · rw [if_pos hperiod, Schedule.deadline_once hfirst hperiod]
          · rw [Schedule.deadline_periodic hfirst hperiod] at hhere
            rw [if_neg hperiod, Schedule.deadline_periodic hfirst hperiod,
              Option.some.inj hhere, Nat.add_mul, Nat.one_mul, Nat.add_assoc]
    · show s.told + (s.unread + 1) = s.schedule.due (s.now + 1)
      rw [hdue, <- h.all, Nat.add_assoc]
  · rw [if_neg hnext] at hdue ⊢
    refine { next := ?_, all := ?_, punctual := h.punctual }
    · show s.next = s.schedule.deadline (s.schedule.due (s.now + 1))
      rw [hdue]
      exact h.next
    · show s.told + s.unread = s.schedule.due (s.now + 1)
      rw [hdue]
      exact h.all

theorem read_onSchedule {s s' : Expiry} (h : OnSchedule s)
    (hread : s.read = some s') : OnSchedule s' := by
  unfold read at hread
  split at hread
  · rename_i hpos
    cases hread
    refine { next := h.next, all := ?_, punctual := ?_ }
    · show ((s.reads ++ [(s.now, s.unread)]).map Prod.snd).sum + 0 =
        s.schedule.due s.now
      rw [List.map_append, List.sum_append, List.map_singleton,
        List.sum_singleton]
      exact h.all
    · refine punctual_append.mpr ⟨h.punctual, hpos, ?_⟩
      rw [Nat.zero_add]
      exact h.all
  · cases hread

end Expiry

end Foundation
end MoonNet
