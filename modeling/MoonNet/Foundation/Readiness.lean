import MoonNet.Foundation.Simulation

/-!
# Edge-triggered readiness

Items arrive at a source and wait until a handler takes them.  The handler is
told of them by an edge, which is due when something arrives, or when the source
is armed while something is waiting, and which is gone once it has been noticed.
So the handler has to go on until nothing is left: what it leaves behind without
a new edge waits for the next arrival.
-/

namespace MoonNet
namespace Foundation

universe u

/-- A source and its handler; `arrived` and `taken` are histories. -/
structure Readiness (α : Type u) where
  arrived : List α
  taken : List α
  waiting : List α
  armed : Bool
  edge : Bool
  handling : Bool

namespace Readiness

variable {α : Type u}

inductive Action (α : Type u) where
  | arrive (items : List α)
  | arm (on extra : Bool)
  | disarm
  | notice
  | take (count : Nat)
  | finish

def look (s : Readiness α) : Readiness α :=
  { s with edge := s.edge || (s.armed && !s.waiting.isEmpty) }

/--
`extra` says that an edge is due for another reason.  Disarming drops an edge
that is due.
-/
def step (s : Readiness α) : Action α -> Option (Readiness α)
  | Action.arrive items =>
      some { s with
        arrived := s.arrived ++ items
        waiting := s.waiting ++ items }.look
  | Action.arm on extra =>
      some { s with armed := on, edge := s.edge || extra }.look
  | Action.disarm => some { s with armed := false, edge := false }
  | Action.notice =>
      if s.edge && !s.handling then
        some { s with edge := false, handling := true }
      else none
  | Action.take count =>
      if s.handling && decide (count <= s.waiting.length) then
        some { s with
          taken := s.taken ++ s.waiting.take count
          waiting := s.waiting.drop count }
      else none
  | Action.finish =>
      if s.handling then some { s with handling := false } else none

theorem step_take {s : Readiness α} {front back : List α}
    (hhandling : s.handling = true) (hwaiting : s.waiting = front ++ back) :
    s.step (Action.take front.length) =
      some { s with taken := s.taken ++ front, waiting := back } := by
  have hcan : (s.handling && decide (front.length <= s.waiting.length)) =
      true := by
    rw [hhandling, hwaiting, List.length_append]
    exact decide_eq_true (Nat.le_add_right _ _)
  show (if _ = true then _ else none) = _
  rw [if_pos hcan, hwaiting, List.take_left, List.drop_left]

theorem step_finish {s : Readiness α} (hhandling : s.handling = true)
    (leaves : Bool) :
    StepFn.Matches step s { s with handling := !leaves }
      (if leaves then some Action.finish else none) := by
  cases leaves with
  | false =>
      show { s with handling := true } = s
      rw [<- hhandling]
  | true => exact if_pos hhandling

/-!
## What has arrived

Nothing is lost, repeated or reordered, whatever the handler does.
-/

def Accounted (s : Readiness α) : Prop :=
  s.taken ++ s.waiting = s.arrived

theorem step_accounted {s s' : Readiness α} {a : Action α} (h : Accounted s)
    (hstep : s.step a = some s') : Accounted s' := by
  unfold Accounted at h
  cases a with
  | arrive items =>
      cases hstep
      show s.taken ++ (s.waiting ++ items) = s.arrived ++ items
      rw [<- List.append_assoc, h]
  | arm on extra =>
      cases hstep
      exact h
  | disarm =>
      cases hstep
      exact h
  | notice =>
      simp only [step] at hstep
      split at hstep
      · cases hstep
        exact h
      · cases hstep
  | take count =>
      simp only [step] at hstep
      split at hstep
      · cases hstep
        show s.taken ++ s.waiting.take count ++ s.waiting.drop count = s.arrived
        rw [List.append_assoc, List.take_append_drop, h]
      · cases hstep
  | finish =>
      simp only [step] at hstep
      split at hstep
      · cases hstep
        exact h
      · cases hstep

theorem step_arrived {s s' : Readiness α} {a : Action α}
    (hstep : s.step a = some s') (hnone : forall items, a ≠ Action.arrive items) :
    s'.arrived = s.arrived := by
  cases a with
  | arrive items => exact absurd rfl (hnone items)
  | arm on extra =>
      cases hstep
      rfl
  | disarm =>
      cases hstep
      rfl
  | notice =>
      simp only [step] at hstep
      split at hstep
      · cases hstep
        rfl
      · cases hstep
  | take count =>
      simp only [step] at hstep
      split at hstep
      · cases hstep
        rfl
      · cases hstep
  | finish =>
      simp only [step] at hstep
      split at hstep
      · cases hstep
        rfl
      · cases hstep

/-!
## What is noticed
-/

/-- If something waits at an armed source, the handler is at it or will be. -/
def Attended (s : Readiness α) : Prop :=
  s.armed = true -> s.waiting ≠ [] -> s.edge = true ∨ s.handling = true

def LeavesNothing (s : Readiness α) (a : Action α) : Prop :=
  a = Action.finish -> s.armed = true -> s.waiting ≠ [] -> s.edge = true

def Seen (s : Readiness α) : Prop :=
  s.armed = true -> s.waiting ≠ [] -> s.edge = true

theorem look_seen (s : Readiness α) : Seen s.look := by
  intro harmed hwaiting
  have hone : s.armed = true := harmed
  have htwo : s.waiting ≠ [] := hwaiting
  show (s.edge || (s.armed && !s.waiting.isEmpty)) = true
  rw [hone, List.isEmpty_eq_false_iff.mpr htwo]
  exact Bool.or_true s.edge

theorem look_attended (s : Readiness α) : Attended s.look :=
  fun harmed hwaiting => Or.inl (look_seen s harmed hwaiting)

theorem step_attended_iff {s s' : Readiness α} {a : Action α}
    (hstep : s.step a = some s') :
    Attended s' <-> LeavesNothing s a := by
  cases a with
  | arrive items =>
      cases hstep
      exact iff_of_true (look_attended _) nofun
  | arm on extra =>
      cases hstep
      exact iff_of_true (look_attended _) nofun
  | disarm =>
      cases hstep
      exact iff_of_true (fun harmed => by cases harmed) nofun
  | notice =>
      simp only [step] at hstep
      split at hstep
      · cases hstep
        exact iff_of_true (fun _ _ => Or.inr rfl) nofun
      · cases hstep
  | take count =>
      simp only [step] at hstep
      split at hstep
      · rename_i hcan
        cases hstep
        have hhandling : s.handling = true := by
          simp only [Bool.and_eq_true] at hcan
          exact hcan.left
        exact iff_of_true (fun _ _ => Or.inr hhandling) nofun
      · cases hstep
  | finish =>
      simp only [step] at hstep
      split at hstep
      · cases hstep
        constructor
        · intro hafter _ harmed hwaiting
          rcases hafter harmed hwaiting with hedge | hhandling
          · exact hedge
          · cases hhandling
        · intro hleaves harmed hwaiting
          exact Or.inl (hleaves rfl harmed hwaiting)
      · cases hstep

end Readiness

end Foundation
end MoonNet
