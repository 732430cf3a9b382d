import MoonNet.Loopthread.Model

/-!
# What a step of a loop thread can do

Every invariant of the object is proved by the cases of this relation.
-/

namespace MoonNet

open Foundation
open Kernel

universe u

namespace Loopthread

variable {ι : Type u}

def Owner.afterJoin : Owner -> Option Owner
  | Owner.join => some Owner.idle
  | Owner.joinLoop => some Owner.deleteLoop
  | Owner.joinNull => some Owner.destroyed
  | _ => none

def Caller.Next (loop : Option Int) (c : Caller) : Prop :=
  c = Caller.test ∨ c = Caller.asleep ∧ loop = none ∨
    exists l, c = Caller.returned l ∧ loop = some l

inductive Steps [DecidableEq ι] (s : Loopthread ι) :
    Action ι -> Loopthread ι -> Prop where
  | creates (ht : s.thread = Thread.create) :
      Steps s Action.thread
        { s with created := some s.timeout, thread := Thread.publish }
  | publishes (ht : s.thread = Thread.publish) :
      Steps s Action.thread { s with
        loop := s.created
        thread := Thread.callLoop
        callers := fun i => (s.callers i).notified }
  | enters {q : Stop (Option ι)} (ht : s.thread = Thread.callLoop)
      (hstep : s.stop.step Stop.Action.loop = some q) :
      Steps s Action.thread { s with thread := Thread.inLoop, stop := q }
  | returns (ht : s.thread = Thread.inLoop) (hl : s.stop.Left) :
      Steps s Action.thread { s with thread := Thread.ended }
  | loops {a : Stop.Action (Option ι)} {q : Stop (Option ι)}
      (ht : s.thread = Thread.inLoop) (hl : ¬ s.stop.Left)
      (ha : a.byLoop = true) (hstep : s.stop.step a = some q) :
      Steps s (Action.loop a) { s with stop := q }
  | stores {timeout : Int} (failure : Option Errno)
      (ho : s.owner = Owner.storeTimeout timeout) :
      Steps s (Action.owner failure)
        { s with timeout := timeout, owner := Owner.testTimeout }
  | tests (failure : Option Errno) (ho : s.owner = Owner.testTimeout) :
      Steps s (Action.owner failure) { s with
        owner := if MAX_EPOLL_TIMEOUT_MSEC < s.timeout then Owner.clampTimeout
          else Owner.idle }
  | clamps (failure : Option Errno) (ho : s.owner = Owner.clampTimeout) :
      Steps s (Action.owner failure)
        { s with timeout := MAX_EPOLL_TIMEOUT_MSEC, owner := Owner.idle }
  | joins {next : Owner} (failure : Option Errno)
      (ho : s.owner.afterJoin = some next)
      (hdone : s.joined = true ∨ s.thread = Thread.ended) :
      Steps s (Action.owner failure)
        { s with owner := next, joined := true }
  | findsNull (failure : Option Errno) (ho : s.owner = Owner.testLoop)
      (hloop : s.loop = none) :
      Steps s (Action.owner failure) { s with owner := Owner.joinNull }
  | findsLoop {q : Stop (Option ι)} (failure : Option Errno)
      (ho : s.owner = Owner.testLoop) (hloop : s.loop ≠ none)
      (hstep : s.stop.loopbreak none = some q) :
      Steps s (Action.owner failure)
        { s with owner := Owner.loopbreak, stop := q }
  | breaks {q : Stop (Option ι)} {failure : Option Errno}
      (ho : s.owner = Owner.loopbreak)
      (hstep : s.breakStep none failure = some q) :
      Steps s (Action.owner failure)
        (onReturn (fun t => { t with owner := Owner.joinLoop })
          { s with stop := q })
  | deletes {q : Stop (Option ι)} (failure : Option Errno)
      (ho : s.owner = Owner.deleteLoop)
      (hstep : s.stop.loopbreak none = some q) :
      Steps s (Action.owner failure)
        { s with owner := Owner.deleting, stop := q }
  | deleted {q : Stop (Option ι)} {failure : Option Errno}
      (ho : s.owner = Owner.deleting)
      (hstep : s.breakStep none failure = some q) :
      Steps s (Action.owner failure)
        (onReturn (fun t =>
          { t with owner := Owner.destroyed, deleted := true })
          { s with stop := q })
  | joinCalled (ho : s.owner = Owner.idle) :
      Steps s Action.join { s with owner := Owner.join }
  | destroyCalled (ho : s.owner = Owner.idle) :
      Steps s Action.destroy { s with owner := Owner.testLoop }
  | calls {a : Action ι} {i : ι} {c : Caller}
      (ha : a = Action.getloop i ∨ a = Action.caller i ∨ a = Action.wake i)
      (hnext : c.Next s.loop) :
      Steps s a (s.setCaller i c)
  | breaksOther {q : Stop (Option ι)} {i : ι} {failure : Option Errno}
      (hstep : s.breakStep (some i) failure = some q) :
      Steps s (Action.loopbreak i failure) { s with stop := q }

theorem onReturn_keeps {P : Loopthread ι -> Prop}
    {next : Loopthread ι -> Loopthread ι} {s : Loopthread ι} (hs : P s)
    (hnext : s.stop.breaker none = Stop.Breaker.outside -> P (next s)) :
    P (onReturn next s) := by
  unfold onReturn
  split
  · rename_i hbreaker
    exact hnext hbreaker
  · exact hs

theorem withStop_eq_some {s t : Loopthread ι} {q : Option (Stop (Option ι))} :
    s.withStop q = some t <->
      exists stop, q = some stop ∧ { s with stop := stop } = t :=
  Option.map_eq_some_iff

section

variable [DecidableEq ι] {s t : Loopthread ι}

theorem threadStep_steps (hstep : s.threadStep = some t) :
    Steps s Action.thread t := by
  unfold threadStep at hstep
  split at hstep
  · rename_i ht
    cases hstep
    exact Steps.creates ht
  · rename_i ht
    cases hstep
    exact Steps.publishes ht
  · rename_i ht
    rcases withStop_eq_some.mp hstep with ⟨q, hq, rfl⟩
    exact Steps.enters ht hq
  · rename_i ht
    split at hstep
    · rename_i hl
      cases hstep
      exact Steps.returns ht hl
    · cases hstep
  · cases hstep

theorem loopStep_steps {a : Stop.Action (Option ι)}
    (hstep : s.loopStep a = some t) : Steps s (Action.loop a) t := by
  unfold loopStep at hstep
  split at hstep
  · rename_i hcan
    rcases withStop_eq_some.mp hstep with ⟨q, hq, rfl⟩
    exact Steps.loops hcan.left hcan.right.left hcan.right.right hq
  · cases hstep

theorem joinThread_steps {next : Owner} (failure : Option Errno)
    (ho : s.owner.afterJoin = some next)
    (hstep : s.joinThread next = some t) : Steps s (Action.owner failure) t := by
  unfold joinThread at hstep
  split at hstep
  · rename_i hjoined
    cases hstep
    have h := Steps.joins failure ho (Or.inl hjoined)
    rw [<- hjoined] at h
    exact h
  · split at hstep
    · rename_i hended
      cases hstep
      exact Steps.joins failure ho (Or.inr hended)
    · cases hstep

theorem ownerStep_steps {failure : Option Errno}
    (hstep : s.ownerStep failure = some t) :
    Steps s (Action.owner failure) t := by
  unfold ownerStep at hstep
  split at hstep
  · rename_i ho
    cases hstep
    exact Steps.stores failure ho
  · rename_i ho
    cases hstep
    exact Steps.tests failure ho
  · rename_i ho
    cases hstep
    exact Steps.clamps failure ho
  · cases hstep
  · cases hstep
  · rename_i ho
    exact joinThread_steps failure (by rw [ho]; rfl) hstep
  · rename_i ho
    split at hstep
    · rename_i hloop
      cases hstep
      exact Steps.findsNull failure ho hloop
    · rename_i l hloop
      rcases withStop_eq_some.mp hstep with ⟨q, hq, rfl⟩
      have hne : s.loop ≠ none := by
        rw [hloop]
        exact Option.some_ne_none l
      exact Steps.findsLoop failure ho hne hq
  · rename_i ho
    rcases Option.map_eq_some_iff.mp hstep with ⟨m, hm, rfl⟩
    rcases withStop_eq_some.mp hm with ⟨q, hq, rfl⟩
    exact Steps.breaks ho hq
  · rename_i ho
    exact joinThread_steps failure (by rw [ho]; rfl) hstep
  · rename_i ho
    rcases withStop_eq_some.mp hstep with ⟨q, hq, rfl⟩
    exact Steps.deletes failure ho hq
  · rename_i ho
    rcases Option.map_eq_some_iff.mp hstep with ⟨m, hm, rfl⟩
    rcases withStop_eq_some.mp hm with ⟨q, hq, rfl⟩
    exact Steps.deleted ho hq
  · rename_i ho
    exact joinThread_steps failure (by rw [ho]; rfl) hstep

theorem callGetloop_steps {i : ι} (hstep : s.callGetloop i = some t) :
    Steps s (Action.getloop i) t := by
  unfold callGetloop at hstep
  split at hstep
  · cases hstep
    exact Steps.calls (Or.inl rfl) (Or.inl rfl)
  · cases hstep
    exact Steps.calls (Or.inl rfl) (Or.inl rfl)
  · cases hstep

theorem callerStep_steps {i : ι} (hstep : s.callerStep i = some t) :
    Steps s (Action.caller i) t := by
  unfold callerStep at hstep
  split at hstep
  · split at hstep
    · rename_i hloop
      cases hstep
      exact Steps.calls (Or.inr (Or.inl rfl)) (Or.inr (Or.inl ⟨rfl, hloop⟩))
    · rename_i l hloop
      cases hstep
      exact Steps.calls (Or.inr (Or.inl rfl))
        (Or.inr (Or.inr ⟨l, rfl, hloop⟩))
  · cases hstep

theorem wakeStep_steps {i : ι} (hstep : s.wakeStep i = some t) :
    Steps s (Action.wake i) t := by
  unfold wakeStep at hstep
  split at hstep
  · cases hstep
    exact Steps.calls (Or.inr (Or.inr rfl)) (Or.inl rfl)
  · cases hstep

theorem breakerStep_steps {i : ι} {failure : Option Errno}
    (hstep : s.breakerStep i failure = some t) :
    Steps s (Action.loopbreak i failure) t := by
  unfold breakerStep at hstep
  split at hstep
  · cases hstep
  · cases hstep
  · cases hstep
  · rcases withStop_eq_some.mp hstep with ⟨q, hq, rfl⟩
    exact Steps.breaksOther hq
  · cases hstep

theorem step_steps {a : Action ι} (hstep : step s a = some t) :
    Steps s a t := by
  cases a with
  | owner failure => exact ownerStep_steps hstep
  | join =>
      simp only [step, call] at hstep
      split at hstep
      · rename_i ho
        cases hstep
        exact Steps.joinCalled ho
      · cases hstep
  | destroy =>
      simp only [step, call] at hstep
      split at hstep
      · rename_i ho
        cases hstep
        exact Steps.destroyCalled ho
      · cases hstep
  | thread => exact threadStep_steps hstep
  | loop a => exact loopStep_steps hstep
  | getloop i => exact callGetloop_steps hstep
  | caller i => exact callerStep_steps hstep
  | wake i => exact wakeStep_steps hstep
  | loopbreak i failure => exact breakerStep_steps hstep

end

end Loopthread

end MoonNet
