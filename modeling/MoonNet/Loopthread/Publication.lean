import Mathlib.Order.Lattice
import MoonNet.Loopthread.Steps

/-!
# The published loop

`getloop` returns the one loop that the thread has created, and no caller sleeps
on after it has been published.  The loop waits with the timeout that
`timeout_` held when it was created, which the constructor may not have stored
by then.
-/

namespace MoonNet

open Foundation
open Kernel

universe u

namespace Loopthread

variable {ι : Type u}

def clamped (timeout : Int) : Int :=
  min timeout MAX_EPOLL_TIMEOUT_MSEC

def Hidden (s : Loopthread ι) : Prop :=
  s.thread = Thread.create ∨ s.thread = Thread.publish

structure Published (s : Loopthread ι) : Prop where
  uncreated : s.thread = Thread.create -> s.created = none
  created : s.thread ≠ Thread.create -> s.created ≠ none
  hidden : s.Hidden -> s.loop = none
  shown : ¬ s.Hidden -> s.loop = s.created
  awake : s.loop ≠ none -> forall i, s.callers i ≠ Caller.asleep
  returned : forall i l, s.callers i = Caller.returned l -> s.loop = some l

theorem start_published (garbage timeout : Int) :
    Published (start garbage timeout : Loopthread ι) where
  uncreated := fun _ => rfl
  created := fun h => absurd rfl h
  hidden := fun _ => rfl
  shown := fun h => absurd (Or.inl rfl) h
  awake := fun h => absurd rfl h
  returned := nofun

def Owner.Built : Owner -> Prop
  | Owner.storeTimeout _ | Owner.testTimeout | Owner.clampTimeout => False
  | _ => True

def Stored (garbage timeout : Int) (s : Loopthread ι) : Prop :=
  match s.owner with
  | Owner.storeTimeout t => t = timeout ∧ s.timeout = garbage
  | Owner.testTimeout => s.timeout = timeout
  | Owner.clampTimeout => s.timeout = timeout ∧ MAX_EPOLL_TIMEOUT_MSEC < timeout
  | _ => s.timeout = clamped timeout

/--
The loop is not created before the constructor has stored the timeout, unless
that makes no difference.
-/
def CreatesInTime (garbage timeout : Int) (s : Loopthread ι) (a : Action ι) :
    Prop :=
  match a, s.thread, s.owner with
  | Action.thread, Thread.create, Owner.storeTimeout _ =>
      garbage = clamped timeout
  | Action.thread, Thread.create, Owner.testTimeout
  | Action.thread, Thread.create, Owner.clampTimeout =>
      timeout <= MAX_EPOLL_TIMEOUT_MSEC
  | _, _, _ => True

variable {s t : Loopthread ι}

/-!
## One step
-/

theorem Published.frame (h : Published s) (hthread : t.thread = s.thread)
    (hloop : t.loop = s.loop) (hcreated : t.created = s.created)
    (hcallers : t.callers = s.callers) : Published t where
  uncreated := by rw [hthread, hcreated]; exact h.uncreated
  created := by rw [hthread, hcreated]; exact h.created
  hidden := by unfold Hidden; rw [hthread, hloop]; exact h.hidden
  shown := by unfold Hidden; rw [hthread, hloop, hcreated]; exact h.shown
  awake := by rw [hloop, hcallers]; exact h.awake
  returned := by rw [hloop, hcallers]; exact h.returned

theorem Published.publish (h : Published s)
    (ht : s.thread = Thread.publish) :
    Published { s with
      loop := s.created
      thread := Thread.callLoop
      callers := fun i => (s.callers i).notified } where
  uncreated := nofun
  created := fun _ => h.created (by rw [ht]; nofun)
  hidden := fun hhidden => by rcases hhidden with hno | hno <;> cases hno
  shown := fun _ => rfl
  awake := by
    intro _ i hasleep
    have hone : (s.callers i).notified = Caller.asleep := hasleep
    cases hcaller : s.callers i with
    | _ =>
        rw [hcaller] at hone
        cases hone
  returned := by
    intro i l hreturned
    have hone : (s.callers i).notified = Caller.returned l := hreturned
    cases hcaller : s.callers i with
    | returned l' =>
        have hloop := h.returned i l' hcaller
        rw [h.hidden (Or.inr ht)] at hloop
        cases hloop
    | _ =>
        rw [hcaller] at hone
        cases hone

theorem Published.calls [DecidableEq ι] (h : Published s) (i : ι) {c : Caller}
    (hnext : c.Next s.loop) : Published (s.setCaller i c) where
  uncreated := h.uncreated
  created := h.created
  hidden := h.hidden
  shown := h.shown
  awake := by
    intro hloop j hasleep
    have hone : (if j = i then c else s.callers j) = Caller.asleep := hasleep
    split at hone
    · rcases hnext with rfl | ⟨_, hnone⟩ | ⟨l, rfl, _⟩
      · cases hone
      · exact hloop hnone
      · cases hone
    · exact h.awake hloop j hone
  returned := by
    intro j l hreturned
    have hone : (if j = i then c else s.callers j) = Caller.returned l :=
      hreturned
    split at hone
    · rcases hnext with rfl | ⟨rfl, _⟩ | ⟨l', rfl, hloop⟩
      · cases hone
      · cases hone
      · cases hone
        exact hloop
    · exact h.returned j l hone

theorem Published.later (h : Published s) (hs : ¬ s.Hidden)
    (ht : ¬ t.Hidden) (hloop : t.loop = s.loop)
    (hcreated : t.created = s.created) (hcallers : t.callers = s.callers) :
    Published t where
  uncreated := fun hno => absurd (Or.inl hno) ht
  created := by
    intro _
    rw [hcreated]
    exact h.created fun hno => hs (Or.inl hno)
  hidden := fun hno => absurd hno ht
  shown := by
    intro _
    rw [hloop, hcreated]
    exact h.shown hs
  awake := by rw [hloop, hcallers]; exact h.awake
  returned := by rw [hloop, hcallers]; exact h.returned

theorem not_hidden {thread : Thread} (ht : s.thread = thread)
    (hcreate : thread ≠ Thread.create) (hpublish : thread ≠ Thread.publish) :
    ¬ s.Hidden := by
  rintro (hno | hno)
  · exact hcreate (ht.symm.trans hno)
  · exact hpublish (ht.symm.trans hno)

theorem Published.next [DecidableEq ι] (h : Published s) {a : Action ι}
    (hsteps : Steps s a t) : Published t := by
  cases hsteps with
  | creates ht =>
      have hnone : s.loop = none := h.hidden (Or.inl ht)
      exact {
        uncreated := nofun
        created := fun _ => Option.some_ne_none s.timeout
        hidden := fun _ => hnone
        shown := fun hno => absurd (Or.inr rfl) hno
        awake := h.awake
        returned := h.returned }
  | publishes ht => exact h.publish ht
  | enters ht hstep =>
      exact h.later (not_hidden ht nofun nofun) (not_hidden rfl nofun nofun)
        rfl rfl rfl
  | returns ht hl =>
      exact h.later (not_hidden ht nofun nofun) (not_hidden rfl nofun nofun)
        rfl rfl rfl
  | calls ha hnext => exact h.calls _ hnext
  | breaks ho hstep =>
      exact onReturn_keeps (h.frame rfl rfl rfl rfl) fun _ =>
        h.frame rfl rfl rfl rfl
  | deleted ho hstep =>
      exact onReturn_keeps (h.frame rfl rfl rfl rfl) fun _ =>
        h.frame rfl rfl rfl rfl
  | _ => exact h.frame rfl rfl rfl rfl

theorem stored_built {garbage timeout : Int} (hs : s.owner.Built) :
    Stored garbage timeout s <-> s.timeout = clamped timeout := by
  unfold Stored
  cases ho : s.owner with
  | storeTimeout timeout =>
      rw [ho] at hs
      exact hs.elim
  | testTimeout =>
      rw [ho] at hs
      exact hs.elim
  | clampTimeout =>
      rw [ho] at hs
      exact hs.elim
  | _ => exact Iff.rfl

theorem Stored.built {garbage timeout : Int} (h : Stored garbage timeout s)
    (hs : s.owner.Built) (ht : t.owner.Built)
    (htimeout : t.timeout = s.timeout) : Stored garbage timeout t := by
  rw [stored_built ht, htimeout]
  exact (stored_built hs).mp h

theorem Owner.afterJoin_built {o next : Owner} (h : o.afterJoin = some next) :
    o.Built ∧ next.Built := by
  unfold Owner.afterJoin at h
  split at h
  · cases h
    exact ⟨trivial, trivial⟩
  · cases h
    exact ⟨trivial, trivial⟩
  · cases h
    exact ⟨trivial, trivial⟩
  · cases h

theorem Stored.next [DecidableEq ι] {garbage timeout : Int}
    (h : Stored garbage timeout s) {a : Action ι} (hsteps : Steps s a t) :
    Stored garbage timeout t := by
  cases hsteps with
  | stores failure ho =>
      unfold Stored at h
      rw [ho] at h
      exact h.left
  | tests failure ho =>
      unfold Stored at h
      rw [ho] at h
      unfold Stored
      by_cases hlarge : MAX_EPOLL_TIMEOUT_MSEC < s.timeout
      · simp only [if_pos hlarge]
        exact ⟨h, h ▸ hlarge⟩
      · simp only [if_neg hlarge]
        rw [clamped, min_eq_left (h ▸ not_lt.mp hlarge)]
        exact h
  | clamps failure ho =>
      unfold Stored at h
      rw [ho] at h
      exact (min_eq_right_of_lt h.right).symm
  | joins failure ho hdone =>
      have hbuilt := Owner.afterJoin_built ho
      exact h.built hbuilt.left hbuilt.right rfl
  | findsNull failure ho hloop => exact h.built (ho ▸ trivial) trivial rfl
  | findsLoop failure ho hloop hstep =>
      exact h.built (ho ▸ trivial) trivial rfl
  | breaks ho hstep =>
      exact onReturn_keeps h fun _ => h.built (ho ▸ trivial) trivial rfl
  | deletes failure ho hstep => exact h.built (ho ▸ trivial) trivial rfl
  | deleted ho hstep =>
      exact onReturn_keeps h fun _ => h.built (ho ▸ trivial) trivial rfl
  | joinCalled ho => exact h.built (ho ▸ trivial) trivial rfl
  | destroyCalled ho => exact h.built (ho ▸ trivial) trivial rfl
  | _ => exact h

/-!
## The timeout of the loop
-/

/-- The loop that has been created waits as long as the constructor computes. -/
def CreatedClamped (timeout : Int) (s : Loopthread ι) : Prop :=
  forall l, s.created = some l -> l = clamped timeout

theorem creates_clamped_iff {garbage timeout : Int}
    (hstored : Stored garbage timeout s) (ht : s.thread = Thread.create) :
    s.timeout = clamped timeout <->
      CreatesInTime garbage timeout s Action.thread := by
  unfold Stored at hstored
  unfold CreatesInTime
  rw [ht]
  cases ho : s.owner with
  | storeTimeout t =>
      rw [ho] at hstored
      rw [hstored.right]
  | testTimeout =>
      rw [ho] at hstored
      rw [hstored]
      exact left_eq_inf
  | clampTimeout =>
      rw [ho] at hstored
      rw [hstored.left]
      exact left_eq_inf
  | _ =>
      rw [ho] at hstored
      exact iff_of_true hstored trivial

theorem createsInTime_later {garbage timeout : Int}
    (ht : s.thread ≠ Thread.create) :
    CreatesInTime garbage timeout s Action.thread := by
  unfold CreatesInTime
  cases hthread : s.thread with
  | create => exact absurd hthread ht
  | _ => trivial

theorem step_clamped_iff [DecidableEq ι] {garbage timeout : Int}
    (hstored : Stored garbage timeout s) (h : CreatedClamped timeout s)
    {a : Action ι} (hsteps : Steps s a t) :
    CreatedClamped timeout t <-> CreatesInTime garbage timeout s a := by
  cases hsteps with
  | creates ht =>
      rw [<- creates_clamped_iff hstored ht]
      constructor
      · intro hclamped
        exact hclamped s.timeout rfl
      · intro htimeout l hl
        cases hl
        exact htimeout
  | publishes ht =>
      exact iff_of_true h (createsInTime_later (by rw [ht]; nofun))
  | enters ht hstep =>
      exact iff_of_true h (createsInTime_later (by rw [ht]; nofun))
  | returns ht hl =>
      exact iff_of_true h (createsInTime_later (by rw [ht]; nofun))
  | breaks ho hstep => exact iff_of_true (onReturn_keeps h fun _ => h) trivial
  | deleted ho hstep => exact iff_of_true (onReturn_keeps h fun _ => h) trivial
  | calls ha hnext =>
      rcases ha with rfl | rfl | rfl
      · exact iff_of_true h trivial
      · exact iff_of_true h trivial
      · exact iff_of_true h trivial
  | _ => exact iff_of_true h trivial

/--
In every run: nobody sleeps in `getloop` once the loop is published, and what
`getloop` returns is the published loop.  Throughout a run this loop has the
timeout that the constructor computes exactly if the thread never creates it
before the constructor has stored this timeout.
-/
theorem getloop_clamped_iff [DecidableEq ι] (garbage timeout : Int)
    (acts : List (Action ι)) (s : Loopthread ι)
    (hrun : StepFn.run step (start garbage timeout) acts = some s) :
    (s.loop ≠ none -> forall i, s.callers i ≠ Caller.asleep) ∧
      (forall i l, s.callers i = Caller.returned l ->
        s.loop = some l ∧ s.created = some l) ∧
      (StepFn.Throughout step (CreatedClamped timeout)
          (start garbage timeout : Loopthread ι) acts <->
        StepFn.Meets step (CreatesInTime garbage timeout)
          (start garbage timeout) acts) := by
  have hpublished : Published s := by
    have hpres : forall (s : Loopthread ι) a t, Published s ->
        step s a = some t -> Published t := by
      intro s a t h hstep
      exact h.next (step_steps hstep)
    exact StepFn.run_invariant hpres (start_published garbage timeout) hrun
  have hpres : forall (s : Loopthread ι) a t, Stored garbage timeout s ->
      step s a = some t -> Stored garbage timeout t := by
    intro s a t h hstep
    exact h.next (step_steps hstep)
  have hiff : forall (s : Loopthread ι) a t, CreatedClamped timeout s ->
      Stored garbage timeout s -> step s a = some t ->
      (CreatedClamped timeout t <-> CreatesInTime garbage timeout s a) := by
    intro s a t h hstored hstep
    exact step_clamped_iff hstored h (step_steps hstep)
  have hstart : Stored garbage timeout (start garbage timeout : Loopthread ι) :=
    ⟨rfl, rfl⟩
  refine ⟨hpublished.awake, ?_, ?_⟩
  · intro i l hreturned
    have hloop := hpublished.returned i l hreturned
    refine ⟨hloop, ?_⟩
    rw [<- hpublished.shown fun hhidden => ?_]
    · exact hloop
    · rw [hpublished.hidden hhidden] at hloop
      cases hloop
  · exact StepFn.throughout_iff_meets hiff nofun
      (StepFn.meets_of_invariant hpres hstart acts) hrun

def createdEarly : List (Action Bool) :=
  [Action.getloop true, Action.caller true, Action.thread, Action.thread,
    Action.owner none, Action.caller true]

theorem getloop_clamped_iff_createdEarly :
    exists s, StepFn.run step (start 0 (-1)) createdEarly = some s ∧
      s.callers true = Caller.returned 0 ∧ s.loop = some 0 ∧
      ¬ StepFn.Throughout step (CreatedClamped (-1))
        (start 0 (-1) : Loopthread Bool) createdEarly := by
  have h := getloop_clamped_iff 0 (-1) createdEarly _ rfl
  refine ⟨_, rfl, rfl, (h.right.left true 0 rfl).left, ?_⟩
  rw [h.right.right]
  intro hmeets
  have hearly : (0 : Int) = clamped (-1) := hmeets.right.right.left
  exact absurd hearly (by decide)

end Loopthread

end MoonNet
