import MoonNet.Loopthread.Destruction

/-!
# Whether the destructor returns

A destructor that has begun needs nobody else to return, only the thread that it
joins, unless it waits for a loop that nobody has asked to stop: because it has
not found the loop, or because the write of its own `loopbreak` was interrupted.
-/

namespace MoonNet

open Foundation
open Kernel

universe u

namespace Loopthread

variable {ι : Type u}

/-- The steps of the owner and of the thread, where nothing fails. -/
def Action.Own : Action ι -> Prop
  | Action.owner none | Action.thread => True
  | Action.loop a => a.Alone
  | _ => False

def Owner.Begun : Owner -> Prop
  | Owner.testLoop | Owner.loopbreak | Owner.joinLoop | Owner.deleteLoop
  | Owner.deleting | Owner.joinNull | Owner.destroyed => True
  | _ => False

def Owner.Waiting : Owner -> Prop
  | Owner.joinLoop | Owner.joinNull => True
  | _ => False

def Returned (s : Loopthread ι) : Prop :=
  s.thread = Thread.ended ∨ s.thread = Thread.inLoop ∧ s.stop.Left

/-- The destructor waits for a loop that has not been asked to stop. -/
def Stranded (s : Loopthread ι) : Prop :=
  s.owner.Waiting ∧ s.stop.wrote = false ∧ ¬ s.Returned

def Destroyed (s : Loopthread ι) : Prop :=
  s.owner = Owner.destroyed

variable [DecidableEq ι] {s t : Loopthread ι}

/-!
## The thread ends
-/

structure EndedFrom (s t : Loopthread ι) : Prop where
  ended : t.thread = Thread.ended
  owner : t.owner = s.owner
  counter : t.stop.counter <= s.stop.counter

theorem loopStep_eq {a : Stop.Action (Option ι)} {q : Stop (Option ι)}
    (ht : s.thread = Thread.inLoop) (halone : a.Alone)
    (hstep : s.stop.step a = some q) :
    step s (Action.loop a) = some { s with stop := q } := by
  have hin := (Stop.step_steps hstep).inside halone
  have hcan : s.thread = Thread.inLoop ∧
      s.stop.loop ≠ Stop.LoopThread.outside ∧ a.byLoop = true :=
    ⟨ht, hin, halone.byLoop⟩
  simp only [step, loopStep, if_pos hcan, hstep]
  rfl

theorem ends_returned (ht : s.thread = Thread.inLoop) (hl : s.stop.Left) :
    StepFn.CanReach step Action.Own (EndedFrom s) s := by
  have hnext : step s Action.thread =
      some { s with thread := Thread.ended } := by
    simp only [step, threadStep, ht]
    exact if_pos hl
  have hgoal : EndedFrom s { s with thread := Thread.ended } :=
    ⟨rfl, rfl, Nat.le_refl _⟩
  exact (StepFn.canReach_here hgoal).after hnext trivial

theorem ends_inLoop (h : Sound s) (ht : s.thread = Thread.inLoop)
    (hrunning : ¬ s.stop.loop.Exiting) (hwrote : s.stop.wrote = true) :
    StepFn.CanReach step Action.Own (EndedFrom s) s := by
  have hstoppable : Stop.Stoppable s.stop :=
    ⟨h.stop, h.placed, hwrote, hrunning⟩
  have hlift : forall (p : Stop (Option ι)) a q, Stop.Action.Alone a ->
      p.step a = some q -> Action.Own (Action.loop a : Action ι) ∧
        step { s with stop := p } (Action.loop a) =
          some { s with stop := q } := by
    intro p a q halone hstep
    have hthread : ({ s with stop := p } : Loopthread ι).thread =
        Thread.inLoop := ht
    exact ⟨halone, loopStep_eq hthread halone hstep⟩
  have hreach := hstoppable.canReach.lift
    (fun p => { s with stop := p }) Action.loop hlift
  refine hreach.trans ?_
  rintro t ⟨q, hq, rfl⟩
  have hthread : ({ s with stop := q } : Loopthread ι).thread =
      Thread.inLoop := ht
  refine (ends_returned hthread hq.left).imp ?_
  intro t hends
  exact ⟨hends.ended, hends.owner, Nat.le_trans hends.counter hq.right.left⟩

theorem ends_callLoop (h : Sound s) (ht : s.thread = Thread.callLoop)
    (hwrote : s.stop.wrote = true) :
    StepFn.CanReach step Action.Own (EndedFrom s) s := by
  have hleft : s.stop.loop = Stop.LoopThread.outside :=
    h.outside (by rw [ht]; nofun)
  have hnext : step s Action.thread = some { s with
      thread := Thread.inLoop
      stop := { s.stop with loop := Stop.LoopThread.test } } := by
    simp only [step, threadStep, ht, Stop.enterLoop, hleft]
    rfl
  have hreach := ends_inLoop (h.next (step_steps hnext)) rfl id hwrote
  refine (hreach.imp ?_).after hnext trivial
  intro t hends
  exact ⟨hends.ended, hends.owner, hends.counter⟩

theorem ends_publish (h : Sound s) (ht : s.thread = Thread.publish)
    (hwrote : s.stop.wrote = true) :
    StepFn.CanReach step Action.Own (EndedFrom s) s := by
  have hnext : step s Action.thread = some { s with
      loop := s.created
      thread := Thread.callLoop
      callers := fun i => (s.callers i).notified } := by
    simp only [step, threadStep, ht]
  have hreach := ends_callLoop (h.next (step_steps hnext)) rfl hwrote
  refine (hreach.imp ?_).after hnext trivial
  intro t hends
  exact ⟨hends.ended, hends.owner, hends.counter⟩

theorem ends_create (h : Sound s) (ht : s.thread = Thread.create)
    (hwrote : s.stop.wrote = true) :
    StepFn.CanReach step Action.Own (EndedFrom s) s := by
  have hnext : step s Action.thread = some { s with
      created := some s.timeout, thread := Thread.publish } := by
    simp only [step, threadStep, ht]
  have hreach := ends_publish (h.next (step_steps hnext)) rfl hwrote
  refine (hreach.imp ?_).after hnext trivial
  intro t hends
  exact ⟨hends.ended, hends.owner, hends.counter⟩

theorem ends (h : Sound s) (hrunning : ¬ s.stop.loop.Exiting)
    (hasked : s.stop.wrote = true ∨ s.Returned) :
    StepFn.CanReach step Action.Own (EndedFrom s) s := by
  rcases hasked with hwrote | hended | ⟨ht, hl⟩
  · cases ht : s.thread with
    | create => exact ends_create h ht hwrote
    | publish => exact ends_publish h ht hwrote
    | callLoop => exact ends_callLoop h ht hwrote
    | inLoop => exact ends_inLoop h ht hrunning hwrote
    | ended => exact StepFn.canReach_here ⟨ht, rfl, Nat.le_refl _⟩
  · exact StepFn.canReach_here ⟨hended, rfl, Nat.le_refl _⟩
  · exact ends_returned ht hl

/-!
## A `loopbreak` of the owner
-/

/-- The owner's `loopbreak` has returned, and the request is on its way. -/
structure BrokenFrom (s : Loopthread ι) (q : Stop (Option ι)) : Prop where
  wrote : q.wrote = true
  counter : q.counter <= s.stop.counter + 1
  loop : q.loop = s.stop.loop
  breaker : q.breaker none = Stop.Breaker.outside

def Breaks (next : Loopthread ι -> Loopthread ι) (s : Loopthread ι) : Prop :=
  forall p q, breakStep { s with stop := p } none none = some q ->
    step { s with stop := p } (Action.owner none) =
      some (onReturn next { s with stop := q })

theorem breaks_loopbreak (ho : s.owner = Owner.loopbreak) :
    Breaks (fun t => { t with owner := Owner.joinLoop }) s := by
  intro p q hq
  simp only [ho] at hq
  simp only [step, ownerStep, ho, hq]
  rfl

theorem breaks_deleting (ho : s.owner = Owner.deleting) :
    Breaks (fun t => { t with owner := Owner.destroyed, deleted := true })
      s := by
  intro p q hq
  simp only [ho] at hq
  simp only [step, ownerStep, ho, hq]
  rfl

omit [DecidableEq ι] in
theorem onReturn_outside {next : Loopthread ι -> Loopthread ι}
    (h : s.stop.breaker none = Stop.Breaker.outside) :
    onReturn next s = next s :=
  if_pos h

def writing (s : Loopthread ι) : Loopthread ι :=
  { s with
    stop.breaker := Function.update s.stop.breaker none Stop.Breaker.write }

theorem writing_breaker : s.writing.stop.breaker none = Stop.Breaker.write := by
  simp [writing]

theorem onReturn_writing {next : Loopthread ι -> Loopthread ι} :
    onReturn next s.writing = s.writing := by
  refine if_neg ?_
  rw [writing_breaker]
  exact nofun

theorem broken_write {next : Loopthread ι -> Loopthread ι}
    (hnext : Breaks next s)
    (hbreaker : s.stop.breaker none = Stop.Breaker.write)
    (hroom : s.stop.counter < Stop.EVENTFD_MAX) :
    StepFn.CanReach step Action.Own (fun t => exists q,
      t = next { s with stop := q } ∧ BrokenFrom s q) s := by
  have hbreak : breakStep s none none = some { s.stop with
      counter := s.stop.counter + 1
      breaker := Function.update s.stop.breaker none Stop.Breaker.outside
      wrote := true } := by
    simp only [breakStep, hbreaker, Stop.writeEventfd, if_pos hroom]
  have hreturned : (Function.update s.stop.breaker none
      Stop.Breaker.outside) none = Stop.Breaker.outside :=
    Function.update_self none _ _
  have hstep := hnext s.stop _ hbreak
  rw [onReturn_outside hreturned] at hstep
  refine (StepFn.canReach_here ⟨_, rfl, ?_⟩).after hstep trivial
  exact ⟨rfl, Nat.le_refl _, rfl, hreturned⟩

theorem broken_test {next : Loopthread ι -> Loopthread ι}
    (hnext : Breaks next s) (h : Stop.Inv s.stop)
    (hbreaker : s.stop.breaker none = Stop.Breaker.test)
    (hroom : s.stop.counter < Stop.EVENTFD_MAX) :
    StepFn.CanReach step Action.Own (fun t => exists q,
      t = next { s with stop := q } ∧ BrokenFrom s q) s := by
  cases hshutdown : s.stop.shutdown with
  | true =>
      have hbreak : breakStep s none none = some { s.stop with
          breaker := Function.update s.stop.breaker none
            Stop.Breaker.outside } := by
        simp [breakStep, hbreaker, Stop.breakTest, hshutdown]
      have hreturned : (Function.update s.stop.breaker none
          Stop.Breaker.outside) none = Stop.Breaker.outside :=
        Function.update_self none _ _
      have hstep := hnext s.stop _ hbreak
      rw [onReturn_outside hreturned] at hstep
      refine (StepFn.canReach_here ⟨_, rfl, ?_⟩).after hstep trivial
      exact ⟨h.shutdown_wrote hshutdown, Nat.le_succ _, rfl, hreturned⟩
  | false =>
      have hbreak : breakStep s none none = some s.writing.stop := by
        simp [breakStep, hbreaker, Stop.breakTest, hshutdown, writing]
      have hstep : step s (Action.owner none) =
          some (onReturn next s.writing) := hnext s.stop _ hbreak
      rw [onReturn_writing] at hstep
      have hnext' : Breaks next s.writing := fun p q hq => hnext p q hq
      have hreach := broken_write hnext' writing_breaker hroom
      refine (hreach.imp ?_).after hstep trivial
      rintro t ⟨q, rfl, hq⟩
      exact ⟨q, rfl, hq.wrote, hq.counter, hq.loop, hq.breaker⟩

theorem broken {next : Loopthread ι -> Loopthread ι} (hnext : Breaks next s)
    (h : Stop.Inv s.stop)
    (hbreaker : s.stop.breaker none ≠ Stop.Breaker.outside)
    (hroom : s.stop.counter < Stop.EVENTFD_MAX) :
    StepFn.CanReach step Action.Own (fun t => exists q,
      t = next { s with stop := q } ∧ BrokenFrom s q) s := by
  cases hplace : s.stop.breaker none with
  | outside => exact absurd hplace hbreaker
  | test => exact broken_test hnext h hplace hroom
  | write => exact broken_write hnext hplace hroom

/-!
## The destructor returns
-/

theorem reach_sound {goal : Loopthread ι -> Prop} (h : Sound s)
    (hreach : StepFn.CanReach step Action.Own goal s) :
    StepFn.CanReach step Action.Own (fun t => goal t ∧ Sound t) s := by
  have hpres : forall (s : Loopthread ι) a t, Sound s ->
      step s a = some t -> Sound t := by
    intro s a t h hstep
    exact h.next (step_steps hstep)
  exact hreach.keeps hpres h

omit [DecidableEq ι] in
theorem joinThread_ended (ht : s.thread = Thread.ended) (next : Owner) :
    exists joined,
      s.joinThread next = some { s with owner := next, joined := joined } := by
  unfold joinThread
  cases s.joined with
  | true => exact ⟨true, by simp⟩
  | false => exact ⟨true, by simp [ht]⟩

theorem finish_deleting (h : Sound s) (ho : s.owner = Owner.deleting)
    (hroom : s.stop.counter < Stop.EVENTFD_MAX) :
    StepFn.CanReach step Action.Own Destroyed s := by
  have hbreaker : s.stop.breaker none ≠ Stop.Breaker.outside :=
    h.breaking.mp (ho ▸ trivial)
  refine (broken (breaks_deleting ho) h.stop hbreaker hroom).imp ?_
  rintro t ⟨q, rfl, hq⟩
  rfl

theorem finish_deleteLoop (h : Sound s) (ho : s.owner = Owner.deleteLoop)
    (hroom : s.stop.counter < Stop.EVENTFD_MAX) :
    StepFn.CanReach step Action.Own Destroyed s := by
  have hbreaker : s.stop.breaker none = Stop.Breaker.outside := by
    by_contra hno
    have hbreaking := h.breaking.mpr hno
    rw [ho] at hbreaking
    exact hbreaking
  have hnext : step s (Action.owner none) = some { s with
      owner := Owner.deleting
      stop.breaker := Function.update s.stop.breaker none
        Stop.Breaker.test } := by
    simp only [step, ownerStep, ho, Stop.loopbreak, hbreaker]
    rfl
  have hreach := finish_deleting (h.next (step_steps hnext)) rfl hroom
  exact hreach.after hnext trivial

theorem finish_joined (h : Sound s) (ho : s.owner.Waiting)
    (ht : s.thread = Thread.ended)
    (hroom : s.stop.counter < Stop.EVENTFD_MAX) :
    StepFn.CanReach step Action.Own Destroyed s := by
  cases howner : s.owner with
  | joinLoop =>
      rcases joinThread_ended ht Owner.deleteLoop with ⟨joined, hjoin⟩
      have hnext : step s (Action.owner none) = some { s with
          owner := Owner.deleteLoop, joined := joined } := by
        simp only [step, ownerStep, howner]
        exact hjoin
      have hreach := finish_deleteLoop (h.next (step_steps hnext)) rfl hroom
      exact hreach.after hnext trivial
  | joinNull =>
      rcases joinThread_ended ht Owner.destroyed with ⟨joined, hjoin⟩
      have hnext : step s (Action.owner none) = some { s with
          owner := Owner.destroyed, joined := joined } := by
        simp only [step, ownerStep, howner]
        exact hjoin
      have hgoal : Destroyed { s with
          owner := Owner.destroyed, joined := joined } := rfl
      exact (StepFn.canReach_here hgoal).after hnext trivial
  | _ =>
      rw [howner] at ho
      exact ho.elim

theorem finish_waiting (h : Sound s) (ho : s.owner.Waiting)
    (hrunning : ¬ s.stop.loop.Exiting)
    (hasked : s.stop.wrote = true ∨ s.Returned)
    (hroom : s.stop.counter < Stop.EVENTFD_MAX) :
    StepFn.CanReach step Action.Own Destroyed s := by
  refine (reach_sound h (ends h hrunning hasked)).trans ?_
  rintro t ⟨hends, hsound⟩
  exact finish_joined hsound (hends.owner ▸ ho) hends.ended
    (Nat.lt_of_le_of_lt hends.counter hroom)

theorem finish_loopbreak (h : Sound s) (ho : s.owner = Owner.loopbreak)
    (hrunning : ¬ s.stop.loop.Exiting)
    (hroom : s.stop.counter + 2 <= Stop.EVENTFD_MAX) :
    StepFn.CanReach step Action.Own Destroyed s := by
  have hbreaker : s.stop.breaker none ≠ Stop.Breaker.outside :=
    h.breaking.mp (ho ▸ trivial)
  have hbroken := broken (breaks_loopbreak ho) h.stop hbreaker
    (Nat.lt_of_succ_lt hroom)
  refine (reach_sound h hbroken).trans ?_
  rintro t ⟨⟨q, rfl, hq⟩, hsound⟩
  refine finish_waiting hsound trivial ?_ (Or.inl hq.wrote) ?_
  · show ¬ q.loop.Exiting
    rw [hq.loop]
    exact hrunning
  · exact Nat.lt_of_le_of_lt hq.counter hroom

theorem finish_found (h : Sound s) (ho : s.owner = Owner.testLoop)
    (hloop : s.loop ≠ none) (hrunning : ¬ s.stop.loop.Exiting)
    (hroom : s.stop.counter + 2 <= Stop.EVENTFD_MAX) :
    StepFn.CanReach step Action.Own Destroyed s := by
  have hbreaker : s.stop.breaker none = Stop.Breaker.outside := by
    by_contra hno
    have hbreaking := h.breaking.mpr hno
    rw [ho] at hbreaking
    exact hbreaking
  rcases Option.ne_none_iff_exists'.mp hloop with ⟨l, hl⟩
  have hnext : step s (Action.owner none) = some { s with
      owner := Owner.loopbreak
      stop.breaker := Function.update s.stop.breaker none
        Stop.Breaker.test } := by
    simp only [step, ownerStep, ho, hl, Stop.loopbreak, hbreaker]
    rfl
  have hreach := finish_loopbreak (h.next (step_steps hnext)) rfl hrunning hroom
  exact hreach.after hnext trivial

theorem finish_publish (h : Sound s) (ho : s.owner = Owner.testLoop)
    (hrunning : ¬ s.stop.loop.Exiting)
    (hroom : s.stop.counter + 2 <= Stop.EVENTFD_MAX)
    (ht : s.thread = Thread.publish) :
    StepFn.CanReach step Action.Own Destroyed s := by
  have hnext : step s Action.thread = some { s with
      loop := s.created
      thread := Thread.callLoop
      callers := fun i => (s.callers i).notified } := by
    simp only [step, threadStep, ht]
  have hcreated : s.created ≠ none := by
    apply h.published.created
    rw [ht]
    exact Thread.noConfusion
  have hreach := finish_found (h.next (step_steps hnext)) ho hcreated
    hrunning hroom
  exact hreach.after hnext trivial

theorem finish_testLoop (h : Sound s) (ho : s.owner = Owner.testLoop)
    (hrunning : ¬ s.stop.loop.Exiting)
    (hroom : s.stop.counter + 2 <= Stop.EVENTFD_MAX) :
    StepFn.CanReach step Action.Own Destroyed s := by
  by_cases hhidden : s.Hidden
  · rcases hhidden with ht | ht
    · have hnext : step s Action.thread = some { s with
          created := some s.timeout, thread := Thread.publish } := by
        simp only [step, threadStep, ht]
      have hreach := finish_publish (h.next (step_steps hnext)) ho hrunning
        hroom rfl
      exact hreach.after hnext trivial
    · exact finish_publish h ho hrunning hroom ht
  · have hloop : s.loop ≠ none := by
      rw [h.published.shown hhidden]
      exact h.published.created fun hno => hhidden (Or.inl hno)
    exact finish_found h ho hloop hrunning hroom

theorem finish (h : Sound s) (ho : s.owner.Begun)
    (hrunning : ¬ s.stop.loop.Exiting) (hstranded : ¬ s.Stranded)
    (hroom : s.stop.counter + 2 <= Stop.EVENTFD_MAX) :
    StepFn.CanReach step Action.Own Destroyed s := by
  have hroom' : s.stop.counter < Stop.EVENTFD_MAX := Nat.lt_of_succ_lt hroom
  have hasked : s.owner.Waiting -> s.stop.wrote = true ∨ s.Returned := by
    intro hwaiting
    cases hwrote : s.stop.wrote with
    | true => exact Or.inl rfl
    | false =>
        refine Or.inr (not_not.mp fun hno => ?_)
        exact hstranded ⟨hwaiting, hwrote, hno⟩
  cases howner : s.owner with
  | testLoop => exact finish_testLoop h howner hrunning hroom
  | loopbreak => exact finish_loopbreak h howner hrunning hroom
  | joinLoop =>
      have hwaiting : s.owner.Waiting := howner ▸ trivial
      exact finish_waiting h hwaiting hrunning (hasked hwaiting) hroom'
  | deleteLoop => exact finish_deleteLoop h howner hroom'
  | deleting => exact finish_deleting h howner hroom'
  | joinNull =>
      have hwaiting : s.owner.Waiting := howner ▸ trivial
      exact finish_waiting h hwaiting hrunning (hasked hwaiting) hroom'
  | destroyed => exact StepFn.canReach_here howner
  | _ =>
      rw [howner] at ho
      exact ho.elim

/-!
## It does not return
-/

structure Hanging (s : Loopthread ι) : Prop where
  sound : Sound s
  unasked : s.stop.loop.Exiting ∨ s.Stranded

omit [DecidableEq ι] in
theorem Hanging.not_destroyed (h : Hanging s) : ¬ Destroyed s := by
  intro hdestroyed
  have ho : s.owner = Owner.destroyed := hdestroyed
  have ht : s.thread = Thread.ended := h.sound.past (ho ▸ trivial)
  rcases h.unasked with hexiting | hstranded
  · have hl : s.stop.loop = Stop.LoopThread.outside :=
      h.sound.outside (by rw [ht]; nofun)
    rw [hl] at hexiting
    exact hexiting
  · exact hstranded.right.right (Or.inl ht)

theorem owner_loop {failure : Option Errno}
    (hsteps : Steps s (Action.owner failure) t) :
    t.stop.loop = s.stop.loop := by
  have hbreak : forall {q : Stop (Option ι)},
      s.breakStep none failure = some q -> q.loop = s.stop.loop := by
    intro q hq
    rcases breakStep_frame hq with ⟨a, ha, hstep, _⟩
    exact ((Stop.step_steps hstep).other_frame ha).left
  cases hsteps with
  | findsLoop failure ho hloop hstep =>
      have hone : s.stop.step (Stop.Action.loopbreak none) = some _ := hstep
      exact ((Stop.step_steps hone).other_frame rfl).left
  | deletes failure ho hstep =>
      have hone : s.stop.step (Stop.Action.loopbreak none) = some _ := hstep
      exact ((Stop.step_steps hone).other_frame rfl).left
  | breaks ho hstep =>
      have hsame := hbreak hstep
      exact onReturn_keeps (P := fun t => t.stop.loop = s.stop.loop) hsame
        fun _ => hsame
  | deleted ho hstep =>
      have hsame := hbreak hstep
      exact onReturn_keeps (P := fun t => t.stop.loop = s.stop.loop) hsame
        fun _ => hsame
  | calls ha hnext => rcases ha with hno | hno | hno <;> cases hno
  | _ => rfl

theorem Stranded.thread (hsound : Sound s) (h : Stranded s)
    (hstep : step s Action.thread = some t) : Stranded t := by
  have hwaiting := h.left
  have hwrote := h.right.left
  cases step_steps hstep with
  | creates ht =>
      refine ⟨hwaiting, hwrote, ?_⟩
      rintro (hno | ⟨hno, _⟩) <;> cases hno
  | publishes ht =>
      refine ⟨hwaiting, hwrote, ?_⟩
      rintro (hno | ⟨hno, _⟩) <;> cases hno
  | @enters q ht hq =>
      have hframe := (Stop.step_steps hq).byLoop_frame rfl
      refine ⟨hwaiting, hframe.right.right.trans hwrote, ?_⟩
      have hleft := hsound.outside (by rw [ht]; nofun)
      have hl : s.stop.loop = Stop.LoopThread.outside := hleft
      simp only [Stop.step, Stop.enterLoop, hl] at hq
      cases hq
      rintro (hno | ⟨_, hno⟩) <;> cases hno
  | returns ht hl => exact absurd (Or.inr ⟨ht, hl⟩) h.right.right
  | calls ha hnext => rcases ha with hno | hno | hno <;> cases hno

theorem Stranded.loop (hsound : Sound s) (h : Stranded s)
    {a : Stop.Action (Option ι)} (halone : a.Alone)
    (hstep : step s (Action.loop a) = some t) : Stranded t := by
  cases step_steps hstep with
  | @loops _ q ht hl ha hq =>
      have hrunning : Stop.Running s.stop :=
        ⟨hsound.stop, hl, Or.inl h.right.left⟩
      have hframe := (Stop.step_steps hq).byLoop_frame ha
      refine ⟨h.left, hframe.right.right.trans h.right.left, ?_⟩
      rintro (hno | ⟨_, hno⟩)
      · have hended : s.thread = Thread.ended := hno
        rw [ht] at hended
        cases hended
      · exact (hrunning.next halone hq).inside hno
  | calls ha hnext => rcases ha with hno | hno | hno <;> cases hno

theorem Stranded.owner (hsound : Sound s) (h : Stranded s)
    {failure : Option Errno}
    (hstep : step s (Action.owner failure) = some t) : Stranded t := by
  have hwaiting := h.left
  cases step_steps hstep with
  | stores failure ho => exact absurd hwaiting (ho ▸ id)
  | tests failure ho => exact absurd hwaiting (ho ▸ id)
  | clamps failure ho => exact absurd hwaiting (ho ▸ id)
  | joins failure ho hdone =>
      exact absurd (Or.inl (hdone.elim hsound.joined id)) h.right.right
  | findsNull failure ho hloop => exact absurd hwaiting (ho ▸ id)
  | findsLoop failure ho hloop hstep => exact absurd hwaiting (ho ▸ id)
  | breaks ho hstep => exact absurd hwaiting (ho ▸ id)
  | deletes failure ho hstep => exact absurd hwaiting (ho ▸ id)
  | deleted ho hstep => exact absurd hwaiting (ho ▸ id)
  | calls ha hnext => rcases ha with hno | hno | hno <;> cases hno

theorem Hanging.next (h : Hanging s) {a : Action ι} (hown : a.Own)
    (hstep : step s a = some t) : Hanging t := by
  refine ⟨h.sound.next (step_steps hstep), ?_⟩
  rcases h.unasked with hexiting | hstranded
  · refine Or.inl ?_
    cases a with
    | owner failure =>
        rw [owner_loop (step_steps hstep)]
        exact hexiting
    | thread =>
        cases step_steps hstep with
        | enters ht hq => exact (Stop.step_steps hq).exiting hexiting
        | calls ha hnext => rcases ha with hno | hno | hno <;> cases hno
        | _ => exact hexiting
    | loop a =>
        cases step_steps hstep with
        | loops ht hl ha hq => exact (Stop.step_steps hq).exiting hexiting
        | calls ha hnext => rcases ha with hno | hno | hno <;> cases hno
    | _ => exact hown.elim
  · refine Or.inr ?_
    cases a with
    | owner failure => exact hstranded.owner h.sound hstep
    | thread => exact hstranded.thread h.sound hstep
    | loop a => exact hstranded.loop h.sound hown hstep
    | _ => exact hown.elim

theorem Hanging.not_canReach (h : Hanging s) :
    ¬ StepFn.CanReach step Action.Own Destroyed s := by
  have hstay : forall (s : Loopthread ι) a t, Hanging s -> Action.Own a ->
      step s a = some t -> Hanging t := by
    intro s a t h hown hstep
    exact h.next hown hstep
  have hno : forall s : Loopthread ι, Hanging s -> ¬ Destroyed s := by
    intro s h
    exact h.not_destroyed
  exact StepFn.not_canReach_of_trap hstay hno h

/--
In every run: a destructor that has returned has joined the thread, and it has
deleted the loop exactly if it has found it.  One that has begun can return with
no help but the steps of the thread, as long as the eventfd has room, exactly if
it does not wait for a loop that nobody has asked to stop.
-/
theorem destructor_returns_iff (garbage timeout : Int)
    (acts : List (Action ι)) (s : Loopthread ι)
    (hrun : StepFn.run step (start garbage timeout) acts = some s) :
    (Destroyed s -> s.thread = Thread.ended ∧
      (s.deleted = true <->
        StepFn.Meets step FindsLoop (start garbage timeout) acts)) ∧
    (s.owner.Begun -> s.stop.counter + 2 <= Stop.EVENTFD_MAX ->
      (StepFn.CanReach step Action.Own Destroyed s <->
        ¬ s.Stranded ∧ ¬ s.stop.loop.Exiting)) := by
  have hsound : Sound s := run_sound hrun
  constructor
  · intro hdestroyed
    have ho : s.owner = Owner.destroyed := hdestroyed
    exact ⟨hsound.past (ho ▸ trivial), deleted_iff hrun ho⟩
  · intro hbegun hroom
    constructor
    · intro hreach
      constructor
      · intro hstranded
        have hhanging : Hanging s := ⟨hsound, Or.inr hstranded⟩
        exact hhanging.not_canReach hreach
      · intro hexiting
        have hhanging : Hanging s := ⟨hsound, Or.inl hexiting⟩
        exact hhanging.not_canReach hreach
    · rintro ⟨hstranded, hrunning⟩
      exact finish hsound hbegun hrunning hstranded hroom

def destroyedEarly : List (Action Bool) :=
  [Action.owner none, Action.owner none, Action.destroy, Action.owner none]

/-- The destructor waits for a thread that nobody stops. -/
theorem destructor_returns_iff_destroyedEarly :
    exists s, StepFn.run step (start 0 (-1)) destroyedEarly = some s ∧
      s.owner = Owner.joinNull ∧
      ¬ StepFn.CanReach step Action.Own Destroyed s := by
  have h := destructor_returns_iff 0 (-1) destroyedEarly _ rfl
  refine ⟨_, rfl, rfl, ?_⟩
  rw [h.right trivial (by decide)]
  intro hno
  refine hno.left ⟨trivial, rfl, ?_⟩
  rintro (hended | ⟨hin, _⟩)
  · cases hended
  · cases hin

end Loopthread

end MoonNet
