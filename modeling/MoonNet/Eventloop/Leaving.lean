import MoonNet.Eventloop.Stop
import MoonNet.Foundation.Progress

/-!
# Leaving the loop

A stop request that is not lost must also be served.  Once a `loopbreak` has
completed its write, the loop thread can leave `loop` by itself: `epoll_wait`
has to report the wake-up event, and no timeout, no other event and no other
thread is needed.  Before that, it cannot.
-/

namespace MoonNet

open Foundation
open Kernel

universe u

namespace Stop

variable {ι : Type u}

/-!
## What a step can do
-/

def Action.byLoop : Action ι -> Bool
  | Action.loopbreak _ | Action.breakTest _ | Action.breakWrite _ _ => false
  | _ => true

/-- The steps of the loop thread, and those of the threads in `loopbreak`. -/
inductive Steps (s : Stop ι) : Action ι -> Stop ι -> Prop where
  | enters (hl : s.loop = LoopThread.outside) :
      Steps s Action.loop { s with loop := LoopThread.test }
  | tests (hl : s.loop = LoopThread.test) :
      Steps s Action.testShutdown { s with
        loop := if s.shutdown then LoopThread.outside else LoopThread.wait }
  | reports {batch : List Ready} (hl : s.loop = LoopThread.wait)
      (hready : Ready.wakeup ∈ batch -> s.counter ≠ 0) :
      Steps s (Action.epollWait (Except.ok batch))
        { s with loop := LoopThread.dispatch batch }
  | interrupted (hl : s.loop = LoopThread.wait) :
      Steps s (Action.epollWait (Except.error Errno.eintr))
        { s with loop := LoopThread.test }
  | fails {errno : Errno} (hl : s.loop = LoopThread.wait)
      (herrno : errno ≠ Errno.eintr) :
      Steps s (Action.epollWait (Except.error errno))
        { s with loop := LoopThread.outside }
  | dispatched (hl : s.loop = LoopThread.dispatch []) :
      Steps s Action.dispatch { s with loop := LoopThread.test }
  | wakes {batch : List Ready}
      (hl : s.loop = LoopThread.dispatch (Ready.wakeup :: batch)) :
      Steps s Action.dispatch { s with loop := LoopThread.read batch }
  | passes {batch : List Ready}
      (hl : s.loop = LoopThread.dispatch (Ready.other :: batch)) :
      Steps s Action.dispatch { s with loop := LoopThread.dispatch batch }
  | readFails {batch : List Ready} {errno : Errno}
      (hl : s.loop = LoopThread.read batch) :
      Steps s (Action.read (some errno))
        { s with loop := LoopThread.store batch (some errno) }
  | readsNothing {batch : List Ready} (hl : s.loop = LoopThread.read batch)
      (hcounter : s.counter = 0) :
      Steps s (Action.read none)
        { s with loop := LoopThread.store batch (some Errno.eagain) }
  | reads {batch : List Ready} (hl : s.loop = LoopThread.read batch)
      (hcounter : s.counter ≠ 0) :
      Steps s (Action.read none)
        { s with counter := 0, loop := LoopThread.store batch none }
  | stores {batch : List Ready} {result : Option Errno}
      (hl : s.loop = LoopThread.store batch result) :
      Steps s Action.store
        { s with shutdown := true, loop := LoopThread.check batch result }
  | checks {batch : List Ready} {result : Option Errno}
      (hl : s.loop = LoopThread.check batch result)
      (hresult : forall code, result ≠ some (Errno.other code)) :
      Steps s Action.check { s with loop := LoopThread.dispatch batch }
  | breaks {a : Action ι} {counter : Nat} {breaker : ι -> Breaker}
      {wrote : Bool} (ha : a.byLoop = false) (hadds : s.counter <= counter)
      (hcounter : s.counter < counter -> wrote = true)
      (hwrote : s.wrote = true -> wrote = true) :
      Steps s a
        { s with counter := counter, breaker := breaker, wrote := wrote }

variable {s s' : Stop ι}

theorem epollWait_steps {result : Except Errno (List Ready)}
    (hstep : s.epollWait result = some s') :
    Steps s (Action.epollWait result) s' := by
  unfold epollWait at hstep
  split at hstep
  · rename_i batch hl
    split at hstep
    · cases hstep
    · rename_i hready
      cases hstep
      exact Steps.reports hl fun hwakeup hzero => hready ⟨hwakeup, hzero⟩
  · rename_i hl
    cases hstep
    exact Steps.interrupted hl
  · rename_i errno herrno hl
    cases hstep
    exact Steps.fails hl herrno
  · cases hstep

theorem dispatch_steps (hstep : s.dispatch = some s') :
    Steps s Action.dispatch s' := by
  unfold Stop.dispatch at hstep
  split at hstep
  · rename_i hl
    cases hstep
    exact Steps.dispatched hl
  · rename_i batch hl
    cases hstep
    exact Steps.wakes hl
  · rename_i batch hl
    cases hstep
    exact Steps.passes hl
  · cases hstep

theorem readEventfd_steps {failure : Option Errno}
    (hstep : s.readEventfd failure = some s') :
    Steps s (Action.read failure) s' := by
  unfold readEventfd at hstep
  split at hstep
  · rename_i batch errno hl
    cases hstep
    exact Steps.readFails hl
  · rename_i batch hl
    split at hstep
    · rename_i hcounter
      cases hstep
      exact Steps.readsNothing hl hcounter
    · rename_i hcounter
      cases hstep
      exact Steps.reads hl hcounter
  · cases hstep

theorem checkRead_steps (hstep : s.checkRead = some s') :
    Steps s Action.check s' := by
  unfold checkRead at hstep
  split at hstep
  · rename_i batch hl
    cases hstep
    exact Steps.checks hl nofun
  · rename_i batch hl
    cases hstep
    exact Steps.checks hl nofun
  · rename_i batch hl
    cases hstep
    exact Steps.checks hl nofun
  · cases hstep

section

variable [DecidableEq ι]

theorem breaker_steps {a : Action ι} {i : ι} (ha : a.byLoop = false)
    (failure : Option Errno)
    (hstep : s.loopbreak i = some s' ∨ s.breakTest i = some s' ∨
      s.writeEventfd i failure = some s') : Steps s a s' := by
  rcases hstep with hstep | hstep | hstep
  · unfold Stop.loopbreak at hstep
    split at hstep
    · cases hstep
      exact Steps.breaks ha (Nat.le_refl _)
        (fun h => absurd h (Nat.lt_irrefl _)) id
    · cases hstep
  · unfold Stop.breakTest at hstep
    split at hstep
    · cases hstep
      exact Steps.breaks ha (Nat.le_refl _)
        (fun h => absurd h (Nat.lt_irrefl _)) id
    · cases hstep
  · unfold writeEventfd at hstep
    split at hstep
    · split at hstep
      · cases hstep
        exact Steps.breaks ha (Nat.le_succ _) (fun _ => rfl) fun _ => rfl
      · cases hstep
    · cases hstep
      exact Steps.breaks ha (Nat.le_refl _)
        (fun h => absurd h (Nat.lt_irrefl _)) id
    · cases hstep

theorem step_steps {a : Action ι} (hstep : step s a = some s') :
    Steps s a s' := by
  cases a with
  | loop =>
      simp only [step, enterLoop] at hstep
      split at hstep
      · rename_i hl
        cases hstep
        exact Steps.enters hl
      · cases hstep
  | testShutdown =>
      simp only [step, Stop.testShutdown] at hstep
      split at hstep
      · rename_i hl
        cases hstep
        exact Steps.tests hl
      · cases hstep
  | epollWait result => exact epollWait_steps hstep
  | dispatch => exact dispatch_steps hstep
  | read failure => exact readEventfd_steps hstep
  | store =>
      simp only [step, storeShutdown] at hstep
      split at hstep
      · rename_i batch result hl
        cases hstep
        exact Steps.stores hl
      · cases hstep
  | check => exact checkRead_steps hstep
  | loopbreak i => exact breaker_steps rfl none (Or.inl hstep)
  | breakTest i => exact breaker_steps rfl none (Or.inr (Or.inl hstep))
  | breakWrite i failure =>
      exact breaker_steps rfl failure (Or.inr (Or.inr hstep))

end

/-!
## What the loop thread knows of `shutdown_`
-/

/-- `shutdown_` is set by the loop thread only, between a read and its check. -/
structure Placed (s : Stop ι) : Prop where
  wait : s.loop = LoopThread.wait -> s.shutdown = false
  check : forall batch result, s.loop = LoopThread.check batch result ->
    s.shutdown = true

theorem start_placed : Placed (start : Stop ι) where
  wait := nofun
  check := nofun

theorem Steps.placed {a : Action ι} (h : Placed s) (hsteps : Steps s a s') :
    Placed s' := by
  cases hsteps with
  | enters hl => exact ⟨nofun, nofun⟩
  | tests hl =>
      cases hshutdown : s.shutdown with
      | false => exact ⟨fun _ => rfl, nofun⟩
      | true => exact ⟨nofun, nofun⟩
  | reports hl hready => exact ⟨nofun, nofun⟩
  | interrupted hl => exact ⟨nofun, nofun⟩
  | fails hl herrno => exact ⟨nofun, nofun⟩
  | dispatched hl => exact ⟨nofun, nofun⟩
  | wakes hl => exact ⟨nofun, nofun⟩
  | passes hl => exact ⟨nofun, nofun⟩
  | readFails hl => exact ⟨nofun, nofun⟩
  | readsNothing hl hcounter => exact ⟨nofun, nofun⟩
  | reads hl hcounter => exact ⟨nofun, nofun⟩
  | stores hl => exact ⟨nofun, fun _ _ _ => rfl⟩
  | checks hl hresult => exact ⟨nofun, nofun⟩
  | breaks ha hadds hcounter hwrote => exact ⟨h.wait, h.check⟩

/-!
## Alone
-/

/--
The steps that the loop thread takes alone: `epoll_wait` returns because of the
wake-up event, and no call fails.
-/
def Action.Alone : Action ι -> Prop
  | Action.testShutdown | Action.dispatch | Action.read none | Action.store
  | Action.check => True
  | Action.epollWait (Except.ok batch) => Ready.wakeup ∈ batch
  | _ => False

/-- A read of the eventfd has failed in a way that makes the process exit. -/
def LoopThread.Exiting : LoopThread -> Prop
  | LoopThread.store _ (some (Errno.other _)) => True
  | LoopThread.check _ (some (Errno.other _)) => True
  | _ => False

def Left (s : Stop ι) : Prop :=
  s.loop = LoopThread.outside

structure Stoppable (s : Stop ι) : Prop where
  inv : Inv s
  placed : Placed s
  wrote : s.wrote = true
  running : ¬ s.loop.Exiting

def cost : List Ready -> Nat
  | [] => 0
  | Ready.wakeup :: batch => cost batch + 4
  | Ready.other :: batch => cost batch + 1

def afterBatch (shutdown : Bool) (batch : List Ready) : Nat :=
  if shutdown = true ∨ Ready.wakeup ∈ batch then 1 else 8

def LoopThread.rank (shutdown : Bool) : LoopThread -> Nat
  | LoopThread.outside => 0
  | LoopThread.test => afterBatch shutdown []
  | LoopThread.wait => 7
  | LoopThread.dispatch batch => afterBatch shutdown batch + cost batch + 1
  | LoopThread.read batch => cost batch + 5
  | LoopThread.store batch _ => cost batch + 4
  | LoopThread.check batch _ => cost batch + 3

theorem afterBatch_asked {shutdown : Bool} {batch : List Ready}
    (h : shutdown = true ∨ Ready.wakeup ∈ batch) :
    afterBatch shutdown batch = 1 :=
  if_pos h

theorem afterBatch_other (shutdown : Bool) (batch : List Ready) :
    afterBatch shutdown (Ready.other :: batch) = afterBatch shutdown batch := by
  simp [afterBatch]

theorem Steps.wrote {a : Action ι} (hsteps : Steps s a s')
    (h : s.wrote = true) : s'.wrote = true := by
  cases hsteps with
  | breaks ha hadds hcounter hwrote => exact hwrote h
  | _ => exact h

theorem Steps.running {a : Action ι} (hsteps : Steps s a s')
    (halone : a.Alone) (h : ¬ s.loop.Exiting) : ¬ s'.loop.Exiting := by
  cases hsteps with
  | tests hl =>
      cases hshutdown : s.shutdown with
      | false => exact id
      | true => exact id
  | readFails hl => cases halone
  | @stores batch result hl =>
      rw [hl] at h
      cases result with
      | none => exact id
      | some errno =>
          cases errno with
          | other code => exact absurd trivial h
          | _ => exact id
  | breaks ha hadds hcounter hwrote => exact h
  | _ => exact id

theorem Action.Alone.byLoop {a : Action ι} (h : a.Alone) : a.byLoop = true := by
  cases a with
  | loopbreak i => cases h
  | breakTest i => cases h
  | breakWrite i failure => cases h
  | _ => rfl

theorem Steps.inside {a : Action ι} (hsteps : Steps s a s')
    (halone : a.Alone) : ¬ Left s := by
  intro hleft
  have hl : s.loop = LoopThread.outside := hleft
  cases hsteps with
  | breaks hother hadds hcounter hwrote =>
      rw [halone.byLoop] at hother
      cases hother
  | enters h => cases halone
  | tests h => rw [hl] at h; cases h
  | reports h hready => rw [hl] at h; cases h
  | interrupted h => cases halone
  | fails h herrno => cases halone
  | dispatched h => rw [hl] at h; cases h
  | wakes h => rw [hl] at h; cases h
  | passes h => rw [hl] at h; cases h
  | readFails h => cases halone
  | readsNothing h hcounter => rw [hl] at h; cases h
  | reads h hcounter => rw [hl] at h; cases h
  | stores h => rw [hl] at h; cases h
  | checks h hresult => rw [hl] at h; cases h

theorem Stoppable.next [DecidableEq ι] (h : Stoppable s) {a : Action ι}
    (halone : a.Alone) (hstep : step s a = some s') : Stoppable s' where
  inv := h.inv.step_inv hstep
  placed := (step_steps hstep).placed h.placed
  wrote := (step_steps hstep).wrote h.wrote
  running := (step_steps hstep).running halone h.running

theorem Stoppable.readable (h : Stoppable s)
    (hl : s.loop = LoopThread.wait) : s.counter ≠ 0 := by
  rcases h.inv.kept h.wrote with hshutdown | hcounter | hstoring
  · rw [h.placed.wait hl] at hshutdown
    cases hshutdown
  · exact hcounter
  · exact absurd hstoring (Inv.not_storing hl nofun)

theorem Stoppable.lowers [DecidableEq ι] (h : Stoppable s) (hin : ¬ Left s) :
    exists a s', Action.Alone a ∧ step s a = some s' ∧
      s'.loop.rank s'.shutdown < s.loop.rank s.shutdown := by
  cases hl : s.loop with
  | outside => exact absurd hl hin
  | test =>
      cases hshutdown : s.shutdown with
      | false =>
          have hnext : step s Action.testShutdown =
              some { s with loop := LoopThread.wait } := by
            simp [step, Stop.testShutdown, hl, hshutdown]
          refine ⟨Action.testShutdown, _, trivial, hnext, ?_⟩
          exact Nat.lt_succ_self 7
      | true =>
          have hnext : step s Action.testShutdown =
              some { s with loop := LoopThread.outside } := by
            simp [step, Stop.testShutdown, hl, hshutdown]
          refine ⟨Action.testShutdown, _, trivial, hnext, ?_⟩
          exact Nat.lt_succ_self 0
  | wait =>
      refine ⟨Action.epollWait (Except.ok [Ready.wakeup]), _,
        List.mem_cons_self, epollWait_wakeup hl (h.readable hl), ?_⟩
      show afterBatch s.shutdown [Ready.wakeup] + 4 + 1 < 7
      rw [afterBatch_asked (Or.inr List.mem_cons_self)]
      exact Nat.lt_succ_self 6
  | dispatch batch =>
      cases batch with
      | nil =>
          have hnext : step s Action.dispatch =
              some { s with loop := LoopThread.test } := by
            simp only [step, Stop.dispatch, hl]
          exact ⟨Action.dispatch, _, trivial, hnext, Nat.lt_succ_self _⟩
      | cons e batch =>
          cases e with
          | wakeup =>
              have hnext : step s Action.dispatch =
                  some { s with loop := LoopThread.read batch } := by
                simp only [step, Stop.dispatch, hl]
              refine ⟨Action.dispatch, _, trivial, hnext, ?_⟩
              simp only [LoopThread.rank,
                afterBatch_asked (Or.inr List.mem_cons_self), cost]
              omega
          | other =>
              have hnext : step s Action.dispatch =
                  some { s with loop := LoopThread.dispatch batch } := by
                simp only [step, Stop.dispatch, hl]
              refine ⟨Action.dispatch, _, trivial, hnext, ?_⟩
              simp only [LoopThread.rank, afterBatch_other, cost]
              omega
  | read batch =>
      by_cases hcounter : s.counter = 0
      · have hnext : step s (Action.read none) = some { s with
            loop := LoopThread.store batch (some Errno.eagain) } := by
          simp only [step, readEventfd, hl, if_pos hcounter]
        exact ⟨Action.read none, _, trivial, hnext, Nat.lt_succ_self _⟩
      · have hnext : step s (Action.read none) = some { s with
            counter := 0, loop := LoopThread.store batch none } := by
          simp only [step, readEventfd, hl, if_neg hcounter]
        exact ⟨Action.read none, _, trivial, hnext, Nat.lt_succ_self _⟩
  | store batch result =>
      have hnext : step s Action.store = some { s with
          shutdown := true, loop := LoopThread.check batch result } := by
        simp only [step, storeShutdown, hl]
      exact ⟨Action.store, _, trivial, hnext, Nat.lt_succ_self _⟩
  | check batch result =>
      have hrunning := h.running
      rw [hl] at hrunning
      have hnext : step s Action.check =
          some { s with loop := LoopThread.dispatch batch } := by
        cases result with
        | none => simp only [step, checkRead, hl]
        | some errno =>
            cases errno with
            | other code => exact absurd trivial hrunning
            | _ => simp only [step, checkRead, hl]
      refine ⟨Action.check, _, trivial, hnext, ?_⟩
      simp only [LoopThread.rank,
        afterBatch_asked (Or.inl (h.placed.check batch result hl))]
      omega

theorem Steps.byLoop_frame {a : Action ι} (hsteps : Steps s a s')
    (ha : a.byLoop = true) :
    s'.counter <= s.counter ∧ s'.breaker = s.breaker ∧ s'.wrote = s.wrote := by
  cases hsteps with
  | reads hl hcounter => exact ⟨Nat.zero_le _, rfl, rfl⟩
  | breaks hother hadds hcounter hwrote =>
      rw [hother] at ha
      cases ha
  | _ => exact ⟨Nat.le_refl _, rfl, rfl⟩

theorem Steps.other_frame {a : Action ι} (hsteps : Steps s a s')
    (ha : a.byLoop = false) :
    s'.loop = s.loop ∧ s'.shutdown = s.shutdown := by
  cases hsteps with
  | breaks hother hadds hcounter hwrote => exact ⟨rfl, rfl⟩
  | _ => cases ha

theorem Stoppable.canReach [DecidableEq ι] (h : Stoppable s) :
    StepFn.CanReach step Action.Alone (fun t => Left t ∧
      t.counter <= s.counter ∧ t.breaker = s.breaker) s := by
  have hlower : forall t : Stop ι,
      Stoppable t ∧ t.counter <= s.counter ∧ t.breaker = s.breaker ->
      ¬ (Left t ∧ t.counter <= s.counter ∧ t.breaker = s.breaker) ->
      exists a t', Action.Alone a ∧ step t a = some t' ∧
        (Stoppable t' ∧ t'.counter <= s.counter ∧ t'.breaker = s.breaker) ∧
        t'.loop.rank t'.shutdown < t.loop.rank t.shutdown := by
    intro t ht hin
    have hinside : ¬ Left t := fun hleft => hin ⟨hleft, ht.right⟩
    rcases ht.left.lowers hinside with ⟨a, t', halone, hstep, hlt⟩
    have hsame := (step_steps hstep).byLoop_frame halone.byLoop
    exact ⟨a, t', halone, hstep, ⟨ht.left.next halone hstep,
      Nat.le_trans hsame.left ht.right.left,
      hsame.right.left.trans ht.right.right⟩, hlt⟩
  exact StepFn.canReach_of_rank (fun t : Stop ι => t.loop.rank t.shutdown)
    hlower ⟨h, Nat.le_refl _, rfl⟩

/-!
## Not alone
-/

/-- Nobody has asked the loop thread to stop, or the process is about to exit. -/
structure Running (s : Stop ι) : Prop where
  inv : Inv s
  inside : ¬ Left s
  unasked : s.wrote = false ∨ s.loop.Exiting

theorem Running.unwritten (h : Running s) {l : LoopThread} (hl : s.loop = l)
    (hrunning : ¬ l.Exiting) : s.wrote = false :=
  h.unasked.resolve_right (hl ▸ hrunning)

theorem Running.next [DecidableEq ι] (h : Running s) {a : Action ι}
    (halone : a.Alone) (hstep : step s a = some s') : Running s' := by
  have hsteps := step_steps hstep
  have hinv := h.inv.step_inv hstep
  cases hsteps with
  | enters hl => exact absurd hl h.inside
  | tests hl =>
      have hwrote : s.wrote = false := h.unwritten hl id
      have hshutdown : s.shutdown = false := by
        cases hset : s.shutdown with
        | false => rfl
        | true =>
            rw [h.inv.shutdown_wrote hset] at hwrote
            cases hwrote
      refine ⟨hinv, ?_, Or.inl hwrote⟩
      show ¬ (if s.shutdown then _ else _) = LoopThread.outside
      rw [hshutdown]
      exact nofun
  | reports hl hready => exact ⟨hinv, nofun, Or.inl (h.unwritten hl id)⟩
  | interrupted hl => cases halone
  | fails hl herrno => cases halone
  | dispatched hl => exact ⟨hinv, nofun, Or.inl (h.unwritten hl id)⟩
  | wakes hl => exact ⟨hinv, nofun, Or.inl (h.unwritten hl id)⟩
  | passes hl => exact ⟨hinv, nofun, Or.inl (h.unwritten hl id)⟩
  | readFails hl => cases halone
  | readsNothing hl hcounter =>
      exact ⟨hinv, nofun, Or.inl (h.unwritten hl id)⟩
  | reads hl hcounter => exact ⟨hinv, nofun, Or.inl (h.unwritten hl id)⟩
  | @stores batch result hl =>
      refine ⟨hinv, nofun, h.unasked.imp_right ?_⟩
      rw [hl]
      cases result with
      | none => exact id
      | some errno => cases errno <;> exact id
  | @checks batch result hl hresult =>
      refine ⟨hinv, nofun, Or.inl (h.unwritten hl ?_)⟩
      cases result with
      | none => exact id
      | some errno =>
          cases errno with
          | other code => exact absurd rfl (hresult code)
          | _ => exact id
  | breaks hother hadds hcounter hwrote =>
      rw [halone.byLoop] at hother
      cases hother

theorem Steps.exiting {a : Action ι} (hsteps : Steps s a s')
    (h : s.loop.Exiting) : s'.loop.Exiting := by
  cases hsteps with
  | enters hl => rw [hl] at h; exact h.elim
  | tests hl => rw [hl] at h; exact h.elim
  | reports hl hready => rw [hl] at h; exact h.elim
  | interrupted hl => rw [hl] at h; exact h.elim
  | fails hl herrno => rw [hl] at h; exact h.elim
  | dispatched hl => rw [hl] at h; exact h.elim
  | wakes hl => rw [hl] at h; exact h.elim
  | passes hl => rw [hl] at h; exact h.elim
  | readFails hl => rw [hl] at h; exact h.elim
  | readsNothing hl hcounter => rw [hl] at h; exact h.elim
  | reads hl hcounter => rw [hl] at h; exact h.elim
  | @stores batch result hl =>
      rw [hl] at h
      cases result with
      | none => exact h.elim
      | some errno =>
          cases errno with
          | other code => trivial
          | _ => exact h.elim
  | @checks batch result hl hresult =>
      rw [hl] at h
      cases result with
      | none => exact h.elim
      | some errno =>
          cases errno with
          | other code => exact absurd rfl (hresult code)
          | _ => exact h.elim
  | breaks ha hadds hcounter hwrote => exact h

theorem Running.not_canReach [DecidableEq ι] (h : Running s) :
    ¬ StepFn.CanReach step Action.Alone Left s := by
  have hstay : forall (s : Stop ι) a s', Running s -> Action.Alone a ->
      step s a = some s' -> Running s' := by
    intro s a s' h halone hstep
    exact h.next halone hstep
  exact StepFn.not_canReach_of_trap hstay (fun _ h => h.inside) h

/--
In every state of every run in which the loop thread is inside `loop`: it can
leave it alone exactly if some `loopbreak` has completed its write, unless a
read of the eventfd has failed so that the process exits.
-/
theorem leaves_alone_iff [DecidableEq ι] (acts : List (Action ι)) (s : Stop ι)
    (hrun : StepFn.run step start acts = some s) (hin : ¬ Left s) :
    StepFn.CanReach step Action.Alone Left s <->
      s.wrote = true ∧ ¬ s.loop.Exiting := by
  have hpres : forall (s : Stop ι) a s', Inv s ∧ Placed s ->
      step s a = some s' -> Inv s' ∧ Placed s' := by
    intro s a s' h hstep
    exact ⟨h.left.step_inv hstep, (step_steps hstep).placed h.right⟩
  have hboth : Inv s ∧ Placed s :=
    StepFn.run_invariant hpres ⟨start_inv, start_placed⟩ hrun
  constructor
  · intro hreach
    by_contra hno
    have hrunning : Running s := by
      refine ⟨hboth.left, hin, ?_⟩
      cases hwrote : s.wrote with
      | false => exact Or.inl rfl
      | true => exact Or.inr (not_not.mp fun h => hno ⟨hwrote, h⟩)
    exact hrunning.not_canReach hreach
  · rintro ⟨hwrote, hrunning⟩
    have hstoppable : Stoppable s := ⟨hboth.left, hboth.right, hwrote, hrunning⟩
    exact hstoppable.canReach.imp fun t ht => ht.left

def stoppedBefore : List (Action Bool) :=
  [Action.loopbreak true, Action.breakTest true, Action.breakWrite true none,
    Action.loop, Action.testShutdown]

theorem leaves_alone_iff_stoppedBefore :
    exists s, StepFn.run step start stoppedBefore = some s ∧
      s.loop = LoopThread.wait ∧ StepFn.CanReach step Action.Alone Left s := by
  refine ⟨_, rfl, rfl, (leaves_alone_iff stoppedBefore _ rfl ?_).mpr ⟨rfl, id⟩⟩
  intro hleft
  cases hleft

end Stop

end MoonNet
