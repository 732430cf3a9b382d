import Mathlib.Algebra.Group.Nat.Defs
import Mathlib.Logic.Function.Basic
import MoonNet.Foundation.Runs
import MoonNet.Kernel.Results

/-!
# Stopping an event loop

`loopbreak` may be called by any threads, among them the loop's own thread in a
callback, and before `loop` is entered.  It writes to the loop's eventfd; the
loop finds the eventfd readable, reads it and sets `shutdown_`.  Each access to
`shutdown_` and each call of the kernel is one step.  The loop's wake-up event
stays registered; what other callbacks do does not concern the eventfd.
-/

namespace MoonNet

open Foundation
open Kernel

universe u

namespace Stop

/-- An event that `epoll_wait` has reported: the wake-up event or another. -/
inductive Ready where
  | wakeup
  | other
deriving DecidableEq, Repr

/--
The thread of `loop`: outside, at the test of `shutdown_`, before `epoll_wait`,
with the events still to be dispatched, and in `read_eventfd` before the read,
before the store and before the test of what the read has returned, where
`none` is a success.
-/
inductive LoopThread where
  | outside
  | test
  | wait
  | dispatch (batch : List Ready)
  | read (batch : List Ready)
  | store (batch : List Ready) (result : Option Errno)
  | check (batch : List Ready) (result : Option Errno)
deriving DecidableEq, Repr

/-- A thread in `loopbreak`: outside, at its test, or before its write. -/
inductive Breaker where
  | outside
  | test
  | write
deriving DecidableEq, Repr

end Stop

/-- The history `wrote` says that some `loopbreak` has completed its write. -/
structure Stop (ι : Type u) where
  counter : Nat
  shutdown : Bool
  loop : Stop.LoopThread
  breaker : ι -> Stop.Breaker
  wrote : Bool

namespace Stop

variable {ι : Type u}

def start : Stop ι where
  counter := 0
  shutdown := false
  loop := LoopThread.outside
  breaker := fun _ => Breaker.outside
  wrote := false

/-- The largest value of an eventfd. -/
def EVENTFD_MAX : Nat := 2 ^ 64 - 2

inductive Action (ι : Type u) where
  | loop
  | testShutdown
  | epollWait (result : Except Errno (List Ready))
  | dispatch
  | read (failure : Option Errno)
  | store
  | check
  | loopbreak (i : ι)
  | breakTest (i : ι)
  | breakWrite (i : ι) (failure : Option Errno)

/-!
## `loop` and `read_eventfd`
-/

def enterLoop (s : Stop ι) : Option (Stop ι) :=
  match s.loop with
  | LoopThread.outside => some { s with loop := LoopThread.test }
  | _ => none

def testShutdown (s : Stop ι) : Option (Stop ι) :=
  match s.loop with
  | LoopThread.test =>
      some { s with
        loop := if s.shutdown then LoopThread.outside else LoopThread.wait }
  | _ => none

def epollWait (s : Stop ι) (result : Except Errno (List Ready)) :
    Option (Stop ι) :=
  match s.loop, result with
  | LoopThread.wait, Except.ok batch =>
      if Ready.wakeup ∈ batch ∧ s.counter = 0 then none
      else some { s with loop := LoopThread.dispatch batch }
  | LoopThread.wait, Except.error Errno.eintr =>
      some { s with loop := LoopThread.test }
  | LoopThread.wait, Except.error _ =>
      some { s with loop := LoopThread.outside }
  | _, _ => none

def dispatch (s : Stop ι) : Option (Stop ι) :=
  match s.loop with
  | LoopThread.dispatch [] => some { s with loop := LoopThread.test }
  | LoopThread.dispatch (Ready.wakeup :: batch) =>
      some { s with loop := LoopThread.read batch }
  | LoopThread.dispatch (Ready.other :: batch) =>
      some { s with loop := LoopThread.dispatch batch }
  | _ => none

def readEventfd (s : Stop ι) (failure : Option Errno) : Option (Stop ι) :=
  match s.loop, failure with
  | LoopThread.read batch, some errno =>
      some { s with loop := LoopThread.store batch (some errno) }
  | LoopThread.read batch, none =>
      if s.counter = 0 then
        some { s with loop := LoopThread.store batch (some Errno.eagain) }
      else
        some { s with counter := 0, loop := LoopThread.store batch none }
  | _, _ => none

def storeShutdown (s : Stop ι) : Option (Stop ι) :=
  match s.loop with
  | LoopThread.store batch result =>
      some { s with shutdown := true, loop := LoopThread.check batch result }
  | _ => none

/-- The process exits after an error other than `EINTR` and `EAGAIN`. -/
def checkRead (s : Stop ι) : Option (Stop ι) :=
  match s.loop with
  | LoopThread.check batch none | LoopThread.check batch (some Errno.eintr)
  | LoopThread.check batch (some Errno.eagain) =>
      some { s with loop := LoopThread.dispatch batch }
  | _ => none

/-!
## `loopbreak` and `write_eventfd`
-/

section

variable [DecidableEq ι]

def loopbreak (s : Stop ι) (i : ι) : Option (Stop ι) :=
  match s.breaker i with
  | Breaker.outside =>
      some { s with breaker := Function.update s.breaker i Breaker.test }
  | _ => none

def breakTest (s : Stop ι) (i : ι) : Option (Stop ι) :=
  match s.breaker i with
  | Breaker.test =>
      some { s with
        breaker := Function.update s.breaker i
          (if s.shutdown then Breaker.outside else Breaker.write) }
  | _ => none

/--
The write adds 1.  It fails if the counter has no room for it, and the process
exits after an error other than `EINTR`.
-/
def writeEventfd (s : Stop ι) (i : ι) (failure : Option Errno) :
    Option (Stop ι) :=
  match s.breaker i, failure with
  | Breaker.write, none =>
      if s.counter < EVENTFD_MAX then
        some { s with
          counter := s.counter + 1
          breaker := Function.update s.breaker i Breaker.outside
          wrote := true }
      else none
  | Breaker.write, some Errno.eintr =>
      some { s with breaker := Function.update s.breaker i Breaker.outside }
  | _, _ => none

def step (s : Stop ι) : Action ι -> Option (Stop ι)
  | Action.loop => s.enterLoop
  | Action.testShutdown => s.testShutdown
  | Action.epollWait result => s.epollWait result
  | Action.dispatch => s.dispatch
  | Action.read failure => s.readEventfd failure
  | Action.store => s.storeShutdown
  | Action.check => s.checkRead
  | Action.loopbreak i => s.loopbreak i
  | Action.breakTest i => s.breakTest i
  | Action.breakWrite i failure => s.writeEventfd i failure

end

/-!
# No request is lost, and none is made up
-/

/-- The loop thread has read the eventfd and not stored `shutdown_` yet. -/
def Storing (s : Stop ι) : Prop :=
  match s.loop with
  | LoopThread.store _ _ => True
  | _ => False

def LoopThread.Stopping : LoopThread -> Prop
  | LoopThread.dispatch batch => Ready.wakeup ∈ batch
  | LoopThread.read _ | LoopThread.store _ _ => True
  | LoopThread.check batch _ => Ready.wakeup ∈ batch
  | _ => False

structure Inv (s : Stop ι) : Prop where
  kept : s.wrote = true -> s.shutdown = true ∨ s.counter ≠ 0 ∨ s.Storing
  shutdown_wrote : s.shutdown = true -> s.wrote = true
  counter_wrote : s.counter ≠ 0 -> s.wrote = true
  stopping_wrote : s.loop.Stopping -> s.wrote = true

theorem start_inv : Inv (start : Stop ι) where
  kept := nofun
  shutdown_wrote := nofun
  counter_wrote := fun h => absurd rfl h
  stopping_wrote := fun h => h.elim

namespace Inv

variable {s s' : Stop ι} {i : ι}

theorem goto (h : Inv s) {l : LoopThread} (hout : ¬ s.Storing)
    (hstopping : l.Stopping -> s.wrote = true) :
    Inv { s with loop := l } where
  kept := by
    intro hwrote
    rcases h.kept hwrote with hshutdown | hcounter | hstoring
    · exact Or.inl hshutdown
    · exact Or.inr (Or.inl hcounter)
    · exact absurd hstoring hout
  shutdown_wrote := h.shutdown_wrote
  counter_wrote := h.counter_wrote
  stopping_wrote := hstopping

theorem breakers (h : Inv s) (breaker : ι -> Breaker) :
    Inv { s with breaker := breaker } :=
  ⟨h.kept, h.shutdown_wrote, h.counter_wrote, h.stopping_wrote⟩

theorem not_storing {l : LoopThread} (hl : s.loop = l)
    (hne : forall batch result, l ≠ LoopThread.store batch result) :
    ¬ s.Storing := by
  intro hstoring
  unfold Storing at hstoring
  rw [hl] at hstoring
  cases l with
  | store batch result => exact hne batch result rfl
  | _ => exact hstoring

theorem enterLoop_inv (h : Inv s) (hstep : s.enterLoop = some s') :
    Inv s' := by
  unfold enterLoop at hstep
  split at hstep
  · rename_i hl
    cases hstep
    exact h.goto (not_storing hl nofun) fun hno => hno.elim
  · cases hstep

theorem testShutdown_inv (h : Inv s) (hstep : s.testShutdown = some s') :
    Inv s' := by
  unfold Stop.testShutdown at hstep
  split at hstep
  · rename_i hl
    cases hstep
    apply h.goto (not_storing hl nofun)
    split
    · exact fun hno => hno.elim
    · exact fun hno => hno.elim
  · cases hstep

theorem epollWait_inv (h : Inv s) {result : Except Errno (List Ready)}
    (hstep : s.epollWait result = some s') : Inv s' := by
  unfold Stop.epollWait at hstep
  split at hstep
  · rename_i batch hl
    split at hstep
    · cases hstep
    · rename_i hready
      cases hstep
      apply h.goto (not_storing hl nofun)
      intro hwakeup
      exact h.counter_wrote fun hzero => hready ⟨hwakeup, hzero⟩
  · rename_i hl
    cases hstep
    exact h.goto (not_storing hl nofun) fun hno => hno.elim
  · rename_i hl
    cases hstep
    exact h.goto (not_storing hl nofun) fun hno => hno.elim
  · cases hstep

theorem dispatch_inv (h : Inv s) (hstep : s.dispatch = some s') :
    Inv s' := by
  have hstopping := h.stopping_wrote
  unfold Stop.dispatch at hstep
  split at hstep
  · rename_i hl
    cases hstep
    exact h.goto (not_storing hl nofun) fun hno => hno.elim
  · rename_i batch hl
    cases hstep
    rw [hl] at hstopping
    exact h.goto (not_storing hl nofun) fun _ =>
      hstopping List.mem_cons_self
  · rename_i batch hl
    cases hstep
    rw [hl] at hstopping
    exact h.goto (not_storing hl nofun) fun hmem =>
      hstopping (List.mem_cons_of_mem _ hmem)
  · cases hstep

theorem readEventfd_inv (h : Inv s) {failure : Option Errno}
    (hstep : s.readEventfd failure = some s') : Inv s' := by
  have hstopping := h.stopping_wrote
  unfold Stop.readEventfd at hstep
  split at hstep
  · rename_i batch errno hl
    cases hstep
    rw [hl] at hstopping
    exact h.goto (not_storing hl nofun) fun _ => hstopping trivial
  · rename_i batch hl
    rw [hl] at hstopping
    split at hstep
    · cases hstep
      exact h.goto (not_storing hl nofun) fun _ => hstopping trivial
    · cases hstep
      exact {
        kept := fun _ => Or.inr (Or.inr trivial)
        shutdown_wrote := h.shutdown_wrote
        counter_wrote := fun _ => hstopping trivial
        stopping_wrote := fun _ => hstopping trivial }
  · cases hstep

theorem storeShutdown_inv (h : Inv s) (hstep : s.storeShutdown = some s') :
    Inv s' := by
  have hstopping := h.stopping_wrote
  unfold Stop.storeShutdown at hstep
  split at hstep
  · rename_i batch result hl
    cases hstep
    rw [hl] at hstopping
    exact {
      kept := fun _ => Or.inl rfl
      shutdown_wrote := fun _ => hstopping trivial
      counter_wrote := h.counter_wrote
      stopping_wrote := fun _ => hstopping trivial }
  · cases hstep

theorem checkRead_inv (h : Inv s) (hstep : s.checkRead = some s') :
    Inv s' := by
  have hstopping := h.stopping_wrote
  unfold Stop.checkRead at hstep
  split at hstep
  · rename_i batch hl
    cases hstep
    rw [hl] at hstopping
    exact h.goto (not_storing hl nofun) hstopping
  · rename_i batch hl
    cases hstep
    rw [hl] at hstopping
    exact h.goto (not_storing hl nofun) hstopping
  · rename_i batch hl
    cases hstep
    rw [hl] at hstopping
    exact h.goto (not_storing hl nofun) hstopping
  · cases hstep

variable [DecidableEq ι]

theorem writeEventfd_inv (h : Inv s) {failure : Option Errno}
    (hstep : s.writeEventfd i failure = some s') : Inv s' := by
  unfold Stop.writeEventfd at hstep
  split at hstep
  · split at hstep
    · cases hstep
      exact {
        kept := fun _ => Or.inr (Or.inl (Nat.succ_ne_zero _))
        shutdown_wrote := fun _ => rfl
        counter_wrote := fun _ => rfl
        stopping_wrote := fun _ => rfl }
    · cases hstep
  · cases hstep
    exact h.breakers _
  · cases hstep

theorem step_inv (h : Inv s) {a : Action ι} (hstep : step s a = some s') :
    Inv s' := by
  cases a with
  | loop => exact h.enterLoop_inv hstep
  | testShutdown => exact h.testShutdown_inv hstep
  | epollWait result => exact h.epollWait_inv hstep
  | dispatch => exact h.dispatch_inv hstep
  | read failure => exact h.readEventfd_inv hstep
  | store => exact h.storeShutdown_inv hstep
  | check => exact h.checkRead_inv hstep
  | loopbreak i =>
      simp only [step, Stop.loopbreak] at hstep
      split at hstep
      · cases hstep
        exact h.breakers _
      · cases hstep
  | breakTest i =>
      simp only [step, Stop.breakTest] at hstep
      split at hstep
      · cases hstep
        exact h.breakers _
      · cases hstep
  | breakWrite i failure => exact h.writeEventfd_inv hstep

end Inv

theorem epollWait_wakeup {s : Stop ι} (hl : s.loop = LoopThread.wait)
    (hcounter : s.counter ≠ 0) :
    s.epollWait (Except.ok [Ready.wakeup]) =
      some { s with loop := LoopThread.dispatch [Ready.wakeup] } := by
  unfold epollWait
  rw [hl]
  exact if_neg fun hno => hcounter hno.right

/--
In every state of every run: once some `loopbreak` has completed its write,
`shutdown_` is set, or the eventfd is readable, or the loop thread has read it
and is about to set `shutdown_`; and `shutdown_` is not set before that.
-/
theorem stop_not_lost [DecidableEq ι] (acts : List (Action ι)) (s : Stop ι)
    (hrun : StepFn.run step start acts = some s) :
    (s.wrote = true -> s.shutdown = true ∨ s.counter ≠ 0 ∨ s.Storing) ∧
      (s.shutdown = true -> s.wrote = true) := by
  have hpres : forall (s : Stop ι) a s', Inv s -> step s a = some s' ->
      Inv s' := by
    intro s a s' h hstep
    exact h.step_inv hstep
  have hinv : Inv s := StepFn.run_invariant hpres start_inv hrun
  exact ⟨hinv.kept, hinv.shutdown_wrote⟩

/--
A stop before the loop is entered and one that arrives between the read and the
store; the eventfd is left readable, and the loop ends.
-/
def stoppedTwice : List (Action Bool) :=
  [Action.loopbreak false, Action.breakTest false,
    Action.breakWrite false none, Action.loop, Action.testShutdown,
    Action.epollWait (Except.ok [Ready.other, Ready.wakeup]),
    Action.dispatch, Action.loopbreak true, Action.breakTest true,
    Action.dispatch, Action.read none, Action.breakWrite true none,
    Action.store, Action.check, Action.dispatch, Action.testShutdown]

theorem stop_not_lost_stoppedTwice :
    exists s, StepFn.run step start stoppedTwice = some s ∧
      s.loop = LoopThread.outside ∧ s.counter = 1 ∧ s.shutdown = true ∧
      s.wrote = true ∧
      (s.wrote = true -> s.shutdown = true ∨ s.counter ≠ 0 ∨ s.Storing) :=
  ⟨_, rfl, rfl, rfl, rfl, rfl, (stop_not_lost stoppedTwice _ rfl).left⟩

end Stop

end MoonNet
