import MoonNet.Foundation.Family
import MoonNet.Lfthread.Accepted
import MoonNet.Lfthreadpool.Model

/-!
# A static pool at work

The worker threads of a static `lfthreadpool` poll their ring buffers while the
client of the pool adds tasks in turns and finally shuts the pool down.  The
steps inside of a worker's calls are those of `Lfthread`; `next_` and the flag
of the pool belong to the client.
-/

namespace MoonNet

open Foundation
open Ringbuff

universe u

namespace StaticPool

/--
The client: outside of any call, in `enqueue_task` of the worker `idx`, or in
`t_shutdown` of the worker `i`.
-/
inductive Client (τ : Type u) where
  | running
  | adding (idx : Nat) (t : τ)
  | stopping (i : Nat)
deriving DecidableEq, Repr

end StaticPool

/-- `dealt` holds each accepted task with its worker, in order. -/
structure StaticPool (τ : Type u) where
  workers : List (Lfthread τ)
  next : Nat
  shutdown : Bool
  client : StaticPool.Client τ
  dealt : List (Nat × τ)

namespace StaticPool

variable {τ : Type u}

def tnum (hardware : Nat) (n : Int) : Nat :=
  if n <= 0 then Lfthreadpool.getcores hardware else n.toNat

def start (hardware : Nat) (n : Int) (size : UInt64) : StaticPool τ where
  workers := List.replicate (tnum hardware n) (Lfthread.start size)
  next := 0
  shutdown := false
  client := Client.running
  dealt := []

inductive Action (τ : Type u) where
  | addTask (t : τ)
  | addTaskMove (t : τ)
  | tShutdown
  | client
  | worker (i : Nat)
deriving DecidableEq, Repr

/-- `next_ = (next_ + 1) % tnum_; idx = next_;` -/
def getnext (s : StaticPool τ) : Nat :=
  (s.next + 1) % s.workers.length

def move (moved : Task τ -> Task τ) (s : StaticPool τ) (i : Nat)
    (a : Lfthread.Action τ) : Option (StaticPool τ) :=
  match s.workers[i]? with
  | none => none
  | some w =>
      (w.step moved a).map fun w' => { s with workers := s.workers.set i w' }

/-- `add_task`, which returns at once if the pool has been shut down. -/
def callAdd (moved : Task τ -> Task τ) (s : StaticPool τ) (t : τ)
    (a : Lfthread.Action τ) : Option (StaticPool τ) :=
  match s.client with
  | Client.running =>
      if s.shutdown then some s
      else if s.getnext < s.workers.length then
        { s with
          next := s.getnext
          client := Client.adding s.getnext t }.move moved s.getnext a
      else some { s with next := s.getnext }
  | _ => none

/-- `if (shutdown_.exchange(true)) return;` -/
def callShutdown (s : StaticPool τ) : Option (StaticPool τ) :=
  match s.client with
  | Client.running =>
      if s.shutdown then some s
      else some { s with shutdown := true, client := Client.stopping 0 }
  | _ => none

def accept (s : StaticPool τ) (idx : Nat) (t : τ) (ok : Bool) : StaticPool τ :=
  { s with
    client := Client.running
    dealt := if ok then s.dealt ++ [(idx, t)] else s.dealt }

def clientStep (moved : Task τ -> Task τ) (s : StaticPool τ) :
    Option (StaticPool τ) :=
  match s.client with
  | Client.running => none
  | Client.adding idx t =>
      match s.workers[idx]? with
      | none => none
      | some w =>
          match w.buffer.producer with
          | Producer.returned ok =>
              (s.accept idx t ok).move moved idx Lfthread.Action.client
          | _ => s.move moved idx Lfthread.Action.client
  | Client.stopping i =>
      match s.workers[i]? with
      | none => some { s with client := Client.running }
      | some w =>
          match w.client with
          | Lfthread.Client.running =>
              s.move moved i Lfthread.Action.tShutdown
          | Lfthread.Client.done =>
              some { s with client := Client.stopping (i + 1) }
          | _ => s.move moved i Lfthread.Action.client

def step (moved : Task τ -> Task τ) (s : StaticPool τ) :
    Action τ -> Option (StaticPool τ)
  | Action.addTask t => s.callAdd moved t (Lfthread.Action.enqueueTask t)
  | Action.addTaskMove t =>
      s.callAdd moved t (Lfthread.Action.enqueueTaskMove t)
  | Action.tShutdown => s.callShutdown
  | Action.client => s.clientStep moved
  | Action.worker i => s.move moved i Lfthread.Action.worker

/-!
# The workers as a family
-/

def callLabel (s : StaticPool τ) (a : Lfthread.Action τ) :
    Option (Nat × Lfthread.Action τ) :=
  if s.shutdown = false ∧ s.getnext < s.workers.length then
    some (s.getnext, a)
  else none

def clientLabel (s : StaticPool τ) : Option (Nat × Lfthread.Action τ) :=
  match s.client with
  | Client.running => none
  | Client.adding idx _ => some (idx, Lfthread.Action.client)
  | Client.stopping i =>
      match s.workers[i]? with
      | none => none
      | some w =>
          match w.client with
          | Lfthread.Client.running => some (i, Lfthread.Action.tShutdown)
          | Lfthread.Client.done => none
          | _ => some (i, Lfthread.Action.client)

def label (s : StaticPool τ) : Action τ -> Option (Nat × Lfthread.Action τ)
  | Action.addTask t => s.callLabel (Lfthread.Action.enqueueTask t)
  | Action.addTaskMove t => s.callLabel (Lfthread.Action.enqueueTaskMove t)
  | Action.tShutdown => none
  | Action.client => s.clientLabel
  | Action.worker i => some (i, Lfthread.Action.worker)

variable {moved : Task τ -> Task τ} {s s' : StaticPool τ}

theorem move_eq_some {i : Nat} {a : Lfthread.Action τ}
    (h : s.move moved i a = some s') :
    exists w w', s.workers[i]? = some w ∧ w.step moved a = some w' ∧
      s' = { s with workers := s.workers.set i w' } := by
  unfold move at h
  split at h
  · cases h
  · rename_i w hw
    rcases Option.map_eq_some_iff.mp h with ⟨w', hstep, rfl⟩
    exact ⟨w, w', hw, hstep, rfl⟩

/-!
What a step of the pool can do: the client's calls and their returns, and the
steps in between, which move a worker and nothing else.
-/

inductive Steps (moved : Task τ -> Task τ) (s : StaticPool τ) :
    Action τ -> StaticPool τ -> Prop where
  | refuses {a : Action τ} (hc : s.client = Client.running)
      (hshutdown : s.shutdown = true) : Steps moved s a s
  | skips {a : Action τ} (hc : s.client = Client.running)
      (hshutdown : s.shutdown = false)
      (hnone : ¬ s.getnext < s.workers.length) :
      Steps moved s a { s with next := s.getnext }
  | adds {a : Action τ} {t : τ} {b : Lfthread.Action τ} {w w' : Lfthread τ}
      (hb : b = Lfthread.Action.enqueueTask t ∨
        b = Lfthread.Action.enqueueTaskMove t)
      (hc : s.client = Client.running) (hshutdown : s.shutdown = false)
      (hw : s.workers[s.getnext]? = some w)
      (hstep : w.step moved b = some w') :
      Steps moved s a { s with
        next := s.getnext
        client := Client.adding s.getnext t
        workers := s.workers.set s.getnext w' }
  | shuts (hc : s.client = Client.running) (hshutdown : s.shutdown = false) :
      Steps moved s Action.tShutdown
        { s with shutdown := true, client := Client.stopping 0 }
  | pushes {idx : Nat} {t : τ} {w w' : Lfthread τ}
      (hc : s.client = Client.adding idx t) (hw : s.workers[idx]? = some w)
      (hstill : forall ok, w.buffer.producer ≠ Producer.returned ok)
      (hstep : w.step moved Lfthread.Action.client = some w') :
      Steps moved s Action.client
        { s with workers := s.workers.set idx w' }
  | returns {idx : Nat} {t : τ} {w w' : Lfthread τ} {ok : Bool}
      (hc : s.client = Client.adding idx t) (hw : s.workers[idx]? = some w)
      (hok : w.buffer.producer = Producer.returned ok)
      (hstep : w.step moved Lfthread.Action.client = some w') :
      Steps moved s Action.client
        { s.accept idx t ok with workers := s.workers.set idx w' }
  | stops {i : Nat} {a : Lfthread.Action τ} {w w' : Lfthread τ}
      (hc : s.client = Client.stopping i) (hw : s.workers[i]? = some w)
      (ha : a = Lfthread.Action.tShutdown ∧ w.client = Lfthread.Client.running ∨
        a = Lfthread.Action.client ∧ w.client ≠ Lfthread.Client.running)
      (hstep : w.step moved a = some w') :
      Steps moved s Action.client { s with workers := s.workers.set i w' }
  | stopped {i : Nat} {w : Lfthread τ} (hc : s.client = Client.stopping i)
      (hw : s.workers[i]? = some w)
      (hdone : w.client = Lfthread.Client.done) :
      Steps moved s Action.client
        { s with client := Client.stopping (i + 1) }
  | ends {i : Nat} (hc : s.client = Client.stopping i)
      (hnone : s.workers[i]? = none) :
      Steps moved s Action.client { s with client := Client.running }
  | works {i : Nat} {w w' : Lfthread τ} (hw : s.workers[i]? = some w)
      (hstep : w.step moved Lfthread.Action.worker = some w') :
      Steps moved s (Action.worker i)
        { s with workers := s.workers.set i w' }

theorem callAdd_steps {t : τ} {b : Lfthread.Action τ}
    (hb : b = Lfthread.Action.enqueueTask t ∨
      b = Lfthread.Action.enqueueTaskMove t) {a : Action τ}
    (hstep : s.callAdd moved t b = some s') : Steps moved s a s' := by
  unfold callAdd at hstep
  split at hstep
  · rename_i hc
    split at hstep
    · rename_i hshutdown
      cases hstep
      exact Steps.refuses hc hshutdown
    · rename_i hshutdown
      have hopen : s.shutdown = false := Bool.eq_false_iff.mpr hshutdown
      split at hstep
      · rcases move_eq_some hstep with ⟨w, w', hw, hone, rfl⟩
        exact Steps.adds hb hc hopen hw hone
      · rename_i hnone
        cases hstep
        exact Steps.skips hc hopen hnone
  · cases hstep

theorem clientStep_steps (hstep : s.clientStep moved = some s') :
    Steps moved s Action.client s' := by
  unfold clientStep at hstep
  split at hstep
  · cases hstep
  · rename_i idx t hc
    split at hstep
    · cases hstep
    · rename_i w hw
      split at hstep
      · rename_i ok hok
        rcases move_eq_some hstep with ⟨v, w', hv, hone, rfl⟩
        have hsame : s.workers[idx]? = some v := hv
        rw [hw] at hsame
        cases hsame
        exact Steps.returns hc hw hok hone
      · rename_i hstill
        rcases move_eq_some hstep with ⟨v, w', hv, hone, rfl⟩
        rw [hw] at hv
        cases hv
        exact Steps.pushes hc hw hstill hone
  · rename_i i hc
    split at hstep
    · rename_i hnone
      cases hstep
      exact Steps.ends hc hnone
    · rename_i w hw
      split at hstep
      · rename_i hrunning
        rcases move_eq_some hstep with ⟨v, w', hv, hone, rfl⟩
        rw [hw] at hv
        cases hv
        exact Steps.stops hc hw (Or.inl ⟨rfl, hrunning⟩) hone
      · rename_i hdone
        cases hstep
        exact Steps.stopped hc hw hdone
      · rename_i hrunning _
        rcases move_eq_some hstep with ⟨v, w', hv, hone, rfl⟩
        rw [hw] at hv
        cases hv
        exact Steps.stops hc hw (Or.inr ⟨rfl, hrunning⟩) hone

theorem step_steps {a : Action τ} (hstep : step moved s a = some s') :
    Steps moved s a s' := by
  cases a with
  | addTask t => exact callAdd_steps (Or.inl rfl) hstep
  | addTaskMove t => exact callAdd_steps (Or.inr rfl) hstep
  | tShutdown =>
      simp only [step, callShutdown] at hstep
      split at hstep
      · rename_i hc
        split at hstep
        · rename_i hshutdown
          cases hstep
          exact Steps.refuses hc hshutdown
        · rename_i hshutdown
          cases hstep
          exact Steps.shuts hc (Bool.eq_false_iff.mpr hshutdown)
      · cases hstep
  | client => exact clientStep_steps hstep
  | worker i =>
      rcases move_eq_some hstep with ⟨w, w', hw, hone, rfl⟩
      exact Steps.works hw hone

theorem callAdd_moves {t : τ} {b : Lfthread.Action τ}
    (hstep : s.callAdd moved t b = some s') :
    Moves (Lfthread.step moved) s.workers s'.workers (s.callLabel b) := by
  unfold callAdd at hstep
  unfold callLabel
  split at hstep
  · split at hstep
    · rename_i hshutdown
      cases hstep
      rw [if_neg (by simp [hshutdown])]
      rfl
    · rename_i hshutdown
      split at hstep
      · rename_i hsome
        rcases move_eq_some hstep with ⟨w, w', hw, hone, rfl⟩
        rw [if_pos ⟨Bool.eq_false_iff.mpr hshutdown, hsome⟩]
        exact ⟨w, w', hw, hone, rfl⟩
      · rename_i hnone
        cases hstep
        rw [if_neg fun hno => hnone hno.right]
        rfl
  · cases hstep

theorem callShutdown_moves (hstep : s.callShutdown = some s') :
    s'.workers = s.workers := by
  unfold callShutdown at hstep
  split at hstep
  · split at hstep
    · cases hstep
      rfl
    · cases hstep
      rfl
  · cases hstep

theorem move_moves {t : StaticPool τ} {i : Nat} {b : Lfthread.Action τ}
    (hsame : t.workers = s.workers) (hmove : t.move moved i b = some s') :
    Moves (Lfthread.step moved) s.workers s'.workers (some (i, b)) := by
  rcases move_eq_some hmove with ⟨w, w', hw, hone, rfl⟩
  rw [hsame] at hw
  exact ⟨w, w', hw, hone, by rw [hsame]⟩

theorem clientStep_moves (hstep : s.clientStep moved = some s') :
    Moves (Lfthread.step moved) s.workers s'.workers s.clientLabel := by
  cases hc : s.client with
  | running =>
      simp only [clientStep, hc] at hstep
      cases hstep
  | adding idx t =>
      simp only [clientStep, hc] at hstep
      simp only [clientLabel, hc]
      split at hstep
      · cases hstep
      · rename_i w hw
        cases hproducer : w.buffer.producer with
        | returned ok =>
            simp only [hproducer] at hstep
            have hsame : (s.accept idx t ok).workers = s.workers := rfl
            exact move_moves hsame hstep
        | _ =>
            simp only [hproducer] at hstep
            exact move_moves rfl hstep
  | stopping i =>
      cases hw : s.workers[i]? with
      | none =>
          simp only [clientStep, hc, hw] at hstep
          simp only [clientLabel, hc, hw]
          cases hstep
          rfl
      | some w =>
          cases hplace : w.client with
          | done =>
              simp only [clientStep, hc, hw, hplace] at hstep
              simp only [clientLabel, hc, hw, hplace]
              cases hstep
              rfl
          | _ =>
              simp only [clientStep, hc, hw, hplace] at hstep
              simp only [clientLabel, hc, hw, hplace]
              exact move_moves rfl hstep

theorem family (moved : Task τ -> Task τ) :
    Family (step moved) (Lfthread.step moved) (workers : StaticPool τ -> _)
      label where
  moved := by
    intro s a s' hstep
    cases a with
    | addTask t => exact callAdd_moves hstep
    | addTaskMove t => exact callAdd_moves hstep
    | tShutdown => exact callShutdown_moves hstep
    | client => exact clientStep_moves hstep
    | worker i =>
        rcases move_eq_some hstep with ⟨w, w', hw, hone, rfl⟩
        exact ⟨w, w', hw, hone, rfl⟩

end StaticPool

end MoonNet
