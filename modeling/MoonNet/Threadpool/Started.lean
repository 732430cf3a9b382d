import MoonNet.Threadpool.Wakeups

/-!
# The order in which tasks are started

Sleeping and waking add nothing to what the pool does: a run with them is a run
of the pool.  Tasks are started in the order in which `add_task` has queued them,
each once, and what was started is executed or with a worker.  Once
`t_shutdown` has notified the workers, nobody sleeps any more, so that no join
waits for a sleeper.
-/

namespace MoonNet

open Foundation

universe u

namespace Wakeups

open Threadpool

variable {τ : Type u} {s s' : Wakeups τ}

/-!
# Runs of the pool
-/

def poolAction (_ : Wakeups τ) : Action τ -> Option (Threadpool.Action τ)
  | Action.pool a _ => some a
  | _ => none

theorem poolStep_pool {p : Threadpool τ} {woken : List Nat}
    {a : Threadpool.Action τ} (hstep : s.poolStep p woken a = some s') :
    s'.pool = p := by
  cases a with
  | worker i =>
      simp only [poolStep] at hstep
      split at hstep
      · cases hstep
      · cases hstep
        rfl
  | addTask t =>
      cases hstep
      rfl
  | tShutdown =>
      cases hstep
      rfl
  | owner =>
      simp only [poolStep] at hstep
      split at hstep
      · cases hstep
        rfl
      · cases hstep
        rfl
  | manager =>
      simp only [poolStep] at hstep
      split at hstep
      · split at hstep
        · cases hstep
          rfl
        · cases hstep
      · cases hstep
        rfl

theorem step_poolAction {a : Action τ} (hstep : step s a = some s') :
    StepFn.Matches Threadpool.step s.pool s'.pool (poolAction s a) := by
  cases a with
  | sleep i =>
      simp only [step] at hstep
      split at hstep
      · cases hstep
        rfl
      · cases hstep
  | wakeUp i =>
      simp only [step] at hstep
      split at hstep
      · cases hstep
        rfl
      · cases hstep
  | notifyOne woken =>
      simp only [step] at hstep
      split at hstep
      · cases hstep
        rfl
      · cases hstep
  | pool a woken =>
      rcases step_pool hstep with ⟨p, hp, hs⟩
      show s.pool.step a = some s'.pool
      rw [poolStep_pool hs]
      exact hp

theorem pool_maps :
    StepFn.Maps (step (τ := τ)) Threadpool.step (fun _ => True) pool
      poolAction where
  keeps := fun _ _ _ _ _ => trivial
  matched := fun _ _ _ _ hstep => step_poolAction hstep

/-!
# In order
-/

/-- The queue follows what was started, in the order of acceptance. -/
def InOrder (s : Wakeups τ) : Prop :=
  s.started ++ s.pool.tasks = s.pool.accepted

theorem inOrder_of_same (h : InOrder s) (hstarted : s'.started = s.started)
    (htasks : s'.pool.tasks = s.pool.tasks)
    (haccepted : s'.pool.accepted = s.pool.accepted) : InOrder s' := by
  unfold InOrder
  rw [hstarted, htasks, haccepted]
  exact h

theorem worker_inOrder (h : InOrder s) {i : Nat} {p : Threadpool τ}
    (hone : WorkerStep s.pool i p) :
    s.started ++ s.taken p i ++ p.tasks = p.accepted := by
  have hnone : forall w w' : Worker τ, s.pool.workers[i]? = some w ->
      p.workers[i]? = some w' ->
      (forall t, w = Worker.waiting -> w' ≠ Worker.popped t) ->
      s.taken p i = [] := by
    intro w w' hw hw' hne
    unfold taken
    rw [hw, hw']
    split
    · rename_i t hwaits hpopped
      exact absurd (Option.some.inj hpopped)
        (hne t (Option.some.inj hwaits))
    · rfl
  have hset : forall w w' : Worker τ, s.pool.workers[i]? = some w ->
      (s.pool.workers.set i w')[i]? = some w' := by
    intro w w' hw
    exact List.getElem?_set_self (List.getElem?_eq_some_iff.mp hw).fst
  unfold InOrder at h
  cases hone with
  | leaves hw hpos =>
      rw [hnone _ _ hw (hset _ _ hw) (by nofun), List.append_nil]
      exact h
  | returns hw hnil hshut =>
      rw [hnone _ _ hw (hset _ _ hw) (by nofun), List.append_nil]
      exact h
  | takes t rest hw htasks =>
      have htaken : s.taken { s.pool.setWorker i (Worker.popped t) with
          tasks := rest } i = [t] := by
        have hafter : (s.pool.setWorker i (Worker.popped t)).workers[i]? =
            some (Worker.popped t) := hset _ _ hw
        unfold taken
        dsimp only
        rw [hw, hafter]
      rw [htaken, List.append_assoc]
      rw [htasks] at h
      exact h
  | countsRun t hw =>
      rw [hnone _ _ hw (hset _ _ hw) (by nofun), List.append_nil]
      exact h
  | countsLive t hw =>
      rw [hnone _ _ hw (hset _ _ hw) (by nofun), List.append_nil]
      exact h
  | finishes t hw =>
      rw [hnone _ _ hw (hset _ _ hw) (by nofun), List.append_nil]
      exact h

theorem step_inOrder {a : Action τ} (h : InOrder s)
    (hstep : step s a = some s') : InOrder s' := by
  cases a with
  | sleep i =>
      simp only [step] at hstep
      split at hstep
      · cases hstep
        exact h
      · cases hstep
  | wakeUp i =>
      simp only [step] at hstep
      split at hstep
      · cases hstep
        exact h
      · cases hstep
  | notifyOne woken =>
      simp only [step] at hstep
      split at hstep
      · cases hstep
        exact h
      · cases hstep
  | pool a woken =>
      rcases step_pool hstep with ⟨p, hp, hs⟩
      have hpool := poolStep_pool hs
      cases a with
      | worker i =>
          simp only [poolStep] at hs
          split at hs
          · cases hs
          · cases hs
            exact worker_inOrder h (workerStep_cases hp)
      | addTask t =>
          cases hs
          cases (addTask_cases hp).right with
          | refused hset => exact h
          | queued hset =>
              show s.started ++ (s.pool.tasks ++ [t]) =
                s.pool.accepted ++ [t]
              rw [<- List.append_assoc]
              exact congrArg (· ++ [t]) h
      | tShutdown =>
          cases hs
          rw [(tShutdown_eq hp).right]
          exact h
      | owner =>
          rcases ownerStep_frame hp with ⟨htasks, haccepted, _, _⟩
          apply inOrder_of_same h
          · simp only [poolStep] at hs
            split at hs <;> cases hs <;> rfl
          · rw [hpool]
            exact htasks
          · rw [hpool]
            exact haccepted
      | manager =>
          have hframe := managerStep_frame hp
          apply inOrder_of_same h
          · simp only [poolStep] at hs
            split at hs
            · split at hs
              · cases hs
                rfl
              · cases hs
            · cases hs
              rfl
          · rw [hpool]
            exact hframe.tasks
          · rw [hpool]
            exact hframe.accepted

/-!
# Nobody sleeps while threads are joined
-/

/-- `shutdown` is set before workers are notified, and then they are up. -/
structure Roused (s : Wakeups τ) : Prop where
  shutdown : ¬ s.pool.Open -> s.pool.shutdown = true
  sleepers : s.pool.Joining -> s.sleepers = 0

theorem not_open_of_joining {p : Threadpool τ} (h : p.Joining) : ¬ p.Open := by
  unfold Joining at h
  unfold Open
  cases ho : p.owner with
  | init i =>
      rw [ho] at h
      exact h.elim
  | running =>
      rw [ho] at h
      exact h.elim
  | notify => exact id
  | join i n => exact id
  | joined => exact id

theorem roused_of_frame (h : Roused s)
    (howner : s'.pool.owner = s.pool.owner)
    (hshutdown : s'.pool.shutdown = s.pool.shutdown)
    (hle : s'.sleepers <= s.sleepers) : Roused s' where
  shutdown := by
    unfold Open
    rw [howner, hshutdown]
    exact h.shutdown
  sleepers := by
    unfold Joining
    rw [howner]
    intro hjoining
    have hnone := h.sleepers hjoining
    rw [hnone] at hle
    exact Nat.le_zero.mp hle

theorem chosen_le {woken : List Nat} {count : Nat}
    (hchosen : s.Chosen woken count) :
    (wake s.asleep woken).count true <= s.sleepers := by
  have hcount := count_wake hchosen.left hchosen.right.left
  unfold sleepers
  omega

theorem owner_roused (h : Roused s) {p : Threadpool τ} {woken : List Nat}
    (hp : s.pool.ownerStep = some p)
    (hs : s.poolStep p woken Threadpool.Action.owner = some s') :
    Roused s' := by
  simp only [poolStep] at hs
  cases ownerStep_cases hp with
  | starts i ho hlt =>
      simp only [ho] at hs
      cases hs
      exact { shutdown := fun hopen => absurd trivial hopen
              sleepers := fun hjoining => hjoining.elim }
  | inits i ho hge =>
      simp only [ho] at hs
      cases hs
      exact { shutdown := fun hopen => absurd trivial hopen
              sleepers := fun hjoining => hjoining.elim }
  | notifies ho =>
      simp only [ho] at hs
      cases hs
      have hshut : s.pool.shutdown = true := by
        apply h.shutdown
        unfold Open
        rw [ho]
        exact id
      refine { shutdown := fun _ => hshut, sleepers := fun _ => ?_ }
      apply List.count_eq_zero.mpr
      intro hmem
      rcases List.mem_map.mp hmem with ⟨_, _, hfalse⟩
      cases hfalse
  | joins i n ho hlt hjoins =>
      simp only [ho] at hs
      cases hs
      have hjoining : s.pool.Joining := by
        unfold Joining
        rw [ho]
        trivial
      exact {
        shutdown := fun _ => h.shutdown (not_open_of_joining hjoining)
        sleepers := fun _ =>
          (grown_sleepers s _).trans (h.sleepers hjoining) }
  | ends i n ho hge =>
      simp only [ho] at hs
      cases hs
      have hjoining : s.pool.Joining := by
        unfold Joining
        rw [ho]
        trivial
      exact {
        shutdown := fun _ => h.shutdown (not_open_of_joining hjoining)
        sleepers := fun _ =>
          (grown_sleepers s _).trans (h.sleepers hjoining) }

theorem step_roused {a : Action τ} (h : Roused s)
    (hstep : step s a = some s') : Roused s' := by
  cases a with
  | sleep i =>
      simp only [step] at hstep
      split at hstep
      · rename_i hcan
        cases hstep
        rw [Bool.and_eq_true, Bool.not_eq_true'] at hcan
        -- The pool is not shut down.
        have hfalse := (goesOn_eq_false hcan.right).right.left
        refine { shutdown := h.shutdown, sleepers := fun hjoining => ?_ }
        have htrue := h.shutdown (not_open_of_joining hjoining)
        rw [hfalse] at htrue
        cases htrue
      · cases hstep
  | wakeUp i =>
      simp only [step] at hstep
      split at hstep
      · rename_i hflag
        cases hstep
        have hcount : (s.asleep.set i false).count true + 1 =
            s.asleep.count true := count_true_set hflag false
        exact roused_of_frame h rfl rfl (Nat.le_of_lt (Nat.lt_of_succ_le
          (Nat.le_of_eq hcount)))
      · cases hstep
  | notifyOne woken =>
      simp only [step] at hstep
      split at hstep
      · rename_i hcan
        cases hstep
        exact roused_of_frame h rfl rfl (chosen_le hcan.right)
      · cases hstep
  | pool a woken =>
      rcases step_pool hstep with ⟨p, hp, hs⟩
      have hpool := poolStep_pool hs
      cases a with
      | owner => exact owner_roused h hp hs
      | tShutdown =>
          cases hs
          rw [(tShutdown_eq hp).right]
          exact { shutdown := fun _ => rfl
                  sleepers := fun hjoining => hjoining.elim }
      | addTask t =>
          cases hs
          cases (addTask_cases hp).right with
          | refused hset => exact roused_of_frame h rfl rfl (Nat.le_refl _)
          | queued hset => exact roused_of_frame h rfl rfl (Nat.le_refl _)
      | worker i =>
          have hframe := workerStep_frame hp
          simp only [poolStep] at hs
          split at hs
          · cases hs
          · cases hs
            exact roused_of_frame h hframe.right.left
              hframe.right.right.left (Nat.le_refl _)
      | manager =>
          have hframe := managerStep_frame hp
          simp only [poolStep] at hs
          split at hs
          · split at hs
            · rename_i hchosen
              cases hs
              exact roused_of_frame h hframe.owner hframe.shutdown
                (chosen_le hchosen)
            · cases hs
          · cases hs
            exact roused_of_frame h hframe.owner hframe.shutdown
              (Nat.le_of_eq (grown_sleepers s p))

/-!
# Whole runs
-/

def oneQueued : List (Action Nat) :=
  [Action.pool Threadpool.Action.owner [],
    Action.pool Threadpool.Action.owner [], Action.sleep 0,
    Action.pool (Threadpool.Action.addTask 1) [],
    Action.pool (Threadpool.Action.addTask 2) [], Action.notifyOne [0],
    Action.pool (Threadpool.Action.worker 0) [],
    Action.pool Threadpool.Action.tShutdown [],
    Action.pool Threadpool.Action.owner []]

end Wakeups

end MoonNet
