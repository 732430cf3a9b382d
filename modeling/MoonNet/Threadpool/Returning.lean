import Mathlib.Algebra.GroupWithZero.Nat
import MoonNet.Foundation.Progress
import MoonNet.Threadpool.Shutdown
import MoonNet.Threadpool.Started

/-!
# `t_shutdown` returns

Once `shutdown` is set nobody goes to sleep any more, the queue only shrinks,
and the manager leaves after the pass that it is in.  So all threads of the pool
come to an end in whatever order they are scheduled.
-/

namespace MoonNet

open Foundation

universe u

/-!
# What is left to do
-/

namespace Threadpool

variable {τ : Type u} {s s' : Threadpool τ}

def Worker.stepsLeft : Worker τ -> Nat
  | Worker.exited => 0
  | Worker.waiting => 1
  | Worker.runs _ => 2
  | Worker.counted _ => 3
  | Worker.popped _ => 4

def workersLeft (s : Threadpool τ) : Nat :=
  (s.workers.map Worker.stepsLeft).sum

def Manager.toExit : Manager -> Nat
  | Manager.exited => 0
  | Manager.testShutdown => 1
  | Manager.release _ => 2
  | Manager.readExit => 3
  | Manager.storeExit _ => 4
  | Manager.readSurplus => 5
  | Manager.compareTen => 6
  | Manager.compareMin => 7
  | Manager.compareRun _ => 8
  | Manager.readRun => 9
  | Manager.addThreads _ => 10
  | Manager.compareMax _ => 11
  | Manager.compareTasks _ _ => 12
  | Manager.readTasks _ => 13
  | Manager.readThreads => 14

def ownerLeft (s : Threadpool τ) : Nat :=
  match s.owner with
  | Owner.notify => s.threadsSize + 2
  | Owner.join i n => n - i + 1
  | _ => 0

theorem workersLeft_set {i : Nat} {w : Worker τ}
    (hw : s.workers[i]? = some w) (w' : Worker τ) :
    (s.setWorker i w').workersLeft + w.stepsLeft =
      s.workersLeft + w'.stepsLeft := by
  rcases List.getElem?_eq_some_iff.mp hw with ⟨hi, hget⟩
  have hbefore : s.workers.Perm (w :: s.workers.eraseIdx i) := by
    rw [<- hget]
    exact (List.getElem_cons_eraseIdx_perm hi).symm
  have hafter : (s.workers.set i w').Perm (w' :: s.workers.eraseIdx i) :=
    List.set_perm_cons_eraseIdx hi w'
  have hone := (hbefore.map Worker.stepsLeft).sum_nat
  have htwo := (hafter.map Worker.stepsLeft).sum_nat
  rw [List.map_cons, List.sum_cons] at hone htwo
  show ((s.workers.set i w').map Worker.stepsLeft).sum + w.stepsLeft =
    (s.workers.map Worker.stepsLeft).sum + w'.stepsLeft
  rw [hone, htwo]
  omega

theorem workersLeft_add (s : Threadpool τ) (n : Nat) :
    (s.addWorkers n).workersLeft = s.workersLeft + n := by
  show ((s.workers ++ List.replicate n Worker.waiting).map _).sum = _
  rw [List.map_append, List.map_replicate, List.sum_append,
    List.sum_replicate_nat]
  exact congrArg _ (Nat.mul_one n)

theorem workerStep_left {i : Nat} (hstep : s.workerStep i = some s') :
    s'.workersLeft + 4 * s'.tasks.length <
      s.workersLeft + 4 * s.tasks.length := by
  cases workerStep_cases hstep with
  | leaves hw hpos =>
      have hset : (s.setWorker i Worker.exited).workersLeft + 1 =
          s.workersLeft + 0 := workersLeft_set hw _
      show (s.setWorker i Worker.exited).workersLeft + 4 * s.tasks.length < _
      omega
  | returns hw hnone hset =>
      have hset : (s.setWorker i Worker.exited).workersLeft + 1 =
          s.workersLeft + 0 := workersLeft_set hw _
      show (s.setWorker i Worker.exited).workersLeft + 4 * s.tasks.length < _
      omega
  | takes t rest hw htasks =>
      have hset : (s.setWorker i (Worker.popped t)).workersLeft + 1 =
          s.workersLeft + 4 := workersLeft_set hw _
      have hlength : s.tasks.length = rest.length + 1 := by
        rw [htasks]
        rfl
      show (s.setWorker i (Worker.popped t)).workersLeft +
        4 * rest.length < _
      omega
  | countsRun t hw =>
      have hset : (s.setWorker i (Worker.counted t)).workersLeft + 4 =
          s.workersLeft + 3 := workersLeft_set hw _
      show (s.setWorker i (Worker.counted t)).workersLeft +
        4 * s.tasks.length < _
      omega
  | countsLive t hw =>
      have hset : (s.setWorker i (Worker.runs t)).workersLeft + 3 =
          s.workersLeft + 2 := workersLeft_set hw _
      show (s.setWorker i (Worker.runs t)).workersLeft +
        4 * s.tasks.length < _
      omega
  | finishes t hw =>
      have hset : (s.setWorker i Worker.waiting).workersLeft + 2 =
          s.workersLeft + 1 := workersLeft_set hw _
      show (s.setWorker i Worker.waiting).workersLeft +
        4 * s.tasks.length < _
      omega

theorem managerStep_left (hset : s.shutdown = true)
    (hstep : s.managerStep = some s') :
    s'.manager.toExit < s.manager.toExit := by
  cases hm : s.manager with
  | exited => simp [managerStep, hm] at hstep
  | addThreads size =>
      simp only [managerStep, hm, Option.some.injEq] at hstep
      subst hstep
      exact Nat.lt_succ_self _
  | storeExit value =>
      simp only [managerStep, hm, Option.some.injEq] at hstep
      subst hstep
      exact Nat.lt_succ_self _
  | release x =>
      simp only [managerStep, hm, Option.some.injEq] at hstep
      subst hstep
      exact Nat.lt_succ_self _
  | testShutdown =>
      simp only [managerStep, hm, hset, Option.some.injEq] at hstep
      subst hstep
      exact Nat.lt_succ_self _
  | readThreads | readTasks | readRun | readSurplus | readExit =>
      simp only [managerStep, hm, Option.some.injEq] at hstep
      subst hstep
      exact Nat.lt_succ_self _
  | compareTasks | compareMax | compareRun | compareMin | compareTen =>
      simp only [managerStep, hm, Option.some.injEq] at hstep
      subst hstep
      split
      · exact Nat.le_of_ble_eq_true rfl
      · exact Nat.le_of_ble_eq_true rfl

theorem managerStep_adds (hstep : s.managerStep = some s') :
    s'.workersLeft <= s.workersLeft + 10 ∧
      s'.threadsSize <= s.threadsSize + 10 := by
  cases managerStep_cases hstep with
  | adds size hm =>
      have hcount : s.addCount size <= 10 := Nat.min_le_left _ _
      constructor
      · show (s.addWorkers (s.addCount size)).workersLeft <= _
        rw [workersLeft_add]
        exact Nat.add_le_add_left hcount _
      · show s.num + (s.workers ++ List.replicate _ Worker.waiting).length <= _
        rw [List.length_append, List.length_replicate, <- Nat.add_assoc]
        exact Nat.add_le_add_left hcount _
  | _ => exact ⟨Nat.le_add_right _ _, Nat.le_add_right _ _⟩

/-!
# Who can go on
-/

theorem worker_goes (hset : s.shutdown = true) {i : Nat} {w : Worker τ}
    (hw : s.workers[i]? = some w) (hleft : w ≠ Worker.exited) :
    exists s', s.workerStep i = some s' := by
  unfold workerStep
  rw [hw]
  cases w with
  | exited => exact absurd rfl hleft
  | popped t => exact ⟨_, rfl⟩
  | counted t => exact ⟨_, rfl⟩
  | runs t => exact ⟨_, rfl⟩
  | waiting =>
      show exists s', s.takeTask i = some s'
      unfold takeTask
      split
      · exact ⟨_, rfl⟩
      · split
        · exact ⟨_, rfl⟩
        · exact ⟨_, rfl⟩

theorem worker_of_not_joins {i : Nat} (hi : i < s.threadsSize)
    (hjoins : s.joins i = false) :
    exists w, s.workers[i - s.num]? = some w ∧ w ≠ Worker.exited := by
  unfold joins at hjoins
  rcases Bool.or_eq_false_iff.mp hjoins with ⟨hnum, hleft⟩
  have hle : s.num <= i := Nat.le_of_not_lt (of_decide_eq_false hnum)
  unfold threadsSize at hi
  have hlt : i - s.num < s.workers.length := by omega
  refine ⟨_, List.getElem?_eq_getElem hlt, ?_⟩
  intro hexited
  rw [List.getElem?_eq_getElem hlt, hexited] at hleft
  cases hleft

theorem manager_goes (hleft : s.manager ≠ Manager.exited) :
    exists s', s.managerStep = some s' := by
  unfold managerStep
  split <;> first | exact ⟨_, rfl⟩ | (rename_i hm; exact absurd hm hleft)

end Threadpool

/-!
# All threads together
-/

namespace Wakeups

open Threadpool

variable {τ : Type u} {s s' : Wakeups τ}

/-- Every step but a call of `add_task`, which is refused. -/
def Action.Pending : Action τ -> Prop
  | Action.pool (Threadpool.Action.addTask _) _ => False
  | _ => True

/--
The manager adds no thread once `t_shutdown` has begun to join, for the loop
that joins would go on with iterators that are no longer valid.
-/
def NoLateThread (s : Wakeups τ) (a : Action τ) : Prop :=
  forall x, poolAction s a = some x -> s.pool.NoLateThread x

/-- `t_shutdown` has been called, and joins the threads of the vector. -/
structure Closing (s : Wakeups τ) : Prop where
  roused : Roused s
  joins : s.pool.JoinInv
  closed : ¬ s.pool.Open

theorem Closing.shutdown (h : Closing s) : s.pool.shutdown = true :=
  h.roused.shutdown h.closed

/--
What is left to do.  A step of the manager can bring ten threads, which have to
return and have to be joined.
-/
def left (s : Wakeups τ) : Nat :=
  21 * s.pool.manager.toExit + s.pool.ownerLeft +
    (s.pool.workersLeft + 4 * s.pool.tasks.length) + s.sleepers + s.notifies

theorem Closing.goesOn (h : Closing s) : goesOn s.pool = true := by
  unfold Wakeups.goesOn
  rw [h.shutdown, Bool.or_true, Bool.true_or]

theorem Closing.owner_lowers (h : Closing s) {woken : List Nat}
    (hstep : step s (Action.pool Threadpool.Action.owner woken) = some s') :
    ¬ s'.pool.Open ∧ s'.left < s.left := by
  rcases step_pool hstep with ⟨p, hp, hs⟩
  have hclosed := h.closed
  unfold Open at hclosed
  simp only [poolStep] at hs
  cases ownerStep_cases hp with
  | starts i ho hlt =>
      rw [ho] at hclosed
      exact absurd trivial hclosed
  | inits i ho hge =>
      rw [ho] at hclosed
      exact absurd trivial hclosed
  | notifies ho =>
      simp only [ho] at hs
      cases hs
      refine ⟨id, ?_⟩
      have hnone : (s.asleep.map fun _ => false).count true = 0 := by
        apply List.count_eq_zero.mpr
        intro hmem
        rcases List.mem_map.mp hmem with ⟨_, _, hfalse⟩
        cases hfalse
      have howner : s.pool.ownerLeft = s.pool.threadsSize + 2 := by
        unfold ownerLeft
        rw [ho]
      show 21 * s.pool.manager.toExit + (s.pool.threadsSize - 0 + 1) +
        (s.pool.workersLeft + 4 * s.pool.tasks.length) +
          (s.asleep.map fun _ => false).count true + s.notifies < _
      rw [hnone]
      unfold left
      rw [howner]
      omega
  | joins i n ho hlt hjoins =>
      simp only [ho] at hs
      cases hs
      refine ⟨id, ?_⟩
      have howner : s.pool.ownerLeft = n - i + 1 := by
        unfold ownerLeft
        rw [ho]
      show 21 * s.pool.manager.toExit + (n - (i + 1) + 1) +
        (s.pool.workersLeft + 4 * s.pool.tasks.length) +
          (s.grown _).count true + s.notifies < _
      rw [grown_sleepers]
      unfold left
      rw [howner]
      omega
  | ends i n ho hge =>
      simp only [ho] at hs
      cases hs
      refine ⟨id, ?_⟩
      have howner : s.pool.ownerLeft = n - i + 1 := by
        unfold ownerLeft
        rw [ho]
      show 21 * s.pool.manager.toExit + 0 +
        (s.pool.workersLeft + 4 * s.pool.tasks.length) +
          (s.grown _).count true + s.notifies < _
      rw [grown_sleepers]
      unfold left
      rw [howner]
      omega

theorem Closing.worker_lowers {i : Nat} {woken : List Nat}
    (hstep : step s (Action.pool (Threadpool.Action.worker i) woken) =
      some s') :
    s'.pool.owner = s.pool.owner ∧ s'.left < s.left := by
  rcases step_pool hstep with ⟨p, hp, hs⟩
  have hlower := workerStep_left hp
  rcases workerStep_frame hp with ⟨hnum, howner, _, _, w, hworkers⟩
  have hmanager : p.manager = s.pool.manager := by
    cases workerStep_cases hp <;> rfl
  have hsize : p.threadsSize = s.pool.threadsSize := by
    unfold threadsSize
    rw [hnum, hworkers, List.length_set]
  have hleft : p.ownerLeft = s.pool.ownerLeft := by
    unfold ownerLeft
    rw [howner, hsize]
  simp only [poolStep] at hs
  split at hs
  · cases hs
  · cases hs
    refine ⟨howner, ?_⟩
    show 21 * p.manager.toExit + p.ownerLeft +
      (p.workersLeft + 4 * p.tasks.length) + s.sleepers + s.notifies < s.left
    unfold left
    rw [hmanager, hleft]
    omega

theorem Closing.manager_lowers (h : Closing s) {woken : List Nat}
    (hstep : step s (Action.pool Threadpool.Action.manager woken) =
      some s') :
    s'.pool.owner = s.pool.owner ∧ s'.left < s.left := by
  rcases step_pool hstep with ⟨p, hp, hs⟩
  have hlower := managerStep_left h.shutdown hp
  have hadds := managerStep_adds hp
  have hframe := managerStep_frame hp
  have hleft : p.ownerLeft <= s.pool.ownerLeft + 10 := by
    unfold ownerLeft
    rw [hframe.owner]
    split
    · exact Nat.add_le_add_right hadds.right 2
    · exact Nat.le_add_right _ _
    · exact Nat.le_add_right _ _
  have hall : forall sleeping, sleeping <= s.sleepers ->
      21 * p.manager.toExit + p.ownerLeft +
        (p.workersLeft + 4 * p.tasks.length) + sleeping + s.notifies <
          s.left := by
    intro sleeping hsleeping
    unfold left
    rw [hframe.tasks]
    omega
  simp only [poolStep] at hs
  split at hs
  · split at hs
    · rename_i hchosen
      cases hs
      exact ⟨hframe.owner, hall _ (chosen_le hchosen)⟩
    · cases hs
  · cases hs
    exact ⟨hframe.owner, hall _ (Nat.le_of_eq (grown_sleepers s p))⟩

theorem Closing.lowers (h : Closing s) {a : Action τ} (ha : a.Pending)
    (hstep : step s a = some s') : ¬ s'.pool.Open ∧ s'.left < s.left := by
  have hsame : s'.pool.owner = s.pool.owner -> ¬ s'.pool.Open := by
    intro howner
    have hclosed := h.closed
    unfold Open at hclosed ⊢
    rwa [howner]
  cases a with
  | sleep i =>
      simp only [step] at hstep
      rw [h.goesOn, Bool.not_true, Bool.and_false] at hstep
      cases hstep
  | wakeUp i =>
      simp only [step] at hstep
      split at hstep
      · rename_i hflag
        cases hstep
        have hcount : (s.asleep.set i false).count true + 1 =
            s.asleep.count true := count_true_set hflag false
        refine ⟨hsame rfl, ?_⟩
        show 21 * s.pool.manager.toExit + s.pool.ownerLeft +
          (s.pool.workersLeft + 4 * s.pool.tasks.length) +
            (s.asleep.set i false).count true + s.notifies < _
        unfold left sleepers
        omega
      · cases hstep
  | notifyOne woken =>
      simp only [step] at hstep
      split at hstep
      · rename_i hcan
        cases hstep
        have hle := chosen_le hcan.right
        have hpos := hcan.left
        refine ⟨hsame rfl, ?_⟩
        show 21 * s.pool.manager.toExit + s.pool.ownerLeft +
          (s.pool.workersLeft + 4 * s.pool.tasks.length) +
            (wake s.asleep woken).count true + (s.notifies - 1) < _
        unfold left
        omega
      · cases hstep
  | pool a woken =>
      cases a with
      | owner => exact h.owner_lowers hstep
      | tShutdown =>
          rcases step_pool hstep with ⟨p, hp, _⟩
          have hclosed := h.closed
          unfold Open at hclosed
          rw [(tShutdown_eq hp).left] at hclosed
          exact absurd trivial hclosed
      | addTask t => exact ha.elim
      | worker i =>
          have hlower := Closing.worker_lowers hstep
          exact ⟨hsame hlower.left, hlower.right⟩
      | manager =>
          have hlower := h.manager_lowers hstep
          exact ⟨hsame hlower.left, hlower.right⟩

/-- `t_shutdown` and all threads of the pool have returned. -/
structure Over (s : Wakeups τ) : Prop where
  owner : s.pool.owner = Owner.joined
  manager : s.pool.manager = Manager.exited
  workers : forall w, w ∈ s.pool.workers -> w = Worker.exited

section Stuck

variable (hstuck : forall a : Action τ, a.Pending -> step s a = none)

include hstuck

theorem pool_stuck (a : Threadpool.Action τ) (woken : List Nat)
    (ha : (Action.pool a woken).Pending) {p : Threadpool τ}
    (hp : s.pool.step a = some p) : s.poolStep p woken a = none := by
  have hnone := hstuck (Action.pool a woken) ha
  simp only [step, hp] at hnone
  exact hnone

variable (h : Closing s)

include h

theorem worker_stuck (hjoining : s.pool.Joining) {i : Nat} {w : Worker τ}
    (hw : s.pool.workers[i]? = some w) : w = Worker.exited := by
  by_contra hleft
  rcases worker_goes h.shutdown hw hleft with ⟨p, hp⟩
  have hup : s.asleep[i]? ≠ some true := by
    intro hflag
    have hnobody := List.count_eq_zero.mp (h.roused.sleepers hjoining)
    exact hnobody (List.mem_of_getElem? hflag)
  have hnone := pool_stuck hstuck (Threadpool.Action.worker i) []
    trivial hp
  simp only [poolStep] at hnone
  rw [if_neg hup] at hnone
  cases hnone

theorem manager_stuck (hjoining : s.pool.Joining) :
    s.pool.manager = Manager.exited := by
  by_contra hleft
  rcases manager_goes hleft with ⟨p, hp⟩
  have hnone := pool_stuck hstuck Threadpool.Action.manager []
    trivial hp
  have hchosen : forall count, s.Chosen [] count := by
    intro count
    refine ⟨List.nodup_nil, nofun, ?_⟩
    rw [h.roused.sleepers hjoining]
    exact (Nat.min_zero _).symm
  cases hm : s.pool.manager with
  | release x =>
      simp only [poolStep, hm] at hnone
      rw [if_pos (hchosen _)] at hnone
      cases hnone
  | _ =>
      simp only [poolStep, hm] at hnone
      cases hnone

theorem owner_stuck : s.pool.owner = Owner.joined := by
  have hnot : forall p, s.pool.ownerStep = some p -> False := by
    intro p hp
    have hnone := pool_stuck hstuck Threadpool.Action.owner []
      trivial hp
    simp only [poolStep] at hnone
    split at hnone
    · cases hnone
    · cases hnone
  have hclosed := h.closed
  have hjoins := h.joins
  unfold Open at hclosed
  unfold JoinInv at hjoins
  unfold ownerStep at hnot
  cases ho : s.pool.owner with
  | init i =>
      rw [ho] at hclosed
      exact absurd trivial hclosed
  | running =>
      rw [ho] at hclosed
      exact absurd trivial hclosed
  | joined => rfl
  | notify =>
      rw [ho] at hnot
      exact (hnot _ rfl).elim
  | join i n =>
      rw [ho] at hnot hjoins
      simp only at hnot
      split at hnot
      · rename_i hlt
        split at hnot
        · exact (hnot _ rfl).elim
        · rename_i hwaits
          have hjoining : s.pool.Joining := by
            unfold Joining
            rw [ho]
            trivial
          rcases worker_of_not_joins (hjoins.right.left ▸ hlt)
            (eq_false_of_ne_true hwaits) with ⟨w, hw, hleft⟩
          exact absurd (worker_stuck hstuck h hjoining hw) hleft
      · exact (hnot _ rfl).elim

theorem over_of_stuck : Over s := by
  have howner := owner_stuck hstuck h
  have hjoining : s.pool.Joining := by
    unfold Joining
    rw [howner]
    trivial
  refine ⟨howner, manager_stuck hstuck h hjoining, ?_⟩
  intro w hw
  rcases List.getElem?_of_mem hw with ⟨i, hi⟩
  exact worker_stuck hstuck h hjoining hi

end Stuck

/-!
# Whole runs
-/

theorem step_joinInv (h : s.pool.JoinInv) {a : Action τ}
    (hlate : NoLateThread s a) (hstep : Wakeups.step s a = some s') :
    s'.pool.JoinInv :=
  pool_maps.step_keeps_of_guard
    (fun _ _ _ h hlate hstep => JoinInv.step h hlate hstep) trivial h hlate
    hstep

theorem Closing.step (h : Closing s) {a : Action τ} (ha : a.Pending)
    (hlate : NoLateThread s a) (hstep : Wakeups.step s a = some s') :
    Closing s' ∧ s'.left < s.left := by
  have hlower := h.lowers ha hstep
  exact ⟨⟨step_roused h.roused hstep, step_joinInv h.joins hlate hstep,
    hlower.left⟩, hlower.right⟩

end Wakeups

end MoonNet
