import MoonNet.Threadpool.Model

/-!
# What a step changes

For each thread the steps it can take, with what must hold before and with the
state after.  The invariants of the pool are proved by cases on these.
-/

namespace MoonNet

open Foundation

universe u

namespace Threadpool

variable {τ : Type u} {s s' : Threadpool τ}

/-!
# The owner
-/

inductive OwnerStep (s : Threadpool τ) : Threadpool τ -> Prop where
  | starts (i : Nat) (ho : s.owner = Owner.init i) (hlt : i < s.num) :
      OwnerStep s { s.addWorkers 1 with owner := Owner.init (i + 1) }
  | inits (i : Nat) (ho : s.owner = Owner.init i) (hge : s.num <= i) :
      OwnerStep s { s with owner := Owner.running }
  | notifies (ho : s.owner = Owner.notify) :
      OwnerStep s { s with owner := Owner.join 0 s.threadsSize }
  | joins (i n : Nat) (ho : s.owner = Owner.join i n) (hlt : i < n)
      (hjoins : s.joins i = true) :
      OwnerStep s { s with owner := Owner.join (i + 1) n }
  | ends (i n : Nat) (ho : s.owner = Owner.join i n) (hge : n <= i) :
      OwnerStep s { s with owner := Owner.joined }

theorem ownerStep_cases (hstep : s.ownerStep = some s') : OwnerStep s s' := by
  cases ho : s.owner with
  | init i =>
      simp only [ownerStep, ho] at hstep
      split at hstep
      · rename_i hlt
        cases hstep
        exact OwnerStep.starts i ho (Int.ofNat_lt.mp hlt)
      · rename_i hge
        cases hstep
        exact OwnerStep.inits i ho (Int.ofNat_le.mp (Int.not_lt.mp hge))
  | notify =>
      simp only [ownerStep, ho, Option.some.injEq] at hstep
      subst hstep
      exact OwnerStep.notifies ho
  | join i n =>
      simp only [ownerStep, ho] at hstep
      split at hstep
      · rename_i hlt
        split at hstep
        · rename_i hjoins
          cases hstep
          exact OwnerStep.joins i n ho hlt hjoins
        · cases hstep
      · rename_i hge
        cases hstep
        exact OwnerStep.ends i n ho (Nat.le_of_not_lt hge)
  | running =>
      simp [ownerStep, ho] at hstep
  | joined =>
      simp [ownerStep, ho] at hstep

theorem tShutdown_eq (hstep : s.tShutdown = some s') :
    s.owner = Owner.running ∧
      s' = { s with shutdown := true, owner := Owner.notify } := by
  unfold tShutdown at hstep
  split at hstep
  · rename_i ho
    cases hstep
    exact ⟨ho, rfl⟩
  · cases hstep

/-!
# Callers of `add_task`
-/

inductive AddTask (s : Threadpool τ) (t : τ) : Threadpool τ -> Prop where
  | refused (hset : s.shutdown = true) : AddTask s t s
  | queued (hset : s.shutdown = false) :
      AddTask s t
        { s with tasks := s.tasks ++ [t], accepted := s.accepted ++ [t] }

theorem addTask_cases {t : τ} (hstep : s.addTask t = some s') :
    (forall i, s.owner ≠ Owner.init i) ∧ AddTask s t s' := by
  unfold addTask at hstep
  split at hstep
  · cases hstep
  · rename_i hinit
    refine ⟨hinit, ?_⟩
    split at hstep
    · rename_i hset
      cases hstep
      exact AddTask.refused hset
    · rename_i hset
      cases hstep
      exact AddTask.queued (eq_false_of_ne_true hset)

/-!
# Workers
-/

inductive WorkerStep (s : Threadpool τ) (i : Nat) : Threadpool τ -> Prop where
  | leaves (hw : s.workers[i]? = some Worker.waiting)
      (hpos : 0 < s.exitNum) :
      WorkerStep s i { s.setWorker i Worker.exited with
        exitNum := wrap32 (s.exitNum - 1) }
  | returns (hw : s.workers[i]? = some Worker.waiting) (hnone : s.tasks = [])
      (hset : s.shutdown = true) :
      WorkerStep s i (s.setWorker i Worker.exited)
  | takes (t : τ) (rest : List τ)
      (hw : s.workers[i]? = some Worker.waiting) (htasks : s.tasks = t :: rest) :
      WorkerStep s i { s.setWorker i (Worker.popped t) with tasks := rest }
  | countsRun (t : τ) (hw : s.workers[i]? = some (Worker.popped t)) :
      WorkerStep s i { s.setWorker i (Worker.counted t) with
        runNum := wrap32 (s.runNum + 1) }
  | countsLive (t : τ) (hw : s.workers[i]? = some (Worker.counted t)) :
      WorkerStep s i { s.setWorker i (Worker.runs t) with
        liveNum := wrap32 (s.liveNum - 1) }
  | finishes (t : τ) (hw : s.workers[i]? = some (Worker.runs t)) :
      WorkerStep s i { s.setWorker i Worker.waiting with
        executed := s.executed ++ [t] }

theorem takeTask_cases {i : Nat} (hw : s.workers[i]? = some Worker.waiting)
    (hstep : s.takeTask i = some s') : WorkerStep s i s' := by
  unfold takeTask at hstep
  split at hstep
  · rename_i hpos
    cases hstep
    exact WorkerStep.leaves hw hpos
  · cases htasks : s.tasks with
    | nil =>
        simp only [htasks] at hstep
        split at hstep
        · rename_i hset
          cases hstep
          exact WorkerStep.returns hw htasks hset
        · cases hstep
    | cons t rest =>
        simp only [htasks, Option.some.injEq] at hstep
        subst hstep
        exact WorkerStep.takes t rest hw htasks

theorem workerStep_cases {i : Nat} (hstep : s.workerStep i = some s') :
    WorkerStep s i s' := by
  cases hw : s.workers[i]? with
  | none =>
      simp [workerStep, hw] at hstep
  | some w =>
      cases w with
      | exited =>
          simp [workerStep, hw] at hstep
      | waiting =>
          simp only [workerStep, hw] at hstep
          exact takeTask_cases hw hstep
      | popped t =>
          simp only [workerStep, hw, Option.some.injEq] at hstep
          subst hstep
          exact WorkerStep.countsRun t hw
      | counted t =>
          simp only [workerStep, hw, Option.some.injEq] at hstep
          subst hstep
          exact WorkerStep.countsLive t hw
      | runs t =>
          simp only [workerStep, hw, Option.some.injEq] at hstep
          subst hstep
          exact WorkerStep.finishes t hw

/-!
# The manager
-/

def Manager.size? : Manager -> Option Nat
  | Manager.readTasks size | Manager.compareTasks size _
  | Manager.compareMax size | Manager.addThreads size => some size
  | _ => none

/--
The manager goes on from one test to another, reads `exit_num`, or changes the
pool.  Lengths that it has read stay with it.
-/
inductive ManagerStep (s : Threadpool τ) : Threadpool τ -> Prop where
  | goes (m : Manager) (hadd : forall size, s.manager ≠ Manager.addThreads size)
      (hold : forall x, s.manager ≠ Manager.release x)
      (hnew : forall x, m ≠ Manager.release x)
      (hsize : forall size, m.size? = some size ->
        s.manager.size? = some size ∨ size = s.threadsSize) :
      ManagerStep s (s.goto m)
  | reads (hm : s.manager = Manager.readExit) :
      ManagerStep s (s.goto (Manager.release s.exitNum))
  | adds (size : Nat) (hm : s.manager = Manager.addThreads size) :
      ManagerStep s { s.addWorkers (s.addCount size) with
        liveNum := wrap32 (s.liveNum + s.addCount size)
        manager := Manager.readRun }
  | stores (value : Int) (hm : s.manager = Manager.storeExit value) :
      ManagerStep s { s with
        exitNum := wrap32 value, manager := Manager.readExit }
  | releases (x : Int) (hm : s.manager = Manager.release x) :
      ManagerStep s { s with
        liveNum := wrap32 (s.liveNum - x.toNat)
        manager := Manager.testShutdown }

theorem managerStep_cases (hstep : s.managerStep = some s') :
    ManagerStep s s' := by
  cases hm : s.manager with
  | readExit =>
      simp only [managerStep, hm, Option.some.injEq] at hstep
      subst hstep
      exact ManagerStep.reads hm
  | addThreads size =>
      simp only [managerStep, hm, Option.some.injEq] at hstep
      subst hstep
      exact ManagerStep.adds size hm
  | storeExit value =>
      simp only [managerStep, hm, Option.some.injEq] at hstep
      subst hstep
      exact ManagerStep.stores value hm
  | release x =>
      simp only [managerStep, hm, Option.some.injEq] at hstep
      subst hstep
      exact ManagerStep.releases x hm
  | exited =>
      simp [managerStep, hm] at hstep
  | readThreads =>
      simp only [managerStep, hm, Option.some.injEq] at hstep
      subst hstep
      refine ManagerStep.goes _ (hm ▸ nofun) (hm ▸ nofun) nofun ?_
      intro size hsize
      cases hsize
      exact Or.inr rfl
  | readTasks size =>
      simp only [managerStep, hm, Option.some.injEq] at hstep
      subst hstep
      refine ManagerStep.goes _ (hm ▸ nofun) (hm ▸ nofun) nofun ?_
      rw [hm]
      exact fun _ => Or.inl
  | compareTasks size tasks =>
      simp only [managerStep, hm, Option.some.injEq] at hstep
      subst hstep
      split
      · refine ManagerStep.goes _ (hm ▸ nofun) (hm ▸ nofun) nofun ?_
        rw [hm]
        exact fun _ => Or.inl
      · exact ManagerStep.goes _ (hm ▸ nofun) (hm ▸ nofun) nofun nofun
  | compareMax size =>
      simp only [managerStep, hm, Option.some.injEq] at hstep
      subst hstep
      split
      · refine ManagerStep.goes _ (hm ▸ nofun) (hm ▸ nofun) nofun ?_
        rw [hm]
        exact fun _ => Or.inl
      · exact ManagerStep.goes _ (hm ▸ nofun) (hm ▸ nofun) nofun nofun
  | readRun =>
      simp only [managerStep, hm, Option.some.injEq] at hstep
      subst hstep
      exact ManagerStep.goes _ (hm ▸ nofun) (hm ▸ nofun) nofun nofun
  | readSurplus =>
      simp only [managerStep, hm, Option.some.injEq] at hstep
      subst hstep
      exact ManagerStep.goes _ (hm ▸ nofun) (hm ▸ nofun) nofun nofun
  | _ =>
      simp only [managerStep, hm, Option.some.injEq] at hstep
      subst hstep
      split <;> exact ManagerStep.goes _ (hm ▸ nofun) (hm ▸ nofun) nofun nofun

end Threadpool

end MoonNet
