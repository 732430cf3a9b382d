import Mathlib.Data.List.Perm.Basic
import Mathlib.Data.List.Perm.Subperm
import MoonNet.Threadpool.Steps

/-!
# What happens to accepted tasks at shutdown

Every accepted task is in the queue, with one worker, or executed, so none is
ever executed twice.  When all threads have been joined, no worker holds a task
any more, and all tasks have been executed exactly if the queue is empty.  This
is the case exactly if, from the moment in which `t_shutdown` begins to join,
there is always a worker left to serve a queue that is not empty.
-/

namespace MoonNet

open Foundation

universe u

namespace Threadpool

variable {τ : Type u}

/-!
# No task is lost or duplicated
-/

/-- The task that a worker has taken and not yet run. -/
def Worker.held : Worker τ -> List τ
  | Worker.popped t | Worker.counted t | Worker.runs t => [t]
  | Worker.waiting | Worker.exited => []

def heldTasks (s : Threadpool τ) : List τ :=
  s.workers.flatMap Worker.held

def Conserved (s : Threadpool τ) : Prop :=
  s.accepted.Perm (s.executed ++ (s.heldTasks ++ s.tasks))

theorem heldTasks_set {s : Threadpool τ} {i : Nat} {w : Worker τ}
    (hw : s.workers[i]? = some w) :
    exists rest, s.heldTasks.Perm (w.held ++ rest) ∧
      forall w', (s.setWorker i w').heldTasks.Perm (w'.held ++ rest) := by
  rcases List.getElem?_eq_some_iff.mp hw with ⟨hi, hget⟩
  refine ⟨(s.workers.eraseIdx i).flatMap Worker.held, ?_, ?_⟩
  · have hfront : s.workers.Perm (w :: s.workers.eraseIdx i) := by
      rw [<- hget]
      exact (List.getElem_cons_eraseIdx_perm hi).symm
    exact hfront.flatMap_right Worker.held
  · intro w'
    have hset : (s.workers.set i w').Perm (w' :: s.workers.eraseIdx i) :=
      List.set_perm_cons_eraseIdx hi w'
    exact hset.flatMap_right Worker.held

theorem heldTasks_set_of_held {s : Threadpool τ} {i : Nat} {w w' : Worker τ}
    (hw : s.workers[i]? = some w) (hheld : w'.held = w.held) :
    (s.setWorker i w').heldTasks.Perm s.heldTasks := by
  rcases heldTasks_set hw with ⟨rest, hbefore, hafter⟩
  have hsame := hafter w'
  rw [hheld] at hsame
  exact hsame.trans hbefore.symm

theorem heldTasks_addWorkers (s : Threadpool τ) (n : Nat) :
    (s.addWorkers n).heldTasks = s.heldTasks := by
  have hnone : forall n : Nat,
      (List.replicate n (Worker.waiting : Worker τ)).flatMap Worker.held =
        [] := by
    intro n
    induction n with
    | zero => rfl
    | succ n ih =>
        rw [List.replicate_succ, List.flatMap_cons, ih]
        rfl
  unfold heldTasks addWorkers
  rw [List.flatMap_append, hnone, List.append_nil]

structure ManagerFrame (s s' : Threadpool τ) : Prop where
  num : s'.num = s.num
  tasks : s'.tasks = s.tasks
  accepted : s'.accepted = s.accepted
  executed : s'.executed = s.executed
  shutdown : s'.shutdown = s.shutdown
  owner : s'.owner = s.owner
  workers : exists n,
    s'.workers = s.workers ++ List.replicate n Worker.waiting ∧
      ((forall size, s.manager ≠ Manager.addThreads size) -> n = 0)

theorem goto_frame (s : Threadpool τ) (m : Manager) :
    ManagerFrame s (s.goto m) where
  num := rfl
  tasks := rfl
  accepted := rfl
  executed := rfl
  shutdown := rfl
  owner := rfl
  workers := ⟨0, (List.append_nil _).symm, fun _ => rfl⟩

theorem managerStep_frame {s s' : Threadpool τ}
    (hstep : s.managerStep = some s') : ManagerFrame s s' := by
  cases managerStep_cases hstep with
  | goes m hadd hold hnew hsize => exact goto_frame s m
  | reads hm => exact goto_frame s (Manager.release s.exitNum)
  | adds size hm =>
      exact {
        num := rfl, tasks := rfl, accepted := rfl, executed := rfl
        shutdown := rfl, owner := rfl
        workers := ⟨_, rfl, fun hne => absurd hm (hne size)⟩ }
  | stores value hm => exact { goto_frame s Manager.readExit with }
  | releases x hm => exact { goto_frame s Manager.testShutdown with }

theorem ownerStep_frame {s s' : Threadpool τ}
    (hstep : s.ownerStep = some s') :
    s'.tasks = s.tasks ∧ s'.accepted = s.accepted ∧
      s'.executed = s.executed ∧ s'.heldTasks = s.heldTasks := by
  cases ownerStep_cases hstep with
  | starts i ho hlt => exact ⟨rfl, rfl, rfl, heldTasks_addWorkers s 1⟩
  | _ => exact ⟨rfl, rfl, rfl, rfl⟩

namespace Conserved

variable {s s' : Threadpool τ}

theorem perm_setWorker (h : Conserved s) {i : Nat} {w w' : Worker τ}
    (hw : s.workers[i]? = some w) (hheld : w'.held = w.held) :
    s.accepted.Perm
      (s.executed ++ ((s.setWorker i w').heldTasks ++ s.tasks)) := by
  have hsame := heldTasks_set_of_held hw hheld
  exact h.trans ((hsame.symm.append_right _).append_left _)

theorem worker (h : Conserved s) {i : Nat}
    (hstep : s.workerStep i = some s') : Conserved s' := by
  cases workerStep_cases hstep with
  | leaves hw hpos => exact h.perm_setWorker hw rfl
  | returns hw hnone hset => exact h.perm_setWorker hw rfl
  | takes t rest hw htasks =>
      rcases heldTasks_set hw with ⟨others, hbefore, hafter⟩
      have hqueue : (s.heldTasks ++ s.tasks).Perm
          ((s.setWorker i (Worker.popped t)).heldTasks ++ rest) := by
        rw [htasks]
        have hleft := (hbefore.append_right (t :: rest)).trans
          List.perm_middle
        have hright := (hafter (Worker.popped t)).symm.append_right rest
        exact hleft.trans hright
      exact h.trans (hqueue.append_left s.executed)
  | countsRun t hw => exact h.perm_setWorker hw rfl
  | countsLive t hw => exact h.perm_setWorker hw rfl
  | finishes t hw =>
      rcases heldTasks_set hw with ⟨others, hbefore, hafter⟩
      have hrun : s.heldTasks.Perm
          (t :: (s.setWorker i Worker.waiting).heldTasks) :=
        hbefore.trans ((hafter Worker.waiting).symm.cons t)
      have hqueue := (hrun.append_right s.tasks).append_left s.executed
      refine h.trans (hqueue.trans ?_)
      show (s.executed ++ (t :: _ ++ s.tasks)).Perm
        (s.executed ++ [t] ++ (_ ++ s.tasks))
      rw [List.append_assoc]
      exact List.Perm.refl _

theorem step (h : Conserved s) {a : Action τ}
    (hstep : Threadpool.step s a = some s') : Conserved s' := by
  unfold Conserved at h ⊢
  cases a with
  | owner =>
      rcases ownerStep_frame hstep with ⟨htasks, haccepted, hexecuted, hheld⟩
      rw [htasks, haccepted, hexecuted, hheld]
      exact h
  | tShutdown =>
      rw [(tShutdown_eq hstep).right]
      exact h
  | addTask t =>
      cases (addTask_cases hstep).right with
      | refused hset => exact h
      | queued hset =>
          show (s.accepted ++ [t]).Perm
            (s.executed ++ (s.heldTasks ++ (s.tasks ++ [t])))
          rw [<- List.append_assoc s.heldTasks, <- List.append_assoc]
          exact h.append_right [t]
  | manager =>
      have hframe := managerStep_frame hstep
      rcases hframe.workers with ⟨n, hworkers, _⟩
      have hheld : s'.heldTasks = s.heldTasks := by
        rw [<- heldTasks_addWorkers s n]
        unfold heldTasks addWorkers
        rw [hworkers]
      rw [hframe.tasks, hframe.accepted, hframe.executed, hheld]
      exact h
  | worker i =>
      exact Conserved.worker h hstep

end Conserved

theorem start_conserved (num hardware : Nat) :
    Conserved (start num hardware : Threadpool τ) :=
  List.Perm.refl _

/-!
# Joining
-/

def JoinInv (s : Threadpool τ) : Prop :=
  match s.owner with
  | Owner.init _ | Owner.running => True
  | Owner.notify => s.shutdown = true
  | Owner.join i n =>
      s.shutdown = true ∧ n = s.threadsSize ∧
        forall j, j < i -> s.joins j = true
  | Owner.joined =>
      s.shutdown = true ∧ forall j, j < s.threadsSize -> s.joins j = true

theorem JoinInv.shutdown {s : Threadpool τ} (h : JoinInv s)
    (hjoining : s.Joining) : s.shutdown = true := by
  unfold JoinInv at h
  unfold Joining at hjoining
  cases ho : s.owner with
  | join i n =>
      rw [ho] at h
      exact h.left
  | joined =>
      rw [ho] at h
      exact h.left
  | _ =>
      rw [ho] at hjoining
      exact hjoining.elim

theorem JoinInv.frame {s s' : Threadpool τ} (h : JoinInv s)
    (howner : s'.owner = s.owner) (hshutdown : s'.shutdown = s.shutdown)
    (hsize : s.Joining -> s'.threadsSize = s.threadsSize)
    (hjoins : forall j, s.joins j = true -> s'.joins j = true) :
    JoinInv s' := by
  unfold JoinInv at h ⊢
  unfold Joining at hsize
  rw [howner, hshutdown]
  cases ho : s.owner with
  | init i => trivial
  | running => trivial
  | notify =>
      rw [ho] at h
      exact h
  | join i n =>
      rw [ho] at h hsize
      exact ⟨h.left, h.right.left.trans (hsize trivial).symm,
        fun j hj => hjoins j (h.right.right j hj)⟩
  | joined =>
      rw [ho] at h hsize
      refine ⟨h.left, ?_⟩
      rw [hsize trivial]
      exact fun j hj => hjoins j (h.right j hj)

theorem joins_setWorker {s s' : Threadpool τ} {i j : Nat} {w : Worker τ}
    (hnum : s'.num = s.num) (hworkers : s'.workers = s.workers.set i w)
    (hw : s.workers[i]? ≠ some Worker.exited) (hj : s.joins j = true) :
    s'.joins j = true := by
  unfold joins at hj ⊢
  rw [hnum, hworkers]
  by_cases heq : i = j - s.num
  · subst heq
    split at hj
    · rename_i hexited
      exact absurd hexited hw
    · rw [Bool.or_false] at hj
      rw [hj, Bool.true_or]
  · rw [List.getElem?_set_ne heq]
    exact hj

theorem workerStep_frame {s s' : Threadpool τ} {i : Nat}
    (hstep : s.workerStep i = some s') :
    s'.num = s.num ∧ s'.owner = s.owner ∧ s'.shutdown = s.shutdown ∧
      s.workers[i]? ≠ some Worker.exited ∧
        exists w, s'.workers = s.workers.set i w := by
  have hne : forall {w : Worker τ}, s.workers[i]? = some w ->
      w ≠ Worker.exited -> s.workers[i]? ≠ some Worker.exited := by
    intro w hw hleft hexited
    exact hleft (Option.some.inj (hw.symm.trans hexited))
  cases workerStep_cases hstep with
  | leaves hw hpos => exact ⟨rfl, rfl, rfl, hne hw nofun, _, rfl⟩
  | returns hw hnone hset => exact ⟨rfl, rfl, rfl, hne hw nofun, _, rfl⟩
  | takes t rest hw htasks => exact ⟨rfl, rfl, rfl, hne hw nofun, _, rfl⟩
  | countsRun t hw => exact ⟨rfl, rfl, rfl, hne hw nofun, _, rfl⟩
  | countsLive t hw => exact ⟨rfl, rfl, rfl, hne hw nofun, _, rfl⟩
  | finishes t hw => exact ⟨rfl, rfl, rfl, hne hw nofun, _, rfl⟩

theorem JoinInv.owner {s s' : Threadpool τ} (h : JoinInv s)
    (hstep : s.ownerStep = some s') : JoinInv s' := by
  unfold JoinInv at h
  cases ownerStep_cases hstep with
  | starts i ho hlt => trivial
  | inits i ho hge => trivial
  | notifies ho =>
      rw [ho] at h
      exact ⟨h, rfl, fun j hj => absurd hj (Nat.not_lt_zero j)⟩
  | joins i n ho hlt hjoins =>
      rw [ho] at h
      rcases h with ⟨hshutdown, hn, hjoined⟩
      refine ⟨hshutdown, hn, ?_⟩
      intro j hj
      cases Nat.lt_succ_iff_lt_or_eq.mp hj with
      | inl hlt => exact hjoined j hlt
      | inr heq => exact heq ▸ hjoins
  | ends i n ho hge =>
      rw [ho] at h
      rcases h with ⟨hshutdown, hn, hjoined⟩
      refine ⟨hshutdown, ?_⟩
      intro j hj
      have hlt : j < n := hn ▸ hj
      exact hjoined j (Nat.lt_of_lt_of_le hlt hge)

theorem JoinInv.step {s s' : Threadpool τ} (h : JoinInv s) {a : Action τ}
    (hlate : NoLateThread s a) (hstep : Threadpool.step s a = some s') :
    JoinInv s' := by
  cases a with
  | owner =>
      exact h.owner hstep
  | tShutdown =>
      rw [(tShutdown_eq hstep).right]
      rfl
  | addTask t =>
      cases (addTask_cases hstep).right with
      | refused hset => exact h
      | queued hset => exact h.frame rfl rfl (fun _ => rfl) fun _ hj => hj
  | manager =>
      have hframe := managerStep_frame hstep
      rcases hframe.workers with ⟨n, hworkers, hnone⟩
      refine h.frame hframe.owner hframe.shutdown ?_ ?_
      · intro hjoining
        have hzero : n = 0 := hnone (hlate rfl hjoining)
        unfold threadsSize
        rw [hworkers, hzero, hframe.num, List.replicate_zero, List.append_nil]
      · intro j hj
        unfold joins at hj ⊢
        rw [hframe.num, hworkers]
        cases hsome : s.workers[j - s.num]? with
        | none =>
            rw [hsome] at hj
            simp only [Bool.or_false] at hj
            rw [hj, Bool.true_or]
        | some w =>
            have hlt := (List.getElem?_eq_some_iff.mp hsome).1
            rw [List.getElem?_append_left hlt]
            exact hj
  | worker i =>
      rcases workerStep_frame hstep with
        ⟨hnum, howner, hshutdown, hne, w, hworkers⟩
      refine h.frame howner hshutdown ?_ ?_
      · intro _
        unfold threadsSize
        rw [hnum, hworkers, List.length_set]
      · intro j hj
        exact joins_setWorker hnum hworkers hne hj

theorem exited_of_joined {s : Threadpool τ} (h : JoinInv s)
    (howner : s.owner = Owner.joined) :
    forall w, w ∈ s.workers -> w = Worker.exited := by
  unfold JoinInv at h
  rw [howner] at h
  intro w hmem
  rcases List.getElem_of_mem hmem with ⟨i, hi, hget⟩
  have hjoins := h.right (s.num + i) (Nat.add_lt_add_left hi s.num)
  unfold joins at hjoins
  rw [Nat.add_sub_cancel_left, List.getElem?_eq_getElem hi, hget] at hjoins
  have hnum : ¬ s.num + i < s.num := Nat.not_lt.mpr (Nat.le_add_right _ _)
  cases w with
  | exited => rfl
  | _ =>
      simp only [Bool.or_false, decide_eq_true_eq] at hjoins
      exact absurd hjoins hnum

/-!
# A worker is left
-/

def Good (s : Threadpool τ) : Prop :=
  s.Joining -> s.Served

/-- Threads are joined, and tasks are left without any worker. -/
def Stranded (s : Threadpool τ) : Prop :=
  s.Joining ∧ ¬ s.Served

theorem served_of_set {s s' : Threadpool τ} {i : Nat} {w w' : Worker τ}
    (hw : s.workers[i]? = some w) (hworkers : s'.workers = s.workers.set i w')
    (hleft : w' ≠ Worker.exited) : s'.Served := by
  have hi := (List.getElem?_eq_some_iff.mp hw).1
  refine Or.inl ⟨w', ?_, hleft⟩
  rw [hworkers]
  exact List.mem_set hi w'

theorem served_worker {s s' : Threadpool τ} {i : Nat}
    (hstep : s.workerStep i = some s') :
    s'.Served ∨
      (s.workers[i]? = some Worker.waiting ∧ 0 < s.exitNum ∧
        (s'.Served <-> (s.setWorker i Worker.exited).Served)) := by
  cases workerStep_cases hstep with
  | leaves hw hpos => exact Or.inr ⟨hw, hpos, Iff.rfl⟩
  | returns hw hnone hset => exact Or.inl (Or.inr hnone)
  | takes t rest hw htasks =>
      exact Or.inl (served_of_set hw rfl nofun)
  | countsRun t hw => exact Or.inl (served_of_set hw rfl nofun)
  | countsLive t hw => exact Or.inl (served_of_set hw rfl nofun)
  | finishes t hw => exact Or.inl (served_of_set hw rfl nofun)

/--
Steps that begin or are part of the joining: the one that begins it, a step of a
worker, or one that changes neither the workers nor the queue.
-/
theorem joining_cases {s s' : Threadpool τ} (h : JoinInv s) {a : Action τ}
    (hlate : NoLateThread s a) (hstep : step s a = some s')
    (hjoining : s'.Joining) :
    ((s.Joining ∨ (a = Action.owner ∧ s.owner = Owner.notify)) ∧
        (s'.Served <-> s.Served)) ∨
      (s.Joining ∧ exists i, a = Action.worker i) := by
  cases a with
  | owner =>
      have hbefore : forall {i n : Nat}, s.owner = Owner.join i n ->
          s.Joining := by
        intro i n ho
        unfold Joining
        rw [ho]
        trivial
      cases ownerStep_cases hstep with
      | starts i ho hlt => exact hjoining.elim
      | inits i ho hge => exact hjoining.elim
      | notifies ho => exact Or.inl ⟨Or.inr ⟨rfl, ho⟩, Iff.rfl⟩
      | joins i n ho hlt hjoins =>
          exact Or.inl ⟨Or.inl (hbefore ho), Iff.rfl⟩
      | ends i n ho hge => exact Or.inl ⟨Or.inl (hbefore ho), Iff.rfl⟩
  | tShutdown =>
      rw [(tShutdown_eq hstep).right] at hjoining
      exact hjoining.elim
  | addTask t =>
      have hsame : s'.owner = s.owner ∧
          (s.shutdown = true -> s' = s) := by
        cases (addTask_cases hstep).right with
        | refused hset => exact ⟨rfl, fun _ => rfl⟩
        | queued hset =>
            refine ⟨rfl, fun hset' => ?_⟩
            rw [hset] at hset'
            cases hset'
      have hbefore : s.Joining := by
        unfold Joining at hjoining ⊢
        rwa [hsame.left] at hjoining
      rw [hsame.right (h.shutdown hbefore)]
      exact Or.inl ⟨Or.inl hbefore, Iff.rfl⟩
  | manager =>
      have hframe := managerStep_frame hstep
      have hbefore : s.Joining := by
        unfold Joining at hjoining ⊢
        rwa [hframe.owner] at hjoining
      rcases hframe.workers with ⟨n, hworkers, hnone⟩
      rw [hnone (hlate rfl hbefore), List.replicate_zero,
        List.append_nil] at hworkers
      refine Or.inl ⟨Or.inl hbefore, ?_⟩
      unfold Served
      rw [hworkers, hframe.tasks]
  | worker i =>
      have howner := (workerStep_frame hstep).right.left
      have hbefore : s.Joining := by
        unfold Joining at hjoining ⊢
        rwa [howner] at hjoining
      exact Or.inr ⟨hbefore, i, rfl⟩

theorem Good.step {s s' : Threadpool τ} (hgood : Good s) (h : JoinInv s)
    {a : Action τ} (hlate : NoLateThread s a) (hguard : KeepsServed s a)
    (hstep : Threadpool.step s a = some s') : Good s' := by
  intro hjoining
  rcases joining_cases h hlate hstep hjoining with
    ⟨hbefore, hsame⟩ | ⟨hbefore, i, ha⟩
  · rw [hsame]
    rcases hbefore with hbefore | ⟨ha, hnotify⟩
    · exact hgood hbefore
    · exact hguard.left ha hnotify
  · subst ha
    rcases served_worker hstep with hserved | ⟨hw, hexit, hsame⟩
    · exact hserved
    · exact hsame.mpr (hguard.right i rfl hbefore hw hexit)

theorem stranded_of_not_keepsServed {s s' : Threadpool τ} {a : Action τ}
    (hguard : ¬ KeepsServed s a)
    (hstep : Threadpool.step s a = some s') : Stranded s' := by
  by_cases hbegin : a = Action.owner -> s.owner = Owner.notify -> s.Served
  · have hlast : ¬ forall i, a = Action.worker i -> s.Joining ->
        s.workers[i]? = some Worker.waiting -> 0 < s.exitNum ->
          (s.setWorker i Worker.exited).Served :=
      fun hrest => hguard ⟨hbegin, hrest⟩
    push Not at hlast
    rcases hlast with ⟨i, ha, hjoining, hw, hexit, hunserved⟩
    subst ha
    simp only [Threadpool.step, workerStep, hw] at hstep
    unfold takeTask at hstep
    rw [if_pos hexit] at hstep
    cases hstep
    exact ⟨hjoining, hunserved⟩
  · push Not at hbegin
    rcases hbegin with ⟨ha, hnotify, hunserved⟩
    subst ha
    simp only [Threadpool.step, ownerStep, hnotify,
      Option.some.injEq] at hstep
    subst hstep
    exact ⟨trivial, hunserved⟩

theorem joining_step {s s' : Threadpool τ} {a : Action τ}
    (hjoining : s.Joining) (hstep : step s a = some s') : s'.Joining := by
  have hsame : s'.owner = s.owner -> s'.Joining := by
    intro howner
    unfold Joining
    rw [howner]
    exact hjoining
  cases a with
  | owner =>
      unfold Joining at hjoining
      cases ownerStep_cases hstep with
      | starts i ho hlt =>
          rw [ho] at hjoining
          exact hjoining.elim
      | inits i ho hge =>
          rw [ho] at hjoining
          exact hjoining.elim
      | notifies ho => trivial
      | joins i n ho hlt hjoins => trivial
      | ends i n ho hge => trivial
  | tShutdown =>
      unfold Joining at hjoining
      rw [(tShutdown_eq hstep).left] at hjoining
      exact hjoining.elim
  | addTask t =>
      cases (addTask_cases hstep).right with
      | refused hset => exact hjoining
      | queued hset => exact hsame rfl
  | manager =>
      exact hsame (managerStep_frame hstep).owner
  | worker i =>
      exact hsame (workerStep_frame hstep).right.left

theorem Stranded.step {s s' : Threadpool τ} (hstranded : Stranded s)
    (h : JoinInv s) {a : Action τ} (hlate : NoLateThread s a)
    (hstep : Threadpool.step s a = some s') : Stranded s' := by
  have hjoining := joining_step hstranded.left hstep
  refine ⟨hjoining, ?_⟩
  rcases joining_cases h hlate hstep hjoining with ⟨_, hsame⟩ | ⟨_, i, ha⟩
  · rw [hsame]
    exact hstranded.right
  · -- All workers have returned, so none of them takes a step.
    subst ha
    have hne := (workerStep_frame hstep).right.right.right.left
    cases hw : s.workers[i]? with
    | none =>
        simp [Threadpool.step, workerStep, hw] at hstep
    | some w =>
        rw [hw] at hne
        have hleft : w ≠ Worker.exited := fun heq => hne (by rw [heq])
        exact absurd (Or.inl ⟨w, List.mem_of_getElem? hw, hleft⟩)
          hstranded.right

/-- At the end all tasks have been executed exactly if none is queued. -/
theorem executed_iff_of_joined {s : Threadpool τ} (hconserved : Conserved s)
    (h : JoinInv s) (howner : s.owner = Owner.joined) :
    s.executed.Perm s.accepted <-> ¬ Stranded s := by
  have hexited := exited_of_joined h howner
  have hheld : s.heldTasks = [] := by
    apply List.flatMap_eq_nil_iff.mpr
    intro w hmem
    rw [hexited w hmem]
    rfl
  have hjoining : s.Joining := by
    unfold Joining
    rw [howner]
    trivial
  have hserved : s.Served <-> s.tasks = [] := by
    constructor
    · intro hserved
      rcases hserved with ⟨w, hmem, hleft⟩ | htasks
      · exact absurd (hexited w hmem) hleft
      · exact htasks
    · exact Or.inr
  unfold Conserved at hconserved
  rw [hheld, List.nil_append] at hconserved
  have hstranded : ¬ Stranded s <-> s.tasks = [] := by
    rw [<- hserved]
    constructor
    · intro hnot
      by_contra hunserved
      exact hnot ⟨hjoining, hunserved⟩
    · exact fun hserved hstranded => hstranded.right hserved
  rw [hstranded]
  constructor
  · intro hperm
    have hlen := (hperm.trans hconserved).length_eq
    rw [List.length_append] at hlen
    exact List.length_eq_zero_iff.mp (by omega)
  · intro htasks
    rw [htasks, List.append_nil] at hconserved
    exact hconserved.symm

/-!
# Runs
-/

/--
In every run no task is executed more often than it was accepted.  In a run in
which `t_shutdown` has joined all threads, and no thread was added meanwhile,
every accepted task has been executed exactly once if and only if a worker was
always left to serve a queue that was not empty.
-/
theorem executed_iff_keepsServed (num hardware : Nat) (acts : List (Action τ))
    (s : Threadpool τ)
    (hrun : StepFn.run step (start num hardware) acts = some s) :
    s.executed.Subperm s.accepted ∧
      (s.owner = Owner.joined ->
        StepFn.Meets step NoLateThread (start num hardware) acts ->
          (s.executed.Perm s.accepted <->
            StepFn.Meets step KeepsServed (start num hardware) acts)) := by
  have hconserved : Conserved s :=
    StepFn.run_invariant (fun _ _ _ h hstep => h.step hstep)
      (start_conserved num hardware) hrun
  constructor
  · exact (List.sublist_append_left _ _).subperm.trans
      hconserved.symm.subperm
  · intro howner hlate
    have hpres : forall (s : Threadpool τ) a s', JoinInv s -> NoLateThread s a ->
        step s a = some s' -> JoinInv s' :=
      fun _ _ _ h hlate hstep => h.step hlate hstep
    have hstart : JoinInv (start num hardware : Threadpool τ) := trivial
    have hjoin : JoinInv s :=
      StepFn.run_invariant_of_meets hpres hstart hlate hrun
    rw [executed_iff_of_joined hconserved hjoin howner]
    constructor
    · intro hnot
      exact StepFn.meets_of_not_absorbed_of_side hpres
        (fun _ _ _ _ _ hstep hguard => stranded_of_not_keepsServed hguard hstep)
        (fun _ _ _ h hbad hlate hstep => hbad.step h hlate hstep)
        hstart hlate hrun hnot
    · intro hmeets
      have hboth := hlate.and hmeets
      have hgood : forall (s : Threadpool τ) a s', JoinInv s ∧ Good s ->
          NoLateThread s a ∧ KeepsServed s a -> step s a = some s' ->
            JoinInv s' ∧ Good s' := by
        intro s a s' h hguard hstep
        exact ⟨h.left.step hguard.left hstep,
          h.right.step h.left hguard.left hguard.right hstep⟩
      have hend := StepFn.run_invariant_of_meets hgood
        ⟨hstart, fun hjoining => hjoining.elim⟩ hboth hrun
      exact fun hstranded => hstranded.right (hend.right hstranded.left)

/-- One worker runs the only task and returns when it finds the queue empty. -/
theorem executed_iff_keepsServed_oneTask :
    exists s : Threadpool Nat,
      StepFn.run step (start 1 3)
          (Action.owner :: Action.owner :: Action.addTask 7 ::
            List.replicate 4 (Action.worker 0) ++
            Action.tShutdown :: Action.owner :: Action.worker 0 ::
            List.replicate 3 Action.owner) = some s ∧
        s.executed = [7] ∧ s.executed.Subperm s.accepted ∧
        (s.executed.Perm s.accepted <->
          StepFn.Meets step KeepsServed (start 1 3)
          (Action.owner :: Action.owner :: Action.addTask 7 ::
            List.replicate 4 (Action.worker 0) ++
            Action.tShutdown :: Action.owner :: Action.worker 0 ::
            List.replicate 3 Action.owner)) := by
  have hlate : StepFn.Meets step NoLateThread (start 1 3)
      (Action.owner :: Action.owner :: Action.addTask 7 ::
        List.replicate 4 (Action.worker 0) ++
        Action.tShutdown :: Action.owner :: Action.worker 0 ::
        List.replicate 3 Action.owner) := by
    apply StepFn.meets_of_forall_mem
    intro a hmem s ha
    subst ha
    exact absurd hmem (by decide)
  refine ⟨_, rfl, rfl, ?_⟩
  have h := executed_iff_keepsServed 1 3
    (Action.owner :: Action.owner :: Action.addTask 7 ::
      List.replicate 4 (Action.worker 0) ++
      Action.tShutdown :: Action.owner :: Action.worker 0 ::
      List.replicate 3 Action.owner) _ rfl
  exact ⟨h.left, h.right rfl hlate⟩

/--
The manager lets one worker exit in each of three passes.  Each time the worker
is gone before the manager reads `exit_num` again, so that `live_num` stays 2
and the last worker, too, leaves the task behind.
-/
theorem surplusExits_lose_task :
    exists s : Threadpool Nat,
      StepFn.run step (start 1 3)
          (Action.owner :: Action.owner :: Action.addTask 7 ::
            List.replicate 12 Action.manager ++ Action.worker 0 ::
            List.replicate 12 Action.manager ++ Action.worker 1 ::
            List.replicate 12 Action.manager ++ Action.worker 2 ::
            List.replicate 2 Action.manager ++
            Action.tShutdown :: List.replicate 6 Action.owner) = some s ∧
        s.owner = Owner.joined ∧ s.accepted = [7] ∧ s.executed = [] ∧
        ¬ s.executed.Perm s.accepted := by
  refine ⟨_, rfl, rfl, rfl, rfl, ?_⟩
  intro hperm
  have hlost : ([] : List Nat).Perm [7] := hperm
  cases hlost.length_eq

end Threadpool

end MoonNet
