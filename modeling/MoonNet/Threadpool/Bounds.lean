import MoonNet.Threadpool.Shutdown

/-!
# The number of worker threads

The manager adds threads only up to `max_thr_num`, because the length of the
vector counts every thread that was ever started and `num` more.  Threads leave
through `exit_num`, and there remain at least `min_thr_num` of them as long as
`exit_num` is never set to more than the number of threads above this bound.
-/

namespace MoonNet

open Foundation

universe u

namespace Threadpool

variable {τ : Type u}

def Worker.returned : Worker τ -> Bool
  | Worker.exited => true
  | _ => false

/-- The threads that have been started and have not returned. -/
def alive (s : Threadpool τ) : Nat :=
  s.workers.countP fun w => !w.returned

def toStart (s : Threadpool τ) : Nat :=
  match s.owner with
  | Owner.init i => s.num - i
  | _ => 0

/-- `t_shutdown` has not been called. -/
def Open (s : Threadpool τ) : Prop :=
  match s.owner with
  | Owner.init _ | Owner.running => True
  | _ => False

/--
When the manager stores to `exit_num`, at least this many threads are alive
above `min_thr_num`; those that `init` is still to start count as alive.
-/
def ExitsSurplus (s : Threadpool τ) (a : Action τ) : Prop :=
  match s.manager with
  | Manager.storeExit value =>
      a = Action.manager -> 0 < wrap32 value ->
        s.num + wrap32 value <= (s.alive + s.toStart : Nat)
  | _ => True

instance [DecidableEq τ] (s : Threadpool τ) (a : Action τ) :
    Decidable (s.ExitsSurplus a) :=
  match hm : s.manager with
  | Manager.storeExit value =>
      decidable_of_iff
        (a = Action.manager -> 0 < wrap32 value ->
          s.num + wrap32 value <= (s.alive + s.toStart : Nat))
        (by simp [ExitsSurplus, hm])
  | Manager.testShutdown | Manager.readThreads | Manager.readTasks _
  | Manager.compareTasks _ _ | Manager.compareMax _ | Manager.addThreads _
  | Manager.readRun | Manager.compareRun _ | Manager.compareMin
  | Manager.compareTen | Manager.readSurplus | Manager.readExit
  | Manager.release _ | Manager.exited =>
      isTrue (by simp [ExitsSurplus, hm])

/-!
# Invariant
-/

structure SizeInv (s : Threadpool τ) : Prop where
  shutdown_eq : s.shutdown = false
  exit_lt : s.exitNum < 2 ^ 31
  init_le : forall i, s.owner = Owner.init i -> i <= s.num
  upper : (s.workers.length + s.toStart : Nat) <= s.maxThrNum
  lower : s.num <= s.alive + s.toStart
  surplus : 0 < s.exitNum -> s.num + s.exitNum <= (s.alive + s.toStart : Nat)
  size_le : forall size, s.manager.size? = some size ->
    s.workers.length + s.toStart <= size

theorem start_sizeInv {num hardware : Nat}
    (hmax : (num : Int) <= wrap32 (hardware + 1)) :
    SizeInv (start num hardware : Threadpool τ) where
  shutdown_eq := rfl
  exit_lt := by
    show (0 : Int) < 2 ^ 31
    decide
  init_le := by
    intro i hi
    cases hi
    exact Nat.zero_le num
  upper := by
    have hcount : (start num hardware : Threadpool τ).workers.length +
        (start num hardware : Threadpool τ).toStart = num :=
      Nat.zero_add num
    rw [hcount]
    simpa only [start] using hmax
  lower := by
    show num <= 0 + (num - 0)
    omega
  surplus := nofun
  size_le := nofun

/-!
# Counting threads
-/

theorem alive_addWorkers (s : Threadpool τ) (n : Nat) :
    (s.addWorkers n).alive = s.alive + n := by
  unfold alive addWorkers
  rw [List.countP_append, List.countP_replicate]
  rfl

theorem countP_setWorker {s : Threadpool τ} {i : Nat} {w : Worker τ}
    (hw : s.workers[i]? = some w) (w' : Worker τ) (kind : Worker τ -> Bool) :
    (s.setWorker i w').workers.countP kind + (if kind w then 1 else 0) =
      s.workers.countP kind + (if kind w' then 1 else 0) := by
  rcases List.getElem?_eq_some_iff.mp hw with ⟨hi, hget⟩
  have hperm : s.workers.Perm (w :: s.workers.eraseIdx i) := by
    rw [<- hget]
    exact (List.getElem_cons_eraseIdx_perm hi).symm
  have hset : (s.workers.set i w').Perm (w' :: s.workers.eraseIdx i) :=
    List.set_perm_cons_eraseIdx hi w'
  unfold setWorker
  rw [hperm.countP_eq, hset.countP_eq, List.countP_cons, List.countP_cons,
    Nat.add_right_comm]

theorem alive_setWorker {s : Threadpool τ} {i : Nat} {w w' : Worker τ}
    (hw : s.workers[i]? = some w) (hreturned : w.returned = false) :
    (s.setWorker i w').alive + (if w'.returned then 1 else 0) = s.alive := by
  have hcount := countP_setWorker hw w' fun w => !w.returned
  rw [hreturned] at hcount
  unfold alive
  cases hw' : w'.returned with
  | false =>
      rw [hw'] at hcount
      exact Nat.add_right_cancel hcount
  | true =>
      rw [hw'] at hcount
      exact hcount

/-!
# Steps
-/

namespace SizeInv

variable {s s' : Threadpool τ}

theorem frame (h : SizeInv s) (hnum : s'.num = s.num)
    (hmax : s'.maxThrNum = s.maxThrNum) (howner : s'.owner = s.owner)
    (hshutdown : s'.shutdown = s.shutdown) (hexit : s'.exitNum = s.exitNum)
    (hlength : s'.workers.length = s.workers.length)
    (halive : s'.alive = s.alive)
    (hsize : forall size, s'.manager.size? = some size ->
      s.workers.length + s.toStart <= size) : SizeInv s' := by
  have hstart : s'.toStart = s.toStart := by
    unfold toStart
    rw [howner, hnum]
  constructor
  case shutdown_eq =>
    exact hshutdown.trans h.shutdown_eq
  case exit_lt =>
    rw [hexit]
    exact h.exit_lt
  case init_le =>
    rw [howner, hnum]
    exact h.init_le
  case upper =>
    rw [hlength, hstart, hmax]
    exact h.upper
  case lower =>
    rw [hnum, halive, hstart]
    exact h.lower
  case surplus =>
    rw [hexit, hnum, halive, hstart]
    exact h.surplus
  case size_le =>
    rw [hlength, hstart]
    exact hsize

theorem start_step (h : SizeInv s) {i : Nat} (ho : s.owner = Owner.init i)
    (hlt : i < s.num) :
    SizeInv { s.addWorkers 1 with owner := Owner.init (i + 1) } := by
  have hstart : s.toStart = s.num - i := by
    unfold toStart
    rw [ho]
  have hupper := h.upper
  have hlower := h.lower
  have hsurplus := h.surplus
  have hsize := h.size_le
  rw [hstart] at hupper hlower hsurplus hsize
  have hnext : toStart { s.addWorkers 1 with owner := Owner.init (i + 1) }
      = s.num - (i + 1) := rfl
  have halive : alive { s.addWorkers 1 with owner := Owner.init (i + 1) }
      = s.alive + 1 := alive_addWorkers s 1
  have hlength : (s.addWorkers 1).workers.length = s.workers.length + 1 := by
    simp [addWorkers]
  constructor
  case shutdown_eq =>
    exact h.shutdown_eq
  case exit_lt =>
    exact h.exit_lt
  case init_le =>
    intro j hj
    cases hj
    exact hlt
  case upper =>
    rw [hnext]
    show ((s.addWorkers 1).workers.length + (s.num - (i + 1)) : Nat) <=
      s.maxThrNum
    rw [hlength]
    omega
  case lower =>
    rw [hnext, halive]
    show s.num <= _
    omega
  case surplus =>
    rw [hnext, halive]
    intro hpos
    have hleft := hsurplus hpos
    show (s.num : Int) + s.exitNum <= _
    omega
  case size_le =>
    intro size hm
    have hbound := hsize size hm
    rw [hnext]
    show (s.addWorkers 1).workers.length + (s.num - (i + 1)) <= size
    rw [hlength]
    omega

theorem owner_step (h : SizeInv s) (hopen : Open s')
    (hstep : s.ownerStep = some s') : SizeInv s' := by
  cases ownerStep_cases hstep with
  | starts i ho hlt => exact h.start_step ho hlt
  | inits i ho hge =>
      have hstart : s.toStart = 0 := by
        unfold toStart
        rw [ho]
        exact Nat.sub_eq_zero_of_le hge
      have hupper := h.upper
      have hlower := h.lower
      have hsurplus := h.surplus
      have hsize := h.size_le
      rw [hstart] at hupper hlower hsurplus hsize
      exact {
        shutdown_eq := h.shutdown_eq, exit_lt := h.exit_lt
        init_le := nofun, upper := hupper, lower := hlower
        surplus := hsurplus, size_le := hsize }
  | notifies ho => exact hopen.elim
  | joins i n ho hlt hjoins => exact hopen.elim
  | ends i n ho hge => exact hopen.elim

theorem setWorker_step (h : SizeInv s) {i : Nat} {w w' : Worker τ}
    (hw : s.workers[i]? = some w) (hreturned : w.returned = false)
    (hreturned' : w'.returned = false)
    (hnum : s'.num = s.num) (hmax : s'.maxThrNum = s.maxThrNum)
    (howner : s'.owner = s.owner) (hshutdown : s'.shutdown = s.shutdown)
    (hexit : s'.exitNum = s.exitNum) (hmanager : s'.manager = s.manager)
    (hworkers : s'.workers = (s.setWorker i w').workers) : SizeInv s' := by
  have halive : s'.alive = s.alive := by
    have hcount : (s.setWorker i w').alive +
        (if w'.returned then 1 else 0) = s.alive :=
      alive_setWorker hw hreturned
    rw [hreturned', if_neg Bool.false_ne_true] at hcount
    unfold alive
    rw [hworkers]
    exact hcount
  apply h.frame hnum hmax howner hshutdown hexit _ halive
  · intro size hm
    rw [hmanager] at hm
    exact h.size_le size hm
  · rw [hworkers]
    exact List.length_set

theorem exit_step (h : SizeInv s) {i : Nat} {w : Worker τ}
    (hw : s.workers[i]? = some w) (hreturned : w.returned = false)
    (hpos : 0 < s.exitNum) :
    SizeInv { s.setWorker i Worker.exited with
      exitNum := wrap32 (s.exitNum - 1) } := by
  have hpred := wrap32_pred hpos h.exit_lt
  have halive : (s.setWorker i Worker.exited).alive + 1 = s.alive :=
    alive_setWorker hw hreturned
  have hlower := h.lower
  have hsurplus := h.surplus hpos
  have hstart : toStart { s.setWorker i Worker.exited with
      exitNum := wrap32 (s.exitNum - 1) } = s.toStart := rfl
  have halive' : alive { s.setWorker i Worker.exited with
      exitNum := wrap32 (s.exitNum - 1) } =
        (s.setWorker i Worker.exited).alive := rfl
  have hlength : (s.setWorker i Worker.exited).workers.length =
      s.workers.length := List.length_set
  constructor
  case shutdown_eq =>
    exact h.shutdown_eq
  case exit_lt =>
    exact wrap32_lt _
  case init_le =>
    exact h.init_le
  case upper =>
    rw [hstart]
    show ((s.setWorker i Worker.exited).workers.length + s.toStart : Nat) <=
      s.maxThrNum
    rw [hlength]
    exact h.upper
  case lower =>
    rw [hstart, halive']
    show s.num <= _
    omega
  case surplus =>
    rw [hstart, halive']
    show 0 < wrap32 (s.exitNum - 1) ->
      (s.num : Int) + wrap32 (s.exitNum - 1) <= _
    rw [hpred]
    omega
  case size_le =>
    rw [hstart]
    show forall size, s.manager.size? = some size ->
      (s.setWorker i Worker.exited).workers.length + s.toStart <= size
    rw [hlength]
    exact h.size_le

theorem worker_step (h : SizeInv s) {i : Nat}
    (hstep : s.workerStep i = some s') : SizeInv s' := by
  cases workerStep_cases hstep with
  | leaves hw hpos => exact h.exit_step hw rfl hpos
  | returns hw hnone hset =>
      rw [h.shutdown_eq] at hset
      cases hset
  | takes t rest hw htasks =>
      exact h.setWorker_step hw rfl rfl rfl rfl rfl rfl rfl rfl rfl
  | countsRun t hw =>
      exact h.setWorker_step hw rfl rfl rfl rfl rfl rfl rfl rfl rfl
  | countsLive t hw =>
      exact h.setWorker_step hw rfl rfl rfl rfl rfl rfl rfl rfl rfl
  | finishes t hw =>
      exact h.setWorker_step hw rfl rfl rfl rfl rfl rfl rfl rfl rfl

theorem goto_step (h : SizeInv s) {m : Manager}
    (hsize : forall size, m.size? = some size ->
      s.workers.length + s.toStart <= size) : SizeInv (s.goto m) :=
  h.frame rfl rfl rfl rfl rfl rfl rfl hsize

theorem addThreads_step (h : SizeInv s) {size : Nat}
    (hm : s.manager = Manager.addThreads size) :
    SizeInv { s.addWorkers (s.addCount size) with
      liveNum := wrap32 (s.liveNum + s.addCount size)
      manager := Manager.readRun } := by
  have hsize : s.workers.length + s.toStart <= size := by
    apply h.size_le
    rw [hm]
    rfl
  have hupper := h.upper
  have hlower := h.lower
  have hadd : (s.addCount size : Int) <= s.maxThrNum - size ∨
      s.addCount size = 0 := by
    unfold addCount
    omega
  have hlength : (s.addWorkers (s.addCount size)).workers.length =
      s.workers.length + s.addCount size := by
    simp [addWorkers]
  have halive : (s.addWorkers (s.addCount size)).alive =
      s.alive + s.addCount size :=
    alive_addWorkers s _
  constructor
  case shutdown_eq =>
    exact h.shutdown_eq
  case exit_lt =>
    exact h.exit_lt
  case init_le =>
    exact h.init_le
  case upper =>
    show ((s.addWorkers (s.addCount size)).workers.length + s.toStart : Nat)
      <= s.maxThrNum
    rw [hlength]
    omega
  case lower =>
    show s.num <= (s.addWorkers (s.addCount size)).alive + s.toStart
    rw [halive]
    omega
  case surplus =>
    intro hpos
    have hsurplus := h.surplus hpos
    show (s.num : Int) + s.exitNum <=
      ((s.addWorkers (s.addCount size)).alive + s.toStart : Nat)
    rw [halive]
    omega
  case size_le =>
    nofun

theorem manager_step (h : SizeInv s)
    (hguard : s.ExitsSurplus Action.manager)
    (hstep : s.managerStep = some s') : SizeInv s' := by
  cases managerStep_cases hstep with
  | goes m hadd hold hnew hsize =>
      apply h.goto_step
      intro size hm
      rcases hsize size hm with hread | hlength
      · exact h.size_le size hread
      · have hstart : s.toStart <= s.num := by
          unfold toStart
          split <;> omega
        rw [hlength]
        unfold threadsSize
        omega
  | reads hm => exact h.goto_step nofun
  | adds size hm => exact h.addThreads_step hm
  | stores value hm =>
      unfold ExitsSurplus at hguard
      rw [hm] at hguard
      exact {
        shutdown_eq := h.shutdown_eq, exit_lt := wrap32_lt value
        init_le := h.init_le, upper := h.upper, lower := h.lower
        surplus := hguard rfl, size_le := nofun }
  | releases x hm => exact h.frame rfl rfl rfl rfl rfl rfl rfl nofun

theorem step (h : SizeInv s) {a : Action τ} (hopen : Open s')
    (hguard : s.ExitsSurplus a) (hstep : s.step a = some s') :
    SizeInv s' := by
  cases a with
  | owner => exact h.owner_step hopen hstep
  | tShutdown =>
      rw [(tShutdown_eq hstep).right] at hopen
      exact hopen.elim
  | addTask t =>
      cases (addTask_cases hstep).right with
      | refused hset => exact h
      | queued hset => exact h.frame rfl rfl rfl rfl rfl rfl rfl h.size_le
  | manager => exact h.manager_step hguard hstep
  | worker i => exact h.worker_step hstep

end SizeInv

/-!
# Runs
-/

theorem open_of_step {s s' : Threadpool τ} {a : Action τ}
    (hstep : s.step a = some s') (hopen : Open s') : Open s := by
  have hsame : s'.owner = s.owner -> Open s := by
    intro howner
    unfold Open at hopen ⊢
    rw [howner] at hopen
    exact hopen
  cases a with
  | owner =>
      unfold Open
      cases ownerStep_cases hstep with
      | starts i ho hlt =>
          rw [ho]
          trivial
      | inits i ho hge =>
          rw [ho]
          trivial
      | notifies ho => exact hopen.elim
      | joins i n ho hlt hjoins => exact hopen.elim
      | ends i n ho hge => exact hopen.elim
  | tShutdown =>
      rw [(tShutdown_eq hstep).right] at hopen
      exact hopen.elim
  | addTask t =>
      cases (addTask_cases hstep).right with
      | refused hset => exact hopen
      | queued hset => exact hsame rfl
  | manager => exact hsame (managerStep_frame hstep).owner
  | worker i => exact hsame (workerStep_frame hstep).right.left

/-- After `init` and before `t_shutdown` the bounds hold. -/
def Bounded (s : Threadpool τ) : Prop :=
  s.owner = Owner.running ->
    s.minThrNum <= s.alive ∧ (s.alive : Int) <= s.maxThrNum

theorem SizeInv.bounded {s : Threadpool τ} (h : SizeInv s) : Bounded s := by
  intro howner
  have hstart : s.toStart = 0 := by
    unfold toStart
    rw [howner]
  have hlower := h.lower
  have hupper := h.upper
  have halive : s.alive <= s.workers.length := List.countP_le_length
  rw [hstart] at hlower hupper
  unfold minThrNum
  omega

/--
In every run of the pool in which `exit_num` is never set to more than the
threads alive above `min_thr_num`, the number of threads stays between
`min_thr_num` and `max_thr_num`.
-/
theorem bounded_of_exitsSurplus (num hardware : Nat)
    (hmax : (num : Int) <= wrap32 (hardware + 1)) (acts : List (Action τ))
    (s : Threadpool τ)
    (hsurplus : StepFn.Meets step ExitsSurplus (start num hardware) acts)
    (hrun : StepFn.run step (start num hardware) acts = some s) :
    Bounded s := by
  have hpres : forall (s : Threadpool τ) a s', (Open s -> SizeInv s) ->
      s.ExitsSurplus a -> step s a = some s' -> Open s' -> SizeInv s' := by
    intro s a s' h hguard hstep hopen
    exact (h (open_of_step hstep hopen)).step hopen hguard hstep
  have hinv : Open s -> SizeInv s :=
    StepFn.run_invariant_of_meets hpres
      (fun _ => start_sizeInv hmax) hsurplus hrun
  intro howner
  have hopen : Open s := by
    unfold Open
    rw [howner]
    trivial
  exact (hinv hopen).bounded howner

/--
A pool of one thread gets nine more, and eight of them leave.  The manager has
read `exit_num` before they do, and so lets no other one leave.
-/
def oneRound : List (Action Nat) :=
  Action.owner :: Action.owner :: Action.addTask 7 ::
    List.replicate 13 Action.manager ++
      (List.range 8).map Action.worker ++ List.replicate 7 Action.manager

theorem bounded_of_exitsSurplus_oneRound :
    exists s : Threadpool Nat,
      StepFn.run step (start 1 10) oneRound = some s ∧
        s.owner = Owner.running ∧ s.alive = 2 ∧ Bounded s := by
  have hreached : exists s : Threadpool Nat,
      StepFn.run step (start 1 10) oneRound = some s ∧
        s.owner = Owner.running ∧ s.alive = 2 :=
    ⟨_, rfl, rfl, rfl⟩
  have hmax : ((1 : Nat) : Int) <= wrap32 ((10 : Nat) + 1) := by
    decide
  have hsurplus : StepFn.Meets step ExitsSurplus
      (start 1 10 : Threadpool Nat) oneRound := by
    decide
  rcases hreached with ⟨s, hrun, howner, halive⟩
  exact ⟨s, hrun, howner, halive,
    bounded_of_exitsSurplus 1 10 hmax oneRound s hsurplus hrun⟩

/--
Eight threads leave before the manager reads `exit_num` again and finds 0, so
that `live_num` does not count them as gone; in the next pass the manager lets
eight more leave, and the two that are left do.
-/
theorem bounded_fails_exitsTwice :
    exists s : Threadpool Nat,
      StepFn.run step (start 1 10)
          (Action.owner :: Action.owner :: Action.addTask 7 ::
            List.replicate 12 Action.manager ++
            (List.range 8).map Action.worker ++
            List.replicate 12 Action.manager ++
            [Action.worker 8, Action.worker 9]) = some s ∧
        s.owner = Owner.running ∧ s.alive = 0 ∧ s.minThrNum = 1 ∧
        ¬ Bounded s := by
  refine ⟨_, rfl, rfl, rfl, rfl, ?_⟩
  intro h
  exact absurd (h rfl).left (by decide)

end Threadpool

end MoonNet
