import MoonNet.Threadpool.Bounds

/-!
# What the counters mean

`run_num` is meant to be the number of threads that execute a task and
`live_num` that of the idle ones.  `run_num` only ever grows, and `live_num` is
set to 0 by `init` and never raised when a task is done, so that they are what
they are meant to be as long as `init` starts no thread and no task returns.
When the manager asks threads to leave, it also has to wait until they have
done so.
-/

namespace MoonNet

open Foundation

universe u

namespace Threadpool

variable {τ : Type u}

def Worker.executing : Worker τ -> Bool
  | Worker.runs _ => true
  | _ => false

def Worker.idle : Worker τ -> Bool
  | Worker.waiting => true
  | _ => false

def Worker.updates : Worker τ -> Bool
  | Worker.popped _ | Worker.counted _ => true
  | _ => false

def Manager.updates : Manager -> Bool
  | Manager.readExit | Manager.release _ => true
  | _ => false

/-- After `init` and before `t_shutdown`, with no counter update under way. -/
def Quiescent (s : Threadpool τ) : Prop :=
  s.owner = Owner.running ∧ s.manager.updates = false ∧
    forall w, w ∈ s.workers -> w.updates = false

/-- The counters are the numbers of workers that they are named after. -/
def CountsWorkers (s : Threadpool τ) : Prop :=
  s.runNum = s.workers.countP Worker.executing ∧
    s.liveNum = s.workers.countP Worker.idle ∧
    0 <= s.runNum ∧ s.runNum <= s.alive ∧ 0 <= s.liveNum ∧ s.liveNum <= s.alive

/-!
# Conditions
-/

def initReturns (s : Threadpool τ) : Bool :=
  match s.owner with
  | Owner.init i => s.num <= i
  | _ => false

def finishes (s : Threadpool τ) (i : Nat) : Bool :=
  match s.workers[i]? with
  | some (Worker.runs _) => true
  | _ => false

def leaves (s : Threadpool τ) (i : Nat) : Bool :=
  match s.workers[i]? with
  | some Worker.waiting => 0 < s.exitNum
  | _ => false

def Manager.releases : Manager -> Bool
  | Manager.release _ => true
  | _ => false

/--
`init` returns only in a pool without threads, no task ends, threads leave only
after the manager has read `exit_num` again, and the manager lowers `live_num`
only when all of them have left.
-/
def KeepsCount (s : Threadpool τ) : Action τ -> Prop
  | Action.owner => s.initReturns = true -> s.num = 0
  | Action.worker i =>
      s.finishes i = false ∧ (s.leaves i = true -> s.manager.releases = true)
  | Action.manager => s.manager.releases = true -> s.exitNum <= 0
  | _ => True

instance (s : Threadpool τ) : (a : Action τ) -> Decidable (s.KeepsCount a)
  | Action.owner =>
      inferInstanceAs (Decidable (s.initReturns = true -> s.num = 0))
  | Action.worker i =>
      inferInstanceAs (Decidable (s.finishes i = false ∧
        (s.leaves i = true -> s.manager.releases = true)))
  | Action.manager =>
      inferInstanceAs (Decidable (s.manager.releases = true -> s.exitNum <= 0))
  | Action.tShutdown | Action.addTask _ => inferInstanceAs (Decidable True)

/-!
# Invariant
-/

def Worker.tallied : Worker τ -> Bool
  | Worker.counted _ | Worker.runs _ => true
  | _ => false

def Worker.spare : Worker τ -> Bool
  | Worker.waiting | Worker.popped _ | Worker.counted _ => true
  | _ => false

def debt (s : Threadpool τ) : Int :=
  match s.manager with
  | Manager.release x => x.toNat - s.exitNum.toNat
  | _ => 0

/-- A pool that `init` starts without threads. -/
structure CountInv (s : Threadpool τ) : Prop where
  shutdown_eq : s.shutdown = false
  max_lt : s.maxThrNum < 2 ^ 31
  exit_lt : s.exitNum < 2 ^ 31
  length_lt : (s.workers.length : Int) < 2 ^ 31
  size_le : forall size, s.manager.size? = some size ->
    s.workers.length <= size
  exit_le : forall x, s.manager = Manager.release x -> s.exitNum <= x
  run_eq : s.runNum = s.workers.countP Worker.tallied
  live_eq : s.liveNum = s.workers.countP Worker.spare + s.debt
  debt_le : s.debt <= s.workers.countP Worker.returned

theorem start_countInv (hardware : Nat) :
    CountInv (start 0 hardware : Threadpool τ) where
  shutdown_eq := rfl
  max_lt := by
    simp only [start]
    exact wrap32_lt _
  exit_lt := by
    show (0 : Int) < 2 ^ 31
    decide
  length_lt := by
    show ((0 : Nat) : Int) < 2 ^ 31
    decide
  size_le := nofun
  exit_le := nofun
  run_eq := rfl
  live_eq := rfl
  debt_le := Int.le_refl 0

theorem countP_add_le {p q : Worker τ -> Bool}
    (hexclude : forall w, p w = true -> q w = false)
    (workers : List (Worker τ)) :
    workers.countP p + workers.countP q <= workers.length := by
  have hle : workers.countP q <= workers.countP fun w => !p w := by
    apply List.countP_mono_left
    intro w _ hq
    cases hp : p w with
    | false => rfl
    | true =>
        rw [hexclude w hp] at hq
        cases hq
  rw [workers.length_eq_countP_add_countP p]
  simpa using hle

/-!
# Steps
-/

namespace CountInv

variable {s s' : Threadpool τ}

theorem debt_nonneg (h : CountInv s) : 0 <= s.debt := by
  have hexit := h.exit_le
  unfold debt
  split
  · rename_i x hm
    have hle := hexit x hm
    omega
  · exact Int.le_refl 0

theorem live_lt (h : CountInv s) : s.liveNum < 2 ^ 31 := by
  have hexclude : forall w : Worker τ, w.spare = true -> w.returned = false := by
    intro w hw
    cases w with
    | exited => cases hw
    | _ => rfl
  have hcount := countP_add_le hexclude s.workers
  have hlive := h.live_eq
  have hdebt := h.debt_le
  have hlength := h.length_lt
  omega

theorem frame (h : CountInv s) (hworkers : s'.workers = s.workers)
    (hmax : s'.maxThrNum = s.maxThrNum) (hshutdown : s'.shutdown = s.shutdown)
    (hrun : s'.runNum = s.runNum) (hlive : s'.liveNum = s.liveNum)
    (hexit : s'.exitNum = s.exitNum) (hmanager : s'.manager = s.manager) :
    CountInv s' := by
  have hdebt : s'.debt = s.debt := by
    unfold debt
    rw [hmanager, hexit]
  exact {
    shutdown_eq := hshutdown.trans h.shutdown_eq
    max_lt := by rw [hmax]; exact h.max_lt
    exit_lt := by rw [hexit]; exact h.exit_lt
    length_lt := by rw [hworkers]; exact h.length_lt
    size_le := by rw [hmanager, hworkers]; exact h.size_le
    exit_le := by rw [hmanager, hexit]; exact h.exit_le
    run_eq := by rw [hrun, hworkers]; exact h.run_eq
    live_eq := by rw [hlive, hworkers, hdebt]; exact h.live_eq
    debt_le := by rw [hdebt, hworkers]; exact h.debt_le }

theorem owner_step (h : CountInv s) (hnum : s.num = 0) (hopen : Open s')
    (hstep : s.ownerStep = some s') : CountInv s' := by
  cases ownerStep_cases hstep with
  | starts i ho hlt =>
      rw [hnum] at hlt
      exact absurd hlt (Nat.not_lt_zero i)
  | inits i ho hge => exact h.frame rfl rfl rfl rfl rfl rfl rfl
  | notifies ho => exact hopen.elim
  | joins i n ho hlt hjoins => exact hopen.elim
  | ends i n ho hge => exact hopen.elim

theorem setWorker_step (h : CountInv s) {i : Nat} {w : Worker τ}
    (hw : s.workers[i]? = some w) (w' : Worker τ)
    (hreturned : w'.returned = w.returned)
    (hworkers : s'.workers = (s.setWorker i w').workers)
    (hmax : s'.maxThrNum = s.maxThrNum) (hshutdown : s'.shutdown = s.shutdown)
    (hexit : s'.exitNum = s.exitNum) (hmanager : s'.manager = s.manager)
    (hrun : s'.runNum + (if w.tallied then 1 else 0 : Nat) =
      s.runNum + (if w'.tallied then 1 else 0 : Nat))
    (hlive : s'.liveNum + (if w.spare then 1 else 0 : Nat) =
      s.liveNum + (if w'.spare then 1 else 0 : Nat)) : CountInv s' := by
  have hdebt : s'.debt = s.debt := by
    unfold debt
    rw [hmanager, hexit]
  have hlength : s'.workers.length = s.workers.length := by
    rw [hworkers]
    exact List.length_set
  have hcount := countP_setWorker hw w'
  have hreturns := hcount Worker.returned
  rw [hreturned] at hreturns
  constructor
  case shutdown_eq =>
    exact hshutdown.trans h.shutdown_eq
  case max_lt =>
    rw [hmax]
    exact h.max_lt
  case exit_lt =>
    rw [hexit]
    exact h.exit_lt
  case length_lt =>
    rw [hlength]
    exact h.length_lt
  case size_le =>
    rw [hmanager, hlength]
    exact h.size_le
  case exit_le =>
    rw [hmanager, hexit]
    exact h.exit_le
  case run_eq =>
    have hold := h.run_eq
    have htallied := hcount Worker.tallied
    rw [hworkers]
    omega
  case live_eq =>
    have hold := h.live_eq
    have hspare := hcount Worker.spare
    rw [hworkers, hdebt]
    omega
  case debt_le =>
    rw [hdebt, hworkers, Nat.add_right_cancel hreturns]
    exact h.debt_le

theorem leave_step (h : CountInv s) {i : Nat} {x : Int}
    (hw : s.workers[i]? = some Worker.waiting) (hpos : 0 < s.exitNum)
    (hm : s.manager = Manager.release x) :
    CountInv { s.setWorker i Worker.exited with
      exitNum := wrap32 (s.exitNum - 1) } := by
  have hcount := countP_setWorker hw Worker.exited
  have hpred := wrap32_pred hpos h.exit_lt
  have hlength : (s.setWorker i Worker.exited).workers.length =
      s.workers.length := List.length_set
  have hdebt : s.debt = x.toNat - s.exitNum.toNat := by
    unfold debt
    rw [hm]
  have hdebt' : debt { s.setWorker i Worker.exited with
      exitNum := wrap32 (s.exitNum - 1) } =
        x.toNat - (s.exitNum - 1).toNat := by
    unfold debt
    show (match s.manager with
      | Manager.release x => (x.toNat - (wrap32 (s.exitNum - 1)).toNat : Int)
      | _ => 0) = _
    rw [hm, hpred]
  constructor
  case shutdown_eq =>
    exact h.shutdown_eq
  case max_lt =>
    exact h.max_lt
  case exit_lt =>
    exact wrap32_lt _
  case length_lt =>
    show ((s.setWorker i Worker.exited).workers.length : Int) < 2 ^ 31
    rw [hlength]
    exact h.length_lt
  case size_le =>
    show forall size, s.manager.size? = some size ->
      (s.setWorker i Worker.exited).workers.length <= size
    rw [hlength]
    exact h.size_le
  case exit_le =>
    intro y hy
    have hle := h.exit_le y hy
    show wrap32 (s.exitNum - 1) <= y
    rw [hpred]
    omega
  case run_eq =>
    exact h.run_eq.trans (congrArg Nat.cast (hcount Worker.tallied).symm)
  case live_eq =>
    have hlive := h.live_eq
    have hspare : (s.setWorker i Worker.exited).workers.countP Worker.spare + 1
        = s.workers.countP Worker.spare := hcount Worker.spare
    rw [hdebt']
    show s.liveNum =
      (s.setWorker i Worker.exited).workers.countP Worker.spare + _
    omega
  case debt_le =>
    have hle := h.debt_le
    have hreturns :
        (s.setWorker i Worker.exited).workers.countP Worker.returned =
          s.workers.countP Worker.returned + 1 := hcount Worker.returned
    rw [hdebt']
    show _ <=
      ((s.setWorker i Worker.exited).workers.countP Worker.returned : Int)
    omega

theorem worker_step (h : CountInv s) {i : Nat}
    (hguard : s.KeepsCount (Action.worker i))
    (hstep : s.workerStep i = some s') : CountInv s' := by
  rcases hguard with ⟨hfinishes, hleaves⟩
  have hlength := h.length_lt
  have hrun := h.run_eq
  have hlive := h.live_eq
  cases workerStep_cases hstep with
  | leaves hw hpos =>
      unfold leaves at hleaves
      rw [hw] at hleaves
      have hreleases := hleaves (decide_eq_true hpos)
      cases hm : s.manager with
      | release x => exact h.leave_step hw hpos hm
      | _ =>
          rw [hm] at hreleases
          cases hreleases
  | returns hw hnone hset =>
      rw [h.shutdown_eq] at hset
      cases hset
  | takes t rest hw htasks =>
      exact h.setWorker_step hw (Worker.popped t) rfl rfl rfl rfl rfl rfl rfl
        rfl
  | countsRun t hw =>
      have htallied :
          (s.setWorker i (Worker.counted t)).workers.countP Worker.tallied =
            s.workers.countP Worker.tallied + 1 :=
        countP_setWorker hw (Worker.counted t) Worker.tallied
      have hle : (s.setWorker i (Worker.counted t)).workers.countP
          Worker.tallied <= s.workers.length :=
        Nat.le_trans List.countP_le_length (Nat.le_of_eq List.length_set)
      have hsucc : wrap32 (s.runNum + 1) = s.runNum + 1 := by
        apply wrap32_eq
        · omega
        · omega
      refine h.setWorker_step hw (Worker.counted t) rfl rfl rfl rfl rfl rfl
        ?_ rfl
      show wrap32 (s.runNum + 1) + 0 = s.runNum + 1
      omega
  | countsLive t hw =>
      have hspare :
          (s.setWorker i (Worker.runs t)).workers.countP Worker.spare + 1 =
            s.workers.countP Worker.spare :=
        countP_setWorker hw (Worker.runs t) Worker.spare
      have hdebt := h.debt_nonneg
      have hpred : wrap32 (s.liveNum - 1) = s.liveNum - 1 :=
        wrap32_pred (by omega) h.live_lt
      refine h.setWorker_step hw (Worker.runs t) rfl rfl rfl rfl rfl rfl rfl ?_
      show wrap32 (s.liveNum - 1) + 1 = s.liveNum + 0
      omega
  | finishes t hw =>
      unfold finishes at hfinishes
      rw [hw] at hfinishes
      cases hfinishes

theorem debt_eq_zero {s : Threadpool τ}
    (hm : forall x, s.manager ≠ Manager.release x) : s.debt = 0 := by
  unfold debt
  split
  · rename_i x hrelease
    exact absurd hrelease (hm x)
  · rfl

theorem goto_step (h : CountInv s)
    (hold : forall x, s.manager ≠ Manager.release x) {m : Manager}
    (hnew : forall x, m ≠ Manager.release x)
    (hsize : forall size, m.size? = some size -> s.workers.length <= size) :
    CountInv (s.goto m) := by
  have hdebt : (s.goto m).debt = s.debt :=
    (debt_eq_zero (s := s.goto m) hnew).trans (debt_eq_zero hold).symm
  exact {
    shutdown_eq := h.shutdown_eq, max_lt := h.max_lt, exit_lt := h.exit_lt
    length_lt := h.length_lt, size_le := hsize, run_eq := h.run_eq
    exit_le := fun x hx => absurd hx (hnew x)
    live_eq := by rw [hdebt]; exact h.live_eq
    debt_le := by rw [hdebt]; exact h.debt_le }

theorem readExit_step (h : CountInv s) (hm : s.manager = Manager.readExit) :
    CountInv (s.goto (Manager.release s.exitNum)) := by
  have hdebt : s.debt = 0 := debt_eq_zero (hm ▸ nofun)
  have hdebt' : (s.goto (Manager.release s.exitNum)).debt = s.debt :=
    Eq.trans (Int.sub_self _) hdebt.symm
  exact {
    shutdown_eq := h.shutdown_eq, max_lt := h.max_lt, exit_lt := h.exit_lt
    length_lt := h.length_lt, size_le := nofun, run_eq := h.run_eq
    exit_le := by
      intro x hx
      cases hx
      exact Int.le_refl _
    live_eq := by rw [hdebt']; exact h.live_eq
    debt_le := by rw [hdebt']; exact h.debt_le }

theorem addThreads_step (h : CountInv s) {size : Nat}
    (hm : s.manager = Manager.addThreads size) :
    CountInv { s.addWorkers (s.addCount size) with
      liveNum := wrap32 (s.liveNum + s.addCount size)
      manager := Manager.readRun } := by
  have hsize : s.workers.length <= size := h.size_le size (by rw [hm]; rfl)
  have hmax := h.max_lt
  have hlength := h.length_lt
  have hdebt : s.debt = 0 := by
    apply debt_eq_zero
    rw [hm]
    rintro x ⟨⟩
  have hlive := h.live_eq
  have hadded : (s.addWorkers (s.addCount size)).workers.length =
      s.workers.length + s.addCount size := by
    simp [addWorkers]
  have hfits : (s.workers.length + s.addCount size : Int) < 2 ^ 31 := by
    unfold addCount
    omega
  have hcount : forall kind : Worker τ -> Bool,
      (s.addWorkers (s.addCount size)).workers.countP kind =
        s.workers.countP kind +
          if kind Worker.waiting then s.addCount size else 0 := by
    intro kind
    unfold addWorkers
    rw [List.countP_append, List.countP_replicate]
  have hspare : s.workers.countP Worker.spare <= s.workers.length :=
    List.countP_le_length
  have hwrap : wrap32 (s.liveNum + s.addCount size) =
      s.liveNum + s.addCount size := by
    apply wrap32_eq
    · omega
    · omega
  constructor
  case shutdown_eq =>
    exact h.shutdown_eq
  case max_lt =>
    exact hmax
  case exit_lt =>
    exact h.exit_lt
  case length_lt =>
    show ((s.addWorkers (s.addCount size)).workers.length : Int) < 2 ^ 31
    rw [hadded]
    exact hfits
  case size_le =>
    rintro size' ⟨⟩
  case exit_le =>
    rintro x ⟨⟩
  case run_eq =>
    exact h.run_eq.trans (congrArg Nat.cast (hcount Worker.tallied).symm)
  case live_eq =>
    have hmore : (s.addWorkers (s.addCount size)).workers.countP Worker.spare =
        s.workers.countP Worker.spare + s.addCount size := hcount Worker.spare
    show wrap32 (s.liveNum + s.addCount size) =
      (s.addWorkers (s.addCount size)).workers.countP Worker.spare + 0
    omega
  case debt_le =>
    exact Int.natCast_nonneg _

theorem release_step (h : CountInv s) {x : Int}
    (hm : s.manager = Manager.release x) (hexit : s.exitNum <= 0) :
    CountInv { s with
      liveNum := wrap32 (s.liveNum - x.toNat)
      manager := Manager.testShutdown } := by
  have hlive := h.live_eq
  have hdebt : s.debt = x.toNat - s.exitNum.toNat := by
    unfold debt
    rw [hm]
  have hspare : s.workers.countP Worker.spare <= s.workers.length :=
    List.countP_le_length
  have hlength := h.length_lt
  have hwrap : wrap32 (s.liveNum - x.toNat) = s.liveNum - x.toNat := by
    apply wrap32_eq
    · omega
    · omega
  exact {
    shutdown_eq := h.shutdown_eq, max_lt := h.max_lt, exit_lt := h.exit_lt
    length_lt := hlength, size_le := nofun, exit_le := nofun
    run_eq := h.run_eq
    live_eq := by
      show wrap32 (s.liveNum - x.toNat) = s.workers.countP Worker.spare + 0
      omega
    debt_le := Int.natCast_nonneg _ }

theorem manager_step (h : CountInv s) (hguard : s.KeepsCount Action.manager)
    (hstep : s.managerStep = some s') : CountInv s' := by
  cases managerStep_cases hstep with
  | goes m hadd hold hnew hsize =>
      apply h.goto_step hold hnew
      intro size hm
      rcases hsize size hm with hread | hlength
      · exact h.size_le size hread
      · rw [hlength]
        exact Nat.le_add_left _ _
  | reads hm => exact h.readExit_step hm
  | adds size hm => exact h.addThreads_step hm
  | stores value hm =>
      have hdebt : s.debt = 0 := debt_eq_zero (hm ▸ nofun)
      have hlive := h.live_eq
      rw [hdebt] at hlive
      exact {
        shutdown_eq := h.shutdown_eq, max_lt := h.max_lt
        exit_lt := wrap32_lt value, length_lt := h.length_lt
        size_le := nofun, exit_le := nofun, run_eq := h.run_eq
        live_eq := hlive, debt_le := Int.natCast_nonneg _ }
  | releases x hm => exact h.release_step hm (hguard (by rw [hm]; rfl))

theorem step (h : CountInv s) (hnum : s.num = 0) {a : Action τ}
    (hguard : s.KeepsCount a) (hstep : s.step a = some s') (hopen : Open s') :
    CountInv s' := by
  cases a with
  | owner => exact h.owner_step hnum hopen hstep
  | tShutdown =>
      rw [(tShutdown_eq hstep).right] at hopen
      exact hopen.elim
  | addTask t =>
      cases (addTask_cases hstep).right with
      | refused hset => exact h
      | queued hset => exact h.frame rfl rfl rfl rfl rfl rfl rfl
  | manager => exact h.manager_step hguard hstep
  | worker i => exact h.worker_step hguard hstep

theorem countsWorkers (h : CountInv s) (hquiescent : s.Quiescent) :
    s.CountsWorkers := by
  rcases hquiescent with ⟨_, hmanager, hworkers⟩
  have hdebt : s.debt = 0 := by
    apply debt_eq_zero
    intro x hm
    rw [hm] at hmanager
    cases hmanager
  have hrun : s.workers.countP Worker.tallied =
      s.workers.countP Worker.executing := by
    apply List.countP_congr
    intro w hw
    have hupdates := hworkers w hw
    cases w with
    | counted t => cases hupdates
    | _ => rfl
  have hidle : s.workers.countP Worker.spare =
      s.workers.countP Worker.idle := by
    apply List.countP_congr
    intro w hw
    have hupdates := hworkers w hw
    cases w with
    | popped t => cases hupdates
    | counted t => cases hupdates
    | _ => rfl
  have halive : forall kind : Worker τ -> Bool,
      (forall w, kind w = true -> w.returned = false) ->
        s.workers.countP kind <= s.alive := by
    intro kind hkind
    apply List.countP_mono_left
    intro w _ hw
    rw [hkind w hw]
    rfl
  have hexecuting := halive Worker.executing (by
    intro w hw
    cases w with
    | exited => cases hw
    | _ => rfl)
  have hwaiting := halive Worker.idle (by
    intro w hw
    cases w with
    | exited => cases hw
    | _ => rfl)
  have hruns : s.runNum = s.workers.countP Worker.executing := by
    rw [h.run_eq, hrun]
  have hlives : s.liveNum = s.workers.countP Worker.idle := by
    rw [h.live_eq, hidle, hdebt, Int.add_zero]
  refine ⟨hruns, hlives, ?_⟩
  rw [hruns, hlives]
  exact ⟨Int.natCast_nonneg _, Int.ofNat_le.mpr hexecuting,
    Int.natCast_nonneg _, Int.ofNat_le.mpr hwaiting⟩

end CountInv

/-!
# Runs
-/

theorem step_num {s s' : Threadpool τ} {a : Action τ}
    (hstep : s.step a = some s') : s'.num = s.num := by
  cases a with
  | owner => cases ownerStep_cases hstep <;> rfl
  | tShutdown => rw [(tShutdown_eq hstep).right]
  | addTask t => cases (addTask_cases hstep).right <;> rfl
  | manager => exact (managerStep_frame hstep).num
  | worker i => exact (workerStep_frame hstep).left

theorem init_of_keepsCount {s s' : Threadpool τ} {a : Action τ} {i : Nat}
    (hnum : s.num ≠ 0) (ho : s.owner = Owner.init i)
    (hguard : s.KeepsCount a) (hstep : s.step a = some s') :
    exists j, s'.owner = Owner.init j := by
  cases a with
  | owner =>
      cases ownerStep_cases hstep with
      | starts j hj hlt => exact ⟨j + 1, rfl⟩
      | inits j hj hge =>
          have hreturns : s.initReturns = true := by
            unfold initReturns
            rw [hj]
            exact decide_eq_true hge
          exact absurd (hguard hreturns) hnum
      | notifies hj => exact nomatch ho.symm.trans hj
      | joins j n hj hlt hjoins => exact nomatch ho.symm.trans hj
      | ends j n hj hge => exact nomatch ho.symm.trans hj
  | tShutdown => exact nomatch ho.symm.trans (tShutdown_eq hstep).left
  | addTask t => exact absurd ho ((addTask_cases hstep).left i)
  | manager => exact ⟨i, (managerStep_frame hstep).owner.trans ho⟩
  | worker j => exact ⟨i, (workerStep_frame hstep).right.left.trans ho⟩

def Counted (s : Threadpool τ) : Prop :=
  Open s -> (s.num = 0 ∧ s.CountInv) ∨
    (s.num ≠ 0 ∧ exists i, s.owner = Owner.init i)

/--
In every run in which `init` starts no thread, no task ends, and the manager
waits for the threads that it asks to leave, the counters are what they are
meant to be whenever no update of them is under way.
-/
theorem countsWorkers_of_keepsCount (num hardware : Nat)
    (acts : List (Action τ)) (s : Threadpool τ)
    (hkeeps : StepFn.Meets step KeepsCount (start num hardware) acts)
    (hrun : StepFn.run step (start num hardware) acts = some s)
    (hquiescent : s.Quiescent) : s.CountsWorkers := by
  have hpres : forall (s : Threadpool τ) a s', Counted s -> s.KeepsCount a ->
      step s a = some s' -> Counted s' := by
    intro s a s' h hguard hstep hopen
    have hnum := step_num hstep
    rcases h (open_of_step hstep hopen) with ⟨hzero, hinv⟩ | ⟨hpos, i, ho⟩
    · exact Or.inl ⟨hnum.trans hzero, hinv.step hzero hguard hstep hopen⟩
    · exact Or.inr ⟨fun hzero => hpos (hnum.symm.trans hzero),
        init_of_keepsCount hpos ho hguard hstep⟩
  have hstart : Counted (start num hardware : Threadpool τ) := by
    intro _
    cases num with
    | zero => exact Or.inl ⟨rfl, start_countInv hardware⟩
    | succ n => exact Or.inr ⟨nofun, 0, rfl⟩
  have hcounted : Counted s :=
    StepFn.run_invariant_of_meets hpres hstart hkeeps hrun
  have hopen : Open s := by
    unfold Open
    rw [hquiescent.left]
    trivial
  rcases hcounted hopen with ⟨_, hinv⟩ | ⟨_, i, ho⟩
  · exact hinv.countsWorkers hquiescent
  · rw [hquiescent.left] at ho
    cases ho

/--
Ten threads are added for one task; the nine that stay idle are asked to leave
and do so before the manager lowers `live_num`.
-/
def oneBusy : List (Action Nat) :=
  Action.owner :: Action.addTask 7 :: List.replicate 6 Action.manager ++
    List.replicate 3 (Action.worker 0) ++ List.replicate 7 Action.manager ++
    (List.range' 1 9).map Action.worker ++ [Action.manager]

theorem countsWorkers_of_keepsCount_oneBusy :
    exists s : Threadpool Nat,
      StepFn.run step (start 0 10) oneBusy = some s ∧ s.alive = 1 ∧
        s.runNum = 1 ∧ s.liveNum = 0 ∧ s.CountsWorkers := by
  have hreached : exists s : Threadpool Nat,
      StepFn.run step (start 0 10) oneBusy = some s ∧ s.alive = 1 ∧
        s.runNum = 1 ∧ s.liveNum = 0 ∧ s.owner = Owner.running ∧
          s.manager.updates = false ∧
            s.workers.all (fun w => !w.updates) = true :=
    ⟨_, rfl, rfl, rfl, rfl, rfl, rfl, rfl⟩
  have hkeeps : StepFn.Meets step KeepsCount
      (start 0 10 : Threadpool Nat) oneBusy := by
    decide
  rcases hreached with ⟨s, hrun, halive, hruns, hlive, howner, hmanager, hall⟩
  have hquiescent : s.Quiescent := by
    refine ⟨howner, hmanager, fun w hw => ?_⟩
    have hw' := List.all_eq_true.mp hall w hw
    simpa using hw'
  exact ⟨s, hrun, halive, hruns, hlive,
    countsWorkers_of_keepsCount 0 10 oneBusy s hkeeps hrun hquiescent⟩

/-- The one thread that `init` has started takes a task. -/
theorem live_num_negative :
    exists s : Threadpool Nat,
      StepFn.run step (start 1 10)
          (Action.owner :: Action.owner :: Action.addTask 7 ::
            List.replicate 3 (Action.worker 0)) = some s ∧
        s.Quiescent ∧ s.liveNum = -1 ∧ ¬ s.CountsWorkers := by
  refine ⟨_, rfl, ⟨rfl, rfl, ?_⟩, rfl, ?_⟩
  · intro w hw
    rw [List.mem_singleton.mp hw]
    rfl
  · intro h
    exact absurd h.right.right.right.right.left (by decide)

/-!
# The end of `init`
-/

/-- While `init` runs there is nothing to do for the threads it starts. -/
structure InitInv (s : Threadpool τ) : Prop where
  tasks_eq : s.tasks = []
  shutdown_eq : s.shutdown = false
  exit_eq : s.exitNum = 0
  run_eq : s.runNum = 0
  live_eq : s.liveNum = 0
  workers_eq : exists i, s.owner = Owner.init i ∧
    s.workers = List.replicate i Worker.waiting
  manager :
    match s.manager with
    | Manager.testShutdown | Manager.readThreads | Manager.readTasks _
    | Manager.readRun => True
    | Manager.compareTasks _ tasks => tasks = 0
    | Manager.compareRun run => run = 0
    | _ => False

theorem start_initInv (num hardware : Nat) :
    InitInv (start num hardware : Threadpool τ) where
  tasks_eq := rfl
  shutdown_eq := rfl
  exit_eq := rfl
  run_eq := rfl
  live_eq := rfl
  workers_eq := ⟨0, rfl, rfl⟩
  manager := trivial

namespace InitInv

variable {s s' : Threadpool τ}

theorem manager_step (h : InitInv s) (hstep : s.managerStep = some s') :
    InitInv s' := by
  have hmanager := h.manager
  cases hm : s.manager with
  | testShutdown =>
      simp only [managerStep, hm, Option.some.injEq] at hstep
      subst hstep
      rw [h.shutdown_eq, if_neg Bool.false_ne_true]
      exact { h with manager := trivial }
  | readThreads =>
      simp only [managerStep, hm, Option.some.injEq] at hstep
      subst hstep
      exact { h with manager := trivial }
  | readTasks size =>
      simp only [managerStep, hm, Option.some.injEq] at hstep
      subst hstep
      exact { h with manager := List.length_eq_zero_iff.mpr h.tasks_eq }
  | compareTasks size tasks =>
      simp only [hm] at hmanager
      simp only [managerStep, hm, Option.some.injEq] at hstep
      subst hstep
      rw [h.live_eq, hmanager, if_neg (by decide)]
      exact { h with manager := trivial }
  | readRun =>
      simp only [managerStep, hm, Option.some.injEq] at hstep
      subst hstep
      exact { h with manager := h.run_eq }
  | compareRun run =>
      simp only [hm] at hmanager
      simp only [managerStep, hm, Option.some.injEq] at hstep
      subst hstep
      rw [h.live_eq, hmanager, if_neg (by decide)]
      exact { h with manager := trivial }
  | _ =>
      simp only [hm] at hmanager

theorem step (h : InitInv s) {a : Action τ} (hstep : s.step a = some s')
    (hinit : exists i, s'.owner = Owner.init i) : InitInv s' := by
  rcases h.workers_eq with ⟨i, ho, hworkers⟩
  cases a with
  | owner =>
      cases ownerStep_cases hstep with
      | starts j hj hlt =>
          rw [ho] at hj
          cases hj
          exact { h with workers_eq := ⟨i + 1, rfl, by
            show s.workers ++ [Worker.waiting] = _
            rw [hworkers, List.replicate_succ']⟩ }
      | inits j hj hge =>
          rcases hinit with ⟨k, hk⟩
          cases hk
      | notifies hj => exact nomatch ho.symm.trans hj
      | joins j n hj hlt hjoins => exact nomatch ho.symm.trans hj
      | ends j n hj hge => exact nomatch ho.symm.trans hj
  | tShutdown => exact nomatch ho.symm.trans (tShutdown_eq hstep).left
  | addTask t => exact absurd ho ((addTask_cases hstep).left i)
  | manager => exact h.manager_step hstep
  | worker j =>
      have hwaiting : forall {w : Worker τ}, s.workers[j]? = some w ->
          w = Worker.waiting := by
        intro w hw
        have hmem := List.mem_of_getElem? hw
        rw [hworkers] at hmem
        exact List.eq_of_mem_replicate hmem
      cases workerStep_cases hstep with
      | leaves hw hpos =>
          rw [h.exit_eq] at hpos
          exact absurd hpos (Int.lt_irrefl 0)
      | returns hw hnone hset =>
          rw [h.shutdown_eq] at hset
          cases hset
      | takes t rest hw htasks =>
          rw [h.tasks_eq] at htasks
          cases htasks
      | countsRun t hw => exact nomatch hwaiting hw
      | countsLive t hw => exact nomatch hwaiting hw
      | finishes t hw => exact nomatch hwaiting hw

end InitInv

theorem init_of_step {s s' : Threadpool τ} {a : Action τ} {i : Nat}
    (hstep : s.step a = some s') (ho : s'.owner = Owner.init i) :
    exists j, s.owner = Owner.init j := by
  cases a with
  | owner =>
      cases ownerStep_cases hstep with
      | starts j hj hlt => exact ⟨j, hj⟩
      | inits j hj hge => cases ho
      | notifies hj => cases ho
      | joins j n hj hlt hjoins => cases ho
      | ends j n hj hge => cases ho
  | tShutdown =>
      rw [(tShutdown_eq hstep).right] at ho
      cases ho
  | addTask t =>
      refine ⟨i, ?_⟩
      cases (addTask_cases hstep).right with
      | refused hset => exact ho
      | queued hset => exact ho
  | manager => exact ⟨i, (managerStep_frame hstep).owner.symm.trans ho⟩
  | worker j => exact ⟨i, (workerStep_frame hstep).right.left.symm.trans ho⟩

/-- A pool that starts threads counts none of them when `init` returns. -/
theorem init_miscounts (num hardware : Nat) (hpos : 0 < num)
    (acts : List (Action τ)) (s s' : Threadpool τ)
    (hrun : StepFn.run step (start num hardware) acts = some s)
    (hreturns : s.initReturns = true) (hstep : s.ownerStep = some s') :
    s'.Quiescent ∧ ¬ s'.CountsWorkers := by
  have hpres : forall (s : Threadpool τ) a s',
      (s.num = num ∧ ((exists i, s.owner = Owner.init i) -> s.InitInv)) ->
        step s a = some s' ->
          s'.num = num ∧ ((exists i, s'.owner = Owner.init i) -> s'.InitInv) := by
    intro s a s' h hstep
    refine ⟨(step_num hstep).trans h.left, fun hinit => ?_⟩
    rcases hinit with ⟨i, ho⟩
    exact (h.right (init_of_step hstep ho)).step hstep ⟨i, ho⟩
  rcases StepFn.run_invariant hpres
    ⟨rfl, fun _ => start_initInv num hardware⟩ hrun with ⟨hnum, hinv⟩
  cases ownerStep_cases hstep with
  | inits i ho hge =>
      have h := hinv ⟨i, ho⟩
      have hmanager := h.manager
      rcases h.workers_eq with ⟨j, hj, hworkers⟩
      rw [ho] at hj
      cases hj
      constructor
      · refine ⟨rfl, ?_, ?_⟩
        · show s.manager.updates = false
          cases hm : s.manager with
          | readExit => simp only [hm] at hmanager
          | release x => simp only [hm] at hmanager
          | _ => rfl
        · intro w hw
          have hmem : w ∈ List.replicate i Worker.waiting := hworkers ▸ hw
          rw [List.eq_of_mem_replicate hmem]
          rfl
      · intro hcounts
        have hlive : s.liveNum = s.workers.countP Worker.idle :=
          hcounts.right.left
        rw [h.live_eq, hworkers, List.countP_replicate] at hlive
        have hall : (if (Worker.waiting : Worker τ).idle then i else 0) = i :=
          rfl
        rw [hall] at hlive
        omega
  | starts i ho hlt =>
      unfold initReturns at hreturns
      rw [ho] at hreturns
      exact absurd hlt (Nat.not_lt.mpr (of_decide_eq_true hreturns))
  | notifies ho =>
      unfold initReturns at hreturns
      rw [ho] at hreturns
      cases hreturns
  | joins i n ho hlt hjoins =>
      unfold initReturns at hreturns
      rw [ho] at hreturns
      cases hreturns
  | ends i n ho hge =>
      unfold initReturns at hreturns
      rw [ho] at hreturns
      cases hreturns

end Threadpool

end MoonNet
