import MoonNet.Foundation.WaitSet
import MoonNet.Threadpool.Bounds

/-!
# Sleeping workers

A worker that finds its wait condition false sleeps on `task_cv` until it is
notified, or for no reason wakes up.  `add_task` notifies one worker after it
has released the mutex, `adjust_task` as many as it has read from `exit_num`,
and `t_shutdown` all of them.  Which sleepers a notification wakes is open.
-/

namespace MoonNet

open Foundation

universe u

/--
`asleep` says which workers sleep, and `notifies` counts the calls of `add_task`
that have queued a task and not notified yet.  `started` is a history of the
tasks that were taken from the queue.
-/
structure Wakeups (τ : Type u) where
  pool : Threadpool τ
  asleep : List Bool
  notifies : Nat
  started : List τ

namespace Wakeups

open Threadpool

variable {τ : Type u}

def start (num hardware : Nat) : Wakeups τ where
  pool := Threadpool.start num hardware
  asleep := []
  notifies := 0
  started := []

/-- `woken` are the workers that a step notifies. -/
inductive Action (τ : Type u) where
  | pool (a : Threadpool.Action τ) (woken : List Nat)
  | sleep (i : Nat)
  | wakeUp (i : Nat)
  | notifyOne (woken : List Nat)

def sleepers (s : Wakeups τ) : Nat :=
  s.asleep.count true

/-- The condition that `task_cv.wait` tests. -/
def goesOn (p : Threadpool τ) : Bool :=
  !p.tasks.isEmpty || p.shutdown || decide (0 < p.exitNum)

def waits (p : Threadpool τ) (i : Nat) : Bool :=
  match p.workers[i]? with
  | some Worker.waiting => true
  | _ => false

def wake (asleep : List Bool) (woken : List Nat) : List Bool :=
  woken.foldl (fun flags i => flags.set i false) asleep

def Chosen (s : Wakeups τ) (woken : List Nat) (count : Nat) : Prop :=
  woken.Nodup ∧ (forall i, i ∈ woken -> s.asleep[i]? = some true) ∧
    woken.length = min count s.sleepers

instance (s : Wakeups τ) (woken : List Nat) (count : Nat) :
    Decidable (s.Chosen woken count) :=
  inferInstanceAs (Decidable (_ ∧ _ ∧ _))

def grown (s : Wakeups τ) (p : Threadpool τ) : List Bool :=
  s.asleep ++ List.replicate (p.workers.length - s.asleep.length) false

def taken (s : Wakeups τ) (p : Threadpool τ) (i : Nat) : List τ :=
  match s.pool.workers[i]?, p.workers[i]? with
  | some Worker.waiting, some (Worker.popped t) => [t]
  | _, _ => []

def poolStep (s : Wakeups τ) (p : Threadpool τ) (woken : List Nat) :
    Threadpool.Action τ -> Option (Wakeups τ)
  | Threadpool.Action.worker i =>
      if s.asleep[i]? = some true then none
      else some { s with pool := p, started := s.started ++ s.taken p i }
  | Threadpool.Action.addTask _ =>
      some { s with
        pool := p
        notifies := if s.pool.shutdown then s.notifies else s.notifies + 1 }
  | Threadpool.Action.tShutdown => some { s with pool := p }
  | Threadpool.Action.owner =>
      match s.pool.owner with
      | Owner.notify =>
          some { s with pool := p, asleep := s.asleep.map fun _ => false }
      | _ => some { s with pool := p, asleep := s.grown p }
  | Threadpool.Action.manager =>
      match s.pool.manager with
      | Manager.release x =>
          if s.Chosen woken x.toNat then
            some { s with pool := p, asleep := wake s.asleep woken }
          else none
      | _ => some { s with pool := p, asleep := s.grown p }

def step : StepFn (Wakeups τ) (Action τ) := fun s a =>
  match a with
  | Action.pool a woken => (s.pool.step a).bind fun p => s.poolStep p woken a
  | Action.sleep i =>
      if waits s.pool i && decide (s.asleep[i]? = some false) &&
          !goesOn s.pool then
        some { s with asleep := s.asleep.set i true }
      else none
  | Action.wakeUp i =>
      if s.asleep[i]? = some true then
        some { s with asleep := s.asleep.set i false }
      else none
  | Action.notifyOne woken =>
      if 0 < s.notifies ∧ s.Chosen woken 1 then
        some { s with
          notifies := s.notifies - 1, asleep := wake s.asleep woken }
      else none

/-!
## What is covered
-/

/-- The threads that are up: they look for work before they sleep. -/
def movers (s : Wakeups τ) : Nat :=
  s.pool.alive - s.sleepers

/-- The notifications that the manager is about to make. -/
def releases (p : Threadpool τ) : Nat :=
  match p.manager with
  | Manager.readExit => p.exitNum.toNat
  | Manager.release x => x.toNat
  | _ => 0

def waitSet (s : Wakeups τ) : WaitSet where
  work := s.pool.tasks.length + s.pool.exitNum.toNat
  movers := s.movers
  signals := s.notifies + releases s.pool
  sleepers := s.sleepers

/--
While a worker sleeps, each queued task and each exit that is due has a thread
that is up, or a notification that is to come.
-/
def Covered (s : Wakeups τ) : Prop :=
  0 < s.sleepers ->
    s.pool.tasks.length + s.pool.exitNum.toNat <=
      s.movers + (s.notifies + releases s.pool)

/--
If a worker leaves through `exit_num` after the manager has stored to it and
before it has read it again, there is a thread or a notification to spare.
-/
def ExitsToSpare (s : Wakeups τ) : Action τ -> Prop
  | Action.pool (Threadpool.Action.worker i) _ =>
      waits s.pool i = true -> 0 < s.pool.exitNum ->
        s.pool.manager = Manager.readExit -> 0 < s.sleepers ->
          s.pool.tasks.length + s.pool.exitNum.toNat + 1 <=
            s.movers + (s.notifies + releases s.pool)
  | _ => True

variable {s s' : Wakeups τ}

/-!
# Counting sleepers
-/

theorem count_true_set {flags : List Bool} {i : Nat} {b : Bool}
    (hflag : flags[i]? = some b) (b' : Bool) :
    (flags.set i b').count true + (if b then 1 else 0) =
      flags.count true + (if b' then 1 else 0) := by
  rcases List.getElem?_eq_some_iff.mp hflag with ⟨hi, hget⟩
  have hperm : flags.Perm (b :: flags.eraseIdx i) := by
    rw [<- hget]
    exact (List.getElem_cons_eraseIdx_perm hi).symm
  have hset : (flags.set i b').Perm (b' :: flags.eraseIdx i) :=
    List.set_perm_cons_eraseIdx hi b'
  rw [hperm.count_eq, hset.count_eq, List.count_cons, List.count_cons,
    Nat.add_right_comm]
  cases b <;> cases b' <;> rfl

theorem count_true_le {kind : Worker τ -> Bool} {workers : List (Worker τ)}
    {flags : List Bool}
    (hkind : forall i : Nat, flags[i]? = some true ->
      exists w, workers[i]? = some w ∧ kind w = true) :
    flags.count true <= workers.countP kind := by
  induction flags generalizing workers with
  | nil => exact Nat.zero_le _
  | cons b rest ih =>
      cases workers with
      | nil =>
          have hnone : (b :: rest).count true = 0 := by
            apply List.count_eq_zero.mpr
            intro hmem
            rcases List.mem_iff_getElem?.mp hmem with ⟨i, hi⟩
            rcases hkind i hi with ⟨w, hw, _⟩
            cases hw
          rw [hnone]
          exact Nat.zero_le _
      | cons w others =>
          have hrest : rest.count true <= others.countP kind :=
            ih fun i hi => hkind (i + 1) hi
          rw [List.count_cons, List.countP_cons]
          cases b with
          | false =>
              exact Nat.le_trans hrest (Nat.le_add_right _ _)
          | true =>
              rcases hkind 0 rfl with ⟨w', hw', hyes⟩
              cases hw'
              rw [if_pos hyes]
              exact Nat.add_le_add_right hrest 1

theorem wake_length (flags : List Bool) (woken : List Nat) :
    (wake flags woken).length = flags.length := by
  induction woken generalizing flags with
  | nil => rfl
  | cons i rest ih =>
      rw [wake, List.foldl_cons]
      exact (ih _).trans List.length_set

theorem wake_getElem? {flags : List Bool} {woken : List Nat} {j : Nat}
    (h : (wake flags woken)[j]? = some true) : flags[j]? = some true := by
  induction woken generalizing flags with
  | nil => exact h
  | cons i rest ih =>
      have hset : (flags.set i false)[j]? = some true := ih h
      by_cases hij : i = j
      · rw [hij, List.getElem?_set_self'] at hset
        cases hflag : flags[j]? with
        | none =>
            rw [hflag] at hset
            cases hset
        | some b =>
            rw [hflag] at hset
            cases hset
      · rwa [List.getElem?_set_ne hij] at hset

theorem count_wake {flags : List Bool} {woken : List Nat}
    (hnodup : woken.Nodup)
    (hasleep : forall i, i ∈ woken -> flags[i]? = some true) :
    (wake flags woken).count true + woken.length = flags.count true := by
  induction woken generalizing flags with
  | nil => rfl
  | cons i rest ih =>
      rcases List.nodup_cons.mp hnodup with ⟨hnot, hrest⟩
      have hone : (flags.set i false).count true + 1 = flags.count true :=
        count_true_set (hasleep i List.mem_cons_self) false
      have hothers : forall j, j ∈ rest ->
          (flags.set i false)[j]? = some true := by
        intro j hj
        have hne : i ≠ j := fun hij => hnot (hij ▸ hj)
        rw [List.getElem?_set_ne hne]
        exact hasleep j (List.mem_cons_of_mem i hj)
      have htail := ih hrest hothers
      show (wake (flags.set i false) rest).count true + (rest.length + 1) = _
      rw [<- hone, <- htail, Nat.add_assoc]

/-!
# Invariants
-/

/-- Sleepers wait, and `exit_num` holds an `int`. -/
structure Inv (s : Wakeups τ) : Prop where
  length : s.asleep.length = s.pool.workers.length
  waiting : forall i : Nat, s.asleep[i]? = some true ->
    s.pool.workers[i]? = some Worker.waiting
  exit_lt : s.pool.exitNum < 2 ^ 31

theorem sleepers_le_alive (h : Inv s) : s.sleepers <= s.pool.alive :=
  count_true_le fun i hi => ⟨_, h.waiting i hi, rfl⟩

theorem sleepers_lt_alive (h : Inv s) {i : Nat} {w : Worker τ}
    (hw : s.pool.workers[i]? = some w) (hreturned : w.returned = false)
    (hup : s.asleep[i]? ≠ some true) : s.sleepers < s.pool.alive := by
  have hflag : s.asleep[i]? = some false := by
    have hi : i < s.asleep.length := by
      rw [h.length]
      exact (List.getElem?_eq_some_iff.mp hw).fst
    cases hget : s.asleep[i] with
    | true => exact absurd (List.getElem?_eq_some_iff.mpr ⟨hi, hget⟩) hup
    | false => exact List.getElem?_eq_some_iff.mpr ⟨hi, hget⟩
  have hcount : (s.asleep.set i true).count true + 0 =
      s.asleep.count true + 1 := count_true_set hflag true
  have hle : (s.asleep.set i true).count true <= s.pool.alive := by
    apply count_true_le
    intro j hj
    by_cases hij : i = j
    · rw [<- hij]
      exact ⟨w, hw, by rw [hreturned]; rfl⟩
    · rw [List.getElem?_set_ne hij] at hj
      exact ⟨_, h.waiting j hj, rfl⟩
  show s.asleep.count true < s.pool.alive
  omega

/-!
# Steps
-/

def label (s : Wakeups τ) : Action τ -> Option WaitSet.Action
  | Action.sleep _ => some WaitSet.Action.sleep
  | Action.wakeUp _ => some WaitSet.Action.wake
  | Action.notifyOne _ => some (WaitSet.Action.signal 1)
  | Action.pool (Threadpool.Action.addTask _) _ =>
      if s.pool.shutdown then none else some (WaitSet.Action.offer 0 1)
  | Action.pool Threadpool.Action.tShutdown _ => none
  | Action.pool Threadpool.Action.owner _ =>
      match s.pool.owner with
      | Owner.init i =>
          if i < s.pool.num then some (WaitSet.Action.arrive 1) else none
      | Owner.notify => some WaitSet.Action.wakeAll
      | _ => none
  | Action.pool Threadpool.Action.manager _ =>
      match s.pool.manager with
      | Manager.addThreads size =>
          some (WaitSet.Action.arrive (s.pool.addCount size))
      | Manager.storeExit value =>
          some (WaitSet.Action.offer s.pool.exitNum.toNat
            (wrap32 value).toNat)
      | Manager.release x => some (WaitSet.Action.signal x.toNat)
      | _ => none
  | Action.pool (Threadpool.Action.worker i) _ =>
      if waits s.pool i then
        if 0 < s.pool.exitNum then
          some (WaitSet.Action.leave
            (if s.pool.manager = Manager.readExit then 1 else 0))
        else if s.pool.tasks.isEmpty then some WaitSet.Action.depart
        else some WaitSet.Action.take
      else none

theorem waits_iff {p : Threadpool τ} {i : Nat} :
    waits p i = true <-> p.workers[i]? = some Worker.waiting := by
  unfold waits
  split
  · rename_i hw
    exact iff_of_true rfl hw
  · rename_i hw
    exact iff_of_false nofun hw

theorem grown_inv (h : Inv s) {p : Threadpool τ} {n : Nat}
    (hworkers : p.workers = s.pool.workers ++ List.replicate n Worker.waiting)
    (hexit : p.exitNum < 2 ^ 31) :
    Inv { s with pool := p, asleep := s.grown p } := by
  have hgrown : s.grown p = s.asleep ++ List.replicate n false := by
    unfold grown
    rw [hworkers, List.length_append, List.length_replicate, h.length,
      Nat.add_sub_cancel_left]
  constructor
  case length =>
    show (s.grown p).length = p.workers.length
    rw [hgrown, hworkers, List.length_append, List.length_append,
      List.length_replicate, List.length_replicate, h.length]
  case waiting =>
    intro i hi
    show p.workers[i]? = some Worker.waiting
    have hold : s.asleep[i]? = some true := by
      have hflag : (s.asleep ++ List.replicate n false)[i]? = some true :=
        hgrown ▸ hi
      by_cases hlt : i < s.asleep.length
      · rwa [List.getElem?_append_left hlt] at hflag
      · rw [List.getElem?_append_right (Nat.le_of_not_lt hlt)] at hflag
        have hmem := List.mem_of_getElem? hflag
        cases List.eq_of_mem_replicate hmem
    have hlt : i < s.pool.workers.length :=
      (List.getElem?_eq_some_iff.mp (h.waiting i hold)).fst
    rw [hworkers, List.getElem?_append_left hlt]
    exact h.waiting i hold
  case exit_lt => exact hexit

theorem grown_sleepers (s : Wakeups τ) (p : Threadpool τ) :
    (s.grown p).count true = s.sleepers := by
  unfold grown
  rw [List.count_append, List.count_replicate]
  exact Nat.add_zero _

theorem setWorker_inv (h : Inv s) {p : Threadpool τ} {i : Nat}
    {w : Worker τ} (hup : s.asleep[i]? ≠ some true)
    (hworkers : p.workers = s.pool.workers.set i w)
    (hexit : p.exitNum < 2 ^ 31) {started : List τ} :
    Inv { s with pool := p, started := started } where
  length := by
    show s.asleep.length = p.workers.length
    rw [hworkers, List.length_set]
    exact h.length
  waiting := by
    intro j hj
    show p.workers[j]? = some Worker.waiting
    have hne : i ≠ j := by
      intro hij
      rw [hij] at hup
      exact hup hj
    rw [hworkers, List.getElem?_set_ne hne]
    exact h.waiting j hj
  exit_lt := hexit

theorem wake_inv (h : Inv s) (woken : List Nat) {p : Threadpool τ}
    (hworkers : p.workers = s.pool.workers) (hexit : p.exitNum < 2 ^ 31)
    {notifies : Nat} :
    Inv { s with
      pool := p, asleep := wake s.asleep woken, notifies := notifies } where
  length := by
    show (wake s.asleep woken).length = p.workers.length
    rw [wake_length, hworkers]
    exact h.length
  waiting := by
    intro i hi
    show p.workers[i]? = some Worker.waiting
    rw [hworkers]
    exact h.waiting i (wake_getElem? hi)
  exit_lt := hexit

/-!
## Sleeping and waking
-/

def Fits (s : Wakeups τ) (a : Action τ) (s' : Wakeups τ) : Prop :=
  Inv s' ∧ StepFn.Matches WaitSet.step s.waitSet s'.waitSet (label s a)

theorem goesOn_eq_false {p : Threadpool τ} (h : goesOn p = false) :
    p.tasks = [] ∧ p.shutdown = false ∧ p.exitNum <= 0 := by
  unfold goesOn at h
  rw [Bool.or_eq_false_iff, Bool.or_eq_false_iff] at h
  refine ⟨?_, h.left.right, ?_⟩
  · exact List.isEmpty_iff.mp ((Bool.not_eq_false' ..).mp h.left.left)
  · exact Int.not_lt.mp (of_decide_eq_false h.right)

theorem sleep_fits (h : Inv s) {i : Nat}
    (hstep : step s (Action.sleep i) = some s') :
    Fits s (Action.sleep i) s' := by
  simp only [step] at hstep
  split at hstep
  · rename_i hcan
    cases hstep
    rw [Bool.and_eq_true, Bool.and_eq_true, Bool.not_eq_true'] at hcan
    rcases hcan with ⟨⟨hwaits, hflag⟩, hidle⟩
    have hw := waits_iff.mp hwaits
    have hup : s.asleep[i]? = some false := of_decide_eq_true hflag
    rcases goesOn_eq_false hidle with ⟨htasks, _, hexit⟩
    have hcount : (s.asleep.set i true).count true + 0 =
        s.asleep.count true + 1 := count_true_set hup true
    have hlt := sleepers_lt_alive h hw rfl (by rw [hup]; nofun)
    constructor
    · constructor
      case length => exact List.length_set.trans h.length
      case waiting =>
        intro j hj
        by_cases hij : i = j
        · rw [<- hij]
          exact hw
        · rw [List.getElem?_set_ne hij] at hj
          exact h.waiting j hj
      case exit_lt => exact h.exit_lt
    · have hwork : s.waitSet.work = 0 := by
        show s.pool.tasks.length + s.pool.exitNum.toNat = 0
        rw [htasks, Int.toNat_of_nonpos hexit]
        rfl
      have hmovers : 0 < s.waitSet.movers := Nat.sub_pos_of_lt hlt
      show (if _ then _ else none) = _
      rw [if_pos ⟨hwork, hmovers⟩]
      refine congrArg some ((WaitSet.mk.injEq ..).mpr ⟨rfl, ?_, rfl, ?_⟩)
      · show s.pool.alive - s.asleep.count true - 1 =
          s.pool.alive - (s.asleep.set i true).count true
        omega
      · exact hcount.symm
  · cases hstep

theorem wakeUp_fits (h : Inv s) {i : Nat}
    (hstep : step s (Action.wakeUp i) = some s') :
    Fits s (Action.wakeUp i) s' := by
  simp only [step] at hstep
  split at hstep
  · rename_i hflag
    cases hstep
    have hcount : (s.asleep.set i false).count true + 1 =
        s.asleep.count true := count_true_set hflag false
    have hle : s.asleep.count true <= s.pool.alive := sleepers_le_alive h
    constructor
    · exact wake_inv h [i] rfl h.exit_lt
    · have hpos : 0 < s.waitSet.sleepers := by
        show 0 < s.asleep.count true
        omega
      show (if _ then _ else none) = _
      rw [if_pos hpos]
      refine congrArg some ((WaitSet.mk.injEq ..).mpr ⟨rfl, ?_, rfl, ?_⟩)
      · show s.pool.alive - s.asleep.count true + 1 =
          s.pool.alive - (s.asleep.set i false).count true
        omega
      · show s.asleep.count true - 1 = (s.asleep.set i false).count true
        omega
  · cases hstep

theorem signal_matched (h : Inv s) {woken : List Nat} {count : Nat}
    (hchosen : s.Chosen woken count) (hcount : count <= s.waitSet.signals)
    (hsame : s'.waitSet.work = s.waitSet.work)
    (halive : s'.pool.alive = s.pool.alive)
    (hasleep : s'.asleep = wake s.asleep woken)
    (hsignals : s'.waitSet.signals = s.waitSet.signals - count) :
    WaitSet.step s.waitSet (WaitSet.Action.signal count) =
      some s'.waitSet := by
  rcases hchosen with ⟨hnodup, hall, hlength⟩
  have hwake := count_wake hnodup hall
  have hle : s.asleep.count true <= s.pool.alive := sleepers_le_alive h
  have hsleepers : s'.sleepers + min count s.sleepers = s.sleepers := by
    unfold sleepers at hlength ⊢
    rw [hasleep, <- hlength]
    exact hwake
  have hbefore : s.sleepers <= s.pool.alive := hle
  show (if _ then _ else none) = _
  rw [if_pos hcount]
  refine congrArg some ((WaitSet.mk.injEq ..).mpr
    ⟨hsame.symm, ?_, hsignals.symm, ?_⟩)
  · show s.pool.alive - s.sleepers + min count s.sleepers =
      s'.pool.alive - s'.sleepers
    rw [halive]
    omega
  · show s.sleepers - min count s.sleepers = s'.sleepers
    omega

theorem notifyOne_fits (h : Inv s) {woken : List Nat}
    (hstep : step s (Action.notifyOne woken) = some s') :
    Fits s (Action.notifyOne woken) s' := by
  simp only [step] at hstep
  split at hstep
  · rename_i hcan
    cases hstep
    have hsignals : 1 <= s.waitSet.signals :=
      Nat.le_trans hcan.left (Nat.le_add_right _ _)
    refine ⟨wake_inv h woken rfl h.exit_lt,
      signal_matched h hcan.right hsignals rfl rfl rfl ?_⟩
    show s.notifies - 1 + releases s.pool =
      s.notifies + releases s.pool - 1
    exact (Nat.sub_add_comm hcan.left).symm
  · cases hstep

/-!
## Steps of the pool
-/

theorem step_pool {a : Threadpool.Action τ} {woken : List Nat}
    (hstep : step s (Action.pool a woken) = some s') :
    exists p, s.pool.step a = some p ∧ s.poolStep p woken a = some s' :=
  Option.bind_eq_some_iff.mp hstep

theorem addTask_fits (h : Inv s) {t : τ} {woken : List Nat}
    (hstep : step s (Action.pool (Threadpool.Action.addTask t) woken) =
      some s') :
    Fits s (Action.pool (Threadpool.Action.addTask t) woken) s' := by
  rcases step_pool hstep with ⟨p, hp, hs⟩
  cases hs
  unfold Fits label
  dsimp only
  cases (addTask_cases hp).right with
  | refused hset =>
      rw [hset]
      exact ⟨⟨h.length, h.waiting, h.exit_lt⟩, rfl⟩
  | queued hset =>
      rw [hset]
      refine ⟨⟨h.length, h.waiting, h.exit_lt⟩,
        congrArg some ((WaitSet.mk.injEq ..).mpr ⟨?_, rfl, ?_, rfl⟩)⟩
      · show s.pool.tasks.length + s.pool.exitNum.toNat - 0 + 1 =
          (s.pool.tasks ++ [t]).length + s.pool.exitNum.toNat
        rw [List.length_append]
        exact Nat.add_right_comm ..
      · show s.notifies + releases s.pool + 1 =
          s.notifies + 1 + releases s.pool
        exact Nat.add_right_comm ..

theorem tShutdown_fits (h : Inv s) {woken : List Nat}
    (hstep : step s (Action.pool Threadpool.Action.tShutdown woken) =
      some s') :
    Fits s (Action.pool Threadpool.Action.tShutdown woken) s' := by
  rcases step_pool hstep with ⟨p, hp, hs⟩
  cases hs
  rw [(tShutdown_eq hp).right]
  exact ⟨⟨h.length, h.waiting, h.exit_lt⟩, rfl⟩

theorem grown_same (h : Inv s) {p : Threadpool τ}
    (hworkers : p.workers = s.pool.workers) : s.grown p = s.asleep := by
  unfold grown
  rw [hworkers, h.length, Nat.sub_self]
  exact List.append_nil _

theorem same_fits (h : Inv s) {p : Threadpool τ}
    (hworkers : p.workers = s.pool.workers) (htasks : p.tasks = s.pool.tasks)
    (hexit : p.exitNum = s.pool.exitNum)
    (hreleases : releases p = releases s.pool) :
    Inv { s with pool := p, asleep := s.grown p } ∧
      ({ s with pool := p, asleep := s.grown p } : Wakeups τ).waitSet =
        s.waitSet := by
  constructor
  · apply grown_inv (n := 0) h
    · rw [hworkers]
      exact (List.append_nil _).symm
    · rw [hexit]
      exact h.exit_lt
  · have halive : p.alive = s.pool.alive := by
      unfold alive
      rw [hworkers]
    rw [grown_same h hworkers]
    refine (WaitSet.mk.injEq ..).mpr ⟨?_, ?_, ?_, rfl⟩
    · rw [htasks, hexit]
    · show p.alive - s.sleepers = s.pool.alive - s.sleepers
      rw [halive]
    · rw [hreleases]

theorem added_matched {p : Threadpool τ} {n : Nat}
    (h : Inv s) (halive : p.alive = s.pool.alive + n)
    (htasks : p.tasks = s.pool.tasks) (hexit : p.exitNum = s.pool.exitNum)
    (hreleases : releases p = releases s.pool) :
    WaitSet.step s.waitSet (WaitSet.Action.arrive n) =
      some ({ s with pool := p, asleep := s.grown p } :
        Wakeups τ).waitSet := by
  have hle := sleepers_le_alive h
  refine congrArg some ((WaitSet.mk.injEq ..).mpr ⟨?_, ?_, ?_, ?_⟩)
  · show s.pool.tasks.length + s.pool.exitNum.toNat = _
    rw [htasks, hexit]
  · show s.pool.alive - s.sleepers + n = p.alive - (s.grown p).count true
    rw [grown_sleepers, halive]
    omega
  · show s.notifies + releases s.pool = _
    rw [hreleases]
  · exact (grown_sleepers s p).symm

theorem owner_fits (h : Inv s) {woken : List Nat}
    (hstep : step s (Action.pool Threadpool.Action.owner woken) = some s') :
    Fits s (Action.pool Threadpool.Action.owner woken) s' := by
  rcases step_pool hstep with ⟨p, hp, hs⟩
  unfold Fits label
  dsimp only
  simp only [poolStep] at hs
  cases ownerStep_cases hp with
  | starts i ho hlt =>
      simp only [ho] at hs ⊢
      cases hs
      rw [if_pos hlt]
      exact ⟨grown_inv (n := 1) h rfl h.exit_lt,
        added_matched h (alive_addWorkers s.pool 1) rfl rfl rfl⟩
  | inits i ho hge =>
      simp only [ho] at hs ⊢
      cases hs
      rw [if_neg (Nat.not_lt.mpr hge)]
      exact same_fits h rfl rfl rfl rfl
  | notifies ho =>
      simp only [ho] at hs ⊢
      cases hs
      have hnone : (s.asleep.map fun _ => false).count true = 0 := by
        apply List.count_eq_zero.mpr
        intro hmem
        rcases List.mem_map.mp hmem with ⟨_, _, hfalse⟩
        cases hfalse
      have hle := sleepers_le_alive h
      constructor
      · constructor
        case length => exact (List.length_map _).trans h.length
        case waiting =>
          intro i hi
          have hmem := List.mem_of_getElem? hi
          exact absurd hmem (List.count_eq_zero.mp hnone)
        case exit_lt => exact h.exit_lt
      · refine congrArg some ((WaitSet.mk.injEq ..).mpr ⟨rfl, ?_, rfl, ?_⟩)
        · show s.pool.alive - s.sleepers + s.sleepers =
            s.pool.alive - (s.asleep.map fun _ => false).count true
          rw [hnone]
          omega
        · exact hnone.symm
  | joins i n ho hlt hjoins =>
      simp only [ho] at hs ⊢
      cases hs
      exact same_fits h rfl rfl rfl rfl
  | ends i n ho hge =>
      simp only [ho] at hs ⊢
      cases hs
      exact same_fits h rfl rfl rfl rfl

theorem releases_test {p : Threadpool τ} {m m' : Manager} (c : Prop)
    [Decidable c] (hm : releases (p.goto m) = 0)
    (hm' : releases (p.goto m') = 0) :
    releases (p.goto (if c then m else m')) = 0 := by
  split
  · exact hm
  · exact hm'

theorem goto_of_managerStep {p p' : Threadpool τ}
    (hadd : forall size, p.manager ≠ Manager.addThreads size)
    (hstore : forall value, p.manager ≠ Manager.storeExit value)
    (hrelease : forall x, p.manager ≠ Manager.release x)
    (hstep : p.managerStep = some p') :
    exists m, p' = p.goto m ∧ releases p' = releases p := by
  unfold releases
  cases hm : p.manager with
  | addThreads size => exact absurd hm (hadd size)
  | storeExit value => exact absurd hm (hstore value)
  | release x => exact absurd hm (hrelease x)
  | exited =>
      simp only [managerStep, hm] at hstep
      cases hstep
  | readExit =>
      simp only [managerStep, hm] at hstep
      cases hstep
      exact ⟨_, rfl, rfl⟩
  | readThreads =>
      simp only [managerStep, hm] at hstep
      cases hstep
      exact ⟨_, rfl, rfl⟩
  | readTasks size =>
      simp only [managerStep, hm] at hstep
      cases hstep
      exact ⟨_, rfl, rfl⟩
  | readRun =>
      simp only [managerStep, hm] at hstep
      cases hstep
      exact ⟨_, rfl, rfl⟩
  | readSurplus =>
      simp only [managerStep, hm] at hstep
      cases hstep
      exact ⟨_, rfl, rfl⟩
  | _ =>
      simp only [managerStep, hm] at hstep
      cases hstep
      exact ⟨_, rfl, releases_test _ rfl rfl⟩

theorem quiet_fits (h : Inv s) {p : Threadpool τ}
    (hadd : forall size, s.pool.manager ≠ Manager.addThreads size)
    (hstore : forall value, s.pool.manager ≠ Manager.storeExit value)
    (hrelease : forall x, s.pool.manager ≠ Manager.release x)
    (hp : s.pool.managerStep = some p) :
    Inv { s with pool := p, asleep := s.grown p } ∧
      ({ s with pool := p, asleep := s.grown p } : Wakeups τ).waitSet =
        s.waitSet := by
  rcases goto_of_managerStep hadd hstore hrelease hp with ⟨m, rfl, hkept⟩
  exact same_fits h rfl rfl rfl hkept

theorem manager_fits (h : Inv s) {woken : List Nat}
    (hstep : step s (Action.pool Threadpool.Action.manager woken) =
      some s') :
    Fits s (Action.pool Threadpool.Action.manager woken) s' := by
  rcases step_pool hstep with ⟨p, hp, hs⟩
  unfold Fits label
  dsimp only
  simp only [poolStep] at hs
  have hquiet := quiet_fits h (p := p)
  have hone : s.pool.managerStep = some p := hp
  cases hm : s.pool.manager with
  | addThreads size =>
      simp only [hm] at hs ⊢
      cases hs
      have hadded : p = { s.pool.addWorkers (s.pool.addCount size) with
          liveNum := wrap32 (s.pool.liveNum + s.pool.addCount size)
          manager := Manager.readRun } := by
        simp only [managerStep, hm] at hone
        exact (Option.some.inj hone).symm
      have hbefore : releases s.pool = 0 := by
        unfold releases
        rw [hm]
      rw [hadded]
      exact ⟨grown_inv (n := s.pool.addCount size) h rfl h.exit_lt,
        added_matched h (alive_addWorkers s.pool _) rfl rfl hbefore.symm⟩
  | storeExit value =>
      simp only [hm] at hs ⊢
      cases hs
      have hstored : p = { s.pool with
          exitNum := wrap32 value, manager := Manager.readExit } := by
        simp only [managerStep, hm] at hone
        exact (Option.some.inj hone).symm
      have hbefore : releases s.pool = 0 := by
        unfold releases
        rw [hm]
      have hsame : s.grown p = s.asleep := by
        rw [hstored]
        exact grown_same h rfl
      rw [hsame, hstored]
      refine ⟨⟨h.length, h.waiting, wrap32_lt value⟩, ?_⟩
      have hle : s.pool.exitNum.toNat <= s.waitSet.work :=
        Nat.le_add_left _ _
      show (if _ then _ else none) = _
      rw [if_pos hle]
      refine congrArg some ((WaitSet.mk.injEq ..).mpr ⟨?_, rfl, ?_, rfl⟩)
      · show s.pool.tasks.length + s.pool.exitNum.toNat -
            s.pool.exitNum.toNat + (wrap32 value).toNat =
          s.pool.tasks.length + (wrap32 value).toNat
        rw [Nat.add_sub_cancel]
      · show s.notifies + releases s.pool + (wrap32 value).toNat =
          s.notifies + (wrap32 value).toNat
        rw [hbefore]
        rfl
  | release x =>
      simp only [hm] at hs ⊢
      split at hs
      · rename_i hchosen
        cases hs
        have hreleased : p = { s.pool with
            liveNum := wrap32 (s.pool.liveNum - x.toNat)
            manager := Manager.testShutdown } := by
          simp only [managerStep, hm] at hone
          exact (Option.some.inj hone).symm
        have hbefore : s.waitSet.signals = s.notifies + x.toNat := by
          show s.notifies + releases s.pool = _
          unfold releases
          rw [hm]
        have hsignals : x.toNat <= s.waitSet.signals := by
          rw [hbefore]
          exact Nat.le_add_left _ _
        have hworkers : p.workers = s.pool.workers := by rw [hreleased]
        have hexit : p.exitNum < 2 ^ 31 := by
          rw [hreleased]
          exact h.exit_lt
        refine ⟨wake_inv h woken hworkers hexit, ?_⟩
        have hsame : p.tasks = s.pool.tasks ∧
            p.exitNum = s.pool.exitNum ∧ releases p = 0 := by
          rw [hreleased]
          exact ⟨rfl, rfl, rfl⟩
        have halive : p.alive = s.pool.alive := by
          unfold alive
          rw [hworkers]
        apply signal_matched h hchosen hsignals ?_ halive rfl ?_
        · show p.tasks.length + p.exitNum.toNat = _
          rw [hsame.left, hsame.right.left]
          rfl
        · show s.notifies + releases p = _
          rw [hbefore, hsame.right.right, Nat.add_sub_cancel]
          rfl
      · cases hs
  | exited =>
      simp only [managerStep, hm] at hone
      cases hone
  | _ =>
      simp only [hm] at hs hquiet ⊢
      cases hs
      exact hquiet (fun _ hne => by cases hne) (fun _ hne => by cases hne)
        (fun _ hne => by cases hne) hone

theorem releases_leave {p q : Threadpool τ} (hm : q.manager = p.manager)
    (hexit : q.exitNum = p.exitNum - 1) (hpos : 0 < p.exitNum) :
    releases q + (if p.manager = Manager.readExit then 1 else 0) =
      releases p := by
  unfold releases
  rw [hm]
  cases p.manager with
  | readExit =>
      dsimp only
      rw [hexit, if_pos rfl]
      omega
  | _ => rfl

theorem worker_inv (h : Inv s) {i : Nat} {p : Threadpool τ}
    (hup : s.asleep[i]? ≠ some true) (hone : WorkerStep s.pool i p)
    {started : List τ} : Inv { s with pool := p, started := started } := by
  have hworkers : exists w, p.workers = s.pool.workers.set i w := by
    cases hone <;> exact ⟨_, rfl⟩
  have hexit : p.exitNum < 2 ^ 31 := by
    cases hone with
    | leaves hw hpos => exact wrap32_lt _
    | _ => exact h.exit_lt
  rcases hworkers with ⟨w, hw⟩
  exact setWorker_inv h hup hw hexit

theorem busy_waitSet {i : Nat} {w : Worker τ} (w' : Worker τ)
    (hw : s.pool.workers[i]? = some w) (hreturned : w.returned = false)
    (hreturned' : w'.returned = false) (hasleep : s'.asleep = s.asleep)
    (hnotifies : s'.notifies = s.notifies)
    (hworkers : s'.pool.workers = (s.pool.setWorker i w').workers)
    (htasks : s'.pool.tasks = s.pool.tasks)
    (hexit : s'.pool.exitNum = s.pool.exitNum)
    (hreleases : releases s'.pool = releases s.pool) :
    s'.waitSet = s.waitSet := by
  have halive : s'.pool.alive = s.pool.alive := by
    have hcount : (s.pool.setWorker i w').alive +
        (if w'.returned then 1 else 0) = s.pool.alive :=
      alive_setWorker hw hreturned
    rw [hreturned'] at hcount
    have hsame : s'.pool.alive = (s.pool.setWorker i w').alive := by
      unfold alive
      rw [hworkers]
    rw [hsame]
    exact hcount
  unfold waitSet movers sleepers
  rw [halive, hasleep, hnotifies, htasks, hexit, hreleases]

theorem waiting_cases {p p' : Threadpool τ} {i : Nat}
    (hw : p.workers[i]? = some Worker.waiting)
    (hstep : p.workerStep i = some p') :
    (0 < p.exitNum ∧ p' = { p.setWorker i Worker.exited with
        exitNum := wrap32 (p.exitNum - 1) }) ∨
      (¬ 0 < p.exitNum ∧ p.tasks = [] ∧ p' = p.setWorker i Worker.exited) ∨
      (¬ 0 < p.exitNum ∧ exists t rest, p.tasks = t :: rest ∧
        p' = { p.setWorker i (Worker.popped t) with tasks := rest }) := by
  simp only [workerStep, hw, takeTask] at hstep
  split at hstep
  · rename_i hpos
    cases hstep
    exact Or.inl ⟨hpos, rfl⟩
  · rename_i hpos
    cases htasks : p.tasks with
    | nil =>
        simp only [htasks] at hstep
        split at hstep
        · cases hstep
          exact Or.inr (Or.inl ⟨hpos, rfl, rfl⟩)
        · cases hstep
    | cons t rest =>
        simp only [htasks, Option.some.injEq] at hstep
        exact Or.inr (Or.inr ⟨hpos, t, rest, rfl, hstep.symm⟩)

theorem waiting_matched (h : Inv s) {i : Nat} {p : Threadpool τ}
    (hup : s.asleep[i]? ≠ some true)
    (hw : s.pool.workers[i]? = some Worker.waiting)
    (hstep : s.pool.workerStep i = some p) (woken : List Nat)
    (started : List τ) :
    StepFn.Matches WaitSet.step s.waitSet
      ({ s with pool := p, started := started } : Wakeups τ).waitSet
      (label s (Action.pool (Threadpool.Action.worker i) woken)) := by
  have hlabel : label s (Action.pool (Threadpool.Action.worker i) woken) =
        if 0 < s.pool.exitNum then
          some (WaitSet.Action.leave
            (if s.pool.manager = Manager.readExit then 1 else 0))
        else if s.pool.tasks.isEmpty then some WaitSet.Action.depart
        else some WaitSet.Action.take :=
    if_pos (waits_iff.mpr hw)
  have hgone : (s.pool.setWorker i Worker.exited).alive + 1 =
      s.pool.alive := alive_setWorker hw rfl
  have hlt := sleepers_lt_alive h hw rfl hup
  have hmovers : 0 < s.waitSet.movers := Nat.sub_pos_of_lt hlt
  have hless : s.pool.alive - s.sleepers - 1 =
      (s.pool.setWorker i Worker.exited).alive - s.sleepers := by
    omega
  rw [hlabel]
  rcases waiting_cases hw hstep with ⟨hpos, rfl⟩ | ⟨hpos, htasks, rfl⟩ |
    ⟨hpos, t, rest, htasks, rfl⟩
  · -- It leaves through `exit_num`.
    have hpred := wrap32_pred hpos h.exit_lt
    have hreleases := releases_leave (p := s.pool)
      (q := { s.pool.setWorker i Worker.exited with
        exitNum := wrap32 (s.pool.exitNum - 1) }) rfl hpred hpos
    have hwork : 0 < s.waitSet.work := by
      show 0 < s.pool.tasks.length + s.pool.exitNum.toNat
      omega
    have hcancel : (if s.pool.manager = Manager.readExit then 1 else 0) <=
        s.waitSet.signals := by
      show _ <= s.notifies + releases s.pool
      rw [<- hreleases]
      exact Nat.le_trans (Nat.le_add_left ..) (Nat.le_add_left ..)
    rw [if_pos hpos]
    show (if _ then _ else none) = _
    rw [if_pos ⟨hwork, hmovers, hcancel⟩]
    refine congrArg some ((WaitSet.mk.injEq ..).mpr ⟨?_, hless, ?_, rfl⟩)
    · show s.pool.tasks.length + s.pool.exitNum.toNat - 1 =
        s.pool.tasks.length + (wrap32 (s.pool.exitNum - 1)).toNat
      rw [hpred]
      omega
    · show s.notifies + releases s.pool - _ = s.notifies + releases _
      rw [<- hreleases, <- Nat.add_assoc]
      exact Nat.add_sub_cancel ..
  · -- It returns, since the pool is shut down.
    have hwork : s.waitSet.work = 0 := by
      show s.pool.tasks.length + s.pool.exitNum.toNat = 0
      rw [htasks, Int.toNat_of_nonpos (Int.not_lt.mp hpos)]
      rfl
    rw [if_neg hpos, htasks]
    show (if _ then _ else none) = _
    rw [if_pos ⟨hwork, hmovers⟩]
    exact congrArg some ((WaitSet.mk.injEq ..).mpr ⟨rfl, hless, rfl, rfl⟩)
  · -- It takes a task.
    have hwork : 0 < s.waitSet.work := by
      show 0 < s.pool.tasks.length + s.pool.exitNum.toNat
      rw [htasks, List.length_cons]
      omega
    have hsame : (s.pool.setWorker i (Worker.popped t)).alive + 0 =
        s.pool.alive := alive_setWorker hw rfl
    rw [if_neg hpos, htasks]
    show (if _ then _ else none) = _
    rw [if_pos ⟨hwork, hmovers⟩]
    refine congrArg some ((WaitSet.mk.injEq ..).mpr ⟨?_, ?_, rfl, rfl⟩)
    · show s.pool.tasks.length + s.pool.exitNum.toNat - 1 =
        rest.length + s.pool.exitNum.toNat
      rw [htasks, List.length_cons]
      omega
    · show s.pool.alive - s.sleepers =
        (s.pool.setWorker i (Worker.popped t)).alive + 0 - s.sleepers
      rw [hsame]

theorem worker_fits (h : Inv s) {i : Nat} {woken : List Nat}
    (hstep : step s (Action.pool (Threadpool.Action.worker i) woken) =
      some s') :
    Fits s (Action.pool (Threadpool.Action.worker i) woken) s' := by
  rcases step_pool hstep with ⟨p, hp, hs⟩
  simp only [poolStep] at hs
  split at hs
  · cases hs
  · rename_i hup
    cases hs
    have hone : s.pool.workerStep i = some p := hp
    have hcases := workerStep_cases hone
    refine ⟨worker_inv h hup hcases, ?_⟩
    have hbusy : forall w : Worker τ, s.pool.workers[i]? = some w ->
        w ≠ Worker.waiting ->
        label s (Action.pool (Threadpool.Action.worker i) woken) = none := by
      intro w hw hne
      have hno : waits s.pool i ≠ true := by
        intro hyes
        rw [waits_iff.mp hyes] at hw
        exact hne (Option.some.inj hw).symm
      exact if_neg hno
    cases hcases with
    | leaves hw hpos => exact waiting_matched h hup hw hone woken _
    | returns hw hnone hset => exact waiting_matched h hup hw hone woken _
    | takes t rest hw htasks => exact waiting_matched h hup hw hone woken _
    | countsRun t hw =>
        rw [hbusy _ hw fun hne => by cases hne]
        show waitSet _ = s.waitSet
        exact busy_waitSet (Worker.counted t) hw rfl rfl rfl rfl rfl rfl rfl rfl
    | countsLive t hw =>
        rw [hbusy _ hw fun hne => by cases hne]
        show waitSet _ = s.waitSet
        exact busy_waitSet (Worker.runs t) hw rfl rfl rfl rfl rfl rfl rfl rfl
    | finishes t hw =>
        rw [hbusy _ hw fun hne => by cases hne]
        show waitSet _ = s.waitSet
        exact busy_waitSet Worker.waiting hw rfl rfl rfl rfl rfl rfl rfl rfl

theorem step_fits (h : Inv s) {a : Action τ} (hstep : step s a = some s') :
    Fits s a s' := by
  cases a with
  | sleep i => exact sleep_fits h hstep
  | wakeUp i => exact wakeUp_fits h hstep
  | notifyOne woken => exact notifyOne_fits h hstep
  | pool a woken =>
      cases a with
      | addTask t => exact addTask_fits h hstep
      | tShutdown => exact tShutdown_fits h hstep
      | owner => exact owner_fits h hstep
      | manager => exact manager_fits h hstep
      | worker i => exact worker_fits h hstep

theorem waitSet_maps :
    StepFn.Maps step WaitSet.step (Inv (τ := τ)) waitSet label where
  keeps := fun _ _ _ h hstep => (step_fits h hstep).left
  matched := fun _ _ _ h hstep => (step_fits h hstep).right

/-!
# No wake-up is lost
-/

theorem start_inv (num hardware : Nat) :
    Inv (start num hardware : Wakeups τ) where
  length := rfl
  waiting := nofun
  exit_lt := by
    show (0 : Int) < 2 ^ 31
    decide

theorem keepsCover_iff {a : Action τ} (hcovered : s.Covered)
    (hstep : step s a = some s') :
    (forall x, label s a = some x -> s.waitSet.KeepsCover x) <->
      ExitsToSpare s a := by
  cases a with
  | sleep i => exact iff_of_true (fun x hx => by cases hx; nofun) trivial
  | wakeUp i => exact iff_of_true (fun x hx => by cases hx; nofun) trivial
  | notifyOne woken =>
      exact iff_of_true (fun x hx => by cases hx; nofun) trivial
  | pool a woken =>
      cases a with
      | addTask t =>
          refine iff_of_true ?_ trivial
          intro x hx cancelled hleave
          rw [hleave] at hx
          simp only [label] at hx
          split at hx
          · cases hx
          · cases hx
      | tShutdown => exact iff_of_true nofun trivial
      | owner =>
          refine iff_of_true ?_ trivial
          intro x hx cancelled hleave
          rw [hleave] at hx
          simp only [label] at hx
          split at hx
          · split at hx
            · cases hx
            · cases hx
          · cases hx
          · cases hx
      | manager =>
          refine iff_of_true ?_ trivial
          intro x hx cancelled hleave
          rw [hleave] at hx
          simp only [label] at hx
          split at hx
          · cases hx
          · cases hx
          · cases hx
          · cases hx
      | worker i =>
          constructor
          · intro hall hwaits hpos hread hsleepers
            have hlabel : label s (Action.pool
                (Threadpool.Action.worker i) woken) =
                  some (WaitSet.Action.leave 1) := by
              simp only [label, hwaits, hpos, hread, if_true]
            exact hall _ hlabel 1 rfl hsleepers
          · intro hspare x hx cancelled hleave hsleepers
            rw [hleave] at hx
            simp only [label] at hx
            split at hx
            · rename_i hwaits
              split at hx
              · rename_i hpos
                by_cases hread : s.pool.manager = Manager.readExit
                · rw [if_pos hread] at hx
                  cases hx
                  exact hspare hwaits hpos hread hsleepers
                · rw [if_neg hread] at hx
                  cases hx
                  exact hcovered hsleepers
              · split at hx
                · cases hx
                · cases hx
            · cases hx

theorem step_covered_iff {a : Action τ} (h : Inv s) (hcovered : s.Covered)
    (hstep : step s a = some s') : s'.Covered <-> ExitsToSpare s a := by
  rw [<- keepsCover_iff hcovered hstep]
  exact waitSet_maps.step_iff
    (fun _ _ _ hq hx => WaitSet.step_covered_iff hq hx) h hcovered hstep

instance (s : Wakeups τ) (a : Action τ) : Decidable (s.ExitsToSpare a) :=
  match a with
  | Action.pool (Threadpool.Action.worker i) _ =>
      inferInstanceAs (Decidable (waits s.pool i = true ->
        0 < s.pool.exitNum -> s.pool.manager = Manager.readExit ->
          0 < s.sleepers ->
            s.pool.tasks.length + s.pool.exitNum.toNat + 1 <=
              s.movers + (s.notifies + releases s.pool)))
  | Action.pool Threadpool.Action.owner _
  | Action.pool Threadpool.Action.tShutdown _
  | Action.pool (Threadpool.Action.addTask _) _
  | Action.pool Threadpool.Action.manager _
  | Action.sleep _ | Action.wakeUp _ | Action.notifyOne _ =>
      inferInstanceAs (Decidable True)

def managerSteps (n : Nat) : List (Action Nat) :=
  List.replicate n (Action.pool Threadpool.Action.manager [])

/--
The manager adds two threads for a task and then finds one too many.  The task
is done, and all three threads sleep, when it is about to store to `exit_num`.
-/
def surplusFound : List (Action Nat) :=
  [Action.pool Threadpool.Action.owner [],
    Action.pool Threadpool.Action.owner [],
    Action.pool (Threadpool.Action.addTask 1) []] ++
  managerSteps 11 ++
  [Action.notifyOne [], Action.pool (Threadpool.Action.worker 0) [],
    Action.pool (Threadpool.Action.worker 0) [],
    Action.pool (Threadpool.Action.worker 0) [],
    Action.pool (Threadpool.Action.worker 0) [],
    Action.sleep 0, Action.sleep 1, Action.sleep 2]

def exitAndTask : List (Action Nat) :=
  surplusFound ++
  [Action.pool (Threadpool.Action.addTask 2) [],
    Action.pool Threadpool.Action.manager [],
    Action.pool Threadpool.Action.manager [],
    Action.pool Threadpool.Action.manager [1], Action.notifyOne [0],
    Action.pool (Threadpool.Action.worker 1) []]

/--
The worker that was notified of a task takes the exit before the manager reads
`exit_num` again, which then notifies nobody: the task is left to sleepers.
-/
theorem exit_before_read_strands_task :
    exists acts, exists t, StepFn.run step (start 1 3 : Wakeups Nat) acts =
        some t ∧
      t.pool.tasks = [2] ∧ t.sleepers = 2 ∧ t.movers = 0 ∧
      t.notifies + releases t.pool = 0 := by
  have hreached : (StepFn.run step (start 1 3) (surplusFound ++
      [Action.pool (Threadpool.Action.addTask 2) [], Action.notifyOne [0],
        Action.pool Threadpool.Action.manager [],
        Action.pool (Threadpool.Action.worker 0) [],
        Action.pool Threadpool.Action.manager [],
        Action.pool Threadpool.Action.manager []])).any (fun t =>
      decide (t.pool.tasks = [2] ∧ t.sleepers = 2 ∧ t.movers = 0 ∧
        t.notifies + releases t.pool = 0)) = true := by
    decide +kernel
  rcases (Option.any_eq_true _ _).mp hreached with ⟨t, hrun, hend⟩
  exact ⟨_, t, hrun, of_decide_eq_true hend⟩

end Wakeups

end MoonNet
