import MoonNet.Foundation.Loop
import MoonNet.Threadpool.Bounds

/-!
# Growing when work is waiting

In a pass of `adjust_task` during which no other thread moves, the manager adds
threads if more tasks are queued than threads are idle.  The test compares the
`size_t` length of the queue with the `int` counter `live_num`, so that it fails
for a negative `live_num`.
-/

namespace MoonNet

open Foundation

universe u

namespace Threadpool

variable {τ : Type u}

/-- A step of the manager, which ends the pass when it leads back to its start. -/
def passRound (s : Threadpool τ) : Round (Threadpool τ) :=
  match s.managerStep with
  | none => Round.leave s
  | some s' =>
      match s'.manager with
      | Manager.testShutdown => Round.leave s'
      | _ => Round.again s'

/-- The manager is about to enter the body of its loop or has just done so. -/
def StartsPass (s : Threadpool τ) : Prop :=
  s.manager = Manager.testShutdown ∧ s.shutdown = false ∨
    s.manager = Manager.readThreads

/-!
# Passes end
-/

def Manager.stepsLeft : Manager -> Nat
  | Manager.testShutdown => 14
  | Manager.readThreads => 13
  | Manager.readTasks _ => 12
  | Manager.compareTasks _ _ => 11
  | Manager.compareMax _ => 10
  | Manager.addThreads _ => 9
  | Manager.readRun => 8
  | Manager.compareRun _ => 7
  | Manager.compareMin => 6
  | Manager.compareTen => 5
  | Manager.readSurplus => 4
  | Manager.storeExit _ => 3
  | Manager.readExit => 2
  | Manager.release _ => 1
  | Manager.exited => 0

theorem passRound_cases {s s' : Threadpool τ}
    (hround : passRound s = Round.again s') :
    s.managerStep = some s' ∧ s'.manager ≠ Manager.testShutdown := by
  unfold passRound at hround
  split at hround
  · cases hround
  · rename_i t hstep
    split at hround
    · cases hround
    · rename_i hne
      cases hround
      exact ⟨hstep, hne⟩

theorem passRound_again {s s' : Threadpool τ} (hstep : s.managerStep = some s')
    (hne : s'.manager ≠ Manager.testShutdown) :
    passRound s = Round.again s' := by
  unfold passRound
  rw [hstep]
  split
  · rename_i s'' heq
    cases heq
  · rename_i t heq
    cases heq
    split
    · rename_i hend
      exact absurd hend hne
    · rfl

theorem stepsLeft_lt {s s' : Threadpool τ}
    (hround : passRound s = Round.again s') :
    s'.manager.stepsLeft < s.manager.stepsLeft := by
  rcases passRound_cases hround with ⟨hstep, hne⟩
  cases hm : s.manager with
  | exited =>
      simp [managerStep, hm] at hstep
  | _ =>
      simp only [managerStep, hm, Option.some.injEq] at hstep
      subst hstep
      simp only [goto, Manager.stepsLeft] at hne ⊢
      grind

theorem pass_keeps_workers {s t : Threadpool τ}
    (h : LoopReturns passRound s t) (hlate : s.manager.stepsLeft <= 8) :
    t.workers = s.workers := by
  have hkeeps : forall {s s' : Threadpool τ}, s.managerStep = some s' ->
      s.manager.stepsLeft <= 8 -> s'.workers = s.workers := by
    intro s s' hstep hlate
    rcases (managerStep_frame hstep).workers with ⟨n, hworkers, hnone⟩
    have hzero : n = 0 := by
      apply hnone
      intro size hm
      rw [hm] at hlate
      exact absurd hlate (Nat.not_le.mpr (Nat.lt_succ_self 8))
    rw [hworkers, hzero]
    exact List.append_nil _
  refine LoopReturns.induction
    (fun s t => s.manager.stepsLeft <= 8 -> t.workers = s.workers)
    ?_ ?_ h hlate
  · intro s t hround hlate
    unfold passRound at hround
    split at hround
    · cases hround
      rfl
    · rename_i s' hstep
      split at hround
      · cases hround
        exact hkeeps hstep hlate
      · cases hround
  · intro s s' t hround _ hrest hlate
    have hless := stepsLeft_lt hround
    have hlate' : s'.manager.stepsLeft <= 8 :=
      Nat.le_trans (Nat.le_of_lt hless) hlate
    rw [hrest hlate']
    exact hkeeps (passRound_cases hround).left hlate

theorem exists_pass (s : Threadpool τ) : exists t, LoopReturns passRound s t :=
  exists_returns stepsLeft_lt s

/-!
# What a pass starts
-/

/--
Below both maxima, a pass starts threads exactly if the `size_t` comparison
finds more tasks than idle threads.
-/
theorem pass_workers {s : Threadpool τ} (hm : s.manager = Manager.readThreads)
    (hlive : s.liveNum < s.maxThrNum) (hsize : s.threadsSize < s.maxThrNum) :
    exists t, LoopReturns passRound s t ∧
      t.workers = s.workers ++
        List.replicate
          (if s.liveNum % 2 ^ 64 < s.tasks.length then
            s.addCount s.threadsSize
          else 0)
          Worker.waiting := by
  have hthreads : passRound s =
      Round.again (s.goto (Manager.readTasks s.threadsSize)) :=
    passRound_again (by simp only [managerStep, hm]) (by rintro ⟨⟩)
  have htasks : passRound (s.goto (Manager.readTasks s.threadsSize)) =
      Round.again
        (s.goto (Manager.compareTasks s.threadsSize s.tasks.length)) :=
    passRound_again rfl (by rintro ⟨⟩)
  by_cases hmore : s.liveNum % 2 ^ 64 < s.tasks.length
  · rw [if_pos hmore]
    let grown : Threadpool τ :=
      { s.addWorkers (s.addCount s.threadsSize) with
        liveNum := wrap32 (s.liveNum + s.addCount s.threadsSize)
        manager := Manager.readRun }
    have hcompare :
        passRound (s.goto (Manager.compareTasks s.threadsSize s.tasks.length))
          = Round.again (s.goto (Manager.compareMax s.threadsSize)) := by
      refine passRound_again ?_ (by rintro ⟨⟩)
      show some (s.goto (if s.liveNum % 2 ^ 64 < s.tasks.length then _
        else _)) = _
      rw [if_pos hmore]
    have hmax : passRound (s.goto (Manager.compareMax s.threadsSize)) =
        Round.again (s.goto (Manager.addThreads s.threadsSize)) := by
      refine passRound_again ?_ (by rintro ⟨⟩)
      show some (s.goto (if s.liveNum < s.maxThrNum ∧
        (s.threadsSize : Int) < s.maxThrNum then _ else _)) = _
      rw [if_pos ⟨hlive, hsize⟩]
    have hadd : passRound (s.goto (Manager.addThreads s.threadsSize)) =
        Round.again grown :=
      passRound_again rfl (by rintro ⟨⟩)
    rcases exists_pass grown with ⟨t, ht⟩
    refine ⟨t, ?_, pass_keeps_workers ht (Nat.le_refl 8)⟩
    exact LoopReturns.of_again hthreads (LoopReturns.of_again htasks
      (LoopReturns.of_again hcompare (LoopReturns.of_again hmax
        (LoopReturns.of_again hadd ht))))
  · rw [if_neg hmore, List.replicate_zero, List.append_nil]
    have hcompare :
        passRound (s.goto (Manager.compareTasks s.threadsSize s.tasks.length))
          = Round.again (s.goto Manager.readRun) := by
      refine passRound_again ?_ (by rintro ⟨⟩)
      show some (s.goto (if s.liveNum % 2 ^ 64 < s.tasks.length then _
        else _)) = _
      rw [if_neg hmore]
    rcases exists_pass (s.goto Manager.readRun) with ⟨t, ht⟩
    have hworkers := pass_keeps_workers ht (Nat.le_refl 8)
    refine ⟨t, ?_, hworkers⟩
    exact LoopReturns.of_again hthreads (LoopReturns.of_again htasks
      (LoopReturns.of_again hcompare ht))

/-!
# Runs
-/

def Wrapped (x : Int) : Prop :=
  -2 ^ 31 <= x ∧ x < 2 ^ 31

theorem wrapped_wrap32 (x : Int) : Wrapped (wrap32 x) :=
  ⟨le_wrap32 x, wrap32_lt x⟩

theorem step_wrapped {s s' : Threadpool τ} {a : Action τ}
    (h : Wrapped s.liveNum) (hstep : s.step a = some s') :
    Wrapped s'.liveNum := by
  cases a with
  | owner => cases ownerStep_cases hstep <;> exact h
  | tShutdown =>
      rw [(tShutdown_eq hstep).right]
      exact h
  | addTask t => cases (addTask_cases hstep).right <;> exact h
  | manager =>
      cases managerStep_cases hstep with
      | adds size hm => exact wrapped_wrap32 _
      | releases x hm => exact wrapped_wrap32 _
      | _ => exact h
  | worker i =>
      cases workerStep_cases hstep with
      | countsLive t hw => exact wrapped_wrap32 _
      | _ => exact h

theorem sizeT_lt_iff {live : Int} {tasks : Nat} (h : Wrapped live)
    (hlt : live < tasks) :
    live % 2 ^ 64 < tasks <-> 0 <= live ∨ 2 ^ 64 + live < tasks := by
  rcases h with ⟨hlower, hupper⟩
  by_cases hneg : live < 0
  · have hmod : live % 2 ^ 64 = 2 ^ 64 + live := by
      rw [<- Int.add_emod_left, Int.emod_eq_of_lt (by omega) (by omega)]
    rw [hmod]
    constructor
    · exact Or.inr
    · intro hor
      rcases hor with hnonneg | hmore
      · exact absurd hneg (Int.not_lt.mpr hnonneg)
      · exact hmore
  · rw [Int.emod_eq_of_lt (Int.not_lt.mp hneg) (by omega)]
    exact ⟨fun _ => Or.inl (Int.not_lt.mp hneg), fun _ => hlt⟩

/--
In every state that is reached, a pass that finds more tasks than `live_num`,
and `live_num` and the number of threads below `max_thr_num`, starts a thread
exactly if `live_num` is not negative or the queue is longer than the `size_t`
value of `live_num`.
-/
theorem pass_grows_iff (num hardware : Nat) (acts : List (Action τ))
    (s : Threadpool τ)
    (hrun : StepFn.run step (start num hardware) acts = some s)
    (hstarts : s.StartsPass) (hwaiting : s.liveNum < s.tasks.length)
    (hlive : s.liveNum < s.maxThrNum) (hsize : s.threadsSize < s.maxThrNum) :
    exists t, LoopReturns passRound s t ∧
      (s.workers.length < t.workers.length <->
        0 <= s.liveNum ∨ 2 ^ 64 + s.liveNum < s.tasks.length) := by
  have hwrapped : Wrapped s.liveNum := by
    have hstart : Wrapped (start num hardware : Threadpool τ).liveNum :=
      wrapped_wrap32 0
    exact StepFn.run_invariant
      (fun s a s' h hstep => step_wrapped h hstep) hstart hrun
  have hbody : exists t, LoopReturns passRound s t ∧
      t.workers = s.workers ++ List.replicate
        (if s.liveNum % 2 ^ 64 < s.tasks.length then
          s.addCount s.threadsSize
        else 0)
        Worker.waiting := by
    rcases hstarts with ⟨hm, hshutdown⟩ | hm
    · have hround : passRound s = Round.again (s.goto Manager.readThreads) := by
        refine passRound_again ?_ nofun
        simp only [managerStep, hm, hshutdown]
        rfl
      rcases pass_workers (s := s.goto Manager.readThreads) rfl hlive hsize
        with ⟨t, ht, hworkers⟩
      exact ⟨t, LoopReturns.of_again hround ht, hworkers⟩
    · exact pass_workers hm hlive hsize
  rcases hbody with ⟨t, ht, hworkers⟩
  refine ⟨t, ht, ?_⟩
  have hadd : 0 < s.addCount s.threadsSize := by
    unfold addCount
    omega
  rw [<- sizeT_lt_iff hwrapped hwaiting, hworkers, List.length_append,
    List.length_replicate]
  constructor
  · intro hlt
    by_contra hno
    rw [if_neg hno] at hlt
    exact Nat.lt_irrefl _ hlt
  · intro hmore
    rw [if_pos hmore]
    exact Nat.lt_add_of_pos_right hadd

/-- The first task after `init`, which has set `live_num` to 0. -/
theorem pass_grows_iff_firstTask :
    exists s t : Threadpool Nat,
      StepFn.run step (start 1 10)
          [Action.owner, Action.owner, Action.addTask 7] = some s ∧
        LoopReturns passRound s t ∧ s.workers.length < t.workers.length := by
  have hreached : exists s : Threadpool Nat,
      StepFn.run step (start 1 10)
          [Action.owner, Action.owner, Action.addTask 7] = some s ∧
        s.StartsPass ∧ s.liveNum = 0 ∧ s.tasks.length = 1 ∧
          s.maxThrNum = 11 ∧ s.threadsSize = 2 :=
    ⟨_, rfl, Or.inl ⟨rfl, rfl⟩, rfl, rfl, rfl, rfl⟩
  rcases hreached with ⟨s, hrun, hstarts, hlive, htasks, hmax, hsize⟩
  rcases pass_grows_iff 1 10 _ s hrun hstarts (by omega) (by omega) (by omega)
    with ⟨t, ht, hgrows⟩
  exact ⟨s, t, hrun, ht, hgrows.mpr (Or.inl (by omega))⟩

/-- The only thread is busy, a second task is queued, and no thread is added. -/
theorem pass_ignores_queue :
    exists s t : Threadpool Nat,
      StepFn.run step (start 1 10)
          (Action.owner :: Action.owner :: Action.addTask 7 ::
            List.replicate 3 (Action.worker 0) ++ [Action.addTask 8]) =
              some s ∧
        s.StartsPass ∧ s.liveNum < s.tasks.length ∧
          s.liveNum < s.maxThrNum ∧ s.threadsSize < s.maxThrNum ∧
            LoopReturns passRound s t ∧ t.workers = s.workers := by
  refine ⟨_, _, rfl, Or.inl ⟨rfl, rfl⟩, ?_, ?_, ?_,
    LoopReturns.of_loop (n := 14) rfl, rfl⟩
  · decide
  · decide
  · decide

end Threadpool

end MoonNet
