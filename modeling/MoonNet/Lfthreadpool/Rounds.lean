import MoonNet.Foundation.Rotation
import MoonNet.Lfthreadpool.Evenness
import MoonNet.Looptpool.Count

/-!
# Dispatch in turns is fair

Without dynamic dispatch the loops of a pool take turns, and so do the workers
of a pool in static mode, whatever their queues hold and whether or not the one
whose turn it is accepts the task.
-/

namespace MoonNet

open Foundation
open Foundation.Rotation

universe u v

/-!
## Loops
-/

namespace CalledPool

variable {E : Type u} {s : CalledPool E}

/-- A pool of `t` loops that take turns, the last of which had loop `start`. -/
structure InTurns (t start : Nat) (s : CalledPool E) : Prop where
  tNum_eq : s.tNum = t
  length_eq : s.loadvec.length = t
  dispath_eq : s.dispath = false
  next_eq : s.next = start

theorem evDispatch_turn {t start : Nat} (ht : 0 < t) (h : InTurns t start s) :
    exists s', s.evDispatch = some (s', some ((start + 1) % t)) ∧
      InTurns t ((start + 1) % t) s' := by
  have hpos : s.tNum ≠ 0 := by
    rw [h.tNum_eq]
    omega
  have hnext : (s.next + 1).tmod s.tNum = (((start + 1) % t : Nat) : Int) := by
    rw [h.next_eq, h.tNum_eq, Int.ofNat_tmod]
    rfl
  have hlt : (((start + 1) % t : Nat) : Int) < s.loadvec.length := by
    rw [h.length_eq]
    exact Int.ofNat_lt.mpr (Nat.mod_lt _ ht)
  refine ⟨{ s with next := ((start + 1) % t : Nat) }, ?_,
    ⟨h.tNum_eq, h.length_eq, h.dispath_eq, rfl⟩⟩
  unfold evDispatch
  rw [if_neg hpos, h.dispath_eq, if_neg (by decide)]
  dsimp only
  rw [hnext, if_pos ⟨Int.natCast_nonneg _, hlt⟩, Int.toNat_natCast]

def dispatches (s : CalledPool E) (n : Nat) :
    Option (CalledPool E × List (Option Nat)) :=
  OutStepFn.runOut (fun (s : CalledPool E) (_ : Unit) => s.evDispatch) s
    (List.replicate n ())

theorem dispatches_turns {t start : Nat} (ht : 0 < t) (h : InTurns t start s)
    (n : Nat) :
    exists s', s.dispatches n = some (s', (turns t start n).map some) := by
  induction n generalizing s start with
  | zero =>
      exact ⟨s, rfl⟩
  | succ n ih =>
      rcases evDispatch_turn ht h with ⟨m, hm, hturn⟩
      rcases ih hturn with ⟨s', hs'⟩
      refine ⟨s', ?_⟩
      rw [turns_cons, List.map_cons]
      unfold dispatches at hs' ⊢
      rw [List.replicate_succ]
      simp only [OutStepFn.runOut, hm]
      rw [hs']
      rfl

theorem createPoolNoadjust_inTurns (fd : E -> Int) (mask : E -> Mask)
    (refused : E -> Bool) (base : Eventloop E) (dispath : Bool)
    (timeout : Int) (wakeup : Nat -> E) (t start : Nat) :
    InTurns t start
      { (new base dispath).createPoolNoadjust fd mask refused t timeout
          wakeup with next := start } := by
  cases dispath <;> exact {
    tNum_eq := rfl
    length_eq := by
      simp [createPoolNoadjust, stopAdjust, initPool, settnumNoadjust, new]
    dispath_eq := rfl
    next_eq := rfl }

end CalledPool

/-!
## Workers
-/

inductive AddCall (τ : Type v) where
  | addTask (task : Task τ)
  | addTaskMove (task : Task τ)
  | work (buffers : List (Ringbuff (Task τ)))

namespace AddCall

variable {τ : Type v}

def isAdd : AddCall τ -> Bool
  | work _ => false
  | _ => true

end AddCall

/-- What `moved` leaves in the caller's task is not read again. -/
def PoolWorker.enqueueTaskMove {τ : Type v} (moved : Task τ -> Task τ)
    (w : PoolWorker τ) (task : Task τ) : Option (PoolWorker τ × Bool) :=
  (w.buffer.pushMove moved task).map fun r =>
    ({ w with buffer := r.fst }, r.snd.fst)

namespace Lfthreadpool

variable {τ : Type v} (moved : Task τ -> Task τ)

/--
The body that `add_task` and `add_task_move` share: the pool, what the call
returns, and the index of the worker whose queue it has used.
-/
def addWith (enqueue : PoolWorker τ -> Option (PoolWorker τ × Bool))
    (p : Lfthreadpool τ) : Option (Lfthreadpool τ × Bool × Option Nat) :=
  if p.shutdown then some (p, false, none)
  else
    let q := p.getnext
    match q.fst.workers[q.snd]? with
    | none => some (q.fst, false, some q.snd)
    | some w =>
        (enqueue w).map fun r =>
          ({ q.fst with workers := q.fst.workers.set q.snd r.fst }, r.snd,
            some q.snd)

theorem addTask_eq (p : Lfthreadpool τ) (task : Task τ) :
    p.addTask task = (p.addWith fun w => w.enqueueTask task).map fun r =>
      (r.fst, r.snd.fst) := by
  unfold addTask addWith
  split
  · rfl
  · dsimp only
    cases p.getnext.fst.workers[p.getnext.snd]? with
    | none => rfl
    | some w =>
        dsimp only
        rw [Option.map_map]
        rfl

def addTaskMove (p : Lfthreadpool τ) (task : Task τ) :
    Option (Lfthreadpool τ × Bool) :=
  (p.addWith fun w => w.enqueueTaskMove moved task).map fun r =>
    (r.fst, r.snd.fst)

def addCall (p : Lfthreadpool τ) :
    AddCall τ -> Option (Lfthreadpool τ × Option Nat)
  | AddCall.addTask task =>
      (p.addWith fun w => w.enqueueTask task).map fun r => (r.fst, r.snd.snd)
  | AddCall.addTaskMove task =>
      (p.addWith fun w => w.enqueueTaskMove moved task).map fun r =>
        (r.fst, r.snd.snd)
  | AddCall.work buffers =>
      if buffers.length = p.workers.length then
        some ({ p with
          workers := List.zipWith
            (fun w buffer => { w with buffer := buffer }) p.workers buffers },
          none)
      else none

theorem addCall_addTask (p : Lfthreadpool τ) (task : Task τ) :
    (p.addCall moved (AddCall.addTask task)).map Prod.fst =
      (p.addTask task).map Prod.fst := by
  rw [addTask_eq, addCall, Option.map_map, Option.map_map]
  rfl

theorem addCall_addTaskMove (p : Lfthreadpool τ) (task : Task τ) :
    (p.addCall moved (AddCall.addTaskMove task)).map Prod.fst =
      (p.addTaskMove moved task).map Prod.fst := by
  rw [addTaskMove, addCall, Option.map_map, Option.map_map]
  rfl

/-- A pool of `t` workers that take turns, the last of which had `start`. -/
structure InTurns (t start : Nat) (p : Lfthreadpool τ) : Prop where
  mode_eq : p.mode = PoolMode.static
  running : p.shutdown = false
  tnum_eq : p.tnum = t
  length_eq : p.workers.length = t
  next_eq : p.next = start

section Turns

variable {moved} {t start : Nat} {p p' : Lfthreadpool τ}

theorem InTurns.getnext_eq (h : InTurns t start p) :
    p.getnext = ({ p with next := (start + 1) % t }, (start + 1) % t) := by
  unfold getnext
  rw [h.mode_eq]
  dsimp only
  rw [h.next_eq, h.tnum_eq]

theorem addWith_eq (ht : 0 < t) (h : InTurns t start p)
    (enqueue : PoolWorker τ -> Option (PoolWorker τ × Bool)) :
    exists w, p.workers[(start + 1) % t]? = some w ∧
      p.addWith enqueue = (enqueue w).map fun r =>
        ({ p with
          next := (start + 1) % t
          workers := p.workers.set ((start + 1) % t) r.fst }, r.snd,
          some ((start + 1) % t)) := by
  have hlt : (start + 1) % t < p.workers.length := by
    rw [h.length_eq]
    exact Nat.mod_lt _ ht
  refine ⟨_, List.getElem?_eq_getElem hlt, ?_⟩
  have hopen : ¬ p.shutdown = true := by
    rw [h.running]
    decide
  unfold addWith
  rw [if_neg hopen, h.getnext_eq]
  dsimp only
  rw [List.getElem?_eq_getElem hlt]

theorem addWith_inTurns (ht : 0 < t) (h : InTurns t start p)
    {enqueue : PoolWorker τ -> Option (PoolWorker τ × Bool)} {ok : Bool}
    {pick : Option Nat} (hadd : p.addWith enqueue = some (p', ok, pick)) :
    pick = some ((start + 1) % t) ∧ InTurns t ((start + 1) % t) p' := by
  rcases addWith_eq ht h enqueue with ⟨w, _, heq⟩
  rw [heq] at hadd
  rcases Option.map_eq_some_iff.mp hadd with ⟨r, _, hp'⟩
  cases hp'
  exact ⟨rfl, h.mode_eq, h.running, h.tnum_eq,
    List.length_set.trans h.length_eq, rfl⟩

theorem addCall_add (ht : 0 < t) (h : InTurns t start p) {a : AddCall τ}
    (ha : a.isAdd = true) {pick : Option Nat}
    (hcall : p.addCall moved a = some (p', pick)) :
    pick = some ((start + 1) % t) ∧ InTurns t ((start + 1) % t) p' := by
  cases a with
  | addTask task =>
      rcases Option.map_eq_some_iff.mp hcall with ⟨r, hr, hp'⟩
      cases hp'
      exact addWith_inTurns ht h hr
  | addTaskMove task =>
      rcases Option.map_eq_some_iff.mp hcall with ⟨r, hr, hp'⟩
      cases hp'
      exact addWith_inTurns ht h hr
  | work buffers => cases ha

theorem addCall_work (h : InTurns t start p) {a : AddCall τ}
    (ha : a.isAdd = false) {pick : Option Nat}
    (hcall : p.addCall moved a = some (p', pick)) :
    pick = none ∧ InTurns t start p' := by
  cases a with
  | addTask task => cases ha
  | addTaskMove task => cases ha
  | work buffers =>
      simp only [addCall] at hcall
      split at hcall
      · rename_i hlength
        cases hcall
        refine ⟨rfl, h.mode_eq, h.running, h.tnum_eq, ?_, h.next_eq⟩
        rw [List.length_zipWith, hlength, Nat.min_self, h.length_eq]
      · cases hcall

theorem addCalls_turns (ht : 0 < t) (h : InTurns t start p)
    {calls : List (AddCall τ)} {picks : List (Option Nat)}
    (hrun : OutStepFn.runOut (addCall moved) p calls = some (p', picks)) :
    picks.filterMap id = turns t start (calls.countP AddCall.isAdd) := by
  induction calls generalizing p start picks with
  | nil =>
      cases hrun
      rfl
  | cons a rest ih =>
      simp only [OutStepFn.runOut] at hrun
      split at hrun
      · cases hrun
      · rename_i q pick hcall
        rcases Option.map_eq_some_iff.mp hrun with ⟨r, hr, hp'⟩
        cases hp'
        cases ha : a.isAdd with
        | true =>
            rcases addCall_add ht h ha hcall with ⟨hpick, hq⟩
            rw [List.countP_cons_of_pos ha, turns_cons, <- ih hq hr, hpick]
            rfl
        | false =>
            rcases addCall_work h ha hcall with ⟨hpick, hq⟩
            rw [List.countP_cons_of_neg (by rw [ha]; decide), <- ih hq hr,
              hpick]
            rfl

/-!
## The calls return
-/

def AllMade (size : Nat) (p : Lfthreadpool τ) : Prop :=
  forall w, w ∈ p.workers -> w.buffer.MadeWith size

def MadeWork (t size : Nat) : AddCall τ -> Prop
  | AddCall.work buffers =>
      buffers.length = t ∧ forall b, b ∈ buffers -> b.MadeWith size
  | _ => True

theorem pushWith_returns {size : Nat} (hsize : size <= 2 ^ 63)
    {b : Ringbuff (Task τ)} (hb : b.MadeWith size) (left : Task τ -> Task τ)
    (task : Task τ) :
    exists r, b.pushWith left task = some r ∧ r.fst.MadeWith size := by
  have hvalid := hb.valid hsize
  by_cases hfull : b.held = b.capacity - 1
  · exact ⟨_, Ringbuff.pushWith_full left hvalid hfull task, hb⟩
  · rcases Ringbuff.pushWith_room left hvalid hfull task with
      ⟨b', hb', hvalid', hcapacity, _⟩
    refine ⟨_, hb', hcapacity.trans hb.capacity_eq, ?_,
      Or.inl ⟨hvalid'.head_lt, hvalid'.tail_lt⟩⟩
    exact hvalid'.block.trans (hcapacity.trans hb.capacity_eq)

theorem addWith_returns {size : Nat} (ht : 0 < t) (h : InTurns t start p)
    (hmade : p.AllMade size)
    {enqueue : PoolWorker τ -> Option (PoolWorker τ × Bool)}
    (henqueue : forall w, w.buffer.MadeWith size ->
      exists r, enqueue w = some r ∧ r.fst.buffer.MadeWith size) :
    exists r, p.addWith enqueue = some r ∧ InTurns t ((start + 1) % t) r.fst ∧
      r.fst.AllMade size := by
  rcases addWith_eq ht h enqueue with ⟨w, hw, heq⟩
  rcases henqueue w (hmade w (List.mem_of_getElem? hw)) with ⟨r, hr, hmade'⟩
  rw [hr, Option.map_some] at heq
  refine ⟨_, heq, (addWith_inTurns ht h heq).right, ?_⟩
  intro w' hw'
  rcases List.mem_or_eq_of_mem_set hw' with hmem | hnew
  · exact hmade w' hmem
  · subst hnew
    exact hmade'

theorem addCall_returns (moved : Task τ -> Task τ) {size : Nat}
    (hsize : size <= 2 ^ 63) (ht : 0 < t)
    (h : InTurns t start p) (hmade : p.AllMade size) {a : AddCall τ}
    (ha : MadeWork t size a) :
    exists r start', p.addCall moved a = some r ∧ InTurns t start' r.fst ∧
      r.fst.AllMade size := by
  have hpush : forall (left : Task τ -> Task τ) (task : Task τ)
      (w : PoolWorker τ), w.buffer.MadeWith size ->
      exists r, ((w.buffer.pushWith left task).map fun r =>
          (({ w with buffer := r.fst } : PoolWorker τ), r.snd.fst)) =
        some r ∧ r.fst.buffer.MadeWith size := by
    intro left task w hw
    rcases pushWith_returns hsize hw left task with ⟨r, hr, hmade'⟩
    exact ⟨_, by rw [hr, Option.map_some], hmade'⟩
  cases a with
  | addTask task =>
      rcases addWith_returns ht h hmade (hpush id task) with
        ⟨r, hr, hturns, hmade'⟩
      exact ⟨(r.fst, r.snd.snd), _, congrArg (Option.map _) hr, hturns, hmade'⟩
  | addTaskMove task =>
      rcases addWith_returns ht h hmade (hpush moved task) with
        ⟨r, hr, hturns, hmade'⟩
      exact ⟨(r.fst, r.snd.snd), _, congrArg (Option.map _) hr, hturns, hmade'⟩
  | work buffers =>
      have hlength : buffers.length = p.workers.length :=
        ha.left.trans h.length_eq.symm
      have hcall : p.addCall moved (AddCall.work buffers) = some
          ({ p with
            workers := List.zipWith
              (fun w buffer => { w with buffer := buffer }) p.workers
                buffers }, none) := if_pos hlength
      refine ⟨_, start, hcall, (addCall_work h rfl hcall).right, ?_⟩
      intro w hw
      rcases List.mem_iff_getElem?.mp hw with ⟨i, hi⟩
      rw [List.getElem?_zipWith_eq_some] at hi
      rcases hi with ⟨w', b, _, hb, heq⟩
      subst heq
      exact ha.right b (List.mem_of_getElem? hb)

theorem addCalls_return {size : Nat} (hsize : size <= 2 ^ 63) (ht : 0 < t)
    (h : InTurns t start p) (hmade : p.AllMade size)
    {calls : List (AddCall τ)}
    (hcalls : forall a, a ∈ calls -> MadeWork t size a) :
    (OutStepFn.runOut (addCall moved) p calls).isSome := by
  induction calls generalizing p start with
  | nil =>
      rfl
  | cons a rest ih =>
      rcases addCall_returns moved hsize ht h hmade
        (hcalls a List.mem_cons_self) with ⟨r, start', hr, hturns, hmade'⟩
      simp only [OutStepFn.runOut, hr, Option.isSome_map]
      exact ih hturns hmade' fun b hb => hcalls b (List.mem_cons_of_mem a hb)

end Turns

end Lfthreadpool

/--
Each of `t` loops or workers that take turns is picked `n / t` times in `n`
calls, rounded down or up.  The calls of a pool of workers return as long as its
ring buffers have cells.
-/
theorem turns_are_fair {E : Type u} {τ : Type v} (fd : E -> Int)
    (mask : E -> Mask) (refused : E -> Bool) (base : Eventloop E)
    (dispath : Bool) (timeout : Int) (wakeup : Nat -> E)
    (moved : Task τ -> Task τ) (t start n : Nat) (p : Lfthreadpool τ)
    (calls : List (AddCall τ)) (ht : 0 < t) (hp : p.InTurns t start)
    (hn : calls.countP AddCall.isAdd = n) :
    (exists s picks,
      CalledPool.dispatches
        { (CalledPool.new base dispath).createPoolNoadjust fd mask refused t
            timeout wakeup with next := start } n =
          some (s, List.map some picks) ∧ Fair t n picks) ∧
      (forall p' picks,
        OutStepFn.runOut (Lfthreadpool.addCall moved) p calls =
            some (p', picks) -> Fair t n (picks.filterMap id)) ∧
      (forall size, size <= 2 ^ 63 -> p.AllMade size ->
        (forall a, a ∈ calls -> Lfthreadpool.MadeWork t size a) ->
          (OutStepFn.runOut (Lfthreadpool.addCall moved) p calls).isSome) := by
  refine ⟨?_, ?_, ?_⟩
  · have hturns := CalledPool.createPoolNoadjust_inTurns fd mask refused base
      dispath timeout wakeup t start
    rcases CalledPool.dispatches_turns ht hturns n with ⟨s, hs⟩
    exact ⟨s, turns t start n, hs, turns_fair ht⟩
  · intro p' picks hrun
    rw [Lfthreadpool.addCalls_turns ht hp hrun, hn]
    exact turns_fair ht
  · intro size hsize hmade hcalls
    exact Lfthreadpool.addCalls_return hsize ht hp hmade hcalls

def threeWorkers : Lfthreadpool Nat :=
  { poolOfHeads 4 [3, 0, 1] with mode := PoolMode.static, next := 1 }

def fourTasks : List (AddCall Nat) :=
  [AddCall.addTask (Task.client 5), AddCall.addTask (Task.client 6),
    AddCall.addTaskMove (Task.client 7), AddCall.addTask (Task.client 8)]

theorem turns_are_fair_threeMembers :
    (exists s picks,
      CalledPool.dispatches
        { (CalledPool.new (Eventloop.new 3) true).createPoolNoadjust
            (fun e : Nat => (e : Int)) (fun _ => EPOLLIN) (fun _ => false)
            (3 : Nat) (-1) (fun i => 4 + i) with next := (1 : Nat) } 4 =
          some (s, List.map some picks) ∧ Fair 3 4 picks) ∧
      (forall p' picks,
        OutStepFn.runOut (Lfthreadpool.addCall id) threeWorkers fourTasks =
            some (p', picks) -> Fair 3 4 (picks.filterMap id)) ∧
      (forall size, size <= 2 ^ 63 -> threeWorkers.AllMade size ->
        (forall a, a ∈ fourTasks -> Lfthreadpool.MadeWork 3 size a) ->
          (OutStepFn.runOut (Lfthreadpool.addCall id) threeWorkers
            fourTasks).isSome) :=
  turns_are_fair _ _ _ _ _ _ _ id 3 1 4 threeWorkers fourTasks (by decide)
    ⟨rfl, rfl, rfl, rfl, rfl⟩ rfl

end MoonNet
