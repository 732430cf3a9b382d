import MoonNet.Lfthreadpool.Model
import MoonNet.Looptpool.Removal
import MoonNet.Ringbuff.Swap

/-!
# Removing a worker

`del_thread_dispath` swaps the ring buffer of the worker with the greatest load
with a new one and goes on to dispatch what the new one then holds.  `swap` has
given it the cells of the worker, but not the indices: it still looks empty, the
loop over it ends at once, and the tasks of the worker are gone.
-/

namespace MoonNet

open Foundation

universe u

namespace Ringbuff

variable {T : Type u}

/--
A ring buffer that was made with `size`, as calls leave it.  For a size above
`2 ^ 63` the block has no cells, and nothing is pushed to it.
-/
structure MadeWith (size : Nat) (r : Ringbuff T) : Prop where
  capacity_eq : r.capacity = adjSize size
  block : r.buffer.size = adjSize size
  indices : r.head < r.capacity ∧ r.tail < r.capacity ∨
    r.head = 0 ∧ r.tail = 0

theorem push_isSome_iff {r : Ringbuff T} (hhead : r.head = 0)
    (htail : r.tail = 0) {size : Nat} (hmade : r.MadeWith size)
    (hlt : size < SIZE_T) (item : T) :
    (r.push item).isSome <-> size <= 2 ^ 63 := by
  constructor
  · intro hsome
    by_contra hsize
    have hzero : adjSize size = 0 := adjSize_zero_of_lt hlt (by omega)
    have hwrite : r.buffer.write 0 item = none := by
      unfold Cells.write
      rw [if_neg (by rw [hmade.block, hzero]; exact Nat.lt_irrefl 0)]
    have hnext : next 0 0 ≠ 0 := by
      decide
    unfold push pushWith at hsome
    rw [hmade.capacity_eq, hzero, hhead, htail, if_neg hnext, hwrite] at hsome
    cases hsome
  · intro hsize
    have hpos : 0 < r.buffer.size := by
      rcases adjSize_eq hsize with ⟨k, _, hpow⟩
      rw [hmade.block, hpow]
      exact Nat.two_pow_pos k
    unfold push pushWith
    dsimp only
    split
    · rfl
    · rw [hhead, Cells.write_eq_some item hpos]
      rfl

end Ringbuff

namespace Lfthreadpool

variable {τ : Type u}

/-- A pool in dynamic mode that has not been shut down. -/
structure Serving (p : Lfthreadpool τ) : Prop where
  mode_eq : p.mode = PoolMode.dynamic
  running : p.shutdown = false
  tnum_eq : p.tnum = p.workers.length
  two_le : 2 <= p.workers.length
  buffsize_lt : p.buffsize < SIZE_T
  open_worker : forall w, w ∈ p.workers -> w.shutdown = false
  made : forall w, w ∈ p.workers -> w.buffer.MadeWith p.buffsize

def queued (p : Lfthreadpool τ) : List (Task τ) :=
  p.workers.flatMap fun w => w.buffer.contents

/-- The other workers have room for the tasks of worker `idx`. -/
def HasRoom (p : Lfthreadpool τ) (idx : Nat) (w : PoolWorker τ) : Prop :=
  w.buffer.held <=
    ((Looptpool.removeAt idx p.workers).map fun w =>
      w.buffer.capacity - 1 - w.buffer.held).sum

/--
No queued task is lost or added, and exactly worker `idx` left: each other
worker is in its place and keeps its queue.
-/
structure ConservesTasks (p p' : Lfthreadpool τ) (idx : Nat) : Prop where
  tasks : p'.queued.Perm p.queued
  one_less : p'.workers.length + 1 = p.workers.length
  tnum_eq : p'.tnum = p'.workers.length
  kept : forall (i : Nat) w, p.workers[i]? = some w -> i ≠ idx ->
    exists w',
      p'.workers[Looptpool.place p.workers.length idx i]? = some w' ∧
        w.buffer.contents <+: w'.buffer.contents

section Removal

variable {moved : Task τ -> Task τ} {p : Lfthreadpool τ} {w : PoolWorker τ}

theorem redistribute_empty {rb : Ringbuff (Task τ)} (h : rb.tail = rb.head)
    (fuel : Nat) (task : Task τ) :
    redistribute moved (fuel + 1) rb task p = some p := by
  simp [redistribute, Ringbuff.popMove, Ringbuff.popWith, h]

def without (p : Lfthreadpool τ) (idx : Nat) : Lfthreadpool τ :=
  { p with workers := Looptpool.removeAt idx p.workers, tnum := p.tnum - 1 }

theorem swapped_madeWith (hw : w.buffer.MadeWith p.buffsize) :
    (w.swapToRingbuff (Ringbuff.new (fun _ => Task.empty)
      p.buffsize)).fst.buffer.MadeWith p.buffsize where
  capacity_eq := hw.capacity_eq
  block := rfl
  indices := Or.inr ⟨rfl, rfl⟩

theorem tShutdown_isSome_iff (hw : w.buffer.MadeWith p.buffsize)
    (hopen : w.shutdown = false) (hlt : p.buffsize < SIZE_T) :
    (w.swapToRingbuff (Ringbuff.new (fun _ => Task.empty)
      p.buffsize)).fst.tShutdown.isSome <-> p.buffsize <= 2 ^ 63 := by
  have hpush := Ringbuff.push_isSome_iff rfl rfl (swapped_madeWith hw) hlt
    (Task.wakeup : Task τ)
  have hflag : (w.swapToRingbuff (Ringbuff.new (fun _ => Task.empty)
      p.buffsize)).fst.shutdown = false := hopen
  unfold PoolWorker.tShutdown
  rw [hflag, if_neg (by decide), Option.isSome_map]
  exact hpush

theorem delThreadDispath_eq (h : Serving p)
    (hw : p.workers[p.getmaxidx]? = some w) {p' : Lfthreadpool τ} :
    p.delThreadDispath moved = some p' <->
      p.buffsize <= 2 ^ 63 ∧ p' = p.without p.getmaxidx := by
  have hmem := List.mem_of_getElem? hw
  have hiff := tShutdown_isSome_iff (h.made w hmem) (h.open_worker w hmem)
    h.buffsize_lt
  unfold delThreadDispath
  simp only [hw]
  rw [<- hiff]
  cases hshut : (w.swapToRingbuff (Ringbuff.new (fun _ => Task.empty)
      p.buffsize)).fst.tShutdown with
  | none =>
      simp
  | some w' =>
      rw [Option.bind_some, redistribute_empty rfl, Option.some.injEq]
      simp [without, eq_comm]

theorem queued_perm (hw : p.workers[p.getmaxidx]? = some w) :
    p.queued.Perm (w.buffer.contents ++ (p.without p.getmaxidx).queued) :=
  (Looptpool.removeAt_perm hw).flatMap_right _

theorem without_tasks_iff (hw : p.workers[p.getmaxidx]? = some w) :
    (p.without p.getmaxidx).queued.Perm p.queued <->
      w.buffer.contents = [] := by
  have hperm := queued_perm hw
  constructor
  · intro h
    have hlen := (h.trans hperm).length_eq
    rw [List.length_append] at hlen
    exact List.eq_nil_of_length_eq_zero (by omega)
  · intro hempty
    rw [hempty, List.nil_append] at hperm
    exact hperm.symm

theorem without_length (hw : p.workers[p.getmaxidx]? = some w) :
    (p.without p.getmaxidx).workers.length + 1 = p.workers.length :=
  (Looptpool.removeAt_perm hw).length_eq.symm

theorem without_conservesTasks (h : Serving p)
    (hw : p.workers[p.getmaxidx]? = some w)
    (htasks : (p.without p.getmaxidx).queued.Perm p.queued) :
    ConservesTasks p (p.without p.getmaxidx) p.getmaxidx where
  tasks := htasks
  one_less := without_length hw
  tnum_eq := by
    have hlen := without_length hw
    show p.tnum - 1 = (p.without p.getmaxidx).workers.length
    rw [h.tnum_eq, <- hlen, Nat.add_sub_cancel]
  kept := by
    intro i w' hw' hne
    have hidx := (List.getElem?_eq_some_iff.mp hw).1
    have hi := (List.getElem?_eq_some_iff.mp hw').1
    have hplace := Looptpool.removeAt_getElem? hidx hi hne
    exact ⟨w', hplace.trans hw', List.prefix_refl _⟩

theorem selected (h : Serving p) :
    exists w, p.workers[p.getmaxidx]? = some w ∧
      forall w', w' ∈ p.workers -> w'.getload <= w.getload := by
  have hloads : p.loads = p.workers.map PoolWorker.getload := by
    unfold loads
    rw [h.tnum_eq, List.take_length]
  have hspec : exists best,
      Looptpool.FirstLeast (fun x => -x) p.loads p.getmaxidx best := by
    unfold getmaxidx
    cases hcases : p.loads with
    | nil =>
        have hlen := congrArg List.length (hloads.symm.trans hcases)
        have htwo := h.two_le
        rw [List.length_map, List.length_nil] at hlen
        omega
    | cons first rest =>
        exact Looptpool.pickIdx_greatest first rest
  rcases hspec with ⟨best, hbest⟩
  have hat := hbest.at_idx
  rw [hloads, List.getElem?_map, Option.map_eq_some_iff] at hat
  rcases hat with ⟨w, hw, hload⟩
  refine ⟨w, hw, ?_⟩
  intro w' hmem
  rcases List.getElem?_of_mem hmem with ⟨j, hj⟩
  have hle := hbest.le j w'.getload (by rw [hloads, List.getElem?_map, hj]; rfl)
  rw [hload]
  exact neg_le_neg_iff.mp hle

/--
Removing a worker conserves the queued tasks exactly if the worker that is
selected has none (and its ring buffer has cells, so that the call returns).
The room that the other workers have does not matter.
-/
theorem conservesTasks_iff (h : Serving p) :
    exists w, p.workers[p.getmaxidx]? = some w ∧
      (forall w', w' ∈ p.workers -> w'.getload <= w.getload) ∧
      ((exists p', p.delThreadDispath moved = some p' ∧
          ConservesTasks p p' p.getmaxidx) <->
        p.buffsize <= 2 ^ 63 ∧ w.buffer.contents = []) := by
  rcases selected h with ⟨w, hw, hmax⟩
  refine ⟨w, hw, hmax, ?_⟩
  constructor
  · intro hconserves
    rcases hconserves with ⟨p', hcall, hconserves⟩
    rcases (delThreadDispath_eq h hw).mp hcall with ⟨hsize, hp'⟩
    subst hp'
    exact ⟨hsize, (without_tasks_iff hw).mp hconserves.tasks⟩
  · intro hcond
    rcases hcond with ⟨hsize, hempty⟩
    have hcall : p.delThreadDispath moved = some (p.without p.getmaxidx) :=
      (delThreadDispath_eq h hw).mpr ⟨hsize, rfl⟩
    exact ⟨_, hcall,
      without_conservesTasks h hw ((without_tasks_iff hw).mpr hempty)⟩

end Removal

/-!
Pools of two workers with ring buffers of capacity 4: in the first one no task
is queued, and in the second one the first worker has a task that the other one
has room for.
-/

def workerOf (buffer : Ringbuff (Task Nat)) : PoolWorker Nat where
  buffer := buffer
  shutdown := false

def bufferOf (cell : Nat -> Task Nat) (head : Nat) : Ringbuff (Task Nat) where
  head := head
  tail := 0
  capacity := 4
  buffer := { size := 4, cell := cell }

def poolOfTwo (first second : Ringbuff (Task Nat)) : Lfthreadpool Nat :=
  { (members 4 PoolMode.dynamic : Lfthreadpool Nat) with
    tnum := 2
    workers := [workerOf first, workerOf second] }

theorem bufferOf_madeWith (cell : Nat -> Task Nat) {head : Nat}
    (hhead : head < 4) : (bufferOf cell head).MadeWith 4 where
  capacity_eq := rfl
  block := rfl
  indices := Or.inl ⟨hhead, Nat.succ_pos 3⟩

theorem poolOfTwo_serving {first second : Ringbuff (Task Nat)}
    (hfirst : first.MadeWith 4) (hsecond : second.MadeWith 4) :
    Serving (poolOfTwo first second) where
  mode_eq := rfl
  running := rfl
  tnum_eq := rfl
  two_le := Nat.le_refl 2
  buffsize_lt := show 4 < SIZE_T by decide
  open_worker := by simp [poolOfTwo, workerOf]
  made := by simp [poolOfTwo, workerOf, members, hfirst, hsecond]

def oneTask : Nat -> Task Nat :=
  fun i => if i = 0 then Task.client 7 else Task.empty

theorem conservesTasks_iff_idlePool :
    exists p p' : Lfthreadpool Nat,
      p = poolOfTwo (bufferOf oneTask 0) (bufferOf oneTask 0) ∧
        p.delThreadDispath id = some p' ∧
        ConservesTasks p p' p.getmaxidx := by
  have hmade : (bufferOf oneTask 0).MadeWith 4 :=
    bufferOf_madeWith oneTask (by decide)
  have hserving := poolOfTwo_serving hmade hmade
  have hiff := @conservesTasks_iff Nat id _ hserving
  rcases hiff with ⟨w, hw, _, hiff⟩
  have hempty : w.buffer.contents = [] := by
    cases hw
    rfl
  rcases hiff.mpr ⟨by decide, hempty⟩ with ⟨p', hcall, hconserves⟩
  exact ⟨_, p', rfl, hcall, hconserves⟩

theorem removed_worker_loses_task :
    exists (p p' : Lfthreadpool Nat) (w : PoolWorker Nat),
      Serving p ∧ p.workers[p.getmaxidx]? = some w ∧
        HasRoom p p.getmaxidx w ∧
        p.queued = [Task.client 7] ∧
        p.delThreadDispath id = some p' ∧ p'.queued = [] ∧
        ¬ ConservesTasks p p' p.getmaxidx := by
  have hserving := poolOfTwo_serving
    (bufferOf_madeWith oneTask (show 1 < 4 by decide))
    (bufferOf_madeWith oneTask (show 0 < 4 by decide))
  have hw : (poolOfTwo (bufferOf oneTask 1) (bufferOf oneTask 0)).workers[
      (poolOfTwo (bufferOf oneTask 1) (bufferOf oneTask 0)).getmaxidx]? =
        some (workerOf (bufferOf oneTask 1)) := rfl
  have hcall := (@delThreadDispath_eq Nat id _ _ hserving hw _).mpr
    ⟨show 4 <= 2 ^ 63 by decide, rfl⟩
  refine ⟨_, _, _, hserving, hw, ?_, rfl, hcall, rfl, ?_⟩
  · show (1 : Nat) <= 3
    decide
  · intro h
    have hlost : (0 : Nat) = 1 := h.tasks.length_eq
    cases hlost

end Lfthreadpool

end MoonNet
