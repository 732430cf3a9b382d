import Mathlib.Algebra.Order.BigOperators.Group.List
import MoonNet.Lfthreadpool.Model

/-!
# The load percentage

Both pools divide the average load by the total and multiply by 100 only then.
Nothing of a share below one is left by the division, so that the percentage is
100 with a single member and 0 with more of them, whatever their loads are.
-/

namespace MoonNet

universe u v

/-- The average load as an integer percentage of the total. -/
def percentage (loads : List Int) : Int :=
  100 * (loads.sum / loads.length) / loads.sum

/-- The loads of at least one member, whose sum is positive and an `int`. -/
structure Loaded (loads : List Int) : Prop where
  nonempty : 0 < loads.length
  nonneg : forall load, load ∈ loads -> 0 <= load
  sum_pos : 0 < loads.sum
  sum_lt : loads.sum < 2 ^ 31

namespace Loaded

variable {loads : List Int}

theorem average_nonneg (h : Loaded loads) :
    0 <= loads.sum / (loads.length : Int) :=
  Int.ediv_nonneg (Int.le_of_lt h.sum_pos) (Int.natCast_nonneg _)

theorem loadScale_eq (h : Loaded loads) :
    loadScale loads loads.length =
      loads.sum / loads.length / loads.sum * 100 := by
  have hsum : loads.foldl (fun sum load => sum + load) 0 = loads.sum := by
    rw [List.sum_eq_foldl]
  unfold loadScale
  rw [hsum, if_neg (ne_of_gt h.sum_pos),
    Int.tdiv_eq_ediv_of_nonneg (le_of_lt h.sum_pos),
    Int.tdiv_eq_ediv_of_nonneg h.average_nonneg]

theorem average_lt (h : Loaded loads) (hmany : loads.length ≠ 1) :
    loads.sum / (loads.length : Int) < loads.sum := by
  have htwo : 1 < (loads.length : Int) := by
    have hpos := h.nonempty
    omega
  exact Int.ediv_lt_self_of_pos_of_ne_one h.sum_pos (by omega)

theorem loadScale_of_many (h : Loaded loads) (hmany : loads.length ≠ 1) :
    loadScale loads loads.length = 0 := by
  rw [h.loadScale_eq,
    Int.ediv_eq_zero_of_lt h.average_nonneg (h.average_lt hmany), zero_mul]

theorem loadScale_of_single (h : Loaded loads) (hone : loads.length = 1) :
    loadScale loads loads.length = 100 := by
  rw [h.loadScale_eq, hone, Nat.cast_one, Int.ediv_one,
    Int.ediv_self (ne_of_gt h.sum_pos)]
  rfl

theorem percentage_of_single (h : Loaded loads) (hone : loads.length = 1) :
    percentage loads = 100 := by
  unfold percentage
  rw [hone, Nat.cast_one, Int.ediv_one,
    Int.mul_ediv_cancel _ (ne_of_gt h.sum_pos)]

theorem percentage_eq_zero_iff (h : Loaded loads) :
    percentage loads = 0 <->
      100 * (loads.sum / loads.length) < loads.sum := by
  have hnonneg : 0 <= 100 * (loads.sum / (loads.length : Int)) :=
    Int.mul_nonneg (by decide) h.average_nonneg
  unfold percentage
  constructor
  · intro hzero
    have hlt := Int.lt_ediv_add_one_mul_self
      (100 * (loads.sum / (loads.length : Int))) h.sum_pos
    rwa [hzero, zero_add, one_mul] at hlt
  · intro hlt
    exact Int.ediv_eq_zero_of_lt hnonneg hlt

theorem loadScale_exact_iff (h : Loaded loads) :
    loadScale loads loads.length = percentage loads <->
      loads.length = 1 ∨ 100 * (loads.sum / loads.length) < loads.sum := by
  by_cases hone : loads.length = 1
  · rw [h.loadScale_of_single hone, h.percentage_of_single hone]
    simp [hone]
  · rw [h.loadScale_of_many hone, eq_comm, h.percentage_eq_zero_iff]
    simp [hone]

end Loaded

/-!
## Both pools
-/

/-- `t_num` counts the loops. -/
def AdjustedPool.Counts {E : Type u} (s : AdjustedPool E) : Prop :=
  s.pool.tNum = s.pool.loads.length

/-- `tnum_` counts the workers; the constructor takes an `int`. -/
def Lfthreadpool.Counts {τ : Type v} (p : Lfthreadpool τ) : Prop :=
  p.tnum = p.loads.length ∧ p.tnum < 2 ^ 31

theorem Lfthreadpool.wrap32_tnum {τ : Type v} {p : Lfthreadpool τ}
    (hp : p.Counts) : wrap32 p.tnum = p.loads.length := by
  have hlt := hp.right
  unfold wrap32
  rw [Int.bmod_eq_of_le (by omega) (by omega), hp.left]

/--
The percentage of the average load is exact in either pool exactly if there is a
single member or the exact percentage is below one.
-/
theorem percentage_exact_iff {E : Type u} {τ : Type v} (s : AdjustedPool E)
    (p : Lfthreadpool τ) (hs : s.Counts) (hp : p.Counts)
    (hloops : Loaded s.pool.loads) (hworkers : Loaded p.loads) :
    (s.getscale = percentage s.pool.loads <->
        s.pool.tNum = 1 ∨
          100 * (s.pool.loads.sum / s.pool.tNum) < s.pool.loads.sum) ∧
      (p.getload = percentage p.loads <->
        p.tnum = 1 ∨ 100 * (p.loads.sum / p.tnum) < p.loads.sum) := by
  constructor
  · unfold AdjustedPool.getscale
    rw [hs]
    exact hloops.loadScale_exact_iff
  · unfold Lfthreadpool.getload
    rw [Lfthreadpool.wrap32_tnum hp, hp.left]
    exact hworkers.loadScale_exact_iff

def poolOfLoads (loads : List Int) : AdjustedPool Nat :=
  let s : AdjustedPool Nat := AdjustedPool.new (Eventloop.new 3)
  { s with pool := { s.pool with
      loadvec := loads.map fun load => { Eventloop.new 4 with load := load }
      tNum := loads.length } }

def poolOfHeads (size : Nat) (heads : List Nat) : Lfthreadpool Nat :=
  { (Lfthreadpool.members size PoolMode.dynamic : Lfthreadpool Nat) with
    tnum := heads.length
    workers := heads.map fun head =>
      { buffer := { Ringbuff.new (fun _ => Task.empty) size with head := head }
        shutdown := false } }

theorem percentage_exact_iff_single :
    ((poolOfLoads [3]).getscale = percentage (poolOfLoads [3]).pool.loads <->
        (poolOfLoads [3]).pool.tNum = 1 ∨
          100 * ((poolOfLoads [3]).pool.loads.sum / (poolOfLoads [3]).pool.tNum) <
            (poolOfLoads [3]).pool.loads.sum) ∧
      ((poolOfHeads 4 [2]).getload = percentage (poolOfHeads 4 [2]).loads <->
        (poolOfHeads 4 [2]).tnum = 1 ∨
          100 * ((poolOfHeads 4 [2]).loads.sum / (poolOfHeads 4 [2]).tnum) <
            (poolOfHeads 4 [2]).loads.sum) := by
  have hloops : (poolOfLoads [3]).pool.loads = [3] := rfl
  have hworkers : (poolOfHeads 4 [2]).loads = [2] := by decide +kernel
  apply percentage_exact_iff (poolOfLoads [3]) (poolOfHeads 4 [2])
  · exact rfl
  · exact ⟨by rw [hworkers]; rfl, by decide⟩
  · rw [hloops]
    exact ⟨by decide, by decide, by decide, by decide⟩
  · rw [hworkers]
    exact ⟨by decide, by decide, by decide, by decide⟩

/-- Two members that share the load equally have half of it on average. -/
theorem percentage_of_two_is_zero :
    Loaded (poolOfLoads [1, 1]).pool.loads ∧
      (poolOfLoads [1, 1]).getscale = 0 ∧
      percentage (poolOfLoads [1, 1]).pool.loads = 50 ∧
      (poolOfHeads 4 [1, 1]).loads = (poolOfLoads [1, 1]).pool.loads ∧
      (poolOfHeads 4 [1, 1]).getload = 0 ∧
      percentage (poolOfHeads 4 [1, 1]).loads = 50 := by
  refine ⟨?_, by decide +kernel⟩
  show Loaded [1, 1]
  exact ⟨by decide, by decide, by decide, by decide⟩

end MoonNet
