import MoonNet.Ringbuff.Refinement

/-!
# The slots that calls access

Each call accesses the slots its indices name.  With at least one cell these are
below the capacity in every sequence of calls.  A size above `2 ^ 63` is rounded
up to a capacity of 0; then the mask lets every index pass, the ring buffer is
not full, and the first push writes a slot that does not exist.
-/

namespace MoonNet

open Foundation

universe u

namespace Ringbuff

variable {T : Type u}

def drained (r : Ringbuff T) : List Nat :=
  if r.tail = r.head then []
  else if r.tail < r.head then List.range' r.tail (r.head - r.tail)
  else List.range' r.tail (r.capacity - r.tail) ++ List.range' 0 r.head

/-- The slots `buffer_[i]` that a call accesses, in order. -/
def accesses (r : Ringbuff T) : Op T -> List Nat
  | Op.push _ | Op.pushMove _ =>
      if next r.capacity r.head = r.tail then [] else [r.head]
  | Op.pop _ | Op.popMove _ => if r.tail = r.head then [] else [r.tail]
  | Op.size | Op.empty | Op.full => []
  | Op.swapToListInto _ | Op.swapToVectorInto _ | Op.swapToList
  | Op.swapToVector => r.drained

def InBounds (r : Ringbuff T) (op : Op T) : Prop :=
  forall i, i ∈ r.accesses op -> i < r.capacity

def Op.isPush : Op T -> Bool
  | Op.push _ | Op.pushMove _ => true
  | _ => false

/-!
## A call has a result exactly if its accesses are in bounds
-/

theorem write_isSome_iff {c : Cells T} {i : Nat} {x : T} :
    (c.write i x).isSome <-> i < c.size := by
  unfold Cells.write
  split <;> simp_all

theorem take_isSome_iff {left : T -> T} {c : Cells T} {i : Nat} :
    (c.take left i).isSome <-> i < c.size := by
  by_cases hi : i < c.size
  · simp [Cells.take_eq_some left hi, hi]
  · simp [Cells.take, Cells.read, hi]

theorem moveCells_isSome_iff {moved : T -> T} {count i : Nat} {c : Cells T}
    {target : List T} :
    (moveCells moved count i c target).isSome <->
      forall j, j ∈ List.range' i count -> j < c.size := by
  induction count generalizing i c target with
  | zero =>
      simp [moveCells]
  | succ count ih =>
      rw [moveCells, List.range'_succ]
      by_cases hi : i < c.size
      · rw [Cells.take_eq_some moved hi, Option.bind_some, ih]
        simp [hi]
      · have hnone : c.take moved i = none := by
          rw [<- Option.not_isSome_iff_eq_none, take_isSome_iff]
          exact hi
        simp [hnone, hi]

theorem moveCells_size {moved : T -> T} {count i : Nat} {c : Cells T}
    {target : List T} {out : Cells T × List T}
    (h : moveCells moved count i c target = some out) :
    out.fst.size = c.size := by
  induction count generalizing i c target with
  | zero =>
      cases h
      rfl
  | succ count ih =>
      rw [moveCells] at h
      by_cases hi : i < c.size
      · rw [Cells.take_eq_some moved hi, Option.bind_some] at h
        have hrest := ih h
        exact hrest
      · have hnone : c.take moved i = none := by
          rw [<- Option.not_isSome_iff_eq_none, take_isSome_iff]
          exact hi
        rw [hnone] at h
        cases h

theorem drain_isSome_iff {moved : T -> T} {r : Ringbuff T}
    (hblock : r.buffer.size = r.capacity) {target : List T} :
    (r.drain moved target).isSome <->
      forall i, i ∈ r.drained -> i < r.capacity := by
  unfold drain drained
  rw [<- hblock]
  by_cases hempty : r.tail = r.head
  · simp [hempty]
  · rw [if_neg hempty, if_neg hempty, Option.isSome_map]
    by_cases hstraight : r.tail < r.head
    · rw [if_pos hstraight, if_pos hstraight]
      exact moveCells_isSome_iff
    · rw [if_neg hstraight, if_neg hstraight]
      unfold moveRange
      -- The second part of a wrapped range is moved only after the first.
      cases hfirst : moveCells moved (r.buffer.size - r.tail) r.tail r.buffer
          target with
      | none =>
          have hout := Option.not_isSome_iff_eq_none.mpr hfirst
          rw [moveCells_isSome_iff] at hout
          constructor
          · intro h
            cases h
          · intro h
            exact absurd (fun j hj => h j (List.mem_append_left _ hj)) hout
      | some out =>
          have hin := moveCells_isSome_iff.mp (Option.isSome_of_eq_some hfirst)
          rw [Option.bind_some, moveCells_isSome_iff, moveCells_size hfirst,
            Nat.sub_zero]
          constructor
          · intro h j hj
            rcases List.mem_append.mp hj with hj | hj
            · exact hin j hj
            · exact h j hj
          · intro h j hj
            exact h j (List.mem_append_right _ hj)

theorem step_isSome_iff {moved : T -> T} {r : Ringbuff T}
    (hblock : r.buffer.size = r.capacity) (op : Op T) :
    (step moved r op).isSome <-> r.InBounds op := by
  have hpush : forall (left : T -> T) (item : T),
      (r.pushWith left item).isSome <-> r.InBounds (Op.push item) := by
    intro left item
    unfold pushWith InBounds accesses
    by_cases hfull : next r.capacity r.head = r.tail
    · simp [hfull]
    · simp [hfull, write_isSome_iff, hblock]
  have hpop : forall (left : T -> T) (item : T),
      (r.popWith left item).isSome <-> r.InBounds (Op.pop item) := by
    intro left item
    unfold popWith InBounds accesses
    by_cases hempty : r.tail = r.head
    · simp [hempty]
    · simp [hempty, take_isSome_iff, hblock]
  have hdrain : forall target : List T,
      (r.drain moved target).isSome <-> r.InBounds Op.swapToList :=
    fun _ => drain_isSome_iff hblock
  cases op with
  | push item =>
      rw [step, Option.isSome_map]
      exact hpush id item
  | pushMove item =>
      rw [step, Option.isSome_map]
      exact hpush moved item
  | pop item =>
      rw [step, Option.isSome_map]
      exact hpop id item
  | popMove item =>
      rw [step, Option.isSome_map]
      exact hpop moved item
  | size => simp [step, InBounds, accesses]
  | empty => simp [step, InBounds, accesses]
  | full => simp [step, InBounds, accesses]
  | swapToListInto list =>
      rw [step, Option.isSome_map]
      exact hdrain list
  | swapToVectorInto vec =>
      rw [step, Option.isSome_map, swapToVectorInto, Option.isSome_map]
      exact hdrain vec
  | swapToList =>
      rw [step, Option.isSome_map]
      exact hdrain []
  | swapToVector =>
      rw [step, Option.isSome_map, swapToVector, Option.isSome_map]
      exact hdrain []

/-!
## Sequences of calls
-/

/-- The calls of a sequence access slots of the array only. -/
def StaysInBounds (moved : T -> T) (r : Ringbuff T) (ops : List (Op T)) :
    Prop :=
  StepFn.Meets (OutStepFn.toStepFn (step moved)) InBounds r ops

theorem Refines.staysInBounds {moved : T -> T} {capacity : Nat}
    {r : Ringbuff T} {q : List T} (h : Refines capacity r q)
    (ops : List (Op T)) : StaysInBounds moved r ops := by
  have hstep : forall (r : Ringbuff T) (op : Op T) r',
      (exists q, Refines capacity r q) ->
      OutStepFn.toStepFn (step moved) r op = some r' ->
      exists q, Refines capacity r' q := by
    intro r op r' hr hr'
    rcases hr with ⟨q, hq⟩
    rcases step_refines moved hq op with ⟨t, ht, hR⟩
    rw [OutStepFn.toStepFn_eq_some ht] at hr'
    cases hr'
    exact ⟨_, hR⟩
  apply StepFn.Meets.imp _ (StepFn.meets_of_invariant hstep ⟨q, h⟩ ops)
  intro r op hr
  rcases hr with ⟨q, hq⟩
  rcases step_refines moved hq op with ⟨r', hr', _⟩
  exact (step_isSome_iff hq.valid.block op).mp (Option.isSome_of_eq_some hr')

structure NoCells (r : Ringbuff T) : Prop where
  capacity_eq : r.capacity = 0
  block : r.buffer.size = 0
  head_eq : r.head = 0
  tail_eq : r.tail = 0

theorem new_noCells (cell : Nat -> T) {size : Nat} (hlt : size < SIZE_T)
    (hsize : 2 ^ 63 < size) : (new cell size).NoCells where
  capacity_eq := adjSize_zero_of_lt hlt hsize
  block := adjSize_zero_of_lt hlt hsize
  head_eq := rfl
  tail_eq := rfl

theorem NoCells.inBounds_iff {r : Ringbuff T} (h : r.NoCells) (op : Op T) :
    r.InBounds op <-> op.isPush = false := by
  have hnext : next 0 0 ≠ 0 := by decide
  cases op <;> simp [InBounds, accesses, drained, Op.isPush, h.capacity_eq,
    h.head_eq, h.tail_eq, hnext]

theorem NoCells.step_eq {moved : T -> T} {r : Ringbuff T} (h : r.NoCells)
    {op : Op T} (hop : op.isPush = false) :
    OutStepFn.toStepFn (step moved) r op = some r := by
  have hempty : r.tail = r.head := h.tail_eq.trans h.head_eq.symm
  cases op with
  | push item => cases hop
  | pushMove item => cases hop
  | pop item => simp [OutStepFn.toStepFn, step, pop, popWith, hempty]
  | popMove item => simp [OutStepFn.toStepFn, step, popMove, popWith, hempty]
  | size => rfl
  | empty => rfl
  | full => rfl
  | swapToListInto list =>
      simp [OutStepFn.toStepFn, step, swapToListInto, drain, hempty]
  | swapToVectorInto vec =>
      simp [OutStepFn.toStepFn, step, swapToVectorInto, drain, hempty]
  | swapToList => simp [OutStepFn.toStepFn, step, swapToList, drain, hempty]
  | swapToVector =>
      simp [OutStepFn.toStepFn, step, swapToVector, drain, hempty]

theorem NoCells.staysInBounds_iff {moved : T -> T} {r : Ringbuff T}
    (h : r.NoCells) (ops : List (Op T)) :
    StaysInBounds moved r ops <-> forall op, op ∈ ops -> op.isPush = false := by
  unfold StaysInBounds
  induction ops with
  | nil =>
      simp [StepFn.Meets]
  | cons op rest ih =>
      rw [List.forall_mem_cons, <- h.inBounds_iff, <- ih]
      constructor
      · intro hmeets
        have hop := (h.inBounds_iff op).mp hmeets.left
        exact (StepFn.meets_cons_of_step (h.step_eq hop)).mp hmeets
      · intro hboth
        have hop := (h.inBounds_iff op).mp hboth.left
        exact (StepFn.meets_cons_of_step (h.step_eq hop)).mpr hboth

/--
Every slot access of a sequence of calls on a new ring buffer is in the array
exactly if the size is at most `2 ^ 63` or nothing is pushed.
-/
theorem accesses_inBounds_iff (moved : T -> T) (cell : Nat -> T) (size : UInt64)
    (ops : List (Op T)) :
    StaysInBounds moved (new cell size.toNat) ops <->
      size.toNat <= 2 ^ 63 ∨ forall op, op ∈ ops -> op.isPush = false := by
  by_cases hsize : size.toNat <= 2 ^ 63
  · simp only [hsize, true_or, iff_true]
    exact (new_refines cell hsize).staysInBounds ops
  · have hlt : size.toNat < SIZE_T := size.toNat_lt
    rw [(new_noCells cell hlt (not_le.mp hsize)).staysInBounds_iff,
      or_iff_right hsize]

/-- A size of -1 makes an array without slots, and the push writes slot 0. -/
theorem push_out_of_bounds :
    (new (fun _ => 0) (-1 : UInt64).toNat).capacity = 0 ∧
      (new (fun _ => 0) (-1 : UInt64).toNat).accesses (Op.push 7) = [0] ∧
      ¬ StaysInBounds id (new (fun _ => 0) (-1 : UInt64).toNat)
        [Op.push 7] := by
  have hcapacity : (new (fun _ => 0) (-1 : UInt64).toNat).capacity = 0 := by
    decide +kernel
  have haccess : (new (fun _ => 0) (-1 : UInt64).toNat).accesses (Op.push 7) =
      [0] := by
    decide +kernel
  refine ⟨hcapacity, haccess, ?_⟩
  intro h
  have hlt := h.left 0 (by rw [haccess]; exact List.mem_singleton_self 0)
  rw [hcapacity] at hlt
  cases hlt

end Ringbuff

end MoonNet
