import MoonNet.Ringbuff.Refinement

/-!
# Exchanging two ring buffers

`swap` exchanges the blocks, but it copies the indices of the other ring buffer
instead of exchanging them and leaves both capacities alone.  The other ring
buffer goes on with its own indices on a block that was filled under different
ones, so the contents come out right only if these indices happen to name the
same items there.
-/

namespace MoonNet

open Foundation
open Foundation.Circular

universe u

namespace Ringbuff

variable {T : Type u}

/-- `after` are valid ring buffers, each with the contents of the other one. -/
structure Exchanged (r other : Ringbuff T) (after : Ringbuff T × Ringbuff T) :
    Prop where
  leftContents : after.fst.contents = other.contents
  rightContents : after.snd.contents = r.contents
  leftValid : after.fst.Valid
  rightValid : after.snd.Valid

/-- `r.swap(other)` exchanges the two, and swapping again restores both. -/
structure SwapExchanges (r other : Ringbuff T) : Prop where
  once : Exchanged r other (r.swap other)
  twice : Exchanged other r ((r.swap other).fst.swap (r.swap other).snd)

/--
The capacities are equal, and the indices of `other` name the items of `r`, in
order, in the block of `r`.
-/
structure Interchangeable (r other : Ringbuff T) : Prop where
  capacity_eq : r.capacity = other.capacity
  held_eq : r.held = other.held
  items : forall i, i < r.held ->
    r.buffer.cell ((other.tail + i) % r.capacity) =
      r.buffer.cell ((r.tail + i) % r.capacity)

section Swap

variable {r other : Ringbuff T}

theorem swap_fst_contents (hcap : r.capacity = other.capacity) :
    (r.swap other).fst.contents = other.contents := by
  show window other.buffer.cell r.capacity other.tail
    (distance r.capacity other.tail other.head) = other.contents
  rw [hcap]
  rfl

/-- The other ring buffer reads the block of `r` from its own tail on. -/
theorem swap_snd_contents :
    (r.swap other).snd.contents =
      window r.buffer.cell other.capacity other.tail other.held := rfl

theorem swap_fst_valid (hother : other.Valid)
    (hcap : r.capacity = other.capacity) : (r.swap other).fst.Valid where
  capacity_eq := by
    rcases hother.capacity_eq with ⟨k, hk, hpow⟩
    exact ⟨k, hk, hcap.trans hpow⟩
  block := hother.block.trans hcap.symm
  head_lt := hcap ▸ hother.head_lt
  tail_lt := hcap ▸ hother.tail_lt

theorem swap_snd_valid (hr : r.Valid) (hother : other.Valid)
    (hcap : r.capacity = other.capacity) : (r.swap other).snd.Valid where
  capacity_eq := hother.capacity_eq
  block := hr.block.trans hcap
  head_lt := hother.head_lt
  tail_lt := hother.tail_lt

theorem capacity_eq_of_valid (hother : other.Valid)
    (hafter : (r.swap other).fst.Valid) : r.capacity = other.capacity := by
  have hblock : other.buffer.size = r.capacity := hafter.block
  exact hblock.symm.trans hother.block

theorem swap_snd_contents_iff (hcap : r.capacity = other.capacity) :
    (r.swap other).snd.contents = r.contents <-> Interchangeable r other := by
  rw [swap_snd_contents, <- hcap]
  constructor
  · intro h
    have hheld : r.held = other.held := by
      have hlen := congrArg List.length h
      rw [window_length, contents_length] at hlen
      exact hlen.symm
    rw [<- hheld] at h
    exact {
      capacity_eq := hcap
      held_eq := hheld
      items := window_eq_iff.mp h }
  · intro h
    rw [<- h.held_eq]
    exact window_eq_iff.mpr h.items

theorem swap_swap_fst_contents (hcap : r.capacity = other.capacity) :
    ((r.swap other).fst.swap (r.swap other).snd).fst.contents =
      (r.swap other).snd.contents :=
  swap_fst_contents hcap

/--
For valid ring buffers, `swap` exchanges the contents exactly if the capacities
are equal and the items of `r` are found under the indices of `other`.
-/
theorem swap_exchanges_iff (hr : r.Valid) (hother : other.Valid) :
    SwapExchanges r other <-> Interchangeable r other := by
  constructor
  · intro h
    have hcap := capacity_eq_of_valid hother h.once.leftValid
    exact (swap_snd_contents_iff hcap).mp h.once.rightContents
  · intro h
    have hcap := h.capacity_eq
    have hright := (swap_snd_contents_iff hcap).mpr h
    have hleftValid := swap_fst_valid hother hcap
    have hrightValid := swap_snd_valid hr hother hcap
    exact {
      once := {
        leftContents := swap_fst_contents hcap
        rightContents := hright
        leftValid := hleftValid
        rightValid := hrightValid }
      twice := {
        leftContents := (swap_swap_fst_contents hcap).trans hright
        rightContents := rfl
        leftValid := swap_fst_valid hrightValid hcap
        rightValid := hother } }

end Swap

/-!
Ring buffers of capacity 4.  With two items each, in the same cells, the swap is
right; an item beside an empty ring buffer is gone from both afterwards.
-/

def filled (size : Nat) : List Nat -> Option (Ringbuff Nat)
  | [] => some (new (fun _ => 0) size)
  | item :: rest =>
      (filled size rest).bind fun r => (r.push item).map Prod.fst

def ofCells (cell : Nat -> Nat) (head tail : Nat) : Ringbuff Nat where
  head := head
  tail := tail
  capacity := 4
  buffer := { size := 4, cell := cell }

theorem ofCells_valid (cell : Nat -> Nat) {head tail : Nat} (hhead : head < 4)
    (htail : tail < 4) : (ofCells cell head tail).Valid where
  capacity_eq := ⟨2, by decide, rfl⟩
  block := rfl
  head_lt := hhead
  tail_lt := htail

theorem swap_exchanges_iff_sameCells :
    exists r other,
      filled 4 [2, 1] = some r ∧ filled 4 [4, 3] = some other ∧
        (SwapExchanges r other <-> Interchangeable r other) ∧
        (r.swap other).fst.contents = [3, 4] ∧
        (r.swap other).snd.contents = [1, 2] := by
  refine ⟨_, _, rfl, rfl, ?_, rfl, rfl⟩
  exact swap_exchanges_iff (ofCells_valid _ (by decide) (by decide))
    (ofCells_valid _ (by decide) (by decide))

theorem swap_loses_item :
    exists r other,
      filled 4 [7] = some r ∧ filled 4 [] = some other ∧
        r.Valid ∧ other.Valid ∧
        (r.swap other).fst.contents = [] ∧
        (r.swap other).snd.contents = [] ∧
        ¬ SwapExchanges r other := by
  refine ⟨_, _, rfl, rfl, ofCells_valid _ (by decide) (by decide),
    ofCells_valid _ (by decide) (by decide), rfl, rfl, ?_⟩
  intro h
  have hkept : ([] : List Nat) = [7] := h.once.rightContents
  cases hkept

end Ringbuff

end MoonNet
