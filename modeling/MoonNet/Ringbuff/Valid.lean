import MoonNet.Foundation.PowerOfTwo
import MoonNet.Foundation.Circular
import MoonNet.Ringbuff.Model

/-!
# Valid ring buffers

A ring buffer is valid if its capacity is a power of two that leaves room for
one more bit in a `size_t`, its block has that many cells, and both indices are
below it.  Then masking is reduction modulo the capacity, and the length
formulas of the code are the distance from tail to head.
-/

namespace MoonNet

open Foundation
open Foundation.Circular

universe u

namespace Cells

variable {T : Type u}

theorem write_eq_some {c : Cells T} {i : Nat} (x : T) (h : i < c.size) :
    c.write i x = some { c with cell := Function.update c.cell i x } := by
  simp [write, h]

theorem take_eq_some (left : T -> T) {c : Cells T} {i : Nat}
    (h : i < c.size) :
    c.take left i =
      some ({ c with cell := Function.update c.cell i (left (c.cell i)) },
        c.cell i) := by
  simp [take, read, write, h]

end Cells

namespace Ringbuff

variable {T : Type u}

/-!
## Capacity
-/

theorem sizeT_sub_one {n : Nat} (hpos : 0 < n) (hlt : n <= SIZE_T) :
    SizeT.sub n 1 = n - 1 :=
  SizeT.sub_eq hpos (Nat.lt_of_lt_of_le (Nat.sub_lt hpos Nat.one_pos) hlt)

theorem isPowtwo_iff {n : Nat} (hlt : n < SIZE_T) :
    isPowtwo n = true <-> exists k, n = 2 ^ k := by
  cases Nat.eq_zero_or_pos n with
  | inl hzero =>
      subst hzero
      have hpow : forall k, 0 ≠ 2 ^ k := by
        intro k
        exact Nat.ne_of_lt (Nat.two_pow_pos k)
      simp [isPowtwo, hpow]
  | inr hpos =>
      have hiff : n ≠ 0 ∧ n &&& (n - 1) = 0 <-> n.isPowerOfTwo :=
        Nat.ne_zero_and_sub_one_eq_zero_iff_isPowerOfTwo
      unfold isPowtwo
      rw [sizeT_sub_one hpos (Nat.le_of_lt hlt)]
      simpa [Nat.isPowerOfTwo, bne_iff_ne] using hiff

theorem smeared_orShifts (n : Nat) :
    Smeared 64 n (orShift 32 (orShift 16 (orShift 8 (orShift 4
      (orShift 2 (orShift 1 n)))))) := by
  have h1 : Smeared 2 n (orShift 1 n) := (smeared_one n).orShift (by decide)
  have h2 := h1.orShift (show 2 <= 2 by decide)
  have h4 := h2.orShift (show 4 <= 4 by decide)
  have h8 := h4.orShift (show 8 <= 8 by decide)
  have h16 := h8.orShift (show 16 <= 16 by decide)
  exact h16.orShift (show 32 <= 32 by decide)

theorem nextPowtwo_eq {n : Nat} (hn : n <= 2 ^ 63) :
    nextPowtwo n = 2 ^ (n - 1).size := by
  cases Nat.eq_zero_or_pos n with
  | inl hzero =>
      subst hzero
      rfl
  | inr hpos =>
      have hpred : SizeT.sub n 1 = n - 1 :=
        sizeT_sub_one hpos (by unfold SIZE_T; omega)
      have hsmeared := (smeared_orShifts (n - 1)).eq_size (by omega)
      have hle : 2 ^ (n - 1).size <= 2 ^ 63 := two_pow_size_pred_le hn hpos
      have hone : 1 <= 2 ^ (n - 1).size := Nat.one_le_two_pow
      have hsum : 2 ^ (n - 1).size - 1 + 1 < SIZE_T := by
        unfold SIZE_T
        omega
      unfold nextPowtwo
      rw [if_neg (Nat.ne_of_gt hpos), hpred, hsmeared, SizeT.add_eq hsum,
        Nat.sub_add_cancel hone]

theorem adjSize_eq {size : Nat} (hsize : size <= 2 ^ 63) :
    exists k, k <= 63 ∧ adjSize size = 2 ^ k := by
  unfold adjSize
  split
  · rename_i hpow
    rcases (isPowtwo_iff (by unfold SIZE_T; omega)).mp hpow with ⟨k, hk⟩
    refine ⟨k, ?_, hk⟩
    rw [hk] at hsize
    exact (Nat.pow_le_pow_iff_right (by decide)).mp hsize
  · refine ⟨(size - 1).size, ?_, nextPowtwo_eq hsize⟩
    rw [Nat.size_le]
    omega

/-- The capacity is the least power of two that is not below the size. -/
theorem adjSize_least {size : Nat} (hsize : size <= 2 ^ 63) :
    size <= adjSize size ∧
      forall k, 0 < size -> size <= 2 ^ k -> adjSize size <= 2 ^ k := by
  unfold adjSize
  split
  · exact ⟨Nat.le_refl size, fun k _ hk => hk⟩
  · rw [nextPowtwo_eq hsize]
    constructor
    · exact le_two_pow_size_pred
    · intro k hpos hk
      exact two_pow_size_pred_le hk hpos

theorem adjSize_zero_of_lt {size : Nat} (hlt : size < SIZE_T)
    (hsize : 2 ^ 63 < size) : adjSize size = 0 := by
  have hpow : ¬ isPowtwo size = true := by
    intro h
    rcases (isPowtwo_iff hlt).mp h with ⟨k, hk⟩
    rw [hk] at hlt hsize
    have hlow : 63 < k := (Nat.pow_lt_pow_iff_right (by decide)).mp hsize
    have hhigh : k < 64 := (Nat.pow_lt_pow_iff_right (by decide)).mp hlt
    omega
  have hpred : SizeT.sub size 1 = size - 1 :=
    sizeT_sub_one (by omega) (Nat.le_of_lt hlt)
  have hbits : (size - 1).size = 64 := by
    apply Nat.le_antisymm
    · rw [Nat.size_le]
      unfold SIZE_T at hlt
      omega
    · rw [Nat.succ_le_iff, Nat.lt_size]
      omega
  have hsmeared := (smeared_orShifts (size - 1)).eq_size
    (by unfold SIZE_T at hlt; omega)
  unfold adjSize nextPowtwo
  rw [if_neg hpow, if_neg (by omega), hpred, hsmeared, hbits]
  rfl

theorem next_eq {k i : Nat} (hk : k <= 63) (hi : i < 2 ^ k) :
    next (2 ^ k) i = (i + 1) % 2 ^ k := by
  have hle : 2 ^ k <= 2 ^ 63 := Nat.pow_le_pow_right (by decide) hk
  have hmask : SizeT.sub (2 ^ k) 1 = 2 ^ k - 1 :=
    sizeT_sub_one (Nat.two_pow_pos k) (by unfold SIZE_T; omega)
  have hsum : SizeT.add i 1 = i + 1 :=
    SizeT.add_eq (by unfold SIZE_T; omega)
  unfold next
  rw [hmask, hsum, Nat.and_two_pow_sub_one_eq_mod]

/--
For sizes from 1 to `2 ^ 63` the capacity is the least power of two that is not
below the size, and masking is reduction modulo the capacity.
-/
theorem adjSize_rounds_up (cell : Nat -> T) {size : Nat} (hpos : 1 <= size)
    (hsize : size <= 2 ^ 63) :
    (exists k, adjSize size = 2 ^ k) ∧ size <= adjSize size ∧
      (forall k, 2 ^ k < adjSize size -> 2 ^ k < size) ∧
      forall x, x < (new cell size).capacity ->
        next (new cell size).capacity x =
          (x + 1) % (new cell size).capacity := by
  rcases adjSize_eq hsize with ⟨k, hk, hpow⟩
  rcases adjSize_least hsize with ⟨hle, hleast⟩
  refine ⟨⟨k, hpow⟩, hle, ?_, ?_⟩
  · intro j hj
    by_contra hsmall
    have hbelow := hleast j hpos (Nat.le_of_not_lt hsmall)
    exact Nat.not_le_of_lt hj hbelow
  · intro x hx
    have hcapacity : (new cell size).capacity = 2 ^ k := hpow
    rw [hcapacity] at hx ⊢
    exact next_eq hk hx

/-- The greatest capacity, for a size that is no power of two. -/
theorem adjSize_rounds_up_greatest :
    adjSize (2 ^ 62 + 1) = 2 ^ 63 ∧ 2 ^ 62 + 1 <= adjSize (2 ^ 62 + 1) ∧
      (forall k, 2 ^ k < adjSize (2 ^ 62 + 1) -> 2 ^ k < 2 ^ 62 + 1) ∧
      forall x, x < (new (fun _ => 0) (2 ^ 62 + 1) : Ringbuff Nat).capacity ->
        next (new (fun _ => 0) (2 ^ 62 + 1) : Ringbuff Nat).capacity x =
          (x + 1) %
            (new (fun _ => 0) (2 ^ 62 + 1) : Ringbuff Nat).capacity := by
  have h := adjSize_rounds_up (fun _ => 0) (show 1 <= 2 ^ 62 + 1 by decide)
    (show 2 ^ 62 + 1 <= 2 ^ 63 by decide)
  exact ⟨by decide, h.right⟩

/-!
## Validity
-/

structure Valid (r : Ringbuff T) : Prop where
  capacity_eq : exists k, k <= 63 ∧ r.capacity = 2 ^ k
  block : r.buffer.size = r.capacity
  head_lt : r.head < r.capacity
  tail_lt : r.tail < r.capacity

/-- The number of items held. -/
def held (r : Ringbuff T) : Nat :=
  distance r.capacity r.tail r.head

/-- The cells from tail to head, the oldest item first. -/
def contents (r : Ringbuff T) : List T :=
  window r.buffer.cell r.capacity r.tail r.held

@[simp] theorem contents_length (r : Ringbuff T) :
    r.contents.length = r.held :=
  window_length _ _ _ _

theorem new_valid (cell : Nat -> T) {size : Nat} (hsize : size <= 2 ^ 63) :
    (new cell size).Valid := by
  rcases adjSize_eq hsize with ⟨k, hk, hcap⟩
  have hpos : 0 < adjSize size := by
    rw [hcap]
    exact Nat.two_pow_pos k
  exact { capacity_eq := ⟨k, hk, hcap⟩, block := rfl, head_lt := hpos,
          tail_lt := hpos }

theorem new_contents (cell : Nat -> T) (size : Nat) :
    (new cell size).contents = [] := by
  have hheld : (new cell size).held = 0 := by
    simp [held, new, distance]
  unfold contents
  rw [hheld, window_zero]

namespace Valid

variable {r : Ringbuff T}

theorem capacity_pos (h : r.Valid) : 0 < r.capacity :=
  Nat.lt_of_le_of_lt (Nat.zero_le _) h.head_lt

theorem capacity_le (h : r.Valid) : r.capacity <= 2 ^ 63 := by
  rcases h.capacity_eq with ⟨k, hk, hcap⟩
  rw [hcap]
  exact Nat.pow_le_pow_right (by decide) hk

theorem next_eq (h : r.Valid) {i : Nat} (hi : i < r.capacity) :
    next r.capacity i = (i + 1) % r.capacity := by
  rcases h.capacity_eq with ⟨k, hk, hcap⟩
  rw [hcap] at hi ⊢
  exact Ringbuff.next_eq hk hi

theorem held_lt (h : r.Valid) : r.held < r.capacity :=
  distance_lt h.capacity_pos

theorem tail_add_held (h : r.Valid) :
    (r.tail + r.held) % r.capacity = r.head :=
  add_distance h.tail_lt h.head_lt

theorem held_eq (h : r.Valid) :
    r.held =
      if r.tail <= r.head then r.head - r.tail
      else r.capacity - r.tail + r.head :=
  distance_eq h.tail_lt h.head_lt

theorem held_eq_zero_iff (h : r.Valid) : r.held = 0 <-> r.tail = r.head := by
  have htail := h.tail_lt
  rw [h.held_eq]
  split <;> omega

theorem distance_tail_add (h : r.Valid) {n : Nat} (hn : n <= r.held) :
    distance r.capacity ((r.tail + n) % r.capacity) r.head = r.held - n := by
  have hlt : r.held - n < r.capacity :=
    Nat.lt_of_le_of_lt (Nat.sub_le _ _) h.held_lt
  have hhead : ((r.tail + n) % r.capacity + (r.held - n)) % r.capacity =
      r.head := by
    rw [Nat.mod_add_mod, Nat.add_assoc, Nat.add_sub_cancel' hn,
      h.tail_add_held]
  calc
    distance r.capacity ((r.tail + n) % r.capacity) r.head =
        distance r.capacity ((r.tail + n) % r.capacity)
          (((r.tail + n) % r.capacity + (r.held - n)) % r.capacity) := by
      rw [hhead]
    _ = r.held - n := distance_add (Nat.mod_lt _ h.capacity_pos) hlt

theorem distance_head_succ (h : r.Valid) (hroom : r.held + 1 < r.capacity) :
    distance r.capacity r.tail ((r.head + 1) % r.capacity) = r.held + 1 := by
  have hhead : (r.head + 1) % r.capacity =
      (r.tail + (r.held + 1)) % r.capacity := by
    rw [<- h.tail_add_held, Nat.mod_add_mod, Nat.add_assoc]
  rw [hhead]
  exact distance_add h.tail_lt hroom

theorem next_head_eq_tail_iff (h : r.Valid) :
    next r.capacity r.head = r.tail <-> r.held = r.capacity - 1 := by
  have htail := h.tail_lt
  have hhead := h.head_lt
  rw [h.next_eq hhead, h.held_eq]
  by_cases hlast : r.head + 1 < r.capacity
  · rw [Nat.mod_eq_of_lt hlast]
    split <;> omega
  · rw [show r.head + 1 = r.capacity by omega, Nat.mod_self]
    split <;> omega

theorem size_eq (h : r.Valid) : r.size = r.held := by
  have htail := h.tail_lt
  have hhead := h.head_lt
  have hcap := h.capacity_le
  rw [h.held_eq]
  unfold size
  split
  · rename_i hle
    exact SizeT.sub_eq hle (by unfold SIZE_T; omega)
  · have hdiff : SizeT.sub r.capacity r.tail = r.capacity - r.tail :=
      SizeT.sub_eq (Nat.le_of_lt htail) (by unfold SIZE_T; omega)
    rw [hdiff]
    exact SizeT.add_eq (by unfold SIZE_T; omega)

theorem reserved_eq (h : r.Valid) (vec : List T) :
    r.reserved vec =
      if r.held = 0 then none else some (vec.length + r.held) := by
  have htail := h.tail_lt
  have hhead := h.head_lt
  have hcap := h.capacity_le
  have hsum : SizeT.add r.head r.capacity = r.head + r.capacity :=
    SizeT.add_eq (by unfold SIZE_T; omega)
  have hdiff : SizeT.sub (r.head + r.capacity) r.tail =
      r.head + r.capacity - r.tail :=
    SizeT.sub_eq (by omega) (by unfold SIZE_T; omega)
  unfold reserved
  rw [hsum, hdiff]
  simp only [h.held_eq_zero_iff]
  rfl

end Valid

end Ringbuff

end MoonNet
