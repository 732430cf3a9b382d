import Mathlib.Algebra.BigOperators.Intervals
import Mathlib.Algebra.Order.BigOperators.Group.Finset
import Mathlib.Algebra.Ring.Divisibility.Basic
import Mathlib.Data.Int.Order.Basic
import Mathlib.Tactic.Ring

/-!
# Balancing by least load

Units are handed out one by one, each to the first of `n` bins with the least
load.  A bin `v` that starts with the greatest load gets its first unit when
the others have caught up with it, and from then on every `n`-th one.  The
`lead` of `v` is the number of units that go elsewhere before `v` is next.
-/

namespace MoonNet
namespace Foundation

open Finset

namespace Balancing

/-- `p` is the first bin with the least load. -/
structure FirstMin (l : Nat -> Int) (n p : Nat) : Prop where
  lt : p < n
  le : forall j, j < n -> l p <= l j
  first : forall j, j < p -> l p < l j

def gap (l : Nat -> Int) (v j : Nat) : Int :=
  if j < v then l v + 1 - l j else l v - l j

def lead (l : Nat -> Int) (n v : Nat) : Int :=
  ∑ j ∈ range n, gap l v j

def Behind (l : Nat -> Int) (n v : Nat) : Prop :=
  forall j, j < n -> 0 <= gap l v j

@[simp] theorem gap_self (l : Nat -> Int) (v : Nat) : gap l v v = 0 := by
  simp [gap]

theorem lead_nonneg {l : Nat -> Int} {n v : Nat} (h : Behind l n v) :
    0 <= lead l n v := by
  apply sum_nonneg
  intro j hj
  exact h j (mem_range.mp hj)

theorem behind_of_max {l : Nat -> Int} {n v : Nat}
    (hmax : forall j, j < n -> l j <= l v) : Behind l n v := by
  intro j hj
  have hle := hmax j hj
  unfold gap
  split <;> omega

def give (l : Nat -> Int) (p : Nat) : Nat -> Int :=
  Function.update l p (l p + 1)

theorem gap_give_self (l : Nat -> Int) {v j : Nat} (hj : j ≠ v) :
    gap (give l v) v j = gap l v j + 1 := by
  unfold gap give
  rw [Function.update_self, Function.update_of_ne hj]
  split <;> ring

theorem gap_give_of_ne (l : Nat -> Int) {p v j : Nat} (hp : p ≠ v) :
    gap (give l p) v j = if j = p then gap l v j - 1 else gap l v j := by
  unfold gap give
  rw [Function.update_of_ne hp.symm]
  by_cases hj : j = p
  · subst hj
    rw [Function.update_self, if_pos rfl]
    split <;> ring
  · rw [Function.update_of_ne hj, if_neg hj]

theorem gap_eq_zero {l : Nat -> Int} {n v : Nat} (h : Behind l n v)
    (hv : FirstMin l n v) {j : Nat} (hj : j < n) : gap l v j = 0 := by
  apply le_antisymm _ (h j hj)
  unfold gap
  split
  · rename_i hlt
    have hfirst := hv.first j hlt
    omega
  · have hle := hv.le j hj
    omega

theorem gap_pos {l : Nat -> Int} {n p v : Nat} (hv : v < n)
    (hp : FirstMin l n p) (hne : p ≠ v) : 0 < gap l v p := by
  unfold gap
  split
  · have hle := hp.le v hv
    omega
  · rename_i hge
    have hfirst := hp.first v (by omega)
    omega

theorem firstMin_iff_lead {l : Nat -> Int} {n p v : Nat} (h : Behind l n v)
    (hv : v < n) (hp : FirstMin l n p) : p = v <-> lead l n v = 0 := by
  constructor
  · intro heq
    subst heq
    apply sum_eq_zero
    intro j hj
    exact gap_eq_zero h hp (mem_range.mp hj)
  · intro hzero
    by_contra hne
    have hall := (sum_eq_zero_iff_of_nonneg
      (fun j hj => h j (mem_range.mp hj))).mp hzero
    have hpos := gap_pos hv hp hne
    rw [hall p (mem_range.mpr hp.lt)] at hpos
    exact lt_irrefl 0 hpos

theorem lead_give_self {l : Nat -> Int} {n v : Nat} (h : Behind l n v)
    (hv : FirstMin l n v) :
    Behind (give l v) n v ∧ lead (give l v) n v = n - 1 := by
  have hgap : forall j, j < n ->
      gap (give l v) v j = if j = v then 0 else 1 := by
    intro j hj
    split
    · rename_i heq
      rw [heq, gap_self]
    · rename_i hne
      rw [gap_give_self l hne, gap_eq_zero h hv hj, zero_add]
  constructor
  · intro j hj
    rw [hgap j hj]
    split <;> decide
  · have hsum : lead (give l v) n v =
        ∑ j ∈ range n, (1 - if j = v then (1 : Int) else 0) := by
      apply sum_congr rfl
      intro j hj
      rw [hgap j (mem_range.mp hj)]
      split <;> rfl
    rw [hsum, sum_sub_distrib, sum_ite_eq' (range n) v,
      if_pos (mem_range.mpr hv.lt)]
    simp

theorem lead_give_of_ne {l : Nat -> Int} {n p v : Nat} (h : Behind l n v)
    (hv : v < n) (hp : FirstMin l n p) (hne : p ≠ v) :
    Behind (give l p) n v ∧ lead (give l p) n v = lead l n v - 1 := by
  constructor
  · intro j hj
    rw [gap_give_of_ne l hne]
    split
    · rename_i heq
      have hpos := gap_pos hv hp hne
      rw [heq]
      omega
    · exact h j hj
  · have hsum : lead (give l p) n v =
        ∑ j ∈ range n, (gap l v j - if j = p then (1 : Int) else 0) := by
      apply sum_congr rfl
      intro j _
      rw [gap_give_of_ne l hne]
      split <;> ring
    rw [hsum, sum_sub_distrib, sum_ite_eq' (range n) p,
      if_pos (mem_range.mpr hp.lt)]
    rfl

/-!
## The turns of one bin

`Turn n d k` says that a bin with lead `d` gets the unit number `k`.
-/

def Turn (n : Nat) (d : Int) (k : Nat) : Prop :=
  d <= k ∧ (n : Int) ∣ k - d

instance (n : Nat) (d : Int) (k : Nat) : Decidable (Turn n d k) :=
  inferInstanceAs (Decidable (_ ∧ _))

theorem turn_zero {n : Nat} {d : Int} (hd : 0 <= d) :
    Turn n d 0 <-> d = 0 := by
  unfold Turn
  constructor
  · intro h
    exact le_antisymm (by exact_mod_cast h.left) hd
  · intro h
    subst h
    simp

theorem turn_succ_of_lead {n k : Nat} {d : Int} :
    Turn n (d - 1) k <-> Turn n d (k + 1) := by
  unfold Turn
  have hsub : ((k + 1 : Nat) : Int) - d = k - (d - 1) := by
    push_cast
    ring
  rw [hsub]
  constructor
  · intro h
    exact ⟨by push_cast; omega, h.right⟩
  · intro h
    have hle := h.left
    push_cast at hle
    exact ⟨by omega, h.right⟩

theorem turn_succ_of_turn {n k : Nat} :
    Turn n (n - 1) k <-> Turn n 0 (k + 1) := by
  unfold Turn
  have hsub : ((k + 1 : Nat) : Int) - 0 = k - (n - 1) + n := by
    push_cast
    ring
  rw [hsub, dvd_add_self_right]
  constructor
  · intro h
    exact ⟨by omega, h.right⟩
  · intro h
    refine ⟨?_, h.right⟩
    have hdvd : (n : Int) ∣ ((k + 1 : Nat) : Int) := by
      rw [show ((k + 1 : Nat) : Int) = k - (n - 1) + n by push_cast; ring,
        dvd_add_self_right]
      exact h.right
    have hle := Nat.le_of_dvd (Nat.succ_pos k) (Int.natCast_dvd_natCast.mp hdvd)
    omega

end Balancing

end Foundation
end MoonNet
