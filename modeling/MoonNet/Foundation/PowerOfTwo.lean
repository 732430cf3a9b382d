import Mathlib.Data.Nat.Size
import Mathlib.Data.Nat.Bitwise

/-!
# Rounding up to a power of two

The usual bit trick ors a number with its own right shifts until every bit
below the highest set bit is set.  `Smeared k n m` says what `m` is after shifts
that sum up to `k - 1`.
-/

namespace MoonNet
namespace Foundation

def Smeared (k n m : Nat) : Prop :=
  forall i, m.testBit i = true <->
    exists j, j < k ∧ n.testBit (i + j) = true

theorem smeared_one (n : Nat) : Smeared 1 n n := by
  intro i
  constructor
  · intro h
    exact ⟨0, Nat.one_pos, h⟩
  · intro h
    rcases h with ⟨j, hj, hbit⟩
    have hzero : j = 0 := by
      omega
    simpa [hzero] using hbit

theorem Smeared.orShift {k n m s : Nat} (h : Smeared k n m) (hs : s <= k) :
    Smeared (k + s) n (m ||| m >>> s) := by
  intro i
  rw [Nat.testBit_or, Nat.testBit_shiftRight, Bool.or_eq_true]
  constructor
  · intro hbit
    cases hbit with
    | inl hlow =>
        rcases (h i).mp hlow with ⟨j, hj, hn⟩
        exact ⟨j, by omega, hn⟩
    | inr hhigh =>
        rcases (h (s + i)).mp hhigh with ⟨j, hj, hn⟩
        refine ⟨s + j, by omega, ?_⟩
        rw [show i + (s + j) = s + i + j by omega]
        exact hn
  · intro hbit
    rcases hbit with ⟨j, hj, hn⟩
    by_cases hlow : j < k
    · exact Or.inl ((h i).mpr ⟨j, hlow, hn⟩)
    · apply Or.inr
      apply (h (s + i)).mpr
      refine ⟨j - s, by omega, ?_⟩
      rw [show s + i + (j - s) = i + j by omega]
      exact hn

theorem Smeared.eq_size {k n m : Nat} (h : Smeared k n m) (hn : n < 2 ^ k) :
    m = 2 ^ n.size - 1 := by
  apply Nat.eq_of_testBit_eq
  intro i
  rw [Nat.testBit_two_pow_sub_one, Bool.eq_iff_iff, decide_eq_true_iff,
    Nat.lt_size, h i]
  constructor
  · intro hbit
    rcases hbit with ⟨j, _, hj⟩
    have hge : 2 ^ (i + j) <= n := Nat.ge_two_pow_of_testBit hj
    exact Nat.le_trans (Nat.pow_le_pow_right (by decide) (by omega)) hge
  · intro hge
    rcases Nat.exists_ge_and_testBit_of_ge_two_pow hge with ⟨p, hp, hbit⟩
    have hlt : p < k := by
      have hpn : 2 ^ p <= n := Nat.ge_two_pow_of_testBit hbit
      exact (Nat.pow_lt_pow_iff_right (by decide)).mp
        (Nat.lt_of_le_of_lt hpn hn)
    refine ⟨p - i, by omega, ?_⟩
    rw [show i + (p - i) = p by omega]
    exact hbit

theorem le_two_pow_size_pred {n : Nat} : n <= 2 ^ (n - 1).size := by
  have h := Nat.lt_size_self (n - 1)
  omega

theorem two_pow_size_pred_le {n k : Nat} (h : n <= 2 ^ k) (hpos : 0 < n) :
    2 ^ (n - 1).size <= 2 ^ k := by
  have hsize : (n - 1).size <= k := by
    rw [Nat.size_le]
    omega
  exact Nat.pow_le_pow_right (by decide) hsize

end Foundation
end MoonNet
