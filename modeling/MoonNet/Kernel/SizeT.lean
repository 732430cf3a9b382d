import Mathlib.Algebra.Group.Nat.Defs
import Mathlib.Tactic.Common

/-!
# `size_t` and `ssize_t`

Sums and differences of `size_t` values wrap at `2 ^ 64`.  What a system call
returns is a `ssize_t`; a conversion keeps the value modulo `2 ^ 64`.
-/

namespace MoonNet

/-- The number of values of `size_t`. -/
def SIZE_T : Nat := 2 ^ 64

/-- The greatest `ssize_t`. -/
def SSIZE_MAX : Nat := 2 ^ 63 - 1

namespace SizeT

def add (a b : Nat) : Nat :=
  (a + b) % SIZE_T

def sub (a b : Nat) : Nat :=
  (a + SIZE_T - b) % SIZE_T

/-- A `ssize_t` converted to `size_t`. -/
def ofSsize (x : Int) : Nat :=
  (x % SIZE_T).toNat

/-- A `size_t` converted to `ssize_t`. -/
def toSsize (a : Nat) : Int :=
  if a <= SSIZE_MAX then a else a - SIZE_T

theorem add_eq {a b : Nat} (hlt : a + b < SIZE_T) : add a b = a + b :=
  Nat.mod_eq_of_lt hlt

theorem sub_eq {a b : Nat} (hle : b <= a) (hlt : a - b < SIZE_T) :
    sub a b = a - b := by
  unfold sub
  rw [Nat.sub_add_comm hle, Nat.add_mod_right, Nat.mod_eq_of_lt hlt]

theorem lt_of_le_max {a : Nat} (ha : a <= SSIZE_MAX) : a < SIZE_T := by
  unfold SSIZE_MAX at ha
  unfold SIZE_T
  omega

theorem ofSsize_natCast {a : Nat} (ha : a <= SSIZE_MAX) :
    ofSsize (a : Int) = a := by
  have hlt : (a : Int) < SIZE_T := Int.ofNat_lt.mpr (lt_of_le_max ha)
  unfold ofSsize
  rw [Int.emod_eq_of_lt (Int.natCast_nonneg a) hlt, Int.toNat_natCast]

theorem sub_ofSsize {left count : Nat} (hle : count <= left)
    (hleft : left <= SSIZE_MAX) : sub left (ofSsize count) = left - count := by
  have hlt : left - count < SIZE_T :=
    lt_of_le_max (Nat.le_trans (Nat.sub_le left count) hleft)
  rw [ofSsize_natCast (Nat.le_trans hle hleft), sub_eq hle hlt]

theorem toSsize_eq {a : Nat} (ha : a <= SSIZE_MAX) : toSsize a = a :=
  if_pos ha

end SizeT

end MoonNet
