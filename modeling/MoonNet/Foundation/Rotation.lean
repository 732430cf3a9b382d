import Mathlib.Data.Int.CardIntervalMod

/-!
# Taking turns

Members `0, ..., t - 1` take turns, beginning with the one behind `start`.  The
turns of one member are a residue class, so that the members have had as many
turns as each other up to one.
-/

namespace MoonNet
namespace Foundation

namespace Rotation

def turns (t start n : Nat) : List Nat :=
  (List.range n).map fun k => (start + 1 + k) % t

/-- `n` picks among `t` members, as many of each as `n / t` rounded. -/
structure Fair (t n : Nat) (picks : List Nat) : Prop where
  length_eq : picks.length = n
  lt : forall j, j ∈ picks -> j < t
  count : forall j, j < t ->
    picks.count j = n / t ∨ picks.count j = (n + t - 1) / t

variable {t start n : Nat}

theorem turns_succ (t start n : Nat) :
    turns t start (n + 1) = turns t start n ++ [(start + 1 + n) % t] := by
  simp [turns, List.range_succ]

theorem turns_cons (t start n : Nat) :
    turns t start (n + 1) =
      (start + 1) % t :: turns t ((start + 1) % t) n := by
  unfold turns
  rw [List.range_succ_eq_map, List.map_cons, List.map_map]
  congr 1
  apply List.map_congr_left
  intro k _
  show (start + 1 + (k + 1)) % t = ((start + 1) % t + 1 + k) % t
  rw [Nat.add_assoc ((start + 1) % t), Nat.mod_add_mod, Nat.add_comm 1 k]

theorem turn_iff_modEq {j k : Nat} (hj : j < t) :
    (start + 1 + k) % t = j <->
      k ≡ j + (t - (start + 1) % t) [MOD t] := by
  have ht : 0 < t := Nat.lt_of_le_of_lt (Nat.zero_le j) hj
  have hle : (start + 1) % t <= t := Nat.le_of_lt (Nat.mod_lt _ ht)
  have hshift : start + 1 + (j + (t - (start + 1) % t)) ≡ j [MOD t] := by
    have hsplit : start + 1 + (j + (t - (start + 1) % t)) =
        j + ((start + 1) / t * t + t) := by
      have hdiv := Nat.div_add_mod' (start + 1) t
      omega
    rw [hsplit, <- Nat.succ_mul]
    show (j + _ * t) % t = j % t
    rw [Nat.add_mul_mod_self_right]
  constructor
  · intro hturn
    have hsame : start + 1 + k ≡ j [MOD t] := by
      show (start + 1 + k) % t = j % t
      rw [hturn, Nat.mod_eq_of_lt hj]
    exact Nat.ModEq.add_left_cancel' (start + 1) (hsame.trans hshift.symm)
  · intro hmod
    have hsame : start + 1 + k ≡ j [MOD t] :=
      (hmod.add_left (start + 1)).trans hshift
    rw [hsame, Nat.mod_eq_of_lt hj]

theorem count_turns {j : Nat} (hj : j < t) :
    (turns t start n).count j =
      n.count fun k => k ≡ j + (t - (start + 1) % t) [MOD t] := by
  induction n with
  | zero =>
      rfl
  | succ n ih =>
      rw [turns_succ, List.count_append, ih, Nat.count_succ,
        List.count_singleton]
      congr 1
      simp only [beq_iff_eq, turn_iff_modEq hj]

theorem turns_fair (ht : 0 < t) : Fair t n (turns t start n) where
  length_eq := by simp [turns]
  lt := by
    intro j hj
    rcases List.mem_map.mp hj with ⟨k, _, hk⟩
    rw [<- hk]
    exact Nat.mod_lt _ ht
  count := by
    intro j hj
    rw [count_turns hj, Nat.count_modEq_card n ht]
    split
    · rename_i hlt
      right
      have hrem : 0 < n % t := Nat.lt_of_le_of_lt (Nat.zero_le _) hlt
      have hmod : n % t < t := Nat.mod_lt n ht
      have hsplit : n + t - 1 = (n % t - 1) + t * (n / t + 1) := by
        have hdiv := Nat.div_add_mod n t
        rw [Nat.mul_succ]
        omega
      have hzero : (n % t - 1) / t = 0 := Nat.div_eq_of_lt (by omega)
      rw [hsplit, Nat.add_mul_div_left _ _ ht, hzero, zero_add]
    · left
      rfl

end Rotation

end Foundation
end MoonNet
