import Mathlib.Algebra.Order.BigOperators.Group.List
import Mathlib.Data.Int.Order.Basic
import Mathlib.Tactic.Ring

/-!
# How even loads are

Units are dealt out one by one, each to a member with the least load.  The
difference between the greatest and the least load never grows beyond one, and
never at all once it is more than that.
-/

namespace MoonNet
namespace Foundation

namespace Dealing

def spread (loads : List Int) : Int :=
  loads.max?.getD 0 - loads.min?.getD 0

def giveAt (loads : List Int) (i : Nat) : List Int :=
  loads.modify i fun load => load + 1

/-- Member `i` has the load `least`, and no member has less. -/
structure Least (loads : List Int) (i : Nat) (least : Int) : Prop where
  at_idx : loads[i]? = some least
  le : forall load, load ∈ loads -> least <= load

/-- The last loads come from the first by dealing out `n` units. -/
inductive Dealt : List Int -> Nat -> List Int -> Prop where
  | nothing (loads : List Int) : Dealt loads 0 loads
  | unit {loads last : List Int} {i n : Nat} {least : Int}
      (hleast : Least loads i least) (hrest : Dealt (giveAt loads i) n last) :
      Dealt loads (n + 1) last

/-!
## The spread
-/

theorem spread_le_iff {loads : List Int} (hne : loads ≠ []) {d : Int} :
    spread loads <= d <->
      forall x y, x ∈ loads -> y ∈ loads -> x - y <= d := by
  rcases Option.isSome_iff_exists.mp (List.isSome_max?_iff.mpr hne) with
    ⟨high, hhigh⟩
  rcases Option.isSome_iff_exists.mp (List.isSome_min?_iff.mpr hne) with
    ⟨low, hlow⟩
  rcases List.max?_eq_some_iff.mp hhigh with ⟨hhighmem, hhighle⟩
  rcases List.min?_eq_some_iff.mp hlow with ⟨hlowmem, hlowle⟩
  unfold spread
  rw [hhigh, hlow, Option.getD_some, Option.getD_some]
  constructor
  · intro hle x y hx hy
    have hxle := hhighle x hx
    have hyle := hlowle y hy
    omega
  · intro hall
    exact hall high low hhighmem hlowmem

theorem sub_le_spread {loads : List Int} {x y : Int} (hx : x ∈ loads)
    (hy : y ∈ loads) : x - y <= spread loads :=
  (spread_le_iff (List.ne_nil_of_mem hx)).mp (le_refl _) x y hx hy

/-!
## One unit
-/

@[simp] theorem giveAt_length (loads : List Int) (i : Nat) :
    (giveAt loads i).length = loads.length :=
  List.length_modify _ _ _

theorem giveAt_sum {loads : List Int} {i : Nat} (hi : i < loads.length) :
    (giveAt loads i).sum = loads.sum + 1 := by
  unfold giveAt
  induction loads generalizing i with
  | nil =>
      cases hi
  | cons load rest ih =>
      cases i with
      | zero =>
          rw [List.modify_zero_cons, List.sum_cons, List.sum_cons]
          ring
      | succ i =>
          rw [List.modify_succ_cons, List.sum_cons, List.sum_cons,
            ih (Nat.lt_of_succ_lt_succ hi)]
          ring

theorem mem_giveAt {loads : List Int} {i : Nat} {least x : Int}
    (hi : loads[i]? = some least) (hx : x ∈ giveAt loads i) :
    x = least + 1 ∨ x ∈ loads := by
  rcases List.mem_iff_getElem?.mp hx with ⟨j, hj⟩
  unfold giveAt at hj
  rw [List.getElem?_modify] at hj
  by_cases hij : i = j
  · subst hij
    simp only [hi, if_true] at hj
    cases hj
    exact Or.inl rfl
  · simp only [if_neg hij, id_map'] at hj
    exact Or.inr (List.mem_of_getElem? hj)

theorem Least.length_lt {loads : List Int} {i : Nat} {least : Int}
    (h : Least loads i least) : i < loads.length :=
  (List.getElem?_eq_some_iff.mp h.at_idx).1

theorem Least.mem {loads : List Int} {i : Nat} {least : Int}
    (h : Least loads i least) : least ∈ loads :=
  List.mem_of_getElem? h.at_idx

theorem Least.spread_giveAt {loads : List Int} {i : Nat} {least : Int}
    (h : Least loads i least) :
    spread (giveAt loads i) <= max 1 (spread loads) := by
  have hne : giveAt loads i ≠ [] := by
    intro hnil
    have hlen := congrArg List.length hnil
    have hlt := h.length_lt
    rw [giveAt_length, List.length_nil] at hlen
    omega
  rw [spread_le_iff hne]
  intro x y hx hy
  -- The member that got the unit is at most one above any other now.
  rcases mem_giveAt h.at_idx hx with hx | hx
  · rcases mem_giveAt h.at_idx hy with hy | hy
    · omega
    · have hle := h.le y hy
      omega
  · rcases mem_giveAt h.at_idx hy with hy | hy
    · have hle := sub_le_spread hx h.mem
      omega
    · have hle := sub_le_spread hx hy
      omega

/-!
## Any number of units
-/

namespace Dealt

variable {loads last : List Int} {n : Nat}

theorem length_eq (h : Dealt loads n last) : last.length = loads.length := by
  induction h with
  | nothing loads => rfl
  | unit hleast hrest ih => rw [ih, giveAt_length]

theorem sum_eq (h : Dealt loads n last) : last.sum = loads.sum + n := by
  induction h with
  | nothing loads => simp
  | unit hleast hrest ih =>
      rw [ih, giveAt_sum hleast.length_lt]
      push_cast
      ring

theorem spread_le (h : Dealt loads n last) :
    spread last <= max 1 (spread loads) := by
  induction h with
  | nothing loads => exact le_max_right _ _
  | unit hleast hrest ih =>
      have hone := hleast.spread_giveAt
      omega

end Dealt

theorem Least.lt_of_sum_lt {loads : List Int} {i : Nat} {least bound : Int}
    (h : Least loads i least) (hsum : loads.sum < loads.length * bound) :
    least < bound := by
  by_contra hge
  have hle : loads.length • bound <= loads.sum := by
    apply List.card_nsmul_le_sum
    intro load hload
    exact le_trans (not_lt.mp hge) (h.le load hload)
  rw [nsmul_eq_mul] at hle
  omega

end Dealing

end Foundation
end MoonNet
