import Mathlib.Order.Bounds.Basic
import Mathlib.Data.Set.Finite.Lattice
import MoonNet.Foundation.Loop

/-!
# Transfers in several calls

A transfer of `n` units is made by calls, one after the other: a call moves some
units, or it is to be made again, or it stops the transfer.  The calls are given
as an endless sequence, of which the transfer makes as many as it needs.
-/

namespace MoonNet
namespace Foundation

universe u

inductive Outcome where
  | moves (count : Nat)
  | retries
  | stops
deriving DecidableEq, Repr

def Outcome.count : Outcome -> Nat
  | Outcome.moves count => count
  | Outcome.retries | Outcome.stops => 0

def moved (calls : Nat -> Outcome) : Nat -> Nat
  | 0 => 0
  | i + 1 => moved calls i + (calls i).count

variable {calls : Nat -> Outcome} {n i j : Nat}

def GoesOn (calls : Nat -> Outcome) (n i : Nat) : Prop :=
  forall j, j < i -> moved calls j < n ∧ calls j ≠ Outcome.stops

def Made (calls : Nat -> Outcome) (n i : Nat) : Prop :=
  GoesOn calls n i ∧ moved calls i < n

def EndsAt (calls : Nat -> Outcome) (n i : Nat) : Prop :=
  GoesOn calls n i ∧
    (moved calls i = n ∨ moved calls i < n ∧ calls i = Outcome.stops)

theorem goesOn_zero : GoesOn calls n 0 :=
  nofun

theorem goesOn_succ :
    GoesOn calls n (i + 1) <-> Made calls n i ∧ calls i ≠ Outcome.stops := by
  constructor
  · intro h
    have hlast := h i (Nat.lt_add_one i)
    exact ⟨⟨fun j hj => h j (Nat.lt_succ_of_lt hj), hlast.left⟩, hlast.right⟩
  · rintro ⟨⟨hgoes, hshort⟩, hgo⟩ j hj
    rcases Nat.lt_succ_iff_lt_or_eq.mp hj with hlt | heq
    · exact hgoes j hlt
    · rw [heq]
      exact ⟨hshort, hgo⟩

theorem EndsAt.unique (hi : EndsAt calls n i) (hj : EndsAt calls n j) :
    i = j := by
  have hle : forall {i j}, EndsAt calls n i -> EndsAt calls n j -> ¬ i < j := by
    intro i j hi hj hlt
    rcases hj.left i hlt with ⟨hshort, hgo⟩
    rcases hi.right with hfull | hstops
    · exact Nat.ne_of_lt hshort hfull
    · exact hgo hstops.right
  exact Nat.le_antisymm (Nat.le_of_not_lt (hle hj hi))
    (Nat.le_of_not_lt (hle hi hj))

def Partial (calls : Nat -> Outcome) (n : Nat) : Prop :=
  forall i, Made calls n i -> forall count, calls i = Outcome.moves count ->
    0 < count ∧ moved calls i + count <= n

theorem moved_le (hpart : Partial calls n) (h : GoesOn calls n i) :
    moved calls i <= n := by
  cases i with
  | zero => exact Nat.zero_le n
  | succ i =>
      rcases goesOn_succ.mp h with ⟨hmade, _⟩
      rw [moved]
      cases hcall : calls i with
      | moves count => exact (hpart i hmade count hcall).right
      | retries => exact Nat.le_of_lt hmade.right
      | stops => exact Nat.le_of_lt hmade.right

theorem le_moved {m k : Nat} (hpart : Partial calls n)
    (hretries : forall i, m <= i -> calls i ≠ Outcome.retries)
    (h : GoesOn calls n (m + k)) : k <= moved calls (m + k) := by
  induction k with
  | zero => exact Nat.zero_le _
  | succ k ih =>
      rcases goesOn_succ.mp h with ⟨hmade, hgo⟩
      have hk := ih hmade.left
      show k + 1 <= moved calls (m + k) + (calls (m + k)).count
      cases hcall : calls (m + k) with
      | moves count =>
          have hpos := (hpart _ hmade count hcall).left
          exact Nat.add_le_add hk hpos
      | retries => exact absurd hcall (hretries _ (Nat.le_add_right m k))
      | stops => exact absurd hcall hgo

theorem exists_ends (hpart : Partial calls n)
    (hretries : {i | calls i = Outcome.retries}.Finite) :
    exists i, EndsAt calls n i := by
  rcases hretries.bddAbove with ⟨m, hm⟩
  by_contra hnever
  have hgoes : forall i, GoesOn calls n i := by
    intro i
    induction i with
    | zero => exact goesOn_zero
    | succ i ih =>
        have hshort : moved calls i < n :=
          Nat.lt_of_le_of_ne (moved_le hpart ih)
            (fun hfull => hnever ⟨i, ih, Or.inl hfull⟩)
        exact goesOn_succ.mpr ⟨⟨ih, hshort⟩,
          fun hstops => hnever ⟨i, ih, Or.inr ⟨hshort, hstops⟩⟩⟩
  have hlate : forall i, m + 1 <= i -> calls i ≠ Outcome.retries :=
    fun i hi hcall => absurd (hm hcall) (Nat.not_le_of_lt hi)
  have hall := le_moved hpart hlate (hgoes (m + 1 + n))
  have hshort := ((hgoes (m + 1 + n + 1)) (m + 1 + n) (Nat.lt_add_one _)).left
  exact Nat.not_le_of_lt hshort hall

/-!
## Loops that make the calls

`states i` is the state in which a loop is after `i` calls.
-/

variable {state : Type u} {body : state -> Round state} {states : Nat -> state}

theorem Visited.of_goesOn
    (hround : forall i, Visited body (states 0) (states i) ->
      Made calls n i -> calls i ≠ Outcome.stops ->
        body (states i) = Round.again (states (i + 1)))
    (h : GoesOn calls n i) : Visited body (states 0) (states i) := by
  induction i with
  | zero => exact Visited.here
  | succ i ih =>
      rcases goesOn_succ.mp h with ⟨hmade, hgo⟩
      have hvisited := ih hmade.left
      exact hvisited.snoc (hround i hvisited hmade hgo)

theorem LoopReturns.of_goesOn {t : state}
    (hround : forall i, Visited body (states 0) (states i) ->
      Made calls n i -> calls i ≠ Outcome.stops ->
        body (states i) = Round.again (states (i + 1)))
    (h : GoesOn calls n i) (hrest : LoopReturns body (states i) t) :
    LoopReturns body (states 0) t := by
  induction i with
  | zero => exact hrest
  | succ i ih =>
      rcases goesOn_succ.mp h with ⟨hmade, hgo⟩
      have hvisited := Visited.of_goesOn hround hmade.left
      exact ih hmade.left
        (LoopReturns.of_again (hround i hvisited hmade hgo) hrest)

theorem exists_returns_of_calls {Post : state -> Prop}
    (hround : forall i, Visited body (states 0) (states i) ->
      Made calls n i -> calls i ≠ Outcome.stops ->
        body (states i) = Round.again (states (i + 1)))
    (hpart : Partial calls n)
    (hretries : {i | calls i = Outcome.retries}.Finite)
    (hfull : forall i, EndsAt calls n i -> moved calls i = n ->
      exists t, body (states i) = Round.leave t ∧ Post t)
    (hstops : forall i, EndsAt calls n i -> Made calls n i ->
      calls i = Outcome.stops ->
        exists t, body (states i) = Round.leave t ∧ Post t) :
    exists t, LoopReturns body (states 0) t ∧ Post t := by
  rcases exists_ends hpart hretries with ⟨i, hends⟩
  have hlast : exists t, body (states i) = Round.leave t ∧ Post t := by
    rcases hends.right with hall | ⟨hshort, hstop⟩
    · exact hfull i hends hall
    · exact hstops i hends ⟨hends.left, hshort⟩ hstop
  rcases hlast with ⟨t, ht, hpost⟩
  exact ⟨t, LoopReturns.of_goesOn hround hends.left
    (LoopReturns.of_leave ht), hpost⟩

end Foundation
end MoonNet
