import Mathlib.Data.List.Basic

/-!
# Loops that leave from their body

A `while (true)` loop whose body either goes on or breaks out.  The number of
rounds is bounded by fuel; a measure that each round decreases shows how much of
it is enough, and what a call does is proved by one rule over the rounds.
-/

namespace MoonNet
namespace Foundation

universe u

inductive Round (state : Type u) where
  | again (s : state)
  | leave (s : state)

variable {state : Type u}

def Round.reached : Round state -> state
  | again s => s
  | leave s => s

def loop (body : state -> Round state) : Nat -> state -> Option state
  | 0, _ => none
  | fuel + 1, s =>
      match body s with
      | Round.again s => loop body fuel s
      | Round.leave s => some s

/-- The loop returns `t` as soon as it has enough fuel. -/
def LoopReturns (body : state -> Round state) (s t : state) : Prop :=
  exists bound, forall fuel, bound < fuel -> loop body fuel s = some t

theorem loop_leave {body : state -> Round state} {s t : state}
    (hbody : body s = Round.leave t) (fuel : Nat) :
    loop body (fuel + 1) s = some t := by
  simp only [loop, hbody]

theorem loop_again {body : state -> Round state} {s s' : state}
    (hbody : body s = Round.again s') (fuel : Nat) :
    loop body (fuel + 1) s = loop body fuel s' := by
  simp only [loop, hbody]

namespace LoopReturns

theorem of_leave {body : state -> Round state} {s t : state}
    (hbody : body s = Round.leave t) : LoopReturns body s t := by
  refine ⟨0, fun fuel hfuel => ?_⟩
  cases fuel with
  | zero => cases hfuel
  | succ fuel => exact loop_leave hbody fuel

theorem of_again {body : state -> Round state} {s s' t : state}
    (hbody : body s = Round.again s') (hrest : LoopReturns body s' t) :
    LoopReturns body s t := by
  rcases hrest with ⟨bound, hbound⟩
  refine ⟨bound + 1, fun fuel hfuel => ?_⟩
  cases fuel with
  | zero => cases hfuel
  | succ fuel =>
      rw [loop_again hbody]
      exact hbound fuel (Nat.lt_of_succ_lt_succ hfuel)

theorem rest_of_again {body : state -> Round state} {s s' t : state}
    (h : LoopReturns body s t) (hbody : body s = Round.again s') :
    LoopReturns body s' t := by
  rcases h with ⟨bound, hbound⟩
  refine ⟨bound, fun fuel hfuel => ?_⟩
  rw [← loop_again hbody]
  exact hbound (fuel + 1) (Nat.lt_succ_of_lt hfuel)

theorem of_loop {body : state -> Round state} {n : Nat} {s t : state}
    (h : loop body n s = some t) : LoopReturns body s t := by
  induction n generalizing s with
  | zero => cases h
  | succ n ih =>
      cases hbody : body s with
      | again s' =>
          rw [loop_again hbody] at h
          exact of_again hbody (ih h)
      | leave s' =>
          rw [loop_leave hbody] at h
          cases h
          exact of_leave hbody

theorem unique {body : state -> Round state} {s t u : state}
    (ht : LoopReturns body s t) (hu : LoopReturns body s u) : t = u := by
  rcases ht with ⟨m, hm⟩
  rcases hu with ⟨n, hn⟩
  have hboth := (hm (max m n + 1) (by omega)).symm.trans
    (hn (max m n + 1) (by omega))
  exact Option.some.inj hboth

end LoopReturns

theorem exists_returns {body : state -> Round state} {size : state -> Nat}
    (hless : forall {s s'}, body s = Round.again s' -> size s' < size s)
    (s : state) : exists t, LoopReturns body s t := by
  induction hsize : size s using Nat.strongRecOn generalizing s with
  | ind n ih =>
      cases hbody : body s with
      | again s' =>
          rcases ih (size s') (hsize ▸ hless hbody) s' rfl with ⟨t, ht⟩
          exact ⟨t, LoopReturns.of_again hbody ht⟩
      | leave t => exact ⟨t, LoopReturns.of_leave hbody⟩

theorem LoopReturns.induction {body : state -> Round state}
    (Rel : state -> state -> Prop)
    (hleave : forall {s t}, body s = Round.leave t -> Rel s t)
    (hagain : forall {s s' t}, body s = Round.again s' -> LoopReturns body s' t ->
      Rel s' t -> Rel s t)
    {s t : state} (h : LoopReturns body s t) : Rel s t := by
  have hrounds : forall fuel s, loop body fuel s = some t ->
      LoopReturns body s t -> Rel s t := by
    intro fuel
    induction fuel with
    | zero =>
        intro s hrun
        cases hrun
    | succ fuel ih =>
        intro s hrun hreturns
        cases hbody : body s with
        | again s' =>
            rw [loop_again hbody] at hrun
            have hrest := hreturns.rest_of_again hbody
            exact hagain hbody hrest (ih s' hrun hrest)
        | leave s' =>
            rw [loop_leave hbody] at hrun
            cases hrun
            exact hleave hbody
  rcases h with ⟨bound, hbound⟩
  exact hrounds _ s (hbound _ (Nat.lt_succ_self _)) ⟨bound, hbound⟩

/-- A loop that finds a reason to go on in each round never returns. -/
theorem not_returns_of_invariant {body : state -> Round state}
    (Inv : state -> Prop)
    (hagain : forall s, Inv s -> exists s', body s = Round.again s' ∧ Inv s')
    {s t : state} (hs : Inv s) : ¬ LoopReturns body s t := by
  intro h
  refine LoopReturns.induction (fun s _ => ¬ Inv s) ?_ ?_ h hs
  · intro s t hleave hinv
    rcases hagain s hinv with ⟨s', hs', _⟩
    rw [hs'] at hleave
    cases hleave
  · intro s s' t hround _ hrest hinv
    rcases hagain s hinv with ⟨u, hu, huinv⟩
    rw [hu] at hround
    cases hround
    exact hrest huinv

inductive Visited (body : state -> Round state) : state -> state -> Prop where
  | here {s : state} : Visited body s s
  | later {s s' u : state} (hbody : body s = Round.again s')
      (h : Visited body s' u) : Visited body s u

theorem Visited.snoc {body : state -> Round state} {s u v : state}
    (h : Visited body s u) (hbody : body u = Round.again v) :
    Visited body s v := by
  induction h with
  | here => exact Visited.later hbody Visited.here
  | later hfirst _ ih => exact Visited.later hfirst (ih hbody)

theorem visited_iff_of_leave {body : state -> Round state} {s t u : state}
    (hbody : body s = Round.leave t) : Visited body s u <-> u = s := by
  constructor
  · intro h
    cases h with
    | here => rfl
    | later hagain _ =>
        rw [hbody] at hagain
        cases hagain
  · rintro rfl
    exact Visited.here

theorem visited_iff_of_again {body : state -> Round state} {s s' u : state}
    (hbody : body s = Round.again s') :
    Visited body s u <-> u = s ∨ Visited body s' u := by
  constructor
  · intro h
    cases h with
    | here => exact Or.inl rfl
    | later hagain h =>
        rw [hbody] at hagain
        cases hagain
        exact Or.inr h
  · intro h
    cases h with
    | inl hsame =>
        subst hsame
        exact Visited.here
    | inr h => exact Visited.later hbody h

end Foundation
end MoonNet
