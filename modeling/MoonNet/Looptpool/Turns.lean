import MoonNet.Looptpool.Removal

/-!
# Where a removed loop's events go

The events of a removed loop are dispatched while it is still in the pool, in
turns or to the least load.  In both modes the loop that has just been given an
event by reason of its turn is not next again, so that with two loops or more
all of its events come back to it only if there is at most one.
-/

namespace MoonNet

open Foundation
open Foundation.Balancing

universe u

namespace Looptpool

variable {E : Type u} {fd : E -> Int} {mask : E -> Mask} {refused : E -> Bool}

/-- `t_num` counts the loops, and there is one. -/
structure Running (p : Looptpool E) : Prop where
  tNum_eq : p.tNum = p.loadvec.length
  nonempty : 0 < p.loadvec.length

/-- The index of the loop that `ev_dispatch` returns. -/
def nextLoop (p : Looptpool E) : Nat :=
  if p.dispath then p.getminload else (p.next + 1) % p.tNum

theorem evDispatch_snd {p : Looptpool E} (h : Running p) :
    p.evDispatch.snd = some p.nextLoop := by
  have htNum : p.tNum ≠ 0 := by
    rw [h.tNum_eq]
    exact Nat.ne_of_gt h.nonempty
  unfold evDispatch nextLoop
  rw [if_neg htNum]
  split <;> rfl

theorem nextLoop_lt {p : Looptpool E} (h : Running p) :
    p.nextLoop < p.loadvec.length := by
  unfold nextLoop
  split
  · exact (getminload_firstMin h.nonempty).lt
  · rw [h.tNum_eq]
    exact Nat.mod_lt _ h.nonempty

theorem dispatchEvent_of_running {p : Looptpool E} (h : Running p) (ev : E) :
    p.dispatchEvent fd mask refused ev =
      { p with
        next := if p.dispath then p.next else p.nextLoop
        loadvec := p.loadvec.modify p.nextLoop fun loop =>
          loop.addEvent fd ev (mask ev) (refused ev) } := by
  have htNum : p.tNum ≠ 0 := by
    rw [h.tNum_eq]
    exact Nat.ne_of_gt h.nonempty
  unfold dispatchEvent evDispatch nextLoop
  rw [if_neg htNum]
  cases hdispath : p.dispath with
  | true => simp [hdispath]
  | false => simp

section Dispatch

variable {p : Looptpool E}

theorem dispatchEvent_running (h : Running p) (ev : E) :
    Running (p.dispatchEvent fd mask refused ev) := by
  rw [dispatchEvent_of_running h]
  constructor
  · show p.tNum = (p.loadvec.modify _ _).length
    rw [List.length_modify]
    exact h.tNum_eq
  · show 0 < (p.loadvec.modify _ _).length
    rw [List.length_modify]
    exact h.nonempty

theorem dispatchEvent_length (h : Running p) (ev : E) :
    (p.dispatchEvent fd mask refused ev).loadvec.length =
      p.loadvec.length := by
  rw [dispatchEvent_of_running h]
  exact List.length_modify _ _ _

theorem dispatchEvent_base (h : Running p) (ev : E) :
    (p.dispatchEvent fd mask refused ev).base = p.base := by
  rw [dispatchEvent_of_running h]

theorem dispatchEvent_evlistAt_nextLoop (h : Running p) (ev : E) (j : Nat) :
    (p.dispatchEvent fd mask refused ev).evlistAt j =
      if p.nextLoop = j then p.evlistAt j ++ [ev] else p.evlistAt j := by
  have hlt := nextLoop_lt h
  rw [dispatchEvent_of_running h]
  unfold evlistAt
  rw [List.getElem?_modify]
  split
  · rename_i hj
    subst hj
    rw [List.getElem?_eq_getElem hlt]
    simp [Eventloop.addEvent_evlist]
  · simp

theorem nextLoop_moves {v : Nat} (h : Running p)
    (htwo : 2 <= p.loadvec.length)
    (hmax : forall j, j < p.loadvec.length -> p.loadAt j <= p.loadAt v)
    (hnext : p.nextLoop = v) (ev : E) :
    (p.dispatchEvent fd mask refused ev).nextLoop ≠ v := by
  have hv : v < p.loadvec.length := hnext ▸ nextLoop_lt h
  have hrunning := @dispatchEvent_running E fd mask refused _ h ev
  cases hdispath : p.dispath with
  | true =>
      have hlive : Live p :=
        { dispath_eq := hdispath, tNum_eq := h.tNum_eq, nonempty := h.nonempty }
      have hmin : p.getminload = v := by
        rw [<- hnext, nextLoop, if_pos hdispath]
      have hloads := @dispatchEvent_loadAt E fd mask refused _ hlive ev
      have hlive' := (@dispatchEvent_live E fd mask refused _ hlive ev).left
      have hfirst := getminload_firstMin hrunning.nonempty
      intro heq
      rw [nextLoop, if_pos hlive'.dispath_eq] at heq
      rw [hloads, heq, hmin, dispatchEvent_length h] at hfirst
      -- Some other loop had at most this load and was given nothing.
      have hother : exists j, j < p.loadvec.length ∧ j ≠ v := by
        cases v with
        | zero => exact ⟨1, by omega, by omega⟩
        | succ v => exact ⟨0, by omega, by omega⟩
      rcases hother with ⟨j, hj, hne⟩
      have hle := hfirst.le j hj
      rw [give, Function.update_self, Function.update_of_ne hne] at hle
      have hbefore := hmax j hj
      omega
  | false =>
      have hmod : (p.next + 1) % p.tNum = v := by
        rw [<- hnext, nextLoop, hdispath]
        rfl
      have hafter : (p.dispatchEvent fd mask refused ev).nextLoop =
          (v + 1) % p.loadvec.length := by
        rw [dispatchEvent_of_running h]
        unfold nextLoop
        rw [hdispath, h.tNum_eq]
        simp only [Bool.false_eq_true, if_false]
        rw [<- h.tNum_eq, hmod]
      rw [hafter]
      intro heq
      by_cases hlast : v + 1 < p.loadvec.length
      · rw [Nat.mod_eq_of_lt hlast] at heq
        omega
      · rw [show v + 1 = p.loadvec.length by omega, Nat.mod_self] at heq
        omega

/-!
## A list of events
-/

theorem dispatchAll_running (h : Running p) (evs : List E) :
    Running (evs.foldl (dispatchEvent fd mask refused) p) ∧
      (evs.foldl (dispatchEvent fd mask refused) p).loadvec.length =
        p.loadvec.length ∧
      (evs.foldl (dispatchEvent fd mask refused) p).base = p.base := by
  induction evs generalizing p with
  | nil =>
      exact ⟨h, rfl, rfl⟩
  | cons ev rest ih =>
      rcases ih (dispatchEvent_running h ev) with ⟨hrest, hlen, hbase⟩
      exact ⟨hrest, hlen.trans (dispatchEvent_length h ev),
        hbase.trans (dispatchEvent_base h ev)⟩

theorem mem_dispatchAll (h : Running p) (evs : List E) (j : Nat) (ev : E) :
    (ev ∈ p.evlistAt j ->
        ev ∈ (evs.foldl (dispatchEvent fd mask refused) p).evlistAt j) ∧
      (ev ∈ (evs.foldl (dispatchEvent fd mask refused) p).evlistAt j ->
        ev ∈ p.evlistAt j ∨ ev ∈ evs) := by
  induction evs generalizing p with
  | nil =>
      exact ⟨id, Or.inl⟩
  | cons first rest ih =>
      have hone := @dispatchEvent_evlistAt_nextLoop E fd mask refused _ h first j
      rcases ih (dispatchEvent_running h first) with ⟨hkeeps, hgets⟩
      rw [hone] at hkeeps hgets
      rw [List.foldl_cons]
      constructor
      · intro hev
        apply hkeeps
        split
        · exact List.mem_append_left _ hev
        · exact hev
      · intro hev
        rcases hgets hev with hold | hrest
        · split at hold
          · rcases List.mem_append.mp hold with hbefore | hfirst
            · exact Or.inl hbefore
            · rw [List.mem_singleton.mp hfirst]
              exact Or.inr List.mem_cons_self
          · exact Or.inl hold
        · exact Or.inr (List.mem_cons_of_mem _ hrest)

theorem mem_dispatchAll_nextLoop (h : Running p) (ev : E) (rest : List E) :
    ev ∈ ((ev :: rest).foldl (dispatchEvent fd mask refused) p).evlistAt
      p.nextLoop := by
  rw [List.foldl_cons]
  apply (mem_dispatchAll (dispatchEvent_running h ev) rest _ ev).left
  rw [dispatchEvent_evlistAt_nextLoop h, if_pos rfl]
  exact List.mem_append_right _ List.mem_cons_self

/--
All of the events are sure to come back to loop `v`: it is the only one, or
there is no event, or just one, and `v` is next.
-/
def Returns (p : Looptpool E) (v : Nat) (evs : List E) : Prop :=
  p.loadvec.length = 1 ∨ evs = [] ∨ evs.length = 1 ∧ p.nextLoop = v

theorem others_keep {v : Nat} (h : Running p) (hv : v < p.loadvec.length)
    {evs : List E} (hreturns : p.Returns v evs) {j : Nat} (hj : j ≠ v) :
    (evs.foldl (dispatchEvent fd mask refused) p).evlistAt j =
      p.evlistAt j := by
  have hone : forall (q : Looptpool E) (ev : E), Running q -> q.nextLoop = v ->
      (q.dispatchEvent fd mask refused ev).evlistAt j = q.evlistAt j := by
    intro q ev hq hnext
    rw [dispatchEvent_evlistAt_nextLoop hq, hnext, if_neg (Ne.symm hj)]
  rcases hreturns with hsingle | hnil | ⟨hlen, hnext⟩
  · induction evs generalizing p with
    | nil =>
        rfl
    | cons ev rest ih =>
        have hlt := nextLoop_lt h
        have hlen := @dispatchEvent_length E fd mask refused _ h ev
        rw [List.foldl_cons, ih (dispatchEvent_running h ev) (hlen ▸ hv)
          (hlen.trans hsingle)]
        exact hone p ev h (by omega)
  · rw [hnil]
    rfl
  · rcases List.length_eq_one_iff.mp hlen with ⟨ev, hev⟩
    rw [hev]
    exact hone p ev h hnext

theorem stray_of_not_returns {v : Nat} (h : Running p)
    (hmax : forall j, j < p.loadvec.length -> p.loadAt j <= p.loadAt v)
    {evs : List E} (hreturns : ¬ p.Returns v evs) :
    exists j ev, j < p.loadvec.length ∧ j ≠ v ∧ ev ∈ evs ∧
      ev ∈ (evs.foldl (dispatchEvent fd mask refused) p).evlistAt j := by
  have htwo : 2 <= p.loadvec.length := by
    have hnot : p.loadvec.length ≠ 1 := fun hone => hreturns (Or.inl hone)
    have hpos := h.nonempty
    omega
  cases evs with
  | nil =>
      exact absurd (Or.inr (Or.inl rfl)) hreturns
  | cons ev rest =>
      by_cases hnext : p.nextLoop = v
      · cases rest with
        | nil =>
            exact absurd (Or.inr (Or.inr ⟨rfl, hnext⟩)) hreturns
        | cons second rest =>
            have hrunning := @dispatchEvent_running E fd mask refused _ h ev
            have hlt := nextLoop_lt hrunning
            rw [dispatchEvent_length h] at hlt
            exact ⟨_, second, hlt, nextLoop_moves h htwo hmax hnext ev,
              List.mem_cons_of_mem _ List.mem_cons_self,
              mem_dispatchAll_nextLoop hrunning second rest⟩
      · exact ⟨_, ev, nextLoop_lt h, hnext, List.mem_cons_self,
          mem_dispatchAll_nextLoop h ev rest⟩

end Dispatch

end Looptpool

end MoonNet
