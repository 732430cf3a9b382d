import Mathlib.Data.List.Perm.Basic
import MoonNet.Foundation.Balancing
import MoonNet.Looptpool.Model

/-!
# Where events are dispatched

The scan for the least load finds the first minimum, so dispatching a list of
events is balancing by least load: the loop of the greatest load is dispatched
to in its turns only.
-/

namespace MoonNet

open Foundation
open Foundation.Balancing

universe u

namespace Looptpool

variable {E : Type u} {fd : E -> Int} {mask : E -> Mask} {refused : E -> Bool}

/-!
## The scan
-/

/-- `idx` is the first place of a list at which `f` is least. -/
structure FirstLeast (f : Int -> Int) (xs : List Int) (idx : Nat)
    (best : Int) : Prop where
  at_idx : xs[idx]? = some best
  le : forall (j : Nat) x, xs[j]? = some x -> f best <= f x
  first : forall (j : Nat) x, j < idx -> xs[j]? = some x -> f best < f x

theorem FirstLeast.snoc_of_lt {f : Int -> Int} {xs : List Int} {idx : Nat}
    {best cur : Int} (h : FirstLeast f xs idx best) (hlt : f cur < f best) :
    FirstLeast f (xs ++ [cur]) xs.length cur := by
  have hold : forall (j : Nat) x, j < xs.length -> (xs ++ [cur])[j]? = some x ->
      f cur < f x := by
    intro j x hj hx
    rw [List.getElem?_append_left hj] at hx
    exact lt_of_lt_of_le hlt (h.le j x hx)
  exact {
    at_idx := by simp
    le := by
      intro j x hx
      by_cases hj : j < xs.length
      · exact le_of_lt (hold j x hj hx)
      · rw [List.getElem?_append_right (by omega),
          List.getElem?_singleton] at hx
        split at hx <;> cases hx
        exact le_refl _
    first := hold }

theorem FirstLeast.snoc_of_le {f : Int -> Int} {xs : List Int} {idx : Nat}
    {best cur : Int} (h : FirstLeast f xs idx best) (hle : f best <= f cur) :
    FirstLeast f (xs ++ [cur]) idx best := by
  have hidx : idx < xs.length := (List.getElem?_eq_some_iff.mp h.at_idx).1
  exact {
    at_idx := by
      rw [List.getElem?_append_left hidx]
      exact h.at_idx
    le := by
      intro j x hx
      by_cases hj : j < xs.length
      · rw [List.getElem?_append_left hj] at hx
        exact h.le j x hx
      · rw [List.getElem?_append_right (by omega),
          List.getElem?_singleton] at hx
        split at hx <;> cases hx
        exact hle
    first := by
      intro j x hj hx
      rw [List.getElem?_append_left (by omega)] at hx
      exact h.first j x hj hx }

theorem pickIdx_firstLeast (f : Int -> Int) {better : Int -> Int -> Bool}
    (hbetter : forall cur best, better cur best = true <-> f cur < f best)
    (rest : List Int) {done : List Int} {idx : Nat} {best : Int}
    (h : FirstLeast f done idx best) :
    exists best',
      FirstLeast f (done ++ rest)
        (pickIdx better best idx done.length rest) best' := by
  induction rest generalizing done idx best with
  | nil =>
      rw [List.append_nil]
      exact ⟨best, h⟩
  | cons cur rest ih =>
      have hsplit : done ++ cur :: rest = (done ++ [cur]) ++ rest := by
        simp
      rw [pickIdx, hsplit]
      split
      · rename_i hcur
        have hnext := ih (h.snoc_of_lt ((hbetter cur best).mp hcur))
        rwa [List.length_append] at hnext
      · rename_i hcur
        have hle : f best <= f cur :=
          not_lt.mp fun hlt => hcur ((hbetter cur best).mpr hlt)
        have hnext := ih (h.snoc_of_le hle)
        rwa [List.length_append] at hnext

theorem firstLeast_singleton (f : Int -> Int) (x : Int) :
    FirstLeast f [x] 0 x where
  at_idx := rfl
  le := by
    intro j y hy
    rw [List.getElem?_singleton] at hy
    split at hy <;> cases hy
    exact le_refl _
  first := by
    intro j y hj _
    omega

theorem pickIdx_greatest (first : Int) (rest : List Int) :
    exists best, FirstLeast (fun x => -x) (first :: rest)
      (pickIdx (fun cur best => decide (best < cur)) first 0 1 rest) best := by
  have hbetter : forall cur best : Int,
      decide (best < cur) = true <-> -cur < -best := by
    intro cur best
    rw [decide_eq_true_iff]
    exact neg_lt_neg_iff.symm
  exact pickIdx_firstLeast (fun x => -x) hbetter rest
    (firstLeast_singleton _ first)

def loadAt (p : Looptpool E) (j : Nat) : Int :=
  (p.loads[j]?).getD 0

theorem loads_eq_some {p : Looptpool E} {j : Nat}
    (hj : j < p.loadvec.length) : p.loads[j]? = some (p.loadAt j) := by
  have hlt : j < p.loads.length := by
    simpa [loads] using hj
  simp [loadAt, List.getElem?_eq_getElem hlt]

theorem getminload_firstMin {p : Looptpool E} (h : 0 < p.loadvec.length) :
    FirstMin p.loadAt p.loadvec.length p.getminload := by
  have hspec : exists best, FirstLeast id p.loads p.getminload best := by
    unfold getminload
    cases hloads : p.loads with
    | nil =>
        have hlen := congrArg List.length hloads
        simp [loads] at hlen
        simp [hlen] at h
    | cons first rest =>
        exact pickIdx_firstLeast id (fun _ _ => decide_eq_true_iff) rest
          (firstLeast_singleton id first)
  rcases hspec with ⟨best, hbest⟩
  have hlt : p.getminload < p.loadvec.length := by
    have hlt := (List.getElem?_eq_some_iff.mp hbest.at_idx).1
    simpa [loads] using hlt
  have hat : p.loadAt p.getminload = best := by
    have hsome := hbest.at_idx
    rw [loads_eq_some hlt] at hsome
    exact Option.some.inj hsome
  exact {
    lt := hlt
    le := by
      intro j hj
      rw [hat]
      exact hbest.le j _ (loads_eq_some hj)
    first := by
      intro j hj
      rw [hat]
      exact hbest.first j _ hj (loads_eq_some (by omega)) }

theorem getmaxidx_max {p : Looptpool E} (h : 0 < p.loadvec.length) :
    p.getmaxidx < p.loadvec.length ∧
      forall j, j < p.loadvec.length ->
        p.loadAt j <= p.loadAt p.getmaxidx := by
  have hspec : exists best,
      FirstLeast (fun x => -x) p.loads p.getmaxidx best := by
    unfold getmaxidx
    cases hloads : p.loads with
    | nil =>
        have hlen := congrArg List.length hloads
        simp [loads] at hlen
        simp [hlen] at h
    | cons first rest =>
        exact pickIdx_greatest first rest
  rcases hspec with ⟨best, hbest⟩
  have hlt : p.getmaxidx < p.loadvec.length := by
    have hlt := (List.getElem?_eq_some_iff.mp hbest.at_idx).1
    simpa [loads] using hlt
  refine ⟨hlt, ?_⟩
  intro j hj
  have hat : p.loadAt p.getmaxidx = best := by
    have hsome := hbest.at_idx
    rw [loads_eq_some hlt] at hsome
    exact Option.some.inj hsome
  rw [hat]
  exact neg_le_neg_iff.mp (hbest.le j _ (loads_eq_some hj))

/-!
## One event
-/

/-- A pool in dynamic dispatch with at least one loop. -/
structure Live (p : Looptpool E) : Prop where
  dispath_eq : p.dispath = true
  tNum_eq : p.tNum = p.loadvec.length
  nonempty : 0 < p.loadvec.length

def evlistAt (p : Looptpool E) (j : Nat) : List E :=
  ((p.loadvec[j]?).map Eventloop.evlist).getD []

theorem dispatchEvent_eq {p : Looptpool E} (h : Live p) (ev : E) :
    p.dispatchEvent fd mask refused ev =
      { p with loadvec := p.loadvec.modify p.getminload fun loop =>
          loop.addEvent fd ev (mask ev) (refused ev) } := by
  have htNum : p.tNum ≠ 0 := by
    rw [h.tNum_eq]
    exact Nat.ne_of_gt h.nonempty
  simp [dispatchEvent, evDispatch, htNum, h.dispath_eq]

theorem dispatchEvent_live {p : Looptpool E} (h : Live p) (ev : E) :
    Live (p.dispatchEvent fd mask refused ev) ∧
      (p.dispatchEvent fd mask refused ev).loadvec.length =
        p.loadvec.length := by
  rw [dispatchEvent_eq h]
  have hlen : forall f : Eventloop E -> Eventloop E,
      (p.loadvec.modify p.getminload f).length = p.loadvec.length :=
    fun f => List.length_modify f p.loadvec p.getminload
  exact ⟨{ dispath_eq := h.dispath_eq, tNum_eq := h.tNum_eq.trans (hlen _).symm,
           nonempty := (hlen _).symm ▸ h.nonempty }, hlen _⟩

theorem loadAt_eq (p : Looptpool E) (j : Nat) :
    p.loadAt j = ((p.loadvec[j]?).map Eventloop.load).getD 0 := by
  simp [loadAt, loads]

theorem dispatchEvent_loadAt {p : Looptpool E} (h : Live p) (ev : E) :
    (p.dispatchEvent fd mask refused ev).loadAt =
      give p.loadAt p.getminload := by
  have hlt := (getminload_firstMin h.nonempty).lt
  funext j
  rw [dispatchEvent_eq h, loadAt_eq, List.getElem?_modify]
  by_cases hj : j = p.getminload
  · subst hj
    rw [give, Function.update_self, loadAt_eq,
      List.getElem?_eq_getElem hlt]
    simp [Eventloop.addEvent_load]
  · rw [give, Function.update_of_ne hj, loadAt_eq]
    simp [Ne.symm hj]

theorem dispatchEvent_evlistAt {p : Looptpool E} (h : Live p) (ev : E)
    (j : Nat) :
    (p.dispatchEvent fd mask refused ev).evlistAt j =
      if p.getminload = j then p.evlistAt j ++ [ev] else p.evlistAt j := by
  have hlt := (getminload_firstMin h.nonempty).lt
  rw [dispatchEvent_eq h]
  unfold evlistAt
  rw [List.getElem?_modify]
  split
  · rename_i hj
    subst hj
    rw [List.getElem?_eq_getElem hlt]
    simp [Eventloop.addEvent_evlist]
  · simp

theorem flatMap_modify_perm {α β : Type*} {g : α -> List β} {f : α -> α}
    {x : β} (hf : forall a, g (f a) = g a ++ [x]) (xs : List α) {i : Nat}
    (hi : i < xs.length) :
    ((xs.modify i f).flatMap g).Perm (x :: xs.flatMap g) := by
  induction xs generalizing i with
  | nil =>
      cases hi
  | cons a rest ih =>
      cases i with
      | zero =>
          rw [List.modify_zero_cons, List.flatMap_cons, hf, List.append_assoc]
          exact List.perm_middle
      | succ i =>
          rw [List.modify_succ_cons, List.flatMap_cons, List.flatMap_cons]
          exact (List.Perm.append_left (g a)
            (ih (Nat.lt_of_succ_lt_succ hi))).trans List.perm_middle

theorem dispatchEvent_listed {p : Looptpool E} (h : Live p) (ev : E) :
    (p.dispatchEvent fd mask refused ev).listed.Perm (ev :: p.listed) := by
  rw [dispatchEvent_eq h]
  exact flatMap_modify_perm (fun loop => loop.addEvent_evlist fd ev _ _) _
    (getminload_firstMin h.nonempty).lt

/-!
## A list of events
-/

variable (fd mask refused)

def targets (p : Looptpool E) : List E -> List Nat
  | [] => []
  | ev :: rest =>
      p.getminload :: targets (p.dispatchEvent fd mask refused ev) rest

def sent (p : Looptpool E) (j : Nat) : List E -> List E
  | [] => []
  | ev :: rest =>
      if p.getminload = j then
        ev :: sent (p.dispatchEvent fd mask refused ev) j rest
      else sent (p.dispatchEvent fd mask refused ev) j rest

variable {fd mask refused}

theorem mem_sent {p : Looptpool E} {j : Nat} {evs : List E} {ev : E} :
    ev ∈ p.sent fd mask refused j evs <->
      exists k : Nat, evs[k]? = some ev ∧
        (p.targets fd mask refused evs)[k]? = some j := by
  induction evs generalizing p with
  | nil =>
      simp [sent]
  | cons first rest ih =>
      have hsplit : (exists k : Nat, (first :: rest)[k]? = some ev ∧
          (p.targets fd mask refused (first :: rest))[k]? = some j) <->
          (first = ev ∧ p.getminload = j) ∨
            ev ∈ (p.dispatchEvent fd mask refused first).sent fd mask refused
              j rest := by
        rw [ih]
        constructor
        · intro h
          rcases h with ⟨k, hev, htarget⟩
          cases k with
          | zero =>
              simp [targets] at hev htarget
              exact Or.inl ⟨hev, htarget⟩
          | succ k =>
              simp [targets] at hev htarget
              exact Or.inr ⟨k, hev, htarget⟩
        · intro h
          rcases h with ⟨hev, htarget⟩ | ⟨k, hev, htarget⟩
          · exact ⟨0, by simp [hev], by simp [targets, htarget]⟩
          · exact ⟨k + 1, by simpa using hev, by simpa [targets] using htarget⟩
      rw [hsplit, sent]
      split
      · rename_i hj
        rw [List.mem_cons, eq_comm]
        simp [hj]
      · rename_i hj
        simp [hj]

theorem dispatchAll_live {p : Looptpool E} (h : Live p) (evs : List E) :
    Live (evs.foldl (dispatchEvent fd mask refused) p) ∧
      (evs.foldl (dispatchEvent fd mask refused) p).loadvec.length =
        p.loadvec.length := by
  induction evs generalizing p with
  | nil =>
      exact ⟨h, rfl⟩
  | cons ev rest ih =>
      rcases dispatchEvent_live h ev with ⟨hlive, hlen⟩
      rcases ih hlive with ⟨hrest, hlen'⟩
      exact ⟨hrest, hlen'.trans hlen⟩

theorem dispatchAll_evlistAt {p : Looptpool E} (h : Live p) (evs : List E)
    (j : Nat) :
    (evs.foldl (dispatchEvent fd mask refused) p).evlistAt j =
      p.evlistAt j ++ p.sent fd mask refused j evs := by
  induction evs generalizing p with
  | nil =>
      simp [sent]
  | cons ev rest ih =>
      rw [List.foldl_cons, ih (dispatchEvent_live h ev).left,
        dispatchEvent_evlistAt h, sent]
      split
      · rw [List.append_assoc]
        rfl
      · rfl

theorem dispatchAll_listed {p : Looptpool E} (h : Live p) (evs : List E) :
    (evs.foldl (dispatchEvent fd mask refused) p).listed.Perm
      (evs ++ p.listed) := by
  induction evs generalizing p with
  | nil =>
      exact List.Perm.refl _
  | cons ev rest ih =>
      have hlive : Live (p.dispatchEvent fd mask refused ev) :=
        (dispatchEvent_live h ev).left
      have hrest := ih hlive
      exact hrest.trans ((List.Perm.append_left rest
        (dispatchEvent_listed h ev)).trans List.perm_middle)

theorem targets_iff_turn {p : Looptpool E} (h : Live p) {v : Nat}
    (hv : v < p.loadvec.length)
    (hbehind : Behind p.loadAt p.loadvec.length v) {evs : List E} {k j : Nat}
    (hk : (p.targets fd mask refused evs)[k]? = some j) :
    j = v <-> Turn p.loadvec.length (lead p.loadAt p.loadvec.length v) k := by
  induction evs generalizing p k with
  | nil =>
      simp [targets] at hk
  | cons ev rest ih =>
      have hmin := getminload_firstMin h.nonempty
      cases k with
      | zero =>
          simp only [targets, List.getElem?_cons_zero, Option.some.injEq] at hk
          subst hk
          rw [firstMin_iff_lead hbehind hv hmin,
            turn_zero (lead_nonneg hbehind)]
      | succ k =>
          simp only [targets, List.getElem?_cons_succ] at hk
          have hlive : Live (p.dispatchEvent fd mask refused ev) :=
            (dispatchEvent_live h ev).left
          have hlen : (p.dispatchEvent fd mask refused ev).loadvec.length =
              p.loadvec.length :=
            (dispatchEvent_live h ev).right
          have hloads : (p.dispatchEvent fd mask refused ev).loadAt =
              give p.loadAt p.getminload :=
            dispatchEvent_loadAt h ev
          by_cases hself : p.getminload = v
          · rw [hself] at hmin hloads
            have hzero := (firstMin_iff_lead hbehind hv hmin).mp rfl
            rcases lead_give_self hbehind hmin with ⟨hbehind', hlead⟩
            rw [<- hloads, <- hlen] at hbehind' hlead
            have hnext := ih hlive (hlen ▸ hv) hbehind' hk
            rw [hnext, hlead, hzero, hlen, turn_succ_of_turn]
          · rcases lead_give_of_ne hbehind hv hmin hself with
              ⟨hbehind', hlead⟩
            rw [<- hloads, <- hlen] at hbehind' hlead
            have hnext := ih hlive (hlen ▸ hv) hbehind' hk
            rw [hnext, hlead, hlen, turn_succ_of_lead]

theorem targets_length {p : Looptpool E} (evs : List E) :
    (p.targets fd mask refused evs).length = evs.length := by
  induction evs generalizing p with
  | nil => rfl
  | cons ev rest ih => simp [targets, ih]

end Looptpool

end MoonNet
