import Mathlib.Data.List.Count
import MoonNet.Looptpool.Dispatch

/-!
# Removing a loop

`delloop_dispatch` empties the list of the loop with the greatest load and
dispatches its events while the loop is still in the pool and still has its old
load.  An event therefore comes back to that loop in each of the loop's turns
of the balancing, and goes to a remaining loop otherwise.  The events are
conserved exactly if the turns are those of the wake-up event.
-/

namespace MoonNet

open Foundation
open Foundation.Balancing

universe u

namespace Looptpool

variable {E : Type u} {fd : E -> Int} {mask : E -> Mask} {refused : E -> Bool}

/-!
## Taking the loop out of the vector
-/

theorem removeAt_concat {α : Type u} (init : List α) (back : α) (idx : Nat) :
    removeAt idx (init ++ [back]) = init.set idx back := by
  have hset : (init ++ [back]).set idx back = init.set idx back ++ [back] := by
    rw [List.set_append]
    split
    · rfl
    · rename_i hge
      rw [List.set_eq_of_length_le (Nat.le_of_not_lt hge)]
      cases idx - init.length with
      | zero => rfl
      | succ n => rfl
  unfold removeAt
  rw [List.getLast?_concat]
  simp only [hset, List.dropLast_concat]

theorem removeAt_getElem? {α : Type u} {xs : List α} {idx i : Nat}
    (hidx : idx < xs.length) (hi : i < xs.length) (hne : i ≠ idx) :
    (removeAt idx xs)[place xs.length idx i]? = xs[i]? := by
  rcases List.eq_nil_or_concat xs with hnil | ⟨init, back, hxs⟩
  · subst hnil
    cases hi
  · rw [List.concat_eq_append] at hxs
    subst hxs
    rw [List.length_append, List.length_singleton] at hi hidx ⊢
    rw [removeAt_concat, place]
    split
    · rename_i hend
      have hlast : i = init.length := Nat.succ.inj hend
      rw [List.getElem?_set_self (by omega), hlast, List.getElem?_concat_length]
    · rename_i hend
      rw [List.getElem?_set_ne (Ne.symm hne),
        List.getElem?_append_left (by omega)]

def source (n idx i : Nat) : Nat :=
  if i = idx then n - 1 else i

theorem removeAt_source {α : Type u} {xs : List α} {idx i : Nat}
    (hi : i + 1 < xs.length) :
    (removeAt idx xs)[i]? = xs[source xs.length idx i]? := by
  rcases List.eq_nil_or_concat xs with hnil | ⟨init, back, hxs⟩
  · subst hnil
    cases hi
  · rw [List.concat_eq_append] at hxs
    subst hxs
    rw [List.length_append, List.length_singleton] at hi ⊢
    rw [removeAt_concat, source]
    split
    · rename_i heq
      rw [heq, List.getElem?_set_self (by omega), Nat.add_sub_cancel,
        List.getElem?_concat_length]
    · rename_i hne
      rw [List.getElem?_set_ne (Ne.symm hne),
        List.getElem?_append_left (by omega)]

theorem removeAt_length {α : Type u} {xs : List α} {idx : Nat} :
    (removeAt idx xs).length = xs.length - 1 := by
  rcases List.eq_nil_or_concat xs with hnil | ⟨init, back, hxs⟩
  · subst hnil
    rfl
  · rw [List.concat_eq_append] at hxs
    subst hxs
    rw [removeAt_concat, List.length_set, List.length_append,
      List.length_singleton, Nat.add_sub_cancel]

theorem removeAt_perm {α : Type u} {xs : List α} {idx : Nat} {x : α}
    (hx : xs[idx]? = some x) : xs.Perm (x :: removeAt idx xs) := by
  rcases List.eq_nil_or_concat xs with hnil | ⟨init, back, hxs⟩
  · subst hnil
    cases hx
  · rw [List.concat_eq_append] at hxs
    subst hxs
    rw [removeAt_concat]
    have hback : (init ++ [back]).Perm (back :: init) :=
      List.perm_append_singleton back init
    by_cases hidx : idx < init.length
    · rw [List.getElem?_append_left hidx] at hx
      rcases List.getElem?_eq_some_iff.mp hx with ⟨_, hget⟩
      have hfront : (x :: init.eraseIdx idx).Perm init := by
        rw [<- hget]
        exact List.getElem_cons_eraseIdx_perm hidx
      have hset : (init.set idx back).Perm (back :: init.eraseIdx idx) :=
        List.set_perm_cons_eraseIdx hidx back
      have hswap : (back :: init).Perm (x :: back :: init.eraseIdx idx) :=
        (hfront.symm.cons back).trans (List.Perm.swap x back _)
      exact hback.trans (hswap.trans (hset.symm.cons x))
    · have hlen := (List.getElem?_eq_some_iff.mp hx).1
      rw [List.length_append, List.length_singleton] at hlen
      have hlast : idx = init.length := by
        omega
      rw [hlast, List.getElem?_concat_length] at hx
      cases hx
      rw [List.set_eq_of_length_le (Nat.le_of_not_lt hidx)]
      exact hback

/-!
## The pool whose victim lists nothing
-/

def emptied (p : Looptpool E) (idx : Nat) (victim : Eventloop E) :
    Looptpool E :=
  { p with loadvec := p.loadvec.set idx (victim.getallev []).fst }

section Emptied

variable {p : Looptpool E} {idx : Nat} {victim : Eventloop E}

theorem emptied_live (h : Dispatching p) : Live (p.emptied idx victim) where
  dispath_eq := h.dispath_eq
  tNum_eq := by
    rw [emptied, List.length_set]
    exact h.tNum_eq
  nonempty := by
    rw [emptied, List.length_set]
    exact h.nonempty

theorem emptied_loadAt (hvictim : p.loadvec[idx]? = some victim) :
    (p.emptied idx victim).loadAt = p.loadAt := by
  have hidx := (List.getElem?_eq_some_iff.mp hvictim).1
  funext j
  rw [loadAt_eq, loadAt_eq, emptied]
  by_cases hj : j = idx
  · subst hj
    rw [List.getElem?_set_self hidx, hvictim]
    rfl
  · rw [List.getElem?_set_ne (Ne.symm hj)]

theorem emptied_evlistAt_self (hvictim : p.loadvec[idx]? = some victim) :
    (p.emptied idx victim).evlistAt idx = [] := by
  have hidx := (List.getElem?_eq_some_iff.mp hvictim).1
  rw [evlistAt, emptied, List.getElem?_set_self hidx]
  rfl

theorem emptied_evlistAt_of_ne {j : Nat} (hj : j ≠ idx) :
    (p.emptied idx victim).evlistAt j = p.evlistAt j := by
  rw [evlistAt, evlistAt, emptied, List.getElem?_set_ne (Ne.symm hj)]

theorem emptied_listed (hvictim : p.loadvec[idx]? = some victim) :
    p.listed.Perm (victim.evlist ++ (p.emptied idx victim).listed) := by
  rcases List.getElem?_eq_some_iff.mp hvictim with ⟨hidx, hget⟩
  have hfront : p.loadvec.Perm (victim :: p.loadvec.eraseIdx idx) := by
    rw [<- hget]
    exact (List.getElem_cons_eraseIdx_perm hidx).symm
  have hset : (p.loadvec.set idx (victim.getallev []).fst).Perm
      ((victim.getallev []).fst :: p.loadvec.eraseIdx idx) :=
    List.set_perm_cons_eraseIdx hidx _
  have hbefore := hfront.flatMap_right Eventloop.evlist
  have hafter := hset.flatMap_right Eventloop.evlist
  exact hbefore.trans (List.Perm.append_left victim.evlist hafter.symm)

end Emptied

/-!
## The result
-/

def redistributed (fd : E -> Int) (mask : E -> Mask) (refused : E -> Bool)
    (p : Looptpool E) (idx : Nat) (victim : Eventloop E) : Looptpool E :=
  victim.evlist.foldl (dispatchEvent fd mask refused) (p.emptied idx victim)

theorem delloopDispatch_eq {p : Looptpool E} {victim : Eventloop E}
    (hvictim : p.loadvec[p.getmaxidx]? = some victim) :
    let all := p.redistributed fd mask refused p.getmaxidx victim
    p.delloopDispatch fd mask refused =
      ({ all with
          loadvec := removeAt p.getmaxidx all.loadvec
          tNum := all.tNum - 1 },
        all.evlistAt p.getmaxidx) := by
  intro all
  unfold delloopDispatch
  simp only [hvictim]
  congr 1
  unfold evlistAt
  split
  · rename_i hnone
    rw [show all.loadvec[p.getmaxidx]? = none from hnone]
    rfl
  · rename_i ep hep
    rw [show all.loadvec[p.getmaxidx]? = some ep from hep]
    rfl

section Result

variable {p : Looptpool E} {victim : Eventloop E}

theorem destroyed_eq (h : Dispatching p)
    (hvictim : p.loadvec[p.getmaxidx]? = some victim) :
    (p.delloopDispatch fd mask refused).snd =
      (p.emptied p.getmaxidx victim).sent fd mask refused p.getmaxidx
        victim.evlist := by
  rw [delloopDispatch_eq hvictim]
  show (p.redistributed fd mask refused p.getmaxidx victim).evlistAt _ = _
  unfold redistributed
  rw [dispatchAll_evlistAt (emptied_live h), emptied_evlistAt_self hvictim,
    List.nil_append]

theorem redistributed_length (h : Dispatching p) :
    (p.redistributed fd mask refused p.getmaxidx victim).loadvec.length =
      p.loadvec.length := by
  unfold redistributed
  rw [(dispatchAll_live (emptied_live h) victim.evlist).right, emptied,
    List.length_set]

theorem loop_of_lt {q : Looptpool E} {j : Nat} (hj : j < q.loadvec.length) :
    exists loop, q.loadvec[j]? = some loop ∧ loop.evlist = q.evlistAt j := by
  refine ⟨q.loadvec[j], List.getElem?_eq_getElem hj, ?_⟩
  unfold evlistAt
  rw [List.getElem?_eq_getElem hj]
  rfl

theorem result_listed (h : Dispatching p)
    (hvictim : p.loadvec[p.getmaxidx]? = some victim) :
    p.listed.Perm ((p.delloopDispatch fd mask refused).snd ++
      (p.delloopDispatch fd mask refused).fst.listed) := by
  have hall : (p.redistributed fd mask refused p.getmaxidx victim).listed.Perm
      (victim.evlist ++ (p.emptied p.getmaxidx victim).listed) :=
    dispatchAll_listed (emptied_live h) victim.evlist
  have hidx : p.getmaxidx <
      (p.redistributed fd mask refused p.getmaxidx victim).loadvec.length := by
    rw [redistributed_length h]
    exact (getmaxidx_max h.nonempty).left
  rcases loop_of_lt hidx with ⟨loop, hloop, hevlist⟩
  have hremoved := (removeAt_perm hloop).flatMap_right Eventloop.evlist
  rw [List.flatMap_cons, hevlist] at hremoved
  rw [delloopDispatch_eq hvictim]
  exact ((emptied_listed hvictim).trans hall.symm).trans hremoved

theorem result_kept (h : Dispatching p)
    (hvictim : p.loadvec[p.getmaxidx]? = some victim) {i : Nat}
    {loop : Eventloop E} (hloop : p.loadvec[i]? = some loop)
    (hne : i ≠ p.getmaxidx) :
    exists loop',
      (p.delloopDispatch fd mask refused).fst.loadvec[place p.loadvec.length
          p.getmaxidx i]? = some loop' ∧
        loop.evlist <+: loop'.evlist := by
  have hlen : (p.redistributed fd mask refused p.getmaxidx
      victim).loadvec.length = p.loadvec.length :=
    redistributed_length h
  have hidx : p.getmaxidx <
      (p.redistributed fd mask refused p.getmaxidx victim).loadvec.length := by
    rw [hlen]
    exact (getmaxidx_max h.nonempty).left
  have hi : i <
      (p.redistributed fd mask refused p.getmaxidx victim).loadvec.length := by
    rw [hlen]
    exact (List.getElem?_eq_some_iff.mp hloop).1
  have hplace := removeAt_getElem? hidx hi hne
  rw [hlen] at hplace
  rcases loop_of_lt hi with ⟨loop', hloop', hevlist'⟩
  have hold : p.evlistAt i = loop.evlist := by
    unfold evlistAt
    rw [hloop]
    rfl
  refine ⟨loop', ?_, ?_⟩
  · rw [delloopDispatch_eq hvictim]
    exact hplace.trans hloop'
  · rw [hevlist', redistributed, dispatchAll_evlistAt (emptied_live h),
      emptied_evlistAt_of_ne hne, hold]
    exact List.prefix_append _ _

theorem mem_destroyed_iff (h : Dispatching p)
    (hvictim : p.loadvec[p.getmaxidx]? = some victim) {k : Nat} {ev : E}
    (hev : victim.evlist[k]? = some ev) :
    ev ∈ (p.delloopDispatch fd mask refused).snd <->
      Turn p.loadvec.length (lead p.loadAt p.loadvec.length p.getmaxidx)
        k := by
  have hidx := getmaxidx_max h.nonempty
  have hlen : (p.emptied p.getmaxidx victim).loadvec.length =
      p.loadvec.length :=
    List.length_set
  have hturn : forall {k j : Nat},
      ((p.emptied p.getmaxidx victim).targets fd mask refused
        victim.evlist)[k]? = some j ->
      (j = p.getmaxidx <->
        Turn p.loadvec.length (lead p.loadAt p.loadvec.length p.getmaxidx)
          k) := by
    intro k j hk
    have hbehind : Behind (p.emptied p.getmaxidx victim).loadAt
        (p.emptied p.getmaxidx victim).loadvec.length p.getmaxidx := by
      rw [emptied_loadAt hvictim, hlen]
      exact behind_of_max hidx.right
    have hiff := targets_iff_turn (emptied_live h) (hlen ▸ hidx.left) hbehind hk
    rwa [emptied_loadAt hvictim, hlen] at hiff
  have hnodup : victim.evlist.Nodup :=
    (List.nodup_append.mp ((emptied_listed hvictim).nodup_iff.mp h.nodup)).1
  have hkey : forall k', victim.evlist[k']? = some ev -> k' = k := by
    intro k' hk'
    have hlt := (List.getElem?_eq_some_iff.mp hk').1
    exact (List.getElem?_inj hlt hnodup).mp (hk'.trans hev.symm)
  rw [destroyed_eq h hvictim, mem_sent]
  constructor
  · intro hsent
    rcases hsent with ⟨k', hev', htarget⟩
    rw [<- hkey k' hev']
    exact (hturn htarget).mp rfl
  · intro hk
    have hlt : k < ((p.emptied p.getmaxidx victim).targets fd mask refused
        victim.evlist).length := by
      rw [targets_length]
      exact (List.getElem?_eq_some_iff.mp hev).1
    have htarget := List.getElem?_eq_getElem hlt
    rw [(hturn htarget).mpr hk] at htarget
    exact ⟨k, hev, htarget⟩

theorem turns_iff_of_wakeup_first {n : Nat} {d : Int} (hn : 0 < n)
    (hd : 0 <= d) {wake : E} {rest : List E} (hwake : IsWakeup fd victim wake)
    (hrest : forall ev, ev ∈ rest -> ¬ IsWakeup fd victim ev) :
    (forall (k : Nat) ev, (wake :: rest)[k]? = some ev ->
        (IsWakeup fd victim ev <-> Turn n d k)) <->
      d = 0 ∧ rest.length < n := by
  constructor
  · intro h
    have hzero : d = 0 := (turn_zero hd).mp ((h 0 wake rfl).mp hwake)
    refine ⟨hzero, ?_⟩
    by_contra hlong
    cases n with
    | zero => exact absurd hn (Nat.lt_irrefl 0)
    | succ m =>
        have hlt : m < rest.length :=
          Nat.le_of_not_lt hlong
        have hat : (wake :: rest)[m + 1]? = some rest[m] := by
          rw [List.getElem?_cons_succ]
          exact List.getElem?_eq_getElem hlt
        have hturn : Turn (m + 1) d (m + 1) := by
          subst hzero
          exact ⟨Int.natCast_nonneg _, by simp⟩
        exact hrest _ (List.getElem_mem hlt) ((h (m + 1) _ hat).mpr hturn)
  · intro h k ev hev
    rcases h with ⟨hzero, hshort⟩
    subst hzero
    cases k with
    | zero =>
        cases hev
        exact iff_of_true hwake ((turn_zero (le_refl 0)).mpr rfl)
    | succ k =>
        rw [List.getElem?_cons_succ] at hev
        have hlt := (List.getElem?_eq_some_iff.mp hev).1
        refine iff_of_false (hrest ev (List.mem_of_getElem? hev)) ?_
        intro hturn
        have hdvd : (n : Int) ∣ ((k + 1 : Nat) : Int) := by
          simpa using hturn.right
        have hle := Nat.le_of_dvd (Nat.succ_pos k)
          (Int.natCast_dvd_natCast.mp hdvd)
        omega

/--
Removing a loop conserves events exactly if its own turns of the balancing are
those of its wake-up event: loop number `getmaxidx` gets the event at place `k`
of its list back exactly if `k` is its lead, or a number of whole rounds more.
-/
theorem conserves_iff [DecidableEq E] (p : Looptpool E) (victim : Eventloop E)
    (h : Dispatching p) (hvictim : p.loadvec[p.getmaxidx]? = some victim) :
    Conserves fd p p.getmaxidx victim (p.delloopDispatch fd mask refused) <->
      forall (k : Nat) ev, victim.evlist[k]? = some ev ->
        (IsWakeup fd victim ev <->
          Turn p.loadvec.length (lead p.loadAt p.loadvec.length p.getmaxidx)
            k) := by
  have hlisted : p.listed.Perm
      ((p.delloopDispatch fd mask refused).snd ++
        (p.delloopDispatch fd mask refused).fst.listed) :=
    result_listed h hvictim
  have hnodup := hlisted.nodup_iff.mp h.nodup
  have hsplit := List.nodup_append.mp hnodup
  have hsource : forall ev, ev ∈ victim.evlist -> ev ∈ p.listed :=
    fun ev hev => (emptied_listed hvictim).mem_iff.mpr
      (List.mem_append_left _ hev)
  -- An event of the victim is destroyed or listed afterwards, and not both.
  have hlost : forall ev, ev ∈ victim.evlist ->
      (ev ∈ (p.delloopDispatch fd mask refused).fst.listed <->
        ev ∉ (p.delloopDispatch fd mask refused).snd) := by
    intro ev hev
    constructor
    · intro hafter hdestroyed
      exact hsplit.2.2 ev hdestroyed ev hafter rfl
    · intro hkept
      have hmem := hlisted.mem_iff.mp (hsource ev hev)
      cases List.mem_append.mp hmem with
      | inl hdestroyed => exact absurd hdestroyed hkept
      | inr hafter => exact hafter
  constructor
  · intro hconserves k ev hev
    have hmem := List.mem_of_getElem? hev
    rw [<- mem_destroyed_iff h hvictim hev]
    constructor
    · intro hwakeup
      by_contra hkept
      exact hconserves.wakeup ev hmem hwakeup ((hlost ev hmem).mpr hkept)
    · exact hconserves.destroyed ev
  · intro hcond
    have hiff : forall ev, ev ∈ victim.evlist ->
        (IsWakeup fd victim ev <->
          ev ∈ (p.delloopDispatch fd mask refused).snd) := by
      intro ev hmem
      rcases List.getElem?_of_mem hmem with ⟨k, hev⟩
      rw [mem_destroyed_iff h hvictim hev]
      exact hcond k ev hev
    exact {
      moved := by
        intro ev hmem hnot
        have hafter := (hlost ev hmem).mpr
          fun hdestroyed => hnot ((hiff ev hmem).mpr hdestroyed)
        exact List.count_eq_one_of_mem hsplit.2.1 hafter
      wakeup := by
        intro ev hmem hwakeup hafter
        exact (hlost ev hmem).mp hafter ((hiff ev hmem).mp hwakeup)
      kept := by
        intro i loop hloop hne
        exact result_kept h hvictim hloop hne
      destroyed := by
        intro ev hdestroyed
        have hmem : ev ∈ victim.evlist := by
          rw [destroyed_eq h hvictim, mem_sent] at hdestroyed
          rcases hdestroyed with ⟨k, hev, _⟩
          exact List.mem_of_getElem? hev
        exact (hiff ev hmem).mpr hdestroyed }

end Result

def loopOf (eventfd : Int) (evlist : List Int) : Eventloop Int where
  eventfd := eventfd
  epoll := fun _ => none
  load := evlist.length
  evlist := evlist

def poolOf (loops : List (Eventloop Int)) : Looptpool Int where
  base := loopOf 0 []
  loadvec := loops
  tNum := loops.length
  next := 0
  dispath := true

theorem conserves_iff_evenPool :
    Conserves id (poolOf [loopOf 3 [3, 10], loopOf 4 [4, 11]]) 0
        (loopOf 3 [3, 10])
        ((poolOf [loopOf 3 [3, 10], loopOf 4 [4, 11]]).delloopDispatch id
          (fun _ => EPOLLIN) fun _ => false) <->
      forall (k : Nat) ev, [3, 10][k]? = some ev ->
        (IsWakeup id (loopOf 3 [3, 10]) ev <->
          Turn 2 (lead (poolOf [loopOf 3 [3, 10], loopOf 4 [4, 11]]).loadAt 2
            0) k) :=
  conserves_iff (poolOf [loopOf 3 [3, 10], loopOf 4 [4, 11]])
    (loopOf 3 [3, 10])
    { dispath_eq := rfl
      tNum_eq := rfl
      nonempty := by decide
      load_eq := by simp [poolOf, loopOf]
      nodup := by decide }
    rfl

/--
The loop with three events is removed from beside one with a single event.  Its
wake-up event 3 goes to the other loop, and event 11 comes back and is lost.
-/
theorem unevenPool_not_conserved :
    exists (p : Looptpool Int) (victim : Eventloop Int),
      Dispatching p ∧ 2 <= p.loadvec.length ∧
        p.loadvec[p.getmaxidx]? = some victim ∧
        11 ∈ victim.evlist ∧ ¬ IsWakeup id victim 11 ∧
        11 ∈ (p.delloopDispatch id (fun _ => EPOLLIN) fun _ => false).snd ∧
        ¬ Conserves id p p.getmaxidx victim
          (p.delloopDispatch id (fun _ => EPOLLIN) fun _ => false) := by
  refine ⟨poolOf [loopOf 3 [3, 10, 11], loopOf 4 [4]],
    loopOf 3 [3, 10, 11], ?_, by decide, rfl, by decide, ?_, by decide, ?_⟩
  · exact {
      dispath_eq := rfl
      tNum_eq := rfl
      nonempty := by decide
      load_eq := by simp [poolOf, loopOf]
      nodup := by decide }
  · intro hwakeup
    exact absurd (show (11 : Int) = 3 from hwakeup) (by decide)
  · intro h
    have hlost : (11 : Int) = 3 := h.destroyed 11 (by decide)
    exact absurd hlost (by decide)

end Looptpool

end MoonNet
