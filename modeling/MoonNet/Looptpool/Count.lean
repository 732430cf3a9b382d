import MoonNet.Looptpool.Calls

/-!
# When `t_num` counts the loops

While it does, every index of a dispatch is in bounds, whatever the loads and
the turn are, and so is that of a removal from a pool with a loop.  A resizing
by the manager leaves the count as it was when it is over, so that only calls
that overlap it can notice.
-/

namespace MoonNet

open Foundation

universe u

namespace CalledPool

variable {E : Type u} {fd : E -> Int} {mask : E -> Mask} {refused : E -> Bool}
variable {s s' : CalledPool E}

/-- `t_num` counts the loops, as an `int` can, and the turn is not negative. -/
structure Inv (s : CalledPool E) : Prop where
  matched : s.Matched
  length_lt : s.loadvec.length < 2 ^ 31
  next_nonneg : 0 <= s.next

/-!
## Scans
-/

theorem pickIdx_lt (better : Int -> Int -> Bool) (best : Int) {idx i : Nat}
    (hidx : idx < i) (rest : List Int) :
    Looptpool.pickIdx better best idx i rest < i + rest.length := by
  induction rest generalizing best idx i with
  | nil =>
      exact hidx
  | cons cur rest ih =>
      have hnext : forall {best : Int} {idx : Nat}, idx < i + 1 ->
          Looptpool.pickIdx better best idx (i + 1) rest <
            i + (rest.length + 1) := by
        intro best idx hlt
        have hrest := ih best hlt
        omega
      rw [Looptpool.pickIdx, List.length_cons]
      split
      · exact hnext (Nat.lt_succ_self i)
      · exact hnext (Nat.lt_succ_of_lt hidx)

theorem pick_lt (better : Int -> Int -> Bool) (loads : List Int)
    (hpos : 0 < loads.length) : pick better loads < loads.length := by
  cases loads with
  | nil => cases hpos
  | cons first rest =>
      have hlt := pickIdx_lt better first Nat.one_pos rest
      rw [pick, List.length_cons, Nat.add_comm]
      exact hlt

theorem scanned_pick (h : s.Matched) (hpos : 0 < s.loadvec.length)
    (better : Int -> Int -> Bool) :
    exists idx, s.scanned.map (pick better) = some idx ∧
      idx < s.loadvec.length := by
  have hmod : (s.tNum % 2 ^ 32).toNat <= s.loadvec.length := by
    have hmatched : s.tNum = s.loadvec.length := h
    rw [hmatched]
    omega
  have hsize : max 1 (s.tNum % 2 ^ 32).toNat <= s.loadvec.length :=
    max_le hpos hmod
  have hlen : ((s.loadvec.take (max 1 (s.tNum % 2 ^ 32).toNat)).map
      Eventloop.load).length = max 1 (s.tNum % 2 ^ 32).toNat := by
    rw [List.length_map, List.length_take, Nat.min_eq_left hsize]
  refine ⟨_, by unfold scanned; rw [if_pos hsize, Option.map_some], ?_⟩
  have hlt := pick_lt better ((s.loadvec.take
    (max 1 (s.tNum % 2 ^ 32).toNat)).map Eventloop.load)
    (by rw [hlen]; exact Nat.lt_of_lt_of_le Nat.one_pos (le_max_left _ _))
  rw [hlen] at hlt
  exact Nat.lt_of_lt_of_le hlt hsize

theorem scanned_of_nil (h : s.loadvec = []) : s.scanned = none := by
  unfold scanned
  rw [h, if_neg]
  rw [List.length_nil]
  omega

/-!
## Dispatch
-/

structure SameLoops (s s' : CalledPool E) : Prop where
  tNum_eq : s'.tNum = s.tNum
  length_eq : s'.loadvec.length = s.loadvec.length
  minTnum_eq : s'.minTnum = s.minTnum
  maxTnum_eq : s'.maxTnum = s.maxTnum
  manager_eq : s'.manager = s.manager

theorem SameLoops.refl (s : CalledPool E) : SameLoops s s :=
  ⟨rfl, rfl, rfl, rfl, rfl⟩

theorem SameLoops.trans {s s' s'' : CalledPool E} (h : SameLoops s s')
    (h' : SameLoops s' s'') : SameLoops s s'' :=
  ⟨h'.tNum_eq.trans h.tNum_eq, h'.length_eq.trans h.length_eq,
    h'.minTnum_eq.trans h.minTnum_eq, h'.maxTnum_eq.trans h.maxTnum_eq,
    h'.manager_eq.trans h.manager_eq⟩

theorem SameLoops.inv (h : SameLoops s s') (hs : Inv s)
    (hnext : 0 <= s'.next) : Inv s' where
  matched := by
    have hmatched : s.tNum = s.loadvec.length := hs.matched
    unfold Matched
    rw [h.tNum_eq, h.length_eq]
    exact hmatched
  length_lt := by
    rw [h.length_eq]
    exact hs.length_lt
  next_nonneg := hnext

theorem Inv.setLoadvec (h : Inv s) {loadvec : List (Eventloop E)}
    (hlen : loadvec.length = s.loadvec.length) :
    Inv { s with loadvec := loadvec } := by
  have hsame : SameLoops s { s with loadvec := loadvec } :=
    ⟨rfl, hlen, rfl, rfl, rfl⟩
  exact hsame.inv h h.next_nonneg

theorem tNum_ne_zero (h : s.Matched) (hpos : 0 < s.loadvec.length) :
    s.tNum ≠ 0 := by
  rw [h]
  omega

theorem evDispatch_spec (h : Inv s) (hpos : 0 < s.loadvec.length) :
    exists s' idx, s.evDispatch = some (s', some idx) ∧
      idx < s.loadvec.length ∧ Inv s' ∧ SameLoops s s' := by
  have htNum := tNum_ne_zero h.matched hpos
  unfold evDispatch
  rw [if_neg htNum]
  by_cases hdispath : s.dispath
  · rcases scanned_pick h.matched hpos (fun cur best => decide (cur < best))
      with ⟨idx, hidx, hlt⟩
    refine ⟨s, idx, ?_, hlt, h, SameLoops.refl s⟩
    rw [if_pos hdispath, getminload, hidx, Option.map_some]
  · have hmatched : s.tNum = s.loadvec.length := h.matched
    have hnonneg : 0 <= (s.next + 1).tmod s.tNum :=
      Int.tmod_nonneg _ (by have hnext := h.next_nonneg; omega)
    have hlt : (s.next + 1).tmod s.tNum < s.loadvec.length := by
      rw [<- hmatched]
      exact Int.tmod_lt_of_pos _ (by omega)
    refine ⟨{ s with next := (s.next + 1).tmod s.tNum },
      ((s.next + 1).tmod s.tNum).toNat, ?_, by omega,
      ⟨h.matched, h.length_lt, hnonneg⟩, rfl, rfl, rfl, rfl, rfl⟩
    dsimp only
    rw [if_neg hdispath, if_pos ⟨hnonneg, hlt⟩]

theorem evDispatch_inv (h : Inv s) :
    exists s' idx, s.evDispatch = some (s', idx) ∧ Inv s' ∧
      SameLoops s s' := by
  by_cases hpos : 0 < s.loadvec.length
  · rcases evDispatch_spec h hpos with ⟨s', idx, hcall, _, hs', hsame⟩
    exact ⟨s', some idx, hcall, hs', hsame⟩
  · have hzero : s.tNum = 0 := by
      have hmatched : s.tNum = s.loadvec.length := h.matched
      omega
    refine ⟨s, none, ?_, h, SameLoops.refl s⟩
    unfold evDispatch
    rw [if_pos hzero]

theorem dispatchEvent_spec (h : Inv s) (hpos : 0 < s.loadvec.length)
    (ev : E) :
    exists s', s.dispatchEvent fd mask refused ev = some s' ∧ Inv s' ∧
      SameLoops s s' := by
  rcases evDispatch_spec h hpos with ⟨r, idx, hcall, _, hr, hturn⟩
  have hsame : SameLoops s { r with
      loadvec := r.loadvec.modify idx fun loop =>
        loop.addEvent fd ev (mask ev) (refused ev) } := by
    refine hturn.trans ⟨rfl, ?_, rfl, rfl, rfl⟩
    exact List.length_modify _ _ _
  refine ⟨_, ?_, hsame.inv h hr.next_nonneg, hsame⟩
  unfold dispatchEvent
  rw [hcall]
  rfl

theorem dispatchAll_spec (h : Inv s) (hpos : 0 < s.loadvec.length)
    (evs : List E) :
    exists s', s.dispatchAll fd mask refused evs = some s' ∧ Inv s' ∧
      SameLoops s s' := by
  induction evs generalizing s with
  | nil =>
      exact ⟨s, rfl, h, SameLoops.refl s⟩
  | cons ev rest ih =>
      rcases @dispatchEvent_spec E fd mask refused s h hpos ev with
        ⟨m, hm, hinv, hsame⟩
      rcases ih hinv (hsame.length_eq ▸ hpos) with
        ⟨s', hs', hinv', hsame'⟩
      refine ⟨s', ?_, hinv', hsame.trans hsame'⟩
      rw [dispatchAll, hm]
      exact hs'

/-!
## Removal
-/

theorem emptyLoop_spec (h : Inv s) (hpos : 0 < s.loadvec.length) :
    exists s' idx, s.emptyLoop fd mask refused s.tNum = some (s', idx) ∧
      Inv s' ∧ SameLoops s s' ∧ idx < s'.loadvec.length := by
  rcases scanned_pick h.matched hpos (fun cur best => decide (best < cur)) with
    ⟨idx, hidx, hlt⟩
  have hep : s.loadvec[idx]? = some (s.loadvec[idx]) :=
    List.getElem?_eq_getElem hlt
  have hemptied : Inv { s with
      loadvec := s.loadvec.set idx (s.loadvec[idx].getallev []).fst } :=
    h.setLoadvec List.length_set
  have hposEmptied : 0 < (s.loadvec.set idx
      (s.loadvec[idx].getallev []).fst).length := by
    rw [List.length_set]
    exact hpos
  rcases @dispatchAll_spec E fd mask refused _ hemptied hposEmptied
    (s.loadvec[idx].getallev []).snd with ⟨r, hr, hinv, hsame⟩
  have hlen : r.loadvec.length = s.loadvec.length :=
    hsame.length_eq.trans List.length_set
  refine ⟨r, idx, ?_, hinv,
    ⟨hsame.tNum_eq, hlen, hsame.minTnum_eq, hsame.maxTnum_eq,
      hsame.manager_eq⟩, hlen ▸ hlt⟩
  unfold emptyLoop getmaxidx
  rw [hidx, Option.bind_some, hep, Option.bind_some]
  dsimp only
  rw [hr]
  rfl

theorem popLoop_length (s : CalledPool E) (idx : Nat) :
    (s.popLoop idx).loadvec.length = s.loadvec.length - 1 :=
  Looptpool.removeAt_length

theorem wrap32_length (h : s.loadvec.length < 2 ^ 31) :
    wrap32 s.loadvec.length = s.loadvec.length :=
  wrap32_eq (by omega) (by omega)

theorem popped_tNum (h : Inv s) (hpos : 0 < s.loadvec.length) :
    wrap32 (s.tNum - 1) = s.tNum - 1 := by
  have hmatched : s.tNum = s.loadvec.length := h.matched
  have hlt := h.length_lt
  exact wrap32_pred (by omega) (by omega)

theorem delloopDispatch_spec (h : Inv s) (hpos : 0 < s.loadvec.length) :
    exists s', s.delloopDispatch fd mask refused s.tNum = some s' ∧ Inv s' ∧
      s'.minTnum = s.minTnum ∧ s'.maxTnum = s.maxTnum ∧
      s'.manager = s.manager := by
  rcases @emptyLoop_spec E fd mask refused s h hpos with
    ⟨r, idx, hr, hinv, hsame, hlt⟩
  have hlen := popLoop_length r idx
  refine ⟨{ r.popLoop idx with tNum := wrap32 (r.tNum - 1) }, ?_,
    ⟨?_, ?_, hinv.next_nonneg⟩, hsame.minTnum_eq, hsame.maxTnum_eq,
    hsame.manager_eq⟩
  · unfold delloopDispatch
    rw [hr]
    rfl
  · have hmatched : r.tNum = r.loadvec.length := hinv.matched
    show wrap32 (r.tNum - 1) = (r.popLoop idx).loadvec.length
    rw [popped_tNum hinv (Nat.zero_lt_of_lt hlt), hlen, hmatched]
    omega
  · show (r.popLoop idx).loadvec.length < 2 ^ 31
    rw [hlen]
    exact Nat.lt_of_le_of_lt (Nat.sub_le _ _) hinv.length_lt

theorem delloopDispatch_of_nil (h : s.loadvec = []) (t : Int) :
    s.delloopDispatch fd mask refused t = none := by
  have hnone : scanned { s with tNum := t } = none := scanned_of_nil h
  unfold delloopDispatch emptyLoop getmaxidx
  rw [hnone]
  rfl

/-!
## Creation
-/

theorem initPool_length (timeout : Int) (wakeup : Nat -> E) :
    (s.initPool fd mask refused timeout wakeup).loadvec.length =
      s.loadvec.length + s.tNum.toNat := by
  simp [initPool]

theorem created_iff (loops : List (Eventloop E)) (n : Int) :
    n = ((loops.length + n.toNat : Nat) : Int) <-> 0 <= n ∧ loops = [] := by
  rw [<- List.length_eq_zero_iff]
  omega

theorem createPoolNoadjust_matched_iff (n timeout : Int) (wakeup : Nat -> E) :
    (s.createPoolNoadjust fd mask refused n timeout wakeup).Matched <->
      0 <= n ∧ s.loadvec = [] := by
  have hsame : forall r : CalledPool E, r.stopAdjust.tNum = r.tNum ∧
      r.stopAdjust.loadvec = r.loadvec := by
    intro r
    unfold stopAdjust
    split <;> exact ⟨rfl, rfl⟩
  unfold Matched createPoolNoadjust
  rw [(hsame _).left, (hsame _).right, initPool_length]
  exact created_iff s.loadvec n

theorem createPool_spec (n timeout : Int) (wakeup : Nat -> E) :
    s.createPool fd mask refused n timeout wakeup = none ∧ s.manager ≠ none ∨
      s.manager = none ∧
        exists s', s.createPool fd mask refused n timeout wakeup = some s' ∧
          (s'.Matched <-> 0 <= n ∧ s.loadvec = []) ∧
          s'.tNum = n ∧ s'.next = s.next ∧ s'.minTnum = n ∧
          s'.maxTnum = wrap32 (n * 2 - 1) ∧
          s'.manager = some ManagerThread.test := by
  have hinit : s.createPool fd mask refused n timeout wakeup =
      ((({ s with dispath := true } : CalledPool E).settnum n).initPool fd mask
        refused timeout wakeup).initAdjust := rfl
  cases hmanager : s.manager with
  | some m =>
      left
      refine ⟨?_, nofun⟩
      rw [hinit]
      unfold initAdjust initPool settnum
      dsimp only
      rw [hmanager]
  | none =>
      right
      refine ⟨rfl, { (({ s with dispath := true } : CalledPool E).settnum
        n).initPool fd mask refused timeout wakeup with
          manager := some ManagerThread.test }, ?_, ?_, rfl, rfl, rfl, rfl,
        rfl⟩
      · rw [hinit]
        unfold initAdjust initPool settnum
        dsimp only
        rw [hmanager]
      · rw [<- created_iff s.loadvec n]
        show n = (List.length (_ ++ _) : Int) <-> _
        rw [List.length_append, List.length_map, List.length_range]
        rfl

/-!
## The pool with natural numbers

While `t_num` counts the loops, dispatch and removal are those of `Looptpool`.
-/

def toPool (s : CalledPool E) : Looptpool E where
  base := s.base
  loadvec := s.loadvec
  tNum := s.tNum.toNat
  next := s.next.toNat
  dispath := s.dispath

theorem scanned_eq (h : Inv s) (hpos : 0 < s.loadvec.length) :
    s.scanned = some s.toPool.loads := by
  have hmatched : s.tNum = s.loadvec.length := h.matched
  have hsize : max 1 (s.tNum % 2 ^ 32).toNat = s.loadvec.length := by
    have hlt := h.length_lt
    rw [hmatched]
    omega
  unfold scanned
  rw [hsize, if_pos (Nat.le_refl _), List.take_length]
  rfl

theorem pick_getminload (p : Looptpool E) :
    pick (fun cur best => decide (cur < best)) p.loads = p.getminload := by
  unfold pick Looptpool.getminload
  cases p.loads <;> rfl

theorem pick_getmaxidx (p : Looptpool E) :
    pick (fun cur best => decide (best < cur)) p.loads = p.getmaxidx := by
  unfold pick Looptpool.getmaxidx
  cases p.loads <;> rfl

theorem evDispatch_toPool (h : Inv s) :
    s.evDispatch.map (fun r => (r.fst.toPool, r.snd)) =
      some s.toPool.evDispatch := by
  have hmatched : s.tNum = s.loadvec.length := h.matched
  have htoNat : s.toPool.tNum = s.loadvec.length := by
    show s.tNum.toNat = _
    rw [hmatched, Int.toNat_natCast]
  unfold evDispatch Looptpool.evDispatch
  rw [htoNat]
  by_cases hzero : s.loadvec.length = 0
  · rw [if_pos (by rw [hmatched, hzero]; rfl), if_pos hzero]
    rfl
  · have hpos : 0 < s.loadvec.length := Nat.pos_of_ne_zero hzero
    rw [if_neg (tNum_ne_zero h.matched hpos), if_neg hzero]
    by_cases hdispath : s.dispath
    · have hdispath' : s.toPool.dispath = true := hdispath
      rw [if_pos hdispath, if_pos hdispath', getminload,
        scanned_eq h hpos, Option.map_some, Option.map_some,
        Option.map_some, pick_getminload]
    · have hdispath' : ¬ s.toPool.dispath = true := hdispath
      have hnext : (s.next + 1).tmod s.tNum =
          (((s.next.toNat + 1) % s.loadvec.length : Nat) : Int) := by
        have hnonneg := h.next_nonneg
        rw [hmatched, Int.natCast_mod, Int.tmod_eq_emod_of_nonneg (by omega)]
        congr 1
        omega
      have hmod := Nat.mod_lt (s.next.toNat + 1) hpos
      dsimp only
      rw [if_neg hdispath, if_neg hdispath', hnext,
        if_pos ⟨Int.natCast_nonneg _, Int.ofNat_lt.mpr hmod⟩]
      simp only [Option.map_some, toPool, Int.toNat_natCast, hmatched]

theorem dispatchEvent_toPool (h : Inv s) (ev : E) :
    (s.dispatchEvent fd mask refused ev).map toPool =
      some (s.toPool.dispatchEvent fd mask refused ev) := by
  rcases Option.map_eq_some_iff.mp (evDispatch_toPool h) with
    ⟨⟨r, idx⟩, hcall, hpool⟩
  unfold dispatchEvent Looptpool.dispatchEvent
  rw [hcall, <- hpool, Option.map_map, Option.map_some]
  cases idx <;> rfl

theorem dispatchAll_toPool (h : Inv s) (hpos : 0 < s.loadvec.length)
    (evs : List E) :
    (s.dispatchAll fd mask refused evs).map toPool =
      some (evs.foldl (Looptpool.dispatchEvent fd mask refused) s.toPool) := by
  induction evs generalizing s with
  | nil =>
      rfl
  | cons ev rest ih =>
      rcases @dispatchEvent_spec E fd mask refused s h hpos ev with
        ⟨m, hm, hinv, hsame⟩
      have hpool := @dispatchEvent_toPool E fd mask refused s h ev
      rw [hm, Option.map_some, Option.some.injEq] at hpool
      rw [dispatchAll, hm, Option.bind_some, List.foldl_cons, <- hpool]
      exact ih hinv (hsame.length_eq ▸ hpos)

/-- A removal is the one of the pool with natural numbers. -/
theorem delloopDispatch_toPool (h : Inv s) (hpos : 0 < s.loadvec.length) :
    (s.delloopDispatch fd mask refused s.tNum).map toPool =
      some (s.toPool.delloopDispatch fd mask refused).fst := by
  have hidx : s.getmaxidx = some s.toPool.getmaxidx := by
    rw [getmaxidx, scanned_eq h hpos, Option.map_some, pick_getmaxidx]
  have hsome : exists ep, s.loadvec[s.toPool.getmaxidx]? = some ep := by
    have hmax : s.toPool.getmaxidx < s.loadvec.length :=
      (Looptpool.getmaxidx_max hpos).left
    exact ⟨_, List.getElem?_eq_getElem hmax⟩
  rcases hsome with ⟨ep, hep⟩
  have hep' : s.toPool.loadvec[s.toPool.getmaxidx]? = some ep := hep
  have hlen : (s.loadvec.set s.toPool.getmaxidx
      (ep.getallev []).fst).length = s.loadvec.length := List.length_set
  have hemptied : Inv { s with
      loadvec := s.loadvec.set s.toPool.getmaxidx
        (ep.getallev []).fst } :=
    h.setLoadvec hlen
  rcases @dispatchAll_spec E fd mask refused _ hemptied (hlen ▸ hpos)
    (ep.getallev []).snd with ⟨r, hr, hrinv, hsame⟩
  have hrpos : 0 < r.loadvec.length := by
    rw [hsame.length_eq]
    exact hlen ▸ hpos
  have hpool := @dispatchAll_toPool E fd mask refused _ hemptied (hlen ▸ hpos)
    (ep.getallev []).snd
  rw [hr, Option.map_some, Option.some.injEq] at hpool
  have hempty : s.emptyLoop fd mask refused s.tNum =
      some (r, s.toPool.getmaxidx) := by
    unfold emptyLoop
    rw [hidx, Option.bind_some, hep, Option.bind_some]
    dsimp only
    rw [hr]
    rfl
  unfold delloopDispatch Looptpool.delloopDispatch
  rw [hempty]
  dsimp only
  rw [hep', Option.map_some, Option.map_some]
  have hgoal : toPool { r.popLoop s.toPool.getmaxidx with
      tNum := wrap32 (r.tNum - 1) } =
      { r.toPool with
        loadvec := Looptpool.removeAt s.toPool.getmaxidx r.toPool.loadvec
        tNum := r.toPool.tNum - 1 } := by
    simp [toPool, popLoop, popped_tNum hrinv hrpos]
  rw [hgoal, hpool]
  rfl

/-!
## Calls
-/

theorem createPoolNoadjust_frame (n timeout : Int) (wakeup : Nat -> E) :
    (s.createPoolNoadjust fd mask refused n timeout wakeup).next = s.next ∧
      (s.createPoolNoadjust fd mask refused n timeout wakeup).tNum = n ∧
      (s.createPoolNoadjust fd mask refused n timeout wakeup).minTnum = n ∧
      (s.createPoolNoadjust fd mask refused n timeout wakeup).maxTnum = n ∧
      (s.createPoolNoadjust fd mask refused n timeout wakeup).manager =
        s.manager := by
  unfold createPoolNoadjust stopAdjust
  split <;> exact ⟨rfl, rfl, rfl, rfl, rfl⟩

structure Returned (s s' : CalledPool E) : Prop where
  inv : Inv s'
  least_nonneg : 0 <= s.minTnum -> 0 <= s'.minTnum
  most_lt : s.maxTnum < 2 ^ 31 -> s'.maxTnum < 2 ^ 31
  resting : ¬ s.Resizing -> ¬ s'.Resizing

theorem Returned.of_frame (h : Inv s') (hleast : s'.minTnum = s.minTnum)
    (hmost : s'.maxTnum = s.maxTnum) (hmanager : s'.manager = s.manager) :
    Returned s s' where
  inv := h
  least_nonneg := fun hnonneg => hleast ▸ hnonneg
  most_lt := fun hlt => hmost ▸ hlt
  resting := by
    unfold Resizing
    rw [hmanager]
    exact id

theorem length_lt_of_matched {n : Int32} (hmatched : s.Matched)
    (hn : s.tNum = n.toInt) : s.loadvec.length < 2 ^ 31 := by
  have hcounted : s.tNum = s.loadvec.length := hmatched
  have hlt := n.toInt_lt
  omega

/-- The greatest `int` is the greatest number of loops that is counted. -/
theorem addloop_matched_iff (h : Inv s) (wakeup : E) :
    (s.addloop fd mask refused wakeup).Matched <->
      s.loadvec.length < 2 ^ 31 - 1 := by
  have hmatched : s.tNum = s.loadvec.length := h.matched
  have hadded : (s.addloop fd mask refused wakeup).Matched <->
      wrap32 (s.loadvec.length + 1) = (s.loadvec.length + 1 : Nat) := by
    show wrap32 (s.tNum + 1) = ((s.loadvec ++ [_]).length : Nat) <-> _
    rw [List.length_append, hmatched]
    rfl
  rw [hadded]
  constructor
  · intro hcounted
    have hlt := wrap32_lt (s.loadvec.length + 1)
    omega
  · intro hlt
    exact wrap32_eq (by omega) (by omega)

/--
In a pool whose loops are counted, a call that `Fits` allows leaves them
counted or ends the process, and any other one leaves `loadvec_` or miscounts.
-/
theorem call_spec (h : Inv s) (a : PoolCall E) :
    s.Fits a ∧
        (s.call fd mask refused s.tNum a = CallEnd.terminated ∨
          exists s', s.call fd mask refused s.tNum a = CallEnd.returns s' ∧
            Returned s s') ∨
      ¬ s.Fits a ∧
        (s.call fd mask refused s.tNum a = CallEnd.outOfBounds ∨
          exists s', s.call fd mask refused s.tNum a = CallEnd.returns s' ∧
            ¬ s'.Matched) := by
  cases a with
  | createPool n timeout wakeup =>
      rcases @createPool_spec E fd mask refused s n.toInt timeout wakeup with
        ⟨hnone, hmanager⟩ |
          ⟨hmanager, s', hsome, hiff, htNum, hnext, hmin, hmax, hthread⟩
      · refine Or.inl ⟨Or.inl hmanager, Or.inl ?_⟩
        simp only [call, hnone]
      · have hcall : s.call fd mask refused s.tNum
            (PoolCall.createPool n timeout wakeup) = CallEnd.returns s' := by
          simp only [call, hsome]
        by_cases honce : 0 <= n.toInt ∧ s.loadvec = []
        · have hmatched := hiff.mpr honce
          refine Or.inl ⟨Or.inr honce, Or.inr ⟨s', hcall,
            ⟨hmatched, length_lt_of_matched hmatched htNum, ?_⟩, ?_, ?_, ?_⟩⟩
          · rw [hnext]
            exact h.next_nonneg
          · intro _
            rw [hmin]
            exact honce.left
          · intro _
            rw [hmax]
            exact wrap32_lt _
          · intro _
            unfold Resizing
            rw [hthread]
            exact id
        · refine Or.inr ⟨?_, Or.inr ⟨s', hcall, fun hmatched =>
            honce (hiff.mp hmatched)⟩⟩
          exact fun hnot => hnot.elim (fun hthere => hthere hmanager) honce
  | createPoolNoadjust n timeout wakeup =>
      have hiff := @createPoolNoadjust_matched_iff E fd mask refused s n.toInt
        timeout wakeup
      rcases @createPoolNoadjust_frame E fd mask refused s n.toInt timeout
        wakeup with ⟨hnext, htNum, hmin, hmax, hmanager⟩
      by_cases honce : 0 <= n.toInt ∧ s.loadvec = []
      · have hmatched := hiff.mpr honce
        refine Or.inl ⟨honce, Or.inr ⟨_, rfl, ⟨hmatched,
          length_lt_of_matched hmatched htNum, ?_⟩, ?_, ?_, ?_⟩⟩
        · rw [hnext]
          exact h.next_nonneg
        · intro _
          rw [hmin]
          exact honce.left
        · intro _
          rw [hmax]
          exact n.toInt_lt
        · unfold Resizing
          rw [hmanager]
          exact id
      · exact Or.inr ⟨honce, Or.inr ⟨_, rfl, fun hmatched =>
          honce (hiff.mp hmatched)⟩⟩
  | addloop wakeup =>
      have hiff := @addloop_matched_iff E fd mask refused s h wakeup
      by_cases hroom : s.loadvec.length < 2 ^ 31 - 1
      · have hadded : Inv (s.addloop fd mask refused wakeup) := by
          refine ⟨hiff.mpr hroom, ?_, h.next_nonneg⟩
          show (s.loadvec ++ [_]).length < 2 ^ 31
          rw [List.length_append, List.length_singleton]
          omega
        exact Or.inl ⟨hroom, Or.inr ⟨_, rfl,
          Returned.of_frame hadded rfl rfl rfl⟩⟩
      · exact Or.inr ⟨hroom, Or.inr ⟨_, rfl, fun hmatched =>
          hroom (hiff.mp hmatched)⟩⟩
  | delloopDispatch =>
      by_cases hnil : s.loadvec = []
      · refine Or.inr ⟨fun hsome => hsome hnil, Or.inl ?_⟩
        simp only [call, delloopDispatch_of_nil hnil]
      · rcases @delloopDispatch_spec E fd mask refused s h
          (List.length_pos_iff.mpr hnil) with
          ⟨s', hdel, hinv, hmin, hmax, hmanager⟩
        have hcall : s.call fd mask refused s.tNum PoolCall.delloopDispatch =
            CallEnd.returns s' := by
          simp only [call, hdel]
        exact Or.inl ⟨hnil, Or.inr ⟨s', hcall,
          Returned.of_frame hinv hmin hmax hmanager⟩⟩
  | evDispatch =>
      rcases evDispatch_inv h with ⟨s', idx, hdispatch, hinv, hsame⟩
      have hkept : ({ s' with tNum := s.tNum } : CalledPool E) = s' := by
        rw [<- hsame.tNum_eq]
      have hcall : s.call fd mask refused s.tNum PoolCall.evDispatch =
          CallEnd.returns s' := by
        simp only [call, hdispatch]
        exact congrArg CallEnd.returns hkept
      exact Or.inl ⟨trivial, Or.inr ⟨s', hcall, Returned.of_frame hinv
        hsame.minTnum_eq hsame.maxTnum_eq hsame.manager_eq⟩⟩

/-!
## Steps of the manager
-/

def ahead : Option ManagerThread -> Int
  | some ManagerThread.popped => 1
  | some ManagerThread.added => -1
  | _ => 0

/--
The loops are counted but for the resizing under way; a loop that has been
emptied is there.
-/
structure Managed (s : CalledPool E) : Prop where
  counted : s.tNum = s.loadvec.length + ahead s.manager
  length_lt : s.loadvec.length < 2 ^ 31
  next_nonneg : 0 <= s.next
  least_nonneg : 0 <= s.minTnum
  most_lt : s.maxTnum < 2 ^ 31
  emptied : forall idx, s.manager = some (ManagerThread.emptied idx) ->
    0 < s.loadvec.length

theorem ahead_of_resting (h : ¬ s.Resizing) : ahead s.manager = 0 := by
  unfold Resizing at h
  unfold ahead
  split
  · rename_i hmanager
    rw [hmanager] at h
    exact absurd trivial h
  · rename_i hmanager
    rw [hmanager] at h
    exact absurd trivial h
  · rfl

theorem Managed.inv (h : Managed s) (hresting : ¬ s.Resizing) : Inv s where
  matched := by
    have hcounted := h.counted
    rw [ahead_of_resting hresting, add_zero] at hcounted
    exact hcounted
  length_lt := h.length_lt
  next_nonneg := h.next_nonneg

theorem Returned.managed (h : Returned s s') (hs : Managed s)
    (hresting : ¬ s.Resizing) : Managed s' where
  counted := by
    have hmatched : s'.tNum = s'.loadvec.length := h.inv.matched
    rw [ahead_of_resting (h.resting hresting), add_zero]
    exact hmatched
  length_lt := h.inv.length_lt
  next_nonneg := h.inv.next_nonneg
  least_nonneg := h.least_nonneg hs.least_nonneg
  most_lt := h.most_lt hs.most_lt
  emptied := by
    intro idx hmanager
    have hresting' := h.resting hresting
    unfold Resizing at hresting'
    rw [hmanager] at hresting'
    exact absurd trivial hresting'

theorem Managed.goto (h : Managed s) (hresting : ¬ s.Resizing)
    {m : ManagerThread} (hm : ahead (some m) = 0)
    (hempty : forall idx, m ≠ ManagerThread.emptied idx) :
    Managed (s.goto m) where
  counted := by
    have hmatched : s.tNum = s.loadvec.length := (h.inv hresting).matched
    show s.tNum = s.loadvec.length + ahead (some m)
    rw [hm, add_zero]
    exact hmatched
  length_lt := h.length_lt
  next_nonneg := h.next_nonneg
  least_nonneg := h.least_nonneg
  most_lt := h.most_lt
  emptied := by
    intro idx hidx
    exact absurd (Option.some.inj hidx) (hempty idx)

theorem not_resizing_of_asleep (h : s.manager = some ManagerThread.asleep) :
    ¬ s.Resizing := by
  unfold Resizing
  rw [h]
  exact id

theorem adjust_managed (h : Managed s)
    (hasleep : s.manager = some ManagerThread.asleep) (wakeup : E) :
    exists s', s.adjust fd mask refused wakeup = CallEnd.returns s' ∧
      Managed s' := by
  have hresting := not_resizing_of_asleep hasleep
  have hinv := h.inv hresting
  have hmatched : s.tNum = s.loadvec.length := hinv.matched
  have htest : Managed (s.goto ManagerThread.test) :=
    h.goto hresting rfl (fun _ => nofun)
  unfold adjust
  split
  · rename_i hrange
    have hpos : 0 < s.loadvec.length := by
      have hleast := h.least_nonneg
      omega
    dsimp only
    split
    · rcases @emptyLoop_spec E fd mask refused s hinv hpos with
        ⟨r, idx, hr, hrinv, hsame, hlt⟩
      have hrmatched : r.tNum = r.loadvec.length := hrinv.matched
      rw [hr]
      exact ⟨_, rfl, {
        counted := hrmatched.trans (add_zero _).symm
        length_lt := hrinv.length_lt
        next_nonneg := hrinv.next_nonneg
        least_nonneg := by
          show 0 <= r.minTnum
          rw [hsame.minTnum_eq]
          exact h.least_nonneg
        most_lt := by
          show r.maxTnum < 2 ^ 31
          rw [hsame.maxTnum_eq]
          exact h.most_lt
        emptied := fun _ _ => Nat.zero_lt_of_lt hlt }⟩
    · split
      · refine ⟨_, rfl, ?_, ?_, h.next_nonneg, h.least_nonneg, h.most_lt,
          nofun⟩
        · show s.tNum = ((s.loadvec ++ [_]).length : Nat) + (-1 : Int)
          rw [List.length_append, List.length_singleton, hmatched]
          omega
        · -- there are fewer loops than `max_tnum`, which is an `int`
          have hmost := h.most_lt
          show (s.loadvec ++ [_]).length < 2 ^ 31
          rw [List.length_append, List.length_singleton]
          omega
      · exact ⟨_, rfl, htest⟩
  · exact ⟨_, rfl, htest⟩

theorem managerStep_managed (h : Managed s) {wakeup : E}
    {r : CallEnd (CalledPool E)}
    (hstep : s.managerStep fd mask refused wakeup = some r) :
    exists s', r = CallEnd.returns s' ∧ Managed s' := by
  have hcounted := h.counted
  unfold managerStep at hstep
  cases hmanager : s.manager with
  | none =>
      rw [hmanager] at hstep
      cases hstep
  | some m =>
      rw [hmanager] at hstep hcounted
      cases m with
      | returned => cases hstep
      | test =>
          have hresting : ¬ s.Resizing := by
            unfold Resizing
            rw [hmanager]
            exact id
          cases hstep
          refine ⟨_, rfl, ?_⟩
          split
          · exact h.goto hresting rfl (fun _ => nofun)
          · exact h.goto hresting rfl (fun _ => nofun)
      | asleep =>
          have hresting := not_resizing_of_asleep hmanager
          dsimp only at hstep
          split at hstep
          · cases hstep
            exact adjust_managed h hmanager wakeup
          · cases hstep
            exact ⟨_, rfl, h.goto hresting rfl (fun _ => nofun)⟩
      | emptied idx =>
          have hpos := h.emptied idx hmanager
          have hlen := popLoop_length s idx
          have hsame : s.tNum = s.loadvec.length + 0 := hcounted
          cases hstep
          refine ⟨_, rfl, ?_, ?_, h.next_nonneg, h.least_nonneg, h.most_lt,
            nofun⟩
          · show s.tNum = ((s.popLoop idx).loadvec.length : Nat) + (1 : Int)
            rw [hlen]
            omega
          · show (s.popLoop idx).loadvec.length < 2 ^ 31
            rw [hlen]
            exact Nat.lt_of_le_of_lt (Nat.sub_le _ _) h.length_lt
      | popped =>
          have hsame : s.tNum - 1 = s.loadvec.length :=
            Int.sub_eq_iff_eq_add.mpr hcounted
          cases hstep
          refine ⟨_, rfl, ?_, h.length_lt, h.next_nonneg, h.least_nonneg,
            h.most_lt, nofun⟩
          show wrap32 (s.tNum - 1) = s.loadvec.length + (0 : Int)
          rw [hsame, wrap32_length h.length_lt, add_zero]
      | added =>
          have hsame : s.tNum + 1 = s.loadvec.length :=
            eq_sub_iff_add_eq.mp hcounted
          cases hstep
          refine ⟨_, rfl, ?_, h.length_lt, h.next_nonneg, h.least_nonneg,
            h.most_lt, nofun⟩
          show wrap32 (s.tNum + 1) = s.loadvec.length + (0 : Int)
          rw [hsame, wrap32_length h.length_lt, add_zero]

theorem managerStep_idle (hrest : ¬ s.Resizing) (hnot : ¬ s.Resizes)
    {wakeup : E} (hstep : s.managerStep fd mask refused wakeup =
      some (CallEnd.returns s')) : ¬ s'.Resizing ∧ s'.tNum = s.tNum := by
  unfold managerStep at hstep
  unfold Resizing at hrest
  cases hmanager : s.manager with
  | none =>
      rw [hmanager] at hstep
      cases hstep
  | some m =>
      rw [hmanager] at hstep hrest
      cases m with
      | returned => cases hstep
      | emptied idx => exact absurd trivial hrest
      | popped => exact absurd trivial hrest
      | added => exact absurd trivial hrest
      | test =>
          cases hstep
          refine ⟨?_, rfl⟩
          cases s.dispath with
          | true => exact id
          | false => exact id
      | asleep =>
          dsimp only at hstep
          split at hstep
          · rename_i hdispath
            unfold adjust at hstep
            split at hstep
            · rename_i hrange
              have hscale : ¬ (s.getscale < scaleMin ∨
                  scaleMax < s.getscale) := fun hscale =>
                hnot ⟨hmanager, hdispath, hrange, hscale⟩
              dsimp only at hstep
              rw [if_neg fun hlow => hscale (Or.inl hlow),
                if_neg fun hhigh => hscale (Or.inr hhigh)] at hstep
              cases hstep
              exact ⟨id, rfl⟩
            · cases hstep
              exact ⟨id, rfl⟩
          · cases hstep
            exact ⟨id, rfl⟩

end CalledPool

/-!
## Runs
-/

namespace UsedPool

open CalledPool

variable {E : Type u} {fd : E -> Int} {mask : E -> Mask} {refused : E -> Bool}
variable {s s' : UsedPool E}

structure Inv (s : UsedPool E) : Prop where
  pool : Managed s.pool
  running : forall a t, s.running = some (a, t) ->
    t = s.pool.tNum ∧ ¬ s.pool.Resizing

theorem new_inv (base : Eventloop E) (dispath : Bool) :
    Inv (new base dispath) where
  pool := {
    counted := by cases dispath <;> rfl
    length_lt := Nat.two_pow_pos 31
    next_nonneg := le_refl 0
    least_nonneg := le_refl 0
    most_lt := (by decide : (0 : Int) < 2 ^ 31)
    emptied := by
      intro idx h
      cases dispath <;> cases h }
  running := nofun

theorem finish_spec (h : Inv s) :
    (s.CountsLoops fd mask refused PoolAction.finish <->
      s.Fits PoolAction.finish) ∧
      (s.Fits PoolAction.finish -> forall s',
        s.step fd mask refused PoolAction.finish = some s' -> Inv s') := by
  cases hrunning : s.running with
  | none =>
      have hnone : s.stepEnd fd mask refused PoolAction.finish = none := by
        simp only [stepEnd, hrunning, Option.map_none]
      refine ⟨?_, ?_⟩
      · simp only [CountsLoops, hnone, Fits, hrunning]
      · intro _ s' hstep
        simp only [step, hnone] at hstep
        cases hstep
  | some r =>
      rcases r with ⟨a, t⟩
      rcases h.running a t hrunning with ⟨ht, hresting⟩
      subst ht
      have hinv := h.pool.inv hresting
      have honce : s.Fits PoolAction.finish <->
          s.pool.Fits a := by
        simp only [Fits, hrunning]
      rw [honce]
      rcases @call_spec E fd mask refused s.pool hinv a with
        ⟨hcreates, hend | ⟨q, hend, hq⟩⟩ | ⟨hcreates, hend | ⟨q, hend, hq⟩⟩
      · have hstep : s.stepEnd fd mask refused PoolAction.finish =
            some CallEnd.terminated := by
          simp only [stepEnd, hrunning, Option.map_some, hend]
        refine ⟨iff_of_true ?_ hcreates, ?_⟩
        · simp only [CountsLoops, hstep]
        · intro _ s' hs'
          simp only [step, hstep] at hs'
          cases hs'
      · have hstep : s.stepEnd fd mask refused PoolAction.finish =
            some (CallEnd.returns { pool := q, running := none }) := by
          simp only [stepEnd, hrunning, Option.map_some, hend]
        refine ⟨iff_of_true ?_ hcreates, ?_⟩
        · simp only [CountsLoops, hstep]
          exact fun _ => hq.inv.matched
        · intro _ s' hs'
          simp only [step, hstep] at hs'
          cases hs'
          exact ⟨hq.managed h.pool hresting, nofun⟩
      · have hstep : s.stepEnd fd mask refused PoolAction.finish =
            some CallEnd.outOfBounds := by
          simp only [stepEnd, hrunning, Option.map_some, hend]
        refine ⟨iff_of_false ?_ hcreates, fun hnot => absurd hnot hcreates⟩
        simp only [CountsLoops, hstep]
        exact id
      · have hstep : s.stepEnd fd mask refused PoolAction.finish =
            some (CallEnd.returns { pool := q, running := none }) := by
          simp only [stepEnd, hrunning, Option.map_some, hend]
        refine ⟨iff_of_false ?_ hcreates, fun hnot => absurd hnot hcreates⟩
        simp only [CountsLoops, hstep]
        exact fun hmatched => hq (hmatched trivial)

theorem manager_spec (h : Inv s) {wakeup : E}
    (hapart : s.Apart (PoolAction.manager wakeup)) :
    s.CountsLoops fd mask refused (PoolAction.manager wakeup) ∧
      forall s', s.step fd mask refused (PoolAction.manager wakeup) =
        some s' -> Inv s' := by
  cases hcall : s.pool.managerStep fd mask refused wakeup with
  | none =>
      have hnone : s.stepEnd fd mask refused (PoolAction.manager wakeup) =
          none := by
        simp only [stepEnd, hcall, Option.map_none]
      refine ⟨by simp only [CountsLoops, hnone], ?_⟩
      intro s' hs'
      simp only [step, hnone] at hs'
      cases hs'
  | some r =>
      rcases managerStep_managed h.pool hcall with ⟨q, hr, hq⟩
      subst hr
      have hstep : s.stepEnd fd mask refused (PoolAction.manager wakeup) =
          some (CallEnd.returns { s with pool := q }) := by
        simp only [stepEnd, hcall, Option.map_some]
      refine ⟨?_, ?_⟩
      · simp only [CountsLoops, hstep]
        intro hother
        cases hother
      · intro s' hs'
        simp only [step, hstep] at hs'
        cases hs'
        refine ⟨hq, ?_⟩
        intro a t hrunning
        rcases h.running a t hrunning with ⟨ht, hresting⟩
        have hnot : ¬ s.pool.Resizes := by
          apply hapart
          rw [hrunning]
          nofun
        rcases managerStep_idle hresting hnot hcall with ⟨hresting', htNum⟩
        exact ⟨ht.trans htNum.symm, hresting'⟩

theorem work_inv (h : Inv s) (f : Nat -> Eventloop E -> Eventloop E) :
    Inv { s with pool :=
      { s.pool with loadvec := s.pool.loadvec.mapIdx f } } where
  pool := {
    counted := by
      show s.pool.tNum = ((s.pool.loadvec.mapIdx f).length : Nat) +
        ahead s.pool.manager
      rw [List.length_mapIdx]
      exact h.pool.counted
    length_lt := by
      show (s.pool.loadvec.mapIdx f).length < 2 ^ 31
      rw [List.length_mapIdx]
      exact h.pool.length_lt
    next_nonneg := h.pool.next_nonneg
    least_nonneg := h.pool.least_nonneg
    most_lt := h.pool.most_lt
    emptied := by
      intro idx hidx
      show 0 < (s.pool.loadvec.mapIdx f).length
      rw [List.length_mapIdx]
      exact h.pool.emptied idx hidx }
  running := h.running

theorem step_spec (h : Inv s) {a : PoolAction E} (hapart : s.Apart a) :
    (s.CountsLoops fd mask refused a <-> s.Fits a) ∧
      (s.Fits a -> forall s',
        s.step fd mask refused a = some s' -> Inv s') := by
  cases a with
  | finish => exact finish_spec h
  | manager wakeup =>
      have hspec := @manager_spec E fd mask refused s h wakeup hapart
      exact ⟨iff_of_true hspec.left trivial, fun _ => hspec.right⟩
  | begin a =>
      cases hrunning : s.running with
      | some r =>
          have hnone : s.stepEnd fd mask refused (PoolAction.begin a) =
              none := by
            simp only [stepEnd, hrunning]
          refine ⟨iff_of_true ?_ trivial, ?_⟩
          · simp only [CountsLoops, hnone]
          · intro _ s' hs'
            simp only [step, hnone] at hs'
            cases hs'
      | none =>
          have hstep : s.stepEnd fd mask refused (PoolAction.begin a) =
              some (CallEnd.returns
                { s with running := some (a, s.pool.tNum) }) := by
            simp only [stepEnd, hrunning]
          refine ⟨iff_of_true ?_ trivial, ?_⟩
          · simp only [CountsLoops, hstep]
            intro hother
            cases hother
          · intro _ s' hs'
            simp only [step, hstep] at hs'
            cases hs'
            refine ⟨h.pool, ?_⟩
            intro b t hb
            cases hb
            exact ⟨rfl, hapart⟩
  | work f =>
      refine ⟨iff_of_true ?_ trivial, ?_⟩
      · simp only [CountsLoops, stepEnd]
        intro hother
        cases hother
      · intro _ s' hs'
        simp only [step, stepEnd] at hs'
        cases hs'
        exact work_inv h f

variable (fd mask refused)

instance (s : CalledPool E) : Decidable s.Resizing := by
  unfold CalledPool.Resizing
  split <;> infer_instance

instance (s : UsedPool E) (a : PoolAction E) : Decidable (s.Apart a) :=
  match a with
  | PoolAction.begin _ => inferInstanceAs (Decidable (¬ s.pool.Resizing))
  | PoolAction.manager _ =>
      decidable_of_iff (s.running.isNone = true ∨ ¬ (
        s.pool.manager = some ManagerThread.asleep ∧ s.pool.dispath = true ∧
          (s.pool.minTnum < s.pool.tNum ∧ s.pool.tNum < s.pool.maxTnum) ∧
            (s.pool.getscale < scaleMin ∨ scaleMax < s.pool.getscale)))
        (by
          show _ <-> (s.running ≠ none -> ¬ s.pool.Resizes)
          rw [Option.isNone_iff_eq_none]
          exact or_iff_not_imp_left)
  | PoolAction.finish => inferInstanceAs (Decidable True)
  | PoolAction.work _ => inferInstanceAs (Decidable True)

instance (s : CalledPool E) (a : PoolCall E) : Decidable (s.Fits a) :=
  match a with
  | PoolCall.createPool n _ _ =>
      decidable_of_iff
        (s.manager.isSome = true ∨ 0 <= n.toInt ∧ s.loadvec.isEmpty = true)
        (by rw [Option.isSome_iff_ne_none, List.isEmpty_iff]; exact Iff.rfl)
  | PoolCall.createPoolNoadjust n _ _ =>
      decidable_of_iff (0 <= n.toInt ∧ s.loadvec.isEmpty = true)
        (by rw [List.isEmpty_iff]; exact Iff.rfl)
  | PoolCall.delloopDispatch =>
      decidable_of_iff (¬ s.loadvec.isEmpty = true)
        (by rw [List.isEmpty_iff]; exact Iff.rfl)
  | PoolCall.addloop _ =>
      inferInstanceAs (Decidable (s.loadvec.length < 2 ^ 31 - 1))
  | PoolCall.evDispatch => inferInstanceAs (Decidable True)

instance (s : UsedPool E) (a : PoolAction E) : Decidable (s.Fits a) := by
  cases a with
  | finish =>
      unfold Fits
      dsimp only
      split <;> infer_instance
  | _ => exact inferInstanceAs (Decidable True)

def ownFd (e : Nat) : Int :=
  e

def watched (_ : Nat) : Mask :=
  EPOLLIN

def granted (_ : Nat) : Bool :=
  false

/-- `create_pool(3, -1)`, then `addloop()`. -/
def fourLoops : List (PoolAction Nat) :=
  [PoolAction.begin (PoolCall.createPool 3 (-1) fun i => 4 + i),
    PoolAction.finish, PoolAction.begin (PoolCall.addloop 7),
    PoolAction.finish]

/-- The manager finds four loops too many, and takes one out of `loadvec_`. -/
def loopPopped : List (PoolAction Nat) :=
  [PoolAction.manager 8, PoolAction.manager 8, PoolAction.manager 8]

def dispatched : List (PoolAction Nat) :=
  [PoolAction.begin PoolCall.evDispatch, PoolAction.finish]

theorem not_countsLoops_of_outOfBounds {s t : UsedPool E}
    (acts : List (PoolAction E)) {a : PoolAction E}
    (hrun : StepFn.run (step fd mask refused) s acts = some t)
    (hend : t.stepEnd fd mask refused a = some CallEnd.outOfBounds) :
    ¬ StepFn.Meets (step fd mask refused) (CountsLoops fd mask refused) s
      (acts ++ [a]) := by
  induction acts generalizing s with
  | nil =>
      cases hrun
      intro h
      have hlast := h.left
      unfold CountsLoops at hlast
      rw [hend] at hlast
      exact hlast
  | cons b rest ih =>
      rcases StepFn.run_cons_eq_some.mp hrun with ⟨s', hstep, hrest⟩
      intro h
      exact ih hrest ((StepFn.meets_cons_of_step hstep).mp h).right

end UsedPool

end MoonNet
