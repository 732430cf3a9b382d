import MoonNet.Looptpool.Adjust
import MoonNet.Looptpool.Turns

/-!
# Events and the loops that list them

An event keeps the loop it was constructed with in `loop_`, and nothing changes
this pointer.  `enable_listen`, `del_listen` and `update_ep` go to that loop.
`delloop_dispatch` moves events to other loops and destroys the loop they were
constructed with.

Loops are numbered in the order of their creation, the base loop first, and a
number is never used again.  A call on an event or a loop that is gone has no
successor.
-/

namespace MoonNet

open Foundation
open Foundation.Balancing

universe u

/--
A pool with the numbers of its loops, in the order of `loadvec_`, and `loop_` of
each event that has been constructed and not destroyed.
-/
structure HomedPool (E : Type u) where
  pool : Looptpool E
  loops : List Nat
  made : Nat
  getloop : E -> Option Nat

namespace HomedPool

variable {E : Type u} [DecidableEq E] (fd : E -> Int)

def baseLoop : Nat := 0

def start (wakeup : E) (dispath refused : Bool) : HomedPool E where
  pool :=
    { base := AdjustedPool.newLoop fd (fun _ => EPOLLIN) (fun _ => refused)
        wakeup
      loadvec := []
      tNum := 0
      next := 0
      dispath := dispath }
  loops := []
  made := 1
  getloop := Function.update (fun _ => none) wakeup (some baseLoop)

def exists? (s : HomedPool E) (loop : Nat) : Bool :=
  loop == baseLoop || s.loops.contains loop

/-- A call on loop number `loop`. -/
def onLoop (s : HomedPool E) (loop : Nat) (f : Eventloop E -> Eventloop E) :
    Option (HomedPool E) :=
  if loop = baseLoop then some { s with pool.base := f s.pool.base }
  else
    (s.loops.idxOf? loop).map fun i =>
      { s with pool.loadvec := s.pool.loadvec.modify i f }

def construct (s : HomedPool E) (ev : E) (loop : Nat) : Option (HomedPool E) :=
  if s.getloop ev = none ∧ s.exists? loop = true then
    some { s with getloop := Function.update s.getloop ev (some loop) }
  else none

def enableListen (s : HomedPool E) (ev : E) (events : Mask) (refused : Bool) :
    Option (HomedPool E) :=
  (s.getloop ev).bind fun loop =>
    s.onLoop loop fun l => l.addEvent fd ev events refused

def delListen (s : HomedPool E) (ev : E) (refused : Bool) :
    Option (HomedPool E) :=
  (s.getloop ev).bind fun loop =>
    s.onLoop loop fun l => l.delEvent fd ev refused

/--
`addloop`; `wakeup` is the event that the new loop constructs with itself and
adds to itself.  `init_pool` leaves what as many calls of `addloop` leave.
-/
def addloop (s : HomedPool E) (wakeup : E) (refused : Bool) :
    Option (HomedPool E) :=
  if s.getloop wakeup = none then
    some {
      pool := { s.pool with
        loadvec := s.pool.loadvec ++
          [AdjustedPool.newLoop fd (fun _ => EPOLLIN) (fun _ => refused)
            wakeup]
        tNum := s.pool.tNum + 1 }
      loops := s.loops ++ [s.made]
      made := s.made + 1
      getloop := Function.update s.getloop wakeup (some s.made) }
  else none

def delloopDispatch (s : HomedPool E) (mask : E -> Mask) (refused : E -> Bool) :
    Option (HomedPool E) :=
  match s.pool.loadvec[s.pool.getmaxidx]? with
  | none => none
  | some _ =>
      let r := s.pool.delloopDispatch fd mask refused
      some { s with
        pool := r.fst
        loops := Looptpool.removeAt s.pool.getmaxidx s.loops
        getloop := fun ev => if ev ∈ r.snd then none else s.getloop ev }

inductive Action (E : Type u) where
  | construct (ev : E) (loop : Nat)
  | enableListen (ev : E) (events : Mask) (refused : Bool)
  | delListen (ev : E) (refused : Bool)
  | addloop (wakeup : E) (refused : Bool)
  | delloopDispatch (mask : E -> Mask) (refused : E -> Bool)

def step : StepFn (HomedPool E) (Action E) := fun s a =>
  match a with
  | Action.construct ev loop => s.construct ev loop
  | Action.enableListen ev events refused => s.enableListen fd ev events refused
  | Action.delListen ev refused => s.delListen fd ev refused
  | Action.addloop wakeup refused => s.addloop fd wakeup refused
  | Action.delloopDispatch mask refused => s.delloopDispatch fd mask refused

/-- Each loop that there is lists only events whose `loop_` it is. -/
structure AtHome (s : HomedPool E) : Prop where
  base : forall ev, ev ∈ s.pool.base.evlist -> s.getloop ev = some baseLoop
  loop : forall (i : Nat) l loop, s.pool.loadvec[i]? = some l ->
    s.loops[i]? = some loop -> forall ev, ev ∈ l.evlist ->
      s.getloop ev = some loop

/--
A loop is removed only if all of its events come back to it while they are
dispatched, and are destroyed with it: it is the only loop, or it lists nothing,
or it lists one event and `ev_dispatch` would return this loop.
-/
def KeepsEvents (s : HomedPool E) : Action E -> Prop
  | Action.delloopDispatch _ _ =>
      forall l, s.pool.loadvec[s.pool.getmaxidx]? = some l ->
        s.pool.loadvec.length = 1 ∨ l.evlist = [] ∨
          l.evlist.length = 1 ∧
            s.pool.evDispatch.snd = some s.pool.getmaxidx
  | _ => True

structure Numbered (s : HomedPool E) : Prop where
  tNum_eq : s.pool.tNum = s.pool.loadvec.length
  length_eq : s.loops.length = s.pool.loadvec.length
  nodup : s.loops.Nodup
  given : forall loop, loop ∈ s.loops -> loop ≠ baseLoop ∧ loop < s.made
  made_pos : baseLoop < s.made

section Steps

variable {fd} {s s' : HomedPool E}

/-!
# Calls on one loop
-/

omit [DecidableEq E] in
theorem onLoop_numbered (h : Numbered s) {loop : Nat}
    {f : Eventloop E -> Eventloop E} (hcall : s.onLoop loop f = some s') :
    Numbered s' ∧ s'.getloop = s.getloop := by
  unfold onLoop at hcall
  split at hcall
  · cases hcall
    exact ⟨{ h with }, rfl⟩
  · rcases Option.map_eq_some_iff.mp hcall with ⟨i, _, hs'⟩
    subst hs'
    have hlen : (s.pool.loadvec.modify i f).length = s.pool.loadvec.length :=
      List.length_modify _ _ _
    exact ⟨{
      tNum_eq := h.tNum_eq.trans hlen.symm
      length_eq := h.length_eq.trans hlen.symm
      nodup := h.nodup
      given := h.given
      made_pos := h.made_pos }, rfl⟩

omit [DecidableEq E] in
theorem onLoop_atHome (h : AtHome s) {loop : Nat}
    {f : Eventloop E -> Eventloop E}
    (hf : forall l ev, ev ∈ (f l).evlist ->
      ev ∈ l.evlist ∨ s.getloop ev = some loop)
    (hcall : s.onLoop loop f = some s') : AtHome s' := by
  unfold onLoop at hcall
  split at hcall
  · rename_i hbase
    cases hcall
    constructor
    · intro ev hev
      rcases hf _ ev hev with hold | hhome
      · exact h.base ev hold
      · rw [<- hbase]
        exact hhome
    · exact h.loop
  · rcases Option.map_eq_some_iff.mp hcall with ⟨i, hi, hs'⟩
    subst hs'
    rcases List.idxOf?_eq_some_iff.mp hi with ⟨hlt, hat, _⟩
    have hloop : s.loops[i]? = some loop := by
      rw [List.getElem?_eq_getElem hlt, hat]
    constructor
    · exact h.base
    · intro j l number hl hnumber ev hev
      rw [List.getElem?_modify] at hl
      split at hl
      · rename_i hij
        subst hij
        rw [hloop] at hnumber
        cases hnumber
        rcases Option.map_eq_some_iff.mp hl with ⟨l', hl', heq⟩
        subst heq
        rcases hf l' ev hev with hold | hhome
        · exact h.loop i l' loop hl' hloop ev hold
        · exact hhome
      · have hsame : s.pool.loadvec[j]? = some l := by
          simpa using hl
        exact h.loop j l number hsame hnumber ev hev

omit [DecidableEq E] in
theorem enableListen_atHome (h : AtHome s) {ev : E} {events : Mask}
    {refused : Bool} (hcall : s.enableListen fd ev events refused = some s') :
    AtHome s' := by
  rcases Option.bind_eq_some_iff.mp hcall with ⟨loop, hloop, hcall⟩
  apply onLoop_atHome h _ hcall
  intro l e he
  rw [Eventloop.addEvent_evlist] at he
  rcases List.mem_append.mp he with hold | hnew
  · exact Or.inl hold
  · rw [List.mem_singleton.mp hnew]
    exact Or.inr hloop

theorem delListen_atHome (h : AtHome s) {ev : E} {refused : Bool}
    (hcall : s.delListen fd ev refused = some s') : AtHome s' := by
  rcases Option.bind_eq_some_iff.mp hcall with ⟨loop, _, hcall⟩
  apply onLoop_atHome h _ hcall
  intro l e he
  rw [Eventloop.delEvent_evlist] at he
  exact Or.inl (List.mem_of_mem_filter he)

/-!
# New events and loops
-/

theorem getloop_update_of_atHome {ev fresh : E} {loop home : Nat}
    (hfresh : s.getloop fresh = none) (hev : s.getloop ev = some loop) :
    Function.update s.getloop fresh (some home) ev = some loop := by
  rw [Function.update_of_ne _ _ _, hev]
  intro heq
  rw [heq, hfresh] at hev
  cases hev

theorem construct_atHome (h : AtHome s) {ev : E} {loop : Nat}
    (hcall : s.construct ev loop = some s') : AtHome s' := by
  unfold construct at hcall
  split at hcall
  · rename_i hguard
    cases hcall
    constructor
    · intro e he
      exact getloop_update_of_atHome hguard.left (h.base e he)
    · intro i l number hl hnumber e he
      exact getloop_update_of_atHome hguard.left
        (h.loop i l number hl hnumber e he)
  · cases hcall

theorem construct_numbered (h : Numbered s) {ev : E} {loop : Nat}
    (hcall : s.construct ev loop = some s') : Numbered s' := by
  unfold construct at hcall
  split at hcall
  · cases hcall
    exact { h with }
  · cases hcall

omit [DecidableEq E] in
theorem newLoop_evlist (wakeup : E) (mask : E -> Mask) (refused : E -> Bool) :
    (AdjustedPool.newLoop fd mask refused wakeup).evlist = [wakeup] :=
  Eventloop.addEvent_evlist fd _ _ _ _

theorem addloop_numbered (h : Numbered s) {wakeup : E} {refused : Bool}
    (hcall : s.addloop fd wakeup refused = some s') : Numbered s' := by
  unfold addloop at hcall
  split at hcall
  · cases hcall
    exact {
      tNum_eq := by
        show s.pool.tNum + 1 = (s.pool.loadvec ++ [_]).length
        rw [List.length_append, h.tNum_eq, List.length_singleton]
      length_eq := by
        show (s.loops ++ [s.made]).length = (s.pool.loadvec ++ [_]).length
        rw [List.length_append, List.length_append, h.length_eq,
          List.length_singleton, List.length_singleton]
      nodup := by
        apply List.nodup_append.mpr
        refine ⟨h.nodup, List.nodup_singleton _, ?_⟩
        intro loop hloop number hnumber heq
        rw [List.mem_singleton.mp hnumber] at heq
        have hlt := (h.given loop hloop).right
        omega
      given := by
        intro loop hloop
        show loop ≠ baseLoop ∧ loop < s.made + 1
        rcases List.mem_append.mp hloop with hold | hnew
        · have hgiven := h.given loop hold
          exact ⟨hgiven.left, Nat.lt_succ_of_lt hgiven.right⟩
        · rw [List.mem_singleton.mp hnew]
          exact ⟨Nat.ne_of_gt h.made_pos, Nat.lt_succ_self _⟩
      made_pos := Nat.lt_succ_of_lt h.made_pos }
  · cases hcall

theorem addloop_atHome (hn : Numbered s) (h : AtHome s) {wakeup : E}
    {refused : Bool} (hcall : s.addloop fd wakeup refused = some s') :
    AtHome s' := by
  unfold addloop at hcall
  split at hcall
  · rename_i hfresh
    cases hcall
    constructor
    · intro ev hev
      exact getloop_update_of_atHome hfresh (h.base ev hev)
    · intro i l number hl hnumber ev hev
      have hlen := hn.length_eq
      by_cases hi : i < s.pool.loadvec.length
      · rw [List.getElem?_append_left hi] at hl
        rw [List.getElem?_append_left (hlen ▸ hi)] at hnumber
        exact getloop_update_of_atHome hfresh
          (h.loop i l number hl hnumber ev hev)
      · rw [List.getElem?_append_right (by omega),
          List.getElem?_singleton] at hl
        rw [List.getElem?_append_right (by omega), hlen,
          List.getElem?_singleton] at hnumber
        split at hl
        · rename_i hend
          rw [if_pos hend] at hnumber
          cases hl
          cases hnumber
          rw [newLoop_evlist] at hev
          rw [List.mem_singleton.mp hev]
          exact Function.update_self _ _ _
        · cases hl
  · cases hcall

/-!
# Removing a loop
-/

section Removal

variable {mask : E -> Mask} {refused : E -> Bool} {victim : Eventloop E}

open Looptpool

omit [DecidableEq E] in
theorem emptied_loads {p : Looptpool E} {idx : Nat}
    (hvictim : p.loadvec[idx]? = some victim) :
    (p.emptied idx victim).loads = p.loads := by
  rcases List.getElem?_eq_some_iff.mp hvictim with ⟨hidx, hget⟩
  unfold loads emptied
  rw [List.map_set]
  show (p.loadvec.map Eventloop.load).set idx victim.load = _
  rw [<- hget, <- List.getElem_map Eventloop.load (h := by simpa using hidx),
    List.set_getElem_self]

omit [DecidableEq E] in
theorem emptied_nextLoop {p : Looptpool E} {idx : Nat}
    (hvictim : p.loadvec[idx]? = some victim) :
    (p.emptied idx victim).nextLoop = p.nextLoop := by
  unfold nextLoop getminload
  rw [emptied_loads hvictim]
  rfl

omit [DecidableEq E] in
theorem running_of_numbered (h : Numbered s)
    (hvictim : s.pool.loadvec[s.pool.getmaxidx]? = some victim) :
    Running s.pool where
  tNum_eq := h.tNum_eq
  nonempty := Nat.lt_of_le_of_lt (Nat.zero_le _)
    (List.getElem?_eq_some_iff.mp hvictim).1

omit [DecidableEq E] in
theorem emptied_running {p : Looptpool E} (h : Running p) (idx : Nat)
    (victim : Eventloop E) : Running (p.emptied idx victim) where
  tNum_eq := by
    rw [emptied, List.length_set]
    exact h.tNum_eq
  nonempty := by
    rw [emptied, List.length_set]
    exact h.nonempty

structure Removes (s s' : HomedPool E) (victim : Eventloop E) (number : Nat)
    (all : Looptpool E) : Prop where
  at_idx : s.pool.loadvec[s.pool.getmaxidx]? = some victim
  number_at : s.loops[s.pool.getmaxidx]? = some number
  running : Running s.pool
  length_eq : all.loadvec.length = s.pool.loadvec.length
  base : s'.pool.base = s.pool.base
  loadvec : s'.pool.loadvec = removeAt s.pool.getmaxidx all.loadvec
  tNum_eq : s'.pool.tNum = all.tNum - 1
  loops : s'.loops = removeAt s.pool.getmaxidx s.loops
  made : s'.made = s.made
  getloop : forall ev, s'.getloop ev =
    if ev ∈ all.evlistAt s.pool.getmaxidx then none else s.getloop ev

theorem removes_of_delloopDispatch (h : Numbered s)
    (hcall : s.delloopDispatch fd mask refused = some s') :
    exists victim number,
      Removes s s' victim number
        (s.pool.redistributed fd mask refused s.pool.getmaxidx victim) := by
  unfold delloopDispatch at hcall
  cases hvictim : s.pool.loadvec[s.pool.getmaxidx]? with
  | none =>
      rw [hvictim] at hcall
      cases hcall
  | some victim =>
      simp only [hvictim, delloopDispatch_eq hvictim,
        Option.some.injEq] at hcall
      have hidx := (List.getElem?_eq_some_iff.mp hvictim).1
      have hnumber := List.getElem?_eq_getElem (h.length_eq ▸ hidx)
      have hrunning := running_of_numbered h hvictim
      have hall := @dispatchAll_running E fd mask refused _
        (emptied_running hrunning s.pool.getmaxidx victim) victim.evlist
      refine ⟨victim, _, hvictim, hnumber, hrunning, ?_, ?_, ?_, ?_, ?_, ?_, ?_⟩
      · rw [redistributed, hall.right.left, emptied, List.length_set]
      · rw [<- hcall]
        exact hall.right.right
      · rw [<- hcall]
      · rw [<- hcall]
      · rw [<- hcall]
      · rw [<- hcall]
      · intro ev
        rw [<- hcall]

section Result

variable {number : Nat} {all : Looptpool E}

theorem Removes.numbered (h : Numbered s)
    (hr : Removes s s' victim number all) (htNum : Running all) :
    Numbered s' := by
  have hperm : s.loops.Perm (number :: s'.loops) := by
    rw [hr.loops]
    exact removeAt_perm hr.number_at
  exact {
    tNum_eq := by
      rw [hr.tNum_eq, hr.loadvec, removeAt_length, htNum.tNum_eq]
    length_eq := by
      rw [hr.loops, hr.loadvec, removeAt_length, removeAt_length, h.length_eq,
        hr.length_eq]
    nodup := (List.nodup_cons.mp (hperm.nodup_iff.mp h.nodup)).right
    given := by
      intro loop hloop
      rw [hr.made]
      exact h.given loop (hperm.mem_iff.mpr (List.mem_cons_of_mem _ hloop))
    made_pos := hr.made ▸ h.made_pos }

theorem Removes.index_eq (h : Numbered s) (hr : Removes s s' victim number all)
    {j : Nat} (hj : s.loops[j]? = some number) : j = s.pool.getmaxidx := by
  have hlt := (List.getElem?_eq_some_iff.mp hj).1
  exact (List.getElem?_inj hlt h.nodup).mp (hj.trans hr.number_at.symm)

theorem Removes.not_atHome (hn : Numbered s) (h : AtHome s)
    (hr : Removes s s' victim number all) {j : Nat} {ev : E}
    (hj : j < s.pool.loadvec.length) (hne : j ≠ s.pool.getmaxidx)
    (hev : ev ∈ victim.evlist) (hstray : ev ∈ all.evlistAt j) :
    ¬ AtHome s' := by
  intro h'
  have hhome := h.loop _ victim number hr.at_idx hr.number_at ev hev
  have hidx := (List.getElem?_eq_some_iff.mp hr.at_idx).1
  have hlen := hr.length_eq
  rcases loop_of_lt (hlen.symm ▸ hj) with ⟨l, hl, hevlist⟩
  have hnumber : exists other, s.loops[j]? = some other :=
    ⟨_, List.getElem?_eq_getElem (hn.length_eq.symm ▸ hj)⟩
  rcases hnumber with ⟨other, hnumber⟩
  have hl' : s'.pool.loadvec[place s.pool.loadvec.length s.pool.getmaxidx j]? =
      some l := by
    rw [hr.loadvec, <- hlen, removeAt_getElem? (hlen.symm ▸ hidx)
      (hlen.symm ▸ hj) hne]
    exact hl
  have hnumber' : s'.loops[place s.pool.loadvec.length s.pool.getmaxidx j]? =
      some other := by
    rw [hr.loops, <- hn.length_eq, removeAt_getElem? (hn.length_eq.symm ▸ hidx)
      (hn.length_eq.symm ▸ hj) hne]
    exact hnumber
  have hmoved := h'.loop _ l other hl' hnumber' ev (hevlist ▸ hstray)
  rw [hr.getloop] at hmoved
  split at hmoved
  · cases hmoved
  · rw [hhome] at hmoved
    apply hne
    apply hr.index_eq hn
    rw [hnumber, <- Option.some.inj hmoved]

theorem Removes.atHome (hn : Numbered s) (h : AtHome s)
    (hr : Removes s s' victim number all)
    (hdestroyed : forall ev, ev ∈ all.evlistAt s.pool.getmaxidx ->
      ev ∈ victim.evlist)
    (hkeep : forall j, j ≠ s.pool.getmaxidx ->
      all.evlistAt j = s.pool.evlistAt j) :
    AtHome s' := by
  have hhome : forall ev loop, s.getloop ev = some loop -> loop ≠ number ->
      s'.getloop ev = some loop := by
    intro ev loop hev hne
    rw [hr.getloop, if_neg _, hev]
    intro hgone
    have hvictim := h.loop _ victim number hr.at_idx hr.number_at ev
      (hdestroyed ev hgone)
    rw [hev] at hvictim
    exact hne (Option.some.inj hvictim)
  constructor
  · intro ev hev
    rw [hr.base] at hev
    apply hhome ev baseLoop (h.base ev hev)
    exact (hn.given number (List.mem_of_getElem? hr.number_at)).left.symm
  · intro i l loop hl hloop ev hev
    have hi : i + 1 < s.pool.loadvec.length := by
      have hlt := (List.getElem?_eq_some_iff.mp hl).1
      rw [hr.loadvec, removeAt_length, hr.length_eq] at hlt
      omega
    rw [hr.loadvec, removeAt_source (hr.length_eq.symm ▸ hi), hr.length_eq] at hl
    rw [hr.loops, removeAt_source (hn.length_eq.symm ▸ hi), hn.length_eq] at hloop
    have hne : source s.pool.loadvec.length s.pool.getmaxidx i ≠
        s.pool.getmaxidx := by
      unfold source
      split
      · omega
      · assumption
    have hsame : l.evlist = s.pool.evlistAt
        (source s.pool.loadvec.length s.pool.getmaxidx i) := by
      rw [<- hkeep _ hne, evlistAt, hl]
      rfl
    have hlt := (List.getElem?_eq_some_iff.mp hl).1
    rw [hr.length_eq] at hlt
    rcases loop_of_lt hlt with ⟨l', hl', hevlist⟩
    apply hhome ev loop
    · apply h.loop _ l' loop hl' hloop
      rw [hevlist, <- hsame]
      exact hev
    · intro heq
      rw [heq] at hloop
      exact hne (hr.index_eq hn hloop)

theorem keepsEvents_iff (hr : Removes s s' victim number all) :
    KeepsEvents s (Action.delloopDispatch mask refused) <->
      (s.pool.emptied s.pool.getmaxidx victim).Returns s.pool.getmaxidx
        victim.evlist := by
  unfold KeepsEvents Returns
  rw [emptied_nextLoop hr.at_idx, evDispatch_snd hr.running,
    Option.some.injEq, emptied, List.length_set]
  constructor
  · intro h
    exact h victim hr.at_idx
  · intro h l hl
    rw [hr.at_idx] at hl
    cases hl
    exact h

theorem delloopDispatch_numbered (h : Numbered s)
    (hcall : s.delloopDispatch fd mask refused = some s') : Numbered s' := by
  rcases removes_of_delloopDispatch h hcall with ⟨victim, number, hr⟩
  have hrunning := emptied_running hr.running s.pool.getmaxidx victim
  exact hr.numbered h (dispatchAll_running hrunning victim.evlist).left

theorem delloopDispatch_atHome_iff (hn : Numbered s) (h : AtHome s)
    (hcall : s.delloopDispatch fd mask refused = some s') :
    AtHome s' <-> KeepsEvents s (Action.delloopDispatch mask refused) := by
  rcases removes_of_delloopDispatch hn hcall with ⟨victim, number, hr⟩
  have hrunning := emptied_running hr.running s.pool.getmaxidx victim
  have hmax := getmaxidx_max hr.running.nonempty
  have hlen : (s.pool.emptied s.pool.getmaxidx victim).loadvec.length =
      s.pool.loadvec.length :=
    List.length_set
  rw [keepsEvents_iff hr]
  constructor
  · intro h'
    by_contra hreturns
    have hstray := @stray_of_not_returns E fd mask refused _ _ hrunning
      (by rw [hlen, emptied_loadAt hr.at_idx]; exact hmax.right) _ hreturns
    rcases hstray with ⟨j, ev, hj, hne, hev, hlisted⟩
    exact hr.not_atHome hn h (hlen ▸ hj) hne hev hlisted h'
  · intro hreturns
    apply hr.atHome hn h
    · intro ev hev
      rcases (mem_dispatchAll hrunning victim.evlist _ ev).right hev with
        hold | hnew
      · rw [emptied_evlistAt_self hr.at_idx] at hold
        cases hold
      · exact hnew
    · intro j hj
      exact (others_keep hrunning (hlen.symm ▸ hmax.left) hreturns hj).trans
        (emptied_evlistAt_of_ne hj)

end Result

end Removal

/-!
# Whole runs
-/

theorem step_numbered {a : Action E} (h : Numbered s)
    (hstep : step fd s a = some s') : Numbered s' := by
  cases a with
  | construct ev loop =>
      exact construct_numbered h hstep
  | enableListen ev events refused =>
      rcases Option.bind_eq_some_iff.mp hstep with ⟨loop, _, hcall⟩
      exact (onLoop_numbered h hcall).left
  | delListen ev refused =>
      rcases Option.bind_eq_some_iff.mp hstep with ⟨loop, _, hcall⟩
      exact (onLoop_numbered h hcall).left
  | addloop wakeup refused =>
      exact addloop_numbered h hstep
  | delloopDispatch mask refused =>
      exact delloopDispatch_numbered h hstep

theorem step_atHome_iff {a : Action E} (h : AtHome s) (hn : Numbered s)
    (hstep : step fd s a = some s') : AtHome s' <-> KeepsEvents s a := by
  cases a with
  | construct ev loop =>
      exact iff_of_true (construct_atHome h hstep) trivial
  | enableListen ev events refused =>
      exact iff_of_true (enableListen_atHome h hstep) trivial
  | delListen ev refused =>
      exact iff_of_true (delListen_atHome h hstep) trivial
  | addloop wakeup refused =>
      exact iff_of_true (addloop_atHome hn h hstep) trivial
  | delloopDispatch mask refused =>
      exact delloopDispatch_atHome_iff hn h hstep

theorem start_numbered (wakeup : E) (dispath refused : Bool) :
    Numbered (start fd wakeup dispath refused) where
  tNum_eq := rfl
  length_eq := rfl
  nodup := List.nodup_nil
  given := nofun
  made_pos := Nat.succ_pos 0

theorem start_atHome (wakeup : E) (dispath refused : Bool) :
    AtHome (start fd wakeup dispath refused) where
  base := by
    intro ev hev
    change ev ∈ (AdjustedPool.newLoop fd _ _ wakeup).evlist at hev
    rw [newLoop_evlist] at hev
    rw [List.mem_singleton.mp hev]
    exact Function.update_self wakeup (some baseLoop) fun _ => none
  loop := by
    intro i l loop hl
    cases hl

end Steps

/--
For every pool and every run of these calls, all events are listed by their own
loops in every state exactly if no call of `delloop_dispatch` gives an event of
the removed loop to another one.
-/
theorem atHome_iff_keepsEvents (wakeup : E) (dispath refused : Bool)
    {acts : List (Action E)} {t : HomedPool E}
    (hrun : StepFn.run (step fd) (start fd wakeup dispath refused) acts =
      some t) :
    StepFn.Throughout (step fd) AtHome (start fd wakeup dispath refused) acts <->
      StepFn.Meets (step fd) KeepsEvents (start fd wakeup dispath refused)
        acts := by
  have hpres : forall (s : HomedPool E) a s', Numbered s ->
      step fd s a = some s' -> Numbered s' :=
    fun s a s' h hstep => step_numbered h hstep
  have hiff : forall (s : HomedPool E) a s', AtHome s -> Numbered s ->
      step fd s a = some s' -> (AtHome s' <-> KeepsEvents s a) :=
    fun s a s' h hn hstep => step_atHome_iff h hn hstep
  exact StepFn.throughout_iff_meets hiff (start_atHome wakeup dispath refused)
    (StepFn.meets_of_invariant hpres (start_numbered wakeup dispath refused)
      acts) hrun

/-!
Runs of a pool in dynamic dispatch with descriptors as events: 3, 4 and 5 are
the wake-up events of the base loop and of two loops.  The first loop can be
removed while each loop lists its wake-up event only; with events 10 and 11
enabled on it, two of its three events go to the other loop.
-/

def twoLoops : List (Action Int) :=
  [Action.addloop 4 false, Action.addloop 5 false]

def removal : Action Int :=
  Action.delloopDispatch (fun _ => EPOLLIN) fun _ => false

def removedIdle : List (Action Int) :=
  twoLoops ++ [removal]

def removedBusy : List (Action Int) :=
  twoLoops ++ [Action.construct 10 1, Action.enableListen 10 EPOLLIN false,
    Action.construct 11 1, Action.enableListen 11 EPOLLIN false, removal]

theorem atHome_iff_keepsEvents_removedIdle :
    exists t : HomedPool Int,
      StepFn.run (step id) (start id 3 true false) removedIdle = some t ∧
        t.loops = [2] ∧ t.getloop 4 = none ∧
        (StepFn.Throughout (step id) AtHome (start id 3 true false)
            removedIdle <->
          StepFn.Meets (step id) KeepsEvents (start id 3 true false)
            removedIdle) := by
  have hreached : exists t : HomedPool Int,
      StepFn.run (step id) (start id 3 true false) removedIdle = some t ∧
        t.loops = [2] ∧ t.getloop 4 = none :=
    ⟨_, rfl, rfl, rfl⟩
  rcases hreached with ⟨t, hrun, hloops, hgone⟩
  exact ⟨t, hrun, hloops, hgone,
    atHome_iff_keepsEvents id 3 true false hrun⟩

/-- The other loop, number 2, lists events 4 and 10, whose loop 1 is gone. -/
theorem atHome_fails_removedBusy :
    exists t : HomedPool Int,
      StepFn.run (step id) (start id 3 true false) removedBusy = some t ∧
        t.loops = [2] ∧ t.pool.loadvec.map Eventloop.evlist = [[5, 4, 10]] ∧
        t.getloop 4 = some 1 ∧ t.getloop 10 = some 1 ∧ ¬ AtHome t := by
  have hreached : exists t : HomedPool Int,
      StepFn.run (step id) (start id 3 true false) removedBusy = some t ∧
        t.loops = [2] ∧ t.pool.loadvec.map Eventloop.evlist = [[5, 4, 10]] ∧
        t.getloop 4 = some 1 ∧ t.getloop 10 = some 1 :=
    ⟨_, rfl, rfl, rfl, rfl, rfl⟩
  rcases hreached with ⟨t, hrun, hloops, hlists, hfour, hten⟩
  refine ⟨t, hrun, hloops, hlists, hfour, hten, ?_⟩
  intro h
  rcases List.map_eq_singleton_iff.mp hlists with ⟨l, hl, hevlist⟩
  have hhome := h.loop 0 l 2 (by rw [hl]; rfl) (by rw [hloops]; rfl) 10
    (by rw [hevlist]; decide)
  rw [hten] at hhome
  cases hhome

end HomedPool

end MoonNet
