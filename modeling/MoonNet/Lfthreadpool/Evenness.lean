import MoonNet.Foundation.Spread
import MoonNet.Lfthreadpool.Redispatch
import MoonNet.Lfthreadpool.Scale
import MoonNet.Looptpool.Dispatch

/-!
# Dispatch to the least load keeps the loads even

An event goes to the first loop with the least load, and a task of a pool in
dynamic mode to the first worker with the least load.  The load of a loop is an
`int` that may have any value here, and that of a worker is the length of its
queue converted to `int`, so that both count only up to `2 ^ 31 - 1`.
-/

namespace MoonNet

open Foundation
open Foundation.Dealing

universe u v

/-- Each of `n` units has been counted, and the loads are as even as before. -/
structure GrowsEvenly (before : List Int) (n : Nat) (after : List Int) :
    Prop where
  total : after.sum = before.sum + n
  even : spread after <= max 1 (spread before)

theorem growsEvenly_of_dealt {before after : List Int} {n : Nat}
    (h : Dealt before n after) : GrowsEvenly before n after where
  total := h.sum_eq
  even := h.spread_le

/-!
## Loops
-/

namespace Eventloop

variable {E : Type u} (fd : E -> Int)

/-- `add_event` with `load_` as the atomic `int` that it is. -/
def addEventInt (s : Eventloop E) (event : E) (events : Mask)
    (refused : Bool) : Eventloop E :=
  { s.addEvent fd event events refused with load := wrap32 (s.load + 1) }

variable {fd}

theorem addEventInt_of_room {s : Eventloop E} (hle : -2 ^ 31 <= s.load)
    (hroom : s.load < 2 ^ 31 - 1) (event : E) (events : Mask)
    (refused : Bool) :
    s.addEventInt fd event events refused =
      s.addEvent fd event events refused := by
  have hload : wrap32 (s.load + 1) =
      (s.addEvent fd event events refused).load := by
    rw [addEvent_load]
    exact wrap32_eq (by omega) (by omega)
  unfold addEventInt
  rw [hload]

end Eventloop

namespace Looptpool

variable {E : Type u} {fd : E -> Int} {mask : E -> Mask} {refused : E -> Bool}
variable {p : Looptpool E}

theorem getminload_least (h : 0 < p.loadvec.length) :
    Least p.loads p.getminload (p.loadAt p.getminload) := by
  have hmin := getminload_firstMin h
  constructor
  · exact loads_eq_some hmin.lt
  · intro load hload
    rcases List.mem_iff_getElem?.mp hload with ⟨j, hj⟩
    have hlt : j < p.loadvec.length := by
      have hlt := (List.getElem?_eq_some_iff.mp hj).1
      simpa [loads] using hlt
    rw [loads_eq_some hlt] at hj
    cases hj
    exact hmin.le j hlt

theorem dispatchEvent_loads (h : Live p) (ev : E) :
    (p.dispatchEvent fd mask refused ev).loads =
      giveAt p.loads p.getminload := by
  rw [dispatchEvent_eq h]
  apply List.ext_getElem?
  intro j
  unfold loads giveAt
  rw [List.getElem?_map, List.getElem?_modify, List.getElem?_modify,
    List.getElem?_map]
  cases hj : p.loadvec[j]? with
  | none =>
      rfl
  | some loop =>
      by_cases hidx : p.getminload = j
      · simp [hidx, Eventloop.addEvent_load]
      · simp [hidx]

theorem dispatchAll_dealt (h : Live p) (evs : List E) :
    Dealt p.loads evs.length
      (evs.foldl (dispatchEvent fd mask refused) p).loads := by
  induction evs generalizing p with
  | nil =>
      exact Dealt.nothing p.loads
  | cons ev rest ih =>
      have hleast := getminload_least h.nonempty
      have hrest := ih (@dispatchEvent_live E fd mask refused p h ev).left
      rw [dispatchEvent_loads h] at hrest
      exact Dealt.unit hleast hrest

/-- `load_` of each loop is an `int`. -/
def IntLoads (p : Looptpool E) : Prop :=
  forall load, load ∈ p.loads -> -2 ^ 31 <= load ∧ load < 2 ^ 31

variable (fd mask refused) in
/--
`ev_dispatch()->add_event(ev)`, where `updateload` adds to an atomic `int` of
any value and wraps.
-/
def dispatchInt (p : Looptpool E) (ev : E) : Looptpool E :=
  match p.evDispatch with
  | (p, none) =>
      { p with base := p.base.addEventInt fd ev (mask ev) (refused ev) }
  | (p, some idx) =>
      { p with loadvec := p.loadvec.modify idx fun loop =>
          loop.addEventInt fd ev (mask ev) (refused ev) }

theorem dispatchInt_eq (h : Live p) (ev : E) :
    p.dispatchInt fd mask refused ev =
      { p with loadvec := p.loadvec.modify p.getminload fun loop =>
          loop.addEventInt fd ev (mask ev) (refused ev) } := by
  have htNum : p.tNum ≠ 0 := by
    rw [h.tNum_eq]
    exact Nat.ne_of_gt h.nonempty
  simp [dispatchInt, evDispatch, htNum, h.dispath_eq]

theorem dispatchInt_live (h : Live p) (ev : E) :
    Live (p.dispatchInt fd mask refused ev) ∧
      (p.dispatchInt fd mask refused ev).loadvec.length =
        p.loadvec.length := by
  rw [dispatchInt_eq h]
  have hlen : forall f : Eventloop E -> Eventloop E,
      (p.loadvec.modify p.getminload f).length = p.loadvec.length :=
    fun f => List.length_modify f p.loadvec p.getminload
  exact ⟨{ dispath_eq := h.dispath_eq, tNum_eq := h.tNum_eq.trans (hlen _).symm,
           nonempty := (hlen _).symm ▸ h.nonempty }, hlen _⟩

theorem dispatchInt_intLoads (h : Live p) (hint : IntLoads p) (ev : E) :
    IntLoads (p.dispatchInt fd mask refused ev) := by
  rw [dispatchInt_eq h]
  intro load hload
  rcases List.mem_map.mp hload with ⟨loop, hmem, hload⟩
  rw [<- hload]
  rcases List.mem_iff_getElem?.mp hmem with ⟨j, hj⟩
  dsimp only at hj
  rw [List.getElem?_modify] at hj
  rcases Option.map_eq_some_iff.mp hj with ⟨old, hold, hloop⟩
  by_cases hidx : p.getminload = j
  · rw [if_pos hidx] at hloop
    rw [<- hloop]
    exact ⟨le_wrap32 _, wrap32_lt _⟩
  · rw [if_neg hidx] at hloop
    rw [<- hloop]
    exact hint _ (List.mem_map.mpr ⟨old, List.mem_of_getElem? hold, rfl⟩)

theorem dispatchInt_of_room (h : Live p) (hint : IntLoads p)
    (hroom : p.loadAt p.getminload < 2 ^ 31 - 1) (ev : E) :
    p.dispatchInt fd mask refused ev = p.dispatchEvent fd mask refused ev := by
  rw [dispatchInt_eq h, dispatchEvent_eq h]
  have hlt : p.getminload < p.loadvec.length := by
    have hlt := (getminload_least h.nonempty).length_lt
    simpa [loads] using hlt
  congr 1
  apply List.ext_getElem?
  intro j
  rw [List.getElem?_modify, List.getElem?_modify]
  by_cases hidx : p.getminload = j
  · subst hidx
    rw [List.getElem?_eq_getElem hlt]
    have hat : p.loadAt p.getminload = (p.loadvec[p.getminload]).load := by
      rw [loadAt_eq, List.getElem?_eq_getElem hlt]
      rfl
    rw [hat] at hroom
    have hle := (hint _ (List.mem_map.mpr
      ⟨_, List.getElem_mem hlt, rfl⟩)).left
    have hsame := @Eventloop.addEventInt_of_room E fd _ hle hroom ev (mask ev)
      (refused ev)
    simp [hsame]
  · simp [hidx]

theorem loads_length (p : Looptpool E) : p.loads.length = p.loadvec.length :=
  List.length_map _

theorem intLoads_sum_le (hint : IntLoads p) :
    p.loads.sum <= p.loadvec.length * (2 ^ 31 - 1) := by
  have hle : p.loads.sum <= p.loads.length • (2 ^ 31 - 1 : Int) := by
    apply List.sum_le_card_nsmul
    intro load hload
    exact Int.le_sub_one_of_lt (hint load hload).right
  rwa [nsmul_eq_mul, p.loads_length] at hle

theorem dispatchAllInt_spec (h : Live p) (hint : IntLoads p) (evs : List E) :
    IntLoads (evs.foldl (dispatchInt fd mask refused) p) ∧
      (evs.foldl (dispatchInt fd mask refused) p).loadvec.length =
        p.loadvec.length ∧
      (p.loads.sum + evs.length <= p.loadvec.length * (2 ^ 31 - 1) ->
        evs.foldl (dispatchInt fd mask refused) p =
          evs.foldl (dispatchEvent fd mask refused) p) := by
  induction evs generalizing p with
  | nil =>
      exact ⟨hint, rfl, fun _ => rfl⟩
  | cons ev rest ih =>
      have hnext := @dispatchInt_live E fd mask refused p h ev
      rcases ih hnext.left (dispatchInt_intLoads h hint ev) with
        ⟨hlast, hlen, hsame⟩
      refine ⟨hlast, hlen.trans hnext.right, ?_⟩
      intro hroom
      rw [List.length_cons, Nat.cast_succ] at hroom
      have hleast := getminload_least h.nonempty
      have hlt : p.loadAt p.getminload < 2 ^ 31 - 1 := by
        apply hleast.lt_of_sum_lt
        rw [p.loads_length]
        omega
      have hone := @dispatchInt_of_room E fd mask refused p h hint hlt ev
      have hsum : (p.dispatchInt fd mask refused ev).loads.sum =
          p.loads.sum + 1 := by
        rw [hone, dispatchEvent_loads h, giveAt_sum hleast.length_lt]
      rw [List.foldl_cons, List.foldl_cons, <- hone]
      apply hsame
      rw [hsum, hnext.right]
      omega

theorem dispatchAllInt_growsEvenly_iff (h : Live p) (hint : IntLoads p)
    (evs : List E) :
    GrowsEvenly p.loads evs.length
        (evs.foldl (dispatchInt fd mask refused) p).loads <->
      p.loads.sum + evs.length <= p.tNum * (2 ^ 31 - 1) := by
  rcases @dispatchAllInt_spec E fd mask refused p h hint evs with
    ⟨hlast, hlen, hsame⟩
  rw [h.tNum_eq]
  constructor
  · intro heven
    have hle := intLoads_sum_le hlast
    rw [heven.total, hlen] at hle
    exact hle
  · intro hroom
    rw [hsame hroom]
    exact growsEvenly_of_dealt (dispatchAll_dealt h evs)

end Looptpool

/-!
## Workers
-/

namespace Ringbuff

variable {T : Type u} {r r' : Ringbuff T} {size : Nat}

theorem MadeWith.valid (h : r.MadeWith size) (hsize : size <= 2 ^ 63) :
    r.Valid := by
  rcases adjSize_eq hsize with ⟨k, hk, hcap⟩
  have hcapacity : r.capacity = 2 ^ k := h.capacity_eq.trans hcap
  have hpos : 0 < r.capacity := hcapacity ▸ Nat.two_pow_pos k
  have hindices : r.head < r.capacity ∧ r.tail < r.capacity := by
    rcases h.indices with hlt | ⟨hhead, htail⟩
    · exact hlt
    · rw [hhead, htail]
      exact ⟨hpos, hpos⟩
  exact { capacity_eq := ⟨k, hk, hcapacity⟩
          block := h.block.trans h.capacity_eq.symm
          head_lt := hindices.left, tail_lt := hindices.right }

theorem MadeWith.size_le_of_push (h : r.MadeWith size) (hlt : size < SIZE_T)
    {item : T} {out : Ringbuff T × Bool × T} (hpush : r.push item = some out) :
    size <= 2 ^ 63 := by
  by_contra hsize
  have hzero : r.capacity = 0 :=
    h.capacity_eq.trans (adjSize_zero_of_lt hlt (not_le.mp hsize))
  have hindices : r.head = 0 ∧ r.tail = 0 := by
    rcases h.indices with hsome | hnone
    · omega
    · exact hnone
  have hsome := (push_isSome_iff hindices.left hindices.right h hlt item).mp
    (Option.isSome_of_eq_some hpush)
  exact hsize hsome

theorem MadeWith.push (h : r.MadeWith size) (hlt : size < SIZE_T)
    {item left : T} (hpush : r.push item = some (r', true, left)) :
    r'.MadeWith size ∧ r'.size = r.size + 1 := by
  have hvalid := h.valid (h.size_le_of_push hlt hpush)
  have hroom : r.held ≠ r.capacity - 1 := by
    intro hfull
    have hsame := pushWith_full id hvalid hfull item
    rw [show r.pushWith id item = r.push item from rfl, hpush] at hsame
    cases hsame
  rcases pushWith_room id hvalid hroom item with
    ⟨r'', hr'', hvalid', hcapacity, hcontents⟩
  rw [show r.pushWith id item = r.push item from rfl, hpush] at hr''
  cases hr''
  constructor
  · exact { capacity_eq := hcapacity.trans h.capacity_eq
            block := hvalid'.block.trans (hcapacity.trans h.capacity_eq)
            indices := Or.inl ⟨hvalid'.head_lt, hvalid'.tail_lt⟩ }
  · have hlen := congrArg List.length hcontents
    rw [List.length_append, contents_length, contents_length] at hlen
    rw [hvalid'.size_eq, hvalid.size_eq]
    exact hlen

end Ringbuff

namespace Lfthreadpool

variable {τ : Type v}

/-- A pool with at least one worker that has not been shut down. -/
structure Offering (p : Lfthreadpool τ) : Prop where
  running : p.shutdown = false
  tnum_eq : p.tnum = p.workers.length
  nonempty : 0 < p.workers.length
  buffsize_lt : p.buffsize < SIZE_T
  made : forall w, w ∈ p.workers -> w.buffer.MadeWith p.buffsize

/-- Call `add_task` for each task as long as the calls are successful. -/
def addAll (p : Lfthreadpool τ) : List (Task τ) -> Option (Lfthreadpool τ)
  | [] => some p
  | task :: rest =>
      match p.addTask task with
      | some (p, true) => p.addAll rest
      | _ => none

section Offering

variable {p p' : Lfthreadpool τ}

theorem Offering.loads_eq (h : Offering p) :
    p.loads = p.workers.map PoolWorker.getload := by
  unfold loads
  rw [h.tnum_eq, List.take_length]

theorem Offering.loads_length (h : Offering p) : p.loads.length = p.tnum := by
  rw [h.loads_eq, List.length_map, h.tnum_eq]

theorem getminidx_least (h : Offering p) :
    exists least, Least p.loads p.getminidx least := by
  have hspec : exists best,
      Looptpool.FirstLeast id p.loads p.getminidx best := by
    unfold getminidx
    cases hcases : p.loads with
    | nil =>
        have hlen := h.loads_length
        have hpos := h.nonempty
        rw [hcases, List.length_nil, h.tnum_eq] at hlen
        omega
    | cons first rest =>
        exact Looptpool.pickIdx_firstLeast id (fun _ _ => decide_eq_true_iff)
          rest (Looptpool.firstLeast_singleton id first)
  rcases hspec with ⟨best, hbest⟩
  refine ⟨best, hbest.at_idx, ?_⟩
  intro load hload
  rcases List.mem_iff_getElem?.mp hload with ⟨j, hj⟩
  exact hbest.le j load hj

theorem addTask_dynamic (h : Offering p) (hmode : p.mode = PoolMode.dynamic)
    {task : Task τ} (hadd : p.addTask task = some (p', true)) :
    exists w w', p.workers[p.getminidx]? = some w ∧
      w'.buffer.MadeWith p.buffsize ∧
      w'.buffer.size = w.buffer.size + 1 ∧
      p' = { p with workers := p.workers.set p.getminidx w' } := by
  have hnext : p.getnext = (p, p.getminidx) := by
    unfold getnext
    rw [hmode]
  unfold addTask at hadd
  rw [h.running, if_neg (by decide), hnext] at hadd
  cases hw : p.workers[p.getminidx]? with
  | none =>
      simp only [hw] at hadd
      cases hadd
  | some w =>
      simp only [hw, PoolWorker.enqueueTask, Option.map_map,
        Option.map_eq_some_iff] at hadd
      rcases hadd with ⟨⟨buffer, ok, left⟩, hpush, hp'⟩
      cases hp'
      have hmade := h.made w (List.mem_of_getElem? hw)
      rcases hmade.push h.buffsize_lt hpush with ⟨hmade', hsize⟩
      exact ⟨w, _, rfl, hmade', hsize, rfl⟩

theorem Offering.set (h : Offering p) {i : Nat} {w : PoolWorker τ}
    (hw : w.buffer.MadeWith p.buffsize) :
    Offering { p with workers := p.workers.set i w } where
  running := h.running
  tnum_eq := h.tnum_eq.trans List.length_set.symm
  nonempty := by
    show 0 < (p.workers.set i w).length
    rw [List.length_set]
    exact h.nonempty
  buffsize_lt := h.buffsize_lt
  made := by
    intro w' hw'
    rcases List.mem_or_eq_of_mem_set hw' with hmem | heq
    · exact h.made w' hmem
    · subst heq
      exact hw

theorem set_loads (h : Offering p) {i : Nat} {w w' : PoolWorker τ}
    {least : Int} (hleast : Least p.loads i least) (hlt : least < 2 ^ 31 - 1)
    (hw : p.workers[i]? = some w) (hw' : w'.buffer.MadeWith p.buffsize)
    (hsize : w'.buffer.size = w.buffer.size + 1) :
    ({ p with workers := p.workers.set i w' } : Lfthreadpool τ).loads =
      giveAt p.loads i := by
  have hat := hleast.at_idx
  rw [h.loads_eq, List.getElem?_map, hw] at hat
  have hload : w.getload = least := Option.some.inj hat
  have hload' : w'.getload = w.getload + 1 := by
    unfold PoolWorker.getload at hload ⊢
    rw [hsize]
    push_cast
    exact wrap32_succ (by rw [hload]; exact hlt)
  rw [(h.set hw').loads_eq, h.loads_eq]
  apply List.ext_getElem?
  intro j
  unfold giveAt
  rw [List.getElem?_map, List.getElem?_modify, List.getElem?_map]
  show Option.map PoolWorker.getload (p.workers.set i w')[j]? = _
  by_cases hj : i = j
  · subst hj
    have hi := (List.getElem?_eq_some_iff.mp hw).1
    rw [List.getElem?_set_self hi, hw]
    simp [hload']
  · rw [List.getElem?_set_ne hj]
    simp [hj]

theorem addAll_spec (h : Offering p) (hmode : p.mode = PoolMode.dynamic)
    {tasks : List (Task τ)} (hadd : p.addAll tasks = some p') :
    Offering p' ∧ p'.tnum = p.tnum ∧
      (p.loads.sum + tasks.length <= p.tnum * (2 ^ 31 - 1) ->
        Dealt p.loads tasks.length p'.loads) := by
  induction tasks generalizing p with
  | nil =>
      cases hadd
      exact ⟨h, rfl, fun _ => Dealt.nothing _⟩
  | cons task rest ih =>
      simp only [addAll] at hadd
      split at hadd
      · rename_i q hone
        rcases addTask_dynamic h hmode hone with ⟨w, w', hw, hmade, hsize, hq⟩
        subst hq
        have hq : Offering
            { p with workers := p.workers.set p.getminidx w' } := h.set hmade
        rcases ih hq hmode hadd with ⟨hp', htnum, hdealt⟩
        refine ⟨hp', htnum, ?_⟩
        intro hroom
        rcases getminidx_least h with ⟨least, hleast⟩
        rw [List.length_cons, Nat.cast_succ] at hroom
        have hlt : least < 2 ^ 31 - 1 := by
          apply hleast.lt_of_sum_lt
          rw [h.loads_length]
          omega
        rw [set_loads h hleast hlt hw hmade hsize,
          giveAt_sum hleast.length_lt] at hdealt
        exact Dealt.unit hleast (hdealt (by
          show p.loads.sum + 1 + (rest.length : Int) <= p.tnum * (2 ^ 31 - 1)
          omega))
      · cases hadd

theorem loads_sum_le (h : Offering p) :
    p.loads.sum <= p.tnum * (2 ^ 31 - 1) := by
  have hle : p.loads.sum <= p.loads.length • (2 ^ 31 - 1 : Int) := by
    apply List.sum_le_card_nsmul
    intro load hload
    rw [h.loads_eq, List.mem_map] at hload
    rcases hload with ⟨w, _, hw⟩
    subst hw
    exact Int.le_sub_one_of_lt (wrap32_lt _)
  rwa [nsmul_eq_mul, h.loads_length] at hle

end Offering

end Lfthreadpool

/--
Dispatch in either pool counts every event or task and keeps the loads even
exactly if there is room for all of them below `2 ^ 31` in the loads.
-/
theorem dispatch_grows_evenly_iff {E : Type u} {τ : Type v} (fd : E -> Int)
    (mask : E -> Mask) (refused : E -> Bool) (p : Looptpool E) (evs : List E)
    (q q' : Lfthreadpool τ) (tasks : List (Task τ)) (hp : p.Live)
    (hint : p.IntLoads) (hq : q.Offering) (hmode : q.mode = PoolMode.dynamic)
    (hadd : q.addAll tasks = some q') :
    (GrowsEvenly p.loads evs.length
        (evs.foldl (Looptpool.dispatchInt fd mask refused) p).loads <->
      p.loads.sum + evs.length <= p.tNum * (2 ^ 31 - 1)) ∧
      (GrowsEvenly q.loads tasks.length q'.loads <->
        q.loads.sum + tasks.length <= q.tnum * (2 ^ 31 - 1)) := by
  rcases Lfthreadpool.addAll_spec hq hmode hadd with ⟨hq', htnum, hdealt⟩
  refine ⟨Looptpool.dispatchAllInt_growsEvenly_iff hp hint evs, ?_⟩
  constructor
  · intro heven
    have hle := Lfthreadpool.loads_sum_le hq'
    rw [heven.total, htnum] at hle
    exact hle
  · intro hroom
    exact growsEvenly_of_dealt (hdealt hroom)

def livePool (loads : List Int) : Looptpool Nat :=
  { (poolOfLoads loads).pool with dispath := true }

theorem livePool_loads (loads : List Int) : (livePool loads).loads = loads := by
  show (loads.map _).map _ = loads
  rw [List.map_map]
  exact List.map_id _

theorem poolOfHeads_offering {size : Nat} {heads : List Nat}
    (hne : 0 < heads.length) (hsize : size < SIZE_T)
    (hlt : forall head, head ∈ heads -> head < Ringbuff.adjSize size) :
    (poolOfHeads size heads).Offering where
  running := rfl
  tnum_eq := by
    show heads.length = (heads.map _).length
    rw [List.length_map]
  nonempty := by
    show 0 < (heads.map _).length
    rw [List.length_map]
    exact hne
  buffsize_lt := hsize
  made := by
    intro w hw
    rcases List.mem_map.mp hw with ⟨head, hhead, hw⟩
    subst hw
    have hcap := hlt head hhead
    exact ⟨rfl, rfl, Or.inl ⟨hcap, Nat.lt_of_le_of_lt (Nat.zero_le _) hcap⟩⟩

theorem dispatch_grows_evenly_iff_twoMembers :
    exists q' : Lfthreadpool Nat,
      (poolOfHeads 4 [1, 0]).addAll [Task.client 5, Task.client 6] = some q' ∧
        q'.loads = [2, 1] ∧
        (GrowsEvenly (livePool [3, 0]).loads 2
            ([7, 8].foldl (Looptpool.dispatchInt (fun _ => 0)
              (fun _ => EPOLLIN) fun _ => false) (livePool [3, 0])).loads <->
          (livePool [3, 0]).loads.sum + 2 <=
            (livePool [3, 0]).tNum * (2 ^ 31 - 1)) ∧
        (GrowsEvenly (poolOfHeads 4 [1, 0]).loads 2 q'.loads <->
          (poolOfHeads 4 [1, 0]).loads.sum + 2 <=
            (poolOfHeads 4 [1, 0]).tnum * (2 ^ 31 - 1)) := by
  have hrun : ((poolOfHeads 4 [1, 0]).addAll
      [Task.client 5, Task.client 6]).map Lfthreadpool.loads =
        some [2, 1] := by
    decide +kernel
  rcases Option.map_eq_some_iff.mp hrun with ⟨q', hadd, hloads⟩
  have hq := poolOfHeads_offering (show 0 < [1, 0].length by decide)
    (show 4 < SIZE_T by decide) (show forall head, head ∈ [1, 0] ->
      head < Ringbuff.adjSize 4 by decide)
  have hp : (livePool [3, 0]).Live := ⟨rfl, rfl, by decide⟩
  have hint : (livePool [3, 0]).IntLoads := by
    unfold Looptpool.IntLoads
    rw [livePool_loads]
    decide
  exact ⟨q', hadd, hloads, dispatch_grows_evenly_iff (fun _ => 0)
    (fun _ => EPOLLIN) (fun _ => false) (livePool [3, 0]) [7, 8] _ q' _ hp hint
    hq rfl hadd⟩

/--
With `2 ^ 31` tasks the load of a worker is the least `int`, and so is that of a
loop at the greatest `int` with another event.
-/
theorem full_int_load_not_even :
    (exists q' : Lfthreadpool Nat,
      (poolOfHeads (2 ^ 32) [2147483647]).Offering ∧
        (poolOfHeads (2 ^ 32) [2147483647]).loads = [2147483647] ∧
        (poolOfHeads (2 ^ 32) [2147483647]).addAll [Task.client 5] = some q' ∧
        q'.loads = [-2147483648] ∧
        ¬ GrowsEvenly (poolOfHeads (2 ^ 32) [2147483647]).loads 1
          q'.loads) ∧
      (livePool [2147483647]).Live ∧ (livePool [2147483647]).IntLoads ∧
      ¬ GrowsEvenly (livePool [2147483647]).loads 1
        ([7].foldl (Looptpool.dispatchInt (fun _ => 0) (fun _ => EPOLLIN)
          fun _ => false) (livePool [2147483647])).loads := by
  have hrun : ((poolOfHeads (2 ^ 32) [2147483647]).addAll
      [Task.client 5]).map Lfthreadpool.loads = some [-2147483648] := by
    decide +kernel
  have hloads : (poolOfHeads (2 ^ 32) [2147483647]).loads = [2147483647] := by
    decide +kernel
  rcases Option.map_eq_some_iff.mp hrun with ⟨q', hadd, hloads'⟩
  refine ⟨⟨q', poolOfHeads_offering (by decide) (by decide)
    (by decide +kernel), hloads, hadd, hloads', ?_⟩, ⟨rfl, rfl, by decide⟩,
    ?_, ?_⟩
  · intro h
    have htotal := h.total
    rw [hloads, hloads'] at htotal
    exact absurd htotal (by decide)
  · unfold Looptpool.IntLoads
    rw [livePool_loads]
    decide
  · intro h
    have hlast : ([7].foldl (Looptpool.dispatchInt (fun _ => 0)
        (fun _ => EPOLLIN) fun _ => false) (livePool [2147483647])).loads =
          [-2147483648] := by
      decide +kernel
    have htotal := h.total
    rw [livePool_loads, hlast] at htotal
    exact absurd htotal (by decide)

end MoonNet
