import Mathlib.Data.List.Perm.Subperm
import MoonNet.Ringbuff.Exclusive

/-!
# Several producers and several consumers

The accesses of one push to its cell and then to `head_` form a section, too.
As long as only one thread at a time is in such a section and finds the head it
has loaded, every item is delivered exactly once.
-/

namespace MoonNet

open Foundation
open Foundation.Circular

universe u v

namespace Ringbuff

namespace Shared

variable {ι : Type v} {T : Type u} {s s' : Shared ι T} {i : ι} {q : Spsc T}

/-!
# Invariant
-/

structure Inv (s : Shared ι T) : Prop where
  alone : exists p, s.Consuming p ∧ Sole Storing s.producer p
  nhead_eq : forall i item head nhead,
    s.producer i = Producer.write item head nhead ->
      nhead = next s.ring.capacity head

theorem start_inv (cell : Nat -> T) {size : Nat} (hsize : size <= 2 ^ 63) :
    Inv (start cell size : Shared ι T) where
  alone := ⟨Producer.idle, start_consuming cell hsize,
    Sole.of_forall_not_busy (fun _ => id) id⟩
  nhead_eq := by
    intro i item head nhead hwrite
    cases hwrite

namespace Inv

theorem write_producer (h : Inv s) {p : Producer T} (hconsuming : s.Consuming p)
    {item : T} {head nhead : Nat}
    (hi : s.producer i = Producer.write item head nhead)
    (halone : s.WritesAlone i) : s.Consuming (s.producer i) := by
  have hnhead := h.nhead_eq i item head nhead hi
  unfold WritesAlone at halone
  rw [hi] at halone ⊢
  rcases halone with ⟨hhead, hroom, _⟩
  have hvalid : s.ring.Valid := hconsuming.valid
  have hne : next s.ring.capacity s.ring.head ≠ s.ring.tail := by
    rw [<- hhead, <- hnhead]
    exact hroom
  have hheld : s.ring.held ≠ s.ring.capacity - 1 :=
    fun heq => hne (hvalid.next_head_eq_tail_iff.mpr heq)
  have hlt := hvalid.held_lt
  have hlocal : Spsc.ProducerInv s.ring (Producer.write item head nhead) := by
    refine ⟨hhead, ?_, by omega⟩
    rw [hnhead, hhead, hvalid.next_eq hvalid.head_lt]
  exact hconsuming.producer hlocal

variable [DecidableEq ι]

theorem update_producer (h : Inv s) {p : Producer T}
    (hi : ¬ Storing (s.producer i)) (hp : ¬ Storing p)
    (hwrite : forall item head nhead, p = Producer.write item head nhead ->
      nhead = next s.ring.capacity head) :
    Inv { s with producer := Function.update s.producer i p } := by
  rcases h.alone with ⟨p', hconsuming, hproducer⟩
  refine ⟨⟨p', hconsuming, hproducer.update_of_not_busy hi hp⟩, ?_⟩
  intro j item head nhead hj
  by_cases hij : j = i
  · rw [hij] at hj
    simp only [Function.update_self] at hj
    exact hwrite item head nhead hj
  · simp only [Function.update_of_ne hij] at hj
    exact h.nhead_eq j item head nhead hj

theorem section_producer (h : Inv s) (hown : s.Consuming (s.producer i))
    (hothers : forall j, j ≠ i -> ¬ Storing (s.producer j))
    (hstep : (s.focus i).produce = some q)
    (hcapacity : q.ring.capacity = s.ring.capacity)
    (hwrite : forall item head nhead,
      q.producer ≠ Producer.write item head nhead) :
    Inv (s.unfocus i q) := by
  refine ⟨⟨q.producer, hown.produce hstep,
    Sole.update_of_others_not_busy hothers⟩, ?_⟩
  intro j item head nhead hj
  show nhead = next q.ring.capacity head
  rw [hcapacity]
  by_cases hij : j = i
  · subst hij
    simp only [unfocus, Function.update_self] at hj
    exact absurd hj (hwrite item head nhead)
  · simp only [unfocus, Function.update_of_ne hij] at hj
    exact h.nhead_eq j item head nhead hj

theorem produce_inv (h : Inv s) (halone : s.WritesAlone i)
    (hstep : (s.focus i).produce = some q) : Inv (s.unfocus i q) := by
  rcases h.alone with ⟨p, hconsuming, hproducer⟩
  rcases Spsc.produce_cases hstep with hquiet | hwrite | hstore
  · rcases hquiet with ⟨hout, p', hq, hp', hnhead⟩
    rw [hq, unfocus_producer]
    exact h.update_producer hout hp' hnhead
  · rcases hwrite with ⟨item, head, nhead, buffer, hi, _, hq⟩
    have hown : s.Consuming (s.producer i) :=
      h.write_producer hconsuming hi halone
    have hothers : forall j, j ≠ i -> ¬ Storing (s.producer j) := by
      have hmatch := halone
      unfold WritesAlone at hmatch
      rw [show s.producer i = Producer.write item head nhead from hi] at hmatch
      exact hmatch.right.right
    apply h.section_producer hown hothers hstep
    · rw [hq]
      rfl
    · rw [hq]
      intro item head nhead heq
      cases heq
  · rcases hstore with ⟨item, nhead, hi, hq⟩
    have hbusy : Storing (s.producer i) := by
      rw [show s.producer i = Producer.storeHead item nhead from hi]
      trivial
    have hown : s.Consuming (s.producer i) := by
      rw [hproducer.eq_of_busy i hbusy]
      exact hconsuming
    apply h.section_producer hown (hproducer.not_busy_of_ne hbusy) hstep
    · rw [hq]
      rfl
    · rw [hq]
      intro item head nhead heq
      cases heq

theorem consume_inv (h : Inv s) {moved : T -> T} (halone : s.ReadsAlone i)
    (hstep : (s.focus i).consume moved = some q) : Inv (s.unfocus i q) := by
  rcases h.alone with ⟨p, hconsuming, hproducer⟩
  have hid : (s.unfocus i q).producer = s.producer := by
    unfold unfocus
    rw [(Spsc.consume_frame hstep).left]
    exact Function.update_eq_self i s.producer
  constructor
  · rw [hid]
    exact ⟨p, hconsuming.consume halone hstep, hproducer⟩
  · rw [hid]
    show forall j item head nhead,
      s.producer j = Producer.write item head nhead ->
        nhead = next q.ring.capacity head
    rw [(Spsc.consume_keeps hstep).left]
    exact h.nhead_eq

theorem step_inv (h : Inv s) {moved : T -> T} {a : ι × Spsc.Action T}
    (halone : s.Exclusive a) (hstep : step moved s a = some s') : Inv s' := by
  rcases a with ⟨i, a⟩
  rcases step_cases hstep with hpush | hcall | hproduce | hconsume
  · rcases hpush with ⟨item, _, hout, hs'⟩
    rw [hs']
    apply h.update_producer hout id
    intro item head nhead heq
    cases heq
  · rcases hcall with ⟨entry, hout, hentry, hs'⟩
    rcases h.alone with ⟨p, hconsuming, hproducer⟩
    rw [hs']
    exact ⟨⟨p, hconsuming.update_consumer hout hentry.not_releasing, hproducer⟩,
      h.nhead_eq⟩
  · rcases hproduce with ⟨ha, q, hq, hs'⟩
    subst ha
    rw [hs']
    exact h.produce_inv halone hq
  · rcases hconsume with ⟨ha, q, hq, hs'⟩
    subst ha
    rw [hs']
    have hnext : Inv (s.unfocus i q) := h.consume_inv halone hq
    exact ⟨hnext.alone, hnext.nhead_eq⟩

end Inv

theorem run_accounted [DecidableEq ι] (moved : T -> T) (cell : Nat -> T)
    (size : UInt64) {acts : List (ι × Spsc.Action T)}
    (halone : StepFn.Meets (step moved) Exclusive (start cell size.toNat) acts)
    (hrun : StepFn.run (step moved) (start cell size.toNat) acts = some s) :
    Accounted s := by
  have hlt : size.toNat < SIZE_T := size.toNat_lt
  by_cases hsize : size.toNat <= 2 ^ 63
  · have hpres : forall (s : Shared ι T) a s', Inv s -> s.Exclusive a ->
        step moved s a = some s' -> Inv s' := by
      intro s a s' h hexclusive hstep
      exact h.step_inv hexclusive hstep
    have hinv : Inv s :=
      StepFn.run_invariant_of_meets hpres (start_inv cell hsize) halone hrun
    rcases hinv.alone with ⟨p, hconsuming, _⟩
    exact hconsuming.accounted
  · have hpres : forall (s : Shared ι T) a s', Barren s ->
        step moved s a = some s' -> Barren s' := by
      intro s a s' h hstep
      exact h.step_barren hstep
    have hbarren : Barren s := StepFn.run_invariant hpres
      (start_barren cell hlt (Nat.lt_of_not_le hsize)) hrun
    exact hbarren.accounted

/-!
# Pushes and pops only
-/

/-- No draining operation is called. -/
def PushOrPop (a : Spsc.Action T) : Prop :=
  a ≠ Spsc.Action.swapToList ∧ a ≠ Spsc.Action.swapToVector

structure Returned (s : Shared ι T) : Prop where
  alone : exists c, Sole Releasing s.consumer c ∧
    s.obtained.map Prod.snd = s.popped ++ returning c
  noDrain : forall i, ¬ Spsc.Draining (s.consumer i)

theorem start_returned (cell : Nat -> T) (size : Nat) :
    Returned (start cell size : Shared ι T) where
  alone := ⟨Consumer.idle, Sole.of_forall_not_busy (fun _ => id) id, rfl⟩
  noDrain := fun _ => id

namespace Returned

theorem returning_eq_nil {c : Consumer T} (hc : ¬ Releasing c) :
    returning c = [] := by
  cases c with
  | popStoreTail item tail => exact absurd trivial hc
  | _ => rfl

variable [DecidableEq ι]

theorem update_consumer (h : Returned s) {c : Consumer T}
    (hi : ¬ Releasing (s.consumer i)) (hc : ¬ Releasing c)
    (hdrain : ¬ Spsc.Draining c) :
    Returned { s with consumer := Function.update s.consumer i c } := by
  rcases h.alone with ⟨c', hconsumer, hobtained⟩
  constructor
  · exact ⟨c', hconsumer.update_of_not_busy hi hc, hobtained⟩
  · exact Function.forall_update_iff s.consumer
      (fun _ c => ¬ Spsc.Draining c) |>.mpr ⟨hdrain, fun j _ => h.noDrain j⟩

theorem popRead_step (h : Returned s) {x : T} {tail : Nat}
    {buffer : Cells T}
    (hi : ¬ Releasing (s.consumer i))
    (hothers : forall j, j ≠ i -> ¬ Releasing (s.consumer j)) :
    Returned { s with
      ring := { s.ring with buffer := buffer }
      consumer :=
        Function.update s.consumer i (Consumer.popStoreTail x tail)
      obtained := s.obtained ++ [(i, x)]
      copied := s.copied + 1 } := by
  rcases h.alone with ⟨c, hconsumer, hobtained⟩
  have hnone : returning c = [] :=
    returning_eq_nil (not_releasing hconsumer hi hothers)
  rw [hnone, List.append_nil] at hobtained
  constructor
  · refine ⟨Consumer.popStoreTail x tail,
      Sole.update_of_others_not_busy hothers, ?_⟩
    show (s.obtained ++ [(i, x)]).map Prod.snd = s.popped ++ [x]
    rw [List.map_append, hobtained]
    rfl
  · exact Function.forall_update_iff s.consumer
      (fun _ c => ¬ Spsc.Draining c) |>.mpr ⟨id, fun j _ => h.noDrain j⟩

theorem popStoreTail_step (h : Returned s) {item : T} {tail : Nat}
    {r : Ringbuff T}
    (hi : s.consumer i = Consumer.popStoreTail item tail) :
    Returned { s with
      ring := r
      consumer :=
        Function.update s.consumer i (Consumer.popped (some item))
      popped := s.popped ++ [item]
      copied := 0 } := by
  rcases h.alone with ⟨c, hconsumer, hobtained⟩
  have hbusy : Releasing (s.consumer i) := by
    rw [hi]
    trivial
  have hc : c = Consumer.popStoreTail item tail := by
    rw [<- hconsumer.eq_of_busy i hbusy, hi]
  rw [hc] at hobtained
  constructor
  · refine ⟨Consumer.popped (some item),
      Sole.update_of_others_not_busy (hconsumer.not_busy_of_ne hbusy), ?_⟩
    show s.obtained.map Prod.snd = s.popped ++ [item] ++ []
    rw [List.append_nil]
    exact hobtained
  · exact Function.forall_update_iff s.consumer
      (fun _ c => ¬ Spsc.Draining c) |>.mpr ⟨id, fun j _ => h.noDrain j⟩

theorem consume_step (h : Returned s) {moved : T -> T}
    (halone : s.ReadsAlone i) (hstep : (s.focus i).consume moved = some q) :
    Returned { s.unfocus i q with
      popped := s.popped ++ returning (s.consumer i) } := by
  have hdrain := h.noDrain i
  rcases Spsc.consume_cases hstep with
    hquiet | hread | hstore | hbegin | hcopy
  · rcases hquiet with ⟨hout, c, hq, hc, hkeep, _⟩
    have hnone : returning (s.consumer i) = [] := returning_eq_nil hout
    rw [hq, unfocus_consumer, hnone, List.append_nil]
    exact h.update_consumer hout hc fun hno => hdrain (hkeep hno)
  · rcases hread with ⟨move, tail, x, buffer, hi, _, hq⟩
    have hlocal : s.consumer i = Consumer.popRead move tail := hi
    have hout : ¬ Releasing (s.consumer i) := by
      rw [hlocal]
      exact id
    have hothers : forall j, j ≠ i -> ¬ Releasing (s.consumer j) := by
      unfold ReadsAlone at halone
      rw [hlocal] at halone
      exact halone.right.right
    have hnext : s.unfocus i q = { s with
        ring := { s.ring with buffer := buffer }
        consumer :=
          Function.update s.consumer i (Consumer.popStoreTail x tail)
        obtained := s.obtained ++ [(i, x)]
        copied := s.copied + 1 } := by
      rw [hq]
      simp [unfocus, focus, view]
    rw [hnext, returning_eq_nil hout, List.append_nil]
    exact h.popRead_step hout hothers
  · rcases hstore with ⟨item, tail, hi, hq⟩
    have hlocal : s.consumer i = Consumer.popStoreTail item tail := hi
    have hnext : s.unfocus i q = { s with
        ring := { s.ring with tail := next s.ring.capacity tail }
        consumer :=
          Function.update s.consumer i (Consumer.popped (some item))
        copied := 0 } := by
      rw [hq]
      simp [unfocus, focus, view, Spsc.release]
    rw [hnext, hlocal]
    exact h.popStoreTail_step hlocal
  · rcases hbegin with ⟨head, hi, _⟩
    rw [show s.consumer i = Consumer.drainLoadTail head from hi] at hdrain
    exact absurd trivial hdrain
  · rcases hcopy with ⟨first, limit, wraps, head, hi, _⟩
    rw [show s.consumer i = Consumer.copyLoop first limit wraps head from hi]
      at hdrain
    exact absurd trivial hdrain

theorem step_returned (h : Returned s) {moved : T -> T}
    {a : ι × Spsc.Action T} (hcall : PushOrPop a.snd)
    (halone : s.Exclusive a) (hstep : step moved s a = some s') :
    Returned s' := by
  rcases a with ⟨i, a⟩
  rcases step_cases hstep with hpush | hpop | hproduce | hconsume
  · rcases hpush with ⟨item, _, _, hs'⟩
    rw [hs']
    exact ⟨h.alone, h.noDrain⟩
  · rcases hpop with ⟨entry, hout, hentry, hs'⟩
    rw [hs']
    apply h.update_consumer hout hentry.not_releasing
    cases a with
    | pop => rw [show entry = _ from hentry]; exact id
    | popMove => rw [show entry = _ from hentry]; exact id
    | swapToList => exact absurd rfl hcall.left
    | swapToVector => exact absurd rfl hcall.right
    | _ => exact hentry.elim
  · rcases hproduce with ⟨_, q, hq, hs'⟩
    rcases Spsc.produce_frame hq with ⟨hsame, hobtained⟩
    have hnext : s' = { s with
        ring := q.ring
        producer := Function.update s.producer i q.producer
        accepted := q.published
        copied := q.copied } := by
      rw [hs']
      simp [unfocus, hsame, hobtained, focus, view]
    rw [hnext]
    exact ⟨h.alone, h.noDrain⟩
  · rcases hconsume with ⟨ha, q, hq, hs'⟩
    subst ha
    rw [hs']
    exact h.consume_step halone hq

end Returned

theorem run_returned [DecidableEq ι] (moved : T -> T) (cell : Nat -> T)
    (size : Nat) {acts : List (ι × Spsc.Action T)}
    (hcalls : forall a, a ∈ acts -> PushOrPop a.snd)
    (halone : StepFn.Meets (step moved) Exclusive (start cell size) acts)
    (hrun : StepFn.run (step moved) (start cell size) acts = some s) :
    Returned s := by
  have hmeets : StepFn.Meets (step moved)
      (fun (s : Shared ι T) a => PushOrPop a.snd ∧ s.Exclusive a)
      (start cell size) acts :=
    (StepFn.meets_of_forall_mem (fun a ha _ => hcalls a ha) _).and halone
  have hpres : forall (s : Shared ι T) a s', Returned s ->
      PushOrPop a.snd ∧ s.Exclusive a -> step moved s a = some s' ->
        Returned s' := by
    intro s a s' h hside hstep
    exact h.step_returned hside.left hside.right hstep
  exact StepFn.run_invariant_of_meets hpres (start_returned cell size) hmeets
    hrun

/-!
# Exactly once
-/

/--
No pop returns an item that was not pushed, or one that another pop returns; and
once the buffer is empty and no pop is under way, every item whose push returned
true has been returned.
-/
def ExactlyOnce (s : Shared ι T) : Prop :=
  List.Subperm s.popped s.accepted ∧
    (s.ring.head = s.ring.tail -> s.Settled ->
      List.Perm s.popped s.accepted)

theorem Returned.exactlyOnce (h : Returned s) (haccounted : Accounted s) :
    ExactlyOnce s := by
  rcases h.alone with ⟨c, hconsumer, hobtained⟩
  have hflow : s.accepted = s.popped ++ (returning c ++ s.unread) := by
    rw [haccounted.flow, hobtained, List.append_assoc]
  constructor
  · rw [hflow]
    exact (List.prefix_append _ _).sublist.subperm
  · intro hempty hsettled
    have hc : ¬ Releasing c := by
      intro hbusy
      rcases hconsumer.exists_of_busy hbusy with ⟨i, hi⟩
      exact hsettled i hi
    have hunread : s.unread = [] := by
      unfold unread
      rw [haccounted.held_eq hempty, Nat.zero_sub, window_zero]
    rw [hflow, hunread, returning_eq_nil hc, List.append_nil, List.append_nil]

/--
In every run of any number of threads that push and pop, in which each push
writes its cell alone and each pop reads its cell alone, every item is delivered
exactly once.
-/
theorem exactlyOnce_of_exclusive [DecidableEq ι] (moved : T -> T)
    (cell : Nat -> T) (size : UInt64) (acts : List (ι × Spsc.Action T))
    (s : Shared ι T) (hcalls : forall a, a ∈ acts -> PushOrPop a.snd)
    (halone : StepFn.Meets (step moved) Exclusive (start cell size.toNat) acts)
    (hrun : StepFn.run (step moved) (start cell size.toNat) acts = some s) :
    ExactlyOnce s :=
  (run_returned moved cell size.toNat hcalls halone hrun).exactlyOnce
    (run_accounted moved cell size halone hrun)

def waitingProducer : List (Bool × Spsc.Action Nat) :=
  [(false, Spsc.Action.push 1), (true, Spsc.Action.pushMove 2),
    (false, Spsc.Action.produce), (false, Spsc.Action.produce),
    (false, Spsc.Action.produce), (false, Spsc.Action.produce),
    (true, Spsc.Action.produce), (true, Spsc.Action.produce),
    (true, Spsc.Action.produce), (true, Spsc.Action.produce),
    (true, Spsc.Action.pop), (true, Spsc.Action.consume),
    (true, Spsc.Action.consume), (true, Spsc.Action.consume),
    (true, Spsc.Action.consume)]

theorem exactlyOnce_of_exclusive_waitingProducer :
    exists s : Shared Bool Nat,
      StepFn.run (step id) (start (fun _ => 0) (4 : UInt64).toNat)
          waitingProducer = some s ∧
        s.accepted = [1, 2] ∧ s.popped = [1] ∧ ExactlyOnce s := by
  have hreached : exists s : Shared Bool Nat,
      StepFn.run (step id) (start (fun _ => 0) (4 : UInt64).toNat)
          waitingProducer = some s ∧ s.accepted = [1, 2] ∧ s.popped = [1] :=
    ⟨_, rfl, rfl, rfl⟩
  have hfalse : forall (pc : Bool -> Producer Nat), ¬ Storing (pc true) ->
      forall j, j ≠ false -> ¬ Storing (pc j) := by
    intro pc h j hj
    cases j
    · exact absurd rfl hj
    · exact h
  have htrue : forall (α : Type) (busy : α -> Prop) (pc : Bool -> α),
      ¬ busy (pc false) -> forall j, j ≠ true -> ¬ busy (pc j) := by
    intro α busy pc h j hj
    cases j
    · exact h
    · exact absurd rfl hj
  have halone : StepFn.Meets (step id) Exclusive
      (start (fun _ => 0) (4 : UInt64).toNat) waitingProducer :=
    ⟨trivial, trivial, trivial, trivial,
      ⟨rfl, by decide, hfalse _ id⟩, trivial, trivial, trivial,
      ⟨rfl, by decide, htrue _ _ _ id⟩, trivial, trivial, trivial, trivial,
      ⟨rfl, by decide, htrue _ _ _ id⟩, trivial, trivial⟩
  have hcalls : forall a, a ∈ waitingProducer -> PushOrPop a.snd := by
    unfold PushOrPop
    decide
  rcases hreached with ⟨s, hrun, haccepted, hpopped⟩
  exact ⟨s, hrun, haccepted, hpopped,
    exactlyOnce_of_exclusive id (fun _ => 0) 4 waitingProducer s hcalls halone
      hrun⟩

/--
Two threads push at the same time: both load the same head, both write the same
cell and both pushes return true; one pop finds one of the items and the other
item is gone.
-/
def racingProducers : List (Bool × Spsc.Action Nat) :=
  [(false, Spsc.Action.push 1), (true, Spsc.Action.push 2),
    (false, Spsc.Action.produce), (true, Spsc.Action.produce),
    (false, Spsc.Action.produce), (true, Spsc.Action.produce),
    (false, Spsc.Action.produce), (true, Spsc.Action.produce),
    (false, Spsc.Action.produce), (true, Spsc.Action.produce),
    (false, Spsc.Action.pop), (false, Spsc.Action.consume),
    (false, Spsc.Action.consume), (false, Spsc.Action.consume),
    (false, Spsc.Action.consume)]

theorem exactlyOnce_fails_racingProducers :
    exists s : Shared Bool Nat,
      StepFn.run (step id) (start (fun _ => 0) (4 : UInt64).toNat)
          racingProducers = some s ∧
        (forall a, a ∈ racingProducers -> PushOrPop a.snd) ∧
        s.accepted = [1, 2] ∧ s.popped = [2] ∧ s.ring.head = s.ring.tail ∧
        s.Settled ∧ ¬ ExactlyOnce s := by
  have hreached : exists s : Shared Bool Nat,
      StepFn.run (step id) (start (fun _ => 0) (4 : UInt64).toNat)
          racingProducers = some s ∧ s.accepted = [1, 2] ∧ s.popped = [2] ∧
        s.ring.head = s.ring.tail ∧
        s.consumer true = Consumer.idle ∧
        s.consumer false = Consumer.popped (some 2) :=
    ⟨_, rfl, rfl, rfl, rfl, rfl, rfl⟩
  rcases hreached with
    ⟨s, hrun, haccepted, hpopped, hempty, htrue, hfalse⟩
  have hcalls : forall a, a ∈ racingProducers -> PushOrPop a.snd := by
    unfold PushOrPop
    decide
  have hsettled : s.Settled := by
    intro i
    cases i
    · rw [hfalse]
      exact id
    · rw [htrue]
      exact id
  refine ⟨s, hrun, hcalls, haccepted, hpopped, hempty, hsettled, ?_⟩
  intro h
  have hlength := (h.right hempty hsettled).length_eq
  rw [haccepted, hpopped] at hlength
  cases hlength

end Shared

end Ringbuff

end MoonNet
