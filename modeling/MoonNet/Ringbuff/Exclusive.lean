import MoonNet.Ringbuff.Shared
import MoonNet.Ringbuff.Spsc

/-!
# Consumers that read alone

The accesses of one operation of a consumer to the cells and then to `tail_` form
a section.  As long as only one thread at a time is in such a section and finds
the tail it has loaded, the consumers behave like the one consumer of
`Ringbuff.Spsc`, whose invariant then holds of the thread in the section.
-/

namespace MoonNet

open Foundation
open Foundation.Circular

universe u v

namespace Ringbuff

/-!
# One side does not depend on the other
-/

namespace Spsc

variable {T : Type u} {s q : Spsc T}

theorem produce_withConsumer (h : s.produce = some q) (c : Consumer T) :
    { s with consumer := c }.produce = some { q with consumer := c } := by
  rw [produce_iff] at h ⊢
  cases h with
  | loadsHead item hp =>
      exact ProduceStep.loadsHead item hp
  | fails item head hp hfull =>
      exact ProduceStep.fails item head hp hfull
  | finds item head hp hroom =>
      exact ProduceStep.finds item head hp hroom
  | writes item head nhead buffer hp hwrite =>
      exact ProduceStep.writes item head nhead buffer hp hwrite
  | stores item nhead hp =>
      exact ProduceStep.stores item nhead hp

theorem obtain_withProducer {left : T -> T} {i : Nat}
    {after : T -> Consumer T} (h : s.obtain left i after = some q)
    (p : Producer T) :
    { s with producer := p }.obtain left i after =
      some { q with producer := p } := by
  rw [obtain_eq_some] at h ⊢
  rcases h with ⟨buffer, x, htake, hq⟩
  subst hq
  exact ⟨buffer, x, htake, rfl⟩

theorem consume_withProducer {moved : T -> T} (h : s.consume moved = some q)
    (p : Producer T) :
    { s with producer := p }.consume moved = some { q with producer := p } := by
  rw [consume_iff] at h ⊢
  cases h with
  | loadsTail move hc =>
      exact ConsumeStep.loadsTail move hc
  | fails move tail hc hempty =>
      exact ConsumeStep.fails move tail hc hempty
  | finds move tail hc hitem =>
      exact ConsumeStep.finds move tail hc hitem
  | reads move tail q hc hobtain =>
      exact ConsumeStep.reads move tail _ hc (obtain_withProducer hobtain p)
  | stores item tail hc =>
      exact ConsumeStep.stores item tail hc
  | drainsHead hc =>
      exact ConsumeStep.drainsHead hc
  | drainsNothing head hc hempty =>
      exact ConsumeStep.drainsNothing head hc hempty
  | drainsRange head hc hitems hlt =>
      exact ConsumeStep.drainsRange head hc hitems hlt
  | drainsAround head hc hitems hge =>
      exact ConsumeStep.drainsAround head hc hitems hge
  | copies i limit wraps head q hc hlt hobtain =>
      exact ConsumeStep.copies i limit wraps head _ hc hlt
        (obtain_withProducer hobtain p)
  | wraps i limit head hc hend =>
      exact ConsumeStep.wraps i limit head hc hend
  | ends i limit head hc hend =>
      exact ConsumeStep.ends i limit head hc hend

/-!
# What a step can do

A step is quiet if it only moves the program counter of its thread, outside the
sections; the other steps are the accesses of the sections.
-/

theorem produce_cases (h : s.produce = some q) :
    (¬ Shared.Storing s.producer ∧ exists p, q = { s with producer := p } ∧
      ¬ Shared.Storing p ∧
        forall item head nhead, p = Producer.write item head nhead ->
          nhead = next s.ring.capacity head) ∨
    (exists item head nhead buffer,
      s.producer = Producer.write item head nhead ∧
        s.ring.buffer.write head item = some buffer ∧
        q = { s with
          ring := { s.ring with buffer := buffer }
          producer := Producer.storeHead item nhead }) ∨
    (exists item nhead, s.producer = Producer.storeHead item nhead ∧
      q = { s with
        ring := { s.ring with head := nhead }
        producer := Producer.returned true
        published := s.published ++ [item] }) := by
  cases produce_iff.mp h with
  | loadsHead item hp =>
      refine Or.inl ⟨by rw [hp]; exact id, _, rfl, id, ?_⟩
      intro item head nhead hwrite
      cases hwrite
  | fails item head hp hfull =>
      refine Or.inl ⟨by rw [hp]; exact id, _, rfl, id, ?_⟩
      intro item head nhead hwrite
      cases hwrite
  | finds item head hp hroom =>
      refine Or.inl ⟨by rw [hp]; exact id, _, rfl, id, ?_⟩
      intro item head nhead hwrite
      cases hwrite
      rfl
  | writes item head nhead buffer hp hwrite =>
      exact Or.inr (Or.inl ⟨item, head, nhead, buffer, hp, hwrite, rfl⟩)
  | stores item nhead hp =>
      exact Or.inr (Or.inr ⟨item, nhead, hp, rfl⟩)

def Draining : Consumer T -> Prop
  | Consumer.drainLoadHead | Consumer.drainLoadTail _
  | Consumer.copyLoop _ _ _ _ => True
  | _ => False

theorem consume_cases {moved : T -> T} (h : s.consume moved = some q) :
    (¬ Shared.Releasing s.consumer ∧ exists c, q = { s with consumer := c } ∧
      ¬ Shared.Releasing c ∧ (Draining c -> Draining s.consumer) ∧
        forall item, c ≠ Consumer.popped (some item)) ∨
    (exists move tail x buffer, s.consumer = Consumer.popRead move tail ∧
      s.ring.buffer.take (if move then moved else id) tail =
        some (buffer, x) ∧
      q = { s with
        ring := { s.ring with buffer := buffer }
        consumer := Consumer.popStoreTail x tail
        obtained := s.obtained ++ [x]
        copied := s.copied + 1 }) ∨
    (exists item tail, s.consumer = Consumer.popStoreTail item tail ∧
      q = s.release (next s.ring.capacity tail)
        (Consumer.popped (some item))) ∨
    (exists head, s.consumer = Consumer.drainLoadTail head ∧
      s.ring.tail ≠ head ∧ q.ring.capacity = s.ring.capacity ∧
        q.ring.head = s.ring.head) ∨
    (exists i limit wraps head,
      s.consumer = Consumer.copyLoop i limit wraps head ∧
        q.ring.capacity = s.ring.capacity ∧
          q.ring.head = s.ring.head) := by
  cases consume_iff.mp h with
  | loadsTail move hc =>
      rw [hc]
      exact Or.inl ⟨id, _, rfl, id, id, nofun⟩
  | fails move tail hc hempty =>
      rw [hc]
      exact Or.inl ⟨id, _, rfl, id, id, nofun⟩
  | finds move tail hc hitem =>
      rw [hc]
      exact Or.inl ⟨id, _, rfl, id, id, nofun⟩
  | reads move tail q hc hobtain =>
      rcases obtain_eq_some.mp hobtain with ⟨buffer, x, htake, hq⟩
      exact Or.inr (Or.inl ⟨move, tail, x, buffer, hc, htake, hq⟩)
  | stores item tail hc =>
      exact Or.inr (Or.inr (Or.inl ⟨item, tail, hc, rfl⟩))
  | drainsHead hc =>
      rw [hc]
      exact Or.inl ⟨id, _, rfl, id, fun _ => trivial, nofun⟩
  | drainsNothing head hc hempty =>
      rw [hc]
      exact Or.inl ⟨id, _, rfl, id, fun hno => hno.elim, nofun⟩
  | drainsRange head hc hitems hlt =>
      exact Or.inr (Or.inr (Or.inr (Or.inl ⟨head, hc, hitems, rfl, rfl⟩)))
  | drainsAround head hc hitems hge =>
      exact Or.inr (Or.inr (Or.inr (Or.inl ⟨head, hc, hitems, rfl, rfl⟩)))
  | copies i limit wraps head q hc hlt hobtain =>
      rcases obtain_eq_some.mp hobtain with ⟨buffer, x, _, hq⟩
      rw [hq]
      exact Or.inr (Or.inr (Or.inr (Or.inr
        ⟨i, limit, wraps, head, hc, rfl, rfl⟩)))
  | wraps i limit head hc hend =>
      exact Or.inr (Or.inr (Or.inr (Or.inr
        ⟨i, limit, true, head, hc, rfl, rfl⟩)))
  | ends i limit head hc hend =>
      exact Or.inr (Or.inr (Or.inr (Or.inr
        ⟨i, limit, false, head, hc, rfl, rfl⟩)))

theorem consume_keeps {moved : T -> T} (h : s.consume moved = some q) :
    q.ring.capacity = s.ring.capacity ∧ q.ring.head = s.ring.head := by
  rcases consume_cases h with hquiet | hread | hstore | hdrain | hcopy
  · rcases hquiet with ⟨_, c, hq, _⟩
    rw [hq]
    exact ⟨rfl, rfl⟩
  · rcases hread with ⟨move, tail, x, buffer, _, _, hq⟩
    rw [hq]
    exact ⟨rfl, rfl⟩
  · rcases hstore with ⟨item, tail, _, hq⟩
    rw [hq]
    exact ⟨rfl, rfl⟩
  · rcases hdrain with ⟨head, _, _, hkeeps⟩
    exact hkeeps
  · rcases hcopy with ⟨i, limit, wraps, head, _, hkeeps⟩
    exact hkeeps

theorem callPush_cases {item : T} (h : s.callPush item = some q) :
    ¬ Shared.Storing s.producer ∧
      q = { s with producer := Producer.loadHead item } := by
  unfold callPush at h
  split at h
  · rename_i hp
    cases h
    rw [hp]
    exact ⟨id, rfl⟩
  · rename_i ok hp
    cases h
    rw [hp]
    exact ⟨id, rfl⟩
  · cases h

theorem callConsumer_cases {entry : Consumer T}
    (h : s.callConsumer entry = some q) :
    ¬ Shared.Releasing s.consumer ∧ q = { s with consumer := entry } := by
  unfold callConsumer at h
  split at h
  · rename_i hc
    cases h
    rw [hc]
    exact ⟨id, rfl⟩
  · rename_i result hc
    cases h
    rw [hc]
    exact ⟨id, rfl⟩
  · rename_i hc
    cases h
    rw [hc]
    exact ⟨id, rfl⟩
  · cases h

def Entry (a : Action T) (entry : Consumer T) : Prop :=
  match a with
  | Action.pop => entry = Consumer.popLoadTail false
  | Action.popMove => entry = Consumer.popLoadTail true
  | Action.swapToList | Action.swapToVector => entry = Consumer.drainLoadHead
  | _ => False

theorem Entry.not_releasing {a : Action T} {entry : Consumer T}
    (h : Entry a entry) : ¬ Shared.Releasing entry := by
  cases a with
  | pop => subst h; exact id
  | popMove => subst h; exact id
  | swapToList => subst h; exact id
  | swapToVector => subst h; exact id
  | _ => exact h.elim

theorem Entry.unique {a : Action T} {entry entry' : Consumer T}
    (h : Entry a entry) (h' : Entry a entry') : entry = entry' := by
  cases a with
  | pop => exact Eq.trans h (Eq.symm h')
  | popMove => exact Eq.trans h (Eq.symm h')
  | swapToList => exact Eq.trans h (Eq.symm h')
  | swapToVector => exact Eq.trans h (Eq.symm h')
  | _ => exact h.elim

end Spsc

namespace Shared

variable {ι : Type v} {T : Type u} {s s' : Shared ι T} {i : ι} {q : Spsc T}

/-!
# The consumers as one
-/

def Consuming (s : Shared ι T) (p : Producer T) : Prop :=
  exists c, Spsc.Inv (s.view p c) ∧ Sole Releasing s.consumer c

theorem start_consuming (cell : Nat -> T) {size : Nat}
    (hsize : size <= 2 ^ 63) :
    Consuming (start cell size : Shared ι T) Producer.idle :=
  ⟨Consumer.idle, Spsc.start_inv cell hsize,
    Sole.of_forall_not_busy (fun _ => id) id⟩

theorem copied_eq_zero {r : Ringbuff T} {copied : Nat} {c : Consumer T}
    (h : Spsc.ConsumerInv r copied c) (hc : ¬ Releasing c) : copied = 0 := by
  cases c with
  | idle => exact h
  | popLoadTail move => exact h
  | popLoadHead move tail => exact h.left
  | popRead move tail => exact h.left
  | popped result => exact h
  | drainLoadHead => exact h
  | drainLoadTail head => exact h.left
  | drained => exact h
  | popStoreTail item tail => exact absurd trivial hc
  | copyLoop i limit wraps head => exact absurd trivial hc

theorem Consuming.valid {p : Producer T} (h : s.Consuming p) : s.ring.Valid := by
  rcases h with ⟨c, hinv, _⟩
  exact hinv.valid

theorem Consuming.producer {p p' : Producer T} (h : s.Consuming p)
    (hp : Spsc.ProducerInv s.ring p') : s.Consuming p' := by
  rcases h with ⟨c, hinv, hconsumer⟩
  exact ⟨c, { hinv with producer := hp }, hconsumer⟩

theorem not_releasing {c : Consumer T} (hconsumer : Sole Releasing s.consumer c)
    (hi : ¬ Releasing (s.consumer i))
    (hothers : forall j, j ≠ i -> ¬ Releasing (s.consumer j)) :
    ¬ Releasing c := by
  intro hc
  rcases hconsumer.exists_of_busy hc with ⟨j, hj⟩
  by_cases hij : j = i
  · rw [hij] at hj
    exact hi hj
  · exact hothers j hij hj

theorem popRead_consumer {p : Producer T} {c : Consumer T}
    (hinv : Spsc.Inv (s.view p c)) (hconsumer : Sole Releasing s.consumer c)
    {move : Bool} {tail : Nat} (hi : s.consumer i = Consumer.popRead move tail)
    (halone : s.ReadsAlone i) :
    Spsc.Inv (s.view p (s.consumer i)) ∧
      forall j, j ≠ i -> ¬ Releasing (s.consumer j) := by
  unfold ReadsAlone at halone
  rw [hi] at halone ⊢
  rcases halone with ⟨htail, hitem, hothers⟩
  have hout : ¬ Releasing (s.consumer i) := by
    rw [hi]
    exact id
  have hcopied : s.copied = 0 :=
    copied_eq_zero hinv.consumer (not_releasing hconsumer hout hothers)
  have hvalid : s.ring.Valid := hinv.valid
  have hheld : s.ring.held ≠ 0 := by
    intro hzero
    rw [hvalid.held_eq_zero_iff, <- htail] at hzero
    exact hitem hzero
  have hlocal : Spsc.ConsumerInv s.ring s.copied
      (Consumer.popRead move tail : Consumer T) :=
    ⟨hcopied, htail, Nat.pos_of_ne_zero hheld⟩
  exact ⟨{ hinv with consumer := hlocal }, hothers⟩

theorem drainLoadTail_consumer {p : Producer T} {c : Consumer T}
    (hinv : Spsc.Inv (s.view p c)) (hconsumer : Sole Releasing s.consumer c)
    {head : Nat} (hi : s.consumer i = Consumer.drainLoadTail head)
    (hne : s.ring.tail ≠ head) (halone : s.ReadsAlone i) :
    Spsc.Inv (s.view p (s.consumer i)) ∧
      forall j, j ≠ i -> ¬ Releasing (s.consumer j) := by
  unfold ReadsAlone at halone
  rw [hi] at halone ⊢
  rcases halone hne with ⟨hlt, hle, hothers⟩
  have hout : ¬ Releasing (s.consumer i) := by
    rw [hi]
    exact id
  have hcopied : s.copied = 0 :=
    copied_eq_zero hinv.consumer (not_releasing hconsumer hout hothers)
  have hvalid : s.ring.Valid := hinv.valid
  have hlocal : Spsc.ConsumerInv s.ring s.copied
      (Consumer.drainLoadTail head : Consumer T) :=
    ⟨hcopied, distance s.ring.capacity s.ring.tail head, hle,
      (add_distance hvalid.tail_lt hlt).symm⟩
  exact ⟨{ hinv with consumer := hlocal }, hothers⟩

variable [DecidableEq ι]

theorem view_unfocus (h : s.obtained.map Prod.snd <+: q.obtained)
    (p : Producer T) (c : Consumer T) :
    (s.unfocus i q).view p c = { q with producer := p, consumer := c } := by
  rcases h with ⟨more, hmore⟩
  have hdrop : q.obtained.drop s.obtained.length = more := by
    rw [<- hmore, <- List.length_map Prod.snd, List.drop_left]
  have hobtained : (s.unfocus i q).obtained.map Prod.snd = q.obtained := by
    simp [unfocus, hdrop, Function.comp_def, hmore]
  unfold view
  rw [hobtained]
  rfl

theorem unfocus_producer (p : Producer T) :
    s.unfocus i { s.focus i with producer := p } =
      { s with producer := Function.update s.producer i p } := by
  simp [unfocus, focus, view]

theorem unfocus_consumer (c : Consumer T) :
    s.unfocus i { s.focus i with consumer := c } =
      { s with consumer := Function.update s.consumer i c } := by
  simp [unfocus, focus, view]

theorem Consuming.update_consumer {p : Producer T} (h : s.Consuming p)
    {c : Consumer T} (hi : ¬ Releasing (s.consumer i)) (hc : ¬ Releasing c) :
    Consuming { s with consumer := Function.update s.consumer i c } p := by
  rcases h with ⟨c', hinv, hconsumer⟩
  exact ⟨c', hinv, hconsumer.update_of_not_busy hi hc⟩

theorem consuming_section {moved : T -> T} {p : Producer T}
    (hinv : Spsc.Inv (s.view p (s.consumer i)))
    (hothers : forall j, j ≠ i -> ¬ Releasing (s.consumer j))
    (hstep : (s.focus i).consume moved = some q) :
    Consuming (s.unfocus i q) p := by
  rcases Spsc.consume_frame hstep with ⟨_, _, hobtained⟩
  have hviewed : (s.view p (s.consumer i)).consume moved =
      some { q with producer := p } :=
    Spsc.consume_withProducer hstep p
  have hview : (s.unfocus i q).view p q.consumer = { q with producer := p } :=
    view_unfocus hobtained p _
  refine ⟨q.consumer, ?_, Sole.update_of_others_not_busy hothers⟩
  rw [hview]
  exact hinv.consume_inv hviewed

theorem Consuming.releasing {p : Producer T} (h : s.Consuming p)
    {moved : T -> T} (hbusy : Releasing (s.consumer i))
    (hstep : (s.focus i).consume moved = some q) :
    Consuming (s.unfocus i q) p := by
  rcases h with ⟨c, hinv, hconsumer⟩
  rw [<- hconsumer.eq_of_busy i hbusy] at hinv
  exact consuming_section hinv (hconsumer.not_busy_of_ne hbusy) hstep

theorem Consuming.consume {p : Producer T} (h : s.Consuming p)
    {moved : T -> T} (halone : s.ReadsAlone i)
    (hstep : (s.focus i).consume moved = some q) :
    Consuming (s.unfocus i q) p := by
  rcases Spsc.consume_cases hstep with
    hquiet | hread | hstore | hdrain | hcopy
  · rcases hquiet with ⟨hout, c, hq, hc, _⟩
    rw [hq, unfocus_consumer]
    exact h.update_consumer hout hc
  · rcases hread with ⟨move, tail, x, buffer, hi, _⟩
    rcases h with ⟨c, hinv, hconsumer⟩
    rcases popRead_consumer hinv hconsumer hi halone with ⟨hown, hothers⟩
    exact consuming_section hown hothers hstep
  · rcases hstore with ⟨item, tail, hi, _⟩
    apply h.releasing _ hstep
    rw [show s.consumer i = Consumer.popStoreTail item tail from hi]
    trivial
  · rcases hdrain with ⟨head, hi, hne, _⟩
    rcases h with ⟨c, hinv, hconsumer⟩
    rcases drainLoadTail_consumer hinv hconsumer hi hne halone with
      ⟨hown, hothers⟩
    exact consuming_section hown hothers hstep
  · rcases hcopy with ⟨first, limit, wraps, head, hi, _⟩
    apply h.releasing _ hstep
    rw [show s.consumer i = Consumer.copyLoop first limit wraps head from hi]
    trivial

theorem Consuming.produce (h : s.Consuming (s.producer i))
    (hstep : (s.focus i).produce = some q) :
    Consuming (s.unfocus i q) q.producer := by
  rcases h with ⟨c, hinv, hconsumer⟩
  rcases Spsc.produce_frame hstep with ⟨hsame, hobtained⟩
  have hviewed : (s.view (s.producer i) c).produce =
      some { q with consumer := c } :=
    Spsc.produce_withConsumer hstep c
  have hview : (s.unfocus i q).view q.producer c = { q with consumer := c } :=
    view_unfocus ⟨[], by rw [hobtained, List.append_nil]; rfl⟩ _ c
  refine ⟨c, ?_, ?_⟩
  · rw [hview]
    exact hinv.produce_inv hviewed
  · have hid : (s.unfocus i q).consumer = s.consumer := by
      unfold unfocus
      rw [hsame]
      exact Function.update_eq_self i s.consumer
    rw [hid]
    exact hconsumer

/-!
# Steps
-/

theorem step_consume {moved : T -> T}
    (h : step moved s (i, Spsc.Action.consume) = some s') :
    exists q, (s.focus i).consume moved = some q ∧
      s' = { s.unfocus i q with
        popped := s.popped ++ returning (s.consumer i) } := by
  rcases Option.map_eq_some_iff.mp h with ⟨q, hq, hs'⟩
  exact ⟨q, hq, hs'.symm⟩

theorem step_cases {moved : T -> T} {a : Spsc.Action T}
    (h : step moved s (i, a) = some s') :
    (exists item, (a = Spsc.Action.push item ∨ a = Spsc.Action.pushMove item) ∧
      ¬ Storing (s.producer i) ∧
      s' = { s with
        producer := Function.update s.producer i (Producer.loadHead item) }) ∨
    (exists entry, ¬ Releasing (s.consumer i) ∧ Spsc.Entry a entry ∧
      s' = { s with consumer := Function.update s.consumer i entry }) ∨
    (a = Spsc.Action.produce ∧ exists q, (s.focus i).produce = some q ∧
      s' = s.unfocus i q) ∨
    (a = Spsc.Action.consume ∧ exists q, (s.focus i).consume moved = some q ∧
      s' = { s.unfocus i q with
        popped := s.popped ++ returning (s.consumer i) }) := by
  have hpush : forall {item : T},
      ((s.focus i).callPush item).map (s.unfocus i) = some s' ->
        ¬ Storing (s.producer i) ∧
          s' = { s with producer :=
            Function.update s.producer i (Producer.loadHead item) } := by
    intro item hcall
    rcases Option.map_eq_some_iff.mp hcall with ⟨q, hq, hs'⟩
    rcases Spsc.callPush_cases hq with ⟨hout, heq⟩
    rw [heq, unfocus_producer] at hs'
    exact ⟨hout, hs'.symm⟩
  have hcons : forall {entry : Consumer T},
      ((s.focus i).callConsumer entry).map (s.unfocus i) = some s' ->
        ¬ Releasing (s.consumer i) ∧
          s' = { s with consumer := Function.update s.consumer i entry } := by
    intro entry hcall
    rcases Option.map_eq_some_iff.mp hcall with ⟨q, hq, hs'⟩
    rcases Spsc.callConsumer_cases hq with ⟨hout, heq⟩
    rw [heq, unfocus_consumer] at hs'
    exact ⟨hout, hs'.symm⟩
  cases a with
  | push item => exact Or.inl ⟨item, Or.inl rfl, hpush h⟩
  | pushMove item => exact Or.inl ⟨item, Or.inr rfl, hpush h⟩
  | pop =>
      rcases hcons h with ⟨hout, hs'⟩
      exact Or.inr (Or.inl ⟨_, hout, rfl, hs'⟩)
  | popMove =>
      rcases hcons h with ⟨hout, hs'⟩
      exact Or.inr (Or.inl ⟨_, hout, rfl, hs'⟩)
  | swapToList =>
      rcases hcons h with ⟨hout, hs'⟩
      exact Or.inr (Or.inl ⟨_, hout, rfl, hs'⟩)
  | swapToVector =>
      rcases hcons h with ⟨hout, hs'⟩
      exact Or.inr (Or.inl ⟨_, hout, rfl, hs'⟩)
  | produce =>
      rcases Option.map_eq_some_iff.mp h with ⟨q, hq, hs'⟩
      exact Or.inr (Or.inr (Or.inl ⟨rfl, q, hq, hs'.symm⟩))
  | consume => exact Or.inr (Or.inr (Or.inr ⟨rfl, step_consume h⟩))

theorem step_entry {moved : T -> T} {a : Spsc.Action T} {entry : Consumer T}
    (ha : Spsc.Entry a entry) (h : step moved s (i, a) = some s') :
    ¬ Releasing (s.consumer i) ∧
      s' = { s with consumer := Function.update s.consumer i entry } := by
  rcases step_cases h with hpush | hcall | hproduce | hconsume
  · rcases hpush with ⟨item, hpush | hpush, _⟩
    · rw [hpush] at ha
      exact ha.elim
    · rw [hpush] at ha
      exact ha.elim
  · rcases hcall with ⟨entry', hout, hentry, hs'⟩
    rw [hentry.unique ha] at hs'
    exact ⟨hout, hs'⟩
  · rw [hproduce.left] at ha
    exact ha.elim
  · rw [hconsume.left] at ha
    exact ha.elim

theorem unfocus_obtainedBy_self :
    (s.unfocus i q).obtainedBy i =
      s.obtainedBy i ++ q.obtained.drop s.obtained.length := by
  unfold obtainedBy unfocus
  rw [List.filter_append, List.map_append, List.filter_map]
  simp [Function.comp_def]

theorem unfocus_obtainedBy_of_ne {j : ι} (hne : j ≠ i) :
    (s.unfocus i q).obtainedBy j = s.obtainedBy j := by
  unfold obtainedBy unfocus
  rw [List.filter_append, List.map_append, List.filter_map]
  simp [Function.comp_def, hne.symm]

theorem step_of_ne {moved : T -> T} {a : Spsc.Action T} {j : ι} (hne : j ≠ i)
    (h : step moved s (i, a) = some s') :
    s'.consumer j = s.consumer j ∧ s'.obtainedBy j = s.obtainedBy j := by
  rcases step_cases h with hpush | hcall | hproduce | hconsume
  · rcases hpush with ⟨item, _, _, hs'⟩
    rw [hs']
    exact ⟨rfl, rfl⟩
  · rcases hcall with ⟨entry, _, _, hs'⟩
    rw [hs']
    exact ⟨Function.update_of_ne hne _ _, rfl⟩
  · rcases hproduce with ⟨_, q, _, hs'⟩
    rw [hs']
    exact ⟨Function.update_of_ne hne _ _, unfocus_obtainedBy_of_ne hne⟩
  · rcases hconsume with ⟨_, q, _, hs'⟩
    rw [hs']
    exact ⟨Function.update_of_ne hne _ _, unfocus_obtainedBy_of_ne hne⟩

/-!
# A block without cells

For sizes above `2 ^ 63` no push gets past its write and the ring buffer stays
as it was built.
-/

def BarrenProducer : Producer T -> Prop
  | Producer.idle | Producer.loadHead _ | Producer.write _ _ _ => True
  | Producer.loadTail _ head => head = 0
  | _ => False

def BarrenConsumer : Consumer T -> Prop
  | Consumer.idle | Consumer.popLoadTail _ | Consumer.popped none
  | Consumer.drainLoadHead | Consumer.drained => True
  | Consumer.popLoadHead _ tail => tail = 0
  | Consumer.drainLoadTail head => head = 0
  | _ => False

omit [DecidableEq ι] in
structure Barren (s : Shared ι T) : Prop where
  capacity_eq : s.ring.capacity = 0
  block : s.ring.buffer.size = 0
  head_eq : s.ring.head = 0
  tail_eq : s.ring.tail = 0
  accepted_eq : s.accepted = []
  popped_eq : s.popped = []
  obtained_eq : s.obtained = []
  copied_eq : s.copied = 0
  producer : forall i, BarrenProducer (s.producer i)
  consumer : forall i, BarrenConsumer (s.consumer i)

omit [DecidableEq ι] in
theorem start_barren (cell : Nat -> T) {size : Nat} (hlt : size < SIZE_T)
    (hsize : 2 ^ 63 < size) : Barren (start cell size : Shared ι T) where
  capacity_eq := adjSize_zero_of_lt hlt hsize
  block := adjSize_zero_of_lt hlt hsize
  head_eq := rfl
  tail_eq := rfl
  accepted_eq := rfl
  popped_eq := rfl
  obtained_eq := rfl
  copied_eq := rfl
  producer := fun _ => trivial
  consumer := fun _ => trivial

namespace Barren

theorem update_producer (h : Barren s) {p : Producer T}
    (hp : BarrenProducer p) :
    Barren { s with producer := Function.update s.producer i p } :=
  { h with
    producer := Function.forall_update_iff s.producer
      (fun _ p => BarrenProducer p) |>.mpr ⟨hp, fun j _ => h.producer j⟩ }

theorem update_consumer (h : Barren s) {c : Consumer T}
    (hc : BarrenConsumer c) :
    Barren { s with consumer := Function.update s.consumer i c } :=
  { h with
    consumer := Function.forall_update_iff s.consumer
      (fun _ c => BarrenConsumer c) |>.mpr ⟨hc, fun j _ => h.consumer j⟩ }

omit [DecidableEq ι] in
theorem produce_eq (h : Barren s) (hstep : (s.focus i).produce = some q) :
    exists p, q = { s.focus i with producer := p } ∧ BarrenProducer p := by
  have hlocal := h.producer i
  cases Spsc.produce_iff.mp hstep with
  | loadsHead item hp =>
      exact ⟨_, rfl, h.head_eq⟩
  | fails item head hp hfull =>
      have hhead : head = 0 := by
        rw [show s.producer i = Producer.loadTail item head from hp] at hlocal
        exact hlocal
      have hno : next s.ring.capacity head = s.ring.tail := hfull
      rw [h.capacity_eq, h.tail_eq, hhead] at hno
      exact absurd hno (by decide)
  | finds item head hp hroom =>
      exact ⟨_, rfl, trivial⟩
  | writes item head nhead buffer hp hwrite =>
      have hnone : s.ring.buffer.write head item = some buffer := hwrite
      simp [Cells.write, h.block] at hnone
  | stores item nhead hp =>
      rw [show s.producer i = Producer.storeHead item nhead from hp] at hlocal
      exact hlocal.elim

omit [DecidableEq ι] in
theorem consume_eq (h : Barren s) {moved : T -> T}
    (hstep : (s.focus i).consume moved = some q) :
    returning (s.consumer i) = [] ∧
      exists c, q = { s.focus i with consumer := c } ∧ BarrenConsumer c := by
  have hlocal := h.consumer i
  have hpc : forall {c : Consumer T}, (s.focus i).consumer = c ->
      BarrenConsumer c ∧ s.consumer i = c := by
    intro c hc
    have hci : s.consumer i = c := hc
    exact ⟨hci ▸ hlocal, hci⟩
  cases Spsc.consume_iff.mp hstep with
  | loadsTail move hc =>
      rw [(hpc hc).right]
      exact ⟨rfl, _, rfl, h.tail_eq⟩
  | fails move tail hc hempty =>
      rw [(hpc hc).right]
      exact ⟨rfl, _, rfl, trivial⟩
  | finds move tail hc hitem =>
      have htail : tail = 0 := (hpc hc).left
      exact absurd (htail.trans h.head_eq.symm) hitem
  | reads move tail q hc hobtain =>
      exact (hpc hc).left.elim
  | stores item tail hc =>
      exact (hpc hc).left.elim
  | drainsHead hc =>
      rw [(hpc hc).right]
      exact ⟨rfl, _, rfl, h.head_eq⟩
  | drainsNothing head hc hempty =>
      rw [(hpc hc).right]
      exact ⟨rfl, _, rfl, trivial⟩
  | drainsRange head hc hitems hlt =>
      have hhead : head = 0 := (hpc hc).left
      exact absurd (h.tail_eq.trans hhead.symm) hitems
  | drainsAround head hc hitems hge =>
      have hhead : head = 0 := (hpc hc).left
      exact absurd (h.tail_eq.trans hhead.symm) hitems
  | copies first limit wraps head q hc hlt hobtain =>
      exact (hpc hc).left.elim
  | wraps first limit head hc hend =>
      exact (hpc hc).left.elim
  | ends first limit head hc hend =>
      exact (hpc hc).left.elim

theorem step_barren (h : Barren s) {moved : T -> T} {a : ι × Spsc.Action T}
    (hstep : step moved s a = some s') : Barren s' := by
  rcases a with ⟨i, a⟩
  rcases step_cases hstep with hpush | hcall | hproduce | hconsume
  · rcases hpush with ⟨item, _, _, hs'⟩
    rw [hs']
    exact h.update_producer trivial
  · rcases hcall with ⟨entry, _, hentry, hs'⟩
    rw [hs']
    apply h.update_consumer
    cases a with
    | pop => rw [show entry = _ from hentry]; trivial
    | popMove => rw [show entry = _ from hentry]; trivial
    | swapToList => rw [show entry = _ from hentry]; trivial
    | swapToVector => rw [show entry = _ from hentry]; trivial
    | _ => exact hentry.elim
  · rcases hproduce with ⟨_, q, hq, hs'⟩
    rcases h.produce_eq hq with ⟨p, heq, hp⟩
    rw [hs', heq, unfocus_producer]
    exact h.update_producer hp
  · rcases hconsume with ⟨_, q, hq, hs'⟩
    rcases h.consume_eq hq with ⟨hnone, c, heq, hc⟩
    rw [hs', heq, unfocus_consumer, hnone, List.append_nil]
    exact h.update_consumer hc

end Barren

/-!
# Where the items are
-/

omit [DecidableEq ι]

def unread (s : Shared ι T) : List T :=
  window s.ring.buffer.cell s.ring.capacity (s.ring.tail + s.copied)
    (s.ring.held - s.copied)

structure Accounted (s : Shared ι T) : Prop where
  flow : s.accepted = s.obtained.map Prod.snd ++ s.unread
  copied_eq : s.Settled -> s.copied = 0
  held_eq : s.ring.head = s.ring.tail -> s.ring.held = 0

theorem Consuming.accounted {p : Producer T} (h : s.Consuming p) :
    Accounted s := by
  rcases h with ⟨c, hinv, hconsumer⟩
  constructor
  case flow =>
    exact hinv.flow
  case copied_eq =>
    intro hsettled
    apply copied_eq_zero hinv.consumer
    intro hc
    rcases hconsumer.exists_of_busy hc with ⟨i, hi⟩
    exact hsettled i hi
  case held_eq =>
    intro heq
    exact hinv.valid.held_eq_zero_iff.mpr heq.symm

theorem Barren.accounted (h : Barren s) : Accounted s := by
  have hheld : s.ring.held = 0 := by
    unfold held distance
    rw [h.capacity_eq, h.head_eq, h.tail_eq]
  constructor
  case flow =>
    unfold unread
    rw [h.accepted_eq, h.obtained_eq, hheld, Nat.zero_sub, window_zero,
      List.map_nil, List.nil_append]
  case copied_eq =>
    intro _
    exact h.copied_eq
  case held_eq =>
    intro _
    exact hheld

theorem Accounted.contents (h : Accounted s) (hsettled : s.Settled) :
    s.accepted = s.obtained.map Prod.snd ++ s.ring.contents := by
  have hunread : s.unread = s.ring.contents := by
    unfold unread Ringbuff.contents
    rw [h.copied_eq hsettled, Nat.add_zero, Nat.sub_zero]
  rw [h.flow, hunread]

end Shared

end Ringbuff

end MoonNet
