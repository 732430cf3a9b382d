import MoonNet.Lfthread.Drain
import MoonNet.Ringbuff.Drained

/-!
# Drains and the worker's pop

The worker's pop and a drain both read cells and store `tail_` afterwards.  As
long as they do not overlap, the tasks that have left the queue are exactly the
ones invoked by the worker or transferred by the drains.
-/

namespace MoonNet

open Foundation
open Ringbuff

universe u

namespace Lfthread

namespace Running

variable {τ : Type u} {s s' : Running τ} {moved : Task τ -> Task τ}
  {i : Caller} {a : Spsc.Action (Task τ)}

theorem access_eq_some :
    s.access moved i a = some s' <->
      exists buffer, Shared.step moved s.buffer (i, a) = some buffer ∧
        s' = { s with buffer := buffer } := by
  unfold access
  rw [Option.map_eq_some_iff]
  constructor
  · intro h
    rcases h with ⟨buffer, hbuffer, hs'⟩
    exact ⟨buffer, hbuffer, hs'.symm⟩
  · intro h
    rcases h with ⟨buffer, hbuffer, hs'⟩
    exact ⟨buffer, hbuffer, hs'.symm⟩

/-!
# Steps
-/

def Access (a : Action τ) (i : Caller) (x : Spsc.Action (Task τ)) : Prop :=
  match a with
  | Action.enqueueTask t =>
      i = Caller.other ∧ x = Spsc.Action.push (Task.client t)
  | Action.enqueueTaskMove t =>
      i = Caller.other ∧ x = Spsc.Action.pushMove (Task.client t)
  | Action.swapToList => i = Caller.other ∧ x = Spsc.Action.swapToList
  | Action.swapToVector => i = Caller.other ∧ x = Spsc.Action.swapToVector
  | Action.enqueue => i = Caller.other ∧ x = Spsc.Action.produce
  | Action.drain => i = Caller.other ∧ x = Spsc.Action.consume
  | Action.worker =>
      i = Caller.worker ∧ (x = Spsc.Action.popMove ∨ x = Spsc.Action.consume)

def queuedAfter (s : Running τ) : Action τ -> List (Task τ)
  | Action.swapToList | Action.swapToVector => s.buffer.accepted
  | _ => s.queued

theorem step_cases {a : Action τ} (h : step moved s a = some s') :
    (s'.buffer = s.buffer ∧ s'.queued = s.queued) ∨
    (exists i x, Access a i x ∧
      Shared.step moved s.buffer (i, x) = some s'.buffer ∧
        s'.queued = s.queuedAfter a) := by
  have haccess : forall (t : Running τ) (i : Caller)
      (x : Spsc.Action (Task τ)), t.buffer = s.buffer ->
        t.queued = s.queuedAfter a -> Access a i x ->
          t.access moved i x = some s' ->
            exists i x, Access a i x ∧
              Shared.step moved s.buffer (i, x) = some s'.buffer ∧
                s'.queued = s.queuedAfter a := by
    intro t i x hbuffer hqueued hx hcall
    rcases access_eq_some.mp hcall with ⟨buffer, hstep, hs'⟩
    rw [hbuffer] at hstep
    rw [hs']
    exact ⟨i, x, hx, hstep, hqueued⟩
  cases a with
  | enqueueTask t => exact Or.inr (haccess s _ _ rfl rfl ⟨rfl, rfl⟩ h)
  | enqueueTaskMove t => exact Or.inr (haccess s _ _ rfl rfl ⟨rfl, rfl⟩ h)
  | swapToList =>
      exact Or.inr (haccess { s with queued := s.buffer.accepted } _ _ rfl rfl
        ⟨rfl, rfl⟩ h)
  | swapToVector =>
      exact Or.inr (haccess { s with queued := s.buffer.accepted } _ _ rfl rfl
        ⟨rfl, rfl⟩ h)
  | enqueue => exact Or.inr (haccess s _ _ rfl rfl ⟨rfl, rfl⟩ h)
  | drain => exact Or.inr (haccess s _ _ rfl rfl ⟨rfl, rfl⟩ h)
  | worker =>
      have hcall : s.workerStep moved = some s' := h
      cases hw : s.worker with
      | testShutdown =>
          simp only [workerStep, hw] at hcall
          exact Or.inr (haccess { s with worker := Worker.polling } _ _ rfl
            rfl ⟨rfl, Or.inl rfl⟩ hcall)
      | polling =>
          simp only [workerStep, hw] at hcall
          split at hcall
          · cases hcall
            exact Or.inl ⟨rfl, rfl⟩
          · cases hcall
            exact Or.inl ⟨rfl, rfl⟩
          · exact Or.inr (haccess s _ _ rfl rfl ⟨rfl, Or.inr rfl⟩ hcall)
      | invoke task =>
          simp only [workerStep, hw, Option.some.injEq] at hcall
          subst hcall
          exact Or.inl ⟨rfl, rfl⟩
      | _ =>
          simp [workerStep, hw] at hcall

/-!
# What the worker has taken

The worker invokes what it reads, one task after the other, whatever the other
threads do.
-/

structure Hand (s : Running τ) : Prop where
  read_eq :
    s.buffer.obtainedBy Caller.worker = s.invoked ++ s.inHand
  noDrain : ¬ Spsc.Draining (s.buffer.consumer Caller.worker)

theorem popping_eq_nil {c : Consumer (Task τ)}
    (hout : ¬ Shared.Releasing c)
    (hnone : forall task, c ≠ Consumer.popped (some task)) :
    popping c = [] := by
  cases c with
  | popStoreTail task tail => exact absurd trivial hout
  | popped result =>
      cases result with
      | none => rfl
      | some task => exact absurd rfl (hnone task)
  | _ => rfl

theorem consume_popping {b q : Spsc (Task τ)}
    (hdrain : ¬ Spsc.Draining b.consumer)
    (hbusy : forall result, b.consumer ≠ Consumer.popped result)
    (hstep : b.consume moved = some q) :
    exists more, q.obtained = b.obtained ++ more ∧
      popping q.consumer = popping b.consumer ++ more ∧
        ¬ Spsc.Draining q.consumer := by
  rcases Spsc.consume_cases hstep with
    hquiet | hread | hstore | hbegin | hcopy
  · rcases hquiet with ⟨hout, c, hq, hc, hkeep, hnone⟩
    have hbefore : popping b.consumer = [] :=
      popping_eq_nil hout fun task => hbusy (some task)
    have hafter : popping c = [] := popping_eq_nil hc hnone
    rw [hq, hbefore]
    exact ⟨[], (List.append_nil _).symm, hafter, fun h => hdrain (hkeep h)⟩
  · rcases hread with ⟨move, tail, x, buffer, hc, _, hq⟩
    rw [hq, hc]
    exact ⟨[x], rfl, rfl, id⟩
  · rcases hstore with ⟨item, tail, hc, hq⟩
    rw [hq, hc]
    exact ⟨[], (List.append_nil _).symm, rfl, id⟩
  · rcases hbegin with ⟨head, hc, _⟩
    rw [hc] at hdrain
    exact absurd trivial hdrain
  · rcases hcopy with ⟨first, limit, wraps, head, hc, _⟩
    rw [hc] at hdrain
    exact absurd trivial hdrain

theorem start_hand (size : UInt64) : Hand (start size : Running τ) where
  read_eq := rfl
  noDrain := id

namespace Hand

theorem access_other (h : Hand s) {queued : List (Task τ)}
    (hstep : { s with queued := queued }.access moved Caller.other a =
      some s') : Hand s' := by
  rcases access_eq_some.mp hstep with ⟨buffer, hbuffer, hs'⟩
  have hne : Caller.worker ≠ Caller.other := by
    intro heq
    cases heq
  rcases Shared.step_of_ne hne hbuffer with ⟨hconsumer, hobtained⟩
  subst hs'
  have hhand : inHand { s with buffer := buffer, queued := queued } =
      s.inHand := by
    unfold inHand
    rw [hconsumer]
  constructor
  · show buffer.obtainedBy Caller.worker = s.invoked ++ _
    rw [hobtained, hhand]
    exact h.read_eq
  · show ¬ Spsc.Draining (buffer.consumer Caller.worker)
    rw [hconsumer]
    exact h.noDrain

theorem popMove (h : Hand s) (hw : s.worker = Worker.testShutdown)
    (hstep : { s with worker := Worker.polling }.access moved Caller.worker
      Spsc.Action.popMove = some s') : Hand s' := by
  rcases access_eq_some.mp hstep with ⟨buffer, hbuffer, hs'⟩
  have hread := h.read_eq
  unfold inHand at hread
  rw [hw] at hread
  have hentry : Spsc.Entry (Spsc.Action.popMove : Spsc.Action (Task τ))
      (Consumer.popLoadTail true) := rfl
  have hbuffer' := (Shared.step_entry hentry hbuffer).right
  have hconsumer : buffer.consumer Caller.worker =
      Consumer.popLoadTail true := by
    rw [hbuffer']
    exact Function.update_self Caller.worker _ s.buffer.consumer
  subst hs'
  constructor
  · show buffer.obtainedBy Caller.worker =
      s.invoked ++ popping (buffer.consumer Caller.worker)
    rw [hconsumer, hbuffer']
    exact hread
  · show ¬ Spsc.Draining (buffer.consumer Caller.worker)
    rw [hconsumer]
    exact id

theorem consume (h : Hand s) (hw : s.worker = Worker.polling)
    (hbusy : forall result,
      s.buffer.consumer Caller.worker ≠ Consumer.popped result)
    (hstep : s.access moved Caller.worker Spsc.Action.consume = some s') :
    Hand s' := by
  rcases access_eq_some.mp hstep with ⟨buffer, hbuffer, hs'⟩
  have hread := h.read_eq
  unfold inHand at hread
  rw [hw] at hread
  rcases Shared.step_consume hbuffer with ⟨q, hq, hbuffer'⟩
  rcases consume_popping h.noDrain hbusy hq with
    ⟨more, hobtained, hpopping, hdraining⟩
  have hconsumer : buffer.consumer Caller.worker = q.consumer := by
    rw [hbuffer']
    exact Function.update_self Caller.worker _ s.buffer.consumer
  have hmore : buffer.obtainedBy Caller.worker =
      s.buffer.obtainedBy Caller.worker ++ more := by
    rw [hbuffer']
    show (s.buffer.unfocus Caller.worker q).obtainedBy Caller.worker = _
    rw [Shared.unfocus_obtainedBy_self, hobtained]
    show _ ++ (s.buffer.obtained.map Prod.snd ++ more).drop _ = _
    rw [<- List.length_map Prod.snd, List.drop_left]
  subst hs'
  constructor
  · show buffer.obtainedBy Caller.worker = s.invoked ++ inHand _
    unfold inHand
    rw [hw]
    show _ = s.invoked ++ popping (buffer.consumer Caller.worker)
    rw [hconsumer, hmore, hread, hpopping, List.append_assoc]
    rfl
  · show ¬ Spsc.Draining (buffer.consumer Caller.worker)
    rw [hconsumer]
    exact hdraining

theorem workerStep_hand (h : Hand s) (hstep : s.workerStep moved = some s') :
    Hand s' := by
  have hread := h.read_eq
  unfold inHand at hread
  cases hw : s.worker with
  | testShutdown =>
      simp only [workerStep, hw] at hstep
      exact h.popMove hw hstep
  | polling =>
      rw [hw] at hread
      simp only [workerStep, hw] at hstep
      split at hstep
      · rename_i task hc
        cases hstep
        simp only [hc] at hread
        exact ⟨hread, h.noDrain⟩
      · rename_i hc
        cases hstep
        simp only [hc] at hread
        exact ⟨hread, h.noDrain⟩
      · rename_i hsome hnone
        have hbusy : forall result,
            s.buffer.consumer Caller.worker ≠ Consumer.popped result := by
          intro result hc
          cases result with
          | none => exact hnone hc
          | some task => exact hsome task hc
        exact h.consume hw hbusy hstep
  | invoke task =>
      rw [hw] at hread
      simp only [workerStep, hw, Option.some.injEq] at hstep
      subst hstep
      constructor
      · show s.buffer.obtainedBy Caller.worker = s.invoked ++ [task] ++ []
        rw [List.append_nil]
        exact hread
      · exact h.noDrain
  | _ =>
      simp [workerStep, hw] at hstep

theorem step_hand (h : Hand s) {a : Action τ}
    (hstep : step moved s a = some s') : Hand s' := by
  cases a with
  | enqueueTask t => exact h.access_other hstep
  | enqueueTaskMove t => exact h.access_other hstep
  | swapToList => exact h.access_other hstep
  | swapToVector => exact h.access_other hstep
  | enqueue => exact h.access_other hstep
  | drain => exact h.access_other hstep
  | worker => exact h.workerStep_hand hstep

end Hand

/-!
# What the drains take
-/

/--
The consumers behave like one consumer, and the drain in progress or just
finished takes what was queued when it was called.
-/
structure Orderly (b : Shared Caller (Task τ)) (queued : List (Task τ)) :
    Prop where
  consuming : b.Consuming (b.producer Caller.other)
  headCounts : (b.focus Caller.other).HeadCounts
  queued_prefix : queued <+: b.accepted
  covers : (b.focus Caller.other).Covers queued.length

theorem start_orderly {size : UInt64} (hsize : size.toNat <= 2 ^ 63) :
    Orderly (start size : Running τ).buffer [] where
  consuming := Shared.start_consuming _ hsize
  headCounts := (Nat.zero_mod _).symm
  queued_prefix := List.prefix_rfl
  covers := trivial

namespace Orderly

variable {b b' : Shared Caller (Task τ)} {queued : List (Task τ)}

theorem push (h : Orderly b queued) {item : Task τ}
    (hbuffer : b' = { b with
      producer := Function.update b.producer i (Producer.loadHead item) }) :
    Orderly b' queued := by
  rw [hbuffer]
  refine ⟨?_, h.headCounts, h.queued_prefix, h.covers⟩
  cases i with
  | worker => exact h.consuming
  | other => exact h.consuming.producer trivial

theorem callPop (h : Orderly b queued) {entry : Consumer (Task τ)}
    (hout : ¬ Shared.Releasing (b.consumer Caller.worker))
    (hentry : ¬ Shared.Releasing entry)
    (hbuffer : b' = { b with
      consumer := Function.update b.consumer Caller.worker entry }) :
    Orderly b' queued := by
  rw [hbuffer]
  exact ⟨h.consuming.update_consumer hout hentry, h.headCounts, h.queued_prefix,
    h.covers⟩

theorem callDrain (h : Orderly b queued)
    (hout : ¬ Shared.Releasing (b.consumer Caller.other))
    (hbuffer : b' = { b with
      consumer :=
        Function.update b.consumer Caller.other Consumer.drainLoadHead }) :
    Orderly b' b.accepted := by
  rw [hbuffer]
  exact ⟨h.consuming.update_consumer hout id, h.headCounts, List.prefix_rfl,
    Nat.le_refl b.accepted.length⟩

theorem produce (h : Orderly b queued) {q : Spsc (Task τ)}
    (hstep : (b.focus Caller.other).produce = some q) :
    Orderly (b.unfocus Caller.other q) queued := by
  rcases h.consuming with ⟨c, hinv, _⟩
  have hviewed : (b.view (b.producer Caller.other) c).produce =
      some { q with consumer := c } :=
    Spsc.produce_withConsumer hstep c
  have hcounts : Spsc.HeadCounts { q with consumer := c } :=
    hinv.produce_headCounts h.headCounts hviewed
  have haccepted : b.accepted <+: q.published :=
    (Spsc.produce_keeps hstep).right.right.right
  exact {
    consuming := h.consuming.produce hstep
    headCounts := hcounts
    queued_prefix := h.queued_prefix.trans haccepted
    covers := Shared.produce_covers h.covers hstep }

theorem consume (h : Orderly b queued) {q : Spsc (Task τ)}
    (halone : b.ReadsAlone i)
    (hstep : (b.focus i).consume moved = some q) :
    Orderly (b.unfocus i q) queued := by
  rcases Spsc.consume_frame hstep with ⟨hproducer, haccepted, hobtained⟩
  rcases Spsc.consume_keeps hstep with ⟨hcapacity, hhead⟩
  have hid : (b.unfocus i q).producer = b.producer := by
    unfold Shared.unfocus
    rw [hproducer]
    exact Function.update_eq_self i b.producer
  have hcounts : q.ring.head = q.published.length % q.ring.capacity := by
    rw [hhead, hcapacity, haccepted]
    exact h.headCounts
  constructor
  case consuming =>
    rw [hid]
    exact h.consuming.consume halone hstep
  case headCounts =>
    exact hcounts
  case queued_prefix =>
    show queued <+: q.published
    rw [haccepted]
    exact h.queued_prefix
  case covers =>
    cases i with
    | worker =>
        exact h.consuming.covers_of_ne Caller.noConfusion halone h.covers hstep
    | other =>
        rw [Shared.focus_unfocus hobtained]
        exact h.consuming.consume_covers h.headCounts h.covers hstep

theorem step_orderly (h : Orderly b queued)
    (hproduce : a = Spsc.Action.produce -> i = Caller.other)
    (hcall : forall entry, Spsc.Entry a entry -> i = Caller.worker)
    (halone : a = Spsc.Action.consume -> b.ReadsAlone i)
    (hstep : Shared.step moved b (i, a) = some b') : Orderly b' queued := by
  rcases Shared.step_cases hstep with hpush | hpop | hwrite | hread
  · rcases hpush with ⟨item, _, _, hb'⟩
    exact h.push hb'
  · rcases hpop with ⟨entry, hout, hentry, hb'⟩
    have hi := hcall entry hentry
    subst hi
    exact h.callPop hout hentry.not_releasing hb'
  · rcases hwrite with ⟨ha, q, hq, hb'⟩
    have hi := hproduce ha
    subst hi
    rw [hb']
    exact h.produce hq
  · rcases hread with ⟨ha, q, hq, hb'⟩
    have hnext : Orderly (b.unfocus i q) queued := h.consume (halone ha) hq
    rw [hb']
    exact ⟨hnext.consuming, hnext.headCounts, hnext.queued_prefix,
      hnext.covers⟩

theorem swap (h : Orderly b queued)
    (ha : Spsc.Entry a (Consumer.drainLoadHead : Consumer (Task τ)))
    (hstep : Shared.step moved b (Caller.other, a) = some b') :
    Orderly b' b.accepted := by
  rcases Shared.step_entry ha hstep with ⟨hout, hb'⟩
  exact h.callDrain hout hb'

end Orderly

theorem Orderly.running_step (h : Orderly s.buffer s.queued) {a : Action τ}
    (halone : s.TakesAlone a) (hstep : step moved s a = some s') :
    Orderly s'.buffer s'.queued := by
  rcases step_cases hstep with hquiet | haccess
  · rw [hquiet.left, hquiet.right]
    exact h
  · rcases haccess with ⟨i, x, hx, hbuffer, hqueued⟩
    rw [hqueued]
    cases a with
    | swapToList =>
        rcases hx with ⟨hi, hx⟩
        subst hi hx
        have hentry : Spsc.Entry (T := Task τ) Spsc.Action.swapToList
            Consumer.drainLoadHead := rfl
        exact h.swap hentry hbuffer
    | swapToVector =>
        rcases hx with ⟨hi, hx⟩
        subst hi hx
        have hentry : Spsc.Entry (T := Task τ) Spsc.Action.swapToVector
            Consumer.drainLoadHead := rfl
        exact h.swap hentry hbuffer
    | worker =>
        rcases hx with ⟨hi, hx⟩
        subst hi
        refine h.step_orderly ?_ (fun _ _ => rfl) (fun _ => halone) hbuffer
        intro hproduce
        rw [hproduce] at hx
        rcases hx with hx | hx
        · cases hx
        · cases hx
    | drain =>
        rcases hx with ⟨hi, hx⟩
        subst hi hx
        refine h.step_orderly (fun _ => rfl) ?_ (fun _ => halone) hbuffer
        intro entry hentry
        exact hentry.elim
    | _ =>
        rcases hx with ⟨hi, hx⟩
        subst hi hx
        refine h.step_orderly (fun _ => rfl) ?_ ?_ hbuffer
        · intro entry hentry
          exact hentry.elim
        · intro hconsume
          cases hconsume

/-!
# A ring buffer without cells
-/

structure Stuck (s : Running τ) : Prop where
  buffer : s.buffer.Barren
  queued_eq : s.queued = []

theorem Stuck.step_stuck (h : Stuck s) {a : Action τ}
    (hstep : step moved s a = some s') : Stuck s' := by
  rcases step_cases hstep with hquiet | haccess
  · rcases hquiet with ⟨hbuffer, hqueued⟩
    constructor
    · rw [hbuffer]
      exact h.buffer
    · rw [hqueued]
      exact h.queued_eq
  · rcases haccess with ⟨i, x, _, hbuffer, hqueued⟩
    constructor
    · exact h.buffer.step_barren hbuffer
    · rw [hqueued]
      cases a with
      | swapToList => exact h.buffer.accepted_eq
      | swapToVector => exact h.buffer.accepted_eq
      | _ => exact h.queued_eq

/-!
# Exactly once
-/

theorem obtained_perm (b : Shared Caller (Task τ)) :
    List.Perm (b.obtained.map Prod.snd)
      (b.obtainedBy Caller.worker ++ b.obtainedBy Caller.other) := by
  have hsplit : (fun x : Caller × Task τ => decide (x.fst = Caller.other)) =
      fun x => !decide (x.fst = Caller.worker) := by
    funext x
    rcases x with ⟨i, task⟩
    cases i with
    | worker => rfl
    | other => rfl
  unfold Shared.obtainedBy
  rw [<- List.map_append, hsplit]
  exact ((List.filter_append_perm _ b.obtained).map Prod.snd).symm

theorem Hand.taken_perm (h : Hand s) :
    List.Perm s.taken (s.buffer.obtained.map Prod.snd) := by
  unfold taken transferred
  rw [<- h.read_eq]
  exact (obtained_perm s.buffer).symm

theorem Hand.exactlyOnce (h : Hand s) (haccounted : s.buffer.Accounted)
    (hqueued : s.queued <+: s.buffer.accepted)
    (hcovers : s.buffer.consumer Caller.other = Consumer.drained ->
      s.queued.length <= (s.buffer.obtained.map Prod.snd).length) :
    ExactlyOnce s where
  subperm := by
    apply h.taken_perm.subperm.trans
    rw [haccounted.flow]
    exact (List.prefix_append _ _).sublist.subperm
  perm := by
    intro hsettled
    rw [haccounted.contents hsettled]
    exact h.taken_perm.append_right _
  remaining := by
    intro hsettled
    exact ⟨_, (haccounted.contents hsettled).symm⟩
  drained := by
    intro hsettled hdrained
    have hflow := haccounted.contents hsettled
    have hread : s.queued <+: s.buffer.obtained.map Prod.snd := by
      rw [hflow] at hqueued
      exact List.prefix_of_prefix_length_le hqueued (List.prefix_append _ _)
        (hcovers hdrained)
    rcases hread with ⟨more, hmore⟩
    refine ⟨more ++ s.buffer.ring.contents, ?_, List.suffix_append _ _⟩
    rw [hflow, <- hmore, List.append_assoc]

/--
In every run in which the worker's pop and the drains take alone, every task
that was queued is invoked or transferred exactly once or still queued.
-/
theorem exactlyOnce_of_takesAlone (moved : Task τ -> Task τ) (size : UInt64)
    (acts : List (Action τ)) (s : Running τ)
    (halone : StepFn.Meets (step moved) TakesAlone (start size) acts)
    (hrun : StepFn.run (step moved) (start size) acts = some s) :
    ExactlyOnce s := by
  have hhand : Hand s :=
    StepFn.run_invariant (fun _ _ _ h hstep => h.step_hand hstep)
      (start_hand size) hrun
  by_cases hsize : size.toNat <= 2 ^ 63
  · have hpres : forall (s : Running τ) a s', Orderly s.buffer s.queued ->
        s.TakesAlone a -> step moved s a = some s' ->
          Orderly s'.buffer s'.queued := by
      intro s a s' h hguard hstep
      exact h.running_step hguard hstep
    have horderly : Orderly s.buffer s.queued :=
      StepFn.run_invariant_of_meets hpres (start_orderly hsize) halone hrun
    apply hhand.exactlyOnce horderly.consuming.accounted
      horderly.queued_prefix
    intro hdrained
    have hcovers := horderly.covers
    unfold Spsc.Covers at hcovers
    simp only [Shared.focus, Shared.view, hdrained] at hcovers
    exact hcovers
  · have hstuck : Stuck s :=
      StepFn.run_invariant (fun _ _ _ h hstep => h.step_stuck hstep)
        ⟨Shared.start_barren _ size.toNat_lt (Nat.lt_of_not_le hsize), rfl⟩
        hrun
    apply hhand.exactlyOnce hstuck.buffer.accounted
    · rw [hstuck.queued_eq]
      exact List.nil_prefix
    · intro _
      rw [hstuck.queued_eq]
      exact Nat.zero_le _

def drainAfterPop : List (Action Nat) :=
  Action.enqueueTask 1 :: List.replicate 4 Action.enqueue ++
    Action.enqueueTaskMove 2 :: List.replicate 4 Action.enqueue ++
    List.replicate 5 Action.worker ++
    Action.swapToVector :: List.replicate 4 Action.drain

theorem exactlyOnce_of_takesAlone_drainAfterPop :
    exists s : Running Nat,
      StepFn.run (step fun _ => Task.empty) (start 4) drainAfterPop =
          some s ∧
        s.inHand = [Task.client 1] ∧ s.transferred = [Task.client 2] ∧
        ExactlyOnce s := by
  have hreached : exists s : Running Nat,
      StepFn.run (step fun _ => Task.empty) (start 4) drainAfterPop =
          some s ∧
        s.inHand = [Task.client 1] ∧ s.transferred = [Task.client 2] :=
    ⟨_, rfl, rfl, rfl⟩
  have hother : forall (pc : Caller -> Consumer (Task Nat)),
      ¬ Shared.Releasing (pc Caller.other) ->
        forall j, j ≠ Caller.worker -> ¬ Shared.Releasing (pc j) := by
    intro pc h j hj
    cases j with
    | worker => exact absurd rfl hj
    | other => exact h
  have hworker : forall (pc : Caller -> Consumer (Task Nat)),
      ¬ Shared.Releasing (pc Caller.worker) ->
        forall j, j ≠ Caller.other -> ¬ Shared.Releasing (pc j) := by
    intro pc h j hj
    cases j with
    | worker => exact h
    | other => exact absurd rfl hj
  have halone : StepFn.Meets (step fun _ => Task.empty) TakesAlone (start 4)
      drainAfterPop :=
    ⟨trivial, trivial, trivial, trivial, trivial, trivial, trivial, trivial,
      trivial, trivial, trivial, trivial, trivial,
      ⟨rfl, by decide, hother _ id⟩, trivial, trivial, trivial,
      fun _ => ⟨by decide, by decide, hworker _ id⟩, trivial, trivial, trivial⟩
  rcases hreached with ⟨s, hrun, hhand, htransferred⟩
  exact ⟨s, hrun, hhand, htransferred,
    exactlyOnce_of_takesAlone (fun _ => Task.empty) 4 drainAfterPop s halone
      hrun⟩

/--
Between the worker's loads and its read a drain finds the same tail; the worker
moves the first task out and the drain copies what is left of it; when the drain
has stored `tail_`, the worker sets it back.
-/
def drainDuringPop : List (Action Nat) :=
  Action.enqueueTask 1 :: List.replicate 4 Action.enqueue ++
    Action.enqueueTask 2 :: List.replicate 4 Action.enqueue ++
    List.replicate 3 Action.worker ++
    Action.swapToList :: List.replicate 2 Action.drain ++
    Action.worker :: List.replicate 3 Action.drain ++
    List.replicate 3 Action.worker

/--
The first task is invoked and an empty function is transferred in its place,
and the queue is left with another empty function in it.
-/
theorem exactlyOnce_fails_drainDuringPop :
    exists s : Running Nat,
      StepFn.run (step fun _ => Task.empty) (start 4) drainDuringPop =
          some s ∧
        s.buffer.accepted = [Task.client 1, Task.client 2] ∧
        s.invoked = [Task.client 1] ∧
        s.transferred = [Task.empty, Task.client 2] ∧
        s.buffer.ring.contents = [Task.empty] ∧ s.buffer.Settled ∧
        ¬ ExactlyOnce s := by
  have hreached : exists s : Running Nat,
      StepFn.run (step fun _ => Task.empty) (start 4) drainDuringPop =
          some s ∧
        s.buffer.accepted = [Task.client 1, Task.client 2] ∧
        s.invoked = [Task.client 1] ∧
        s.transferred = [Task.empty, Task.client 2] ∧
        s.buffer.ring.contents = [Task.empty] ∧ s.inHand = [] ∧
        s.buffer.consumer Caller.worker =
          Consumer.popped (some (Task.client 1)) ∧
        s.buffer.consumer Caller.other = Consumer.drained :=
    ⟨_, rfl, rfl, rfl, rfl, rfl, rfl, rfl, rfl⟩
  rcases hreached with ⟨s, hrun, haccepted, hinvoked, htransferred, hcontents,
    hhand, hworker, hother⟩
  have hsettled : s.buffer.Settled := by
    intro i
    cases i with
    | worker =>
        rw [hworker]
        exact id
    | other =>
        rw [hother]
        exact id
  refine ⟨s, hrun, haccepted, hinvoked, htransferred, hcontents, hsettled, ?_⟩
  intro h
  have hlength := h.subperm.length_le
  unfold taken at hlength
  rw [haccepted, hinvoked, htransferred, hhand] at hlength
  exact absurd hlength (by decide)

end Running

end Lfthread

end MoonNet
