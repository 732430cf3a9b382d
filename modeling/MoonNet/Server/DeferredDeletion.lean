import MoonNet.Foundation.History
import MoonNet.Server.Handlers

/-!
# Deferred deletion

An event that is queued for deletion has lost its callbacks, so it can neither
call the user nor be queued again while the rest of the batch may still dispatch
it.  Either it is off the loop already, or it is a connection whose destructor
takes it off the loop.  The events in `delque_` are deleted between two batches,
when no handler is running.
-/

namespace MoonNet

open Foundation
open Kernel

namespace Serverloop

variable {tcp : TcpCallbacks} {s s' : Serverloop}

/-!
# Traces
-/

theorem queuedIn_snoc (past : List Entry) (e : Entry) :
    queuedIn (past ++ [e]) = queuedIn past ++ e.queued?.toList := by
  unfold queuedIn
  rw [List.filterMap_append]
  cases e <;> rfl

theorem destroyedIn_snoc (past : List Entry) (e : Entry) :
    destroyedIn (past ++ [e]) = destroyedIn past ++ e.destroyed?.toList := by
  unfold destroyedIn
  rw [List.filterMap_append]
  cases e <;> rfl

theorem flushed_snoc (past : List Entry) (e : Entry) :
    flushed (past ++ [e]) =
      match e with
      | Entry.waited => false
      | Entry.flush => true
      | _ => flushed past := by
  unfold flushed
  rw [List.foldl_append]
  rfl

theorem queuedIn_nodup {trace : List Entry}
    (h : History.Lawful Permitted trace) : (queuedIn trace).Nodup := by
  refine History.Lawful.nodup ?_ h
  intro past e x hx hpermitted
  cases e with
  | queued y =>
      cases hx
      exact hpermitted.left
  | _ => cases hx

/-!
# The invariant
-/

def Phase.InBatch : Phase -> Prop
  | dispatching _ => True
  | _ => False

def awaiting (phase : Phase) (delque : List Nat) : List Nat :=
  match phase with
  | Phase.waiting | Phase.stopped => []
  | Phase.dispatching _ => delque
  | Phase.flushing rest => rest

theorem not_inBatch_of_idle {phase : Phase}
    (h : phase = Phase.waiting ∨ phase = Phase.stopped) : ¬ phase.InBatch := by
  intro hbatch
  rcases h with hphase | hphase
  · rw [hphase] at hbatch
    exact hbatch
  · rw [hphase] at hbatch
    exact hbatch

theorem awaiting_snoc {phase : Phase} (h : phase.InBatch) (delque : List Nat)
    (x : Nat) :
    awaiting phase (delque ++ [x]) = awaiting phase delque ++ [x] := by
  cases phase with
  | dispatching rest => rfl
  | _ => exact False.elim h

def Detached (evlist : List Nat) (x : Nat) (o : BaseEvent) : Prop :=
  x ∉ evlist ∧ o.registered = false

theorem Detached.mono {evlist evlist' : List Nat} {x : Nat} {o : BaseEvent}
    (h : Detached evlist x o) (hlist : forall y, y ∈ evlist' -> y ∈ evlist) :
    Detached evlist' x o :=
  ⟨fun hmem => h.left (hlist x hmem), h.right⟩

theorem mem_of_mem_snoc {xs : List Nat} {x y : Nat} (h : y ∈ xs ++ [x])
    (hne : y ≠ x) : y ∈ xs := by
  rcases List.mem_append.mp h with hold | hlast
  · exact hold
  · exact absurd (List.mem_singleton.mp hlast) hne

theorem Detached.snoc {evlist : List Nat} {x y : Nat} {o : BaseEvent}
    (h : Detached evlist x o) (hne : x ≠ y) : Detached (evlist ++ [y]) x o :=
  ⟨fun hmem => h.left (mem_of_mem_snoc hmem hne), h.right⟩

structure Objects (heap : Nat -> Option BaseEvent) (next : Nat)
    (evlist : List Nat) (trace : List Entry) : Prop where
  queued : forall x, x ∈ queuedIn trace ->
    exists o, heap x = some o ∧ o.Silent ∧ (Detached evlist x o ∨ o.Open)
  listening : forall x o, heap x = some o -> x ∉ queuedIn trace ->
    o.Listening
  destroyed : forall x, x ∈ destroyedIn trace ->
    exists o, heap x = some o ∧ Detached evlist x o
  fresh : forall x, next <= x -> heap x = none

def Frame.User : Frame -> Prop
  | user _ => True
  | _ => False

/-- `tcp_eventcb_` is about to close a connection. -/
def Frame.Ending : Frame -> Prop
  | tcpEventcb _ => True
  | _ => False

/-- Not a `del_listen` that waits for the report of the last bytes. -/
def Frame.Plain : Frame -> Prop
  | delev _ | destroy _ => False
  | _ => True

def Above (f g : Frame) : Prop :=
  f.User ∨ ¬ g.Ending

structure Activations (heap : Nat -> Option BaseEvent) (stack : List Frame)
    (trace : List Entry) : Prop where
  order : stack.Pairwise Above
  plain : forall f, f ∈ stack -> f.Plain
  endings : forall x, Frame.tcpEventcb x ∈ stack ->
    x ∉ queuedIn trace ∧ exists c, heap x = some (BaseEvent.bfevent c)

/-- What each phase of `loop` may rely on. -/
structure InPhase (phase : Phase) (stack : List Frame) (delque : List Nat)
    (trace : List Entry) : Prop where
  rested : ¬ phase.InBatch -> stack = []
  unflushed : phase.InBatch -> flushed trace = false
  flushing : forall rest, phase = Phase.flushing rest -> flushed trace = true
  batch : forall rest, phase = Phase.dispatching rest ->
    forall e, e ∈ rest -> e.fst ∉ destroyedIn trace
  emptied : phase = Phase.waiting ∨ phase = Phase.stopped -> delque = []

structure Inv (s : Serverloop) : Prop where
  lawful : History.Lawful Permitted s.trace
  objects : Objects s.heap s.next s.evlist s.trace
  activations : Activations s.heap s.stack s.trace
  phase : InPhase s.phase s.stack s.delque s.trace
  ledger : queuedIn s.trace = destroyedIn s.trace ++ awaiting s.phase s.delque

theorem start_inv : Inv start where
  lawful := History.lawful_nil
  objects := {
    queued := nofun
    listening := by
      intro x o ho _
      by_cases hx : x = 0
      · subst hx
        cases ho
        trivial
      · simp [start, Function.update_of_ne hx] at ho
    destroyed := nofun
    fresh := by
      intro x hx
      have hne : x ≠ 0 := Nat.one_le_iff_ne_zero.mp hx
      simp [start, Function.update_of_ne hne] }
  activations := {
    order := List.Pairwise.nil
    plain := nofun
    endings := nofun }
  phase := {
    rested := fun _ => rfl
    unflushed := fun hbatch => hbatch.elim
    flushing := nofun
    batch := nofun
    emptied := fun _ => rfl }
  ledger := rfl

/-!
# What the pieces of a step keep
-/

namespace Objects

variable {heap : Nat -> Option BaseEvent} {next x : Nat} {evlist : List Nat}
variable {trace : List Entry} {o o' : BaseEvent}

theorem ne_of_fresh (h : Objects heap next evlist trace)
    (ho : heap x = some o) {y : Nat} (hy : next <= y) : y ≠ x := by
  intro heq
  have hfresh := h.fresh y hy
  rw [heq, ho] at hfresh
  cases hfresh

theorem put (h : Objects heap next evlist trace) (ho : heap x = some o)
    (hkeeps : o.Keeps o') :
    Objects (Function.update heap x (some o')) next evlist trace := by
  constructor
  case queued =>
    intro y hmem
    rcases h.queued y hmem with ⟨p, hp, hsilent, hsettled⟩
    by_cases hy : y = x
    · subst hy
      rw [ho] at hp
      cases hp
      refine ⟨o', Function.update_self _ _ _, hkeeps.silent hsilent, ?_⟩
      rcases hsettled with hdetached | hopen
      · exact Or.inl ⟨hdetached.left, hkeeps.unregistered hdetached.right⟩
      · exact Or.inr (hkeeps.opened hopen)
    · rw [Function.update_of_ne hy]
      exact ⟨p, hp, hsilent, hsettled⟩
  case listening =>
    intro y p hp hnot
    by_cases hy : y = x
    · subst hy
      rw [Function.update_self] at hp
      cases hp
      exact hkeeps.listening (h.listening y o ho hnot)
    · rw [Function.update_of_ne hy] at hp
      exact h.listening y p hp hnot
  case destroyed =>
    intro y hmem
    rcases h.destroyed y hmem with ⟨p, hp, hdetached⟩
    by_cases hy : y = x
    · subst hy
      rw [ho] at hp
      cases hp
      exact ⟨o', Function.update_self _ _ _, hdetached.left,
        hkeeps.unregistered hdetached.right⟩
    · rw [Function.update_of_ne hy]
      exact ⟨p, hp, hdetached⟩
  case fresh =>
    intro y hy
    rw [Function.update_of_ne (h.ne_of_fresh ho hy)]
    exact h.fresh y hy

theorem create (h : Objects heap next evlist trace) (ho : o.Listening) :
    Objects (Function.update heap next (some o)) (next + 1)
      (evlist ++ [next]) trace := by
  have hnew : heap next = none := h.fresh next (Nat.le_refl next)
  constructor
  case queued =>
    intro y hmem
    rcases h.queued y hmem with ⟨p, hp, hsilent, hsettled⟩
    have hy : y ≠ next := by
      intro heq
      rw [heq, hnew] at hp
      cases hp
    rw [Function.update_of_ne hy]
    exact ⟨p, hp, hsilent, hsettled.imp_left fun hdetached =>
      hdetached.snoc hy⟩
  case listening =>
    intro y p hp hnot
    by_cases hy : y = next
    · subst hy
      rw [Function.update_self] at hp
      cases hp
      exact ho
    · rw [Function.update_of_ne hy] at hp
      exact h.listening y p hp hnot
  case destroyed =>
    intro y hmem
    rcases h.destroyed y hmem with ⟨p, hp, hdetached⟩
    have hy : y ≠ next := by
      intro heq
      rw [heq, hnew] at hp
      cases hp
    rw [Function.update_of_ne hy]
    exact ⟨p, hp, hdetached.snoc hy⟩
  case fresh =>
    intro y hy
    have hne : y ≠ next := Nat.ne_of_gt hy
    rw [Function.update_of_ne hne]
    exact h.fresh y (Nat.le_of_succ_le hy)

theorem record (h : Objects heap next evlist trace) {e : Entry}
    (hqueued : e.queued? = none) (hdestroyed : e.destroyed? = none) :
    Objects heap next evlist (trace ++ [e]) := by
  have hq : queuedIn (trace ++ [e]) = queuedIn trace := by
    rw [queuedIn_snoc, hqueued]
    exact List.append_nil _
  have hd : destroyedIn (trace ++ [e]) = destroyedIn trace := by
    rw [destroyedIn_snoc, hdestroyed]
    exact List.append_nil _
  constructor
  case queued =>
    rw [hq]
    exact h.queued
  case listening =>
    rw [hq]
    exact h.listening
  case destroyed =>
    rw [hd]
    exact h.destroyed
  case fresh =>
    exact h.fresh

theorem queue (h : Objects heap next evlist trace)
    {heap' : Nat -> Option BaseEvent} {evlist' : List Nat}
    (ho : heap x = some o) (hself : heap' x = some o')
    (hother : forall y, y ≠ x -> heap' y = heap y)
    (hlist : forall y, y ∈ evlist' -> y ∈ evlist)
    (hsilent : o'.Silent) (hsettled : Detached evlist' x o' ∨ o'.Open)
    (halive : x ∉ destroyedIn trace) :
    Objects heap' next evlist' (trace ++ [Entry.queued x]) := by
  have hq : queuedIn (trace ++ [Entry.queued x]) = queuedIn trace ++ [x] :=
    queuedIn_snoc trace (Entry.queued x)
  have hd : destroyedIn (trace ++ [Entry.queued x]) = destroyedIn trace := by
    rw [destroyedIn_snoc]
    exact List.append_nil _
  constructor
  case queued =>
    intro y hmem
    by_cases hy : y = x
    · subst hy
      exact ⟨o', hself, hsilent, hsettled⟩
    · rw [hq] at hmem
      rcases h.queued y (mem_of_mem_snoc hmem hy) with ⟨p, hp, hpsilent, hpsettled⟩
      rw [hother y hy]
      exact ⟨p, hp, hpsilent, hpsettled.imp_left fun hdetached =>
        hdetached.mono hlist⟩
  case listening =>
    intro y p hp hynot
    rw [hq] at hynot
    have hy : y ≠ x := by
      intro heq
      exact hynot (List.mem_append_right _ (List.mem_singleton.mpr heq))
    rw [hother y hy] at hp
    exact h.listening y p hp
      fun hmem => hynot (List.mem_append_left _ hmem)
  case destroyed =>
    rw [hd]
    intro y hmem
    rcases h.destroyed y hmem with ⟨p, hp, hdetached⟩
    have hy : y ≠ x := fun heq => halive (heq ▸ hmem)
    rw [hother y hy]
    exact ⟨p, hp, hdetached.mono hlist⟩
  case fresh =>
    intro y hy
    rw [hother y (h.ne_of_fresh ho hy)]
    exact h.fresh y hy

theorem destroy (h : Objects heap next evlist trace)
    {heap' : Nat -> Option BaseEvent} {evlist' : List Nat} {listed : Bool}
    (ho : heap x = some o) (hself : heap' x = some o')
    (hother : forall y, y ≠ x -> heap' y = heap y)
    (hlist : forall y, y ∈ evlist' -> y ∈ evlist)
    (hsilent : o'.Silent) (hdetached : Detached evlist' x o')
    (hqueued : x ∈ queuedIn trace) :
    Objects heap' next evlist' (trace ++ [Entry.destroyed x listed]) := by
  have hq : queuedIn (trace ++ [Entry.destroyed x listed]) =
      queuedIn trace := by
    rw [queuedIn_snoc]
    exact List.append_nil _
  have hd : destroyedIn (trace ++ [Entry.destroyed x listed]) =
      destroyedIn trace ++ [x] :=
    destroyedIn_snoc trace (Entry.destroyed x listed)
  constructor
  case queued =>
    rw [hq]
    intro y hmem
    by_cases hy : y = x
    · subst hy
      exact ⟨o', hself, hsilent, Or.inl hdetached⟩
    · rcases h.queued y hmem with ⟨p, hp, hpsilent, hpsettled⟩
      rw [hother y hy]
      exact ⟨p, hp, hpsilent, hpsettled.imp_left fun hdetached =>
        hdetached.mono hlist⟩
  case listening =>
    rw [hq]
    intro y p hp hynot
    have hy : y ≠ x := fun heq => hynot (heq ▸ hqueued)
    rw [hother y hy] at hp
    exact h.listening y p hp hynot
  case destroyed =>
    rw [hd]
    intro y hmem
    by_cases hy : y = x
    · subst hy
      exact ⟨o', hself, hdetached⟩
    · rcases h.destroyed y (mem_of_mem_snoc hmem hy) with
        ⟨p, hp, hgone⟩
      rw [hother y hy]
      exact ⟨p, hp, hgone.mono hlist⟩
  case fresh =>
    intro y hy
    rw [hother y (h.ne_of_fresh ho hy)]
    exact h.fresh y hy

end Objects

def Clear (stack : List Frame) : Prop :=
  forall f, f ∈ stack -> ¬ f.Ending

namespace Activations

variable {heap heap' : Nat -> Option BaseEvent} {stack : List Frame}
variable {trace : List Entry} {f : Frame} {x : Nat}

theorem pop (h : Activations heap (f :: stack) trace) :
    Activations heap stack trace where
  order := (List.pairwise_cons.mp h.order).right
  plain := fun g hmem => h.plain g (List.mem_cons_of_mem f hmem)
  endings := fun y hmem => h.endings y (List.mem_cons_of_mem f hmem)

theorem clear (h : Activations heap (f :: stack) trace) (huser : ¬ f.User) :
    Clear stack := by
  intro g hmem
  rcases (List.pairwise_cons.mp h.order).left g hmem with hf | hg
  · exact absurd hf huser
  · exact hg

theorem push (h : Activations heap stack trace) (hplain : f.Plain)
    (hending : ¬ f.Ending) (hclear : f.User ∨ Clear stack) :
    Activations heap (f :: stack) trace where
  order := by
    refine List.pairwise_cons.mpr ⟨?_, h.order⟩
    intro g hmem
    rcases hclear with huser | hclear
    · exact Or.inl huser
    · exact Or.inr (hclear g hmem)
  plain := by
    intro g hmem
    rcases List.mem_cons.mp hmem with hg | hold
    · exact hg ▸ hplain
    · exact h.plain g hold
  endings := by
    intro y hmem
    rcases List.mem_cons.mp hmem with hg | hold
    · exact absurd (hg ▸ trivial) hending
    · exact h.endings y hold

theorem pushEnding (h : Activations heap stack trace) (hclear : Clear stack)
    (hnot : x ∉ queuedIn trace)
    (hconn : exists c, heap x = some (BaseEvent.bfevent c)) :
    Activations heap (Frame.tcpEventcb x :: stack) trace where
  order := List.pairwise_cons.mpr
    ⟨fun g hmem => Or.inr (hclear g hmem), h.order⟩
  plain := by
    intro g hmem
    rcases List.mem_cons.mp hmem with hg | hold
    · exact hg ▸ trivial
    · exact h.plain g hold
  endings := by
    intro y hmem
    rcases List.mem_cons.mp hmem with hg | hold
    · cases hg
      exact ⟨hnot, hconn⟩
    · exact h.endings y hold

theorem frame (h : Activations heap stack trace) {trace' : List Entry}
    (hqueued : forall y, Frame.tcpEventcb y ∈ stack ->
      y ∈ queuedIn trace' -> y ∈ queuedIn trace)
    (hconn : forall y c, Frame.tcpEventcb y ∈ stack ->
      heap y = some (BaseEvent.bfevent c) ->
        exists c', heap' y = some (BaseEvent.bfevent c')) :
    Activations heap' stack trace' where
  order := h.order
  plain := h.plain
  endings := by
    intro y hmem
    rcases h.endings y hmem with ⟨hnot, c, hc⟩
    exact ⟨fun hnew => hnot (hqueued y hmem hnew), hconn y c hmem hc⟩

end Activations

theorem delListen_eq {x : Nat} {o : BaseEvent} (h : o.listens = true) :
    s.delListen x o = { s.put x o.delListen with
      evlist := s.evlist.filter fun y => y != x } := by
  unfold delListen
  dsimp only
  rw [if_pos h]
  rfl

theorem not_mem_filter_ne (x : Nat) (list : List Nat) :
    x ∉ list.filter fun y => y != x := by
  intro hmem
  have hne := (List.mem_filter.mp hmem).right
  simp at hne

namespace Inv

theorem inBatch (h : Inv s) {f : Frame} {rest : List Frame}
    (hstack : s.stack = f :: rest) : s.phase.InBatch := by
  by_contra hnot
  have hempty := h.phase.rested hnot
  rw [hstack] at hempty
  cases hempty

theorem destroyed_queued (h : Inv s) {x : Nat}
    (hmem : x ∈ destroyedIn s.trace) : x ∈ queuedIn s.trace := by
  rw [h.ledger]
  exact List.mem_append_left _ hmem

theorem not_queued (h : Inv s) {x : Nat} {o : BaseEvent}
    (ho : s.heap x = some o) (hloud : ¬ o.Silent) :
    x ∉ queuedIn s.trace := by
  intro hmem
  rcases h.objects.queued x hmem with ⟨o', ho', hsilent, _⟩
  rw [ho] at ho'
  cases ho'
  exact hloud hsilent

theorem pop (h : Inv s) {f : Frame} {rest : List Frame}
    (hstack : s.stack = f :: rest) : Inv { s with stack := rest } where
  lawful := h.lawful
  objects := h.objects
  activations := by
    have hactivations := h.activations
    rw [hstack] at hactivations
    exact hactivations.pop
  phase := {
    h.phase with
    rested := fun hnot => absurd (h.inBatch hstack) hnot }
  ledger := h.ledger

theorem push (h : Inv s) (hbatch : s.phase.InBatch) {f : Frame}
    (hplain : f.Plain) (hending : ¬ f.Ending)
    (hclear : f.User ∨ Clear s.stack) : Inv (s.push f) where
  lawful := h.lawful
  objects := h.objects
  activations := h.activations.push hplain hending hclear
  phase := { h.phase with rested := fun hnot => absurd hbatch hnot }
  ledger := h.ledger

theorem advance (h : Inv s) {e : Entry} {phase : Phase} {delque : List Nat}
    (hqueued : e.queued? = none) (hdestroyed : e.destroyed? = none)
    (hpermitted : Permitted s.trace e)
    (hphase : InPhase phase s.stack delque (s.trace ++ [e]))
    (hawaiting : awaiting phase delque = awaiting s.phase s.delque) :
    Inv { s.record e with phase := phase, delque := delque } := by
  have hq : queuedIn (s.trace ++ [e]) = queuedIn s.trace := by
    rw [queuedIn_snoc, hqueued]
    exact List.append_nil _
  have hd : destroyedIn (s.trace ++ [e]) = destroyedIn s.trace := by
    rw [destroyedIn_snoc, hdestroyed]
    exact List.append_nil _
  constructor
  case lawful =>
    exact h.lawful.snoc hpermitted
  case objects =>
    exact h.objects.record hqueued hdestroyed
  case activations =>
    refine h.activations.frame ?_ fun y c _ hc => ⟨c, hc⟩
    intro y _ hmem
    exact hq ▸ hmem
  case phase =>
    exact hphase
  case ledger =>
    show queuedIn (s.trace ++ [e]) =
      destroyedIn (s.trace ++ [e]) ++ awaiting phase delque
    rw [hq, hd, hawaiting]
    exact h.ledger

theorem called (h : Inv s) (hbatch : s.phase.InBatch) {x : Nat}
    (hx : x ∉ queuedIn s.trace) : Inv (s.record (Entry.called x)) := by
  have hd : destroyedIn (s.trace ++ [Entry.called x]) =
      destroyedIn s.trace := by
    rw [destroyedIn_snoc]
    exact List.append_nil _
  have hf : flushed (s.trace ++ [Entry.called x]) = flushed s.trace :=
    flushed_snoc s.trace (Entry.called x)
  have hphase : InPhase s.phase s.stack s.delque
      (s.trace ++ [Entry.called x]) := by
    constructor
    case rested =>
      exact h.phase.rested
    case unflushed =>
      rw [hf]
      exact h.phase.unflushed
    case flushing =>
      rw [hf]
      exact h.phase.flushing
    case batch =>
      rw [hd]
      exact h.phase.batch
    case emptied =>
      exact h.phase.emptied
  exact h.advance rfl rfl ⟨hx, h.phase.unflushed hbatch⟩ hphase rfl

theorem call (h : Inv s) (hbatch : s.phase.InBatch) {x : Nat}
    (hx : x ∉ queuedIn s.trace) : Inv (s.call x) :=
  (h.called hbatch hx).push hbatch trivial id (Or.inl trivial)

theorem callIf (h : Inv s) (hbatch : s.phase.InBatch) {cb : Bool} {x : Nat}
    (hx : cb = true -> x ∉ queuedIn s.trace) : Inv (s.callIf cb x) := by
  unfold Serverloop.callIf
  split
  · rename_i hcb
    exact h.call hbatch (hx hcb)
  · exact h

theorem put (h : Inv s) {x : Nat} {o o' : BaseEvent}
    (ho : s.heap x = some o) (hkeeps : o.Keeps o') : Inv (s.put x o') where
  lawful := h.lawful
  objects := h.objects.put ho hkeeps
  activations := by
    refine h.activations.frame (fun _ _ hmem => hmem) ?_
    intro y c _ hc
    show exists c', Function.update s.heap x (some o') y = _
    by_cases hy : y = x
    · subst hy
      rw [ho] at hc
      rcases hkeeps.conn ⟨c, Option.some.inj hc⟩ with ⟨c', hc'⟩
      exact ⟨c', by rw [Function.update_self, hc']⟩
    · exact ⟨c, by rw [Function.update_of_ne hy, hc]⟩
  phase := h.phase
  ledger := h.ledger

theorem create (h : Inv s) {o : BaseEvent} (ho : o.Listening) :
    Inv (s.create o) where
  lawful := h.lawful
  objects := h.objects.create ho
  activations := by
    refine h.activations.frame (fun _ _ hmem => hmem) ?_
    intro y c _ hc
    have hy : y ≠ s.next := by
      intro heq
      rw [heq, h.objects.fresh s.next (Nat.le_refl _)] at hc
      cases hc
    show exists c', Function.update s.heap s.next (some o) y = _
    exact ⟨c, by rw [Function.update_of_ne hy, hc]⟩
  phase := h.phase
  ledger := h.ledger

theorem withEvents (h : Inv s) (events : List Nat) :
    Inv { s with events := events } where
  lawful := h.lawful
  objects := h.objects
  activations := h.activations
  phase := h.phase
  ledger := h.ledger

theorem queue (h : Inv s) (hbatch : s.phase.InBatch) {x : Nat}
    {o o' : BaseEvent} {heap' : Nat -> Option BaseEvent}
    {evlist' events' : List Nat}
    (ho : s.heap x = some o) (hself : heap' x = some o')
    (hother : forall y, y ≠ x -> heap' y = s.heap y)
    (hlist : forall y, y ∈ evlist' -> y ∈ s.evlist)
    (hsilent : o'.Silent) (hsettled : Detached evlist' x o' ∨ o'.Open)
    (hnot : x ∉ queuedIn s.trace)
    (htcp : Frame.tcpEventcb x ∉ s.stack) :
    Inv { s with
      heap := heap'
      evlist := evlist'
      events := events'
      delque := s.delque ++ [x]
      trace := s.trace ++ [Entry.queued x] } := by
  have halive : x ∉ destroyedIn s.trace :=
    fun hmem => hnot (h.destroyed_queued hmem)
  have hq : queuedIn (s.trace ++ [Entry.queued x]) =
      queuedIn s.trace ++ [x] :=
    queuedIn_snoc s.trace (Entry.queued x)
  have hd : destroyedIn (s.trace ++ [Entry.queued x]) =
      destroyedIn s.trace := by
    rw [destroyedIn_snoc]
    exact List.append_nil _
  have hf : flushed (s.trace ++ [Entry.queued x]) = flushed s.trace :=
    flushed_snoc s.trace (Entry.queued x)
  have hunflushed := h.phase.unflushed hbatch
  constructor
  case lawful =>
    exact h.lawful.snoc ⟨hnot, hunflushed⟩
  case objects =>
    exact h.objects.queue ho hself hother hlist hsilent hsettled halive
  case activations =>
    refine h.activations.frame ?_ ?_
    · intro y hmem hnew
      rw [hq] at hnew
      rcases List.mem_append.mp hnew with hold | hlast
      · exact hold
      · rw [List.mem_singleton.mp hlast] at hmem
        exact absurd hmem htcp
    · intro y c hmem hc
      have hy : y ≠ x := fun heq => htcp (heq ▸ hmem)
      exact ⟨c, (hother y hy).trans hc⟩
  case phase =>
    constructor
    case rested =>
      exact fun hrest => absurd hbatch hrest
    case unflushed =>
      rw [hf]
      exact h.phase.unflushed
    case flushing =>
      rw [hf]
      exact h.phase.flushing
    case batch =>
      rw [hd]
      exact h.phase.batch
    case emptied =>
      intro hidle
      exact absurd hbatch (not_inBatch_of_idle hidle)
  case ledger =>
    show queuedIn (s.trace ++ [Entry.queued x]) =
      destroyedIn (s.trace ++ [Entry.queued x]) ++
        awaiting s.phase (s.delque ++ [x])
    rw [hq, hd, awaiting_snoc hbatch, h.ledger, List.append_assoc]

theorem handleClose (h : Inv s) (hbatch : s.phase.InBatch) {x : Nat}
    {o : BaseEvent} (ho : s.heap x = some o)
    (hsettled : Detached s.evlist x o ∨ o.Open)
    (hnot : x ∉ queuedIn s.trace)
    (htcp : Frame.tcpEventcb x ∉ s.stack) : Inv (s.handleClose x o) := by
  refine h.queue hbatch ho (Function.update_self _ _ _)
    (fun y hy => Function.update_of_ne hy _ _) (fun _ hmem => hmem)
    o.disableCb_silent ?_ hnot htcp
  rcases hsettled with ⟨hlist, hnone⟩ | hopen
  · exact Or.inl ⟨hlist, o.disableCb_registered.trans hnone⟩
  · exact Or.inr (BaseEvent.disableCb_open hopen)

theorem finishDelev (h : Inv s) (hbatch : s.phase.InBatch) {x : Nat}
    {o : BaseEvent} (ho : s.heap x = some o)
    (hnot : x ∉ queuedIn s.trace)
    (htcp : Frame.tcpEventcb x ∉ s.stack) : Inv (s.finishDelev x o) := by
  have hlistens : o.listens = true :=
    (h.objects.listening x o ho hnot).listens
  unfold Serverloop.finishDelev
  rw [delListen_eq hlistens]
  refine h.queue hbatch ho (Function.update_self _ _ _) ?_ ?_
    o.delListen.disableCb_silent ?_ hnot htcp
  · intro y hy
    show Function.update (Function.update s.heap x _) x _ y = s.heap y
    rw [Function.update_of_ne hy, Function.update_of_ne hy]
  · exact fun y hmem => List.mem_of_mem_filter hmem
  · exact Or.inl ⟨not_mem_filter_ne x s.evlist,
      o.delListen.disableCb_registered.trans
        (BaseEvent.delListen_registered hlistens)⟩

theorem callback (h : Inv s) {x : Nat} {o : BaseEvent}
    (ho : s.heap x = some o) {cb : Bool} (hsilent : o.Silent -> cb = false) :
    cb = true -> x ∉ queuedIn s.trace := by
  intro hcb
  refine h.not_queued ho fun hs => ?_
  rw [hsilent hs] at hcb
  cases hcb

theorem pushEnding (h : Inv s) (hbatch : s.phase.InBatch)
    (hclear : Clear s.stack) {x : Nat} {c : Conn}
    (hc : s.heap x = some (BaseEvent.bfevent c))
    (hnot : x ∉ queuedIn s.trace) :
    Inv (s.push (Frame.tcpEventcb x)) where
  lawful := h.lawful
  objects := h.objects
  activations := h.activations.pushEnding hclear hnot ⟨c, hc⟩
  phase := { h.phase with rested := fun hrest => absurd hbatch hrest }
  ledger := h.ledger

end Inv

theorem Clear.push {stack : List Frame} (h : Clear stack) {f : Frame}
    (hending : ¬ f.Ending) : Clear (f :: stack) := by
  intro g hmem
  rcases List.mem_cons.mp hmem with hg | hold
  · exact hg ▸ hending
  · exact h g hold

theorem Clear.not_mem {stack : List Frame} (h : Clear stack) (x : Nat) :
    Frame.tcpEventcb x ∉ stack :=
  fun hmem => h _ hmem trivial

/-!
# Handlers
-/

namespace Inv

variable {x : Nat} {c : Conn}

theorem eventcb (h : Inv s) (hbatch : s.phase.InBatch)
    (hclear : Clear s.stack)
    (hc : s.heap x = some (BaseEvent.bfevent c)) :
    Inv (s.eventcb tcp x c) := by
  unfold Serverloop.eventcb
  split
  · rename_i hset
    have hnot : x ∉ queuedIn s.trace :=
      h.callback hc (fun hsilent => hsilent.right.right) hset
    split
    · exact (h.pushEnding hbatch hclear hc hnot).call hbatch hnot
    · have hopen : (BaseEvent.bfevent c).Open :=
        h.objects.listening x _ hc hnot
      exact h.handleClose hbatch hc (Or.inr hopen) hnot (hclear.not_mem x)
  · exact h

theorem readReady (h : Inv s) (hbatch : s.phase.InBatch)
    (hclear : Clear s.stack) {o : BaseEvent} (ho : s.heap x = some o) :
    Inv (s.readReady x o) := by
  cases o with
  | event ev readcb writecb eventcb =>
      exact h.callIf hbatch (h.callback ho fun hsilent => hsilent.left)
  | _ => exact h.push hbatch trivial id (Or.inr hclear)

theorem writeReady (h : Inv s) (hbatch : s.phase.InBatch)
    (hclear : Clear s.stack) {o : BaseEvent} (ho : s.heap x = some o) :
    Inv (s.writeReady x o) := by
  cases o with
  | event ev readcb writecb eventcb =>
      exact h.callIf hbatch (h.callback ho fun hsilent => hsilent.right.left)
  | bfevent c => exact h.push hbatch trivial id (Or.inr hclear)
  | _ => exact h

theorem eventReady (h : Inv s) (hbatch : s.phase.InBatch)
    (hclear : Clear s.stack) {o : BaseEvent} (ho : s.heap x = some o) :
    Inv (s.eventReady tcp x o) := by
  cases o with
  | event ev readcb writecb eventcb =>
      exact h.callIf hbatch (h.callback ho fun hsilent => hsilent.right.right)
  | bfevent c => exact h.eventcb hbatch hclear ho
  | _ => exact h

theorem handleCb (h : Inv s) (hbatch : s.phase.InBatch)
    (hclear : Clear s.stack) {o : BaseEvent} (ho : s.heap x = some o)
    (revents : Mask) (stage : Stage) :
    Inv (s.handleCb tcp x revents stage o) := by
  unfold Serverloop.handleCb
  cases stage with
  | read =>
      have hpushed : Inv (s.push (Frame.handleCb x revents Stage.write)) :=
        h.push hbatch trivial id (Or.inr hclear)
      dsimp only
      split
      · exact hpushed.readReady hbatch (hclear.push id) ho
      · exact hpushed
  | write =>
      have hpushed : Inv (s.push (Frame.handleCb x revents Stage.event)) :=
        h.push hbatch trivial id (Or.inr hclear)
      dsimp only
      split
      · exact hpushed.writeReady hbatch (hclear.push id) ho
      · exact hpushed
  | event =>
      dsimp only
      split
      · exact h.eventReady hbatch hclear ho
      · exact h

theorem handleRead (h : Inv s) (hbatch : s.phase.InBatch)
    (hclear : Clear s.stack)
    (hc : s.heap x = some (BaseEvent.bfevent c)) {r : ReadResult}
    (hstep : s.handleRead tcp x c r = some s') : Inv s' := by
  unfold Serverloop.handleRead at hstep
  cases r with
  | received bytes =>
      cases bytes with
      | nil =>
          cases hstep
          exact h.eventcb hbatch hclear hc
      | cons b rest =>
          dsimp only at hstep
          split at hstep
          · rename_i hle
            cases hstep
            have hundisturbed : c.Undisturbed { c with
                bev.inbuff := c.bev.inbuff.receive (b :: rest) hle } :=
              { Conn.Undisturbed.refl c with }
            have hput := h.put hc (.of_undisturbed hundisturbed)
            have hpushed := hput.push hbatch (f := Frame.handleRead x)
              trivial id (Or.inr hclear)
            exact hpushed.callIf hbatch
              (h.callback hc fun hsilent => hsilent.left)
          · cases hstep
  | failed errno =>
      cases hstep
      split
      · exact h
      · exact h.eventcb hbatch hclear hc

theorem leaveWrite (h : Inv s)
    (hc : s.heap x = some (BaseEvent.bfevent c)) :
    Inv (s.leaveWrite x c) :=
  h.put hc (.of_undisturbed (Outbound.finishWrite_updates c).undisturbed)

theorem handleWrite (h : Inv s) (hbatch : s.phase.InBatch)
    (hclear : Clear s.stack)
    (hc : s.heap x = some (BaseEvent.bfevent c)) (r : WriteResult) :
    Inv (s.handleWrite tcp x c r) := by
  have hoffer := (Conn.Update.offer (c := c) [Region.backlog c.backlog]
    c.backlog r).undisturbed
  have hput := h.put hc (.of_undisturbed hoffer)
  have hoffered : forall o, (s.put x o).heap x = some o :=
    fun o => Function.update_self _ _ _
  unfold Serverloop.handleWrite
  cases r with
  | accepted n =>
      dsimp only
      split
      · apply Inv.callIf
        · apply Inv.push
          · exact hput.put (hoffered _)
              (.of_undisturbed (Conn.Update.retrieve n).undisturbed)
          · exact hbatch
          · trivial
          · exact id
          · exact Or.inr hclear
        · exact hbatch
        · exact h.callback hc fun hsilent => hsilent.right.left
      · exact hput.push hbatch trivial id (Or.inr hclear)
  | failed errno =>
      dsimp only
      split
      · exact hput.leaveWrite (hoffered _)
      · have hpushed := hput.push hbatch (f := Frame.leaveWrite x)
          trivial id (Or.inr hclear)
        exact hpushed.eventcb hbatch (hclear.push id) (hoffered _)

theorem handleTimeout (h : Inv s) (hbatch : s.phase.InBatch) {ev : Interest}
    {cb : Bool} (ho : s.heap x = some (BaseEvent.timerevent ev cb))
    (r : ReadResult) : Inv (s.handleTimeout x cb r) := by
  unfold Serverloop.handleTimeout
  cases r with
  | received bytes =>
      dsimp only
      split
      · exact h.callIf hbatch (h.callback ho id)
      · exact h
  | failed errno => exact h

theorem readSignals (h : Inv s) (hbatch : s.phase.InBatch)
    (hclear : Clear s.stack) {r : ReadResult}
    (hstep : s.readSignals x r = some s') : Inv s' := by
  unfold Serverloop.readSignals at hstep
  cases r with
  | received bytes =>
      dsimp only at hstep
      split at hstep
      · cases hstep
        exact h.push hbatch trivial id (Or.inr hclear)
      · cases hstep
  | failed errno =>
      cases hstep
      exact h

theorem handleReceive (h : Inv s) (hbatch : s.phase.InBatch)
    (hclear : Clear s.stack) {ev : Interest} {inbuff : ValidBuffer}
    {started receiveCb eventCb : Bool}
    (ho : s.heap x =
      some (BaseEvent.udpevent ev inbuff started receiveCb eventCb))
    {r : ReadResult}
    (hstep : s.handleReceive x ev inbuff started receiveCb eventCb r =
      some s') : Inv s' := by
  unfold Serverloop.handleReceive at hstep
  cases r with
  | received bytes =>
      cases bytes with
      | nil =>
          dsimp only at hstep
          split at hstep
          · cases hstep
          · cases hstep
            exact h
      | cons b rest =>
          dsimp only at hstep
          split at hstep
          · cases hstep
            have hput := h.put ho (.udpevent ev inbuff
              (inbuff.append (b :: rest)) started receiveCb eventCb)
            have hpushed := hput.push hbatch (f := Frame.handleReceive x)
              trivial id (Or.inr hclear)
            exact hpushed.callIf hbatch
              (h.callback ho fun hsilent => hsilent.left)
          · cases hstep
  | failed errno =>
      dsimp only at hstep
      split at hstep
      · cases hstep
        exact h
      · split at hstep
        · cases hstep
        · cases hstep
          exact h

theorem addev (h : Inv s) (e : Addition) : Inv (s.addev e) := by
  have hlistening : e.toBaseEvent.Listening := by
    cases e with
    | udpevent receiveCb => rfl
    | _ => trivial
  exact (h.create hlistening).withEvents _

theorem acceptcb (h : Inv s) : Inv (s.acceptcb tcp) := by
  have hlistening : forall ev, (BaseEvent.bfevent
      { bev := { Accept.newBfevent with
          ev := ev
          readcb := tcp.readcb
          writecb := tcp.writecb
          eventcb := true }
        wire := { accepted := [], offered := [] } }).Listening :=
    fun _ => rfl
  exact (h.create (hlistening _)).withEvents _

theorem handleAccept (h : Inv s) (hbatch : s.phase.InBatch)
    (hclear : Clear s.stack) (accepted : Bool) :
    Inv (s.handleAccept tcp accepted) := by
  unfold Serverloop.handleAccept
  split
  · exact h.acceptcb.push hbatch trivial id (Or.inr hclear)
  · exact h

theorem readEventfd (h : Inv s) {r : ReadResult}
    (hstep : s.readEventfd r = some s') : Inv s' := by
  have hshutdown : Inv { s with shutdown := true } := {
    lawful := h.lawful, objects := h.objects, activations := h.activations
    phase := h.phase, ledger := h.ledger }
  unfold Serverloop.readEventfd at hstep
  split at hstep
  · cases hstep
    exact hshutdown
  · cases hstep
    exact hshutdown
  · cases hstep
    exact hshutdown
  · cases hstep

/-!
# Steps
-/

theorem onConn {k : Conn -> Option Serverloop}
    (hk : forall c, s.heap x = some (BaseEvent.bfevent c) ->
      k c = some s' -> Inv s')
    (hstep : s.onConn x k = some s') : Inv s' := by
  unfold Serverloop.onConn at hstep
  split at hstep
  · rename_i c hc
    exact hk c hc hstep
  · cases hstep

theorem frameStep (h : Inv s) (hbatch : s.phase.InBatch)
    (hclear : Clear s.stack) {f : Frame} (hplain : f.Plain)
    (hending : forall x, f = Frame.tcpEventcb x ->
      x ∉ queuedIn s.trace ∧ exists c, s.heap x = some (BaseEvent.bfevent c))
    {a : Action} (hstep : s.frameStep tcp f a = some s') : Inv s' := by
  unfold Serverloop.frameStep at hstep
  split at hstep
  · rcases Option.map_eq_some_iff.mp hstep with ⟨o, ho, hs'⟩
    subst hs'
    exact h.handleCb hbatch hclear ho _ _
  · exact onConn (fun c hc hread => h.handleRead hbatch hclear hc hread) hstep
  · refine onConn (fun c hc hleave => ?_) hstep
    split at hleave
    · cases hleave
      exact h.leaveWrite hc
    · cases hleave
  · refine onConn (fun c hc hwrite => ?_) hstep
    split at hwrite
    · cases hwrite
      exact h.handleWrite hbatch hclear hc _
    · cases hwrite
  · refine onConn (fun c hc hleave => ?_) hstep
    cases hleave
    exact h.leaveWrite hc
  · split at hstep
    · rename_i ho
      cases hstep
      exact h.handleTimeout hbatch ho _
    · cases hstep
  · exact h.readSignals hbatch hclear hstep
  · cases hstep
    exact h
  · split at hstep
    · rename_i ho
      cases hstep
      apply Inv.callIf
      · exact h.push hbatch trivial id (Or.inr hclear)
      · exact hbatch
      · exact h.callback ho id
    · cases hstep
  · split at hstep
    · rename_i ho
      exact h.handleReceive hbatch hclear ho hstep
    · cases hstep
  · cases hstep
    exact h.handleAccept hbatch hclear _
  · exact h.readEventfd hstep
  · rename_i x
    rcases hending x rfl with ⟨hnot, c, hc⟩
    rw [hc] at hstep
    cases hstep
    have hopen : (BaseEvent.bfevent c).Open :=
      h.objects.listening x _ hc hnot
    exact h.handleClose hbatch hc (Or.inr hopen) hnot (hclear.not_mem x)
  · exact hplain.elim
  · exact hplain.elim
  · cases hstep

theorem delev (h : Inv s) (hbatch : s.phase.InBatch)
    (hdisciplined : Disciplined s (Action.delev x))
    (hstep : s.delev x = some s') : Inv s' := by
  rcases hdisciplined with ⟨hnot, htcp, hdrained⟩
  unfold Serverloop.delev at hstep
  split at hstep
  · cases hstep
  · cases hstep
  · cases hstep
  · rename_i o _ _ ho
    have hnone : o.reportsRest = false := by
      apply BaseEvent.reportsRest_of_drained
      intro c hc
      unfold Drained at hdrained
      rw [ho, hc] at hdrained
      exact hdrained
    rw [hnone] at hstep
    cases hstep
    exact h.finishDelev hbatch ho hnot htcp

theorem userStep (h : Inv s) {y : Nat} {rest : List Frame}
    (hstack : s.stack = Frame.user y :: rest) {a : Action}
    (hdisciplined : Disciplined s a)
    (hstep : s.userStep rest a = some s') : Inv s' := by
  have hbatch := h.inBatch hstack
  unfold Serverloop.userStep at hstep
  split at hstep
  · cases hstep
    exact h.addev _
  · cases hstep
    exact h.create trivial
  · exact h.delev hbatch hdisciplined hstep
  · refine onConn (fun c hc hsend => ?_) hstep
    cases hsend
    apply Inv.callIf
    · exact h.put hc (.of_undisturbed (c.sendout_updates _ _ _).undisturbed)
    · exact hbatch
    · intro hcalls
      exact h.callback hc (fun hsilent => hsilent.right.left)
        (Conn.sendout_calls hcalls)
  · refine onConn (fun c hc hreceive => ?_) hstep
    cases hreceive
    exact h.put hc (.of_undisturbed { Conn.Undisturbed.refl c with })
  · cases hstep
    exact h.pop hstack
  · cases hstep

end Inv

/-!
# Flushing
-/

theorem destroy_eq {x : Nat} {o : BaseEvent} (ho : s.heap x = some o)
    (hsilent : o.Silent) : s.destroy x = some (s.finishDestroy x o) := by
  unfold destroy
  rw [ho]
  cases o with
  | bfevent c =>
      have hnone := BaseEvent.reportsRest_of_silent hsilent
      dsimp only
      rw [if_neg]
      intro hreports
      rw [hnone] at hreports
      cases hreports.right
  | _ => rfl

theorem contains_eq_false {x : Nat} {list : List Nat} (h : x ∉ list) :
    list.contains x = false := by
  simpa using h

/--
A destructor leaves an object that is off the loop, and finds its epoll-level
event no longer listed.
-/
theorem finishDestroy_spec {x : Nat} {o : BaseEvent} (hsilent : o.Silent)
    (ho : s.heap x = some o) (hsettled : Detached s.evlist x o ∨ o.Open) :
    exists heap' evlist' o',
      s.finishDestroy x o = { s with
        heap := heap'
        evlist := evlist'
        trace := s.trace ++ [Entry.destroyed x false] } ∧
      heap' x = some o' ∧ (forall y, y ≠ x -> heap' y = s.heap y) ∧
      (forall y, y ∈ evlist' -> y ∈ s.evlist) ∧ o'.Silent ∧
      Detached evlist' x o' := by
  have hstays : Detached s.evlist x o ->
      s.record (Entry.destroyed x (s.evlist.contains x)) = { s with
        heap := s.heap
        evlist := s.evlist
        trace := s.trace ++ [Entry.destroyed x false] } := by
    intro hdetached
    rw [contains_eq_false hdetached.left]
    rfl
  have hcloses : ¬ o.Open ->
      (s.record (Entry.destroyed x (s.evlist.contains x))).put x o.closeFd =
        { s with
          heap := Function.update s.heap x (some o.closeFd)
          evlist := s.evlist
          trace := s.trace ++ [Entry.destroyed x false] } ∧
      o.closeFd.Silent ∧ Detached s.evlist x o.closeFd := by
    intro hnot
    rcases hsettled with hdetached | hopen
    · rw [hstays hdetached]
      exact ⟨rfl, BaseEvent.setInterest_silent _ hsilent, hdetached.left,
        o.closeFd_registered⟩
    · exact absurd hopen hnot
  cases o with
  | event ev readcb writecb eventcb =>
      rcases hsettled with hdetached | hopen
      · exact ⟨s.heap, s.evlist, _, hstays hdetached, ho, fun _ _ => rfl,
          fun _ hmem => hmem, hsilent, hdetached⟩
      · exact hopen.elim
  | bfevent c =>
      unfold finishDestroy
      dsimp only
      split
      · rename_i hclosed
        rcases hsettled with hdetached | hopen
        · exact ⟨s.heap, s.evlist, _, hstays hdetached, ho, fun _ _ => rfl,
            fun _ hmem => hmem, hsilent, hdetached⟩
        · have hunclosed : c.bev.closed = false := hopen
          rw [hunclosed] at hclosed
          cases hclosed
      · let o : BaseEvent := (BaseEvent.bfevent c).delListen
        let listening := Function.update s.heap x (some o)
        refine ⟨Function.update listening x (some o.closeFd),
          s.evlist.filter fun y => y != x, o.closeFd, ?_,
          Function.update_self _ _ _, ?_, ?_, ?_, ?_⟩
        · have hlisted := contains_eq_false (not_mem_filter_ne x s.evlist)
          have hrecord : forall t : Serverloop,
              t.evlist = s.evlist.filter (fun y => y != x) ->
                t.deleteEv x o.closeFd =
                  t.record (Entry.destroyed x false) := by
            intro t ht
            show t.record (Entry.destroyed x (t.evlist.contains x)) = _
            rw [ht, hlisted]
          rw [delListen_eq rfl]
          exact hrecord _ rfl
        · intro y hy
          rw [Function.update_of_ne hy]
          exact Function.update_of_ne hy _ _
        · exact fun y hmem => List.mem_of_mem_filter hmem
        · exact BaseEvent.setInterest_silent _
            (BaseEvent.delListen_silent hsilent)
        · exact ⟨not_mem_filter_ne x s.evlist, o.closeFd_registered⟩
  | _ =>
      rcases hcloses id with ⟨hs', hquiet, hdetached⟩
      exact ⟨_, s.evlist, _, hs', Function.update_self _ _ _,
        fun y hy => Function.update_of_ne hy _ _, fun _ hmem => hmem,
        hquiet, hdetached⟩

theorem Inv.destroyNext (h : Inv s) {x : Nat} {rest : List Nat}
    (hphase : s.phase = Phase.flushing (x :: rest)) :
    exists s', { s with phase := Phase.flushing rest }.destroy x = some s' ∧
      Inv s' ∧ s'.phase = Phase.flushing rest ∧
        s'.trace = s.trace ++ [Entry.destroyed x false] := by
  have hledger : queuedIn s.trace = destroyedIn s.trace ++ x :: rest := by
    rw [h.ledger, hphase]
    rfl
  have hqueued : x ∈ queuedIn s.trace := by
    rw [hledger]
    exact List.mem_append_right _ List.mem_cons_self
  have halive : x ∉ destroyedIn s.trace := by
    have hnodup := queuedIn_nodup h.lawful
    rw [hledger] at hnodup
    intro hmem
    exact (List.nodup_append.mp hnodup).right.right x hmem x
      List.mem_cons_self rfl
  have hflushed : flushed s.trace = true := h.phase.flushing _ hphase
  have hempty : s.stack = [] := by
    apply h.phase.rested
    rw [hphase]
    exact id
  rcases h.objects.queued x hqueued with ⟨o, ho, hsilent, hsettled⟩
  let t : Serverloop := { s with phase := Phase.flushing rest }
  rcases finishDestroy_spec (s := t) hsilent ho hsettled with
    ⟨heap', evlist', o', hs', hself, hother, hlist, hquiet, hdetached⟩
  refine ⟨t.finishDestroy x o, destroy_eq (s := t) ho hsilent, ?_, ?_⟩
  · rw [hs']
    have hq : queuedIn (s.trace ++ [Entry.destroyed x false]) =
        queuedIn s.trace := by
      rw [queuedIn_snoc]
      exact List.append_nil _
    have hd : destroyedIn (s.trace ++ [Entry.destroyed x false]) =
        destroyedIn s.trace ++ [x] :=
      destroyedIn_snoc s.trace (Entry.destroyed x false)
    have hf : flushed (s.trace ++ [Entry.destroyed x false]) =
        flushed s.trace :=
      flushed_snoc s.trace (Entry.destroyed x false)
    constructor
    case lawful =>
      exact h.lawful.snoc ⟨hqueued, halive, hflushed, rfl⟩
    case objects =>
      exact h.objects.destroy ho hself hother hlist hquiet hdetached hqueued
    case activations =>
      refine h.activations.frame ?_ ?_
      · intro y hmem
        rw [hempty] at hmem
        cases hmem
      · intro y c hmem
        rw [hempty] at hmem
        cases hmem
    case phase =>
      exact {
        rested := fun _ => hempty
        unflushed := fun hbatch => hbatch.elim
        flushing := fun _ _ => hf.trans hflushed
        batch := nofun
        emptied := fun hidle => by rcases hidle with h | h <;> cases h }
    case ledger =>
      show queuedIn (s.trace ++ [Entry.destroyed x false]) =
        destroyedIn (s.trace ++ [Entry.destroyed x false]) ++ rest
      rw [hq, hd, hledger, List.append_assoc]
      rfl
  · rw [hs']
    exact ⟨rfl, rfl⟩

namespace Inv

theorem reports_alive (h : Inv s) {x : Nat} (hreports : s.reports x = true) :
    x ∉ destroyedIn s.trace := by
  intro hmem
  rcases h.objects.destroyed x hmem with ⟨o, ho, _, hnone⟩
  unfold reports at hreports
  rw [ho] at hreports
  dsimp only at hreports
  rw [hnone] at hreports
  cases hreports

theorem wait (h : Inv s) (hphase : s.phase = Phase.waiting)
    {batch : List (Nat × Mask)}
    (hbatch : batch.all (fun e => s.reports e.fst) = true) :
    Inv { s.record Entry.waited with phase := Phase.dispatching batch } := by
  have hdelque : s.delque = [] := h.phase.emptied (Or.inl hphase)
  have hd : destroyedIn (s.trace ++ [Entry.waited]) = destroyedIn s.trace := by
    rw [destroyedIn_snoc]
    exact List.append_nil _
  have hpermitted : Permitted s.trace Entry.waited := by
    intro x hmem
    rw [h.ledger, hphase] at hmem
    rcases List.mem_append.mp hmem with hold | hnone
    · exact hold
    · cases hnone
  have hnext : InPhase (Phase.dispatching batch) s.stack s.delque
      (s.trace ++ [Entry.waited]) := {
    rested := fun hnot => absurd trivial hnot
    unflushed := fun _ => flushed_snoc s.trace Entry.waited
    flushing := nofun
    batch := by
      intro rest hrest e hmem
      cases hrest
      rw [hd]
      exact h.reports_alive (List.all_eq_true.mp hbatch e hmem)
    emptied := fun hidle => by rcases hidle with h | h <;> cases h }
  refine h.advance rfl rfl hpermitted hnext ?_
  show s.delque = awaiting s.phase s.delque
  rw [hphase, hdelque]
  rfl

theorem dispatch (h : Inv s) {x : Nat} {revents : Mask}
    {rest : List (Nat × Mask)}
    (hphase : s.phase = Phase.dispatching ((x, revents) :: rest)) :
    Inv { s.record (Entry.dispatched x) with
      phase := Phase.dispatching rest } := by
  have hbatch : s.phase.InBatch := by
    rw [hphase]
    trivial
  have hd : destroyedIn (s.trace ++ [Entry.dispatched x]) =
      destroyedIn s.trace := by
    rw [destroyedIn_snoc]
    exact List.append_nil _
  have halive : Permitted s.trace (Entry.dispatched x) :=
    h.phase.batch _ hphase (x, revents) List.mem_cons_self
  have hnext : InPhase (Phase.dispatching rest) s.stack s.delque
      (s.trace ++ [Entry.dispatched x]) := {
    rested := fun hnot => absurd trivial hnot
    unflushed := fun _ => (flushed_snoc s.trace (Entry.dispatched x)).trans
      (h.phase.unflushed hbatch)
    flushing := nofun
    batch := by
      intro rest' hrest e hmem
      cases hrest
      rw [hd]
      exact h.phase.batch _ hphase e (List.mem_cons_of_mem _ hmem)
    emptied := fun hidle => by rcases hidle with h | h <;> cases h }
  refine h.advance rfl rfl halive hnext ?_
  rw [hphase]
  rfl

theorem flush (h : Inv s) (hphase : s.phase = Phase.dispatching [])
    (hempty : s.stack = []) :
    Inv { s.record Entry.flush with phase := Phase.flushing s.delque } := by
  have hnext : InPhase (Phase.flushing s.delque) s.stack s.delque
      (s.trace ++ [Entry.flush]) := {
    rested := fun _ => hempty
    unflushed := fun hbatch => hbatch.elim
    flushing := fun _ _ => flushed_snoc s.trace Entry.flush
    batch := nofun
    emptied := fun hidle => by rcases hidle with h | h <;> cases h }
  refine h.advance rfl rfl trivial hnext ?_
  rw [hphase]
  rfl

theorem idle (h : Inv s) {phase : Phase} {delque : List Nat}
    (hidle : phase = Phase.waiting ∨ phase = Phase.stopped)
    (hempty : s.stack = []) (hdelque : delque = [])
    (hnone : awaiting s.phase s.delque = []) :
    Inv { s with phase := phase, delque := delque } where
  lawful := h.lawful
  objects := h.objects
  activations := h.activations
  phase := {
    rested := fun _ => hempty
    unflushed := fun hbatch => absurd hbatch (not_inBatch_of_idle hidle)
    flushing := fun rest hrest => by
      have hphase : phase = Phase.flushing rest := hrest
      rcases hidle with h | h <;> rw [h] at hphase <;> cases hphase
    batch := fun rest hrest => by
      have hphase : phase = Phase.dispatching rest := hrest
      rcases hidle with h | h <;> rw [h] at hphase <;> cases hphase
    emptied := fun _ => hdelque }
  ledger := by
    have hledger := h.ledger
    rw [hnone] at hledger
    rcases hidle with hphase | hphase
    · rw [hphase]
      exact hledger
    · rw [hphase]
      exact hledger

theorem loopStep (h : Inv s) (hempty : s.stack = []) {a : Action}
    (hstep : s.loopStep a = some s') : Inv s' := by
  unfold Serverloop.loopStep at hstep
  have hrest : s.phase = Phase.waiting ->
      s.delque = [] ∧ awaiting s.phase s.delque = [] := by
    intro hphase
    refine ⟨h.phase.emptied (Or.inl hphase), ?_⟩
    rw [hphase]
    rfl
  split at hstep
  · rename_i hphase
    split at hstep
    · cases hstep
    · split at hstep
      · rename_i hall
        cases hstep
        exact h.wait hphase hall
      · cases hstep
  · rename_i hphase
    split at hstep
    · cases hstep
    · split at hstep
      · cases hstep
        exact h
      · cases hstep
        exact h.idle (Or.inr rfl) hempty (hrest hphase).left
          (hrest hphase).right
  · rename_i hphase
    split at hstep
    · cases hstep
      exact h.idle (Or.inr rfl) hempty (hrest hphase).left
        (hrest hphase).right
    · cases hstep
  · cases hstep
    exact h.addev _
  · cases hstep
    exact h.create trivial
  · rename_i hphase
    cases hstep
    refine (h.dispatch hphase).push trivial trivial id (Or.inr ?_)
    show Clear s.stack
    rw [hempty]
    nofun
  · rename_i hphase
    split at hstep
    · rename_i hdelque
      cases hstep
      refine h.idle (Or.inl rfl) hempty hdelque ?_
      rw [hphase]
      exact hdelque
    · cases hstep
      exact h.flush hphase hempty
  · rename_i hphase
    rcases h.destroyNext hphase with ⟨t, ht, hinv, _, _⟩
    rw [ht] at hstep
    cases hstep
    exact hinv
  · rename_i hphase
    cases hstep
    refine h.idle (Or.inl rfl) hempty rfl ?_
    rw [hphase]
    rfl
  · cases hstep

theorem step (h : Inv s) {a : Action} (hdisciplined : Disciplined s a)
    (hstep : Serverloop.step tcp s a = some s') : Inv s' := by
  unfold Serverloop.step at hstep
  split at hstep
  · rename_i hempty
    exact h.loopStep hempty hstep
  · rename_i y rest hstack
    exact h.userStep hstack hdisciplined hstep
  · rename_i f rest huser hstack
    have hpop := h.pop hstack
    have hactivations := h.activations
    rw [hstack] at hactivations
    have hclear : Clear rest := by
      apply hactivations.clear
      intro hf
      cases f with
      | user y => exact huser y rfl
      | _ => exact hf
    refine hpop.frameStep (h.inBatch hstack) hclear
      (hactivations.plain f List.mem_cons_self) ?_ hstep
    intro x hf
    exact hactivations.endings x (hf ▸ List.mem_cons_self)

end Inv

/-!
# Runs
-/

theorem step_eq_loopStep (tcp : TcpCallbacks) (hempty : s.stack = [])
    (a : Action) : step tcp s a = s.loopStep a := by
  unfold step
  split
  · rfl
  · rename_i hstack
    rw [hempty] at hstack
    cases hstack
  · rename_i hstack
    rw [hempty] at hstack
    cases hstack

theorem loopStep_destroy {x : Nat} {rest : List Nat}
    (hphase : s.phase = Phase.flushing (x :: rest)) :
    s.loopStep Action.proceed =
      { s with phase := Phase.flushing rest }.destroy x := by
  cases s
  cases hphase
  rfl

theorem loopStep_flushed (hphase : s.phase = Phase.flushing []) :
    s.loopStep Action.proceed =
      some { s with delque := [], phase := Phase.waiting } := by
  cases s
  cases hphase
  rfl

theorem loopStep_batchEnd (hphase : s.phase = Phase.dispatching []) :
    s.loopStep Action.proceed =
      if s.delque = [] then some { s with phase := Phase.waiting }
      else
        some { s.record Entry.flush with
          phase := Phase.flushing s.delque } := by
  cases s
  cases hphase
  rfl

theorem flush_completes (tcp : TcpCallbacks) (h : Inv s) {rest : List Nat}
    (hphase : s.phase = Phase.flushing rest) :
    exists t, StepFn.run (step tcp) s
        (List.replicate (rest.length + 1) Action.proceed) = some t ∧
      Inv t ∧ t.phase = Phase.waiting ∧
      t.trace = s.trace ++ rest.map fun x => Entry.destroyed x false := by
  induction rest generalizing s with
  | nil =>
      have hempty : s.stack = [] := by
        apply h.phase.rested
        rw [hphase]
        exact id
      have hnext := loopStep_flushed hphase
      refine ⟨_, ?_, h.loopStep hempty hnext, rfl,
        (List.append_nil _).symm⟩
      apply StepFn.run_cons_eq_some.mpr
      exact ⟨_, (step_eq_loopStep tcp hempty _).trans hnext, rfl⟩
  | cons x rest ih =>
      have hempty : s.stack = [] := by
        apply h.phase.rested
        rw [hphase]
        exact id
      rcases h.destroyNext hphase with ⟨u, hu, hinv, huphase, hutrace⟩
      have hnext : s.loopStep Action.proceed = some u :=
        (loopStep_destroy hphase).trans hu
      rcases ih hinv huphase with ⟨t, hrun, ht, hwaiting, htrace⟩
      refine ⟨t, ?_, ht, hwaiting, ?_⟩
      · apply StepFn.run_cons_eq_some.mpr
        exact ⟨u, (step_eq_loopStep tcp hempty _).trans hnext, hrun⟩
      · rw [htrace, hutrace, List.append_assoc]
        rfl

theorem queuedIn_destroyed (past : List Entry) (rest : List Nat) :
    queuedIn (past ++ rest.map fun x => Entry.destroyed x false) =
      queuedIn past := by
  induction rest generalizing past with
  | nil =>
      rw [List.map_nil, List.append_nil]
  | cons x rest ih =>
      rw [List.map_cons, List.append_cons, ih, queuedIn_snoc]
      exact List.append_nil _

theorem Inv.destroyedIn_eq (h : Inv s)
    (hidle : s.phase = Phase.waiting ∨ s.phase = Phase.stopped) :
    destroyedIn s.trace = queuedIn s.trace := by
  have hledger := h.ledger
  rcases hidle with hphase | hphase
  · rw [hphase] at hledger
    exact (hledger.trans (List.append_nil _)).symm
  · rw [hphase] at hledger
    exact (hledger.trans (List.append_nil _)).symm

/-- When a batch is over, the loop deletes the queued events by itself. -/
theorem Inv.batchEnd_completes (tcp : TcpCallbacks) (h : Inv s)
    (hempty : s.stack = []) (hphase : s.phase = Phase.dispatching []) :
    exists n t, StepFn.run (Serverloop.step tcp) s
        (List.replicate n Action.proceed) = some t ∧
      t.phase = Phase.waiting ∧ queuedIn t.trace = queuedIn s.trace ∧
      destroyedIn t.trace = queuedIn s.trace := by
  have hnext := loopStep_batchEnd hphase
  by_cases hdelque : s.delque = []
  · rw [if_pos hdelque] at hnext
    have ht := h.loopStep hempty hnext
    refine ⟨1, { s with phase := Phase.waiting }, ?_, rfl, rfl,
      ht.destroyedIn_eq (Or.inl rfl)⟩
    apply StepFn.run_cons_eq_some.mpr
    exact ⟨_, (step_eq_loopStep tcp hempty _).trans hnext, rfl⟩
  · rw [if_neg hdelque] at hnext
    have hflush := h.loopStep hempty hnext
    rcases flush_completes tcp hflush rfl with
      ⟨t, hrun, ht, hwaiting, htrace⟩
    have hq : queuedIn t.trace = queuedIn s.trace := by
      rw [htrace, queuedIn_destroyed]
      show queuedIn (s.trace ++ [Entry.flush]) = queuedIn s.trace
      rw [queuedIn_snoc]
      exact List.append_nil _
    refine ⟨s.delque.length + 2, t, ?_, hwaiting, hq,
      (ht.destroyedIn_eq (Or.inl hwaiting)).trans hq⟩
    apply StepFn.run_cons_eq_some.mpr
    exact ⟨_, (step_eq_loopStep tcp hempty _).trans hnext, hrun⟩

/--
In every run that is `Disciplined`, each entry of the trace is permitted, no
event is queued or deleted twice, and between batches all queued events have been
deleted.  From the end of a batch the loop gets there by itself, without queuing
another event.
-/
theorem deferredDeletion_exact (tcp : TcpCallbacks) (acts : List Action)
    (s : Serverloop)
    (hrun : StepFn.run (step tcp) start acts = some s)
    (hmeets : StepFn.Meets (step tcp) Disciplined start acts) :
    History.Lawful Permitted s.trace ∧
      (queuedIn s.trace).Nodup ∧ (destroyedIn s.trace).Nodup ∧
      (s.phase = Phase.waiting ∨ s.phase = Phase.stopped ->
        destroyedIn s.trace = queuedIn s.trace) ∧
      (s.stack = [] -> s.phase = Phase.dispatching [] ->
        exists n t, StepFn.run (step tcp) s
            (List.replicate n Action.proceed) = some t ∧
          t.phase = Phase.waiting ∧ queuedIn t.trace = queuedIn s.trace ∧
          destroyedIn t.trace = queuedIn s.trace) := by
  have hinv : Inv s :=
    StepFn.run_invariant_of_meets
      (fun _ _ _ h hdisciplined hstep => h.step hdisciplined hstep)
      start_inv hmeets hrun
  have hqueued : (queuedIn s.trace).Nodup := queuedIn_nodup hinv.lawful
  have hdestroyed : (destroyedIn s.trace).Nodup := by
    rw [hinv.ledger] at hqueued
    exact (List.nodup_append.mp hqueued).left
  exact ⟨hinv.lawful, hqueued, hdestroyed, hinv.destroyedIn_eq,
    hinv.batchEnd_completes tcp⟩

def noEventcb : TcpCallbacks where
  readcb := true
  writecb := true
  eventcb := false

/--
A connection is accepted, and ends with its stream in the batch in which a timer
deletes itself.
-/
def eofAndTimer : List Action :=
  [Action.addev (Addition.timerevent true), Action.listen,
    Action.wait [(2, EPOLLIN)], Action.proceed, Action.proceed,
    Action.accept true, Action.accept false, Action.proceed, Action.proceed,
    Action.proceed, Action.wait [(3, EPOLLIN), (1, EPOLLIN)], Action.proceed,
    Action.proceed, Action.read (ReadResult.received []), Action.proceed,
    Action.proceed, Action.proceed, Action.proceed,
    Action.read (ReadResult.received [0, 0, 0, 0, 0, 0, 0, 0]),
    Action.delev 1, Action.ret, Action.proceed, Action.proceed]

theorem deferredDeletion_exact_eofAndTimer :
    exists s t : Serverloop, exists n,
      StepFn.run (step noEventcb) start eofAndTimer = some s ∧
        History.Lawful Permitted s.trace ∧ queuedIn s.trace = [3, 1] ∧
        StepFn.run (step noEventcb) s
            (List.replicate n Action.proceed) = some t ∧
        t.phase = Phase.waiting ∧ destroyedIn t.trace = [3, 1] := by
  have hreached : exists s, StepFn.run (step noEventcb) start eofAndTimer =
      some s ∧ s.stack = [] ∧ s.phase = Phase.dispatching [] ∧
        queuedIn s.trace = [3, 1] :=
    ⟨_, rfl, rfl, rfl, rfl⟩
  have hmeets : StepFn.Meets (step noEventcb) Disciplined start
      eofAndTimer := by
    decide +kernel
  rcases hreached with ⟨s, hrun, hempty, hphase, hqueued⟩
  have h := deferredDeletion_exact noEventcb eofAndTimer s hrun hmeets
  rcases h.right.right.right.right hempty hphase with
    ⟨n, t, hproceed, hwaiting, _, hall⟩
  exact ⟨s, t, n, hrun, h.left, hqueued, hproceed, hwaiting,
    hall.trans hqueued⟩

def reporting : TcpCallbacks where
  readcb := true
  writecb := true
  eventcb := true

/--
The event callback of a connection at its end of file sends a last byte, which
the kernel accepts, and the write callback deletes the connection.
-/
def lastByteSent : List Action :=
  [Action.listen, Action.wait [(1, EPOLLIN)], Action.proceed, Action.proceed,
    Action.accept true, Action.accept false, Action.proceed, Action.proceed,
    Action.proceed, Action.wait [(2, EPOLLIN)], Action.proceed, Action.proceed,
    Action.read (ReadResult.received []),
    Action.sendout 2 ⟨fun _ => 66, 1, by decide⟩ (WriteResult.accepted 1)
      (WriteResult.failed Errno.eagain),
    Action.delev 2, Action.ret, Action.ret, Action.proceed, Action.proceed,
    Action.proceed, Action.proceed, Action.proceed, Action.proceed]

/-- When the callbacks are back, `tcp_eventcb_` queues the connection again. -/
theorem deferredDeletion_fails_lastByteSent :
    exists s, StepFn.run (step reporting) start lastByteSent = some s ∧
      StepFn.Meets (step reporting) Unqueued start lastByteSent ∧
      queuedIn s.trace = [2, 2] ∧ destroyedIn s.trace = [2, 2] ∧
      ¬ (queuedIn s.trace).Nodup ∧ ¬ (destroyedIn s.trace).Nodup ∧
      ¬ History.Lawful Permitted s.trace := by
  have hreached : exists s, StepFn.run (step reporting) start lastByteSent =
      some s ∧ queuedIn s.trace = [2, 2] ∧ destroyedIn s.trace = [2, 2] :=
    ⟨_, rfl, rfl, rfl⟩
  have hmeets : StepFn.Meets (step reporting) Unqueued start
      lastByteSent := by
    decide +kernel
  have htwice : ¬ [2, 2].Nodup := by
    decide
  rcases hreached with ⟨s, hrun, hqueued, hdestroyed⟩
  refine ⟨s, hrun, hmeets, hqueued, hdestroyed, ?_, ?_, ?_⟩
  · rw [hqueued]
    exact htwice
  · rw [hdestroyed]
    exact htwice
  · intro hlawful
    have hnodup := queuedIn_nodup hlawful
    rw [hqueued] at hnodup
    exact htwice hnodup

end Serverloop

end MoonNet
