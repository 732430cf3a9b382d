import MoonNet.Bfevent.Outflow

/-!
# Two connected peers

Two buffered events are the ends of one connection.  What the kernel has
accepted from one of them travels to the other, in pieces of any size.  Every
byte that is sent is then at one place of the way: it was received, or it is in
the input buffer or the socket of the receiver, in flight, or in the output
buffer of the sender.  And the way is left only when everything was delivered.
-/

namespace MoonNet

open Foundation
open Kernel

inductive Side where
  | client
  | server
deriving DecidableEq, Repr

def Side.other : Side -> Side
  | client => server
  | server => client

@[simp] theorem Side.other_other (i : Side) : i.other.other = i := by
  cases i <;> rfl

theorem Side.other_ne (i : Side) : i.other ≠ i := by
  cases i <;> nofun

theorem Side.eq_other_of_ne {i j : Side} (h : j ≠ i) : j = i.other := by
  cases i <;> cases j <;> first | rfl | exact absurd rfl h

instance Side.decidableForall {P : Side -> Prop} [forall i, Decidable (P i)] :
    Decidable (forall i, P i) :=
  decidable_of_iff (P Side.client ∧ P Side.server)
    ⟨fun h i => match i with
      | Side.client => h.left
      | Side.server => h.right,
      fun h => ⟨h Side.client, h Side.server⟩⟩

abbrev Link := Side -> Endpoint

namespace Link

def start (bev : Side -> Bfevent) (room : Side -> Bool) : Link :=
  fun i => Endpoint.start (bev i) (room i)

def conn (s : Link) (i : Side) : Conn :=
  (s i).duplex.out.conn

def inFlight (s : Link) (i : Side) : List UInt8 :=
  (s.conn i.other).wire.accepted.drop (s i).duplex.arrived.length

def carries (s : Link) (i : Side) : Endpoint.Action -> Bool
  | Endpoint.Action.own (Duplex.Action.peerSends bytes) _ =>
      bytes.isPrefixOf (s.inFlight i)
  | Endpoint.Action.own Duplex.Action.peerEnds _ => false
  | _ => true

structure Action where
  side : Side
  act : Endpoint.Action

def step : StepFn Link Action := fun s a =>
  if s.carries a.side a.act then
    (Endpoint.step (s a.side) a.act).map fun t => Function.update s a.side t
  else none

/-!
## What is transported
-/

def along (s : Link) (i : Side) : List UInt8 :=
  (s i).duplex.received ++ (s i).duplex.bev.inbuff.contents ++
    (s i).duplex.socket ++ s.inFlight i ++ (s.conn i.other).backlog

/--
The bytes along the way to a side are those that the other one has sent, in this
order, and only bytes of backlogs and payloads were offered to the kernel.
-/
structure Transported (s : Link) : Prop where
  stream : forall i, s.along i = (s i.other).duplex.out.sent
  offers : forall i r, r ∈ (s.conn i).wire.offered -> r.InBounds

def onOutput (P : Outbound.State -> Outbound.Action -> Prop) (s : Link)
    (a : Action) : Prop :=
  match a.act with
  | Endpoint.Action.kernel _ => True
  | Endpoint.Action.own b _ =>
      match (s a.side).duplex.outAction b with
      | none => True
      | some x => P (s a.side).duplex.out x

/-- The kernel's answers to `write` and `writev` on a healthy socket. -/
def Soft : Link -> Action -> Prop :=
  onOutput Outbound.Soft

/-- Direct writes take the whole payload. -/
def DirectWriteComplete : Link -> Action -> Prop :=
  onOutput Outbound.DirectWriteComplete

/-!
## When nothing moves
-/

/-- No handler gives up before there is nothing to do. -/
def Persistent (s : Link) (a : Action) : Prop :=
  (s a.side).GivesUpAtEdge a.act ∧
    match a.act with
    | Endpoint.Action.kernel _ => True
    | Endpoint.Action.own b _ => (s a.side).duplex.GivesUpAtEnd b

/--
The library has nothing to do at a side: its loop thread is not in a handler, no
edge is due although `EPOLLIN` is in the mask and there is room for output, and
nothing is in flight.
-/
structure QuietAt (s : Link) (i : Side) : Prop where
  phase : (s i).duplex.phase = Duplex.Phase.elsewhere
  stack : (s i).duplex.out.stack = []
  edge : (s i).duplex.edge = false
  watched : (s i).duplex.watched = true
  room : (s i).room = true
  inFlight : s.inFlight i = []

def Quiet (s : Link) : Prop :=
  forall i, s.QuietAt i

end Link

namespace Duplex

variable {s s' : Duplex}

/-!
# What a step of one end does to the histories
-/

theorem eof_iff : s.eof = true <-> none ∈ s.source.arrived := by
  show _ <-> none ∈ s.arrived.map some ++ endItem s.eof
  rw [List.mem_append]
  cases s.eof with
  | false => simp [endItem]
  | true => simp [endItem]

theorem arrived_eq : s.source.arrived.filterMap id = s.arrived :=
  filterMap_endItem s.arrived s.eof

theorem label_arrive {a : Action} {items : List (Option UInt8)}
    (h : label s a = some (Readiness.Action.arrive items)) :
    (exists bytes, a = Action.peerSends bytes) ∨ a = Action.peerEnds := by
  cases a with
  | peerSends bytes => exact Or.inl ⟨bytes, rfl⟩
  | peerEnds => exact Or.inr rfl
  | proceed =>
      simp only [label] at h
      split at h
      · cases h
      · cases h
  | readiov r =>
      cases r with
      | received bytes =>
          cases bytes with
          | nil => cases h
          | cons b rest => cases h
      | failed errno =>
          simp only [label] at h
          split at h
          · cases h
          · cases h
  | _ => cases h

theorem step_arrived {a : Action} (h : Inv s) (hstep : step s a = some s')
    (hpeer : forall items, label s a ≠ some (Readiness.Action.arrive items)) :
    s'.arrived = s.arrived ∧ s'.eof = s.eof := by
  have hmatch := step_matched h hstep
  have hsame : s'.source.arrived = s.source.arrived := by
    cases hlabel : label s a with
    | none =>
        rw [hlabel] at hmatch
        exact congrArg Readiness.arrived hmatch
    | some x =>
        rw [hlabel] at hmatch
        exact Readiness.step_arrived hmatch
          (fun items hx => hpeer items (hx ▸ hlabel))
  constructor
  · rw [<- arrived_eq, <- arrived_eq (s := s), hsame]
  · rw [Bool.eq_iff_iff, eof_iff, eof_iff, hsame]

theorem step_peerSends {bytes : List UInt8}
    (hstep : step s (Action.peerSends bytes) = some s') :
    s'.arrived = s.arrived ++ bytes ∧ s'.eof = s.eof := by
  simp only [step] at hstep
  split at hstep
  · cases hstep
  · cases hstep
    exact ⟨rfl, rfl⟩

theorem step_accepted {a : Action} (hstep : step s a = some s') :
    s.out.conn.wire.accepted <+: s'.out.conn.wire.accepted := by
  have hoff := step_output hstep
  cases haction : s.outAction a with
  | none =>
      rw [haction] at hoff
      have hkept : s.KeepsOutput s' := hoff
      rw [hkept.wire]
  | some x =>
      rw [haction] at hoff
      exact (Outbound.step_sendsOnly hoff).accepted

theorem KeepsOutput.intact_iff (h : s.KeepsOutput s') :
    Outbound.Intact s'.out <-> Outbound.Intact s.out := by
  have hbacklog : s'.out.conn.backlog = s.out.conn.backlog :=
    congrArg ValidBuffer.contents h.outbuff
  constructor
  · intro hintact
    rcases hintact with ⟨hstream, hoffers⟩
    rw [h.wire, hbacklog, h.sent] at hstream
    rw [h.wire] at hoffers
    exact ⟨hstream, hoffers⟩
  · intro hintact
    rcases hintact with ⟨hstream, hoffers⟩
    rw [<- h.wire, <- hbacklog, <- h.sent] at hstream
    rw [<- h.wire] at hoffers
    exact ⟨hstream, hoffers⟩

end Duplex

namespace Link

variable {s s' : Link}

/--
Each end keeps its own invariants, what has arrived at it was accepted from the
other one, and no stream has ended.
-/
structure Inv (s : Link) : Prop where
  endpoint : forall i, Endpoint.Inv (s i)
  accounted : forall i, (s i).duplex.source.Accounted
  arrived : forall i,
    (s i).duplex.arrived <+: (s.conn i.other).wire.accepted
  goesOn : forall i, (s i).duplex.eof = false

theorem step_cases {a : Action} (hstep : step s a = some s') :
    s.carries a.side a.act = true ∧
      exists t, Endpoint.step (s a.side) a.act = some t ∧
        s' = Function.update s a.side t := by
  unfold step at hstep
  split at hstep
  · rename_i hcarries
    rcases Option.map_eq_some_iff.mp hstep with ⟨t, ht, rfl⟩
    exact ⟨hcarries, t, ht, rfl⟩
  · cases hstep

theorem forall_update {P : Endpoint -> Prop} (h : forall i, P (s i))
    {i : Side} {t : Endpoint} (ht : P t) :
    forall j, P (Function.update s i t j) := by
  intro j
  by_cases hj : j = i
  · rw [hj, Function.update_self]
    exact ht
  · rw [Function.update_of_ne hj]
    exact h j

theorem end_step {i : Side} {a : Endpoint.Action} {t : Endpoint}
    (h : Endpoint.Inv (s i)) (hcarries : s.carries i a = true)
    (hstep : Endpoint.step (s i) a = some t) :
    t.duplex.eof = (s i).duplex.eof ∧
      (s.conn i).wire.accepted <+: t.duplex.out.conn.wire.accepted ∧
      exists bytes, bytes <+: s.inFlight i ∧
        t.duplex.arrived = (s i).duplex.arrived ++ bytes := by
  cases a with
  | kernel room =>
      cases hstep
      exact ⟨rfl, List.prefix_refl _, [], List.nil_prefix,
        (List.append_nil _).symm⟩
  | own b room =>
      rcases Endpoint.step_own hstep with ⟨_, _, d, hd, rfl⟩
      have haccepted : (s.conn i).wire.accepted <+:
          d.out.conn.wire.accepted := Duplex.step_accepted hd
      by_cases hsends : exists bytes, b = Duplex.Action.peerSends bytes
      · rcases hsends with ⟨bytes, rfl⟩
        have hmoved := Duplex.step_peerSends hd
        exact ⟨hmoved.right, haccepted, bytes,
          List.isPrefixOf_iff_prefix.mp hcarries, hmoved.left⟩
      · have hpeer : forall items, Duplex.label (s i).duplex b ≠
            some (Readiness.Action.arrive items) := by
          intro items hlabel
          rcases Duplex.label_arrive hlabel with hsome | rfl
          · exact hsends hsome
          · cases hcarries
        have hmoved := Duplex.step_arrived h.duplex hd hpeer
        refine ⟨hmoved.right, haccepted, [], List.nil_prefix, ?_⟩
        rw [List.append_nil]
        exact hmoved.left

theorem end_accounted {i : Side} {a : Endpoint.Action} {t : Endpoint}
    (h : Endpoint.Inv (s i)) (haccounted : (s i).duplex.source.Accounted)
    (hstep : Endpoint.step (s i) a = some t) :
    t.duplex.source.Accounted := by
  cases a with
  | kernel room =>
      cases hstep
      exact haccounted
  | own b room =>
      rcases Endpoint.step_own hstep with ⟨_, _, d, hd, rfl⟩
      have hkeeps : forall (q : Readiness (Option UInt8)) x q',
          q.Accounted -> Readiness.step q x = some q' -> q'.Accounted :=
        fun _ _ _ hq hx => Readiness.step_accounted hq hx
      have hafter : d.source.Accounted :=
        Duplex.source_maps.step_keeps hkeeps h.duplex haccounted hd
      exact hafter

theorem step_inv {a : Action} (h : Inv s) (hstep : step s a = some s') :
    Inv s' := by
  rcases step_cases hstep with ⟨hcarries, t, ht, rfl⟩
  rcases end_step (h.endpoint a.side) hcarries ht with
    ⟨heof, haccepted, bytes, hbytes, harrived⟩
  have hend : t.duplex.eof = false := heof.trans (h.goesOn a.side)
  refine
    { endpoint := forall_update h.endpoint
        (Endpoint.step_inv (h.endpoint a.side) ht)
      accounted := forall_update (P := fun e => e.duplex.source.Accounted)
        h.accounted (end_accounted (h.endpoint a.side)
          (h.accounted a.side) ht)
      arrived := ?_
      goesOn := forall_update (P := fun e => e.duplex.eof = false)
        h.goesOn hend }
  intro j
  by_cases hj : j = a.side
  · -- What is in flight follows what has arrived.
    rw [hj]
    unfold conn
    rw [Function.update_self, Function.update_of_ne (Side.other_ne a.side),
      harrived]
    rcases h.arrived a.side with ⟨rest, hrest⟩
    have hflight : s.inFlight a.side = rest := by
      unfold inFlight
      rw [<- hrest, List.drop_left]
    rw [hflight] at hbytes
    show _ <+: (s.conn a.side.other).wire.accepted
    rw [<- hrest]
    exact (List.prefix_append_right_inj _).mpr hbytes
  · -- The other end may have accepted more.
    have hother : j.other = a.side := by
      rw [Side.eq_other_of_ne hj, Side.other_other]
    unfold conn
    rw [hother, Function.update_self, Function.update_of_ne hj]
    have hbefore := h.arrived j
    rw [hother] at hbefore
    exact hbefore.trans haccepted

theorem start_inv {bev : Side -> Bfevent} {room : Side -> Bool}
    (hin : forall i, (bev i).inbuff.contents = [])
    (hout : forall i, (bev i).outbuff.contents = [])
    (hpassed : forall i, (bev i).ev.registered = some (bev i).ev.events) :
    Inv (start bev room) where
  endpoint := fun i => Endpoint.start_inv (hout i) (hpassed i) (room i)
  accounted := by
    intro i
    show (_ ++ (bev i).inbuff.contents).map some ++ _ ++ _ = _
    rw [hin i]
    rfl
  arrived := fun i => List.prefix_refl _
  goesOn := fun i => rfl

/-!
# Every byte is on its way
-/

theorem along_eq (h : Inv s) (i : Side) :
    s.along i = (s.conn i.other).wire.accepted ++ (s.conn i.other).backlog := by
  have hstream := (Duplex.inOrder_of_accounted (h.endpoint i).duplex
    (h.accounted i)).stream
  rcases h.arrived i with ⟨rest, hrest⟩
  unfold along inFlight
  rw [hstream, <- hrest, List.drop_left]

theorem transported_iff_intact (h : Inv s) :
    s.Transported <-> forall i, Outbound.Intact (s i).duplex.out := by
  constructor
  · intro htransported i
    have hstream := htransported.stream i.other
    rw [along_eq h, Side.other_other] at hstream
    exact ⟨hstream, htransported.offers i⟩
  · intro hintact
    constructor
    · intro i
      rw [along_eq h]
      exact (hintact i.other).stream
    · exact fun i => (hintact i).offers

theorem forall_update_iff {P : Endpoint -> Prop} (h : forall i, P (s i))
    (i : Side) (t : Endpoint) :
    (forall j, P (Function.update s i t j)) <-> P t := by
  constructor
  · intro hall
    have hi := hall i
    rw [Function.update_self] at hi
    exact hi
  · exact forall_update h

theorem step_intact_iff {a : Action}
    (hintact : forall i, Outbound.Intact (s i).duplex.out)
    (hsoft : Soft s a) (hstep : step s a = some s') :
    (forall i, Outbound.Intact (s' i).duplex.out) <->
      DirectWriteComplete s a := by
  rcases step_cases hstep with ⟨_, t, ht, rfl⟩
  rw [forall_update_iff (P := fun e => Outbound.Intact e.duplex.out) hintact]
  unfold Soft onOutput at hsoft
  unfold DirectWriteComplete onOutput
  cases hact : a.act with
  | kernel room =>
      rw [hact] at ht
      cases ht
      exact iff_of_true (hintact a.side) trivial
  | own b room =>
      rw [hact] at ht hsoft
      dsimp only at hsoft
      rcases Endpoint.step_own ht with ⟨_, _, d, hd, rfl⟩
      have hoff := Duplex.step_output hd
      show Outbound.Intact d.out <-> _
      dsimp only
      cases haction : (s a.side).duplex.outAction b with
      | none =>
          rw [haction] at hoff
          have hkept : (s a.side).duplex.KeepsOutput d := hoff
          exact iff_of_true (hkept.intact_iff.mpr (hintact a.side)) trivial
      | some x =>
          rw [haction] at hoff hsoft
          exact Outbound.step_intact_iff (hintact a.side) hsoft hoff

theorem step_transported_iff {a : Action} (h : Inv s)
    (htransported : s.Transported) (hsoft : Soft s a)
    (hstep : step s a = some s') :
    s'.Transported <-> DirectWriteComplete s a := by
  rw [transported_iff_intact (step_inv h hstep)]
  exact step_intact_iff ((transported_iff_intact h).mp htransported) hsoft
    hstep

/-!
# Nothing stops on the way
-/

structure Served (s : Link) : Prop where
  input : forall i, (s i).duplex.Attended
  output : forall i, (s i).Attended

theorem raise_attended {d : Duplex} (h : d.Attended) (e : Bool) :
    Duplex.Attended { d with edge := d.edge || e } := by
  intro hwatched hunread
  rcases h hwatched hunread with hedge | hreads
  · left
    show (d.edge || e) = true
    rw [hedge]
    rfl
  · exact Or.inr hreads

theorem step_served {a : Action} (h : Inv s) (hserved : s.Served)
    (hpersistent : Persistent s a) (hstep : step s a = some s') :
    s'.Served := by
  rcases step_cases hstep with ⟨_, t, ht, rfl⟩
  have hend := h.endpoint a.side
  have hout : t.Attended :=
    (Endpoint.step_attended_iff hend (hserved.output a.side) ht).mpr
      hpersistent.left
  have hin : t.duplex.Attended := by
    have hguard := hpersistent.right
    cases hact : a.act with
    | kernel room =>
        rw [hact] at ht
        cases ht
        exact raise_attended (hserved.input a.side) _
    | own b room =>
        rw [hact] at ht hguard
        rcases Endpoint.step_own ht with ⟨_, _, d, hd, rfl⟩
        exact raise_attended ((Duplex.step_attended_iff hend.duplex
          (hserved.input a.side) hd).mpr hguard) _
  exact
    { input := forall_update (P := fun e => e.duplex.Attended)
        hserved.input hin
      output := forall_update hserved.output hout }

theorem start_served {bev : Side -> Bfevent} {room : Side -> Bool}
    (hout : forall i, (bev i).outbuff.contents = []) :
    Served (start bev room) where
  input := fun i => Duplex.start_attended (bev i)
  output := fun i hpending => absurd (hout i) hpending

theorem along_of_quiet (hserved : s.Served) (hquiet : s.Quiet) (i : Side) :
    s.along i = (s i).duplex.received ++ (s i).duplex.bev.inbuff.contents := by
  have hsocket : (s i).duplex.socket = [] := by
    by_contra hunread
    rcases hserved.input i (hquiet i).watched (Or.inl hunread) with
      hedge | hreads
    · rw [(hquiet i).edge] at hedge
      cases hedge
    · rw [(hquiet i).phase] at hreads
      cases hreads
  have hbacklog : (s.conn i.other).backlog = [] := by
    by_contra hpending
    have hother := hquiet i.other
    rcases hserved.output i.other hpending hother.room with hedge | hdue
    · rw [hother.edge] at hedge
      cases hedge
    · unfold Duplex.due at hdue
      rw [hother.phase, hother.stack] at hdue
      cases hdue
  unfold along
  rw [hsocket, hbacklog, (hquiet i).inFlight, List.append_nil,
    List.append_nil, List.append_nil]

/--
However the two loop threads, the users and the kernel interleave on a healthy
connection, every byte that was sent is on its way to the other end, once and in
order, throughout a run exactly if every direct write takes the whole payload.
If no handler gives up either, nothing stops before everything was delivered.
-/
theorem sent_transported {bev : Side -> Bfevent} {room : Side -> Bool}
    (hin : forall i, (bev i).inbuff.contents = [])
    (hout : forall i, (bev i).outbuff.contents = [])
    (hpassed : forall i, (bev i).ev.registered = some (bev i).ev.events)
    {acts : List Action} {t : Link}
    (hsoft : StepFn.Meets step Soft (start bev room) acts)
    (hrun : StepFn.run step (start bev room) acts = some t) :
    (StepFn.Throughout step Transported (start bev room) acts <->
        StepFn.Meets step DirectWriteComplete (start bev room) acts) ∧
      (StepFn.Meets step DirectWriteComplete (start bev room) acts ->
        StepFn.Meets step Persistent (start bev room) acts -> t.Quiet ->
        forall i, (t i).duplex.received ++ (t i).duplex.bev.inbuff.contents =
          (t i.other).duplex.out.sent) := by
  have hstart : Inv (start bev room) := start_inv hin hout hpassed
  have htransported : Transported (start bev room) :=
    (transported_iff_intact hstart).mpr
      fun i => Outbound.start_intact (hout i)
  have hkeeps : forall s a s', Inv s -> step s a = some s' -> Inv s' :=
    fun _ _ _ h hstep => step_inv h hstep
  have hiff : StepFn.Throughout step Transported (start bev room) acts <->
      StepFn.Meets step DirectWriteComplete (start bev room) acts := by
    have hone : forall s a s', Transported s -> Inv s ∧ Soft s a ->
        step s a = some s' -> (Transported s' <-> DirectWriteComplete s a) :=
      fun s a s' hs hside hstep =>
        step_transported_iff hside.left hs hside.right hstep
    exact StepFn.throughout_iff_meets hone htransported
      ((StepFn.meets_of_invariant hkeeps hstart acts).and hsoft) hrun
  refine ⟨hiff, ?_⟩
  intro hcomplete hpersistent hquiet i
  have hend := StepFn.throughout_last (hiff.mpr hcomplete) hrun
  have hserved : Inv t ∧ Served t := by
    have hone : forall s a s', Inv s ∧ Served s -> Persistent s a ->
        step s a = some s' -> Inv s' ∧ Served s' :=
      fun s a s' h hguard hstep =>
        ⟨step_inv h.left hstep, step_served h.left h.right hguard hstep⟩
    exact StepFn.run_invariant_of_meets hone ⟨hstart, start_served hout⟩
      hpersistent hrun
  rw [<- along_of_quiet hserved.right hquiet i]
  exact hend.stream i

/-!
## A byte that waits for a second edge
-/

instance (P : Outbound.State -> Outbound.Action -> Prop)
    [forall s a, Decidable (P s a)] (s : Link) (a : Action) :
    Decidable (onOutput P s a) := by
  unfold onOutput
  split
  · infer_instance
  · split <;> infer_instance

instance (s : Link) (a : Action) : Decidable (Soft s a) :=
  inferInstanceAs (Decidable (onOutput Outbound.Soft s a))

instance (s : Link) (a : Action) : Decidable (DirectWriteComplete s a) :=
  inferInstanceAs (Decidable (onOutput Outbound.DirectWriteComplete s a))

instance (s : Link) (a : Action) : Decidable (Persistent s a) := by
  unfold Persistent
  split <;> infer_instance

instance (s : Link) (i : Side) : Decidable (QuietAt s i) :=
  decidable_of_iff
    ((s i).duplex.phase = Duplex.Phase.elsewhere ∧
      (s i).duplex.out.stack = [] ∧ (s i).duplex.edge = false ∧
      (s i).duplex.watched = true ∧ (s i).room = true ∧ s.inFlight i = [])
    ⟨fun h => ⟨h.left, h.right.left, h.right.right.left,
        h.right.right.right.left, h.right.right.right.right.left,
        h.right.right.right.right.right⟩,
      fun h => ⟨h.phase, h.stack, h.edge, h.watched, h.room, h.inFlight⟩⟩

instance (s : Link) : Decidable (Quiet s) :=
  inferInstanceAs (Decidable (forall i, s.QuietAt i))

def idleBev (_ : Side) : Bfevent :=
  Outbound.idle

def idle : Link :=
  start idleBev fun _ => true

theorem idleBev_fresh (i : Side) : (idleBev i).inbuff.contents = [] ∧
    (idleBev i).outbuff.contents = [] ∧
    (idleBev i).ev.registered = some (idleBev i).ev.events := by
  revert i
  decide +kernel

def own (i : Side) (a : Duplex.Action) : Action where
  side := i
  act := Endpoint.Action.own a true

def hiInTwo : List Action :=
  [own Side.client (Duplex.Action.sendout Outbound.hi
      (WriteResult.accepted 2) (WriteResult.accepted 2)),
    own Side.client Duplex.Action.callbackReturn] ++
  [Duplex.Action.peerSends [104], Duplex.Action.wait EPOLLIN,
    Duplex.Action.proceed, Duplex.Action.readiov (ReadResult.received [104]),
    Duplex.Action.peerSends [105], Duplex.Action.proceed,
    Duplex.Action.receiveAll, Duplex.Action.proceed,
    Duplex.Action.readiov (ReadResult.received [105]), Duplex.Action.proceed,
    Duplex.Action.proceed,
    Duplex.Action.readiov (ReadResult.failed Errno.eagain),
    Duplex.Action.proceed, Duplex.Action.proceed,
    Duplex.Action.wait EPOLLIN, Duplex.Action.proceed,
    Duplex.Action.readiov (ReadResult.failed Errno.eagain),
    Duplex.Action.proceed, Duplex.Action.proceed].map (own Side.server)

theorem sent_transported_hiInTwo :
    exists t, StepFn.run step idle hiInTwo = some t ∧
      (t Side.client).duplex.out.sent = [104, 105] ∧
      (t Side.server).duplex.received ++
        (t Side.server).duplex.bev.inbuff.contents = [104, 105] := by
  have hreached : (StepFn.run step idle hiInTwo).any (fun t =>
      decide ((t Side.client).duplex.out.sent = [104, 105] ∧ t.Quiet)) =
        true := by
    decide +kernel
  rcases (Option.any_eq_true _ _).mp hreached with ⟨t, hrun, hend⟩
  rcases of_decide_eq_true hend with ⟨hsent, hquiet⟩
  have hsoft : StepFn.Meets step Soft idle hiInTwo := by decide +kernel
  have h := sent_transported (fun i => (idleBev_fresh i).left)
    (fun i => (idleBev_fresh i).right.left)
    (fun i => (idleBev_fresh i).right.right) hsoft hrun
  have hall := h.right (by decide +kernel) (by decide +kernel) hquiet
    Side.server
  exact ⟨t, hrun, hsent, hall.trans hsent⟩

end Link

end MoonNet
