import MoonNet.Event.Flags
import MoonNet.Foundation.Readiness
import MoonNet.Udpevent.Receive
import MoonNet.Udpevent.Serving

/-!
# Datagrams on their way to the user

Seen from the socket, a datagram event is a source of datagrams, and
`handle_receive` is its handler.  So every datagram is taken once and in order,
whatever the user does meanwhile, and none is left waiting in the socket unless
`handle_receive` breaks out of its loop early.
-/

namespace MoonNet

open Foundation
open Kernel

universe u

namespace Udploop

variable {A : Type u}

/-!
# The source
-/

def source (s : Udploop A) : Readiness (Datagram A) where
  arrived := s.arrived
  taken := s.taken
  waiting := s.base.queue
  armed := s.watched
  edge := s.edge
  handling := s.phase.receives

def leaves (s : Udploop A) : Bool :=
  match s.phase with
  | Phase.handleCb revents => !Duplex.readFlags revents
  | Phase.leaving => true
  | _ => false

def label (s : Udploop A) : Action A -> Option (Readiness.Action (Datagram A))
  | Action.arrives d => some (Readiness.Action.arrive [d])
  | Action.wake => some (Readiness.Action.arm s.watched true)
  | Action.wait _ => some Readiness.Action.notice
  | Action.proceed => if s.leaves then some Readiness.Action.finish else none
  | Action.recvfrom none =>
      if s.readable then some (Readiness.Action.take 1)
      else some Readiness.Action.finish
  | Action.call c =>
      some (Readiness.Action.arm (s.call c).watched
        ((s.call c).watched && (s.call c).readable))
  | Action.recvfrom (some _) | Action.receive _ | Action.receiveAll
  | Action.disableCb => none

def Seen (s : Udploop A) : Prop :=
  s.watched = true -> s.base.queue ≠ [] -> s.edge = true

/--
The kernel has the current mask, and what `handle_cb` is not going to receive is
due to be reported again.
-/
structure Inv (s : Udploop A) : Prop where
  passed : s.base.udp.ev.Passed
  skipped : forall revents, s.phase = Phase.handleCb revents ->
    Duplex.readFlags revents = false -> Seen s

variable {s s' : Udploop A}

theorem readable_iff : s.readable = true <-> s.base.queue ≠ [] := by
  unfold readable
  rw [Bool.not_eq_true', List.isEmpty_eq_false_iff]

theorem notify_seen (s : Udploop A) : Seen s.notify :=
  Readiness.look_seen s.source

theorem start_inv (receiveCb eventCb : Bool) :
    Inv (start receiveCb eventCb : Udploop A) where
  passed := rfl
  skipped := nofun

/-!
## Steps of the user
-/

theorem ifUser_eq {t : Udploop A} (hstep : s.ifUser t = some s') : s' = t := by
  unfold ifUser at hstep
  split at hstep
  · cases hstep
    rfl
  · cases hstep

theorem call_passed {u : Udpevent} (h : u.ev.Passed) (c : Call) :
    (u.call c).ev.Passed := by
  have hupdated : forall u : Udpevent, u.ev.Passed ->
      u.updateEp.ev.Passed := by
    intro u h
    unfold Udpevent.updateEp
    split
    · exact Interest.updateEp_passed h
    · exact h
  cases c with
  | setcb receiveCb eventCb =>
      exact hupdated { u with receiveCb := receiveCb, eventCb := eventCb } h
  | updateEp => exact hupdated u h
  | enableRead => exact Interest.enableEvents_passed h EPOLLIN
  | enableET => exact Interest.enableEvents_passed h EPOLLET
  | disableRead => exact Interest.disableEvents_passed h EPOLLIN
  | disableET => exact Interest.disableEvents_passed h EPOLLIN

theorem call_inbuff (u : Udpevent) (c : Call) :
    (u.call c).inbuff = u.inbuff := by
  have hupdated : forall u : Udpevent, u.updateEp.inbuff = u.inbuff := by
    intro u
    unfold Udpevent.updateEp
    split
    · rfl
    · rfl
  cases c with
  | setcb receiveCb eventCb =>
      exact hupdated { u with receiveCb := receiveCb, eventCb := eventCb }
  | updateEp => exact hupdated u
  | _ => rfl

theorem call_matched (s : Udploop A) (c : Call) :
    StepFn.Matches Readiness.step s.source (s.call c).source
      (label s (Action.call c)) := by
  refine congrArg some ((Readiness.mk.injEq ..).mpr
    ⟨rfl, rfl, rfl, rfl, ?_, rfl⟩)
  show ((s.edge || ((s.call c).watched && s.readable)) ||
    ((s.call c).watched && s.readable)) =
      (s.edge || ((s.call c).watched && s.readable))
  rw [Bool.or_assoc, Bool.or_self]

/-!
## Steps of the loop thread
-/

theorem wait_cases {revents : Mask} (hstep : s.wait revents = some s') :
    s.phase = Phase.elsewhere ∧ s.edge = true ∧
      (s.watched = true -> s.readable = true ->
        Duplex.has revents EPOLLIN = true) ∧
      s' = { s with edge := false, phase := Phase.handleCb revents } := by
  unfold wait at hstep
  cases hphase : s.phase with
  | elsewhere =>
      simp only [hphase] at hstep
      split at hstep
      · rename_i hguard
        cases hstep
        exact ⟨rfl, hguard.left, hguard.right, rfl⟩
      · cases hstep
  | _ =>
      simp only [hphase] at hstep
      cases hstep

theorem wait_inv (h : Inv s) {revents : Mask}
    (hstep : s.wait revents = some s') : Inv s' := by
  rcases wait_cases hstep with ⟨_, _, hreports, rfl⟩
  refine { passed := h.passed, skipped := ?_ }
  intro revents' hphase hflags hwatched hqueue
  cases hphase
  have hin := hreports hwatched (readable_iff.mpr hqueue)
  unfold Duplex.readFlags at hflags
  rw [hin] at hflags
  cases hflags

theorem proceed_cases (hstep : s.proceed = some s') :
    s.phase.receives = true ∧ exists p, s' = s.goto p ∧
      (p = Phase.elsewhere ∨ p = Phase.receiving ∨
        s.phase = Phase.eventCb ∧ p = Phase.leaving) ∧
      p.receives = !s.leaves := by
  unfold proceed at hstep
  unfold leaves
  cases hphase : s.phase with
  | elsewhere =>
      simp only [hphase] at hstep
      cases hstep
  | handleCb revents =>
      simp only [hphase] at hstep
      cases hstep
      dsimp only
      cases Duplex.readFlags revents with
      | false => exact ⟨rfl, _, rfl, Or.inl rfl, rfl⟩
      | true => exact ⟨rfl, _, rfl, Or.inr (Or.inl rfl), rfl⟩
  | receiving =>
      simp only [hphase] at hstep
      cases hstep
  | receiveCb sender =>
      simp only [hphase] at hstep
      cases hstep
      exact ⟨rfl, _, rfl, Or.inr (Or.inl rfl), rfl⟩
  | eventCb =>
      simp only [hphase] at hstep
      cases hstep
      exact ⟨rfl, _, rfl, Or.inr (Or.inr ⟨rfl, rfl⟩), rfl⟩
  | leaving =>
      simp only [hphase] at hstep
      cases hstep
      exact ⟨rfl, _, rfl, Or.inl rfl, rfl⟩

theorem proceed_matched (hstep : s.proceed = some s') :
    StepFn.Matches Readiness.step s.source s'.source
      (label s Action.proceed) := by
  rcases proceed_cases hstep with ⟨hreceives, p, rfl, _, hp⟩
  have hsource : (s.goto p).source =
      { s.source with handling := p.receives } := rfl
  rw [hsource, hp]
  exact Readiness.step_finish hreceives s.leaves

/-!
## `recvfrom`
-/

def delivered (s : Udploop A) (d : Datagram A) (rest : List (Datagram A)) :
    Udploop A :=
  { s with
    base := s.base.deliver (fun _ inbuff => inbuff) d rest
    taken := s.taken ++ [d]
    phase :=
      if s.base.udp.receiveCb then Phase.receiveCb d.sender
      else Phase.receiving }

def ended (s : Udploop A) (front rest : List (Datagram A)) : Udploop A :=
  { s with
    base := { s.base with queue := rest }.eventCb
    taken := s.taken ++ front
    phase := if s.base.udp.eventCb then Phase.eventCb else Phase.leaving }

theorem recvfrom_cases {failure : Option Errno}
    (hstep : s.recvfrom failure = some s') :
    s.phase = Phase.receiving ∧
      ((failure = none ∧ s.base.queue = [] ∧ s' = s.goto Phase.elsewhere) ∨
        (exists d rest, failure = none ∧ s.base.queue = d :: rest ∧
          d.payload ≠ [] ∧ s' = s.delivered d rest) ∨
        (exists d rest, failure = none ∧ s.base.queue = d :: rest ∧
          d.payload = [] ∧ s' = s.ended [d] rest) ∨
        (exists errno, failure = some errno ∧ errno.wouldBlock = false ∧
          s' = s.ended [] s.base.queue)) := by
  unfold recvfrom at hstep
  split at hstep
  · rename_i hphase
    cases hstep
    refine ⟨hphase, ?_⟩
    cases hqueue : s.base.queue with
    | nil =>
        refine Or.inl ⟨rfl, rfl, ?_⟩
        show ({ s with
          base := { s.base with queue := [] }
          taken := s.taken ++ []
          phase := Phase.elsewhere } : Udploop A) = _
        rw [List.append_nil, <- hqueue]
        rfl
    | cons d rest =>
        by_cases hempty : d.payload = []
        · refine Or.inr (Or.inr (Or.inl ⟨d, rest, rfl, rfl, hempty, ?_⟩))
          simp only [MoonNet.recvfrom, hempty, List.take_nil]
          rfl
        · refine Or.inr (Or.inl ⟨d, rest, rfl, rfl, hempty, ?_⟩)
          unfold delivered Reception.deliver
          cases hpayload : d.payload with
          | nil => exact absurd hpayload hempty
          | cons b bytes =>
              have htake : (b :: bytes).take BUFSIZE =
                  b :: bytes.take 1023 := rfl
              simp only [MoonNet.recvfrom, hpayload, htake]
              rfl
  · rename_i errno hphase
    split at hstep
    · cases hstep
    · rename_i hblock
      cases hstep
      have herrno : errno.wouldBlock = false := Bool.eq_false_iff.mpr hblock
      refine ⟨hphase, Or.inr (Or.inr (Or.inr ⟨errno, rfl, herrno, ?_⟩))⟩
      unfold onResult ended Reception.onResult Phase.after
      simp only [herrno, List.append_nil]
      rfl
  · cases hstep

@[simp] theorem delivered_ev (s : Udploop A) (d : Datagram A)
    (rest : List (Datagram A)) :
    (s.delivered d rest).base.udp.ev = s.base.udp.ev := by
  unfold delivered Reception.deliver Reception.receiveCb
  dsimp only
  split <;> rfl

@[simp] theorem delivered_inbuff (s : Udploop A) (d : Datagram A)
    (rest : List (Datagram A)) :
    (s.delivered d rest).base.udp.inbuff =
      s.base.udp.inbuff.append (d.payload.take BUFSIZE) := by
  unfold delivered Reception.deliver Reception.receiveCb
  dsimp only
  split <;> rfl

theorem delivered_receives (s : Udploop A) (d : Datagram A)
    (rest : List (Datagram A)) :
    (s.delivered d rest).phase.receives = true := by
  unfold delivered
  dsimp only
  split <;> rfl

@[simp] theorem ended_udp (s : Udploop A) (front rest : List (Datagram A)) :
    (s.ended front rest).base.udp = s.base.udp := by
  unfold ended Reception.eventCb
  dsimp only
  split <;> rfl

theorem ended_receives (s : Udploop A) (front rest : List (Datagram A)) :
    (s.ended front rest).phase.receives = true := by
  unfold ended
  dsimp only
  split <;> rfl

theorem ended_inv (h : Inv s) (front rest : List (Datagram A)) :
    Inv (s.ended front rest) := by
  refine { passed := ?_, skipped := ?_ }
  · rw [ended_udp]
    exact h.passed
  · intro revents hphase
    unfold ended at hphase
    dsimp only at hphase
    split at hphase <;> cases hphase

theorem delivered_inv (h : Inv s) (d : Datagram A) (rest : List (Datagram A)) :
    Inv (s.delivered d rest) := by
  refine { passed := ?_, skipped := ?_ }
  · rw [delivered_ev]
    exact h.passed
  · intro revents hphase
    unfold delivered at hphase
    dsimp only at hphase
    split at hphase <;> cases hphase

theorem recvfrom_inv (h : Inv s) {failure : Option Errno}
    (hstep : s.recvfrom failure = some s') : Inv s' := by
  rcases recvfrom_cases hstep with ⟨_, ⟨_, _, rfl⟩ |
    ⟨d, rest, _, _, _, rfl⟩ | ⟨d, rest, _, _, _, rfl⟩ | ⟨errno, _, _, rfl⟩⟩
  · exact { passed := h.passed, skipped := nofun }
  · exact delivered_inv h d rest
  · exact ended_inv h [d] rest
  · exact ended_inv h [] s.base.queue

theorem delivered_source (s : Udploop A) (d : Datagram A)
    (rest : List (Datagram A)) :
    (s.delivered d rest).source =
      { s.source with
        taken := s.source.taken ++ [d]
        waiting := rest
        handling := true } := by
  have hwatched : (s.delivered d rest).watched = s.watched := by
    unfold watched
    rw [delivered_ev]
  exact (Readiness.mk.injEq ..).mpr ⟨rfl, rfl,
    Reception.deliver_queue _ s.base d rest, hwatched, rfl,
    delivered_receives s d rest⟩

theorem ended_source (s : Udploop A) (front rest : List (Datagram A)) :
    (s.ended front rest).source =
      { s.source with
        taken := s.source.taken ++ front
        waiting := rest
        handling := true } := by
  have hwatched : (s.ended front rest).watched = s.watched := by
    unfold watched
    rw [ended_udp]
  exact (Readiness.mk.injEq ..).mpr ⟨rfl, rfl,
    Reception.eventCb_queue { s.base with queue := rest }, hwatched, rfl,
    ended_receives s front rest⟩

theorem recvfrom_matched {failure : Option Errno}
    (hstep : s.recvfrom failure = some s') :
    StepFn.Matches Readiness.step s.source s'.source
      (label s (Action.recvfrom failure)) := by
  rcases recvfrom_cases hstep with ⟨hphase, hcases⟩
  have hhandling : s.source.handling = true := by
    show s.phase.receives = true
    rw [hphase]
    rfl
  -- one datagram at the front of the queue is taken
  have htake : forall d rest, s.base.queue = d :: rest ->
      StepFn.Matches Readiness.step s.source
        { s.source with
          taken := s.source.taken ++ [d], waiting := rest, handling := true }
        (label s (Action.recvfrom none)) := by
    intro d rest hqueue
    have hreadable : s.readable = true := by
      apply readable_iff.mpr
      rw [hqueue]
      exact List.cons_ne_nil d rest
    show StepFn.Matches _ _ _ (if s.readable then _ else _)
    rw [if_pos hreadable, <- hhandling]
    have hwaiting : s.source.waiting = [d] ++ rest := hqueue
    exact Readiness.step_take hhandling hwaiting
  rcases hcases with ⟨rfl, hqueue, rfl⟩ | ⟨d, rest, rfl, hqueue, _, rfl⟩ |
    ⟨d, rest, rfl, hqueue, _, rfl⟩ | ⟨errno, rfl, _, rfl⟩
  · have hreadable : s.readable = false := by
      unfold readable
      rw [hqueue]
      rfl
    show StepFn.Matches _ _ _ (if s.readable then _ else _)
    rw [hreadable]
    show (if s.source.handling = true then _ else none) = _
    rw [if_pos hhandling]
    rfl
  · rw [delivered_source]
    exact htake d rest hqueue
  · rw [ended_source]
    exact htake d rest hqueue
  · rw [ended_source, List.append_nil]
    show { s.source with handling := true } = s.source
    rw [<- hhandling]

/-!
## All steps
-/

theorem step_inv {a : Action A} (h : Inv s) (hstep : step s a = some s') :
    Inv s' := by
  cases a with
  | arrives d =>
      cases hstep
      exact { passed := h.passed, skipped := fun _ _ _ => notify_seen _ }
  | wake =>
      cases hstep
      exact { passed := h.passed, skipped := fun _ _ _ _ _ => rfl }
  | wait revents => exact wait_inv h hstep
  | proceed =>
      rcases proceed_cases hstep with ⟨_, p, rfl, hp, _⟩
      refine { passed := h.passed, skipped := ?_ }
      intro revents hphase
      have hsame : p = Phase.handleCb revents := hphase
      rcases hp with rfl | rfl | ⟨_, rfl⟩ <;> cases hsame
  | recvfrom failure => exact recvfrom_inv h hstep
  | receive len =>
      rw [ifUser_eq hstep]
      exact { passed := h.passed, skipped := h.skipped }
  | receiveAll =>
      rw [ifUser_eq hstep]
      exact { passed := h.passed, skipped := h.skipped }
  | call c =>
      rw [ifUser_eq hstep]
      exact {
        passed := call_passed h.passed c
        skipped := fun _ _ _ => notify_seen _ }
  | disableCb =>
      rw [ifUser_eq hstep]
      exact { passed := h.passed, skipped := h.skipped }

theorem step_matched {a : Action A} (hstep : step s a = some s') :
    StepFn.Matches Readiness.step s.source s'.source (label s a) := by
  cases a with
  | arrives d =>
      cases hstep
      rfl
  | wake =>
      cases hstep
      refine congrArg some ((Readiness.mk.injEq ..).mpr
        ⟨rfl, rfl, rfl, rfl, ?_, rfl⟩)
      show ((s.edge || true) || _) = true
      rw [Bool.or_true, Bool.true_or]
  | wait revents =>
      rcases wait_cases hstep with ⟨hphase, hedge, _, rfl⟩
      have hcan : (s.source.edge && !s.source.handling) = true := by
        show (s.edge && !s.phase.receives) = true
        rw [hedge, hphase]
        rfl
      show (if _ = true then _ else none) = _
      rw [if_pos hcan]
      rfl
  | proceed => exact proceed_matched hstep
  | recvfrom failure => exact recvfrom_matched hstep
  | receive len =>
      rw [ifUser_eq hstep]
      rfl
  | receiveAll =>
      rw [ifUser_eq hstep]
      rfl
  | call c =>
      rw [ifUser_eq hstep]
      exact call_matched s c
  | disableCb =>
      rw [ifUser_eq hstep]
      rfl

theorem source_maps :
    StepFn.Maps (step (A := A)) Readiness.step Inv source label where
  keeps := fun _ _ _ h hstep => step_inv h hstep
  matched := fun _ _ _ _ hstep => step_matched hstep

theorem step_arrived {a : Action A} (hstep : step s a = some s')
    (hno : forall d, a ≠ Action.arrives d) : s'.arrived = s.arrived := by
  have hmatch := step_matched hstep
  cases hlabel : label s a with
  | none =>
      rw [hlabel] at hmatch
      exact congrArg Readiness.arrived hmatch
  | some x =>
      rw [hlabel] at hmatch
      refine Readiness.step_arrived hmatch ?_
      rintro items rfl
      cases a with
      | arrives d => exact hno d rfl
      | proceed =>
          unfold label at hlabel
          dsimp only at hlabel
          split at hlabel <;> cases hlabel
      | recvfrom failure =>
          cases failure with
          | none =>
              unfold label at hlabel
              dsimp only at hlabel
              split at hlabel <;> cases hlabel
          | some errno => cases hlabel
      | _ => cases hlabel

/-!
# Taken once and in order
-/

/--
What has arrived has been taken or waits in the socket, in this order.  Each
payload that was taken, cut off at `BUFSIZE` bytes, has been appended to
`inbuff_` once and in order, the bytes have been received by the user or are
still there, and `receive_cb_` has been called for such datagrams only, for each
of them at most once.
-/
structure InOrder (s : Udploop A) : Prop where
  stream : s.taken ++ s.base.queue = s.arrived
  appends :
    s.base.appends =
      (Datagram.arrived s.taken).map fun d => d.payload.take BUFSIZE
  bytes :
    s.received ++ s.base.udp.inbuff.contents = s.base.appends.flatten
  told :
    s.base.received.Sublist ((Datagram.arrived s.taken).map Datagram.sender)

theorem arrived_append (xs ys : List (Datagram A)) :
    Datagram.arrived (xs ++ ys) = Datagram.arrived xs ++ Datagram.arrived ys :=
  List.filter_append xs ys

theorem receive_bytes (s : Udploop A) (len : Nat) :
    (s.receive len).received ++ (s.receive len).base.udp.inbuff.contents =
      s.received ++ s.base.udp.inbuff.contents := by
  show s.received ++ (s.base.udp.inbuff.remove len).snd ++
    (s.base.udp.inbuff.remove len).fst.contents = _
  rw [ValidBuffer.remove_fst, ValidBuffer.remove_snd, List.append_assoc,
    List.take_append_drop]

theorem receive_inOrder (h : InOrder s) (len : Nat) :
    InOrder (s.receive len) where
  stream := h.stream
  appends := h.appends
  bytes := (receive_bytes s len).trans h.bytes
  told := h.told

theorem delivered_inOrder (h : InOrder s) {d : Datagram A}
    {rest : List (Datagram A)} (hqueue : s.base.queue = d :: rest)
    (hbytes : d.payload ≠ []) : InOrder (s.delivered d rest) := by
  have hone : Datagram.arrived (s.taken ++ [d]) =
      Datagram.arrived s.taken ++ [d] := by
    rw [arrived_append, Reception.arrived_cons [] hbytes]
    rfl
  have happends : (s.delivered d rest).base.appends =
      s.base.appends ++ [d.payload.take BUFSIZE] :=
    Reception.deliver_appends _ s.base d rest
  refine { stream := ?_, appends := ?_, bytes := ?_, told := ?_ }
  · show s.taken ++ [d] ++ (s.base.deliver _ d rest).queue = s.arrived
    rw [Reception.deliver_queue, <- h.stream, hqueue, List.append_assoc]
    rfl
  · show _ = (Datagram.arrived (s.taken ++ [d])).map _
    rw [happends, hone, List.map_append, h.appends]
    rfl
  · rw [happends, delivered_inbuff, ValidBuffer.contents_append,
      List.flatten_append, List.flatten_singleton, <- h.bytes,
      List.append_assoc]
    rfl
  · show (s.base.deliver _ d rest).received.Sublist
      ((Datagram.arrived (s.taken ++ [d])).map Datagram.sender)
    rw [Reception.deliver_received, hone, List.map_append]
    refine h.told.append ?_
    split
    · exact List.Sublist.refl _
    · exact List.nil_sublist _

theorem ended_inOrder (h : InOrder s) {front rest : List (Datagram A)}
    (hqueue : s.base.queue = front ++ rest)
    (hempty : Datagram.arrived front = []) : InOrder (s.ended front rest) := by
  have hsame : Datagram.arrived (s.taken ++ front) =
      Datagram.arrived s.taken := by
    rw [arrived_append, hempty, List.append_nil]
  have htold : (s.ended front rest).base.received = s.base.received := by
    unfold ended Reception.eventCb
    dsimp only
    split <;> rfl
  have happends : (s.ended front rest).base.appends = s.base.appends :=
    Reception.eventCb_appends { s.base with queue := rest }
  refine { stream := ?_, appends := ?_, bytes := ?_, told := ?_ }
  · show s.taken ++ front ++ (Reception.eventCb _).queue = s.arrived
    rw [Reception.eventCb_queue, List.append_assoc, <- hqueue]
    exact h.stream
  · show _ = (Datagram.arrived (s.taken ++ front)).map _
    rw [happends, hsame]
    exact h.appends
  · rw [happends, ended_udp]
    exact h.bytes
  · show List.Sublist _ ((Datagram.arrived (s.taken ++ front)).map _)
    rw [htold, hsame]
    exact h.told

theorem recvfrom_inOrder (h : InOrder s) {failure : Option Errno}
    (hstep : s.recvfrom failure = some s') : InOrder s' := by
  rcases recvfrom_cases hstep with ⟨_, ⟨_, _, rfl⟩ |
    ⟨d, rest, _, hqueue, hbytes, rfl⟩ | ⟨d, rest, _, hqueue, hempty, rfl⟩ |
    ⟨errno, _, _, rfl⟩⟩
  · exact ⟨h.stream, h.appends, h.bytes, h.told⟩
  · exact delivered_inOrder h hqueue hbytes
  · exact ended_inOrder h hqueue (Reception.arrived_cons_empty [] hempty)
  · exact ended_inOrder h rfl rfl

theorem step_inOrder {a : Action A} (h : InOrder s)
    (hstep : step s a = some s') : InOrder s' := by
  cases a with
  | arrives d =>
      cases hstep
      refine ⟨?_, h.appends, h.bytes, h.told⟩
      show s.taken ++ (s.base.queue ++ [d]) = s.arrived ++ [d]
      rw [<- List.append_assoc, h.stream]
  | wake =>
      cases hstep
      exact ⟨h.stream, h.appends, h.bytes, h.told⟩
  | wait revents =>
      rcases wait_cases hstep with ⟨_, _, _, rfl⟩
      exact ⟨h.stream, h.appends, h.bytes, h.told⟩
  | proceed =>
      rcases proceed_cases hstep with ⟨_, p, rfl, _⟩
      exact ⟨h.stream, h.appends, h.bytes, h.told⟩
  | recvfrom failure => exact recvfrom_inOrder h hstep
  | receive len =>
      rw [ifUser_eq hstep]
      exact receive_inOrder h len
  | receiveAll =>
      rw [ifUser_eq hstep]
      exact receive_inOrder h _
  | call c =>
      rw [ifUser_eq hstep]
      refine ⟨h.stream, h.appends, ?_, h.told⟩
      show s.received ++ (s.base.udp.call c).inbuff.contents = _
      rw [call_inbuff]
      exact h.bytes
  | disableCb =>
      rw [ifUser_eq hstep]
      exact ⟨h.stream, h.appends, h.bytes, h.told⟩

theorem start_inOrder (receiveCb eventCb : Bool) :
    InOrder (start receiveCb eventCb : Udploop A) where
  stream := rfl
  appends := rfl
  bytes := rfl
  told := List.Sublist.refl _

/-!
# No datagram is left waiting
-/

/--
While `EPOLLIN` is in the mask and a datagram waits, `handle_receive` is at it,
or an edge is due.
-/
def Attended (s : Udploop A) : Prop :=
  s.watched = true -> s.base.queue ≠ [] ->
    s.edge = true ∨ s.phase.receives = true

/--
When `handle_receive` breaks out of its loop because of an empty datagram or an
error, no datagram is waiting, or an edge is due.
-/
def LeavesNoneBehind (s : Udploop A) : Action A -> Prop
  | Action.proceed => s.phase = Phase.leaving -> Seen s
  | _ => True

theorem attended_iff : s.Attended <-> s.source.Attended :=
  Iff.rfl

theorem leaves_iff : s.leaves = true <->
    s.phase = Phase.leaving ∨
      exists revents, s.phase = Phase.handleCb revents ∧
        Duplex.readFlags revents = false := by
  unfold leaves
  cases s.phase with
  | handleCb revents => simp
  | _ => simp

theorem leavesNothing_iff {a : Action A} (h : Inv s)
    (hstep : step s a = some s') :
    (forall x, label s a = some x -> s.source.LeavesNothing x) <->
      LeavesNoneBehind s a := by
  cases a with
  | proceed =>
      constructor
      · intro hall hphase
        have hlabel : label s Action.proceed = some Readiness.Action.finish :=
          if_pos (leaves_iff.mpr (Or.inl hphase))
        exact hall _ hlabel rfl
      · intro hguard x hlabel _ hwatched hqueue
        cases hleaves : s.leaves with
        | false =>
            unfold label at hlabel
            dsimp only at hlabel
            rw [hleaves] at hlabel
            cases hlabel
        | true =>
            rcases leaves_iff.mp hleaves with
              hphase | ⟨revents, hphase, hflags⟩
            · exact hguard hphase hwatched hqueue
            · exact h.skipped revents hphase hflags hwatched hqueue
  | recvfrom failure =>
      refine iff_of_true ?_ trivial
      intro x hlabel hfinish _ hqueue
      cases failure with
      | none =>
          have hreadable : s.readable = true := readable_iff.mpr hqueue
          unfold label at hlabel
          dsimp only at hlabel
          rw [if_pos hreadable] at hlabel
          cases hlabel
          cases hfinish
      | some errno => cases hlabel
  | arrives d => exact iff_of_true (fun x hx => by cases hx; nofun) trivial
  | wake => exact iff_of_true (fun x hx => by cases hx; nofun) trivial
  | wait revents => exact iff_of_true (fun x hx => by cases hx; nofun) trivial
  | receive len => exact iff_of_true nofun trivial
  | receiveAll => exact iff_of_true nofun trivial
  | call c => exact iff_of_true (fun x hx => by cases hx; nofun) trivial
  | disableCb => exact iff_of_true nofun trivial

theorem step_attended_iff {a : Action A} (h : Inv s) (hattended : s.Attended)
    (hstep : step s a = some s') : s'.Attended <-> LeavesNoneBehind s a := by
  rw [attended_iff, <- leavesNothing_iff h hstep]
  exact source_maps.step_iff
    (fun _ _ _ _ hq => Readiness.step_attended_iff hq) h
    (attended_iff.mp hattended) hstep

/--
Whatever arrives and whatever the kernel and the user do, every datagram is
taken once and in order; and none is left waiting without being due to be taken,
throughout a run, exactly if `handle_receive` never breaks out of its loop, at
an empty datagram or an error, while datagrams wait and no edge is due.
-/
theorem datagrams_inOrder_attended (receiveCb eventCb : Bool)
    (acts : List (Action A)) (t : Udploop A)
    (hrun : StepFn.run step (start receiveCb eventCb) acts = some t) :
    t.InOrder ∧
      (StepFn.Throughout step Attended (start receiveCb eventCb) acts <->
        StepFn.Meets step LeavesNoneBehind (start receiveCb eventCb) acts) := by
  have hstart : Inv (start receiveCb eventCb : Udploop A) :=
    start_inv receiveCb eventCb
  constructor
  · exact StepFn.run_invariant (fun _ _ _ h hstep => step_inOrder h hstep)
      (start_inOrder receiveCb eventCb) hrun
  · exact StepFn.throughout_iff_meets
      (fun s a s' hs h hstep => step_attended_iff h hs hstep)
      (fun _ hqueue => absurd rfl hqueue)
      (StepFn.meets_of_invariant (fun _ _ _ h hstep => step_inv h hstep)
        hstart acts) hrun

instance (s : Udploop A) : Decidable s.Seen := by
  unfold Seen
  infer_instance

instance [DecidableEq A] (s : Udploop A) (a : Action A) :
    Decidable (s.LeavesNoneBehind a) := by
  cases a <;> unfold LeavesNoneBehind <;> infer_instance

def twoHeard : List (Action Nat) :=
  [Action.arrives ⟨1, [104]⟩, Action.wait EPOLLIN, Action.proceed,
    Action.recvfrom none, Action.receiveAll, Action.arrives ⟨2, [105]⟩,
    Action.proceed, Action.recvfrom none, Action.proceed,
    Action.recvfrom none, Action.wait EPOLLIN, Action.proceed,
    Action.recvfrom none]

theorem datagrams_inOrder_attended_twoHeard :
    exists t, StepFn.run step (start true true) twoHeard = some t ∧
      t.InOrder ∧ t.received = [104] ∧ t.base.queue = [] ∧
      StepFn.Throughout step Attended (start true true) twoHeard := by
  have hreached :
      (StepFn.run step (start true true) twoHeard).map
        (fun t => (t.received, t.base.queue)) = some ([104], []) := by
    decide +kernel
  rcases Option.map_eq_some_iff.mp hreached with ⟨t, hrun, hshown⟩
  rcases Prod.mk.inj hshown with ⟨hreceived, hqueue⟩
  have h := datagrams_inOrder_attended true true twoHeard t hrun
  exact ⟨t, hrun, h.left, hreceived, hqueue, h.right.mpr (by decide +kernel)⟩

/-- An empty datagram in front of another one breaks the loop too early. -/
example : ¬ StepFn.Meets step LeavesNoneBehind (start true false)
    [Action.arrives (⟨1, []⟩ : Datagram Nat), Action.arrives ⟨2, [65]⟩,
      Action.wait EPOLLIN, Action.proceed, Action.recvfrom none,
      Action.proceed] := by
  decide +kernel

end Udploop

end MoonNet
