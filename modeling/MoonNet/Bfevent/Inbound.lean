import MoonNet.Bfevent.Duplex
import MoonNet.Bfevent.PendingOutput
import MoonNet.Foundation.Readiness

/-!
# The inbound stream of a connection

Seen from the socket, a connection is a source of bytes that ends with an end of
stream, and `handle_read` is its handler.  The user's calls, the callbacks and
the whole outbound machine do not interfere, except that they arm the source and
disarm it.  So every byte is received once and in order, and nothing is left
unread in the socket unless a read fails.
-/

namespace MoonNet

open Foundation
open Kernel

theorem and_EPOLLIN_ne_zero (m : Mask) :
    (m &&& EPOLLIN != 0) = m.getLsbD 0 := by
  have hbit : m &&& EPOLLIN = if m.getLsbD 0 then EPOLLIN else 0#32 :=
    BitVec.and_twoPow m 0
  rw [hbit]
  cases m.getLsbD 0 with
  | false => rfl
  | true => rfl

/-!
# What the outbound machine leaves alone
-/

/--
The input buffer, `readcb_` and the interest in `EPOLLIN` are kept, and what the
kernel has accepted grows, if it changes.
-/
structure Conn.SendsOnly (c c' : Conn) : Prop where
  accepted : c.wire.accepted <+: c'.wire.accepted
  inbuff : c'.bev.inbuff = c.bev.inbuff
  readcb : c'.bev.readcb = c.bev.readcb
  passed : c.bev.ev.Passed -> c'.bev.ev.Passed
  input : c'.bev.ev.events.getLsbD 0 = c.bev.ev.events.getLsbD 0

namespace Conn

theorem SendsOnly.refl (c : Conn) : c.SendsOnly c where
  accepted := List.prefix_refl _
  inbuff := rfl
  readcb := rfl
  passed := id
  input := rfl

theorem SendsOnly.trans {c c' c'' : Conn} (h : c.SendsOnly c')
    (h' : c'.SendsOnly c'') : c.SendsOnly c'' where
  accepted := h.accepted.trans h'.accepted
  inbuff := h'.inbuff.trans h.inbuff
  readcb := h'.readcb.trans h.readcb
  passed := fun hpassed => h'.passed (h.passed hpassed)
  input := h'.input.trans h.input

theorem Update.sendsOnly {c c' : Conn} (h : Update c c') : c.SendsOnly c' := by
  cases h with
  | offer regions bytes r =>
      have haccepted : c.wire.accepted <+:
          (c.wire.offer regions bytes r).accepted := by
        cases r with
        | failed errno => exact List.prefix_refl _
        | accepted n => exact List.prefix_append _ _
      exact { SendsOnly.refl c with accepted := haccepted }
  | appendEnable bytes =>
      exact { SendsOnly.refl c with
        passed := fun hpassed => Interest.enableEvents_passed hpassed EPOLLOUT
        input := Interest.enableEvents_getLsbD c.bev.ev EPOLLOUT 0 }
  | disableWrite hempty =>
      exact { SendsOnly.refl c with
        passed := fun hpassed => Interest.disableEvents_passed hpassed EPOLLOUT
        input := Interest.disableEvents_getLsbD c.bev.ev EPOLLOUT 0 }
  | _ => exact { SendsOnly.refl c with }

theorem Updates.sendsOnly {c c' : Conn} (h : c.Updates c') : c.SendsOnly c' :=
  h.lift SendsOnly.refl SendsOnly.trans Update.sendsOnly

end Conn

namespace Outbound

theorem step_sendsOnly {s s' : State} {a : Action}
    (hstep : step s a = some s') : s.conn.SendsOnly s'.conn :=
  (step_updates hstep).sendsOnly

end Outbound

namespace Duplex

/-!
# The source
-/

def endItem (b : Bool) : List (Option UInt8) :=
  if b then [none] else []

def unread (s : Duplex) : List (Option UInt8) :=
  s.socket.map some ++ endItem (s.eof && !s.ended)

def source (s : Duplex) : Readiness (Option UInt8) where
  arrived := s.arrived.map some ++ endItem s.eof
  taken := (s.received ++ s.bev.inbuff.contents).map some ++ endItem s.ended
  waiting := s.unread
  armed := s.watched
  edge := s.edge
  handling := s.phase.reads

def leaves (s : Duplex) : Bool :=
  match s.phase with
  | Phase.testIn revents => !readFlags revents
  | Phase.testEventcb _ => !s.bev.eventcb
  | Phase.endcb _ => true
  | _ => false

/-- `EPOLL_CTL_MOD` with what the user has changed. -/
def armed (t : Duplex) : Readiness.Action (Option UInt8) :=
  Readiness.Action.arm t.watched (t.watched && t.readable)

def label (s : Duplex) : Action -> Option (Readiness.Action (Option UInt8))
  | Action.peerSends bytes => some (Readiness.Action.arrive (bytes.map some))
  | Action.peerEnds => some (Readiness.Action.arrive [none])
  | Action.wake => some (Readiness.Action.arm s.watched true)
  | Action.wait _ => some Readiness.Action.notice
  | Action.proceed => if s.leaves then some Readiness.Action.finish else none
  | Action.readiov (ReadResult.received []) =>
      some (Readiness.Action.take (if s.ended then 0 else 1))
  | Action.readiov (ReadResult.received (b :: rest)) =>
      some (Readiness.Action.take (b :: rest).length)
  | Action.readiov (ReadResult.failed errno) =>
      if errno.wouldBlock then some Readiness.Action.finish else none
  | Action.setrcb readcb => some (s.setrcb readcb).armed
  | Action.enableRead => some s.enableRead.armed
  | Action.disableRead => some s.disableRead.armed
  | Action.receive _ | Action.receiveAll | Action.sendout _ _ _
  | Action.writeRound _ | Action.writeDone | Action.callbackReturn => none

def Seen (s : Duplex) : Prop :=
  s.watched = true -> s.unread ≠ [] -> s.edge = true

/--
The kernel has the current mask, nothing follows the end of the stream, outbound
activations run inside of callbacks and of `handle_write`, and what `handle_cb`
is not going to read is due to be reported again.
-/
structure Inv (s : Duplex) : Prop where
  passed : s.bev.ev.Passed
  ended : s.ended = true -> s.socket = [] ∧ s.eof = true
  nested : s.out.stack ≠ [] ->
    s.phase.user = true ∨ exists revents, s.phase = Phase.writing revents
  skipped : forall revents, s.phase = Phase.testIn revents ->
    readFlags revents = false -> Seen s

variable {s s' : Duplex}

theorem watched_eq (h : s.bev.ev.Passed) :
    s.watched = s.bev.ev.events.getLsbD 0 := by
  unfold watched
  rw [h]
  exact and_EPOLLIN_ne_zero s.bev.ev.events

theorem readable_of_unread (h : s.unread ≠ []) : s.readable = true := by
  unfold readable
  cases hsocket : s.socket with
  | cons b rest => rfl
  | nil =>
      cases heof : s.eof with
      | true => rfl
      | false =>
          unfold unread at h
          rw [hsocket, heof] at h
          exact absurd rfl h

theorem notify_seen (s : Duplex) : Seen s.notify := by
  intro hwatched hunread
  have hone : s.watched = true := hwatched
  have htwo : s.readable = true := readable_of_unread (s := s) hunread
  show (s.edge || (s.watched && s.readable)) = true
  rw [hone, htwo]
  exact Bool.or_true s.edge

theorem start_inv {bev : Bfevent}
    (hpassed : bev.ev.registered = some bev.ev.events) : Inv (start bev) where
  passed := hpassed
  ended := nofun
  nested := fun hstack => absurd rfl hstack
  skipped := nofun

/-!
# Steps of the outbound machine
-/

theorem outbound_eq {a : Outbound.Action} (hstep : s.outbound a = some s') :
    exists out, Outbound.step s.out a = some out ∧
      s' = { s with out := out } := by
  unfold outbound at hstep
  cases hout : Outbound.step s.out a with
  | none =>
      rw [hout] at hstep
      cases hstep
  | some out =>
      rw [hout] at hstep
      cases hstep
      exact ⟨out, rfl, rfl⟩

theorem outbound_source (h : s.bev.ev.Passed) {a : Outbound.Action}
    (hstep : s.outbound a = some s') : s'.source = s.source := by
  rcases outbound_eq hstep with ⟨out, hout, rfl⟩
  have hkept := Outbound.step_sendsOnly hout
  have hwatched : ({ s with out := out } : Duplex).watched = s.watched := by
    rw [watched_eq h, watched_eq (s := { s with out := out })
      (hkept.passed h)]
    exact hkept.input
  have hinbuff : out.conn.bev.inbuff = s.bev.inbuff := hkept.inbuff
  unfold source
  rw [hwatched]
  unfold bev
  rw [hinbuff]
  rfl

theorem outbound_inv (h : Inv s) {a : Outbound.Action}
    (hstep : s.outbound a = some s')
    (hnested : s.out.stack = [] -> s.phase.user = true ∨
      exists revents, s.phase = Phase.writing revents) : Inv s' := by
  have hsource := outbound_source h.passed hstep
  have hwatched : s'.watched = s.watched :=
    congrArg Readiness.armed hsource
  have hunread : s'.unread = s.unread :=
    congrArg Readiness.waiting hsource
  rcases outbound_eq hstep with ⟨out, hout, rfl⟩
  refine
    { passed := (Outbound.step_sendsOnly hout).passed h.passed
      ended := h.ended
      nested := ?_
      skipped := ?_ }
  · intro _
    by_cases hstack : s.out.stack = []
    · exact hnested hstack
    · exact h.nested hstack
  · intro revents hphase hflags harmed hwaiting
    rw [hwatched] at harmed
    rw [hunread] at hwaiting
    exact h.skipped revents hphase hflags harmed hwaiting

/-!
# Steps of the handler
-/

/-- Where a test leads, unless it leads into `handle_write`. -/
structure Leads (s : Duplex) (p : Phase) : Prop where
  notFirst : forall revents, p ≠ Phase.testIn revents
  reads : p.reads = (s.phase.reads && !s.leaves)
  writes : p.writes = s.phase.writes
  notWriting : forall revents, s.phase = Phase.testOut revents ->
    has revents EPOLLOUT = false

theorem proceed_cases (hstep : s.proceed = some s') :
    s.out.stack = [] ∧
      ((exists p, s' = s.goto p ∧ s.Leads p) ∨
        exists revents, s.phase = Phase.testOut revents ∧
          has revents EPOLLOUT = true ∧
          (s.goto (Phase.writing revents)).outbound
            Outbound.Action.handleWrite = some s') := by
  unfold proceed at hstep
  split at hstep
  · rename_i hstack
    refine ⟨List.isEmpty_iff.mp hstack, ?_⟩
    cases hphase : s.phase with
    | elsewhere =>
        rw [hphase] at hstep
        cases hstep
    | testIn revents =>
        rw [hphase] at hstep
        cases hstep
        refine Or.inl ⟨_, rfl, ?_⟩
        constructor
        · intro revents'
          split <;> nofun
        · unfold leaves
          rw [hphase]
          dsimp only
          cases readFlags revents with
          | false => rfl
          | true => rfl
        · rw [hphase]
          split <;> rfl
        · rw [hphase]
          nofun
    | reading revents =>
        rw [hphase] at hstep
        cases hstep
    | testReadcb revents =>
        rw [hphase] at hstep
        cases hstep
        refine Or.inl ⟨_, rfl, ?_⟩
        constructor
        · intro revents'
          split <;> nofun
        · unfold leaves
          rw [hphase]
          split <;> rfl
        · rw [hphase]
          split <;> rfl
        · rw [hphase]
          nofun
    | readcb revents =>
        rw [hphase] at hstep
        cases hstep
        refine Or.inl ⟨_, rfl, ?_⟩
        constructor
        · nofun
        · unfold leaves
          rw [hphase]
          rfl
        · rw [hphase]
          rfl
        · rw [hphase]
          nofun
    | testEventcb revents =>
        rw [hphase] at hstep
        cases hstep
        refine Or.inl ⟨_, rfl, ?_⟩
        constructor
        · intro revents'
          split <;> nofun
        · unfold leaves
          rw [hphase]
          dsimp only
          cases s.bev.eventcb with
          | false => rfl
          | true => rfl
        · rw [hphase]
          split <;> rfl
        · rw [hphase]
          nofun
    | endcb revents =>
        rw [hphase] at hstep
        cases hstep
        refine Or.inl ⟨_, rfl, ?_⟩
        constructor
        · nofun
        · unfold leaves
          rw [hphase]
          rfl
        · rw [hphase]
          rfl
        · rw [hphase]
          nofun
    | testOut revents =>
        rw [hphase] at hstep
        dsimp only at hstep
        split at hstep
        · rename_i hout
          exact Or.inr ⟨revents, rfl, hout, hstep⟩
        · rename_i hout
          cases hstep
          refine Or.inl ⟨_, rfl, ?_⟩
          constructor
          · nofun
          · unfold leaves
            rw [hphase]
            rfl
          · rw [hphase]
            exact (Bool.eq_false_iff.mpr hout).symm
          · intro revents' hsame
            rw [hphase] at hsame
            cases hsame
            exact Bool.eq_false_iff.mpr hout
    | writing revents =>
        rw [hphase] at hstep
        cases hstep
        refine Or.inl ⟨_, rfl, ?_⟩
        constructor
        · nofun
        · unfold leaves
          rw [hphase]
          rfl
        · rw [hphase]
          rfl
        · rw [hphase]
          nofun
    | testErr revents =>
        rw [hphase] at hstep
        cases hstep
        refine Or.inl ⟨_, rfl, ?_⟩
        constructor
        · intro revents'
          split <;> nofun
        · unfold leaves
          rw [hphase]
          split <;> rfl
        · rw [hphase]
          split <;> rfl
        · rw [hphase]
          nofun
    | eventcb =>
        rw [hphase] at hstep
        cases hstep
        refine Or.inl ⟨_, rfl, ?_⟩
        constructor
        · nofun
        · unfold leaves
          rw [hphase]
          rfl
        · rw [hphase]
          rfl
        · rw [hphase]
          nofun
  · cases hstep

theorem goto_inv (h : Inv s) (hstack : s.out.stack = []) {p : Phase}
    (hp : forall revents, p ≠ Phase.testIn revents) : Inv (s.goto p) where
  passed := h.passed
  ended := h.ended
  nested := fun hne => absurd hstack hne
  skipped := fun revents hphase => absurd hphase (hp revents)

theorem goto_source (s : Duplex) (p : Phase) :
    (s.goto p).source = { s.source with handling := p.reads } := rfl

theorem proceed_inv (h : Inv s) (hstep : s.proceed = some s') : Inv s' := by
  rcases proceed_cases hstep with
    ⟨hstack, ⟨p, rfl, hleads⟩ | ⟨revents, _, _, hout⟩⟩
  · exact goto_inv h hstack hleads.notFirst
  · have hinv : Inv (s.goto (Phase.writing revents)) :=
      goto_inv h hstack fun _ hne => by cases hne
    exact outbound_inv hinv hout (fun _ => Or.inr ⟨revents, rfl⟩)

theorem proceed_matched (h : Inv s) (hstep : s.proceed = some s') :
    StepFn.Matches Readiness.step s.source s'.source
      (label s Action.proceed) := by
  rcases proceed_cases hstep with
    ⟨_, ⟨p, rfl, hleads⟩ | ⟨revents, hphase, _, hout⟩⟩
  · show StepFn.Matches _ _ _ (if s.leaves then _ else none)
    rw [goto_source, hleads.reads]
    cases hleaves : s.leaves with
    | false =>
        rw [Bool.not_false, Bool.and_true]
        exact rfl
    | true =>
        have hreading : s.phase.reads = true := by
          unfold leaves at hleaves
          split at hleaves
          · rename_i hphase
            rw [hphase]
            rfl
          · rename_i hphase
            rw [hphase]
            rfl
          · rename_i hphase
            rw [hphase]
            rfl
          · cases hleaves
        rw [Bool.not_true, Bool.and_false]
        show (if s.phase.reads = true then _ else none) = _
        rw [if_pos hreading]
  · have hleaves : s.leaves = false := by
      unfold leaves
      rw [hphase]
    have hsource : s.source.handling = false := by
      show s.phase.reads = false
      rw [hphase]
      rfl
    have hpassed : (s.goto (Phase.writing revents)).bev.ev.Passed := h.passed
    show StepFn.Matches _ _ _ (if s.leaves then _ else none)
    rw [hleaves, outbound_source hpassed hout, goto_source]
    show { s.source with handling := false } = s.source
    rw [<- hsource]

/-!
## `readiov`
-/

theorem readiov_cases {r : ReadResult} (hstep : s.readiov r = some s') :
    exists revents, s.phase = Phase.reading revents ∧
      ((r = ReadResult.received [] ∧ s.socket = [] ∧ s.eof = true ∧
          s' = { s with ended := true, phase := Phase.testEventcb revents }) ∨
        (exists b rest, exists h : (b :: rest).length <= s.bev.inbuff.iovBytes,
          r = ReadResult.received (b :: rest) ∧ b :: rest <+: s.socket ∧
          s' = { s with
            socket := s.socket.drop (b :: rest).length
            phase := Phase.testReadcb revents }.setBev
              { s.bev with inbuff := s.bev.inbuff.receive (b :: rest) h }) ∨
        (exists errno, r = ReadResult.failed errno ∧
          (errno.wouldBlock = true ∧ s.readable = false ∧
              s' = s.goto (Phase.testOut revents) ∨
            errno.wouldBlock = false ∧
              s' = s.goto (Phase.testEventcb revents)))) := by
  unfold readiov at hstep
  split at hstep
  · rename_i revents hphase
    split at hstep
    · rename_i hend
      cases hstep
      exact ⟨revents, hphase, Or.inl ⟨rfl, hend.left, hend.right, rfl⟩⟩
    · cases hstep
  · rename_i revents b rest hphase
    split at hstep
    · rename_i hfits
      split at hstep
      · rename_i hfront
        cases hstep
        exact ⟨revents, hphase, Or.inr (Or.inl ⟨b, rest, hfits, rfl,
          List.isPrefixOf_iff_prefix.mp hfront, rfl⟩)⟩
      · cases hstep
    · cases hstep
  · rename_i revents errno hphase
    refine ⟨revents, hphase, Or.inr (Or.inr ⟨errno, rfl, ?_⟩)⟩
    split at hstep
    · rename_i hblock
      split at hstep
      · cases hstep
      · rename_i hreadable
        cases hstep
        exact Or.inl ⟨hblock, Bool.eq_false_iff.mpr hreadable, rfl⟩
    · rename_i hblock
      cases hstep
      exact Or.inr ⟨Bool.eq_false_iff.mpr hblock, rfl⟩
  · cases hstep

theorem readiov_inv (h : Inv s) {r : ReadResult}
    (hstep : s.readiov r = some s') : Inv s' := by
  rcases readiov_cases hstep with ⟨revents, hphase, hcases⟩
  have hstack : s.out.stack = [] := by
    by_contra hne
    rcases h.nested hne with huser | ⟨revents', hwriting⟩
    · rw [hphase] at huser
      cases huser
    · rw [hphase] at hwriting
      cases hwriting
  rcases hcases with ⟨_, hsocket, heof, rfl⟩ |
    ⟨b, rest, hfits, _, hfront, rfl⟩ | ⟨errno, _, ⟨_, _, rfl⟩ | ⟨_, rfl⟩⟩
  · exact {
      passed := h.passed
      ended := fun _ => ⟨hsocket, heof⟩
      nested := fun hne => absurd hstack hne
      skipped := nofun }
  · have hended : s.ended = true -> False := by
      intro hended
      rw [(h.ended hended).left] at hfront
      cases List.prefix_nil.mp hfront
    exact {
      passed := h.passed
      ended := fun hend => absurd hend hended
      nested := fun hne => absurd hstack hne
      skipped := nofun }
  · exact goto_inv h hstack fun _ hne => by cases hne
  · exact goto_inv h hstack fun _ hne => by cases hne

theorem readiov_matched (h : Inv s) {r : ReadResult}
    (hstep : s.readiov r = some s') :
    StepFn.Matches Readiness.step s.source s'.source
      (label s (Action.readiov r)) := by
  rcases readiov_cases hstep with ⟨revents, hphase, hcases⟩
  have hreading : s.source.handling = true := by
    show s.phase.reads = true
    rw [hphase]
    rfl
  rcases hcases with ⟨rfl, hsocket, heof, rfl⟩ |
    ⟨b, rest, hfits, rfl, hfront, rfl⟩ | ⟨errno, rfl, ⟨hblock, _, rfl⟩ | ⟨hblock, rfl⟩⟩
  · have hwaiting : s.source.waiting = endItem (!s.ended) ++ [] := by
      show s.socket.map some ++ endItem (s.eof && !s.ended) = _
      rw [hsocket, heof, List.append_nil]
      rfl
    have htake := Readiness.step_take hreading hwaiting
    have hlength : (endItem (!s.ended)).length = if s.ended then 0 else 1 := by
      cases s.ended with
      | false => rfl
      | true => rfl
    rw [hlength] at htake
    have htaken : s.source.taken ++ endItem (!s.ended) =
        (s.received ++ s.bev.inbuff.contents).map some ++ endItem true := by
      show _ ++ endItem s.ended ++ endItem (!s.ended) = _
      cases s.ended with
      | false => exact congrArg (· ++ [none]) (List.append_nil _)
      | true => exact List.append_nil _
    have hrest : ([] : List (Option UInt8)) =
        s.socket.map some ++ endItem (s.eof && !true) := by
      rw [hsocket, heof]
      rfl
    exact htake.trans (congrArg some ((Readiness.mk.injEq ..).mpr
      ⟨rfl, htaken, hrest, rfl, rfl, hreading⟩))
  · have hwaiting : s.source.waiting = (b :: rest).map some ++
        ((s.socket.drop (b :: rest).length).map some ++
          endItem (s.eof && !s.ended)) := by
      rcases hfront with ⟨tail, htail⟩
      show s.socket.map some ++ _ = _
      rw [<- htail, List.drop_left, List.map_append, List.append_assoc]
    have htake := Readiness.step_take hreading hwaiting
    rw [List.length_map] at htake
    have hended : s.ended = false := by
      apply Bool.eq_false_iff.mpr
      intro hended
      rw [(h.ended hended).left] at hfront
      cases List.prefix_nil.mp hfront
    have htaken : s.source.taken ++ (b :: rest).map some =
        (s.received ++ (s.bev.inbuff.receive (b :: rest) hfits).contents).map
          some ++ endItem s.ended := by
      have hsplit : (s.received ++ s.bev.inbuff.contents ++ b :: rest).map
          some = (s.received ++ s.bev.inbuff.contents).map some ++
            (b :: rest).map some :=
        List.map_append
      show (s.received ++ s.bev.inbuff.contents).map some ++ endItem s.ended ++
        (b :: rest).map some = _
      rw [hended, ValidBuffer.contents_receive, <- List.append_assoc, hsplit]
      show _ ++ [] ++ _ = _ ++ []
      rw [List.append_nil, List.append_nil]
    exact htake.trans (congrArg some ((Readiness.mk.injEq ..).mpr
      ⟨rfl, htaken, rfl, rfl, rfl, hreading⟩))
  · show StepFn.Matches _ _ _ (if errno.wouldBlock then _ else none)
    rw [if_pos hblock]
    show (if s.source.handling = true then _ else none) = _
    rw [if_pos hreading]
    rfl
  · show StepFn.Matches _ _ _ (if errno.wouldBlock then _ else none)
    rw [hblock, goto_source]
    show { s.source with handling := true } = s.source
    rw [<- hreading]

/-!
# Steps of the peer and of the user
-/

theorem readable_eq (h : s.ended = false) : s.readable = !s.unread.isEmpty := by
  unfold readable unread
  rw [h, Bool.not_false, Bool.and_true]
  cases s.socket with
  | cons b rest => rfl
  | nil =>
      cases s.eof with
      | false => rfl
      | true => rfl

theorem arrive_matched {socket arrived : List UInt8} {eof : Bool}
    {items : List (Option UInt8)} (hended : s.ended = false)
    (harrived : s.source.arrived ++ items = arrived.map some ++ endItem eof)
    (hwaiting : s.unread ++ items =
      socket.map some ++ endItem (eof && !s.ended)) :
    Readiness.step s.source (Readiness.Action.arrive items) =
      some ({ s with
        socket := socket, eof := eof, arrived := arrived } :
          Duplex).notify.source := by
  have hreadable := readable_eq (s := { s with
    socket := socket, eof := eof, arrived := arrived }) hended
  refine congrArg some ((Readiness.mk.injEq ..).mpr
    ⟨harrived, rfl, hwaiting, rfl, ?_, rfl⟩)
  show (s.edge || (s.watched && !(s.unread ++ items).isEmpty)) =
    (s.edge || (s.watched && readable _))
  rw [hreadable, hwaiting]
  rfl

theorem setBev_matched (s : Duplex) {b : Bfevent}
    (hinbuff : b.inbuff = s.bev.inbuff) :
    Readiness.step s.source (s.setBev b).notify.armed =
      some (s.setBev b).notify.source := by
  have htaken : s.source.taken = (s.setBev b).notify.source.taken := by
    show (s.received ++ s.bev.inbuff.contents).map some ++ _ =
      (s.received ++ b.inbuff.contents).map some ++ _
    rw [hinbuff]
    rfl
  have hedge : forall e w r waits : Bool, (waits = true -> r = true) ->
      ((e || (w && r)) || (w && waits)) = (e || (w && r)) := by
    intro e w r waits hwaits
    cases waits with
    | false => rw [Bool.and_false, Bool.or_false]
    | true => rw [hwaits rfl, Bool.or_assoc, Bool.or_self]
  refine congrArg some ((Readiness.mk.injEq ..).mpr
    ⟨rfl, htaken, rfl, rfl, hedge _ _ _ _ ?_, rfl⟩)
  intro hwaits
  apply readable_of_unread (s := s)
  intro hnil
  rw [show s.source.waiting = [] from hnil] at hwaits
  cases hwaits

theorem setBev_inv (h : Inv s) {b : Bfevent} (hpassed : b.ev.Passed) :
    Inv (s.setBev b).notify where
  passed := hpassed
  ended := h.ended
  nested := h.nested
  skipped := fun _ _ _ => notify_seen _

theorem setrcb_passed (h : Inv s) :
    (if s.bev.closed then s.bev.ev else s.bev.ev.updateEp).Passed := by
  split
  · exact h.passed
  · exact Interest.updateEp_passed h.passed

theorem receive_source (s : Duplex) (len : Nat) :
    (s.receive len).source = s.source := by
  have htaken : s.received ++ (s.bev.inbuff.remove len).snd ++
      (s.bev.inbuff.remove len).fst.contents =
        s.received ++ s.bev.inbuff.contents := by
    rw [ValidBuffer.remove_fst, ValidBuffer.remove_snd, List.append_assoc,
      List.take_append_drop]
  show Readiness.mk _ ((s.received ++ (s.bev.inbuff.remove len).snd ++
    (s.bev.inbuff.remove len).fst.contents).map some ++ _) _ _ _ _ = _
  rw [htaken]
  rfl

theorem receive_inv (h : Inv s) (len : Nat) : Inv (s.receive len) where
  passed := h.passed
  ended := h.ended
  nested := h.nested
  skipped := h.skipped

theorem ifUser_eq {t : Duplex} (hstep : s.ifUser t = some s') : s' = t := by
  unfold ifUser at hstep
  split at hstep
  · cases hstep
    rfl
  · cases hstep

theorem wait_cases {revents : Mask} (hstep : s.wait revents = some s') :
    s.phase = Phase.elsewhere ∧ s.out.stack = [] ∧ s.edge = true ∧
      (s.watched = true -> s.readable = true -> has revents EPOLLIN = true) ∧
      s' = { s with edge := false, phase := Phase.testIn revents } := by
  unfold wait at hstep
  split at hstep
  · rename_i hguard
    cases hstep
    exact ⟨hguard.left, hguard.right.left, hguard.right.right.left,
      hguard.right.right.right, rfl⟩
  · cases hstep

theorem wait_inv (h : Inv s) {revents : Mask}
    (hstep : s.wait revents = some s') : Inv s' := by
  rcases wait_cases hstep with ⟨_, hstack, _, hreports, rfl⟩
  refine
    { passed := h.passed
      ended := h.ended
      nested := fun hne => absurd hstack hne
      skipped := ?_ }
  intro revents' hphase hflags hwatched hunread
  cases hphase
  have hin := hreports hwatched (readable_of_unread (s := s) hunread)
  unfold readFlags at hflags
  rw [hin] at hflags
  cases hflags

theorem nested_of_userCode (h : s.userCode = true) (hstack : s.out.stack = []) :
    s.phase.user = true := by
  unfold userCode at h
  rw [hstack] at h
  exact h

theorem activation_inv (h : Inv s) {a : Outbound.Action}
    (hneeds : forall q, q.stack = [] -> Outbound.step q a = none)
    (hstep : s.outbound a = some s') : Inv s' := by
  apply outbound_inv h hstep
  intro hstack
  rcases outbound_eq hstep with ⟨out, hout, _⟩
  rw [hneeds s.out hstack] at hout
  cases hout

theorem step_inv {a : Action} (h : Inv s) (hstep : step s a = some s') :
    Inv s' := by
  cases a with
  | peerSends bytes =>
      simp only [step] at hstep
      split at hstep
      · cases hstep
      · rename_i hopen
        cases hstep
        refine
          { passed := h.passed
            ended := ?_
            nested := h.nested
            skipped := fun _ _ _ => notify_seen _ }
        intro hended
        have heof : s.eof = true := (h.ended hended).right
        rw [heof] at hopen
        exact absurd rfl hopen
  | peerEnds =>
      simp only [step] at hstep
      split at hstep
      · cases hstep
      · cases hstep
        exact {
          passed := h.passed
          ended := fun hended => ⟨(h.ended hended).left, rfl⟩
          nested := h.nested
          skipped := fun _ _ _ => notify_seen _ }
  | wake =>
      cases hstep
      exact {
        passed := h.passed
        ended := h.ended
        nested := h.nested
        skipped := fun _ _ _ _ _ => rfl }
  | wait revents => exact wait_inv h hstep
  | proceed => exact proceed_inv h hstep
  | readiov r => exact readiov_inv h hstep
  | receive len =>
      rw [ifUser_eq hstep]
      exact receive_inv h len
  | receiveAll =>
      rw [ifUser_eq hstep]
      exact receive_inv h _
  | setrcb readcb =>
      rw [ifUser_eq hstep]
      exact setBev_inv h (setrcb_passed h)
  | enableRead =>
      rw [ifUser_eq hstep]
      exact setBev_inv h (Interest.enableEvents_passed h.passed EPOLLIN)
  | disableRead =>
      rw [ifUser_eq hstep]
      exact setBev_inv h (Interest.disableEvents_passed h.passed EPOLLIN)
  | sendout p written gathered =>
      simp only [step] at hstep
      split at hstep
      · rename_i huser
        exact outbound_inv h hstep
          (fun hstack => Or.inl (nested_of_userCode huser hstack))
      · cases hstep
  | writeRound r =>
      apply activation_inv h _ hstep
      intro q hq
      simp only [Outbound.step, hq]
  | writeDone =>
      apply activation_inv h _ hstep
      intro q hq
      simp only [Outbound.step, hq]
  | callbackReturn =>
      apply activation_inv h _ hstep
      intro q hq
      simp only [Outbound.step, hq]

theorem step_matched {a : Action} (h : Inv s) (hstep : step s a = some s') :
    StepFn.Matches Readiness.step s.source s'.source (label s a) := by
  cases a with
  | peerSends bytes =>
      simp only [step] at hstep
      split at hstep
      · cases hstep
      · rename_i hopen
        have heof : s.eof = false := by
          cases heof : s.eof with
          | false => rfl
          | true =>
              rw [heof] at hopen
              exact absurd rfl hopen
        have hended : s.ended = false :=
          Bool.eq_false_iff.mpr fun hended => by
            rw [(h.ended hended).right] at heof
            cases heof
        cases hstep
        have harrived : s.source.arrived ++ bytes.map some =
            (s.arrived ++ bytes).map some ++ endItem s.eof := by
          show s.arrived.map some ++ endItem s.eof ++ _ = _
          rw [heof, List.map_append]
          show _ ++ [] ++ _ = _ ++ []
          rw [List.append_nil, List.append_nil]
        have hwaiting : s.unread ++ bytes.map some =
            (s.socket ++ bytes).map some ++ endItem (s.eof && !s.ended) := by
          unfold unread
          rw [heof, List.map_append]
          show _ ++ [] ++ _ = _ ++ []
          rw [List.append_nil, List.append_nil]
        exact arrive_matched hended harrived hwaiting
  | peerEnds =>
      simp only [step] at hstep
      split at hstep
      · cases hstep
      · rename_i hopen
        have heof : s.eof = false := Bool.eq_false_iff.mpr hopen
        have hended : s.ended = false :=
          Bool.eq_false_iff.mpr fun hended => by
            rw [(h.ended hended).right] at heof
            cases heof
        cases hstep
        have harrived : s.source.arrived ++ [none] =
            s.arrived.map some ++ endItem true := by
          show s.arrived.map some ++ endItem s.eof ++ _ = _
          rw [heof]
          exact congrArg (· ++ [none]) (List.append_nil _)
        have hwaiting : s.unread ++ [none] =
            s.socket.map some ++ endItem (true && !s.ended) := by
          unfold unread
          rw [heof, hended]
          exact congrArg (· ++ [none]) (List.append_nil _)
        exact arrive_matched hended harrived hwaiting
  | wake =>
      cases hstep
      refine congrArg some ((Readiness.mk.injEq ..).mpr
        ⟨rfl, rfl, rfl, rfl, ?_, rfl⟩)
      show ((s.edge || true) || _) = true
      rw [Bool.or_true, Bool.true_or]
  | wait revents =>
      rcases wait_cases hstep with ⟨hphase, _, hedge, _, rfl⟩
      have hcan : (s.source.edge && !s.source.handling) = true := by
        show (s.edge && !s.phase.reads) = true
        rw [hedge, hphase]
        rfl
      show (if _ = true then _ else none) = _
      rw [if_pos hcan]
      rfl
  | proceed => exact proceed_matched h hstep
  | readiov r => exact readiov_matched h hstep
  | receive len =>
      rw [ifUser_eq hstep]
      exact receive_source s len
  | receiveAll =>
      rw [ifUser_eq hstep]
      exact receive_source s _
  | setrcb readcb =>
      rw [ifUser_eq hstep]
      exact setBev_matched s rfl
  | enableRead =>
      rw [ifUser_eq hstep]
      exact setBev_matched s rfl
  | disableRead =>
      rw [ifUser_eq hstep]
      exact setBev_matched s rfl
  | sendout p written gathered =>
      simp only [step] at hstep
      split at hstep
      · exact outbound_source h.passed hstep
      · cases hstep
  | writeRound r => exact outbound_source h.passed hstep
  | writeDone => exact outbound_source h.passed hstep
  | callbackReturn => exact outbound_source h.passed hstep

theorem source_maps :
    StepFn.Maps step Readiness.step Inv source label where
  keeps := fun _ _ _ h hstep => step_inv h hstep
  matched := fun _ _ _ h hstep => step_matched h hstep

/-!
# Received once and in order
-/

/--
What has arrived has been received, is in `inbuff_`, or waits in the socket, in
this order; and a read returns 0 only behind everything else.
-/
structure InOrder (s : Duplex) : Prop where
  stream : s.received ++ s.bev.inbuff.contents ++ s.socket = s.arrived
  ended : s.ended = true -> s.eof = true ∧ s.socket = []

theorem filterMap_endItem (xs : List UInt8) (b : Bool) :
    (xs.map some ++ endItem b).filterMap id = xs := by
  rw [List.filterMap_append, List.filterMap_map]
  have hitems : (endItem b).filterMap id = [] := by
    cases b with
    | false => rfl
    | true => rfl
  rw [hitems, List.append_nil]
  exact List.filterMap_some

theorem inOrder_of_accounted (h : Inv s) (haccounted : s.source.Accounted) :
    InOrder s where
  stream := by
    have hitems := congrArg (List.filterMap id) haccounted
    rw [List.filterMap_append] at hitems
    show _ ++ _ = _
    rwa [show s.source.taken.filterMap id = _ from filterMap_endItem _ _,
      show s.source.waiting.filterMap id = _ from filterMap_endItem _ _,
      show s.source.arrived.filterMap id = _ from filterMap_endItem _ _]
      at hitems
  ended := fun hended => (h.ended hended).symm

/-!
# Nothing is left unread
-/

def Unread (s : Duplex) : Prop :=
  s.socket ≠ [] ∨ s.eof = true ∧ s.ended = false

/--
While `EPOLLIN` is in the mask and something is unread, `handle_read` is at it,
or an edge is due.
-/
def Attended (s : Duplex) : Prop :=
  s.watched = true -> s.Unread -> s.edge = true ∨ s.phase.reads = true

def givesUp (s : Duplex) : Bool :=
  match s.phase with
  | Phase.testEventcb _ => !s.bev.eventcb
  | Phase.endcb _ => true
  | _ => false

/--
When `handle_read` gives up, which it does at the end of the stream and after an
error, nothing is unread, or an edge is due.
-/
def GivesUpAtEnd (s : Duplex) : Action -> Prop
  | Action.proceed =>
      s.givesUp = true -> s.watched = true -> s.Unread -> s.edge = true
  | _ => True

instance (s : Duplex) : Decidable s.Unread := by
  unfold Unread
  infer_instance

instance (s : Duplex) (a : Action) : Decidable (s.GivesUpAtEnd a) := by
  cases a <;> unfold GivesUpAtEnd <;> infer_instance

theorem unread_iff : s.Unread <-> s.unread ≠ [] := by
  unfold Unread unread endItem
  cases s.socket with
  | cons b rest => simp
  | nil =>
      cases s.eof with
      | false => simp
      | true =>
          cases s.ended with
          | false => simp
          | true => simp

theorem attended_iff : s.Attended <-> s.source.Attended := by
  unfold Attended Readiness.Attended
  rw [unread_iff]
  rfl

theorem leaves_iff : s.leaves = true <->
    s.givesUp = true ∨
      exists revents, s.phase = Phase.testIn revents ∧
        readFlags revents = false := by
  unfold leaves givesUp
  cases s.phase with
  | testIn revents => simp
  | _ => simp

theorem proceed_leavesNothing_iff (h : Inv s) :
    (s.leaves = true -> s.source.LeavesNothing Readiness.Action.finish) <->
      GivesUpAtEnd s Action.proceed := by
  unfold GivesUpAtEnd
  dsimp only
  rw [unread_iff]
  constructor
  · intro hall hgives hwatched hunread
    exact hall (leaves_iff.mpr (Or.inl hgives)) rfl hwatched hunread
  · intro hguard hleaves _ hwatched hunread
    rcases leaves_iff.mp hleaves with hgives | ⟨revents, hphase, hflags⟩
    · exact hguard hgives hwatched hunread
    · exact h.skipped revents hphase hflags hwatched hunread

theorem leavesNothing_iff {a : Action} (h : Inv s)
    (hstep : step s a = some s') :
    (forall x, label s a = some x -> s.source.LeavesNothing x) <->
      GivesUpAtEnd s a := by
  cases a with
  | proceed =>
      rw [<- proceed_leavesNothing_iff h]
      show (forall x, (if s.leaves then _ else none) = some x -> _) <-> _
      cases s.leaves with
      | false => exact iff_of_true nofun nofun
      | true =>
          exact ⟨fun hall _ => hall _ rfl,
            fun hfinish x hx => Option.some.inj hx ▸ hfinish rfl⟩
  | readiov r =>
      refine iff_of_true ?_ trivial
      intro x hlabel hfinish _ hunread
      rcases readiov_cases hstep with ⟨revents, _, hcases⟩
      rcases hcases with ⟨rfl, _⟩ | ⟨b, rest, _, rfl, _⟩ |
        ⟨errno, rfl, ⟨_, hreadable, _⟩ | ⟨hblock, _⟩⟩
      · cases hlabel
        cases hfinish
      · cases hlabel
        cases hfinish
      · rw [readable_of_unread (s := s) hunread] at hreadable
        cases hreadable
      · unfold label at hlabel
        dsimp only at hlabel
        rw [hblock] at hlabel
        cases hlabel
  | peerSends bytes => exact iff_of_true (fun x hx => by cases hx; nofun) trivial
  | peerEnds => exact iff_of_true (fun x hx => by cases hx; nofun) trivial
  | wake => exact iff_of_true (fun x hx => by cases hx; nofun) trivial
  | wait revents => exact iff_of_true (fun x hx => by cases hx; nofun) trivial
  | receive len => exact iff_of_true nofun trivial
  | receiveAll => exact iff_of_true nofun trivial
  | setrcb readcb => exact iff_of_true (fun x hx => by cases hx; nofun) trivial
  | enableRead => exact iff_of_true (fun x hx => by cases hx; nofun) trivial
  | disableRead => exact iff_of_true (fun x hx => by cases hx; nofun) trivial
  | sendout p written gathered => exact iff_of_true nofun trivial
  | writeRound r => exact iff_of_true nofun trivial
  | writeDone => exact iff_of_true nofun trivial
  | callbackReturn => exact iff_of_true nofun trivial

theorem step_attended_iff {a : Action} (h : Inv s) (hattended : s.Attended)
    (hstep : step s a = some s') : s'.Attended <-> GivesUpAtEnd s a := by
  rw [attended_iff, <- leavesNothing_iff h hstep]
  exact source_maps.step_iff
    (fun _ _ _ _ hq => Readiness.step_attended_iff hq) h
    (attended_iff.mp hattended) hstep

theorem start_attended (bev : Bfevent) : (start bev).Attended := by
  intro _ hunread
  rcases hunread with hsocket | ⟨heof, _⟩
  · exact absurd rfl hsocket
  · cases heof

/--
Whatever the peer, the kernel and the user do, the bytes of the peer are received
once and in order; and nothing is left unread without being due to be read,
throughout a run, exactly if `handle_read` never gives up before the end.
-/
theorem inbound_inOrder_attended {bev : Bfevent}
    (hempty : bev.inbuff.contents = [])
    (hpassed : bev.ev.registered = some bev.ev.events) {acts : List Action}
    {t : Duplex} (hrun : StepFn.run step (start bev) acts = some t) :
    t.InOrder ∧
      (StepFn.Throughout step Attended (start bev) acts <->
        StepFn.Meets step GivesUpAtEnd (start bev) acts) := by
  have hstart := start_inv hpassed
  have haccounted : (start bev).source.Accounted := by
    show (_ ++ bev.inbuff.contents).map some ++ _ ++ _ = _
    rw [hempty]
    rfl
  constructor
  · have hend := source_maps.run_keeps
      (fun _ _ _ h hstep => Readiness.step_accounted h hstep) hstart
      haccounted hrun
    exact inOrder_of_accounted hend.left hend.right
  · exact StepFn.throughout_iff_meets
      (fun s a s' hs h hstep => step_attended_iff h hs hstep)
      (start_attended bev)
      (StepFn.meets_of_invariant (fun _ _ _ h hstep => step_inv h hstep)
        hstart acts) hrun

def readsOneByOne : List Action :=
  [Action.peerSends [104, 105], Action.wait EPOLLIN, Action.proceed,
    Action.readiov (ReadResult.received [104]), Action.proceed,
    Action.receive 8, Action.setrcb false, Action.proceed,
    Action.readiov (ReadResult.received [105]), Action.proceed,
    Action.readiov (ReadResult.failed Errno.eagain), Action.proceed,
    Action.proceed]

theorem inbound_inOrder_attended_oneByOne :
    exists t, StepFn.run step (start Outbound.idle) readsOneByOne = some t ∧
      t.InOrder ∧ t.received = [104] ∧ t.socket = [] ∧
      StepFn.Throughout step Attended (start Outbound.idle) readsOneByOne := by
  have hreached :
      (StepFn.run step (start Outbound.idle) readsOneByOne).map
        (fun t => (t.received, t.socket)) = some ([104], []) := by
    decide +kernel
  rcases Option.map_eq_some_iff.mp hreached with ⟨t, hrun, hshown⟩
  rcases Prod.mk.inj hshown with ⟨hreceived, hsocket⟩
  have h := inbound_inOrder_attended (by decide +kernel) rfl hrun
  exact ⟨t, hrun, h.left, hreceived, hsocket, h.right.mpr (by decide +kernel)⟩

end Duplex

end MoonNet
