import MoonNet.Foundation.Progress
import MoonNet.Udpevent.Datagrams

/-!
# A server that answers datagrams

The receive callback of the example server takes everything out of the input
buffer and sends it back to the sender of the datagram.  The server's user does
nothing else.  So each datagram with a payload is answered once, with its own
payload, and all of them are answered when the server comes to rest.
-/

namespace MoonNet

open Foundation
open Kernel

universe u

/-- Where `on_udp_receive` of the server is, and its variable `data`. -/
inductive OnUdpReceive where
  | entry
  | received (data : List UInt8)
  | returns
deriving DecidableEq, Repr

/-- What was received and not answered yet. -/
def OnUdpReceive.held : OnUdpReceive -> List UInt8
  | entry => []
  | received data => data
  | returns => []

/-- The example server; `replies` are the arguments of `send_to` so far. -/
structure Udpserver (A : Type u) where
  loop : Udploop A
  handler : OnUdpReceive
  replies : List (A × List UInt8)

namespace Udpserver

variable {A : Type u}

/-- `add_udpev` sets `on_udp_receive` and an error callback of its own. -/
def start : Udpserver A where
  loop := Udploop.start true true
  handler := OnUdpReceive.entry
  replies := []

inductive Action (A : Type u) where
  | loop (a : Udploop.Action A)
  | reply

/-- `"Echo: "` -/
def echo : List UInt8 :=
  [69, 99, 104, 111, 58, 32]

/-- `if (!data.empty())` there is a reply to `addr`. -/
def repliesTo (addr : A) (data : List UInt8) : List (A × List UInt8) :=
  if data.isEmpty then [] else [(addr, echo ++ data)]

/--
What the server's user does: the receive callback calls `receive` once, replies
and returns.  The error callback that `add_udpev` installs refers to variables
of a call that has returned, so nothing follows when it runs.
-/
def handlerAfter (s : Udpserver A) : Udploop.Action A -> Option OnUdpReceive
  | Udploop.Action.receiveAll =>
      match s.loop.phase, s.handler with
      | Udploop.Phase.receiveCb _, OnUdpReceive.entry =>
          some (OnUdpReceive.received s.loop.base.udp.inbuff.contents)
      | _, _ => none
  | Udploop.Action.proceed =>
      match s.loop.phase, s.handler with
      | Udploop.Phase.receiveCb _, OnUdpReceive.returns =>
          some OnUdpReceive.entry
      | Udploop.Phase.receiveCb _, _ => none
      | Udploop.Phase.eventCb, _ => none
      | _, handler => some handler
  | Udploop.Action.receive _ | Udploop.Action.call _
  | Udploop.Action.disableCb => none
  | Udploop.Action.arrives _ | Udploop.Action.wake | Udploop.Action.wait _
  | Udploop.Action.recvfrom _ => some s.handler

def reply (s : Udpserver A) : Option (Udpserver A) :=
  match s.loop.phase, s.handler with
  | Udploop.Phase.receiveCb addr, OnUdpReceive.received data =>
      some { s with
        handler := OnUdpReceive.returns
        replies := s.replies ++ repliesTo addr data }
  | _, _ => none

def step : StepFn (Udpserver A) (Action A) := fun s a =>
  match a with
  | Action.loop a =>
      match s.handlerAfter a, Udploop.step s.loop a with
      | some handler, some loop =>
          some { s with loop := loop, handler := handler }
      | _, _ => none
  | Action.reply => s.reply

/-- The answer to a datagram, of which `BUFSIZE` bytes are received at most. -/
def answer (d : Datagram A) : A × List UInt8 :=
  (d.sender, echo ++ d.payload.take BUFSIZE)

/-- What the running callback is still going to send. -/
def owed (s : Udpserver A) : List (A × List UInt8) :=
  match s.loop.phase with
  | Udploop.Phase.receiveCb addr =>
      repliesTo addr (s.handler.held ++ s.loop.base.udp.inbuff.contents)
  | _ => []

/-!
# What the handler keeps
-/

/--
Outside of the callback nothing is held back, and what has been taken has been
answered, up to the datagram that the callback is about.
-/
structure Answers (s : Udpserver A) : Prop where
  hasCb : s.loop.base.udp.receiveCb = true
  ev : s.loop.base.udp.ev = (Udpevent.added true).ev
  idle : (forall addr, s.loop.phase ≠ Udploop.Phase.receiveCb addr) ->
    s.handler = OnUdpReceive.entry ∧ s.loop.base.udp.inbuff.contents = []
  emptied : s.handler ≠ OnUdpReceive.entry ->
    s.loop.base.udp.inbuff.contents = []
  replies : s.replies ++ s.owed = (Datagram.arrived s.loop.taken).map answer

variable {s s' : Udpserver A}

theorem start_answers : Answers (start : Udpserver A) where
  hasCb := rfl
  ev := rfl
  idle := fun _ => ⟨rfl, rfl⟩
  emptied := fun hne => absurd rfl hne
  replies := rfl

theorem repliesTo_nil (addr : A) : repliesTo addr [] = [] :=
  rfl

theorem repliesTo_answer {d : Datagram A} (hbytes : d.payload ≠ []) :
    repliesTo d.sender (d.payload.take BUFSIZE) = [answer d] := by
  unfold repliesTo answer
  cases hpayload : d.payload with
  | nil => exact absurd hpayload hbytes
  | cons b bytes => rfl

theorem owed_of_phase (h : forall addr, s.loop.phase ≠
    Udploop.Phase.receiveCb addr) : s.owed = [] := by
  unfold owed
  split
  · rename_i addr hphase
    exact absurd hphase (h addr)
  · rfl

theorem loop_cases {a : Udploop.Action A}
    (hstep : step s (Action.loop a) = some s') :
    exists handler loop, s.handlerAfter a = some handler ∧
      Udploop.step s.loop a = some loop ∧
      s' = { s with loop := loop, handler := handler } := by
  simp only [step] at hstep
  cases hhandler : s.handlerAfter a with
  | none =>
      rw [hhandler] at hstep
      cases hstep
  | some handler =>
      cases hloop : Udploop.step s.loop a with
      | none =>
          rw [hhandler, hloop] at hstep
          cases hstep
      | some loop =>
          rw [hhandler, hloop] at hstep
          cases hstep
          exact ⟨handler, loop, rfl, rfl, rfl⟩

theorem reply_cases (hstep : s.reply = some s') :
    exists addr data, s.loop.phase = Udploop.Phase.receiveCb addr ∧
      s.handler = OnUdpReceive.received data ∧
      s' = { s with
        handler := OnUdpReceive.returns
        replies := s.replies ++ repliesTo addr data } := by
  unfold reply at hstep
  split at hstep
  · rename_i addr data hphase hhandler
    cases hstep
    exact ⟨addr, data, hphase, hhandler, rfl⟩
  · cases hstep

theorem reply_answers (h : Answers s) (hstep : s.reply = some s') :
    Answers s' := by
  rcases reply_cases hstep with ⟨addr, data, hphase, hhandler, rfl⟩
  have hnone : s.loop.base.udp.inbuff.contents = [] := by
    apply h.emptied
    rw [hhandler]
    nofun
  refine
    { hasCb := h.hasCb
      ev := h.ev
      idle := fun hno => absurd hphase (hno addr)
      emptied := fun _ => hnone
      replies := ?_ }
  have howed : s.owed = repliesTo addr data := by
    unfold owed
    rw [hphase, hhandler, hnone]
    exact congrArg (repliesTo addr) (List.append_nil data)
  rw [<- h.replies, howed]
  unfold owed
  dsimp only
  rw [hphase, hnone]
  exact List.append_nil _

theorem answers_of_idle (h : Answers s) {loop : Udploop A}
    (hbefore : forall addr, s.loop.phase ≠ Udploop.Phase.receiveCb addr)
    (hafter : forall addr, loop.phase ≠ Udploop.Phase.receiveCb addr)
    (hudp : loop.base.udp = s.loop.base.udp)
    (htaken : Datagram.arrived loop.taken =
      Datagram.arrived s.loop.taken) :
    Answers { s with loop := loop } where
  hasCb := by
    show loop.base.udp.receiveCb = true
    rw [hudp]
    exact h.hasCb
  ev := by
    show loop.base.udp.ev = _
    rw [hudp]
    exact h.ev
  idle := fun _ => by
    show s.handler = _ ∧ loop.base.udp.inbuff.contents = []
    rw [hudp]
    exact h.idle hbefore
  emptied := fun hne => absurd (h.idle hbefore).left hne
  replies := by
    have hnone := owed_of_phase (s := { s with loop := loop }) hafter
    have hreplies := h.replies
    rw [owed_of_phase hbefore] at hreplies
    rw [hnone]
    show s.replies ++ [] = (Datagram.arrived loop.taken).map answer
    rw [hreplies, htaken]

theorem recvfrom_answers (h : Answers s) {loop : Udploop A}
    {failure : Option Errno} (hstep : s.loop.recvfrom failure = some loop) :
    Answers { s with loop := loop } := by
  rcases Udploop.recvfrom_cases hstep with ⟨hphase, hcases⟩
  have hbefore : forall addr, s.loop.phase ≠
      Udploop.Phase.receiveCb addr := by
    intro addr hreceive
    rw [hphase] at hreceive
    cases hreceive
  have hended : forall front rest addr, (s.loop.ended front rest).phase ≠
      Udploop.Phase.receiveCb addr := by
    intro front rest addr
    unfold Udploop.ended
    dsimp only
    split <;> nofun
  rcases hcases with ⟨_, _, rfl⟩ | ⟨d, rest, _, _, hbytes, rfl⟩ |
    ⟨d, rest, _, _, hempty, rfl⟩ | ⟨errno, _, _, rfl⟩
  · exact answers_of_idle h hbefore nofun rfl rfl
  · have hphase' : (s.loop.delivered d rest).phase =
        Udploop.Phase.receiveCb d.sender := if_pos h.hasCb
    have hnone := (h.idle hbefore).right
    have hentry := (h.idle hbefore).left
    have hcontents : (s.loop.delivered d rest).base.udp.inbuff.contents =
        d.payload.take BUFSIZE := by
      rw [Udploop.delivered_inbuff, ValidBuffer.contents_append, hnone]
      rfl
    refine
      { hasCb := ?_
        ev := ?_
        idle := fun hno => absurd hphase' (hno d.sender)
        emptied := fun hne => absurd hentry hne
        replies := ?_ }
    · exact (Reception.deliver_hasReceiveCb _ s.loop.base d rest).trans h.hasCb
    · exact (Udploop.delivered_ev s.loop d rest).trans h.ev
    · have howed : owed { s with loop := s.loop.delivered d rest } =
          [answer d] := by
        unfold owed
        dsimp only
        rw [hphase', hcontents, hentry]
        exact repliesTo_answer hbytes
      have hone : Datagram.arrived (s.loop.taken ++ [d]) =
          Datagram.arrived s.loop.taken ++ [d] := by
        rw [Udploop.arrived_append, Reception.arrived_cons [] hbytes]
        rfl
      have hreplies := h.replies
      rw [owed_of_phase hbefore, List.append_nil] at hreplies
      rw [howed]
      show s.replies ++ [answer d] =
        (Datagram.arrived (s.loop.taken ++ [d])).map answer
      rw [hone, List.map_append, hreplies]
      rfl
  · refine answers_of_idle h hbefore (hended [d] rest)
      (Udploop.ended_udp s.loop [d] rest) ?_
    show Datagram.arrived (s.loop.taken ++ [d]) = _
    rw [Udploop.arrived_append, Reception.arrived_cons_empty [] hempty]
    exact List.append_nil _
  · refine answers_of_idle h hbefore (hended [] s.loop.base.queue)
      (Udploop.ended_udp s.loop [] s.loop.base.queue) ?_
    show Datagram.arrived (s.loop.taken ++ []) = _
    rw [List.append_nil]

theorem proceed_answers (h : Answers s) {handler : OnUdpReceive}
    {loop : Udploop A}
    (hhandler : s.handlerAfter Udploop.Action.proceed = some handler)
    (hstep : s.loop.proceed = some loop) :
    Answers { s with loop := loop, handler := handler } ∧
      loop.phase ≠ Udploop.Phase.leaving := by
  rcases Udploop.proceed_cases hstep with ⟨_, p, rfl, hp, _⟩
  have hafter : (forall addr, p ≠ Udploop.Phase.receiveCb addr) := by
    rcases hp with rfl | rfl | ⟨_, rfl⟩ <;> nofun
  have hleaving : s.loop.phase ≠ Udploop.Phase.eventCb ->
      p ≠ Udploop.Phase.leaving := by
    intro hno
    rcases hp with rfl | rfl | ⟨hevent, _⟩
    · nofun
    · nofun
    · exact absurd hevent hno
  unfold handlerAfter at hhandler
  cases hphase : s.loop.phase with
  | receiveCb addr =>
      cases hwhere : s.handler with
      | entry =>
          simp only [hphase, hwhere] at hhandler
          cases hhandler
      | received data =>
          simp only [hphase, hwhere] at hhandler
          cases hhandler
      | returns =>
          simp only [hphase, hwhere] at hhandler
          cases hhandler
          have hnone : s.loop.base.udp.inbuff.contents = [] := by
            apply h.emptied
            rw [hwhere]
            nofun
          refine ⟨?_, hleaving (by rw [hphase]; nofun)⟩
          refine
            { hasCb := h.hasCb
              ev := h.ev
              idle := fun _ => ⟨rfl, hnone⟩
              emptied := fun _ => hnone
              replies := ?_ }
          have howed : s.owed = [] := by
            unfold owed
            rw [hphase, hwhere, hnone]
            exact repliesTo_nil addr
          have hreplies := h.replies
          rw [howed] at hreplies
          rw [owed_of_phase hafter]
          exact hreplies
  | eventCb =>
      simp only [hphase] at hhandler
      cases hhandler
  | elsewhere | handleCb revents | receiving | leaving =>
      simp only [hphase] at hhandler
      cases hhandler
      have hbefore : forall addr, s.loop.phase ≠
          Udploop.Phase.receiveCb addr := by
        rw [hphase]
        nofun
      exact ⟨answers_of_idle h hbefore hafter rfl rfl,
        hleaving (by rw [hphase]; nofun)⟩

theorem receiveAll_answers (h : Answers s) {handler : OnUdpReceive}
    {loop : Udploop A}
    (hhandler : s.handlerAfter Udploop.Action.receiveAll = some handler)
    (hstep : s.loop.ifUser s.loop.receiveAll = some loop) :
    Answers { s with loop := loop, handler := handler } := by
  rw [Udploop.ifUser_eq hstep]
  unfold handlerAfter at hhandler
  cases hphase : s.loop.phase with
  | receiveCb addr =>
      cases hwhere : s.handler with
      | entry =>
          simp only [hphase, hwhere] at hhandler
          cases hhandler
          have hnone : s.loop.receiveAll.base.udp.inbuff.contents = [] := by
            show (s.loop.base.udp.inbuff.remove _).fst.contents = []
            rw [ValidBuffer.remove_fst, ValidBuffer.readbytes_eq_length,
              List.drop_length]
          refine
            { hasCb := h.hasCb
              ev := h.ev
              idle := fun hno => absurd hphase (hno addr)
              emptied := fun _ => hnone
              replies := ?_ }
          have howed : owed { s with
              loop := s.loop.receiveAll
              handler := OnUdpReceive.received
                s.loop.base.udp.inbuff.contents } = s.owed := by
            have hsame : s.loop.receiveAll.phase =
                Udploop.Phase.receiveCb addr := hphase
            unfold owed
            dsimp only
            rw [hsame, hphase, hnone, hwhere]
            exact congrArg (repliesTo addr) (List.append_nil _)
          rw [howed]
          exact h.replies
      | received data =>
          simp only [hphase, hwhere] at hhandler
          cases hhandler
      | returns =>
          simp only [hphase, hwhere] at hhandler
          cases hhandler
  | _ =>
      simp only [hphase] at hhandler
      cases hhandler

theorem step_answers {a : Action A} (h : Answers s)
    (hstep : step s a = some s') : Answers s' := by
  cases a with
  | reply => exact reply_answers h hstep
  | loop a =>
      rcases loop_cases hstep with ⟨handler, loop, hhandler, hloop, rfl⟩
      cases a with
      | arrives d =>
          cases hhandler
          cases hloop
          exact ⟨h.hasCb, h.ev, h.idle, h.emptied, h.replies⟩
      | wake =>
          cases hhandler
          cases hloop
          exact ⟨h.hasCb, h.ev, h.idle, h.emptied, h.replies⟩
      | wait revents =>
          cases hhandler
          rcases Udploop.wait_cases hloop with ⟨hphase, _, _, rfl⟩
          refine answers_of_idle h ?_ nofun rfl rfl
          rw [hphase]
          nofun
      | proceed => exact (proceed_answers h hhandler hloop).left
      | recvfrom failure =>
          cases hhandler
          exact recvfrom_answers h hloop
      | receiveAll => exact receiveAll_answers h hhandler hloop
      | receive len => cases hhandler
      | call c => cases hhandler
      | disableCb => cases hhandler

/-!
# A server without trouble
-/

/-- No datagram is empty, and `recvfrom` fails with `EAGAIN` only. -/
def Untroubled (_ : Udpserver A) : Action A -> Prop
  | Action.loop (Udploop.Action.arrives d) => d.payload ≠ []
  | Action.loop (Udploop.Action.recvfrom failure) => failure = none
  | _ => True

/-- The loop of `handle_receive` is left on an empty queue only. -/
structure Calm (s : Udpserver A) : Prop where
  answers : Answers s
  inv : s.loop.Inv
  inOrder : s.loop.InOrder
  attended : s.loop.Attended
  bytes : forall d, d ∈ s.loop.arrived -> d.payload ≠ []
  stays : s.loop.phase ≠ Udploop.Phase.leaving ∧
    s.loop.phase ≠ Udploop.Phase.eventCb

theorem start_calm : Calm (start : Udpserver A) where
  answers := start_answers
  inv := Udploop.start_inv true true
  inOrder := Udploop.start_inOrder true true
  attended := fun _ hqueue => absurd rfl hqueue
  bytes := nofun
  stays := ⟨nofun, nofun⟩

theorem Calm.queued (h : Calm s) {d : Datagram A}
    (hd : d ∈ s.loop.base.queue) : d.payload ≠ [] := by
  apply h.bytes
  rw [<- h.inOrder.stream]
  exact List.mem_append_right _ hd

theorem Calm.recvfrom_cases (h : Calm s) {loop : Udploop A}
    (hstep : s.loop.recvfrom none = some loop) :
    s.loop.phase = Udploop.Phase.receiving ∧
      ((s.loop.base.queue = [] ∧
          loop = s.loop.goto Udploop.Phase.elsewhere) ∨
        exists d rest, s.loop.base.queue = d :: rest ∧
          loop = s.loop.delivered d rest ∧
          loop.phase = Udploop.Phase.receiveCb d.sender) := by
  rcases Udploop.recvfrom_cases hstep with ⟨hphase, ⟨_, hqueue, rfl⟩ |
    ⟨d, rest, _, hqueue, _, rfl⟩ | ⟨d, rest, _, hqueue, hempty, _⟩ |
    ⟨errno, hno, _⟩⟩
  · exact ⟨hphase, Or.inl ⟨hqueue, rfl⟩⟩
  · exact ⟨hphase, Or.inr ⟨d, rest, hqueue, rfl, if_pos h.answers.hasCb⟩⟩
  · exact absurd hempty (h.queued (hqueue ▸ List.mem_cons_self))
  · cases hno

theorem Calm.stays_after (h : Calm s) {a : Udploop.Action A}
    {handler : OnUdpReceive} {loop : Udploop A}
    (hguard : Untroubled s (Action.loop a))
    (hhandler : s.handlerAfter a = some handler)
    (hloop : Udploop.step s.loop a = some loop) :
    loop.phase ≠ Udploop.Phase.leaving ∧
      loop.phase ≠ Udploop.Phase.eventCb := by
  cases a with
  | arrives d =>
      cases hloop
      exact h.stays
  | wake =>
      cases hloop
      exact h.stays
  | wait revents =>
      rcases Udploop.wait_cases hloop with ⟨_, _, _, rfl⟩
      exact ⟨nofun, nofun⟩
  | proceed =>
      refine ⟨(proceed_answers h.answers hhandler hloop).right, ?_⟩
      rcases Udploop.proceed_cases hloop with
        ⟨_, p, rfl, rfl | rfl | ⟨hevent, _⟩, _⟩
      · nofun
      · nofun
      · exact absurd hevent h.stays.right
  | recvfrom failure =>
      have hnone : failure = none := hguard
      rw [hnone] at hloop
      rcases h.recvfrom_cases hloop with
        ⟨_, ⟨_, rfl⟩ | ⟨d, rest, _, _, hphase⟩⟩
      · exact ⟨nofun, nofun⟩
      · rw [hphase]
        exact ⟨nofun, nofun⟩
  | receiveAll =>
      rw [Udploop.ifUser_eq hloop]
      exact h.stays
  | receive len => cases hhandler
  | call c => cases hhandler
  | disableCb => cases hhandler

theorem step_calm {a : Action A} (h : Calm s) (hguard : Untroubled s a)
    (hstep : step s a = some s') : Calm s' := by
  have hanswers := step_answers h.answers hstep
  cases a with
  | reply =>
      rcases reply_cases hstep with ⟨addr, data, _, _, rfl⟩
      exact ⟨hanswers, h.inv, h.inOrder, h.attended, h.bytes, h.stays⟩
  | loop a =>
      rcases loop_cases hstep with ⟨handler, loop, hhandler, hloop, rfl⟩
      have hleaves : s.loop.LeavesNoneBehind a := by
        cases a with
        | proceed => exact fun hphase => absurd hphase h.stays.left
        | _ => trivial
      have hbytes : forall d, d ∈ loop.arrived -> d.payload ≠ [] := by
        by_cases harrives : exists d, a = Udploop.Action.arrives d
        · rcases harrives with ⟨d, rfl⟩
          cases hloop
          intro e he
          rcases List.mem_append.mp he with hold | hnew
          · exact h.bytes e hold
          · exact (List.mem_singleton.mp hnew) ▸ hguard
        · rw [Udploop.step_arrived hloop (not_exists.mp harrives)]
          exact h.bytes
      exact
        { answers := hanswers
          inv := Udploop.step_inv h.inv hloop
          inOrder := Udploop.step_inOrder h.inOrder hloop
          attended :=
            (Udploop.step_attended_iff h.inv h.attended hloop).mpr hleaves
          bytes := hbytes
          stays := h.stays_after hguard hhandler hloop }

/-!
# The server comes to rest
-/

/-- What the server does while nothing arrives and no call fails. -/
def Action.Own : Action A -> Prop
  | loop (Udploop.Action.arrives _) | loop Udploop.Action.wake => False
  | loop (Udploop.Action.recvfrom failure) => failure = none
  | _ => True

/-- Each datagram that has arrived has been answered once, in order. -/
def AllAnswered (s : Udpserver A) : Prop :=
  s.replies = s.loop.arrived.map answer

def stepsLeft (phase : Udploop.Phase A) (handler : OnUdpReceive) : Nat :=
  match phase, handler with
  | Udploop.Phase.receiving, _ => 1
  | Udploop.Phase.handleCb _, _ => 2
  | Udploop.Phase.receiveCb _, OnUdpReceive.entry => 4
  | Udploop.Phase.receiveCb _, OnUdpReceive.received _ => 3
  | Udploop.Phase.receiveCb _, OnUdpReceive.returns => 2
  | _, _ => 0

def left (s : Udpserver A) : Nat :=
  5 * s.loop.base.queue.length + (if s.loop.edge then 3 else 0) +
    stepsLeft s.loop.phase s.handler

theorem untroubled_of_own {a : Action A} (hown : a.Own) : Untroubled s a := by
  cases a with
  | reply => trivial
  | loop a =>
      cases a with
      | arrives d => exact hown.elim
      | recvfrom failure => exact hown
      | _ => trivial

theorem proceed_left (h : Calm s) (handler : OnUdpReceive) {loop : Udploop A}
    (hstep : s.loop.proceed = some loop) :
    left { s with loop := loop, handler := handler } < left s := by
  rcases Udploop.proceed_cases hstep with ⟨hreceives, p, rfl, hp, _⟩
  have hafter : stepsLeft p handler <= 1 := by
    rcases hp with rfl | rfl | ⟨hevent, _⟩
    · exact Nat.zero_le 1
    · exact Nat.le_refl 1
    · exact absurd hevent h.stays.right
  have hbefore : 2 <= stepsLeft s.loop.phase s.handler := by
    cases hphase : s.loop.phase with
    | elsewhere =>
        rw [hphase] at hreceives
        cases hreceives
    | handleCb revents => exact Nat.le_refl 2
    | receiving =>
        unfold Udploop.proceed at hstep
        simp only [hphase] at hstep
        cases hstep
    | receiveCb addr =>
        cases s.handler with
        | entry => exact Nat.le_add_left 2 2
        | received data => exact Nat.le_succ 2
        | returns => exact Nat.le_refl 2
    | eventCb => exact absurd hphase h.stays.right
    | leaving => exact absurd hphase h.stays.left
  exact Nat.add_lt_add_left (Nat.lt_of_le_of_lt hafter hbefore) _

theorem step_left {a : Action A} (h : Calm s) (hown : a.Own)
    (hstep : step s a = some s') : left s' < left s := by
  cases a with
  | reply =>
      rcases reply_cases hstep with ⟨addr, data, hphase, hhandler, rfl⟩
      unfold left
      dsimp only
      rw [hphase, hhandler]
      exact Nat.lt_succ_self _
  | loop a =>
      rcases loop_cases hstep with ⟨handler, loop, hhandler, hloop, rfl⟩
      cases a with
      | arrives d => exact hown.elim
      | wake => exact hown.elim
      | wait revents =>
          rcases Udploop.wait_cases hloop with ⟨hphase, hedge, _, rfl⟩
          unfold left
          dsimp only
          rw [hphase, hedge]
          exact Nat.lt_succ_self _
      | proceed => exact proceed_left h handler hloop
      | recvfrom failure =>
          have hnone : failure = none := hown
          rw [hnone] at hloop
          cases hhandler
          rcases h.recvfrom_cases hloop with
            ⟨hphase, ⟨_, rfl⟩ | ⟨d, rest, hqueue, rfl, hcalls⟩⟩
          · unfold left
            dsimp only
            rw [hphase]
            exact Nat.lt_succ_self _
          · have hfour : stepsLeft (Udploop.Phase.receiveCb d.sender)
                s.handler <= 4 := by
              cases s.handler with
              | entry => exact Nat.le_refl 4
              | received data => exact Nat.le_succ 3
              | returns => exact Nat.le_add_right 2 2
            have hrest : (s.loop.delivered d rest).base.queue = rest :=
              Reception.deliver_queue _ s.loop.base d rest
            have hedge : (s.loop.delivered d rest).edge = s.loop.edge := rfl
            unfold left
            dsimp only
            rw [hcalls, hphase, hqueue, hrest, hedge, List.length_cons]
            have hone : stepsLeft (Udploop.Phase.receiving : Udploop.Phase A)
                s.handler = 1 := rfl
            omega
      | receiveAll =>
          rw [Udploop.ifUser_eq hloop]
          unfold handlerAfter at hhandler
          cases hphase : s.loop.phase with
          | receiveCb addr =>
              cases hwhere : s.handler with
              | entry =>
                  simp only [hphase, hwhere] at hhandler
                  cases hhandler
                  have hsame : s.loop.receiveAll.phase =
                      Udploop.Phase.receiveCb addr := hphase
                  unfold left
                  dsimp only
                  rw [hsame, hphase, hwhere]
                  exact Nat.lt_succ_self _
              | _ =>
                  simp only [hphase, hwhere] at hhandler
                  cases hhandler
          | _ =>
              simp only [hphase] at hhandler
              cases hhandler
      | receive len => cases hhandler
      | call c => cases hhandler
      | disableCb => cases hhandler

theorem step_loop {a : Udploop.Action A} {handler : OnUdpReceive}
    {loop : Udploop A} (hhandler : s.handlerAfter a = some handler)
    (hloop : Udploop.step s.loop a = some loop) :
    step s (Action.loop a) =
      some { s with loop := loop, handler := handler } := by
  simp only [step, hhandler, hloop]

theorem rests_of_stuck (h : Calm s)
    (hstuck : forall a : Action A, a.Own -> step s a = none) :
    s.loop.phase = Udploop.Phase.elsewhere ∧ s.loop.edge = false := by
  have hno : forall (a : Udploop.Action A) {handler : OnUdpReceive}
      {loop : Udploop A}, (Action.loop a).Own ->
      s.handlerAfter a = some handler ->
      Udploop.step s.loop a = some loop -> False := by
    intro a handler loop hown hhandler hloop
    have hnone := hstuck (Action.loop a) hown
    rw [step_loop hhandler hloop] at hnone
    cases hnone
  cases hphase : s.loop.phase with
  | elsewhere =>
      refine ⟨rfl, Bool.eq_false_iff.mpr ?_⟩
      intro hedge
      have hloop : Udploop.step s.loop (Udploop.Action.wait EPOLLIN) =
          some { s.loop with
            edge := false, phase := Udploop.Phase.handleCb EPOLLIN } := by
        show s.loop.wait EPOLLIN = _
        unfold Udploop.wait
        simp only [hphase]
        exact if_pos ⟨hedge, fun _ _ => rfl⟩
      exact hno (Udploop.Action.wait EPOLLIN) trivial rfl hloop
  | handleCb revents =>
      have hhandler : s.handlerAfter Udploop.Action.proceed =
          some s.handler := by
        unfold handlerAfter
        simp only [hphase]
      have hloop : Udploop.step s.loop Udploop.Action.proceed =
          some (s.loop.goto
            (if Duplex.readFlags revents then Udploop.Phase.receiving
              else Udploop.Phase.elsewhere)) := by
        show s.loop.proceed = _
        unfold Udploop.proceed
        simp only [hphase]
      exact (hno Udploop.Action.proceed trivial hhandler hloop).elim
  | receiving =>
      have hloop : exists loop,
          Udploop.step s.loop (Udploop.Action.recvfrom none) = some loop := by
        show exists loop, s.loop.recvfrom none = some loop
        unfold Udploop.recvfrom
        simp only [hphase]
        exact ⟨_, rfl⟩
      rcases hloop with ⟨loop, hloop⟩
      exact (hno (Udploop.Action.recvfrom none) rfl rfl hloop).elim
  | receiveCb addr =>
      have huser : s.loop.phase.user = true := by
        rw [hphase]
        rfl
      cases hwhere : s.handler with
      | entry =>
          have hhandler : s.handlerAfter Udploop.Action.receiveAll =
              some (OnUdpReceive.received
                s.loop.base.udp.inbuff.contents) := by
            unfold handlerAfter
            simp only [hphase, hwhere]
          exact (hno Udploop.Action.receiveAll trivial hhandler
            (if_pos huser)).elim
      | received data =>
          have hnone := hstuck Action.reply trivial
          have hreply : s.reply = none := hnone
          unfold reply at hreply
          simp only [hphase, hwhere] at hreply
          cases hreply
      | returns =>
          have hhandler : s.handlerAfter Udploop.Action.proceed =
              some OnUdpReceive.entry := by
            unfold handlerAfter
            simp only [hphase, hwhere]
          have hloop : Udploop.step s.loop Udploop.Action.proceed =
              some (s.loop.goto Udploop.Phase.receiving) := by
            show s.loop.proceed = _
            unfold Udploop.proceed
            simp only [hphase]
          exact (hno Udploop.Action.proceed trivial hhandler hloop).elim
  | eventCb => exact absurd hphase h.stays.right
  | leaving => exact absurd hphase h.stays.left

theorem Calm.allAnswered (h : Calm s)
    (hphase : s.loop.phase = Udploop.Phase.elsewhere)
    (hedge : s.loop.edge = false) : AllAnswered s := by
  have hwatched : s.loop.watched = true := by
    unfold Udploop.watched
    rw [h.answers.ev]
    rfl
  have hqueue : s.loop.base.queue = [] := by
    by_contra hne
    rcases h.attended hwatched hne with hdue | hreceives
    · rw [hedge] at hdue
      cases hdue
    · rw [hphase] at hreceives
      cases hreceives
  have htaken : s.loop.taken = s.loop.arrived := by
    rw [<- h.inOrder.stream, hqueue, List.append_nil]
  have hall : Datagram.arrived s.loop.arrived = s.loop.arrived := by
    apply List.filter_eq_self.mpr
    intro d hd
    exact bne_iff_ne.mpr (h.bytes d hd)
  have howed : s.owed = [] := by
    apply owed_of_phase
    rw [hphase]
    nofun
  have hreplies := h.answers.replies
  rw [howed, List.append_nil, htaken, hall] at hreplies
  exact hreplies

theorem Calm.settles (h : Calm s) :
    StepFn.Settles step Action.Own AllAnswered s := by
  have hlower : forall (s : Udpserver A) a s', Calm s -> Action.Own a ->
      step s a = some s' -> Calm s' ∧ left s' < left s := by
    intro s a s' hs hown hstep
    exact ⟨step_calm hs (untroubled_of_own hown) hstep,
      step_left hs hown hstep⟩
  refine StepFn.settles_of_rank left hlower ?_ h
  intro s hs hstuck
  have hrests := rests_of_stuck hs hstuck
  exact hs.allAnswered hrests.left hrests.right

/--
In every run of the example server, each datagram with a payload that was taken
has been answered once, in order and with its own payload, up to the one that
the callback is about.  If no datagram is empty and no call fails, then once
nothing arrives any more the server takes finitely many steps, and at their end
everything that has arrived has been answered.
-/
theorem datagrams_answered (acts : List (Action A)) (t : Udpserver A)
    (hrun : StepFn.run step start acts = some t) :
    t.replies ++ t.owed = (Datagram.arrived t.loop.taken).map answer ∧
      (StepFn.Meets step Untroubled start acts ->
        StepFn.Settles step Action.Own AllAnswered t) := by
  constructor
  · have hend := StepFn.run_invariant
      (fun _ _ _ h hstep => step_answers h hstep) start_answers hrun
    exact hend.replies
  · intro hmeets
    have hend := StepFn.run_invariant_of_meets
      (fun _ _ _ h hguard hstep => step_calm h hguard hstep) start_calm hmeets
      hrun
    exact hend.settles

instance decidableUntroubled (s : Udpserver A) :
    (a : Action A) -> Decidable (s.Untroubled a)
  | Action.loop (Udploop.Action.arrives d) =>
      decidable_of_iff (d.payload.isEmpty = false) List.isEmpty_eq_false_iff
  | Action.loop (Udploop.Action.recvfrom failure) =>
      decidable_of_iff (failure.isNone = true) Option.isNone_iff_eq_none
  | Action.loop Udploop.Action.wake
  | Action.loop (Udploop.Action.wait _)
  | Action.loop Udploop.Action.proceed
  | Action.loop (Udploop.Action.receive _)
  | Action.loop Udploop.Action.receiveAll
  | Action.loop (Udploop.Action.call _)
  | Action.loop Udploop.Action.disableCb
  | Action.reply => isTrue trivial

def twoAsk : List (Action Nat) :=
  [Action.loop (Udploop.Action.arrives ⟨1, [104]⟩),
    Action.loop (Udploop.Action.wait EPOLLIN),
    Action.loop Udploop.Action.proceed,
    Action.loop (Udploop.Action.recvfrom none),
    Action.loop Udploop.Action.receiveAll,
    Action.loop (Udploop.Action.arrives ⟨2, [105]⟩), Action.reply]

theorem datagrams_answered_twoAsk :
    exists t, StepFn.run step start twoAsk = some t ∧
      t.replies = [(1, echo ++ [104])] ∧
      StepFn.Settles step Action.Own AllAnswered t := by
  have hreached : (StepFn.run step start twoAsk).map replies =
      some [(1, echo ++ [104])] := by
    decide +kernel
  rcases Option.map_eq_some_iff.mp hreached with ⟨t, hrun, hreplies⟩
  have h := datagrams_answered twoAsk t hrun
  exact ⟨t, hrun, hreplies, h.right (by decide +kernel)⟩

end Udpserver

end MoonNet
