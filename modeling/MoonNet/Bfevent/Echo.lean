import MoonNet.Bfevent.Link

/-!
# An echo server

The read callback of the example server takes everything out of the input buffer
and sends it back.  The server's user does nothing else, while its client may do
anything.  So what the client gets is what it has sent, and it gets all of it.
-/

namespace MoonNet

open Foundation
open Kernel

/-- Where `handle_read` of the server is, and its variable `str`. -/
inductive HandleRead where
  | entry
  | received (str : List UInt8)
  | returns
deriving DecidableEq, Repr

/-- What was received and not sent yet. -/
def HandleRead.held : HandleRead -> List UInt8
  | entry => []
  | received str => str
  | returns => []

namespace Duplex

def inReadcb (d : Duplex) : Bool :=
  match d.phase with
  | Phase.readcb _ => d.out.stack.isEmpty
  | _ => false

/--
What the server's user does: the read callback calls `receive` and `sendout`
once each and returns; the other callbacks do nothing.
-/
def handleRead (d : Duplex) (h : HandleRead) : Action -> Option HandleRead
  | Action.receiveAll =>
      match d.inReadcb, h with
      | true, HandleRead.entry =>
          some (HandleRead.received d.bev.inbuff.contents)
      | _, _ => none
  | Action.sendout p _ _ =>
      match d.inReadcb, h with
      | true, HandleRead.received str =>
          if p.bytes = str then some HandleRead.returns else none
      | _, _ => none
  | Action.proceed =>
      match d.inReadcb, h with
      | true, HandleRead.returns => some HandleRead.entry
      | true, _ => none
      | false, _ => some h
  | Action.receive _ | Action.setrcb _ | Action.enableRead
  | Action.disableRead => none
  | _ => some h

end Duplex

structure Echo where
  link : Link
  handler : HandleRead

namespace Echo

def start (link : Link) : Echo where
  link := link
  handler := HandleRead.entry

def server (s : Echo) : Duplex :=
  (s.link Side.server).duplex

def handlerAfter (s : Echo) (a : Link.Action) : Option HandleRead :=
  match a.side, a.act with
  | Side.server, Endpoint.Action.own b _ => s.server.handleRead s.handler b
  | _, _ => some s.handler

def step : StepFn Echo Link.Action := fun s a =>
  match s.handlerAfter a, Link.step s.link a with
  | some handler, some link => some { link := link, handler := handler }
  | _, _ => none

def around (s : Echo) : List UInt8 :=
  s.link.along Side.client ++ s.handler.held ++
    s.server.bev.inbuff.contents ++ s.server.socket ++
    s.link.inFlight Side.server ++ (s.link.conn Side.client).backlog

/-- What the client has sent is on its way around, in order. -/
def Circulates (s : Echo) : Prop :=
  s.around = (s.link Side.client).duplex.out.sent

end Echo

/-!
# The handler
-/

/--
The handler has sent what it has received, up to what it holds, and leaves
nothing in the input buffer.
-/
structure HandleRead.Keeps (h : HandleRead) (d : Duplex) : Prop where
  readcb : d.bev.readcb = true
  echoed : d.received = d.out.sent ++ h.held
  inside : h ≠ HandleRead.entry ->
    exists revents, d.phase = Duplex.Phase.readcb revents
  emptied : d.bev.inbuff.contents ≠ [] -> h = HandleRead.entry ∧
    exists revents, d.phase = Duplex.Phase.testReadcb revents ∨
      d.phase = Duplex.Phase.readcb revents

namespace HandleRead

variable {h h' : HandleRead} {d d' : Duplex}

theorem Keeps.idle (hkeeps : h.Keeps d)
    (htest : forall revents, d.phase ≠ Duplex.Phase.testReadcb revents)
    (hcall : forall revents, d.phase ≠ Duplex.Phase.readcb revents) :
    h = entry ∧ d.bev.inbuff.contents = [] := by
  constructor
  · by_contra hne
    rcases hkeeps.inside hne with ⟨revents, hphase⟩
    exact hcall revents hphase
  · by_contra hne
    rcases (hkeeps.emptied hne).right with ⟨revents, hphase | hphase⟩
    · exact htest revents hphase
    · exact hcall revents hphase

theorem Keeps.of_idle (hkeeps : h.Keeps d) (hentry : h = entry)
    (hnone : d'.bev.inbuff.contents = [])
    (hreadcb : d'.bev.readcb = d.bev.readcb)
    (hreceived : d'.received = d.received)
    (hsent : d'.out.sent = d.out.sent) : h.Keeps d' where
  readcb := hreadcb.trans hkeeps.readcb
  echoed := by
    rw [hreceived, hsent]
    exact hkeeps.echoed
  inside := fun hne => absurd hentry hne
  emptied := fun hne => absurd hnone hne

theorem Keeps.of_same (hkeeps : h.Keeps d)
    (hinbuff : d'.bev.inbuff = d.bev.inbuff)
    (hreadcb : d'.bev.readcb = d.bev.readcb)
    (hreceived : d'.received = d.received)
    (hsent : d'.out.sent = d.out.sent) (hphase : d'.phase = d.phase) :
    h.Keeps d' where
  readcb := hreadcb.trans hkeeps.readcb
  echoed := by
    rw [hreceived, hsent]
    exact hkeeps.echoed
  inside := by
    rw [hphase]
    exact hkeeps.inside
  emptied := by
    rw [hphase, hinbuff]
    exact hkeeps.emptied

theorem Keeps.of_outbound (hkeeps : h.Keeps d) {a : Outbound.Action}
    (hstep : d.outbound a = some d')
    (huser : forall p written gathered,
      a ≠ Outbound.Action.sendout p written gathered) : h.Keeps d' := by
  rcases Duplex.outbound_eq hstep with ⟨out, hout, rfl⟩
  have hkept := Outbound.step_sendsOnly hout
  have hsent : out.sent = d.out.sent := by
    cases Outbound.steps_of_step hout with
    | sendout _ => exact absurd rfl (huser _ _ _)
    | handleWrite _ => rfl
    | @writeRound r rest hstack hpending =>
        unfold Outbound.writeRound
        cases r with
        | failed errno => rfl
        | accepted n =>
            dsimp only
            split
            · rfl
            · rfl
    | allWritten _ _ => rfl
    | leaveWrite _ => rfl
    | callbackReturn _ => rfl
  exact hkeeps.of_same hkept.inbuff hkept.readcb rfl hsent rfl

theorem inReadcb_eq (d : Duplex) {revents : Mask}
    (hphase : d.phase = Duplex.Phase.readcb revents)
    (hstack : d.out.stack = []) : d.inReadcb = true := by
  unfold Duplex.inReadcb
  rw [hphase, hstack]
  rfl

theorem phase_of_inReadcb (h : d.inReadcb = true) :
    exists revents, d.phase = Duplex.Phase.readcb revents := by
  unfold Duplex.inReadcb at h
  split at h
  · rename_i revents hphase
    exact ⟨revents, hphase⟩
  · cases h

theorem Keeps.inbuff_nil (hkeeps : h.Keeps d) (hne : h ≠ entry) :
    d.bev.inbuff.contents = [] := by
  by_contra hinbuff
  exact hne (hkeeps.emptied hinbuff).left

theorem Keeps.proceed (hkeeps : h.Keeps d)
    (hstep : Duplex.step d Duplex.Action.proceed = some d')
    (hrun : d.handleRead h Duplex.Action.proceed = some h') :
    h'.Keeps d' := by
  have hsame : d'.bev.inbuff = d.bev.inbuff ∧
      d'.bev.readcb = d.bev.readcb ∧ d'.received = d.received ∧
      d'.out.sent = d.out.sent := by
    rcases Duplex.proceed_cases hstep with
      ⟨_, ⟨p, rfl, _⟩ | ⟨revents, _, _, hout⟩⟩
    · exact ⟨rfl, rfl, rfl, rfl⟩
    · rcases Duplex.outbound_eq hout with ⟨out, hone, rfl⟩
      cases Outbound.steps_of_step hone with
      | handleWrite _ => exact ⟨rfl, rfl, rfl, rfl⟩
  rcases hsame with ⟨hinbuff, hreadcb, hreceived, hsent⟩
  have hstack := (Duplex.proceed_cases hstep).left
  cases hin : d.inReadcb with
  | true =>
      -- The callback returns.
      simp only [Duplex.handleRead, hin] at hrun
      cases h with
      | entry => cases hrun
      | received str => cases hrun
      | returns =>
          cases hrun
          have hnone := hkeeps.inbuff_nil (by nofun)
          exact {
            readcb := hreadcb.trans hkeeps.readcb
            echoed := by
              rw [hreceived, hsent]
              exact hkeeps.echoed
            inside := fun hne => absurd rfl hne
            emptied := by
              rw [hinbuff]
              exact fun hne => absurd hnone hne }
  | false =>
      have hcall : forall revents, d.phase ≠ Duplex.Phase.readcb revents := by
        intro revents hphase
        rw [inReadcb_eq d hphase hstack] at hin
        cases hin
      have hentry : h = entry := by
        by_contra hne
        rcases hkeeps.inside hne with ⟨revents, hphase⟩
        exact hcall revents hphase
      have hsameh : h' = h := by
        simp only [Duplex.handleRead, hin] at hrun
        cases h with
        | entry =>
            cases hrun
            rfl
        | received str => cases hentry
        | returns => cases hentry
      rw [hsameh]
      by_cases htest : exists revents,
          d.phase = Duplex.Phase.testReadcb revents
      · -- The callback is called.
        rcases htest with ⟨revents, hphase⟩
        have hcalled : d' = d.goto (Duplex.Phase.readcb revents) := by
          have hone : d.proceed = some d' := hstep
          simp only [Duplex.proceed, hstack, List.isEmpty_nil, if_true, hphase,
            hkeeps.readcb] at hone
          exact (Option.some.inj hone).symm
        rw [hcalled]
        exact {
          readcb := hkeeps.readcb
          echoed := hkeeps.echoed
          inside := fun hne => absurd hentry hne
          emptied := fun _ => ⟨hentry, revents, Or.inr rfl⟩ }
      · have hidle := hkeeps.idle (not_exists.mp htest) hcall
        apply hkeeps.of_idle hidle.left _ hreadcb hreceived hsent
        rw [hinbuff]
        exact hidle.right

theorem Keeps.readiov (hkeeps : h.Keeps d) {r : ReadResult}
    (hstep : d.readiov r = some d') : h.Keeps d' := by
  rcases Duplex.readiov_cases hstep with ⟨revents, hphase, hcases⟩
  have hidle := hkeeps.idle (fun _ hne => by rw [hphase] at hne; cases hne)
    (fun _ hne => by rw [hphase] at hne; cases hne)
  rcases hcases with ⟨_, _, _, rfl⟩ | ⟨b, rest, hfits, _, _, rfl⟩ |
    ⟨errno, _, ⟨_, _, rfl⟩ | ⟨_, rfl⟩⟩
  · exact hkeeps.of_idle hidle.left hidle.right rfl rfl rfl
  · exact {
      readcb := hkeeps.readcb
      echoed := hkeeps.echoed
      inside := fun hne => absurd hidle.left hne
      emptied := fun _ => ⟨hidle.left, revents, Or.inl rfl⟩ }
  · exact hkeeps.of_idle hidle.left hidle.right rfl rfl rfl
  · exact hkeeps.of_idle hidle.left hidle.right rfl rfl rfl

theorem Keeps.receiveAll (hkeeps : h.Keeps d)
    (hrun : d.handleRead h Duplex.Action.receiveAll = some h') :
    h'.Keeps d.receiveAll := by
  cases hin : d.inReadcb with
  | false =>
      simp only [Duplex.handleRead, hin] at hrun
      cases hrun
  | true =>
      simp only [Duplex.handleRead, hin] at hrun
      cases h with
      | received str => cases hrun
      | returns => cases hrun
      | entry =>
          cases hrun
          have hall : d.bev.inbuff.readbytes = d.bev.inbuff.contents.length :=
            ValidBuffer.readbytes_eq_length d.bev.inbuff
          have hreceived : d.receiveAll.received =
              d.received ++ d.bev.inbuff.contents := by
            show d.received ++ (d.bev.inbuff.remove _).snd = _
            rw [ValidBuffer.remove_snd, hall, List.take_length]
          have hnone : d.receiveAll.bev.inbuff.contents = [] := by
            show (d.bev.inbuff.remove _).fst.contents = _
            rw [ValidBuffer.remove_fst, hall, List.drop_length]
          exact {
            readcb := hkeeps.readcb
            echoed := by
              have hbefore : d.received = d.out.sent ++ [] := hkeeps.echoed
              rw [hreceived, hbefore, List.append_nil]
              rfl
            inside := fun _ => phase_of_inReadcb hin
            emptied := fun hne => absurd hnone hne }

theorem Keeps.sendout (hkeeps : h.Keeps d) {p : Payload}
    {written gathered : WriteResult}
    (hstep : d.outbound (Outbound.Action.sendout p written gathered) =
      some d')
    (hrun : d.handleRead h (Duplex.Action.sendout p written gathered) =
      some h') : h'.Keeps d' := by
  cases hin : d.inReadcb with
  | false =>
      simp only [Duplex.handleRead, hin] at hrun
      cases hrun
  | true =>
      simp only [Duplex.handleRead, hin] at hrun
      cases h with
      | entry => cases hrun
      | returns => cases hrun
      | received str =>
          dsimp only at hrun
          split at hrun
          · rename_i hbytes
            cases hrun
            have hnone := hkeeps.inbuff_nil (by nofun)
            rcases Duplex.outbound_eq hstep with ⟨out, hout, rfl⟩
            have hkept := Outbound.step_sendsOnly hout
            have hsent : out.sent = d.out.sent ++ str := by
              cases Outbound.steps_of_step hout with
              | sendout _ =>
                  rw [<- hbytes]
            exact {
              readcb := hkept.readcb.trans hkeeps.readcb
              echoed := by
                show d.received = out.sent ++ []
                rw [List.append_nil, hsent]
                exact hkeeps.echoed
              inside := fun _ => phase_of_inReadcb (d := d) hin
              emptied := by
                show out.conn.bev.inbuff.contents ≠ [] -> _
                rw [hkept.inbuff]
                exact fun hne => absurd hnone hne }
          · cases hrun

theorem Keeps.step (hkeeps : h.Keeps d) {a : Duplex.Action}
    (hstep : Duplex.step d a = some d') (hrun : d.handleRead h a = some h') :
    h'.Keeps d' := by
  cases a with
  | peerSends bytes =>
      cases hrun
      simp only [Duplex.step] at hstep
      split at hstep
      · cases hstep
      · cases hstep
        exact hkeeps.of_same rfl rfl rfl rfl rfl
  | peerEnds =>
      cases hrun
      simp only [Duplex.step] at hstep
      split at hstep
      · cases hstep
      · cases hstep
        exact hkeeps.of_same rfl rfl rfl rfl rfl
  | wake =>
      cases hrun
      cases hstep
      exact hkeeps.of_same rfl rfl rfl rfl rfl
  | wait revents =>
      cases hrun
      rcases Duplex.wait_cases hstep with ⟨hphase, _, _, _, rfl⟩
      have hidle := hkeeps.idle (fun _ hne => by rw [hphase] at hne; cases hne)
        (fun _ hne => by rw [hphase] at hne; cases hne)
      exact hkeeps.of_idle hidle.left hidle.right rfl rfl rfl
  | proceed => exact hkeeps.proceed hstep hrun
  | readiov r =>
      cases hrun
      exact hkeeps.readiov hstep
  | receive len => cases hrun
  | receiveAll =>
      rw [Duplex.ifUser_eq hstep]
      exact hkeeps.receiveAll hrun
  | setrcb readcb => cases hrun
  | enableRead => cases hrun
  | disableRead => cases hrun
  | sendout p written gathered =>
      simp only [Duplex.step] at hstep
      split at hstep
      · exact hkeeps.sendout hstep hrun
      · cases hstep
  | writeRound r =>
      cases hrun
      exact hkeeps.of_outbound hstep fun _ _ _ hne => by cases hne
  | writeDone =>
      cases hrun
      exact hkeeps.of_outbound hstep fun _ _ _ hne => by cases hne
  | callbackReturn =>
      cases hrun
      exact hkeeps.of_outbound hstep fun _ _ _ hne => by cases hne

end HandleRead

namespace Echo

variable {s s' : Echo}

/-!
# The server and its client
-/

theorem step_cases {a : Link.Action} (hstep : step s a = some s') :
    s.handlerAfter a = some s'.handler ∧
      Link.step s.link a = some s'.link := by
  unfold step at hstep
  split at hstep
  · rename_i handler link hhandler hlink
    cases hstep
    exact ⟨hhandler, hlink⟩
  · cases hstep

theorem step_keeps {a : Link.Action} (h : s.handler.Keeps s.server)
    (hstep : step s a = some s') : s'.handler.Keeps s'.server := by
  rcases step_cases hstep with ⟨hhandler, hlink⟩
  rcases Link.step_cases hlink with ⟨_, t, ht, hupdate⟩
  rcases a with ⟨side, act⟩
  cases side with
  | client =>
      have hserver : s'.server = s.server := by
        unfold server
        rw [hupdate, Function.update_of_ne (by nofun)]
      have hhandler : s'.handler = s.handler :=
        (Option.some.inj hhandler).symm
      rw [hserver, hhandler]
      exact h
  | server =>
      have hserver : s'.server = t.duplex := by
        unfold server
        rw [hupdate, Function.update_self]
      rw [hserver]
      cases act with
      | kernel room =>
          have hhandler : s'.handler = s.handler :=
            (Option.some.inj hhandler).symm
          rw [hhandler]
          cases ht
          exact h.of_same rfl rfl rfl rfl rfl
      | own b room =>
          rcases Endpoint.step_own ht with ⟨_, _, d, hd, rfl⟩
          have hafter := h.step hd hhandler
          exact hafter.of_same rfl rfl rfl rfl rfl

theorem circulates_of_transported (h : s.handler.Keeps s.server)
    (htransported : s.link.Transported) : s.Circulates := by
  have hback := htransported.stream Side.client
  have hthere := htransported.stream Side.server
  unfold Circulates around
  rw [hback]
  show s.server.out.sent ++ _ ++ _ ++ _ ++ _ ++ _ = _
  rw [<- h.echoed]
  exact hthere

/--
Whatever the client and the kernel do on a healthy connection, what the client
has sent is on its way to the server and back, once and in order, if direct
writes take the whole payload; and if no handler gives up either, nothing stops
before the client has got back everything.
-/
theorem echo_returns {bev : Side -> Bfevent} {room : Side -> Bool}
    (hin : forall i, (bev i).inbuff.contents = [])
    (hout : forall i, (bev i).outbuff.contents = [])
    (hpassed : forall i, (bev i).ev.registered = some (bev i).ev.events)
    (hreadcb : (bev Side.server).readcb = true) {acts : List Link.Action}
    {t : Echo}
    (hsoft : StepFn.Meets step (fun s => Link.Soft s.link)
      (start (Link.start bev room)) acts)
    (hcomplete : StepFn.Meets step (fun s => Link.DirectWriteComplete s.link)
      (start (Link.start bev room)) acts)
    (hrun : StepFn.run step (start (Link.start bev room)) acts = some t) :
    t.Circulates ∧
      (StepFn.Meets step (fun s => Link.Persistent s.link)
          (start (Link.start bev room)) acts -> t.link.Quiet ->
        (t.link Side.client).duplex.received ++
            (t.link Side.client).duplex.bev.inbuff.contents =
          (t.link Side.client).duplex.out.sent) := by
  have hstart : Link.Inv (Link.start bev room) :=
    Link.start_inv hin hout hpassed
  have hkeeps : HandleRead.entry.Keeps
      (start (Link.start bev room)).server := {
    readcb := hreadcb
    echoed := rfl
    inside := fun hne => absurd rfl hne
    emptied := fun hne => absurd (hin Side.server) hne }
  have htransported : (Link.start bev room).Transported :=
    (Link.transported_iff_intact hstart).mpr
      fun i => Outbound.start_intact (hout i)
  have hend : t.link.Inv ∧ t.link.Transported ∧ t.handler.Keeps t.server := by
    have hone : forall (s : Echo) a s',
        s.link.Inv ∧ s.link.Transported ∧ s.handler.Keeps s.server ->
        Link.Soft s.link a ∧ Link.DirectWriteComplete s.link a ->
        step s a = some s' ->
        s'.link.Inv ∧ s'.link.Transported ∧ s'.handler.Keeps s'.server := by
      rintro s a s' ⟨hinv, htrans, hkeep⟩ ⟨hsoftly, hwhole⟩ hstep
      have hlink := (step_cases hstep).right
      exact ⟨Link.step_inv hinv hlink,
        (Link.step_transported_iff hinv htrans hsoftly hlink).mpr hwhole,
        step_keeps hkeep hstep⟩
    exact StepFn.run_invariant_of_meets hone ⟨hstart, htransported, hkeeps⟩
      (hsoft.and hcomplete) hrun
  have hcirculates := circulates_of_transported hend.right.right
    hend.right.left
  refine ⟨hcirculates, ?_⟩
  intro hpersistent hquiet
  have hserved : t.link.Inv ∧ t.link.Served := by
    have hone : forall (s : Echo) a s', s.link.Inv ∧ s.link.Served ->
        Link.Persistent s.link a -> step s a = some s' ->
        s'.link.Inv ∧ s'.link.Served := by
      intro s a s' h hguard hstep
      have hlink := (step_cases hstep).right
      exact ⟨Link.step_inv h.left hlink,
        Link.step_served h.left h.right hguard hlink⟩
    exact StepFn.run_invariant_of_meets hone
      ⟨hstart, Link.start_served hout⟩ hpersistent hrun
  have hphase : t.server.phase = Duplex.Phase.elsewhere :=
    (hquiet Side.server).phase
  have hidle := hend.right.right.idle (by rw [hphase]; nofun)
    (by rw [hphase]; nofun)
  -- The server holds nothing, and has sent what the client has sent.
  have hback := Link.along_of_quiet hserved.right hquiet Side.client
  have hthere := Link.along_of_quiet hserved.right hquiet Side.server
  have hreceived : t.server.received = t.server.out.sent := by
    have hechoed := hend.right.right.echoed
    rw [hidle.left] at hechoed
    exact hechoed.trans (List.append_nil _)
  rw [<- hback, hend.right.left.stream Side.client]
  show t.server.out.sent = _
  have hclient := hend.right.left.stream Side.server
  rw [hthere] at hclient
  show _ = (t.link Side.server.other).duplex.out.sent
  rw [<- hclient, <- hreceived]
  show _ = t.server.received ++ t.server.bev.inbuff.contents
  rw [hidle.right, List.append_nil]

/-!
## Two bytes and back
-/

def reads (i : Side) (user : List Link.Action) : List Link.Action :=
  [Link.own i (Duplex.Action.peerSends [104, 105]),
    Link.own i (Duplex.Action.wait EPOLLIN), Link.own i Duplex.Action.proceed,
    Link.own i (Duplex.Action.readiov (ReadResult.received [104, 105])),
    Link.own i Duplex.Action.proceed] ++ user ++
  [Link.own i Duplex.Action.proceed,
    Link.own i (Duplex.Action.readiov (ReadResult.failed Errno.eagain)),
    Link.own i Duplex.Action.proceed, Link.own i Duplex.Action.proceed]

def sendsHi (i : Side) : List Link.Action :=
  [Link.own i (Duplex.Action.sendout Outbound.hi (WriteResult.accepted 2)
      (WriteResult.accepted 2)),
    Link.own i Duplex.Action.callbackReturn]

def hiAndBack : List Link.Action :=
  sendsHi Side.client ++
    reads Side.server (Link.own Side.server Duplex.Action.receiveAll ::
      sendsHi Side.server) ++
    reads Side.client [Link.own Side.client Duplex.Action.receiveAll]

theorem echo_returns_hiAndBack :
    exists t, StepFn.run step (start Link.idle) hiAndBack = some t ∧
      t.Circulates ∧ (t.link Side.client).duplex.received ++
        (t.link Side.client).duplex.bev.inbuff.contents = [104, 105] := by
  have hreached : (StepFn.run step (start Link.idle) hiAndBack).any (fun t =>
      decide ((t.link Side.client).duplex.out.sent = [104, 105] ∧
        t.link.Quiet)) = true := by
    decide +kernel
  rcases (Option.any_eq_true _ _).mp hreached with ⟨t, hrun, hend⟩
  rcases of_decide_eq_true hend with ⟨hsent, hquiet⟩
  have hsoft : StepFn.Meets step (fun s => Link.Soft s.link)
      (start Link.idle) hiAndBack := by
    decide +kernel
  have h := echo_returns (fun i => (Link.idleBev_fresh i).left)
    (fun i => (Link.idleBev_fresh i).right.left)
    (fun i => (Link.idleBev_fresh i).right.right) rfl hsoft
    (by decide +kernel) hrun
  exact ⟨t, hrun, h.left, (h.right (by decide +kernel) hquiet).trans hsent⟩

end Echo

end MoonNet
