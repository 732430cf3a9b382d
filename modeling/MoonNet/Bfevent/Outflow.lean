import MoonNet.Bfevent.Inbound
import MoonNet.Bfevent.WriteCallback

/-!
# The outbound stream of a connection

The kernel's send buffer has room or not.  A `write` that is refused with
`EAGAIN`, or takes less than it was offered, has found it exhausted.  An edge is
due when room returns, or is there when the mask gets `EPOLLOUT`, and
`epoll_wait` reports `EPOLLOUT` while there is room.  `sendout` leaves bytes
behind only after it has exhausted the room, and `handle_write` goes on until
everything is written, the room is exhausted, or a write fails.
-/

namespace MoonNet

open Foundation
open Kernel

theorem and_EPOLLOUT_ne_zero (m : Mask) :
    (m &&& EPOLLOUT != 0) = m.getLsbD 2 := by
  have hbit : m &&& EPOLLOUT = if m.getLsbD 2 then EPOLLOUT else 0#32 :=
    BitVec.and_twoPow m 2
  rw [hbit]
  cases m.getLsbD 2 with
  | false => rfl
  | true => rfl

def Kernel.WriteResult.exhausts (offered : Nat) : WriteResult -> Bool
  | WriteResult.failed errno => errno.wouldBlock
  | WriteResult.accepted count => decide (count < offered)

/-- The last `write` or `writev` of `sendout`, if it makes one, does so. -/
def Conn.exhausts (c : Conn) (p : Payload)
    (written gathered : WriteResult) : Bool :=
  let total := c.bev.outbuff.readbytes + p.len
  if c.direct then
    match written with
    | WriteResult.accepted n => decide (n < p.len)
    | WriteResult.failed errno =>
        errno.wouldBlock &&
          (decide (p.len = 0) || gathered.exhausts total)
  else decide (0 < p.len) && gathered.exhausts total

namespace Conn

/-!
# What is left behind
-/

theorem gather_pending {c : Conn} {p : Payload} {n : Int} {r : WriteResult}
    (hroom : r.exhausts (c.bev.outbuff.readbytes + p.len) = false)
    (hpending : (c.gather p n p.len r).fst.backlog ≠ []) :
    c.backlog ≠ [] := by
  unfold gather at hpending
  cases r with
  | failed errno =>
      have hblock : errno.wouldBlock = false := hroom
      simp only [hblock] at hpending
      exact hpending
  | accepted wvn =>
      have hall : c.bev.outbuff.readbytes + p.len <= wvn :=
        Nat.le_of_not_lt (of_decide_eq_false hroom)
      have hnotless : ¬ (wvn : Int) < c.bev.outbuff.readbytes + p.len := by
        omega
      simp only [hnotless] at hpending
      exact absurd (ValidBuffer.contents_reset _) hpending

theorem sendout_pending {c : Conn} {p : Payload}
    {written gathered : WriteResult}
    (hroom : c.exhausts p written gathered = false)
    (hpending : (c.sendout p written gathered).fst.backlog ≠ []) :
    c.backlog ≠ [] := by
  unfold exhausts at hroom
  unfold sendout at hpending
  dsimp only at hroom hpending
  split at hpending
  · rename_i hdirect
    rw [if_pos hdirect] at hroom
    cases written with
    | accepted n =>
        have hnone : ¬ 0 < (p.len : Int) - p.len := by omega
        simp only [hnone] at hpending
        split at hpending
        · exact hpending
        · exact hpending
    | failed errno =>
        dsimp only at hroom hpending
        split at hpending
        · rename_i hblock
          rw [hblock, Bool.true_and, Bool.or_eq_false_iff] at hroom
          split at hpending
          · exact gather_pending (c := c.offer _ _ _) hroom.right hpending
          · exact hpending
        · exact hpending
  · rename_i hdirect
    rw [if_neg hdirect] at hroom
    split at hpending
    · rename_i hlen
      have hpos : decide (0 < p.len) = true := decide_eq_true (by omega)
      rw [hpos, Bool.true_and] at hroom
      exact gather_pending hroom hpending
    · exact hpending

end Conn

namespace Duplex

def exhausts (s : Duplex) : Action -> Bool
  | Action.sendout p written gathered =>
      s.out.conn.exhausts p written gathered
  | Action.writeRound r => r.exhausts s.bev.outbuff.readbytes
  | _ => false

def writeWatched (s : Duplex) : Bool :=
  match s.bev.ev.registered with
  | none => false
  | some mask => mask &&& EPOLLOUT != 0

def due (s : Duplex) : Bool :=
  s.phase.writes || decide (Outbound.Frame.handleWrite ∈ s.out.stack)

end Duplex

/-- A connection and the room in the kernel's send buffer. -/
structure Endpoint where
  duplex : Duplex
  room : Bool
deriving DecidableEq

namespace Endpoint

def start (bev : Bfevent) (room : Bool) : Endpoint where
  duplex := Duplex.start bev
  room := room

inductive Action where
  | own (a : Duplex.Action) (room : Bool)
  | kernel (room : Bool)

def ready (s : Endpoint) : Bool :=
  s.duplex.writeWatched && s.room

def follow (s : Endpoint) (d : Duplex) (room : Bool) : Endpoint where
  duplex :=
    { d with edge := d.edge || (d.writeWatched && room && !s.ready) }
  room := room

def reports (s : Endpoint) : Duplex.Action -> Bool
  | Duplex.Action.wait revents => !s.ready || Duplex.has revents EPOLLOUT
  | _ => true

def step : StepFn Endpoint Action := fun s a =>
  match a with
  | Action.own a room =>
      if s.reports a && !(s.duplex.exhausts a && room) then
        (Duplex.step s.duplex a).map fun d => s.follow d room
      else none
  | Action.kernel room => some (s.follow s.duplex room)

/--
While something is pending and there is room for it, `handle_write` is at it, or
is going to be called, or an edge is due.
-/
def Attended (s : Endpoint) : Prop :=
  s.duplex.out.conn.backlog ≠ [] -> s.room = true ->
    s.duplex.edge = true ∨ s.duplex.due = true

/--
If `handle_write` gives up after a write that failed, there is no room, or an
edge is due.
-/
def GivesUpAtEdge (s : Endpoint) : Action -> Prop
  | Action.own (Duplex.Action.writeRound (WriteResult.failed errno)) room =>
      errno.wouldBlock = false -> s.room = true -> room = true ->
        s.duplex.edge = true
  | _ => True

/-!
# The output of the outbound machine
-/

end Endpoint

namespace Outbound

def Single (s : State) : Prop :=
  s.stack.count Frame.handleWrite <= 1

theorem count_pushIf_callback (b : Bool) (stack : List Frame) :
    (pushIf b Frame.callback stack).count Frame.handleWrite =
      stack.count Frame.handleWrite := by
  cases b with
  | false => rfl
  | true => exact List.count_cons_of_ne (by decide)

theorem mem_pushIf_callback (b : Bool) (stack : List Frame) :
    Frame.handleWrite ∈ pushIf b Frame.callback stack <->
      Frame.handleWrite ∈ stack := by
  rw [<- List.count_pos_iff, <- List.count_pos_iff, count_pushIf_callback]

inductive Steps (s : State) : Action -> State -> Prop where
  | sendout {p : Payload} {written gathered : WriteResult}
      (user : userCode s.stack = true) :
      Steps s (Action.sendout p written gathered)
        { conn := (s.conn.sendout p written gathered).fst
          sent := s.sent ++ p.bytes
          stack := pushIf (s.conn.sendout p written gathered).snd
            Frame.callback s.stack }
  | handleWrite (idle : s.stack = []) :
      Steps s Action.handleWrite { s with stack := [Frame.handleWrite] }
  | writeRound {r : WriteResult} {rest : List Frame}
      (stack : s.stack = Frame.handleWrite :: rest)
      (pending : 0 < s.conn.bev.outbuff.readbytes) :
      Steps s (Action.writeRound r) (writeRound s rest r)
  | allWritten {rest : List Frame}
      (stack : s.stack = Frame.handleWrite :: rest)
      (none : s.conn.bev.outbuff.readbytes = 0) :
      Steps s Action.writeDone
        { s with conn := finishWrite s.conn, stack := rest }
  | leaveWrite {rest : List Frame}
      (stack : s.stack = Frame.leaveWrite :: rest) :
      Steps s Action.writeDone
        { s with conn := finishWrite s.conn, stack := rest }
  | callbackReturn {rest : List Frame}
      (stack : s.stack = Frame.callback :: rest) :
      Steps s Action.callbackReturn { s with stack := rest }

theorem steps_of_step {s s' : State} {a : Action}
    (hstep : step s a = some s') : Steps s a s' := by
  cases a with
  | sendout p written gathered =>
      simp only [step] at hstep
      split at hstep
      · rename_i huser
        cases hstep
        exact Steps.sendout huser
      · cases hstep
  | handleWrite =>
      simp only [step] at hstep
      split at hstep
      · rename_i hstack
        cases hstep
        exact Steps.handleWrite hstack
      · cases hstep
  | writeRound r =>
      simp only [step] at hstep
      split at hstep
      · rename_i hstack
        split at hstep
        · rename_i hpending
          cases hstep
          exact Steps.writeRound hstack hpending
        · cases hstep
      · cases hstep
  | writeDone =>
      simp only [step] at hstep
      split at hstep
      · rename_i hstack
        split at hstep
        · rename_i hnone
          cases hstep
          exact Steps.allWritten hstack hnone
        · cases hstep
      · rename_i hstack
        cases hstep
        exact Steps.leaveWrite hstack
      · cases hstep
  | callbackReturn =>
      simp only [step] at hstep
      split at hstep
      · rename_i hstack
        cases hstep
        exact Steps.callbackReturn hstack
      · cases hstep

theorem writeRound_stack (s : State) (rest : List Frame) (r : WriteResult)
    (hstack : s.stack = Frame.handleWrite :: rest) :
    exists b, (writeRound s rest r).stack =
      pushIf b Frame.callback
        (match r with
        | WriteResult.accepted _ => Frame.handleWrite :: rest
        | WriteResult.failed _ => Frame.leaveWrite :: rest) := by
  unfold writeRound
  cases r with
  | failed errno => exact ⟨_, rfl⟩
  | accepted n =>
      dsimp only
      split
      · exact ⟨_, rfl⟩
      · exact ⟨false, hstack⟩

theorem step_single {s s' : State} {a : Action} (h : Single s)
    (hstep : step s a = some s') : Single s' := by
  unfold Single at *
  cases steps_of_step hstep with
  | sendout huser =>
      rw [count_pushIf_callback]
      exact h
  | handleWrite hidle => exact Nat.le_refl 1
  | @writeRound r rest hstack hpending =>
      rcases writeRound_stack s rest r hstack with ⟨b, hafter⟩
      rw [hafter, count_pushIf_callback]
      rw [hstack] at h
      cases r with
      | accepted n => exact h
      | failed errno =>
          rw [List.count_cons_of_ne (by decide)]
          exact Nat.le_trans List.count_le_count_cons h
  | allWritten hstack hnone =>
      rw [hstack] at h
      exact Nat.le_trans List.count_le_count_cons h
  | leaveWrite hstack =>
      rw [hstack] at h
      exact Nat.le_trans List.count_le_count_cons h
  | callbackReturn hstack =>
      rw [hstack] at h
      exact Nat.le_trans List.count_le_count_cons h

theorem step_entered {s s' : State} {a : Action}
    (hstep : step s a = some s') (hmem : Frame.handleWrite ∈ s'.stack) :
    Frame.handleWrite ∈ s.stack ∨ a = Action.handleWrite := by
  cases steps_of_step hstep with
  | sendout huser => exact Or.inl ((mem_pushIf_callback _ _).mp hmem)
  | handleWrite hidle => exact Or.inr rfl
  | @writeRound r rest hstack hpending =>
      rw [hstack]
      exact Or.inl List.mem_cons_self
  | allWritten hstack hnone =>
      rw [hstack]
      exact Or.inl (List.mem_cons_of_mem _ hmem)
  | leaveWrite hstack =>
      rw [hstack]
      exact Or.inl (List.mem_cons_of_mem _ hmem)
  | callbackReturn hstack =>
      rw [hstack]
      exact Or.inl (List.mem_cons_of_mem _ hmem)

theorem step_pending {s s' : State} {a : Action}
    (hstep : step s a = some s') (hroom : forall p written gathered,
      a = Action.sendout p written gathered ->
        s.conn.exhausts p written gathered = false)
    (hpending : s'.conn.backlog ≠ []) : s.conn.backlog ≠ [] := by
  cases steps_of_step hstep with
  | sendout huser => exact Conn.sendout_pending (hroom _ _ _ rfl) hpending
  | handleWrite hidle => exact hpending
  | writeRound hstack hwaiting =>
      intro hnil
      rw [Conn.readbytes_eq_length, hnil] at hwaiting
      cases hwaiting
  | allWritten hstack hnone =>
      rwa [finishWrite_backlog] at hpending
  | leaveWrite hstack =>
      rwa [finishWrite_backlog] at hpending
  | callbackReturn hstack => exact hpending

theorem step_stays {s s' : State} {a : Action}
    (hstep : step s a = some s') (hmem : Frame.handleWrite ∈ s.stack)
    (hpending : s'.conn.backlog ≠ []) :
    Frame.handleWrite ∈ s'.stack ∨
      exists errno, a = Action.writeRound (WriteResult.failed errno) := by
  cases steps_of_step hstep with
  | sendout huser => exact Or.inl ((mem_pushIf_callback _ _).mpr hmem)
  | handleWrite hidle => exact Or.inl List.mem_cons_self
  | @writeRound r rest hstack hwaiting =>
      cases r with
      | failed errno => exact Or.inr ⟨errno, rfl⟩
      | accepted n =>
          rcases writeRound_stack s rest (WriteResult.accepted n) hstack with
            ⟨b, hafter⟩
          rw [hafter, mem_pushIf_callback]
          exact Or.inl List.mem_cons_self
  | allWritten hstack hnone =>
      rw [finishWrite_backlog] at hpending
      rw [Conn.readbytes_eq_length] at hnone
      exact absurd (List.eq_nil_of_length_eq_zero hnone) hpending
  | leaveWrite hstack =>
      rw [hstack] at hmem
      exact Or.inl (List.mem_of_ne_of_mem (by decide) hmem)
  | callbackReturn hstack =>
      rw [hstack] at hmem
      exact Or.inl (List.mem_of_ne_of_mem (by decide) hmem)

theorem failed_left {s s' : State} {errno : Errno} (h : Single s)
    (hstep : step s (Action.writeRound (WriteResult.failed errno)) = some s') :
    Frame.handleWrite ∈ s.stack ∧ Frame.handleWrite ∉ s'.stack ∧
      s.conn.backlog ≠ [] ∧ s'.conn.bev = s.conn.bev := by
  cases steps_of_step hstep with
  | @writeRound _ rest hstack hwaiting =>
      unfold Single at h
      rw [hstack, List.count_cons_self] at h
      rcases writeRound_stack s rest (WriteResult.failed errno) hstack with
        ⟨b, hafter⟩
      refine ⟨?_, ?_, ?_, rfl⟩
      · rw [hstack]
        exact List.mem_cons_self
      · rw [hafter, mem_pushIf_callback]
        intro hmem
        have hrest : Frame.handleWrite ∈ rest :=
          List.mem_of_ne_of_mem (by decide) hmem
        have hpos := List.count_pos_iff.mpr hrest
        omega
      · intro hnil
        rw [Conn.readbytes_eq_length, hnil] at hwaiting
        cases hwaiting

end Outbound

namespace Duplex

variable {s s' : Duplex}

/-!
# What a step of the connection does to its output
-/

def outAction (s : Duplex) : Action -> Option Outbound.Action
  | Action.sendout p written gathered =>
      some (Outbound.Action.sendout p written gathered)
  | Action.writeRound r => some (Outbound.Action.writeRound r)
  | Action.writeDone => some Outbound.Action.writeDone
  | Action.callbackReturn => some Outbound.Action.callbackReturn
  | Action.proceed =>
      match s.phase with
      | Phase.testOut revents =>
          if has revents EPOLLOUT then some Outbound.Action.handleWrite
          else none
      | _ => none
  | _ => none

def ofOutbound : Outbound.Action -> Action
  | Outbound.Action.sendout p written gathered =>
      Action.sendout p written gathered
  | Outbound.Action.handleWrite => Action.proceed
  | Outbound.Action.writeRound r => Action.writeRound r
  | Outbound.Action.writeDone => Action.writeDone
  | Outbound.Action.callbackReturn => Action.callbackReturn

theorem eq_ofOutbound {a : Action} {x : Outbound.Action}
    (h : s.outAction a = some x) : a = ofOutbound x := by
  cases a with
  | proceed =>
      unfold outAction at h
      dsimp only at h
      split at h
      · split at h
        · cases h
          rfl
        · cases h
      · cases h
  | _ =>
      cases h
      try rfl

/-- Nothing of the output but what is interested in `EPOLLIN` changes. -/
structure KeepsOutput (s s' : Duplex) : Prop where
  outbuff : s'.bev.outbuff = s.bev.outbuff
  wire : s'.out.conn.wire = s.out.conn.wire
  sent : s'.out.sent = s.out.sent
  stack : s'.out.stack = s.out.stack
  output : s'.bev.ev.events.getLsbD 2 = s.bev.ev.events.getLsbD 2

theorem KeepsOutput.refl (s : Duplex) : s.KeepsOutput s where
  outbuff := rfl
  wire := rfl
  sent := rfl
  stack := rfl
  output := rfl

theorem proceed_output (hstep : s.proceed = some s') :
    match s.outAction Action.proceed with
    | none => s.KeepsOutput s'
    | some x => Outbound.step s.out x = some s'.out := by
  rcases proceed_cases hstep with
    ⟨hstack, ⟨p, rfl, hleads⟩ | ⟨revents, hphase, hreported, hout⟩⟩
  · have hnone : s.outAction Action.proceed = none := by
      unfold outAction
      dsimp only
      split
      · rename_i revents hphase
        rw [hleads.notWriting revents hphase]
        rfl
      · rfl
    rw [hnone]
    exact { KeepsOutput.refl s with }
  · have hsome : s.outAction Action.proceed =
        some Outbound.Action.handleWrite := by
      unfold outAction
      rw [hphase]
      exact if_pos hreported
    rw [hsome]
    rcases outbound_eq hout with ⟨out, hone, rfl⟩
    exact hone

theorem setBev_keepsOutput (s : Duplex) {b : Bfevent}
    (hout : b.outbuff = s.bev.outbuff)
    (hbit : b.ev.events.getLsbD 2 = s.bev.ev.events.getLsbD 2) :
    s.KeepsOutput (s.setBev b) where
  outbuff := hout
  wire := rfl
  sent := rfl
  stack := rfl
  output := hbit

theorem readiov_output {r : ReadResult} (hstep : s.readiov r = some s') :
    s.KeepsOutput s' := by
  rcases readiov_cases hstep with ⟨revents, _, hcases⟩
  rcases hcases with ⟨_, _, _, rfl⟩ | ⟨b, rest, hfits, _, _, rfl⟩ |
    ⟨errno, _, ⟨_, _, rfl⟩ | ⟨_, rfl⟩⟩
  · exact { KeepsOutput.refl s with }
  · exact { KeepsOutput.refl s with }
  · exact { KeepsOutput.refl s with }
  · exact { KeepsOutput.refl s with }

theorem step_output {a : Action} (hstep : step s a = some s') :
    match s.outAction a with
    | none => s.KeepsOutput s'
    | some x => Outbound.step s.out x = some s'.out := by
  cases a with
  | peerSends bytes =>
      simp only [step] at hstep
      split at hstep
      · cases hstep
      · cases hstep
        exact { KeepsOutput.refl s with }
  | peerEnds =>
      simp only [step] at hstep
      split at hstep
      · cases hstep
      · cases hstep
        exact { KeepsOutput.refl s with }
  | wake =>
      cases hstep
      exact { KeepsOutput.refl s with }
  | wait revents =>
      rcases wait_cases hstep with ⟨_, _, _, _, rfl⟩
      exact { KeepsOutput.refl s with }
  | proceed => exact proceed_output hstep
  | readiov r => exact readiov_output hstep
  | receive len =>
      rw [ifUser_eq hstep]
      exact { KeepsOutput.refl s with }
  | receiveAll =>
      rw [ifUser_eq hstep]
      exact { KeepsOutput.refl s with }
  | setrcb readcb =>
      rw [ifUser_eq hstep]
      have hbit : (if s.bev.closed then s.bev.ev
          else s.bev.ev.updateEp).events = s.bev.ev.events := by
        split
        · rfl
        · rfl
      exact { setBev_keepsOutput s (b := { s.bev with
        readcb := readcb
        ev := if s.bev.closed then s.bev.ev else s.bev.ev.updateEp }) rfl
          (congrArg (fun m : Mask => m.getLsbD 2) hbit) with }
  | enableRead =>
      rw [ifUser_eq hstep]
      exact { setBev_keepsOutput s (b := s.bev.enableRead) rfl
        (Interest.enableEvents_getLsbD s.bev.ev EPOLLIN 2) with }
  | disableRead =>
      rw [ifUser_eq hstep]
      exact { setBev_keepsOutput s (b := s.bev.disableRead) rfl
        (Interest.disableEvents_getLsbD s.bev.ev EPOLLIN 2) with }
  | sendout p written gathered =>
      simp only [step] at hstep
      split at hstep
      · rcases outbound_eq hstep with ⟨out, hone, rfl⟩
        exact hone
      · cases hstep
  | writeRound r =>
      rcases outbound_eq hstep with ⟨out, hone, rfl⟩
      exact hone
  | writeDone =>
      rcases outbound_eq hstep with ⟨out, hone, rfl⟩
      exact hone
  | callbackReturn =>
      rcases outbound_eq hstep with ⟨out, hone, rfl⟩
      exact hone

/-!
# Edges and the way to `handle_write`
-/

/-- What is due or reported stays so, or `handle_write` is called. -/
structure OnItsWay (s s' : Duplex) : Prop where
  edge : s.edge = true -> s'.edge = true
  writes : s.phase.writes = true -> s'.due = true

theorem due_of_writes (h : s.phase.writes = true) : s.due = true := by
  unfold due
  rw [h]
  rfl

theorem due_of_mem (h : Outbound.Frame.handleWrite ∈ s.out.stack) :
    s.due = true := by
  unfold due
  rw [decide_eq_true h]
  exact Bool.or_true _

theorem onItsWay_of_same (hedge : s.edge = true -> s'.edge = true)
    (hphase : s'.phase.writes = s.phase.writes) : s.OnItsWay s' where
  edge := hedge
  writes := fun hwrites => due_of_writes (hphase.trans hwrites)

theorem notify_onItsWay {t : Duplex} (hedge : t.edge = s.edge)
    (hphase : t.phase = s.phase) : s.OnItsWay t.notify := by
  apply onItsWay_of_same
  · intro hdue
    show (t.edge || _) = true
    rw [hedge, hdue]
    rfl
  · exact congrArg Phase.writes hphase

theorem outbound_onItsWay {a : Outbound.Action}
    (hstep : s.outbound a = some s') : s.OnItsWay s' := by
  rcases outbound_eq hstep with ⟨out, _, rfl⟩
  exact onItsWay_of_same id rfl

theorem proceed_onItsWay (hstep : s.proceed = some s') : s.OnItsWay s' := by
  rcases proceed_cases hstep with
    ⟨hstack, ⟨p, rfl, hleads⟩ | ⟨revents, hphase, hreported, hout⟩⟩
  · exact onItsWay_of_same id hleads.writes
  · rcases outbound_eq hout with ⟨out, hone, rfl⟩
    refine { edge := id, writes := fun _ => ?_ }
    apply due_of_mem
    cases Outbound.steps_of_step hone with
    | handleWrite _ => exact List.mem_cons_self

theorem readiov_onItsWay {r : ReadResult} (hstep : s.readiov r = some s') :
    s.OnItsWay s' := by
  rcases readiov_cases hstep with ⟨revents, hphase, hcases⟩
  rcases hcases with ⟨_, _, _, rfl⟩ | ⟨b, rest, hfits, _, _, rfl⟩ |
    ⟨errno, _, ⟨_, _, rfl⟩ | ⟨_, rfl⟩⟩
  · exact onItsWay_of_same id (by rw [hphase]; rfl)
  · exact onItsWay_of_same id (by rw [hphase]; rfl)
  · exact onItsWay_of_same id (by rw [hphase]; rfl)
  · exact onItsWay_of_same id (by rw [hphase]; rfl)

theorem step_onItsWay {a : Action} (hstep : step s a = some s')
    (hnotice : forall revents, a ≠ Action.wait revents) : s.OnItsWay s' := by
  cases a with
  | peerSends bytes =>
      simp only [step] at hstep
      split at hstep
      · cases hstep
      · cases hstep
        exact notify_onItsWay rfl rfl
  | peerEnds =>
      simp only [step] at hstep
      split at hstep
      · cases hstep
      · cases hstep
        exact notify_onItsWay rfl rfl
  | wake =>
      cases hstep
      exact onItsWay_of_same (fun _ => rfl) rfl
  | wait revents => exact absurd rfl (hnotice revents)
  | proceed => exact proceed_onItsWay hstep
  | readiov r => exact readiov_onItsWay hstep
  | receive len =>
      rw [ifUser_eq hstep]
      exact onItsWay_of_same id rfl
  | receiveAll =>
      rw [ifUser_eq hstep]
      exact onItsWay_of_same id rfl
  | setrcb readcb =>
      rw [ifUser_eq hstep]
      exact notify_onItsWay rfl rfl
  | enableRead =>
      rw [ifUser_eq hstep]
      exact notify_onItsWay rfl rfl
  | disableRead =>
      rw [ifUser_eq hstep]
      exact notify_onItsWay rfl rfl
  | sendout p written gathered =>
      simp only [step] at hstep
      split at hstep
      · exact outbound_onItsWay hstep
      · cases hstep
  | writeRound r => exact outbound_onItsWay hstep
  | writeDone => exact outbound_onItsWay hstep
  | callbackReturn => exact outbound_onItsWay hstep

/-!
# Invariants of the output
-/

/--
Pending output is watched, and `handle_write` is active once at most, called by
`handle_cb`.
-/
structure OutInv (s : Duplex) : Prop where
  watched : s.out.conn.Watched
  single : Outbound.Single s.out
  writing : Outbound.Frame.handleWrite ∈ s.out.stack ->
    exists revents, s.phase = Phase.writing revents

theorem phase_kept {a : Action} (h : Inv s) (hstep : step s a = some s')
    (hstack : s.out.stack ≠ []) : s'.phase = s.phase := by
  cases a with
  | peerSends bytes =>
      simp only [step] at hstep
      split at hstep
      · cases hstep
      · cases hstep
        rfl
  | peerEnds =>
      simp only [step] at hstep
      split at hstep
      · cases hstep
      · cases hstep
        rfl
  | wake =>
      cases hstep
      rfl
  | wait revents =>
      rcases wait_cases hstep with ⟨_, hnone, _⟩
      exact absurd hnone hstack
  | proceed => exact absurd (proceed_cases hstep).left hstack
  | readiov r =>
      rcases readiov_cases hstep with ⟨revents, hphase, _⟩
      rcases h.nested hstack with huser | ⟨revents', hwriting⟩
      · rw [hphase] at huser
        cases huser
      · rw [hphase] at hwriting
        cases hwriting
  | receive len =>
      rw [ifUser_eq hstep]
      rfl
  | receiveAll =>
      rw [ifUser_eq hstep]
      rfl
  | setrcb readcb =>
      rw [ifUser_eq hstep]
      rfl
  | enableRead =>
      rw [ifUser_eq hstep]
      rfl
  | disableRead =>
      rw [ifUser_eq hstep]
      rfl
  | sendout p written gathered =>
      simp only [step] at hstep
      split at hstep
      · rcases outbound_eq hstep with ⟨out, _, rfl⟩
        rfl
      · cases hstep
  | writeRound r =>
      rcases outbound_eq hstep with ⟨out, _, rfl⟩
      rfl
  | writeDone =>
      rcases outbound_eq hstep with ⟨out, _, rfl⟩
      rfl
  | callbackReturn =>
      rcases outbound_eq hstep with ⟨out, _, rfl⟩
      rfl

theorem phase_of_handleWrite {a : Action} (hstep : step s a = some s')
    (haction : s.outAction a = some Outbound.Action.handleWrite) :
    exists revents, s'.phase = Phase.writing revents := by
  cases a with
  | proceed =>
      rcases proceed_cases hstep with
        ⟨_, ⟨p, rfl, hleads⟩ | ⟨revents, _, _, hout⟩⟩
      · unfold outAction at haction
        dsimp only at haction
        split at haction
        · rename_i revents hphase
          rw [hleads.notWriting revents hphase] at haction
          cases haction
        · cases haction
      · rcases outbound_eq hout with ⟨out, _, rfl⟩
        exact ⟨revents, rfl⟩
  | _ => cases haction

theorem step_outInv {a : Action} (h : Inv s) (hout : OutInv s)
    (hstep : step s a = some s') : OutInv s' := by
  have hoff := step_output hstep
  have hcalled := phase_of_handleWrite hstep
  have hphase : Outbound.Frame.handleWrite ∈ s.out.stack ->
      exists revents, s'.phase = Phase.writing revents := by
    intro hmem
    rw [phase_kept h hstep (List.ne_nil_of_mem hmem)]
    exact hout.writing hmem
  cases haction : s.outAction a with
  | none =>
      rw [haction] at hoff
      have hkept : s.KeepsOutput s' := hoff
      have hsingle := hout.single
      unfold Outbound.Single at hsingle
      refine
        { watched := ⟨(step_inv h hstep).passed, ?_⟩
          single := ?_
          writing := ?_ }
      · intro hpending
        have hbit : s'.out.conn.writeable = s.out.conn.writeable := by
          show (s'.bev.ev.events &&& EPOLLOUT != 0) =
            (s.bev.ev.events &&& EPOLLOUT != 0)
          rw [and_EPOLLOUT_ne_zero, and_EPOLLOUT_ne_zero, hkept.output]
        rw [hbit]
        apply hout.watched.pending
        intro hnil
        apply hpending
        show s'.bev.outbuff.contents = []
        rw [hkept.outbuff]
        exact hnil
      · unfold Outbound.Single
        rw [hkept.stack]
        exact hsingle
      · intro hmem
        rw [hkept.stack] at hmem
        exact hphase hmem
  | some x =>
      rw [haction] at hoff
      have hone : Outbound.step s.out x = some s'.out := hoff
      refine
        { watched := Outbound.step_watched hout.watched hone
          single := Outbound.step_single hout.single hone
          writing := ?_ }
      intro hmem
      rcases Outbound.step_entered hone hmem with hbefore | rfl
      · exact hphase hbefore
      · exact hcalled haction

theorem writeWatched_of_pending (h : s.out.conn.Watched)
    (hpending : s.out.conn.backlog ≠ []) : s.writeWatched = true := by
  have hpassed : s.bev.ev.registered = some s.bev.ev.events := h.passed
  unfold writeWatched
  rw [hpassed]
  exact h.pending hpending

theorem raise_inv (h : Inv s) (e : Bool) :
    Inv { s with edge := s.edge || e } where
  passed := h.passed
  ended := h.ended
  nested := h.nested
  skipped := by
    intro revents hphase hflags hwatched hunread
    show (s.edge || e) = true
    rw [h.skipped revents hphase hflags hwatched hunread]
    rfl

theorem raise_outInv (h : OutInv s) (e : Bool) :
    OutInv { s with edge := s.edge || e } where
  watched := h.watched
  single := h.single
  writing := h.writing

theorem step_serves {a : Action}
    (hstep : step s a = some s') (hroom : s.exhausts a = false)
    (hreported : forall revents, a = Action.wait revents ->
      has revents EPOLLOUT = true)
    (hnotfailed : forall errno,
      a ≠ Action.writeRound (WriteResult.failed errno))
    (hattended : s.out.conn.backlog ≠ [] -> s.edge = true ∨ s.due = true)
    (hpending : s'.out.conn.backlog ≠ []) :
    s'.edge = true ∨ s'.due = true := by
  have hoff := step_output hstep
  -- What is pending was pending before, and a called `handle_write` is called
  -- still.
  have hboth : s.out.conn.backlog ≠ [] ∧
      (Outbound.Frame.handleWrite ∈ s.out.stack ->
        Outbound.Frame.handleWrite ∈ s'.out.stack) := by
    cases haction : s.outAction a with
    | none =>
        rw [haction] at hoff
        have hkept : s.KeepsOutput s' := hoff
        have hbacklog : s'.out.conn.backlog = s.out.conn.backlog :=
          congrArg ValidBuffer.contents hkept.outbuff
        rw [hbacklog] at hpending
        rw [hkept.stack]
        exact ⟨hpending, id⟩
    | some x =>
        rw [haction] at hoff
        have hone : Outbound.step s.out x = some s'.out := hoff
        constructor
        · apply Outbound.step_pending hone ?_ hpending
          intro p written gathered hx
          rw [hx] at haction
          rw [eq_ofOutbound haction] at hroom
          exact hroom
        · intro hmem
          rcases Outbound.step_stays hone hmem hpending with
            hstays | ⟨errno, hx⟩
          · exact hstays
          · rw [hx] at haction
            exact absurd (eq_ofOutbound haction) (hnotfailed errno)
  by_cases hnotice : exists revents, a = Action.wait revents
  · rcases hnotice with ⟨revents, rfl⟩
    rcases wait_cases hstep with ⟨_, _, _, _, rfl⟩
    exact Or.inr (due_of_writes (hreported revents rfl))
  · have hway := step_onItsWay hstep (not_exists.mp hnotice)
    rcases hattended hboth.left with hedge | hdue
    · exact Or.inl (hway.edge hedge)
    · unfold due at hdue
      rcases Bool.or_eq_true_iff.mp hdue with hwrites | hmem
      · exact Or.inr (hway.writes hwrites)
      · exact Or.inr (due_of_mem (hboth.right (of_decide_eq_true hmem)))

end Duplex

namespace Endpoint

variable {s s' : Endpoint}

structure Inv (s : Endpoint) : Prop where
  duplex : Duplex.Inv s.duplex
  output : Duplex.OutInv s.duplex

theorem step_own {a : Duplex.Action} {room : Bool}
    (hstep : step s (Action.own a room) = some s') :
    s.reports a = true ∧ (room = true -> s.duplex.exhausts a = false) ∧
      exists d, Duplex.step s.duplex a = some d ∧ s' = s.follow d room := by
  simp only [step] at hstep
  split at hstep
  · rename_i hcan
    rw [Bool.and_eq_true] at hcan
    rcases Option.map_eq_some_iff.mp hstep with ⟨d, hd, rfl⟩
    refine ⟨hcan.left, ?_, d, hd, rfl⟩
    intro hroom
    have hnot := hcan.right
    rw [hroom, Bool.and_true, Bool.not_eq_true'] at hnot
    exact hnot
  · cases hstep

theorem follow_inv {d : Duplex} (hd : Duplex.Inv d) (hout : Duplex.OutInv d)
    (room : Bool) : Inv (s.follow d room) where
  duplex := Duplex.raise_inv hd _
  output := Duplex.raise_outInv hout _

theorem step_inv {a : Action} (h : Inv s) (hstep : step s a = some s') :
    Inv s' := by
  cases a with
  | own a room =>
      rcases step_own hstep with ⟨_, _, d, hd, rfl⟩
      exact follow_inv (Duplex.step_inv h.duplex hd)
        (Duplex.step_outInv h.duplex h.output hd) room
  | kernel room =>
      cases hstep
      exact follow_inv h.duplex h.output room

theorem follow_attended {d : Duplex} {room : Bool}
    (hwatched : d.out.conn.Watched)
    (hready : s.ready = true -> room = true -> d.out.conn.backlog ≠ [] ->
      d.edge = true ∨ d.due = true) : Attended (s.follow d room) := by
  intro hpending hroom
  cases h : s.ready with
  | true =>
      rcases hready h hroom hpending with hedge | hdue
      · left
        show (d.edge || _) = true
        rw [hedge]
        rfl
      · exact Or.inr hdue
  | false =>
      left
      have hone : d.writeWatched = true :=
        Duplex.writeWatched_of_pending hwatched hpending
      have htwo : room = true := hroom
      show (d.edge || (d.writeWatched && room && !s.ready)) = true
      rw [hone, htwo, h]
      exact Bool.or_true d.edge

theorem failed_attended_iff {errno : Errno} {room : Bool} (h : Inv s)
    (hstep : step s (Action.own (Duplex.Action.writeRound
      (WriteResult.failed errno)) room) = some s') :
    s'.Attended <->
      (s.room = true -> room = true -> s.duplex.edge = true) := by
  rcases step_own hstep with ⟨_, _, d, hd, rfl⟩
  have hone : Outbound.step s.duplex.out _ = some d.out :=
    Duplex.step_output hd
  rcases Outbound.failed_left h.output.single hone with
    ⟨hactive, hleft, hpending, hbev⟩
  rcases h.output.writing hactive with ⟨revents, hphase⟩
  have hwatched := Duplex.writeWatched_of_pending h.output.watched hpending
  rcases Duplex.outbound_eq hd with ⟨out, _, rfl⟩
  have hready : s.ready = s.room := by
    unfold ready
    rw [hwatched, Bool.true_and]
  have hafter : ({ s.duplex with out := out } : Duplex).writeWatched =
      true := by
    unfold Duplex.writeWatched Duplex.bev
    rw [hbev]
    exact hwatched
  have hbacklog : out.conn.backlog ≠ [] := by
    unfold Conn.backlog
    rw [hbev]
    exact hpending
  have hnotdue : (s.follow { s.duplex with out := out } room).duplex.due =
      false := by
    show (s.duplex.phase.writes || decide (_ ∈ out.stack)) = false
    rw [hphase, decide_eq_false hleft]
    rfl
  have hedge : (s.follow { s.duplex with out := out } room).duplex.edge =
      (s.duplex.edge || (room && !s.room)) := by
    show (s.duplex.edge || (Duplex.writeWatched _ && room && !s.ready)) = _
    rw [hafter, hready, Bool.true_and]
  constructor
  · intro hattended hbefore hroom
    rcases hattended hbacklog hroom with hdue | hdue
    · rw [hedge, hbefore, Bool.not_true, Bool.and_false,
        Bool.or_false] at hdue
      exact hdue
    · rw [hnotdue] at hdue
      cases hdue
  · intro hguard _ hroom
    left
    have htrue : room = true := hroom
    rw [hedge, htrue, Bool.true_and]
    cases hbefore : s.room with
    | true =>
        rw [hguard hbefore htrue]
        rfl
    | false => exact Bool.or_true _

theorem step_attended {a : Action} (h : Inv s) (hattended : s.Attended)
    (hstep : step s a = some s')
    (hnotfailed : forall errno room, a ≠ Action.own
      (Duplex.Action.writeRound (WriteResult.failed errno)) room ∨
        errno.wouldBlock = true) : s'.Attended := by
  cases a with
  | own a room =>
      rcases step_own hstep with ⟨hreports, hexhausts, d, hd, rfl⟩
      apply follow_attended
        (Duplex.step_outInv h.duplex h.output hd).watched
      intro hready hroom hpending
      rw [ready, Bool.and_eq_true] at hready
      apply Duplex.step_serves hd (hexhausts hroom) ?_ ?_ ?_ hpending
      · intro revents hwait
        rw [hwait] at hreports
        unfold reports ready at hreports
        rw [hready.left, hready.right] at hreports
        exact hreports
      · intro errno hround
        rcases hnotfailed errno room with hother | hblock
        · rw [hround] at hother
          exact hother rfl
        · have hnot := hexhausts hroom
          rw [hround] at hnot
          have hgoes : errno.wouldBlock = false := hnot
          rw [hblock] at hgoes
          cases hgoes
      · exact fun hbefore => hattended hbefore hready.right
  | kernel room =>
      cases hstep
      apply follow_attended h.output.watched
      intro hready _ hpending
      rw [ready, Bool.and_eq_true] at hready
      exact hattended hpending hready.right

theorem step_attended_iff {a : Action} (h : Inv s) (hattended : s.Attended)
    (hstep : step s a = some s') : s'.Attended <-> GivesUpAtEdge s a := by
  by_cases hfailed : exists errno room, a = Action.own
      (Duplex.Action.writeRound (WriteResult.failed errno)) room ∧
        errno.wouldBlock = false
  · rcases hfailed with ⟨errno, room, rfl, hblock⟩
    rw [failed_attended_iff h hstep]
    exact ⟨fun hguard _ => hguard, fun hguard => hguard hblock⟩
  · have hnotfailed : forall errno room, a ≠ Action.own
        (Duplex.Action.writeRound (WriteResult.failed errno)) room ∨
          errno.wouldBlock = true := by
      intro errno room
      by_cases hblock : errno.wouldBlock = true
      · exact Or.inr hblock
      · left
        intro hround
        exact hfailed ⟨errno, room, hround, Bool.eq_false_iff.mpr hblock⟩
    refine iff_of_true (step_attended h hattended hstep hnotfailed) ?_
    unfold GivesUpAtEdge
    split
    · rename_i errno room
      intro hblock
      exact absurd ⟨errno, room, rfl, hblock⟩ hfailed
    · trivial

theorem start_inv {bev : Bfevent} (hempty : bev.outbuff.contents = [])
    (hpassed : bev.ev.registered = some bev.ev.events) (room : Bool) :
    Inv (start bev room) where
  duplex := Duplex.start_inv hpassed
  output :=
    { watched := ⟨hpassed, fun hpending => absurd hempty hpending⟩
      single := Nat.zero_le 1
      writing := fun hmem => absurd hmem List.not_mem_nil }

/--
Pending output is written as soon as there is room: throughout a run,
`handle_write` is at it, or is going to be called, or an edge is due, exactly if
it never gives up on a failed write while there is room and no edge is due.
-/
theorem pending_attended_iff {bev : Bfevent}
    (hempty : bev.outbuff.contents = [])
    (hpassed : bev.ev.registered = some bev.ev.events) {room : Bool}
    {acts : List Action} {t : Endpoint}
    (hrun : StepFn.run step (start bev room) acts = some t) :
    StepFn.Throughout step Attended (start bev room) acts <->
      StepFn.Meets step GivesUpAtEdge (start bev room) acts := by
  have hstart := start_inv hempty hpassed room
  have hattended : (start bev room).Attended :=
    fun hpending => absurd hempty hpending
  exact StepFn.throughout_iff_meets
    (fun s a s' hs h hstep => step_attended_iff h hs hstep) hattended
    (StepFn.meets_of_invariant (fun _ _ _ h hstep => step_inv h hstep)
      hstart acts) hrun

instance (s : Endpoint) (a : Action) : Decidable (s.GivesUpAtEdge a) := by
  unfold GivesUpAtEdge
  split <;> infer_instance

def writtenLater : List Action :=
  [Action.own (Duplex.Action.sendout Outbound.hi
      (WriteResult.failed Errno.eagain) (WriteResult.failed Errno.eagain))
      false,
    Action.kernel true, Action.own (Duplex.Action.wait EPOLLOUT) true,
    Action.own Duplex.Action.proceed true,
    Action.own Duplex.Action.proceed true,
    Action.own (Duplex.Action.writeRound (WriteResult.accepted 1)) false,
    Action.own Duplex.Action.callbackReturn false,
    Action.own (Duplex.Action.writeRound (WriteResult.accepted 1)) true,
    Action.own Duplex.Action.callbackReturn true,
    Action.own Duplex.Action.writeDone true]

theorem pending_attended_iff_writtenLater :
    exists t, StepFn.run step (start Outbound.idle true) writtenLater = some t ∧
      t.duplex.out.conn.backlog = [] ∧
      t.duplex.out.conn.wire.accepted = [104, 105] ∧
      StepFn.Throughout step Attended (start Outbound.idle true)
        writtenLater := by
  have hreached :
      (StepFn.run step (start Outbound.idle true) writtenLater).map
        (fun t => (t.duplex.out.conn.backlog,
          t.duplex.out.conn.wire.accepted)) = some ([], [104, 105]) := by
    decide +kernel
  rcases Option.map_eq_some_iff.mp hreached with ⟨t, hrun, hshown⟩
  rcases Prod.mk.inj hshown with ⟨hbacklog, haccepted⟩
  have h := pending_attended_iff (by decide +kernel) rfl hrun
  exact ⟨t, hrun, hbacklog, haccepted, h.mpr (by decide +kernel)⟩

end Endpoint

end MoonNet
