import MoonNet.Bfevent.StreamIntegrity
import MoonNet.Bfevent.Undisturbed

/-!
# What a call of the write callback means

`writecb_` is called after a direct write, whatever the write took of the
payload, after a gathered write that took everything, and after each round of
`handle_write`, whatever it left.  Everything has been sent at each call as long
as the direct writes and the rounds take all they are offered.
-/

namespace MoonNet

open Foundation
open Kernel

namespace Outbound

def callsWritecb (s : State) : Action -> Bool
  | Action.sendout p written gathered => (s.conn.sendout p written gathered).snd
  | Action.writeRound (WriteResult.accepted n) =>
      decide (0 < n) && s.conn.bev.writecb
  | _ => false

/-- The kernel has accepted all bytes, and none is left in `outbuff_`. -/
structure AllSent (s : State) : Prop where
  accepted : s.conn.wire.accepted = s.sent
  backlog : s.conn.backlog = []

instance (s : State) : Decidable (AllSent s) :=
  decidable_of_iff (s.conn.wire.accepted = s.sent ∧ s.conn.backlog = [])
    ⟨fun h => ⟨h.left, h.right⟩, fun h => ⟨h.accepted, h.backlog⟩⟩

/-- If the step calls `writecb_`, everything has been sent by then. -/
def SentAtWritecb (s : State) (a : Action) : Prop :=
  callsWritecb s a = true ->
    match step s a with
    | none => True
    | some s' => AllSent s'

instance (s : State) (a : Action) : Decidable (SentAtWritecb s a) := by
  unfold SentAtWritecb
  cases step s a <;> infer_instance

/--
While `writecb_` is set, a direct write takes the whole payload, or it is refused
and so is the `writev` call after it, and a round of `handle_write` takes the
whole backlog if it takes anything.
-/
def TakesAll (s : State) : Action -> Prop
  | Action.sendout p written gathered =>
      s.conn.bev.writecb = true -> s.conn.direct = true ->
        p.len = 0 ∨ written = WriteResult.accepted p.len ∨
          written = WriteResult.failed Errno.eagain ∧
            gathered = WriteResult.failed Errno.eagain
  | Action.writeRound (WriteResult.accepted n) =>
      s.conn.bev.writecb = true -> n = s.conn.bev.outbuff.readbytes
  | _ => True

instance (s : State) (a : Action) : Decidable (TakesAll s a) :=
  match a with
  | Action.sendout _ _ _ => inferInstanceAs (Decidable (_ -> _ -> _))
  | Action.writeRound (WriteResult.accepted _) =>
      inferInstanceAs (Decidable (_ -> _))
  | Action.writeRound (WriteResult.failed _) | Action.handleWrite
  | Action.writeDone | Action.callbackReturn => isTrue trivial

end Outbound

/-!
# One call of `sendout`
-/

namespace Conn

theorem gather_calls_backlog {c : Conn} {p : Payload} {n relen : Int}
    {r : WriteResult} (hcalls : (c.gather p n relen r).snd = true) :
    (c.gather p n relen r).fst.backlog = [] := by
  cases r with
  | failed errno =>
      unfold gather at hcalls
      dsimp only at hcalls
      split at hcalls <;> cases hcalls
  | accepted wvn =>
      unfold gather at hcalls ⊢
      dsimp only at hcalls ⊢
      split at hcalls
      · split at hcalls <;> cases hcalls
      · rename_i hfull
        rw [if_neg hfull]
        exact ValidBuffer.contents_reset _

theorem sendout_calls_backlog {c : Conn} {p : Payload}
    {written gathered : WriteResult}
    (hcalls : (c.sendout p written gathered).snd = true) :
    (c.sendout p written gathered).fst.backlog = [] := by
  cases hdirect : c.direct with
  | false =>
      simp only [sendout, hdirect, Bool.false_eq_true, if_false] at hcalls ⊢
      split at hcalls
      · rename_i hpos
        rw [if_pos hpos]
        exact gather_calls_backlog hcalls
      · cases hcalls
  | true =>
      cases written with
      | accepted n =>
          rw [Outbound.sendout_direct_accepted hdirect]
          exact direct_backlog hdirect
      | failed errno =>
          simp only [sendout, hdirect, if_true] at hcalls ⊢
          split at hcalls
          · rename_i hblock
            rw [if_pos hblock]
            split at hcalls
            · rename_i hpos
              rw [if_pos hpos]
              exact gather_calls_backlog hcalls
            · cases hcalls
          · cases hcalls

theorem gather_refused_stream (c : Conn) (p : Payload) (n : Int) :
    (c.gather p n p.len (WriteResult.failed Errno.eagain)).fst.wire.accepted ++
        (c.gather p n p.len (WriteResult.failed Errno.eagain)).fst.backlog =
      c.wire.accepted ++ c.backlog ++ p.bytes := by
  rw [gather_wire]
  show c.wire.accepted ++ (appendRest _ p 0 p.len).backlog = _
  rw [(appendRest_spec _ p 0 p.len).right, List.append_assoc]
  rfl

theorem sendout_stream {c : Conn} {p : Payload}
    {written gathered : WriteResult} (hwritten : written.Soft p.len)
    (hgathered : gathered.Soft (c.bev.outbuff.readbytes + p.len))
    (htakes : c.direct = true -> p.len = 0 ∨
      written = WriteResult.accepted p.len ∨
        written = WriteResult.failed Errno.eagain ∧
          gathered = WriteResult.failed Errno.eagain) :
    (c.sendout p written gathered).fst.wire.accepted ++
        (c.sendout p written gathered).fst.backlog =
      c.wire.accepted ++ c.backlog ++ p.bytes := by
  cases hdirect : c.direct with
  | false =>
      by_cases hpos : (0 : Int) < p.len
      · simp only [sendout, hdirect, Bool.false_eq_true, if_false, if_pos hpos]
        exact gather_stream hgathered
      · have hzero : p.len = 0 := by
          omega
        simp only [sendout, hdirect, Bool.false_eq_true, if_false, if_neg hpos]
        rw [Outbound.bytes_eq_nil hzero, List.append_nil]
  | true =>
      have hlen : p.bytes.length = p.len := Payload.bytesAt_length p 0 p.len
      have hempty : c.backlog = [] := direct_backlog hdirect
      cases written with
      | accepted n =>
          have hn : n = p.len := by
            have hle : n <= p.len := hwritten.left
            rcases htakes hdirect with hzero | hfull | ⟨hrefused, _⟩
            · omega
            · exact WriteResult.accepted.inj hfull
            · cases hrefused
          rw [Outbound.sendout_direct_accepted hdirect]
          show c.wire.accepted ++ p.bytes.take n ++ c.backlog = _
          rw [hempty, hn, <- hlen, List.take_length, List.append_nil,
            List.append_nil]
      | failed errno =>
          have herrno : errno = Errno.eagain := hwritten
          subst herrno
          by_cases hpos : (0 : Int) < p.len
          · have hrefused : gathered = WriteResult.failed Errno.eagain := by
              rcases htakes hdirect with hzero | hfull | ⟨_, hrefused⟩
              · omega
              · cases hfull
              · exact hrefused
            subst hrefused
            simp only [sendout, hdirect, Errno.wouldBlock, if_true, if_pos hpos]
            exact gather_refused_stream _ p (-1)
          · have hzero : p.len = 0 := by
              omega
            simp only [sendout, hdirect, Errno.wouldBlock, if_true, if_neg hpos]
            rw [Outbound.bytes_eq_nil hzero, List.append_nil]
            rfl

end Conn

/-!
# Whole runs
-/

namespace Outbound

def Kept (s : State) : Prop :=
  s.conn.bev.writecb = true ->
    s.conn.wire.accepted ++ s.conn.backlog = s.sent

theorem writeRound_writecb (s : State) (rest : List Frame) (r : WriteResult) :
    (writeRound s rest r).conn.bev.writecb = s.conn.bev.writecb := by
  unfold writeRound
  cases r with
  | failed errno =>
      rfl
  | accepted n =>
      dsimp only
      split <;> rfl

theorem writeRound_sent (s : State) (rest : List Frame) (r : WriteResult) :
    (writeRound s rest r).sent = s.sent := by
  unfold writeRound
  cases r with
  | failed errno =>
      rfl
  | accepted n =>
      dsimp only
      split <;> rfl

theorem finishWrite_wire (c : Conn) : (finishWrite c).wire = c.wire := by
  unfold finishWrite
  split <;> rfl

theorem finishWrite_backlog (c : Conn) :
    (finishWrite c).backlog = c.backlog := by
  unfold finishWrite
  split <;> rfl

theorem finishWrite_kept {s : State} (h : Kept s) (stack : List Frame) :
    Kept { s with conn := finishWrite s.conn, stack := stack } := by
  intro hwritecb
  show (finishWrite s.conn).wire.accepted ++ (finishWrite s.conn).backlog =
    s.sent
  rw [finishWrite_wire, finishWrite_backlog]
  exact h ((finishWrite_updates s.conn).undisturbed.writecb.symm.trans hwritecb)

theorem step_kept {s s' : State} {a : Action} (h : Kept s)
    (hside : Soft s a ∧ TakesAll s a) (hstep : step s a = some s') :
    Kept s' := by
  cases a with
  | sendout p written gathered =>
      simp only [step] at hstep
      split at hstep
      · cases hstep
        intro hwritecb
        have hsame := (s.conn.sendout_updates p written
          gathered).undisturbed.writecb
        have hset : s.conn.bev.writecb = true := hsame.symm.trans hwritecb
        have hstream := Conn.sendout_stream hside.left.left hside.left.right
          (hside.right hset)
        rw [h hset] at hstream
        exact hstream
      · cases hstep
  | handleWrite =>
      simp only [step] at hstep
      split at hstep
      · cases hstep
        exact h
      · cases hstep
  | writeRound r =>
      simp only [step] at hstep
      split at hstep
      · split at hstep
        · cases hstep
          intro hwritecb
          rw [writeRound_writecb] at hwritecb
          rw [writeRound_stream, writeRound_sent]
          exact h hwritecb
        · cases hstep
      · cases hstep
  | writeDone =>
      simp only [step] at hstep
      split at hstep
      · split at hstep
        · cases hstep
          exact finishWrite_kept h _
        · cases hstep
      · cases hstep
        exact finishWrite_kept h _
      · cases hstep
  | callbackReturn =>
      simp only [step] at hstep
      split at hstep
      · cases hstep
        exact h
      · cases hstep

theorem writeRound_backlog_of_all {s : State} {rest : List Frame} {n : Nat}
    (hpos : 0 < n) (hall : n = s.conn.bev.outbuff.readbytes) :
    (writeRound s rest (WriteResult.accepted n)).conn.backlog = [] := by
  unfold writeRound
  dsimp only
  rw [if_pos hpos]
  show (s.conn.bev.outbuff.retrieve n).contents = []
  rw [ValidBuffer.contents_retrieve, hall, ValidBuffer.readbytes_eq_length,
    List.drop_length]

theorem callsWritecb_backlog {s s' : State} {a : Action}
    (htakes : TakesAll s a) (hcalls : callsWritecb s a = true)
    (hstep : step s a = some s') :
    s'.conn.backlog = [] ∧ s'.conn.bev.writecb = true := by
  cases a with
  | sendout p written gathered =>
      simp only [step] at hstep
      split at hstep
      · cases hstep
        have hsame := (s.conn.sendout_updates p written
          gathered).undisturbed.writecb
        exact ⟨Conn.sendout_calls_backlog hcalls,
          hsame.trans (Conn.sendout_calls hcalls)⟩
      · cases hstep
  | writeRound r =>
      cases r with
      | failed errno =>
          cases hcalls
      | accepted n =>
          have hboth : 0 < n ∧ s.conn.bev.writecb = true := by
            simpa [callsWritecb] using hcalls
          simp only [step] at hstep
          split at hstep
          · split at hstep
            · cases hstep
              constructor
              · exact writeRound_backlog_of_all hboth.left
                  (htakes hboth.right)
              · rw [writeRound_writecb]
                exact hboth.right
            · cases hstep
          · cases hstep
  | handleWrite => cases hcalls
  | writeDone => cases hcalls
  | callbackReturn => cases hcalls

theorem start_kept {bev : Bfevent} (hempty : bev.outbuff.contents = []) :
    Kept (start bev) :=
  fun _ => hempty

/--
In every run whose direct writes and rounds take all they are offered while
`writecb_` is set, everything has been sent at each call of `writecb_`.
-/
theorem sentAtWritecb_of_takesAll {bev : Bfevent}
    (hempty : bev.outbuff.contents = []) {acts : List Action}
    (hsoft : StepFn.Meets step Soft (start bev) acts)
    (htakes : StepFn.Meets step TakesAll (start bev) acts) :
    StepFn.Meets step SentAtWritecb (start bev) acts := by
  have hpres : forall (s : State) a s', Kept s -> Soft s a ∧ TakesAll s a ->
      step s a = some s' -> Kept s' :=
    fun s a s' h hside hstep => step_kept h hside hstep
  have hpost : forall (s : State) a, Kept s -> Soft s a ∧ TakesAll s a ->
      SentAtWritecb s a := by
    intro s a h hside hcalls
    split
    · trivial
    · rename_i s' hstep
      rcases callsWritecb_backlog hside.right hcalls hstep with
        ⟨hbacklog, hwritecb⟩
      have hstream := step_kept h hside hstep hwritecb
      rw [hbacklog, List.append_nil] at hstream
      exact { accepted := hstream, backlog := hbacklog }
  exact StepFn.meets_of_invariant_of_meets hpres hpost (start_kept hempty)
    (hsoft.and htakes)

/-!
Both bytes of a payload are refused at first and gathered by one round of
`handle_write`, which calls `writecb_`.  A short direct write calls it with a
byte missing, and so does a short round.
-/

def refusedThenRound (n : Nat) : List Action :=
  [Action.sendout hi (WriteResult.failed Errno.eagain)
      (WriteResult.failed Errno.eagain),
    Action.handleWrite, Action.writeRound (WriteResult.accepted n)]

theorem sentAtWritecb_of_takesAll_fullRound :
    StepFn.Meets step SentAtWritecb (start idle) (refusedThenRound 2) ∧
      (StepFn.run step (start idle) (refusedThenRound 2)).map (fun t =>
        (t.stack, t.conn.wire.accepted)) =
          some ([Frame.callback, Frame.handleWrite], [104, 105]) :=
  ⟨sentAtWritecb_of_takesAll (by decide +kernel) (by decide +kernel)
    (by decide +kernel), by decide +kernel⟩

theorem sentAtWritecb_fails_shortWrite_shortRound :
    (StepFn.Meets step Soft (start idle)
        (hiSent (WriteResult.accepted 1) (WriteResult.accepted 1)) ∧
      ¬ StepFn.Meets step SentAtWritecb (start idle)
        (hiSent (WriteResult.accepted 1) (WriteResult.accepted 1))) ∧
    (StepFn.Meets step Soft (start idle) (refusedThenRound 1) ∧
      ¬ StepFn.Meets step SentAtWritecb (start idle)
        (refusedThenRound 1)) := by
  decide +kernel

end Outbound

end MoonNet
