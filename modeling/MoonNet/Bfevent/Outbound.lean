import MoonNet.Foundation.Runs
import MoonNet.Bfevent.Model

/-!
# The outbound machine of a buffered event

The loop thread interleaves calls of `sendout` with dispatches of
`handle_write`.  A user callback may call `sendout` again, so the machine keeps
the stack of activations: `handle_write` has no state of its own between two
rounds of its loop, and `sendout` calls `writecb_` only as its last action.
-/

namespace MoonNet

open Foundation
open Kernel

namespace Outbound

inductive Frame where
  | handleWrite
  | leaveWrite
  | callback
deriving DecidableEq, Repr

structure State where
  conn : Conn
  sent : List UInt8
  stack : List Frame
deriving DecidableEq

def start (bev : Bfevent) : State where
  conn := { bev := bev, wire := { accepted := [], offered := [] } }
  sent := []
  stack := []

inductive Action where
  | sendout (p : Payload) (written gathered : WriteResult)
  | handleWrite
  | writeRound (r : WriteResult)
  | writeDone
  | callbackReturn

def userCode : List Frame -> Bool
  | [] => true
  | Frame.callback :: _ => true
  | Frame.handleWrite :: _ => false
  | Frame.leaveWrite :: _ => false

def pushIf (c : Bool) (f : Frame) (stack : List Frame) : List Frame :=
  if c then f :: stack else stack

/-- One round of the loop of `handle_write` on a non-empty backlog. -/
def writeRound (s : State) (rest : List Frame) (r : WriteResult) : State :=
  let c := s.conn.offer [Region.backlog s.conn.backlog] s.conn.backlog r
  match r with
  | WriteResult.accepted n =>
      if 0 < n then
        { s with
          conn := c.setOutbuff (c.bev.outbuff.retrieve n)
          stack := pushIf c.bev.writecb Frame.callback
            (Frame.handleWrite :: rest) }
      else
        { s with conn := c }
  | WriteResult.failed errno =>
      { s with
        conn := c
        stack := pushIf (!errno.wouldBlock && c.bev.eventcb) Frame.callback
          (Frame.leaveWrite :: rest) }

/-- `if (outbuff_.readbytes() == 0) ev_->disable_write();` -/
def finishWrite (c : Conn) : Conn :=
  if c.bev.outbuff.readbytes = 0 then c.disableWrite else c

def step : StepFn State Action := fun s a =>
  match a with
  | Action.sendout p written gathered =>
      if userCode s.stack then
        let r := s.conn.sendout p written gathered
        some {
          conn := r.fst
          sent := s.sent ++ p.bytes
          stack := pushIf r.snd Frame.callback s.stack }
      else
        none
  | Action.handleWrite =>
      match s.stack with
      | [] => some { s with stack := [Frame.handleWrite] }
      | _ :: _ => none
  | Action.writeRound r =>
      match s.stack with
      | Frame.handleWrite :: rest =>
          if 0 < s.conn.bev.outbuff.readbytes then
            some (writeRound s rest r)
          else
            none
      | _ => none
  | Action.writeDone =>
      match s.stack with
      | Frame.handleWrite :: rest =>
          if s.conn.bev.outbuff.readbytes = 0 then
            some { s with conn := finishWrite s.conn, stack := rest }
          else
            none
      | Frame.leaveWrite :: rest =>
          some { s with conn := finishWrite s.conn, stack := rest }
      | _ => none
  | Action.callbackReturn =>
      match s.stack with
      | Frame.callback :: rest => some { s with stack := rest }
      | _ => none

/--
The kernel's answers on a healthy socket.  An answer of a call that `sendout`
does not make is not used.
-/
def Soft (s : State) : Action -> Prop
  | Action.sendout p written gathered =>
      written.Soft p.len ∧
        gathered.Soft (s.conn.bev.outbuff.readbytes + p.len)
  | Action.writeRound r => r.Soft s.conn.bev.outbuff.readbytes
  | Action.handleWrite => True
  | Action.writeDone => True
  | Action.callbackReturn => True

instance (s : State) (a : Action) : Decidable (Soft s a) := by
  cases a <;> unfold Soft <;> infer_instance

/--
What the kernel has accepted followed by the backlog is what was sent, and
only bytes of the backlog and of the payloads were offered.
-/
structure Intact (s : State) : Prop where
  stream : s.conn.wire.accepted ++ s.conn.backlog = s.sent
  offers : forall r, r ∈ s.conn.wire.offered -> r.InBounds

instance (s : State) : Decidable (Intact s) :=
  decidable_of_iff
    (s.conn.wire.accepted ++ s.conn.backlog = s.sent ∧
      forall r, r ∈ s.conn.wire.offered -> r.InBounds)
    ⟨fun h => ⟨h.left, h.right⟩, fun h => ⟨h.stream, h.offers⟩⟩

/--
A `sendout` that tries the direct write has an empty payload, or the kernel
takes the whole payload at once.
-/
def DirectWriteComplete (s : State) : Action -> Prop
  | Action.sendout p written _ =>
      s.conn.direct -> p.len = 0 ∨ written = WriteResult.accepted p.len
  | _ => True

instance (s : State) (a : Action) : Decidable (DirectWriteComplete s a) := by
  cases a <;> unfold DirectWriteComplete <;> infer_instance

end Outbound

end MoonNet
