import Mathlib.Logic.Relation
import MoonNet.Bfevent.Outbound

/-!
# What sending changes

`sendout` and the rounds of `handle_write` change a connection by few updates:
they hand bytes to the kernel, move bytes into `outbuff_` and out of it, and turn
the interest in writing on and off.  A relation that each of these updates meets
and that is reflexive and transitive then holds between a connection before and
after any of these calls.
-/

namespace MoonNet

open Foundation
open Kernel

namespace Conn

/--
One update.  Bytes are appended only with the interest in writing on, and it is
turned off only when nothing is left.
-/
inductive Update (c : Conn) : Conn -> Prop where
  | offer (regions : List Region) (bytes : List UInt8) (r : WriteResult) :
      Update c (c.offer regions bytes r)
  | retrieve (n : Nat) :
      Update c (c.setOutbuff (c.bev.outbuff.retrieve n))
  | reset :
      Update c (c.setOutbuff c.bev.outbuff.reset)
  | append (bytes : List UInt8) (hwriteable : c.writeable = true) :
      Update c (c.setOutbuff (c.bev.outbuff.append bytes))
  | appendEnable (bytes : List UInt8) :
      Update c (c.setOutbuff (c.bev.outbuff.append bytes)).enableWrite
  | disableWrite (hempty : c.bev.outbuff.readbytes = 0) :
      Update c c.disableWrite

def Updates : Conn -> Conn -> Prop :=
  Relation.ReflTransGen Update

theorem Updates.refl (c : Conn) : Updates c c :=
  Relation.ReflTransGen.refl

theorem Updates.trans {c c' c'' : Conn} (h : Updates c c')
    (h' : Updates c' c'') : Updates c c'' :=
  Relation.ReflTransGen.trans h h'

theorem Update.updates {c c' : Conn} (h : Update c c') : Updates c c' :=
  Relation.ReflTransGen.single h

/-- What each update meets, a sequence of them meets. -/
theorem Updates.lift {R : Conn -> Conn -> Prop} (hrefl : forall c, R c c)
    (htrans : forall {c c' c''}, R c c' -> R c' c'' -> R c c'')
    (hone : forall {c c'}, Update c c' -> R c c') {c c' : Conn}
    (h : Updates c c') : R c c' := by
  induction h with
  | refl => exact hrefl c
  | tail _ hlast ih => exact htrans ih (hone hlast)

/-!
## Sending
-/

theorem appendRest_updates (c : Conn) (p : Payload) (off relen : Int) :
    c.Updates (c.appendRest p off relen) := by
  unfold appendRest
  split
  · dsimp only
    split
    · rename_i hwriteable
      exact (Update.append (c := c) _ hwriteable).updates
    · exact (Update.appendEnable _).updates
  · exact Updates.refl c

theorem gather_updates (c : Conn) (p : Payload) (n relen : Int)
    (r : WriteResult) : c.Updates (c.gather p n relen r).fst := by
  have hoffer := (Update.offer (c := c)
    [Region.backlog c.backlog, Region.payload n relen.toNat p.len]
    (c.backlog ++ p.bytesAt n relen.toNat) r).updates
  unfold gather
  cases r with
  | failed errno =>
      dsimp only
      split
      · exact hoffer.trans (appendRest_updates _ _ _ _)
      · exact hoffer
  | accepted wvn =>
      dsimp only
      split
      · split
        · exact (hoffer.trans (Update.retrieve wvn).updates).trans
            (appendRest_updates _ _ _ _)
        · exact (hoffer.trans Update.reset.updates).trans
            (appendRest_updates _ _ _ _)
      · exact hoffer.trans Update.reset.updates

theorem sendout_updates (c : Conn) (p : Payload)
    (written gathered : WriteResult) :
    c.Updates (c.sendout p written gathered).fst := by
  have hoffer := (Update.offer (c := c) [Region.payload 0 p.len p.len] p.bytes
    written).updates
  unfold sendout
  dsimp only
  split
  · cases written with
    | accepted n =>
        dsimp only
        split
        · exact hoffer
        · split
          · exact hoffer.trans (gather_updates _ _ _ _ _)
          · exact hoffer
    | failed errno =>
        dsimp only
        split
        · split
          · exact hoffer.trans (gather_updates _ _ _ _ _)
          · exact hoffer
        · exact hoffer
  · split
    · exact gather_updates _ _ _ _ _
    · exact Updates.refl c

end Conn

/-!
## Steps of the outbound machine
-/

namespace Outbound

theorem writeRound_updates (s : State) (rest : List Frame)
    (r : WriteResult) : s.conn.Updates (writeRound s rest r).conn := by
  have hoffer := (Conn.Update.offer (c := s.conn)
    [Region.backlog s.conn.backlog] s.conn.backlog r).updates
  unfold writeRound
  cases r with
  | failed errno => exact hoffer
  | accepted n =>
      dsimp only
      split
      · exact hoffer.trans (Conn.Update.retrieve n).updates
      · exact hoffer

theorem finishWrite_updates (c : Conn) : c.Updates (finishWrite c) := by
  unfold finishWrite
  split
  · rename_i hempty
    exact (Conn.Update.disableWrite hempty).updates
  · exact Conn.Updates.refl c

theorem step_updates {s s' : State} {a : Action}
    (hstep : step s a = some s') : s.conn.Updates s'.conn := by
  cases a with
  | sendout p written gathered =>
      simp only [step] at hstep
      split at hstep
      · cases hstep
        exact s.conn.sendout_updates p written gathered
      · cases hstep
  | handleWrite =>
      simp only [step] at hstep
      split at hstep
      · cases hstep
        exact Conn.Updates.refl _
      · cases hstep
  | writeRound r =>
      simp only [step] at hstep
      split at hstep
      · split at hstep
        · cases hstep
          exact writeRound_updates s _ r
        · cases hstep
      · cases hstep
  | writeDone =>
      simp only [step] at hstep
      split at hstep
      · split at hstep
        · cases hstep
          exact finishWrite_updates s.conn
        · cases hstep
      · cases hstep
        exact finishWrite_updates s.conn
      · cases hstep
  | callbackReturn =>
      simp only [step] at hstep
      split at hstep
      · cases hstep
        exact Conn.Updates.refl _
      · cases hstep

end Outbound

end MoonNet
