import MoonNet.Bfevent.StreamIntegrity
import MoonNet.Bfevent.Updates
import MoonNet.Event.Flags

/-!
# Pending output is watched

Whatever is left in `outbuff_`, the interest mask has `EPOLLOUT` and the kernel
has this mask: bytes are appended together with `enable_write`, and
`disable_write` is called only when nothing is left.  No answer of the kernel
matters for this.
-/

namespace MoonNet

open Foundation
open Kernel

namespace Interest

theorem or_mask_and_mask (events op : Mask) :
    (events ||| op) &&& op = op := by
  ext i hi
  simpa using fun hbit => Or.inr hbit

theorem enableWrite_writeable (e : Interest) :
    e.enableWrite.writeable = true := by
  show ((e.events ||| EPOLLOUT) &&& EPOLLOUT != 0) = true
  rw [or_mask_and_mask]
  rfl

end Interest

namespace Conn

structure Watched (c : Conn) : Prop where
  passed : c.bev.ev.Passed
  pending : c.backlog ≠ [] -> c.writeable = true

theorem enableWrite_watched {c : Conn} (h : c.bev.ev.Passed) :
    c.enableWrite.Watched where
  passed := Interest.enableEvents_passed h EPOLLOUT
  pending := fun _ => Interest.enableWrite_writeable c.bev.ev

theorem disableWrite_watched {c : Conn} (h : c.bev.ev.Passed)
    (hempty : c.backlog = []) : c.disableWrite.Watched where
  passed := Interest.disableEvents_passed h EPOLLOUT
  pending := fun hpending => absurd hempty hpending

theorem setOutbuff_watched {c : Conn} (h : c.Watched) {b : ValidBuffer}
    (hrest : b.contents ≠ [] -> c.backlog ≠ []) : (c.setOutbuff b).Watched where
  passed := h.passed
  pending := fun hpending => h.pending (hrest hpending)

theorem retrieve_watched {c : Conn} (h : c.Watched) (n : Nat) :
    (c.setOutbuff (c.bev.outbuff.retrieve n)).Watched := by
  apply setOutbuff_watched h
  rw [ValidBuffer.contents_retrieve]
  intro hrest hempty
  have hnone : c.bev.outbuff.contents = [] := hempty
  rw [hnone, List.drop_nil] at hrest
  exact hrest rfl

theorem reset_watched {c : Conn} (h : c.Watched) :
    (c.setOutbuff c.bev.outbuff.reset).Watched := by
  apply setOutbuff_watched h
  rw [ValidBuffer.contents_reset]
  intro hrest
  exact absurd rfl hrest

theorem Update.watched {c c' : Conn} (hupdate : Update c c') (h : c.Watched) :
    c'.Watched := by
  cases hupdate with
  | offer regions bytes r =>
      exact { passed := h.passed, pending := h.pending }
  | retrieve n => exact retrieve_watched h n
  | reset => exact reset_watched h
  | append bytes hwriteable =>
      exact { passed := h.passed, pending := fun _ => hwriteable }
  | appendEnable bytes => exact enableWrite_watched h.passed
  | disableWrite hempty =>
      rw [readbytes_eq_length] at hempty
      exact disableWrite_watched h.passed
        (List.eq_nil_of_length_eq_zero hempty)

theorem Updates.watched {c c' : Conn} (hupdates : c.Updates c') :
    c.Watched -> c'.Watched :=
  hupdates.lift (fun _ => id) (fun h h' hwatched => h' (h hwatched))
    Update.watched

end Conn

namespace Outbound

theorem step_watched {s s' : State} {a : Action} (h : s.conn.Watched)
    (hstep : step s a = some s') : s'.conn.Watched :=
  (step_updates hstep).watched h

/--
If `outbuff_` holds bytes, the interest mask has `EPOLLOUT`, and so has the mask
that the kernel was last passed.
-/
def NotStranded (s : State) : Prop :=
  s.conn.backlog ≠ [] ->
    s.conn.bev.ev.events &&& EPOLLOUT ≠ 0 ∧
      exists m, s.conn.bev.ev.registered = some m ∧ m &&& EPOLLOUT ≠ 0

theorem notStranded_of_watched {s : State} (h : s.conn.Watched) :
    NotStranded s := by
  intro hpending
  have hbit : s.conn.bev.ev.events &&& EPOLLOUT ≠ 0 :=
    bne_iff_ne.mp (h.pending hpending)
  exact ⟨hbit, _, h.passed, hbit⟩

/--
Pending output is never stranded, neither between two outermost calls nor in the
middle of one.  The kernel has the current mask at the start, as the constructor
and every change of the mask leave it.
-/
theorem pending_notStranded {bev : Bfevent}
    (hempty : bev.outbuff.contents = [])
    (hpassed : bev.ev.registered = some bev.ev.events) {acts : List Action}
    {t : State} (hrun : StepFn.run step (start bev) acts = some t) :
    NotStranded t := by
  have hstart : (start bev).conn.Watched :=
    { passed := hpassed, pending := fun hpending => absurd hempty hpending }
  have hpres : forall (s : State) a s', s.conn.Watched ->
      step s a = some s' -> s'.conn.Watched :=
    fun s a s' h hstep => step_watched h hstep
  exact notStranded_of_watched (StepFn.run_invariant hpres hstart hrun)

/-!
A payload that the kernel refuses twice is pending after the call.
-/

theorem pending_notStranded_refused :
    exists t, StepFn.run step (start idle)
        (hiSent (WriteResult.failed Errno.eagain)
          (WriteResult.failed Errno.eagain)) = some t ∧
      t.stack = [] ∧ t.conn.backlog = [104, 105] ∧ NotStranded t := by
  have hreached : exists t, StepFn.run step (start idle)
        (hiSent (WriteResult.failed Errno.eagain)
          (WriteResult.failed Errno.eagain)) = some t ∧
      t.stack = [] ∧ t.conn.backlog = [104, 105] :=
    ⟨_, rfl, by decide +kernel, by decide +kernel⟩
  rcases hreached with ⟨t, hrun, hstack, hbacklog⟩
  -- `idle` is as the constructor leaves it.
  have hpassed : idle.ev.Passed :=
    Interest.enableListen_passed
      (e := { events := EPOLLIN ||| EPOLLET, registered := none }) rfl
  exact ⟨t, hrun, hstack, hbacklog,
    pending_notStranded (by decide +kernel) hpassed hrun⟩

end Outbound

end MoonNet
