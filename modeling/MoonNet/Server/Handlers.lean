import MoonNet.Bfevent.Undisturbed
import MoonNet.Server.Serverloop

/-!
# What handlers leave alone

Handlers and calls of `sendout` do not set callbacks, do not close a connection,
and do not register a descriptor that is not registered.
-/

namespace MoonNet

open Kernel

/-!
# Objects
-/

namespace BaseEvent

def Listening : BaseEvent -> Prop
  | bfevent c => c.bev.closed = false
  | udpevent _ _ started _ _ => started = true
  | _ => True

/-- What handlers leave of an object. -/
structure Keeps (o o' : BaseEvent) : Prop where
  silent : o.Silent -> o'.Silent
  unregistered : o.registered = false -> o'.registered = false
  opened : o.Open -> o'.Open
  listening : o.Listening -> o'.Listening
  conn : (exists c, o = bfevent c) -> exists c, o' = bfevent c

theorem Keeps.of_undisturbed {c c' : Conn} (h : c.Undisturbed c') :
    Keeps (bfevent c) (bfevent c') where
  silent := by
    intro hsilent
    exact ⟨h.readcb.trans hsilent.left, h.writecb.trans hsilent.right.left,
      h.eventcb.trans hsilent.right.right⟩
  unregistered := by
    intro hnone
    have hc : c.bev.ev.registered = none := Option.not_isSome_iff_eq_none.mp
      (Bool.eq_false_iff.mp hnone)
    show c'.bev.ev.registered.isSome = false
    rw [h.registered hc]
    rfl
  opened := h.closed.trans
  listening := h.closed.trans
  conn := fun _ => ⟨c', rfl⟩

theorem Keeps.udpevent (ev : Interest) (inbuff inbuff' : ValidBuffer)
    (started receiveCb eventCb : Bool) :
    Keeps (udpevent ev inbuff started receiveCb eventCb)
      (udpevent ev inbuff' started receiveCb eventCb) where
  silent := id
  unregistered := id
  opened := id
  listening := id
  conn := fun h => absurd h nofun

theorem disableCb_silent (o : BaseEvent) : o.disableCb.Silent := by
  cases o with
  | event ev readcb writecb eventcb => exact ⟨rfl, rfl, rfl⟩
  | bfevent c => exact ⟨rfl, rfl, rfl⟩
  | timerevent ev cb => rfl
  | signalevent ev cb => rfl
  | udpevent ev inbuff started receiveCb eventCb => exact ⟨rfl, rfl⟩
  | wakeup ev => trivial
  | acceptor ev => trivial

theorem disableCb_registered (o : BaseEvent) :
    o.disableCb.registered = o.registered := by
  cases o <;> rfl

theorem disableCb_open {o : BaseEvent} (h : o.Open) : o.disableCb.Open := by
  cases o with
  | bfevent c => exact h
  | _ => exact h.elim

theorem setInterest_registered (o : BaseEvent) (ev : Interest) :
    (o.setInterest ev).registered = ev.registered.isSome := by
  cases o <;> rfl

theorem setInterest_silent {o : BaseEvent} (ev : Interest) (h : o.Silent) :
    (o.setInterest ev).Silent := by
  cases o <;> exact h

theorem closeFd_registered (o : BaseEvent) : o.closeFd.registered = false := by
  unfold closeFd
  rw [setInterest_registered]
  rfl

theorem reportsRest_of_silent {o : BaseEvent} (h : o.Silent) :
    o.reportsRest = false := by
  cases o with
  | bfevent c =>
      show (_ && c.bev.readcb) = false
      rw [h.left, Bool.and_false]
  | _ => rfl

theorem Listening.listens {o : BaseEvent} (h : o.Listening) :
    o.listens = true := by
  cases o with
  | udpevent ev inbuff started receiveCb eventCb => exact h
  | _ => rfl

theorem reportsRest_of_drained {o : BaseEvent}
    (h : forall c, o = bfevent c -> c.bev.inbuff.contents = []) :
    o.reportsRest = false := by
  cases o with
  | bfevent c =>
      have hempty : c.bev.inbuff.readbytes = 0 := by
        rw [ValidBuffer.readbytes_eq_length, h c rfl]
        rfl
      show (decide (0 < c.bev.inbuff.readbytes) && c.bev.readcb) = false
      rw [hempty]
      rfl
  | _ => rfl

theorem delListen_registered {o : BaseEvent} (h : o.listens = true) :
    o.delListen.registered = false := by
  cases o with
  | udpevent ev inbuff started receiveCb eventCb =>
      have hstarted : started = true := h
      subst hstarted
      rfl
  | _ => rfl

theorem delListen_silent {o : BaseEvent} (h : o.Silent) :
    o.delListen.Silent := by
  cases o with
  | bfevent c =>
      show c.delListen.bev.readcb = false ∧ _ ∧ _
      have hsame : c.delListen.bev.readcb = c.bev.readcb ∧
          c.delListen.bev.writecb = c.bev.writecb ∧
          c.delListen.bev.eventcb = c.bev.eventcb := by
        unfold Conn.delListen
        dsimp only
        split <;> split <;> exact ⟨rfl, rfl, rfl⟩
      exact ⟨hsame.left.trans h.left, hsame.right.left.trans h.right.left,
        hsame.right.right.trans h.right.right⟩
  | udpevent ev inbuff started receiveCb eventCb =>
      unfold delListen
      dsimp only
      split
      · exact h
      · exact h
  | _ => exact h

end BaseEvent

end MoonNet
