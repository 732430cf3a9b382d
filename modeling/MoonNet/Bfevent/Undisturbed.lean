import MoonNet.Bfevent.Updates

/-!
# What sending leaves alone

`sendout` and the rounds of `handle_write` change the buffers and the mask of
interest.  They do not set callbacks, do not close the connection, and do not
register a descriptor that is not registered.
-/

namespace MoonNet

open Kernel

/-- The buffers of a connection may differ, and its mask of interest. -/
structure Conn.Undisturbed (c c' : Conn) : Prop where
  readcb : c'.bev.readcb = c.bev.readcb
  writecb : c'.bev.writecb = c.bev.writecb
  eventcb : c'.bev.eventcb = c.bev.eventcb
  closed : c'.bev.closed = c.bev.closed
  registered : c.bev.ev.registered = none -> c'.bev.ev.registered = none

namespace Interest

theorem updateEp_unregistered {e : Interest} (h : e.registered = none) :
    e.updateEp.registered = none := by
  unfold updateEp
  rw [h]
  rfl

end Interest

namespace Conn

theorem Undisturbed.refl (c : Conn) : c.Undisturbed c where
  readcb := rfl
  writecb := rfl
  eventcb := rfl
  closed := rfl
  registered := id

theorem Undisturbed.trans {c c' c'' : Conn} (h : c.Undisturbed c')
    (h' : c'.Undisturbed c'') : c.Undisturbed c'' where
  readcb := h'.readcb.trans h.readcb
  writecb := h'.writecb.trans h.writecb
  eventcb := h'.eventcb.trans h.eventcb
  closed := h'.closed.trans h.closed
  registered := fun hnone => h'.registered (h.registered hnone)

theorem Update.undisturbed {c c' : Conn} (h : Update c c') :
    c.Undisturbed c' := by
  cases h with
  | appendEnable bytes | disableWrite hempty =>
      exact {
        readcb := rfl, writecb := rfl, eventcb := rfl, closed := rfl
        registered := fun hnone => Interest.updateEp_unregistered hnone }
  | _ => exact { Undisturbed.refl c with }

theorem Updates.undisturbed {c c' : Conn} (h : c.Updates c') :
    c.Undisturbed c' :=
  h.lift Undisturbed.refl Undisturbed.trans Update.undisturbed

theorem gather_calls {c : Conn} {p : Payload} {n relen : Int}
    {r : WriteResult} (hcalls : (c.gather p n relen r).snd = true) :
    c.bev.writecb = true := by
  unfold gather at hcalls
  cases r with
  | failed errno =>
      dsimp only at hcalls
      split at hcalls <;> cases hcalls
  | accepted wvn =>
      dsimp only at hcalls
      split at hcalls
      · split at hcalls <;> cases hcalls
      · exact hcalls

theorem sendout_calls {c : Conn} {p : Payload}
    {written gathered : WriteResult}
    (hcalls : (c.sendout p written gathered).snd = true) :
    c.bev.writecb = true := by
  unfold sendout at hcalls
  dsimp only at hcalls
  split at hcalls
  · cases written with
    | accepted n =>
        dsimp only at hcalls
        split at hcalls
        · rename_i hwritten
          exact hwritten.right
        · split at hcalls
          · have hwritecb := gather_calls hcalls
            exact hwritecb
          · cases hcalls
    | failed errno =>
        dsimp only at hcalls
        split at hcalls
        · split at hcalls
          · have hwritecb := gather_calls hcalls
            exact hwritecb
          · cases hcalls
        · cases hcalls
  · split at hcalls
    · exact gather_calls hcalls
    · cases hcalls

end Conn

end MoonNet
