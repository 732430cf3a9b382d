import MoonNet.Bfevent.Outbound

/-!
# The objects a loop works with

Each object owns the descriptor of its epoll-level event, so the kernel's entry
for the descriptor is kept beside the mask of this event.  The entry outlives
the object unless the descriptor is removed or closed.  Of a callback only its
presence matters.
-/

namespace MoonNet

open Kernel

/--
The five kinds of objects that are added to a server, and the two events that a
loop and an acceptor keep for themselves.
-/
inductive BaseEvent where
  | event (ev : Interest) (readcb writecb eventcb : Bool)
  | bfevent (conn : Conn)
  | timerevent (ev : Interest) (cb : Bool)
  | signalevent (ev : Interest) (cb : Bool)
  | udpevent (ev : Interest) (inbuff : ValidBuffer)
      (started receiveCb eventCb : Bool)
  | wakeup (ev : Interest)
  | acceptor (ev : Interest)
deriving DecidableEq

/-- `bfevent::del_listen` after it has reported what `inbuff_` still holds. -/
def Conn.delListen (c : Conn) : Conn :=
  let c :=
    if 0 < c.bev.outbuff.readbytes ∧ c.writeable = false then c.enableWrite
    else c
  let c := if c.bev.outbuff.readbytes = 0 then c.disableWrite else c
  { c with bev.ev := c.bev.ev.delListen, bev.closed := true }

def Conn.disableCb (c : Conn) : Conn :=
  { c with bev.readcb := false, bev.writecb := false, bev.eventcb := false }

namespace BaseEvent

/-- The epoll-level event. -/
def interest : BaseEvent -> Interest
  | event ev _ _ _ | timerevent ev _ | signalevent ev _ => ev
  | bfevent c => c.bev.ev
  | udpevent ev _ _ _ _ => ev
  | wakeup ev | acceptor ev => ev

def setInterest (o : BaseEvent) (ev : Interest) : BaseEvent :=
  match o with
  | event _ readcb writecb eventcb => event ev readcb writecb eventcb
  | bfevent c => bfevent { c with bev.ev := ev }
  | timerevent _ cb => timerevent ev cb
  | signalevent _ cb => signalevent ev cb
  | udpevent _ inbuff started receiveCb eventCb =>
      udpevent ev inbuff started receiveCb eventCb
  | wakeup _ => wakeup ev
  | acceptor _ => acceptor ev

/-- The kernel may report the epoll-level event. -/
def registered (o : BaseEvent) : Bool :=
  o.interest.registered.isSome

def disableCb : BaseEvent -> BaseEvent
  | event ev _ _ _ => event ev false false false
  | bfevent c => bfevent c.disableCb
  | timerevent ev _ => timerevent ev false
  | signalevent ev _ => signalevent ev false
  | udpevent ev inbuff started _ _ => udpevent ev inbuff started false false
  | wakeup ev => wakeup ev
  | acceptor ev => acceptor ev

/-- `del_listen` begins with a call of `readcb_`. -/
def reportsRest : BaseEvent -> Bool
  | bfevent c => 0 < c.bev.inbuff.readbytes && c.bev.readcb
  | _ => false

/-- `del_listen` calls `del_event` for the epoll-level event. -/
def listens : BaseEvent -> Bool
  | udpevent _ _ started _ _ => started
  | _ => true

def delListen (o : BaseEvent) : BaseEvent :=
  match o with
  | bfevent c => bfevent c.delListen
  | udpevent ev inbuff started receiveCb eventCb =>
      if started then
        udpevent ev.delListen inbuff false receiveCb eventCb
      else o
  | _ => o.setInterest o.interest.delListen

/-- `::close(fd_)`; closing a descriptor removes its registration. -/
def closeFd (o : BaseEvent) : BaseEvent :=
  o.setInterest o.interest.delListen

def Silent : BaseEvent -> Prop
  | event _ readcb writecb eventcb =>
      readcb = false ∧ writecb = false ∧ eventcb = false
  | bfevent c =>
      c.bev.readcb = false ∧ c.bev.writecb = false ∧ c.bev.eventcb = false
  | timerevent _ cb | signalevent _ cb => cb = false
  | udpevent _ _ _ receiveCb eventCb => receiveCb = false ∧ eventCb = false
  | wakeup _ | acceptor _ => True

/-- A buffered event on which `del_listen` has not been called. -/
def Open : BaseEvent -> Prop
  | bfevent c => c.bev.closed = false
  | _ => False

end BaseEvent

end MoonNet
