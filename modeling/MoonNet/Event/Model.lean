import Mathlib.Data.BitVec

/-!
# Interest masks

An event carries the mask of conditions it is interested in.  Every change of
the mask is passed on to the kernel with `EPOLL_CTL_MOD`, which fails without
effect for a descriptor that is not registered, as `EPOLL_CTL_ADD` does for one
that is.
-/

namespace MoonNet

abbrev Mask := BitVec 32

def EPOLLIN : Mask := 0x001#32
def EPOLLPRI : Mask := 0x002#32
def EPOLLOUT : Mask := 0x004#32
def EPOLLERR : Mask := 0x008#32
def EPOLLHUP : Mask := 0x010#32
def EPOLLRDHUP : Mask := 0x2000#32
def EPOLLET : Mask := 0x80000000#32

/--
The mask of an event and the mask the kernel holds for it, if its descriptor
is registered.
-/
structure Interest where
  events : Mask
  registered : Option Mask
deriving DecidableEq, Repr

namespace Interest

/-- `add_event`: `EPOLL_CTL_ADD` with the current mask. -/
def enableListen (e : Interest) : Interest :=
  { e with registered := some (e.registered.getD e.events) }

/-- `del_event`: `EPOLL_CTL_DEL`. -/
def delListen (e : Interest) : Interest :=
  { e with registered := none }

/-- `mod_event`: `EPOLL_CTL_MOD` with the current mask. -/
def updateEp (e : Interest) : Interest :=
  { e with registered := e.registered.map fun _ => e.events }

def enableEvents (e : Interest) (op : Mask) : Interest :=
  updateEp { e with events := e.events ||| op }

def disableEvents (e : Interest) (op : Mask) : Interest :=
  updateEp { e with events := e.events &&& ~~~op }

def writeable (e : Interest) : Bool :=
  e.events &&& EPOLLOUT != 0

def enableRead (e : Interest) : Interest :=
  e.enableEvents EPOLLIN

def disableRead (e : Interest) : Interest :=
  e.disableEvents EPOLLIN

def enableWrite (e : Interest) : Interest :=
  e.enableEvents EPOLLOUT

def disableWrite (e : Interest) : Interest :=
  e.disableEvents EPOLLOUT

def enableET (e : Interest) : Interest :=
  e.enableEvents EPOLLET

def disableET (e : Interest) : Interest :=
  e.disableEvents EPOLLET

end Interest

end MoonNet
