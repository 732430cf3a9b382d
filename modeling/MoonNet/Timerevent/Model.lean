import MoonNet.Event.Model
import MoonNet.Foundation.Expiry

/-!
# The timer event

A `timerevent` sets a timer of the kernel to its timeout and has an inner event
that listens to the timer.  The timer counts expirations and is readable as long
as some have not been read.  Times are in nanoseconds.
-/

namespace MoonNet

open Foundation

/-- `struct timespec` -/
structure Timespec where
  tvSec : Int
  tvNsec : Int
deriving DecidableEq, Repr

namespace Timespec

/-- What the kernel accepts. -/
def Valid (t : Timespec) : Prop :=
  0 <= t.tvSec ∧ 0 <= t.tvNsec ∧ t.tvNsec < 1000000000

instance (t : Timespec) : Decidable t.Valid :=
  inferInstanceAs (Decidable (_ ∧ _ ∧ _))

def nanoseconds (t : Timespec) : Nat :=
  (t.tvSec * 1000000000 + t.tvNsec).toNat

end Timespec

/-- `struct itimerspec` -/
structure Itimerspec where
  itValue : Timespec
  itInterval : Timespec
deriving DecidableEq, Repr

/--
`timerfd_settime` with a relative time: it fails for an invalid time, and a time
of zero leaves the timer disarmed.
-/
def timerfdSettime (now : Nat) (t : Itimerspec) : Option Expiry :=
  if t.itValue.Valid ∧ t.itInterval.Valid then
    some (Expiry.start
      { first :=
          if t.itValue.nanoseconds = 0 then none
          else some (now + t.itValue.nanoseconds)
        period := t.itInterval.nanoseconds } now)
  else none

/--
A timer event.  `reported` says that the inner event is in the batch that the
loop dispatches.  `calls` is a history of when `cb_` was called, and `failed`
counts the reads of `handle_timeout` that have failed.
-/
structure Timerevent where
  ev : Interest
  timer : Expiry
  cb : Bool
  reported : Bool
  calls : List Nat
  failed : Nat
deriving DecidableEq, Repr

namespace Timerevent

/-- The `itimerspec` that `_init_` fills in; `/` and `%` round to zero. -/
def itimerspec (timeoutMs : Int) (periodic : Bool) : Itimerspec :=
  let value : Timespec :=
    { tvSec := timeoutMs.tdiv 1000
      tvNsec := timeoutMs.tmod 1000 * 1000000 }
  { itValue := value
    itInterval := if periodic then value else { tvSec := 0, tvNsec := 0 } }

/-- `timerevent(loop, timeout_ms, periodic)`, which may exit the process. -/
def new (timeoutMs : Int) (periodic : Bool) (now : Nat) : Option Timerevent :=
  (timerfdSettime now (itimerspec timeoutMs periodic)).map fun timer =>
    { ev := { events := EPOLLIN, registered := none }
      timer := timer
      cb := false
      reported := false
      calls := []
      failed := 0 }

def setcb (s : Timerevent) (cb : Bool) : Timerevent :=
  { s with cb := cb }

def disableCb (s : Timerevent) : Timerevent :=
  { s with cb := false }

def enableListen (s : Timerevent) : Timerevent :=
  { s with ev := s.ev.enableListen }

def delListen (s : Timerevent) : Timerevent :=
  { s with ev := s.ev.delListen }

def updateEp (s : Timerevent) : Timerevent :=
  { s with ev := s.ev.updateEp }

/-- `if (cb_) cb_();` -/
def callCb (s : Timerevent) : Timerevent :=
  if s.cb then { s with calls := s.calls ++ [s.timer.now] } else s

def handleTimeout (s : Timerevent) : Timerevent :=
  match s.timer.read with
  | none => { s with failed := s.failed + 1 }
  | some timer => { s with timer := timer }.callCb

def readable (s : Timerevent) : Bool :=
  match s.ev.registered with
  | none => false
  | some mask => mask &&& EPOLLIN != 0 && decide (0 < s.timer.unread)

inductive Action where
  | tick
  | setcb (cb : Bool)
  | disableCb
  | enableListen
  | delListen
  | updateEp
  | epollWait
  | handleCb
deriving DecidableEq, Repr

/--
The calls come in any order, also between the report of the inner event and its
`handle_cb`, and time goes on between all of them.
-/
def step : StepFn Timerevent Action := fun s a =>
  match a with
  | Action.tick => some { s with timer := s.timer.tick }
  | Action.setcb cb => some (s.setcb cb)
  | Action.disableCb => some s.disableCb
  | Action.enableListen => some s.enableListen
  | Action.delListen => some s.delListen
  | Action.updateEp => some s.updateEp
  | Action.epollWait =>
      if s.reported = false ∧ s.readable = true then
        some { s with reported := true }
      else none
  | Action.handleCb =>
      if s.reported = true then
        some { s with reported := false }.handleTimeout
      else none

/-- The timeouts that are over after `elapsed` nanoseconds. -/
def timeouts (timeoutMs : Nat) (periodic : Bool) (elapsed : Nat) : Nat :=
  if timeoutMs = 0 then 0
  else if periodic then elapsed / (timeoutMs * 1000000)
  else if timeoutMs * 1000000 <= elapsed then 1
  else 0

end Timerevent

end MoonNet
