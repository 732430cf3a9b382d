import MoonNet.Acceptor.Accept
import MoonNet.Bfevent.Duplex
import MoonNet.Foundation.Readiness

/-!
# The backlog of a listening socket

Connections arrive at the listening socket of an acceptor at any time and wait
there.  While the acceptor listens, `epoll_wait` reports the socket on an edge
and `handle_cb` calls `handle_accept`; `listen` and `stop` are called at any
time, too.

Seen from the socket, the acceptor is the handler of a source of connections.
So each connection is passed on once and in order, and none is left waiting
unless a failure of `accept` ends `handle_accept` early.
-/

namespace MoonNet

open Foundation
open Kernel

namespace Backlog

/--
Where the loop thread is: elsewhere, before the tests of `handle_cb`, before a
call of `accept`, in `cb_`, or before the `break` that follows `perror`.
-/
inductive Phase where
  | elsewhere
  | handleCb (revents : Mask)
  | accepting
  | callback
  | leaving
deriving DecidableEq, Repr

namespace Phase

def accepts : Phase -> Bool
  | elsewhere => false
  | handleCb _ | accepting | callback | leaving => true

def after (cb : Bool) : AcceptResult -> Phase
  | AcceptResult.accepted _ => if cb then callback else accepting
  | AcceptResult.failed errno =>
      if errno.wouldBlock then elsewhere else leaving

end Phase

end Backlog

/--
An acceptor in its loop; `base.arrivals` is the queue of its socket.  `edge`
says that the kernel has something to report.  Histories: what has arrived, and
what `accept` has taken off the queue.
-/
structure Backlog where
  base : Acceptor
  shutdown : Bool
  ev : Option Interest
  edge : Bool
  phase : Backlog.Phase
  arrived : List Arrival
  taken : List Arrival
deriving DecidableEq

namespace Backlog

/-- After the constructor with a port, and after `setcb`. -/
def start : Backlog where
  base := Acceptor.ready []
  shutdown := true
  ev := none
  edge := false
  phase := Phase.elsewhere
  arrived := []
  taken := []

/--
`connects` and `aborts` are a connection in the queue that `accept` is going to
return, and one for which it is going to fail.
-/
inductive Action where
  | connects (cfd : Nat)
  | aborts
  | wake
  | wait (revents : Mask)
  | proceed
  | accept (failure : Option Errno)
  | listen
  | stop
deriving DecidableEq, Repr

def readable (s : Backlog) : Bool :=
  !s.base.arrivals.isEmpty

def watched (s : Backlog) : Bool :=
  match s.ev.bind Interest.registered with
  | none => false
  | some mask => mask &&& EPOLLIN != 0

def notify (s : Backlog) : Backlog :=
  { s with edge := s.edge || (s.watched && s.readable) }

def goto (s : Backlog) (p : Phase) : Backlog :=
  { s with phase := p }

def arrives (s : Backlog) (a : Arrival) : Backlog :=
  { s with
    base.arrivals := s.base.arrivals ++ [a]
    arrived := s.arrived ++ [a] }.notify

/--
`epoll_wait` reports the descriptor.  It reports `EPOLLIN` if the mask has it
and something is in the queue.
-/
def wait (s : Backlog) (revents : Mask) : Option Backlog :=
  match s.phase with
  | Phase.elsewhere =>
      if s.edge = true ∧ (s.watched = true -> s.readable = true ->
          Duplex.has revents EPOLLIN = true) then
        some { s with edge := false, phase := Phase.handleCb revents }
      else none
  | _ => none

/--
What follows without a call of the kernel.  The inner event has a callback for
the first test of `handle_cb` only.
-/
def proceed (s : Backlog) : Option Backlog :=
  match s.phase with
  | Phase.handleCb revents =>
      some (s.goto
        (if Duplex.readFlags revents then Phase.accepting
          else Phase.elsewhere))
  | Phase.callback => some (s.goto Phase.accepting)
  | Phase.leaving => some (s.goto Phase.elsewhere)
  | Phase.elsewhere | Phase.accepting => none

/--
`accept` in the loop of `handle_accept`, and what follows it up to the callback.
It may fail without taking anything off the queue.
-/
def accept (s : Backlog) (failure : Option Errno) : Option Backlog :=
  match s.phase, failure with
  | Phase.accepting, none =>
      some { s with
        base := s.base.round.reached
        taken := s.taken ++ s.base.arrivals.take 1
        phase :=
          Phase.after s.base.cb (MoonNet.accept s.base.arrivals).fst }
  | Phase.accepting, some errno =>
      if errno.wouldBlock then none
      else
        some { s with
          base :=
            ({ s.base with
              results := s.base.results ++ [AcceptResult.failed errno] }.onResult
                (AcceptResult.failed errno)).reached
          phase := Phase.after s.base.cb (AcceptResult.failed errno) }
  | _, _ => none

/-- `listen`, with a new inner event. -/
def listen (s : Backlog) : Backlog :=
  if s.shutdown then
    { s with
      ev := some ({ events := EPOLLIN ||| EPOLLET, registered := none } :
        Interest).enableListen
      shutdown := false }.notify
  else s

/-- `stop`; with the registration goes what is due to be reported. -/
def stop (s : Backlog) : Backlog :=
  if s.shutdown then s
  else
    { s with
      ev := s.ev.map Interest.delListen
      edge := false
      shutdown := true }

def step : StepFn Backlog Action := fun s a =>
  match a with
  | Action.connects cfd => some (s.arrives (Arrival.connected cfd))
  | Action.aborts => some (s.arrives Arrival.aborted)
  | Action.wake =>
      if s.watched then some { s with edge := true } else none
  | Action.wait revents => s.wait revents
  | Action.proceed => s.proceed
  | Action.accept failure => s.accept failure
  | Action.listen => some s.listen
  | Action.stop => some s.stop

/-!
# The source
-/

def source (s : Backlog) : Readiness Arrival where
  arrived := s.arrived
  taken := s.taken
  waiting := s.base.arrivals
  armed := s.watched
  edge := s.edge
  handling := s.phase.accepts

def leaves (s : Backlog) : Bool :=
  match s.phase with
  | Phase.handleCb revents => !Duplex.readFlags revents
  | Phase.leaving => true
  | _ => false

def label (s : Backlog) : Action -> Option (Readiness.Action Arrival)
  | Action.connects cfd =>
      some (Readiness.Action.arrive [Arrival.connected cfd])
  | Action.aborts => some (Readiness.Action.arrive [Arrival.aborted])
  | Action.wake => some (Readiness.Action.arm s.watched true)
  | Action.wait _ => some Readiness.Action.notice
  | Action.proceed => if s.leaves then some Readiness.Action.finish else none
  | Action.accept none =>
      if s.readable then some (Readiness.Action.take 1)
      else some Readiness.Action.finish
  | Action.accept (some _) => none
  | Action.listen =>
      if s.shutdown then some (Readiness.Action.arm true false) else none
  | Action.stop => if s.shutdown then none else some Readiness.Action.disarm

def Seen (s : Backlog) : Prop :=
  s.watched = true -> s.base.arrivals ≠ [] -> s.edge = true

/--
The kernel watches the socket while the acceptor listens, and what `handle_cb`
is not going to accept is due to be reported again.
-/
structure Inv (s : Backlog) : Prop where
  watched : s.watched = !s.shutdown
  skipped : forall revents, s.phase = Phase.handleCb revents ->
    Duplex.readFlags revents = false -> Seen s

variable {s s' : Backlog}

theorem start_inv : Inv start where
  watched := rfl
  skipped := nofun

theorem readable_iff : s.readable = true <-> s.base.arrivals ≠ [] := by
  unfold readable
  rw [Bool.not_eq_true', List.isEmpty_eq_false_iff]

theorem notify_seen (s : Backlog) : Seen s.notify :=
  Readiness.look_seen s.source

/-!
## Steps of the loop thread
-/

theorem wait_cases {revents : Mask} (hstep : s.wait revents = some s') :
    s.phase = Phase.elsewhere ∧ s.edge = true ∧
      (s.watched = true -> s.readable = true ->
        Duplex.has revents EPOLLIN = true) ∧
      s' = { s with edge := false, phase := Phase.handleCb revents } := by
  unfold wait at hstep
  cases hphase : s.phase with
  | elsewhere =>
      simp only [hphase] at hstep
      split at hstep
      · rename_i hguard
        cases hstep
        exact ⟨rfl, hguard.left, hguard.right, rfl⟩
      · cases hstep
  | _ =>
      simp only [hphase] at hstep
      cases hstep

theorem proceed_cases (hstep : s.proceed = some s') :
    s.phase.accepts = true ∧ exists p, s' = s.goto p ∧
      (p = Phase.elsewhere ∨ p = Phase.accepting) ∧
      p.accepts = !s.leaves := by
  unfold proceed at hstep
  unfold leaves
  cases hphase : s.phase with
  | elsewhere =>
      simp only [hphase] at hstep
      cases hstep
  | handleCb revents =>
      simp only [hphase] at hstep
      cases hstep
      dsimp only
      cases Duplex.readFlags revents with
      | false => exact ⟨rfl, _, rfl, Or.inl rfl, rfl⟩
      | true => exact ⟨rfl, _, rfl, Or.inr rfl, rfl⟩
  | accepting =>
      simp only [hphase] at hstep
      cases hstep
  | callback =>
      simp only [hphase] at hstep
      cases hstep
      exact ⟨rfl, _, rfl, Or.inr rfl, rfl⟩
  | leaving =>
      simp only [hphase] at hstep
      cases hstep
      exact ⟨rfl, _, rfl, Or.inl rfl, rfl⟩

theorem proceed_matched (hstep : s.proceed = some s') :
    StepFn.Matches Readiness.step s.source s'.source
      (label s Action.proceed) := by
  rcases proceed_cases hstep with ⟨haccepts, p, rfl, _, hp⟩
  have hsource : (s.goto p).source =
      { s.source with handling := p.accepts } := rfl
  rw [hsource, hp]
  exact Readiness.step_finish haccepts s.leaves

/-!
## `accept`
-/

def drained (s : Backlog) : Backlog :=
  { s with
    base.arrivals := []
    base.results := s.base.results ++ [AcceptResult.failed Errno.eagain]
    phase := Phase.elsewhere }

def accepted (s : Backlog) (cfd : Nat) (rest : List Arrival) : Backlog :=
  { s with
    base := s.base.taken cfd rest
    taken := s.taken ++ [Arrival.connected cfd]
    phase := if s.base.cb then Phase.callback else Phase.accepting }

def failed (s : Backlog) (front rest : List Arrival) (errno : Errno) :
    Backlog :=
  { s with
    base.arrivals := rest
    base.results := s.base.results ++ [AcceptResult.failed errno]
    base.reported := s.base.reported ++ [errno]
    taken := s.taken ++ front
    phase := Phase.leaving }

theorem accept_cases {failure : Option Errno}
    (hstep : s.accept failure = some s') :
    s.phase = Phase.accepting ∧
      ((failure = none ∧ s.base.arrivals = [] ∧ s' = s.drained) ∨
        (exists cfd rest, failure = none ∧
          s.base.arrivals = Arrival.connected cfd :: rest ∧
          s' = s.accepted cfd rest) ∨
        (exists a rest errno, failure = none ∧ s.base.arrivals = a :: rest ∧
          connections [a] = [] ∧ s' = s.failed [a] rest errno) ∨
        (exists errno, failure = some errno ∧
          s' = s.failed [] s.base.arrivals errno)) := by
  unfold accept at hstep
  split at hstep
  · rename_i hphase
    cases hstep
    refine ⟨hphase, ?_⟩
    cases harrivals : s.base.arrivals with
    | nil =>
        refine Or.inl ⟨rfl, rfl, ?_⟩
        rw [Acceptor.round_nil harrivals, List.take_nil, List.append_nil]
        rfl
    | cons a rest =>
        cases a with
        | connected cfd =>
            refine Or.inr (Or.inl ⟨cfd, rest, rfl, rfl, ?_⟩)
            rw [Acceptor.round_connected harrivals]
            rfl
        | aborted =>
            refine Or.inr (Or.inr (Or.inl
              ⟨Arrival.aborted, rest, ECONNABORTED, rfl, rfl, rfl, ?_⟩))
            unfold Acceptor.round
            rw [harrivals]
            rfl
        | interrupted =>
            refine Or.inr (Or.inr (Or.inl
              ⟨Arrival.interrupted, rest, Errno.eintr, rfl, rfl, rfl, ?_⟩))
            unfold Acceptor.round
            rw [harrivals]
            rfl
  · rename_i errno hphase
    split at hstep
    · cases hstep
    · rename_i hblock
      cases hstep
      refine ⟨hphase, Or.inr (Or.inr (Or.inr ⟨errno, rfl, ?_⟩))⟩
      have herrno : errno.wouldBlock = false := Bool.eq_false_iff.mpr hblock
      unfold failed Acceptor.onResult Phase.after
      simp only [herrno, List.append_nil]
      rfl
  · cases hstep

theorem accepted_source (s : Backlog) (cfd : Nat) (rest : List Arrival) :
    (s.accepted cfd rest).source =
      { s.source with
        taken := s.source.taken ++ [Arrival.connected cfd]
        waiting := rest
        handling := true } := by
  have haccepts : (s.accepted cfd rest).phase.accepts = true := by
    unfold accepted
    dsimp only
    split <;> rfl
  exact (Readiness.mk.injEq ..).mpr
    ⟨rfl, rfl, Acceptor.taken_arrivals s.base cfd rest, rfl, rfl, haccepts⟩

theorem accept_matched {failure : Option Errno}
    (hstep : s.accept failure = some s') :
    StepFn.Matches Readiness.step s.source s'.source
      (label s (Action.accept failure)) := by
  rcases accept_cases hstep with ⟨hphase, hcases⟩
  have hhandling : s.source.handling = true := by
    show s.phase.accepts = true
    rw [hphase]
    rfl
  -- what is at the front of the queue is taken
  have htake : forall a rest, s.base.arrivals = a :: rest ->
      StepFn.Matches Readiness.step s.source
        { s.source with
          taken := s.source.taken ++ [a], waiting := rest, handling := true }
        (label s (Action.accept none)) := by
    intro a rest harrivals
    have hreadable : s.readable = true := by
      apply readable_iff.mpr
      rw [harrivals]
      exact List.cons_ne_nil a rest
    have hwaiting : s.source.waiting = [a] ++ rest := harrivals
    show StepFn.Matches _ _ _ (if s.readable then _ else _)
    rw [if_pos hreadable, <- hhandling]
    exact Readiness.step_take hhandling hwaiting
  rcases hcases with ⟨rfl, harrivals, rfl⟩ | ⟨cfd, rest, rfl, harrivals, rfl⟩ |
    ⟨a, rest, errno, rfl, harrivals, _, rfl⟩ | ⟨errno, rfl, rfl⟩
  · have hreadable : s.readable = false := by
      unfold readable
      rw [harrivals]
      rfl
    show StepFn.Matches _ _ _ (if s.readable then _ else _)
    rw [hreadable]
    have hsame : s.drained.source = { s.source with handling := false } :=
      (Readiness.mk.injEq ..).mpr ⟨rfl, rfl, harrivals.symm, rfl, rfl, rfl⟩
    rw [hsame]
    exact if_pos hhandling
  · rw [accepted_source]
    exact htake _ rest harrivals
  · exact htake a rest harrivals
  · have hsame : (s.failed [] s.base.arrivals errno).source =
        { s.source with handling := true } :=
      (Readiness.mk.injEq ..).mpr
        ⟨rfl, List.append_nil s.taken, rfl, rfl, rfl, rfl⟩
    rw [hsame]
    show { s.source with handling := true } = s.source
    rw [<- hhandling]

/-!
## All steps
-/

theorem arrives_matched (s : Backlog) (a : Arrival) :
    Readiness.step s.source (Readiness.Action.arrive [a]) =
      some (s.arrives a).source := rfl

theorem listen_matched (s : Backlog) :
    StepFn.Matches Readiness.step s.source s.listen.source
      (label s Action.listen) := by
  unfold label listen
  dsimp only
  cases hshutdown : s.shutdown with
  | false => rfl
  | true =>
      rw [if_pos rfl, if_pos rfl]
      refine congrArg some ((Readiness.mk.injEq ..).mpr
        ⟨rfl, rfl, rfl, rfl, ?_, rfl⟩)
      show ((s.edge || false) || (true && !s.base.arrivals.isEmpty)) =
        (s.edge || (true && !s.base.arrivals.isEmpty))
      rw [Bool.or_false]

theorem stop_matched (s : Backlog) :
    StepFn.Matches Readiness.step s.source s.stop.source
      (label s Action.stop) := by
  unfold label stop
  dsimp only
  cases hshutdown : s.shutdown with
  | true => rfl
  | false =>
      refine congrArg some ((Readiness.mk.injEq ..).mpr
        ⟨rfl, rfl, rfl, ?_, rfl, rfl⟩)
      unfold watched
      cases s.ev with
      | none => rfl
      | some ev => rfl

theorem step_inv {a : Action} (h : Inv s) (hstep : step s a = some s') :
    Inv s' := by
  cases a with
  | connects cfd =>
      cases hstep
      exact { watched := h.watched, skipped := fun _ _ _ => notify_seen _ }
  | aborts =>
      cases hstep
      exact { watched := h.watched, skipped := fun _ _ _ => notify_seen _ }
  | wake =>
      simp only [step] at hstep
      split at hstep
      · cases hstep
        exact { watched := h.watched, skipped := fun _ _ _ _ _ => rfl }
      · cases hstep
  | wait revents =>
      rcases wait_cases hstep with ⟨_, _, hreports, rfl⟩
      refine { watched := h.watched, skipped := ?_ }
      intro revents' hphase hflags hwatched hqueue
      cases hphase
      have hin := hreports hwatched (readable_iff.mpr hqueue)
      unfold Duplex.readFlags at hflags
      rw [hin] at hflags
      cases hflags
  | proceed =>
      rcases proceed_cases hstep with ⟨_, p, rfl, hp, _⟩
      refine { watched := h.watched, skipped := ?_ }
      intro revents hphase
      have hsame : p = Phase.handleCb revents := hphase
      rcases hp with rfl | rfl <;> cases hsame
  | accept failure =>
      rcases accept_cases hstep with ⟨_, ⟨_, _, rfl⟩ | ⟨cfd, rest, _, _, rfl⟩ |
        ⟨a, rest, errno, _, _, _, rfl⟩ | ⟨errno, _, rfl⟩⟩
      · exact { watched := h.watched, skipped := nofun }
      · refine { watched := h.watched, skipped := ?_ }
        intro revents hphase
        unfold accepted at hphase
        dsimp only at hphase
        split at hphase <;> cases hphase
      · exact { watched := h.watched, skipped := nofun }
      · exact { watched := h.watched, skipped := nofun }
  | listen =>
      cases hstep
      unfold listen
      split
      · exact { watched := rfl, skipped := fun _ _ _ => notify_seen _ }
      · exact h
  | stop =>
      cases hstep
      have hwatched := h.watched
      unfold stop
      split
      · exact h
      · have hnone : ({ s with
            ev := s.ev.map Interest.delListen
            edge := false
            shutdown := true } : Backlog).watched = false := by
          unfold watched
          cases s.ev with
          | none => rfl
          | some ev => rfl
        refine { watched := hnone, skipped := ?_ }
        intro revents _ _ hwatching
        rw [hnone] at hwatching
        cases hwatching

theorem step_matched {a : Action} (hstep : step s a = some s') :
    StepFn.Matches Readiness.step s.source s'.source (label s a) := by
  cases a with
  | connects cfd =>
      cases hstep
      exact arrives_matched s (Arrival.connected cfd)
  | aborts =>
      cases hstep
      exact arrives_matched s Arrival.aborted
  | wake =>
      simp only [step] at hstep
      split at hstep
      · cases hstep
        refine congrArg some ((Readiness.mk.injEq ..).mpr
          ⟨rfl, rfl, rfl, rfl, ?_, rfl⟩)
        show ((s.edge || true) || _) = true
        rw [Bool.or_true, Bool.true_or]
      · cases hstep
  | wait revents =>
      rcases wait_cases hstep with ⟨hphase, hedge, _, rfl⟩
      have hcan : (s.source.edge && !s.source.handling) = true := by
        show (s.edge && !s.phase.accepts) = true
        rw [hedge, hphase]
        rfl
      show (if _ = true then _ else none) = _
      rw [if_pos hcan]
      rfl
  | proceed => exact proceed_matched hstep
  | accept failure => exact accept_matched hstep
  | listen =>
      cases hstep
      exact listen_matched s
  | stop =>
      cases hstep
      exact stop_matched s

theorem source_maps :
    StepFn.Maps step Readiness.step Inv source label where
  keeps := fun _ _ _ h hstep => step_inv h hstep
  matched := fun _ _ _ _ hstep => step_matched hstep

/-!
# Passed on once and in order
-/

/--
What has arrived has been taken or waits in the queue, in this order, and the
connections that were taken have been passed to `cb_`, once each and in order.
-/
structure InOrder (s : Backlog) : Prop where
  cb : s.base.cb = true
  stream : s.taken ++ s.base.arrivals = s.arrived
  passed : s.base.passed = connections s.taken

theorem connections_append (xs ys : List Arrival) :
    connections (xs ++ ys) = connections xs ++ connections ys :=
  List.filterMap_append

theorem accept_inOrder (h : InOrder s) {failure : Option Errno}
    (hstep : s.accept failure = some s') : InOrder s' := by
  rcases accept_cases hstep with ⟨_, ⟨_, harrivals, rfl⟩ |
    ⟨cfd, rest, _, harrivals, rfl⟩ | ⟨a, rest, errno, _, harrivals, hnone, rfl⟩ |
    ⟨errno, _, rfl⟩⟩
  · have hstream := h.stream
    rw [harrivals] at hstream
    exact { cb := h.cb, stream := hstream, passed := h.passed }
  · refine
      { cb := (Acceptor.taken_cb s.base cfd rest).trans h.cb
        stream := ?_
        passed := ?_ }
    · show s.taken ++ [Arrival.connected cfd] ++
        (s.base.taken cfd rest).arrivals = s.arrived
      rw [Acceptor.taken_arrivals, <- h.stream, harrivals, List.append_assoc]
      rfl
    · show (s.base.taken cfd rest).passed =
        connections (s.taken ++ [Arrival.connected cfd])
      rw [Acceptor.taken_passed, if_pos h.cb, connections_append, h.passed]
      rfl
  · refine { cb := h.cb, stream := ?_, passed := ?_ }
    · show s.taken ++ [a] ++ rest = s.arrived
      rw [<- h.stream, harrivals, List.append_assoc]
      rfl
    · show s.base.passed = connections (s.taken ++ [a])
      rw [connections_append, hnone, List.append_nil]
      exact h.passed
  · refine { cb := h.cb, stream := ?_, passed := ?_ }
    · show s.taken ++ [] ++ s.base.arrivals = s.arrived
      rw [List.append_nil]
      exact h.stream
    · show s.base.passed = connections (s.taken ++ [])
      rw [List.append_nil]
      exact h.passed

theorem arrives_inOrder (h : InOrder s) (a : Arrival) :
    InOrder (s.arrives a) where
  cb := h.cb
  stream := by
    show s.taken ++ (s.base.arrivals ++ [a]) = s.arrived ++ [a]
    rw [<- List.append_assoc, h.stream]
  passed := h.passed

theorem step_inOrder {a : Action} (h : InOrder s)
    (hstep : step s a = some s') : InOrder s' := by
  cases a with
  | connects cfd =>
      cases hstep
      exact arrives_inOrder h (Arrival.connected cfd)
  | aborts =>
      cases hstep
      exact arrives_inOrder h Arrival.aborted
  | wake =>
      simp only [step] at hstep
      split at hstep
      · cases hstep
        exact ⟨h.cb, h.stream, h.passed⟩
      · cases hstep
  | wait revents =>
      rcases wait_cases hstep with ⟨_, _, _, rfl⟩
      exact ⟨h.cb, h.stream, h.passed⟩
  | proceed =>
      rcases proceed_cases hstep with ⟨_, p, rfl, _⟩
      exact ⟨h.cb, h.stream, h.passed⟩
  | accept failure => exact accept_inOrder h hstep
  | listen =>
      cases hstep
      unfold listen
      split
      · exact ⟨h.cb, h.stream, h.passed⟩
      · exact h
  | stop =>
      cases hstep
      unfold stop
      split
      · exact h
      · exact ⟨h.cb, h.stream, h.passed⟩

theorem start_inOrder : InOrder start where
  cb := rfl
  stream := rfl
  passed := rfl

/-!
# No connection is left waiting
-/

/--
While the acceptor listens and something is in the queue, `handle_accept` is at
it, or an edge is due.
-/
def Attended (s : Backlog) : Prop :=
  s.shutdown = false -> s.base.arrivals ≠ [] ->
    s.edge = true ∨ s.phase.accepts = true

/--
When `handle_accept` breaks out of its loop because of a failure, the queue is
empty, or an edge is due, or the acceptor has been stopped.
-/
def LeavesNoneBehind (s : Backlog) : Action -> Prop
  | Action.proceed =>
      s.phase = Phase.leaving -> s.shutdown = false ->
        s.base.arrivals ≠ [] -> s.edge = true
  | _ => True

theorem Inv.watched_iff (h : Inv s) :
    s.watched = true <-> s.shutdown = false := by
  rw [h.watched, Bool.not_eq_true']

theorem attended_iff (h : Inv s) : s.Attended <-> s.source.Attended := by
  unfold Attended Readiness.Attended
  rw [<- h.watched_iff]
  rfl

theorem leaves_iff : s.leaves = true <->
    s.phase = Phase.leaving ∨
      exists revents, s.phase = Phase.handleCb revents ∧
        Duplex.readFlags revents = false := by
  unfold leaves
  cases s.phase with
  | handleCb revents => simp
  | _ => simp

theorem leavesNothing_iff {a : Action} (h : Inv s)
    (hstep : step s a = some s') :
    (forall x, label s a = some x -> s.source.LeavesNothing x) <->
      LeavesNoneBehind s a := by
  cases a with
  | proceed =>
      constructor
      · intro hall hphase hshutdown hqueue
        have hlabel : label s Action.proceed = some Readiness.Action.finish :=
          if_pos (leaves_iff.mpr (Or.inl hphase))
        exact hall _ hlabel rfl (h.watched_iff.mpr hshutdown) hqueue
      · intro hguard x hlabel _ hwatched hqueue
        cases hleaves : s.leaves with
        | false =>
            unfold label at hlabel
            dsimp only at hlabel
            rw [hleaves] at hlabel
            cases hlabel
        | true =>
            rcases leaves_iff.mp hleaves with
              hphase | ⟨revents, hphase, hflags⟩
            · exact hguard hphase (h.watched_iff.mp hwatched) hqueue
            · exact h.skipped revents hphase hflags hwatched hqueue
  | accept failure =>
      refine iff_of_true ?_ trivial
      intro x hlabel hfinish _ hqueue
      cases failure with
      | none =>
          have hreadable : s.readable = true := readable_iff.mpr hqueue
          unfold label at hlabel
          dsimp only at hlabel
          rw [if_pos hreadable] at hlabel
          cases hlabel
          cases hfinish
      | some errno => cases hlabel
  | connects cfd => exact iff_of_true (fun x hx => by cases hx; nofun) trivial
  | aborts => exact iff_of_true (fun x hx => by cases hx; nofun) trivial
  | wake => exact iff_of_true (fun x hx => by cases hx; nofun) trivial
  | wait revents => exact iff_of_true (fun x hx => by cases hx; nofun) trivial
  | listen =>
      refine iff_of_true ?_ trivial
      intro x hlabel hfinish
      unfold label at hlabel
      dsimp only at hlabel
      rw [hfinish] at hlabel
      split at hlabel <;> cases hlabel
  | stop =>
      refine iff_of_true ?_ trivial
      intro x hlabel hfinish
      unfold label at hlabel
      dsimp only at hlabel
      rw [hfinish] at hlabel
      split at hlabel <;> cases hlabel

theorem step_attended_iff {a : Action} (h : Inv s) (hattended : s.Attended)
    (hstep : step s a = some s') : s'.Attended <-> LeavesNoneBehind s a := by
  rw [attended_iff (step_inv h hstep), <- leavesNothing_iff h hstep]
  exact source_maps.step_iff
    (fun _ _ _ _ hq => Readiness.step_attended_iff hq) h
    ((attended_iff h).mp hattended) hstep

/-- The loop thread is elsewhere, and the kernel has nothing to report. -/
def AtRest (s : Backlog) : Prop :=
  s.phase = Phase.elsewhere ∧ s.edge = false

theorem passed_atRest (h : InOrder s) (hattended : s.Attended)
    (hrest : s.AtRest) (hshutdown : s.shutdown = false) :
    s.base.passed = connections s.arrived := by
  have hqueue : s.base.arrivals = [] := by
    by_contra hne
    rcases hattended hshutdown hne with hedge | haccepts
    · rw [hrest.right] at hedge
      cases hedge
    · rw [hrest.left] at haccepts
      cases haccepts
  rw [<- h.stream, hqueue, List.append_nil]
  exact h.passed

/--
Whatever arrives, whatever fails and whenever the acceptor is started and
stopped, the connections are passed to `cb_` once and in order.  None is left
waiting while the acceptor listens, throughout a run, exactly if `handle_accept`
never breaks out of its loop while connections wait and no edge is due; and
after such a run, a listening acceptor at rest has passed all of them on.
-/
theorem connections_inOrder_attended (acts : List Action) (t : Backlog)
    (hrun : StepFn.run step start acts = some t) :
    t.InOrder ∧
      (StepFn.Throughout step Attended start acts <->
        StepFn.Meets step LeavesNoneBehind start acts) ∧
      (StepFn.Meets step LeavesNoneBehind start acts -> t.AtRest ->
        t.shutdown = false -> t.base.passed = connections t.arrived) := by
  have horder := StepFn.run_invariant
    (fun _ _ _ h hstep => step_inOrder h hstep) start_inOrder hrun
  have hiff : StepFn.Throughout step Attended start acts <->
      StepFn.Meets step LeavesNoneBehind start acts :=
    StepFn.throughout_iff_meets
      (fun s a s' hs h hstep => step_attended_iff h hs hstep)
      (fun hshutdown => by cases hshutdown)
      (StepFn.meets_of_invariant (fun _ _ _ h hstep => step_inv h hstep)
        start_inv acts) hrun
  refine ⟨horder, hiff, ?_⟩
  intro hmeets
  exact passed_atRest horder (StepFn.throughout_last (hiff.mpr hmeets) hrun)

instance decidableLeavesNoneBehind (s : Backlog) :
    (a : Action) -> Decidable (s.LeavesNoneBehind a)
  | Action.proceed =>
      decidable_of_iff
        (s.phase = Phase.leaving -> s.shutdown = false ->
          s.readable = true -> s.edge = true)
        (by rw [readable_iff]; rfl)
  | Action.connects _ | Action.aborts | Action.wake | Action.wait _
  | Action.accept _ | Action.listen | Action.stop => isTrue trivial

def twoConnect : List Action :=
  [Action.connects 7, Action.listen, Action.wait EPOLLIN, Action.proceed,
    Action.accept none, Action.connects 8, Action.proceed,
    Action.accept none, Action.proceed, Action.accept none,
    Action.wait EPOLLIN, Action.proceed, Action.accept none]

theorem connections_inOrder_attended_twoConnect :
    exists t, StepFn.run step start twoConnect = some t ∧ t.InOrder ∧
      StepFn.Throughout step Attended start twoConnect ∧
      t.base.passed = [7, 8] := by
  have hmeets : StepFn.Meets step LeavesNoneBehind start twoConnect := by
    decide +kernel
  rcases connections_inOrder_attended twoConnect _ rfl with
    ⟨horder, hiff, hpassed⟩
  exact ⟨_, rfl, horder, hiff.mpr hmeets, hpassed hmeets ⟨rfl, rfl⟩ rfl⟩

/-- The process is out of descriptors: the connection is left in the queue. -/
example : ¬ StepFn.Meets step LeavesNoneBehind start
    [Action.listen, Action.connects 7, Action.wait EPOLLIN, Action.proceed,
      Action.accept (some (Errno.other 24)), Action.proceed] := by
  decide +kernel

end Backlog

end MoonNet
