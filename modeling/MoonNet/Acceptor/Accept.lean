import MoonNet.Foundation.Loop
import MoonNet.Kernel.Results

/-!
# Accepting connections

`handle_accept` takes connections off the queue of an edge-triggered listening
socket until `accept` fails, for whatever reason.  It has emptied the queue if
the failure is `EAGAIN`, so transient failures are what leaves connections
behind.
-/

namespace MoonNet

open Foundation
open Kernel

/-- What the next calls of `accept` meet, before the queue is empty. -/
inductive Arrival where
  | connected (cfd : Nat)
  | aborted
  | interrupted
deriving DecidableEq, Repr

/-- What an `accept` call returns. -/
inductive AcceptResult where
  | failed (errno : Errno)
  | accepted (cfd : Nat)
deriving DecidableEq, Repr

def ECONNABORTED : Errno :=
  Errno.other 103

def accept : List Arrival -> AcceptResult × List Arrival
  | [] => (AcceptResult.failed Errno.eagain, [])
  | Arrival.connected cfd :: rest => (AcceptResult.accepted cfd, rest)
  | Arrival.aborted :: rest => (AcceptResult.failed ECONNABORTED, rest)
  | Arrival.interrupted :: rest => (AcceptResult.failed Errno.eintr, rest)

def connections (arrivals : List Arrival) : List Nat :=
  arrivals.filterMap fun a =>
    match a with
    | Arrival.connected cfd => some cfd
    | Arrival.aborted => none
    | Arrival.interrupted => none

/--
A listening socket with `cb_`, if it is set.  `passed` are the arguments of the
calls of `cb_` so far, `results` is what the calls of `accept` have returned,
and `reported` are the error numbers that `perror` has printed.
-/
structure Acceptor where
  cb : Bool
  arrivals : List Arrival
  passed : List Nat
  results : List AcceptResult
  reported : List Errno
deriving DecidableEq

namespace Acceptor

/-- `if (cb_) cb_(cfd);` on a descriptor that is non-blocking by now. -/
def pass (s : Acceptor) (cfd : Nat) : Acceptor :=
  if s.cb then { s with passed := s.passed ++ [cfd] } else s

/-- The body of the loop after the call of `accept`. -/
def onResult (s : Acceptor) : AcceptResult -> Round Acceptor
  | AcceptResult.failed errno =>
      if errno.wouldBlock then Round.leave s
      else Round.leave { s with reported := s.reported ++ [errno] }
  | AcceptResult.accepted cfd => Round.again (s.pass cfd)

/-- The body of the loop in `handle_accept`. -/
def round (s : Acceptor) : Round Acceptor :=
  let r := accept s.arrivals
  { s with arrivals := r.snd, results := s.results ++ [r.fst] }.onResult r.fst

/-- A call of `handle_accept` in the state `s` returns in the state `t`. -/
def HandleAccept (s t : Acceptor) : Prop :=
  LoopReturns round s t

/--
Nothing is left behind: each connection has been passed on once, and the last
call of `accept` has found the queue empty.
-/
structure Complete (s t : Acceptor) : Prop where
  passed : t.passed = s.passed ++ if s.cb then connections s.arrivals else []
  blocked : t.results.getLast? = some (AcceptResult.failed Errno.eagain)

/-- No call of `accept` fails but the last one. -/
def Untroubled (arrivals : List Arrival) : Prop :=
  forall a, a ∈ arrivals -> exists cfd, a = Arrival.connected cfd

theorem untroubled_cons {cfd : Nat} {rest : List Arrival} :
    Untroubled (Arrival.connected cfd :: rest) <-> Untroubled rest := by
  constructor
  · intro h a ha
    exact h a (List.mem_cons_of_mem _ ha)
  · intro h a ha
    cases ha with
    | head => exact ⟨cfd, rfl⟩
    | tail _ ha => exact h a ha

/-!
# One round
-/

def taken (s : Acceptor) (cfd : Nat) (rest : List Arrival) : Acceptor :=
  { s with
    arrivals := rest
    results := s.results ++ [AcceptResult.accepted cfd] }.pass cfd

theorem round_nil {s : Acceptor} (harrivals : s.arrivals = []) :
    s.round = Round.leave { s with
      arrivals := []
      results := s.results ++ [AcceptResult.failed Errno.eagain] } := by
  unfold round
  rw [harrivals]
  rfl

theorem round_connected {s : Acceptor} {cfd : Nat} {rest : List Arrival}
    (harrivals : s.arrivals = Arrival.connected cfd :: rest) :
    s.round = Round.again (s.taken cfd rest) := by
  unfold round
  rw [harrivals]
  rfl

theorem round_failed {s : Acceptor} {a : Arrival} {rest : List Arrival}
    (harrivals : s.arrivals = a :: rest)
    (hfailed : forall cfd, a ≠ Arrival.connected cfd) :
    exists errno, errno.wouldBlock = false ∧
      s.round = Round.leave { s with
        arrivals := rest
        results := s.results ++ [AcceptResult.failed errno]
        reported := s.reported ++ [errno] } := by
  unfold round
  rw [harrivals]
  cases a with
  | connected cfd => exact absurd rfl (hfailed cfd)
  | aborted => exact ⟨ECONNABORTED, rfl, rfl⟩
  | interrupted => exact ⟨Errno.eintr, rfl, rfl⟩

@[simp] theorem taken_cb (s : Acceptor) (cfd : Nat) (rest : List Arrival) :
    (s.taken cfd rest).cb = s.cb := by
  unfold taken pass
  split <;> rfl

@[simp] theorem taken_arrivals (s : Acceptor) (cfd : Nat)
    (rest : List Arrival) : (s.taken cfd rest).arrivals = rest := by
  unfold taken pass
  split <;> rfl

theorem taken_passed (s : Acceptor) (cfd : Nat) (rest : List Arrival) :
    (s.taken cfd rest).passed = s.passed ++ if s.cb then [cfd] else [] := by
  unfold taken pass
  cases hcb : s.cb with
  | false => exact (List.append_nil _).symm
  | true => rfl

theorem round_again {s s' : Acceptor} (hround : s.round = Round.again s') :
    exists cfd rest, s.arrivals = Arrival.connected cfd :: rest ∧
      s' = s.taken cfd rest := by
  cases harrivals : s.arrivals with
  | nil =>
      rw [round_nil harrivals] at hround
      cases hround
  | cons a rest =>
      by_cases hconnected : exists cfd, a = Arrival.connected cfd
      · rcases hconnected with ⟨cfd, rfl⟩
        rw [round_connected harrivals] at hround
        cases hround
        exact ⟨cfd, rest, rfl, rfl⟩
      · rcases round_failed harrivals (not_exists.mp hconnected) with
          ⟨errno, _, hleave⟩
        rw [hleave] at hround
        cases hround

theorem round_leave {s t : Acceptor} (hround : s.round = Round.leave t) :
    s.arrivals = [] ∧ t = { s with
        arrivals := []
        results := s.results ++ [AcceptResult.failed Errno.eagain] } ∨
      exists a rest errno, s.arrivals = a :: rest ∧
        (forall cfd, a ≠ Arrival.connected cfd) ∧ errno.wouldBlock = false ∧
          t = { s with
            arrivals := rest
            results := s.results ++ [AcceptResult.failed errno]
            reported := s.reported ++ [errno] } := by
  cases harrivals : s.arrivals with
  | nil =>
      rw [round_nil harrivals] at hround
      cases hround
      exact Or.inl ⟨rfl, rfl⟩
  | cons a rest =>
      by_cases hconnected : exists cfd, a = Arrival.connected cfd
      · rcases hconnected with ⟨cfd, rfl⟩
        rw [round_connected harrivals] at hround
        cases hround
      · have hfailed := not_exists.mp hconnected
        rcases round_failed harrivals hfailed with ⟨errno, herrno, hleave⟩
        rw [hleave] at hround
        cases hround
        exact Or.inr ⟨a, rest, errno, rfl, hfailed, herrno, rfl⟩

theorem round_again_arrivals {s s' : Acceptor}
    (hround : s.round = Round.again s') :
    s'.arrivals.length < s.arrivals.length := by
  rcases round_again hround with ⟨cfd, rest, harrivals, rfl⟩
  rw [harrivals, taken_arrivals]
  exact Nat.lt_succ_self _

/-!
# When a call is complete
-/

theorem complete_nil {s : Acceptor} (harrivals : s.arrivals = []) :
    s.Complete { s with
      arrivals := []
      results := s.results ++ [AcceptResult.failed Errno.eagain] } where
  passed := by
    rw [harrivals]
    show s.passed = s.passed ++ if _ then [] else []
    rw [ite_self, List.append_nil]
  blocked := List.getLast?_concat

theorem not_complete_failed {s : Acceptor} {rest : List Arrival}
    {errno : Errno} {reported : List Errno} (herrno : errno.wouldBlock = false) :
    ¬ s.Complete { s with
      arrivals := rest
      results := s.results ++ [AcceptResult.failed errno]
      reported := reported } := by
  intro h
  have hblocked := h.blocked
  rw [List.getLast?_concat] at hblocked
  cases hblocked
  cases herrno

theorem complete_cons {s t : Acceptor} {cfd : Nat} {rest : List Arrival}
    (harrivals : s.arrivals = Arrival.connected cfd :: rest) :
    s.Complete t <-> (s.taken cfd rest).Complete t := by
  have hpassed : (s.passed ++ if s.cb then connections s.arrivals else []) =
      (s.taken cfd rest).passed ++
        if (s.taken cfd rest).cb then connections (s.taken cfd rest).arrivals
        else [] := by
    rw [harrivals, taken_passed, taken_cb, taken_arrivals]
    cases s.cb with
    | false =>
        show s.passed ++ [] = s.passed ++ [] ++ []
        rw [List.append_nil, List.append_nil]
    | true =>
        show s.passed ++ cfd :: connections rest =
          s.passed ++ [cfd] ++ connections rest
        rw [List.append_assoc]
        rfl
  constructor
  · intro h
    exact { passed := hpassed ▸ h.passed, blocked := h.blocked }
  · intro h
    exact { passed := hpassed ▸ h.passed, blocked := h.blocked }

theorem complete_iff_untroubled {s t : Acceptor} (h : HandleAccept s t) :
    s.Complete t <-> Untroubled s.arrivals := by
  refine LoopReturns.induction (fun s t : Acceptor =>
    s.Complete t <-> Untroubled s.arrivals) ?_ ?_ h
  · intro s t hround
    rcases round_leave hround with
      ⟨harrivals, rfl⟩ | ⟨a, rest, errno, harrivals, hfailed, herrno, rfl⟩
    · rw [harrivals]
      exact iff_of_true (complete_nil harrivals) fun a ha => by cases ha
    · refine iff_of_false (not_complete_failed herrno) ?_
      intro huntroubled
      rcases huntroubled a (harrivals ▸ List.mem_cons_self) with ⟨cfd, ha⟩
      exact hfailed cfd ha
  · intro s s' t hround _ hrest
    rcases round_again hround with ⟨cfd, rest, harrivals, rfl⟩
    rw [complete_cons harrivals, hrest, taken_arrivals, harrivals,
      untroubled_cons]

/--
One call of `handle_accept` returns, and it leaves nothing behind exactly if no
`accept` fails for a transient reason.
-/
theorem handleAccept_complete_iff (s : Acceptor) :
    (exists t, HandleAccept s t ∧ s.Complete t) <-> Untroubled s.arrivals := by
  constructor
  · rintro ⟨t, hreturns, h⟩
    exact (complete_iff_untroubled hreturns).mp h
  · intro huntroubled
    rcases exists_returns round_again_arrivals s with ⟨t, ht⟩
    exact ⟨t, ht, (complete_iff_untroubled ht).mpr huntroubled⟩

def ready (arrivals : List Arrival) : Acceptor where
  cb := true
  arrivals := arrivals
  passed := []
  results := []
  reported := []

/-- A signal during the first `accept` leaves the connection in the queue. -/
theorem handleAccept_stops_at_interrupt :
    ¬ exists t,
      HandleAccept (ready [Arrival.interrupted, Arrival.connected 7]) t ∧
        (ready [Arrival.interrupted, Arrival.connected 7]).Complete t := by
  rintro ⟨t, hreturns, h⟩
  have hleft : HandleAccept (ready [Arrival.interrupted, Arrival.connected 7])
      { ready [Arrival.connected 7] with
        results := [AcceptResult.failed Errno.eintr]
        reported := [Errno.eintr] } :=
    LoopReturns.of_leave rfl
  rw [hreturns.unique hleft] at h
  cases h.blocked

end Acceptor

/-!
# The wrapper

`Accept` of the wrapper library, which `handle_accept` does not use, calls
`accept` again after a transient failure.
-/

namespace Wrap

/-- `errno == ECONNABORTED || errno == EINTR` -/
def transient (errno : Errno) : Bool :=
  errno == ECONNABORTED || errno == Errno.eintr

/-- `Accept`, where a failure stands for `-1` or for `perr_exit`. -/
def Accept : List Arrival -> AcceptResult × List Arrival
  | [] => accept []
  | a :: rest =>
      match accept (a :: rest) with
      | (AcceptResult.accepted cfd, rest) => (AcceptResult.accepted cfd, rest)
      | (AcceptResult.failed errno, _) =>
          if transient errno then Accept rest
          else (AcceptResult.failed errno, rest)

theorem Accept_connections (arrivals : List Arrival) :
    (Accept arrivals).fst =
        (match (connections arrivals).head? with
        | none => AcceptResult.failed Errno.eagain
        | some cfd => AcceptResult.accepted cfd) ∧
      connections (Accept arrivals).snd = (connections arrivals).tail := by
  induction arrivals with
  | nil => exact ⟨rfl, rfl⟩
  | cons a rest ih =>
      cases a with
      | connected cfd => exact ⟨rfl, rfl⟩
      | aborted => exact ih
      | interrupted => exact ih

end Wrap

end MoonNet
