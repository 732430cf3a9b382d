import MoonNet.Foundation.Loop
import MoonNet.Server.BaseEvent

/-!
# Closing a buffered event

`closed_` says both that the event does not listen and that its descriptor is
closed.  `del_listen` reports the bytes left in `inbuff_` to the read callback
before it sets `closed_`, so a callback that closes the event re-enters it.  The
activations of the calls in progress are kept on a stack.
-/

namespace MoonNet

open Foundation

/-- The constructor, with the mask `events` for its descriptor. -/
def Bfevent.construct (events : Mask) : Bfevent where
  ev := Interest.enableListen { events := events, registered := none }
  inbuff := ValidBuffer.fresh
  outbuff := ValidBuffer.fresh
  readcb := false
  writecb := false
  eventcb := false
  closed := false

namespace Closing

/--
What user code does with its event.  `work` is anything that neither reads nor
writes `closed_`: using the buffers, setting callbacks, changing the mask.
-/
inductive Act where
  | work (effect : Conn -> Conn)
  | enableListen
  | delListen
  | close
  | delev
  | handleClose

inductive Frame where
  | user (rest : List Act)
  | delListen
  | closeEvent
  | delev

/--
What is called on an event.  `enableListen`, `close` and `handleClose` stand for
the beginning of a call, also one by the read callback, by `server::delev` or by
the destructor, which itself is `destruct`; and `ended` for the end of a
`del_listen`, also one within another call, or of the rest of a `close`.
-/
inductive Call where
  | enableListen
  | ended
  | close
  | handleClose
  | destruct
deriving DecidableEq, Repr

/--
`removals` counts the calls of `del_event` for the inner event, `closes` those
of `::close(fd_)`, and `pending` the entries in the queue of deferred deletions.
The read callback has been called `invocations` times; `calls` is the order of
all calls.
-/
structure State where
  conn : Conn
  removals : Nat
  closes : Nat
  pending : Nat
  invocations : Nat
  calls : List Call
  stack : List Frame

namespace State

def closed (s : State) : Bool :=
  s.conn.bev.closed

/-- `del_listen` begins with a call of the read callback. -/
def reports (s : State) : Bool :=
  (BaseEvent.bfevent s.conn).reportsRest

def push (s : State) (f : Frame) : State :=
  { s with stack := f :: s.stack }

def record (s : State) (c : Call) : State :=
  { s with calls := s.calls ++ [c] }

def work (s : State) (effect : Conn -> Conn) : State :=
  { s with conn := { effect s.conn with bev.closed := s.closed } }

/-- A descriptor that is closed cannot be added to the loop again. -/
def enableListen (s : State) : State :=
  let s := s.record Call.enableListen
  if s.closed then
    { s with
      conn.bev.ev :=
        if s.closes = 0 then s.conn.bev.ev.enableListen else s.conn.bev.ev
      conn.bev.closed := false }
  else s

/-- `del_listen` from the tests of `outbuff_` on. -/
def finishDelListen (s : State) : State :=
  { s.record Call.ended with
    conn := s.conn.delListen
    removals := s.removals + 1 }

/-- The callback's `n`-th call, counted from 0, does `script n`. -/
def delListen (script : Nat -> List Act) (s : State) : State :=
  if s.reports then
    ({ s with invocations := s.invocations + 1 }.push Frame.delListen).push
      (Frame.user (script s.invocations))
  else s.finishDelListen

/-- `::close(fd_); closed_ = true;` -/
def finishCloseEvent (s : State) : State :=
  { s.record Call.ended with
    conn.bev.closed := true
    closes := s.closes + 1 }

def closeEvent (script : Nat -> List Act) (s : State) : State :=
  let s := s.record Call.close
  if s.closed then s
  else (s.push Frame.closeEvent).delListen script

def handleClose (s : State) : State :=
  { s.record Call.handleClose with
    conn := s.conn.disableCb
    pending := s.pending + 1 }

def act (script : Nat -> List Act) (s : State) : Act -> State
  | Act.work effect => s.work effect
  | Act.enableListen => s.enableListen
  | Act.delListen => s.delListen script
  | Act.close => s.closeEvent script
  | Act.delev => (s.push Frame.delev).delListen script
  | Act.handleClose => s.handleClose

def body (script : Nat -> List Act) (s : State) : Round State :=
  match s.stack with
  | [] => Round.leave s
  | Frame.user [] :: rest => Round.again { s with stack := rest }
  | Frame.user (a :: acts) :: rest =>
      Round.again ({ s with stack := Frame.user acts :: rest }.act script a)
  | Frame.delListen :: rest =>
      Round.again { s with stack := rest }.finishDelListen
  | Frame.closeEvent :: rest =>
      Round.again { s with stack := rest }.finishCloseEvent
  | Frame.delev :: rest => Round.again { s with stack := rest }.handleClose

def perform (s : State) (acts : List Act) : State :=
  { s with stack := [Frame.user acts] }

/--
`~bfevent`, which the loop calls for the entries of its queue, and the owner for
an event that has not been queued.
-/
def destroy (script : Nat -> List Act) (s : State) : State :=
  ({ s with stack := [] }.record Call.destruct).closeEvent script

end State

def start (events : Mask) : State where
  conn := { bev := Bfevent.construct events
            wire := { accepted := [], offered := [] } }
  removals := 0
  closes := 0
  pending := 0
  invocations := 0
  calls := []
  stack := []

/--
How often an event is deleted if the first destructor runs from `s` to `t`: a
queued event once for each entry, any other one by its owner first.
-/
def deletedTimes (s t : State) : Nat :=
  if s.pending = 0 then t.pending + 1 else t.pending

/-!
# The order of calls
-/

/--
The event listens after these calls if it did before (`b`): no `del_listen` and
no `close` has come to its end since, or since the last `enable_listen`.
-/
def listeningFrom (b : Bool) (calls : List Call) : Bool :=
  calls.foldl (fun b c =>
    match c with
    | Call.enableListen => true
    | Call.ended => false
    | _ => b) b

def listening (calls : List Call) : Bool :=
  listeningFrom true calls

/--
The order of calls that closes the descriptor once.  Some `close`, it may be
that of the destructor, begins while the event listens, and no other one does;
and the event is queued once at most, and not by its destructor.
-/
structure Orderly (calls : List Call) : Prop where
  closed : exists pre post, calls = pre ++ Call.close :: post ∧
    listening pre = true
  once : forall pre mid post,
    calls = pre ++ Call.close :: (mid ++ Call.close :: post) ->
      listening pre = true -> listening (pre ++ Call.close :: mid) = false
  queued : calls.count Call.handleClose <= 1
  deleted : forall pre post, calls = pre ++ Call.destruct :: post ->
    Call.handleClose ∉ post

/-- The calls of `close` that begin while the event listens. -/
def closesFrom : Bool -> List Call -> Nat
  | _, [] => 0
  | _, Call.enableListen :: rest => closesFrom true rest
  | _, Call.ended :: rest => closesFrom false rest
  | b, Call.close :: rest => b.toNat + closesFrom b rest
  | b, _ :: rest => closesFrom b rest

theorem listeningFrom_append (b : Bool) (xs ys : List Call) :
    listeningFrom b (xs ++ ys) = listeningFrom (listeningFrom b xs) ys :=
  List.foldl_append

theorem closesFrom_append (b : Bool) (xs ys : List Call) :
    closesFrom b (xs ++ ys) =
      closesFrom b xs + closesFrom (listeningFrom b xs) ys := by
  induction xs generalizing b with
  | nil => exact (Nat.zero_add _).symm
  | cons c rest ih =>
      cases c with
      | enableListen => exact ih true
      | ended => exact ih false
      | close =>
          show b.toNat + closesFrom b (rest ++ ys) =
            b.toNat + closesFrom b rest + closesFrom (listeningFrom b rest) ys
          rw [ih, Nat.add_assoc]
      | handleClose => exact ih b
      | destruct => exact ih b

theorem closesFrom_split (b : Bool) (pre post : List Call) :
    closesFrom b (pre ++ Call.close :: post) =
      closesFrom b pre + ((listeningFrom b pre).toNat +
        closesFrom (listeningFrom b pre) post) :=
  closesFrom_append b pre (Call.close :: post)

theorem closesFrom_eq_zero {b : Bool} {calls : List Call}
    (hnone : forall pre post, calls = pre ++ Call.close :: post ->
      listeningFrom b pre = false) : closesFrom b calls = 0 := by
  induction calls generalizing b with
  | nil => rfl
  | cons c rest ih =>
      have hrest : closesFrom (listeningFrom b [c]) rest = 0 := by
        apply ih
        intro pre post hsplit
        have hmore := hnone (c :: pre) post (by rw [hsplit]; rfl)
        exact hmore
      cases c with
      | enableListen => exact hrest
      | ended => exact hrest
      | close =>
          have hb : b = false := hnone [] rest rfl
          subst hb
          show 0 + closesFrom false rest = 0
          rw [Nat.zero_add]
          exact hrest
      | handleClose => exact hrest
      | destruct => exact hrest

theorem closesFrom_eq_one_iff (calls : List Call) :
    closesFrom true calls = 1 <->
      (exists pre post, calls = pre ++ Call.close :: post ∧
        listening pre = true) ∧
      forall pre mid post,
        calls = pre ++ Call.close :: (mid ++ Call.close :: post) ->
          listening pre = true ->
            listening (pre ++ Call.close :: mid) = false := by
  have hmiddle : forall pre mid, listening pre = true ->
      listening (pre ++ Call.close :: mid) = listeningFrom true mid := by
    intro pre mid hpre
    have happend := listeningFrom_append true pre (Call.close :: mid)
    rw [show listeningFrom true pre = true from hpre] at happend
    exact happend
  constructor
  · intro hone
    constructor
    · by_contra hnone
      have hzero : closesFrom true calls = 0 := by
        apply closesFrom_eq_zero
        intro pre post hsplit
        by_contra hlive
        exact hnone ⟨pre, post, hsplit, eq_true_of_ne_false hlive⟩
      omega
    · intro pre mid post hsplit hpre
      rw [hmiddle pre mid hpre]
      rw [hsplit, closesFrom_split, closesFrom_split,
        show listeningFrom true pre = true from hpre] at hone
      cases hmid : listeningFrom true mid with
      | false => rfl
      | true =>
          rw [hmid] at hone
          simp only [Bool.toNat_true] at hone
          omega
  · rintro ⟨⟨pre, post, hsplit, hpre⟩, honce⟩
    have hbefore : closesFrom true pre = 0 := by
      apply closesFrom_eq_zero
      intro pre' mid hsplit'
      by_contra hlive
      have hearlier : listening pre' = true := eq_true_of_ne_false hlive
      have hlater := honce pre' mid post
        (by rw [hsplit, hsplit', List.append_assoc]; rfl) hearlier
      rw [<- hsplit', hpre] at hlater
      cases hlater
    have hafter : closesFrom true post = 0 := by
      apply closesFrom_eq_zero
      intro mid post' hsplit'
      rw [<- hmiddle pre mid hpre]
      exact honce pre mid post' (by rw [hsplit, hsplit']) hpre
    rw [hsplit, closesFrom_split,
      show listeningFrom true pre = true from hpre, hbefore, hafter]
    rfl

/-!
# What a step does

`closed_` tells whether the event listens.  So each `close` that begins while it
listens closes the descriptor at its end, and each `del_listen` takes the inner
event off its loop at its end.  The activations in progress are counted for what
they are going to do.
-/

def Frame.isCloseEvent : Frame -> Bool
  | closeEvent => true
  | _ => false

def Frame.isDelListen : Frame -> Bool
  | delListen => true
  | _ => false

namespace State

def closings (s : State) : Nat :=
  s.closes + (s.stack.filter Frame.isCloseEvent).length

def deletions (s : State) : Nat :=
  s.removals + (s.stack.filter Frame.isDelListen).length

structure Agrees (s : State) : Prop where
  closed : s.closed = !listening s.calls
  closings : s.closings = closesFrom true s.calls
  pending : s.pending = s.calls.count Call.handleClose

theorem Agrees.stack {s : State} (h : s.Agrees) (stack : List Frame)
    (hsame : (stack.filter Frame.isCloseEvent).length =
      (s.stack.filter Frame.isCloseEvent).length) :
    Agrees { s with stack := stack } where
  closed := h.closed
  closings := by
    have hclosings := h.closings
    unfold State.closings at hclosings ⊢
    rw [hsame]
    exact hclosings
  pending := h.pending

theorem listening_snoc (calls : List Call) (c : Call) :
    listening (calls ++ [c]) = listeningFrom (listening calls) [c] :=
  listeningFrom_append true calls [c]

theorem closesFrom_snoc (calls : List Call) (c : Call) :
    closesFrom true (calls ++ [c]) =
      closesFrom true calls + closesFrom (listening calls) [c] :=
  closesFrom_append true calls [c]

theorem count_snoc_other (calls : List Call) {c : Call}
    (hother : c ≠ Call.handleClose) :
    (calls ++ [c]).count Call.handleClose =
      calls.count Call.handleClose := by
  have hnone : List.count Call.handleClose [c] = 0 := by
    rw [List.count_eq_zero, List.mem_singleton]
    exact hother.symm
  rw [List.count_append, hnone]
  rfl

section Calls

variable (script : Nat -> List Act) {s : State}

theorem finishDelListen_agrees (h : s.Agrees) : s.finishDelListen.Agrees where
  closed := by
    show true = !listening (s.calls ++ [Call.ended])
    rw [listening_snoc]
    rfl
  closings := by
    show s.closings = closesFrom true (s.calls ++ [Call.ended])
    rw [closesFrom_snoc]
    exact h.closings
  pending := by
    show s.pending = (s.calls ++ [Call.ended]).count Call.handleClose
    rw [count_snoc_other s.calls Call.noConfusion]
    exact h.pending

theorem delListen_agrees (h : s.Agrees) : (s.delListen script).Agrees := by
  unfold delListen
  split
  · exact ⟨h.closed, h.closings, h.pending⟩
  · exact finishDelListen_agrees h

theorem closeEvent_of_closed (h : s.closed = true) :
    s.closeEvent script = s.record Call.close := by
  unfold closeEvent
  exact if_pos h

theorem closeEvent_of_open (h : s.closed = false) :
    s.closeEvent script =
      ((s.record Call.close).push Frame.closeEvent).delListen script := by
  have hopen : (s.record Call.close).closed = false := h
  unfold closeEvent
  dsimp only
  rw [hopen]
  rfl

theorem closeEvent_agrees (h : s.Agrees) : (s.closeEvent script).Agrees := by
  have hlistening : listening (s.calls ++ [Call.close]) = listening s.calls :=
    listening_snoc s.calls Call.close
  have hpending : s.pending =
      (s.calls ++ [Call.close]).count Call.handleClose := by
    rw [count_snoc_other s.calls Call.noConfusion]
    exact h.pending
  have hclosings : closesFrom true (s.calls ++ [Call.close]) =
      s.closings + (listening s.calls).toNat := by
    rw [closesFrom_snoc, h.closings]
    rfl
  cases hclosed : s.closed with
  | true =>
      rw [closeEvent_of_closed script hclosed]
      have hends : listening s.calls = false := by
        simpa [hclosed] using h.closed
      refine ⟨?_, ?_, hpending⟩
      · show s.closed = !listening (s.calls ++ [Call.close])
        rw [hlistening]
        exact h.closed
      · show s.closings = closesFrom true (s.calls ++ [Call.close])
        rw [hclosings, hends]
        rfl
  | false =>
      rw [closeEvent_of_open script hclosed]
      have hlistens : listening s.calls = true := by
        simpa [hclosed] using h.closed
      apply delListen_agrees
      refine ⟨?_, ?_, hpending⟩
      · show s.closed = !listening (s.calls ++ [Call.close])
        rw [hlistening]
        exact h.closed
      · show s.closes + ((s.stack.filter Frame.isCloseEvent).length + 1) =
          closesFrom true (s.calls ++ [Call.close])
        rw [hclosings, hlistens]
        rfl

theorem enableListen_agrees (h : s.Agrees) : s.enableListen.Agrees := by
  have hlistening :
      listening (s.calls ++ [Call.enableListen]) = true :=
    listening_snoc s.calls Call.enableListen
  have hclosings : s.closings =
      closesFrom true (s.calls ++ [Call.enableListen]) := by
    rw [closesFrom_snoc, h.closings]
    rfl
  have hpending : s.pending =
      (s.calls ++ [Call.enableListen]).count Call.handleClose := by
    rw [count_snoc_other s.calls Call.noConfusion]
    exact h.pending
  unfold enableListen
  dsimp only
  split
  · refine ⟨?_, hclosings, hpending⟩
    show false = !listening (s.calls ++ [Call.enableListen])
    rw [hlistening]
    rfl
  · rename_i hopen
    refine ⟨?_, hclosings, hpending⟩
    show s.closed = !listening (s.calls ++ [Call.enableListen])
    rw [hlistening]
    exact eq_false_of_ne_true hopen

theorem handleClose_agrees (h : s.Agrees) : s.handleClose.Agrees where
  closed := by
    show s.closed = !listening (s.calls ++ [Call.handleClose])
    rw [listening_snoc]
    exact h.closed
  closings := by
    show s.closings = closesFrom true (s.calls ++ [Call.handleClose])
    rw [closesFrom_snoc]
    exact h.closings
  pending := by
    show s.pending + 1 =
      (s.calls ++ [Call.handleClose]).count Call.handleClose
    rw [List.count_append, h.pending]
    rfl

theorem act_agrees (h : s.Agrees) (a : Act) : (s.act script a).Agrees := by
  cases a with
  | work effect => exact ⟨h.closed, h.closings, h.pending⟩
  | enableListen => exact enableListen_agrees h
  | delListen => exact delListen_agrees script h
  | close => exact closeEvent_agrees script h
  | delev =>
      exact delListen_agrees script
        (show (s.push Frame.delev).Agrees from h.stack _ rfl)
  | handleClose => exact handleClose_agrees h

theorem finishCloseEvent_agrees {rest : List Frame}
    (h : Agrees { s with stack := Frame.closeEvent :: rest }) :
    ({ s with stack := rest } : State).finishCloseEvent.Agrees where
  closed := by
    show true = !listening (s.calls ++ [Call.ended])
    rw [listening_snoc]
    rfl
  closings := by
    have hclosings := h.closings
    show s.closes + 1 + (rest.filter Frame.isCloseEvent).length =
      closesFrom true (s.calls ++ [Call.ended])
    rw [closesFrom_snoc, <- hclosings]
    show _ = s.closes + ((rest.filter Frame.isCloseEvent).length + 1) + 0
    omega
  pending := by
    show s.pending = (s.calls ++ [Call.ended]).count Call.handleClose
    rw [count_snoc_other s.calls Call.noConfusion]
    exact h.pending

end Calls

theorem body_agrees {script : Nat -> List Act} {s s' : State} (h : s.Agrees)
    (hbody : s.body script = Round.again s') : s'.Agrees := by
  rcases s with ⟨conn, removals, closes, pending, invocations, calls, stack⟩
  cases stack with
  | nil => cases hbody
  | cons f rest =>
      cases f with
      | user acts =>
          cases acts with
          | nil =>
              cases hbody
              exact h.stack rest rfl
          | cons a acts =>
              cases hbody
              exact act_agrees script
                (h.stack (Frame.user acts :: rest) rfl) a
      | delListen =>
          cases hbody
          exact finishDelListen_agrees (h.stack rest rfl)
      | closeEvent =>
          cases hbody
          exact finishCloseEvent_agrees
            (s := ⟨conn, removals, closes, pending, invocations, calls, []⟩) h
      | delev =>
          cases hbody
          exact handleClose_agrees (h.stack rest rfl)

/-!
## What is added to the calls and the removals
-/

def Longer (s s' : State) : Prop :=
  exists more, s'.calls = s.calls ++ more ∧ Call.destruct ∉ more

theorem Longer.refl (s : State) : Longer s s :=
  ⟨[], (List.append_nil _).symm, nofun⟩

theorem Longer.trans {s t u : State} (h : Longer s t) (h' : Longer t u) :
    Longer s u := by
  rcases h with ⟨xs, ht, hxs⟩
  rcases h' with ⟨ys, hu, hys⟩
  refine ⟨xs ++ ys, by rw [hu, ht, List.append_assoc], ?_⟩
  rw [List.mem_append]
  exact fun hmem => hmem.elim hxs hys

theorem Longer.record {s s' : State} {c : Call}
    (hs' : s'.calls = s.calls ++ [c]) (hother : c ≠ Call.destruct) :
    Longer s s' := by
  refine ⟨[c], hs', ?_⟩
  rw [List.mem_singleton]
  exact hother.symm

section Calls

variable (script : Nat -> List Act) (s : State)

theorem delListen_longer : Longer s (s.delListen script) := by
  unfold delListen
  split
  · exact Longer.refl s
  · exact Longer.record rfl Call.noConfusion

theorem closeEvent_longer : Longer s (s.closeEvent script) := by
  have hbegun : Longer s (s.record Call.close) :=
    Longer.record rfl Call.noConfusion
  cases hclosed : s.closed with
  | true =>
      rw [closeEvent_of_closed script hclosed]
      exact hbegun
  | false =>
      rw [closeEvent_of_open script hclosed]
      exact hbegun.trans (delListen_longer script
        ((s.record Call.close).push Frame.closeEvent))

theorem enableListen_longer : Longer s s.enableListen := by
  unfold enableListen
  dsimp only
  split
  · exact Longer.record rfl Call.noConfusion
  · exact Longer.record rfl Call.noConfusion

theorem act_longer (a : Act) : Longer s (s.act script a) := by
  cases a with
  | work effect => exact Longer.refl s
  | enableListen => exact enableListen_longer s
  | delListen => exact delListen_longer script s
  | close => exact closeEvent_longer script s
  | delev => exact delListen_longer script (s.push Frame.delev)
  | handleClose => exact Longer.record rfl Call.noConfusion

theorem delListen_deletions :
    (s.delListen script).deletions = s.deletions + 1 := by
  unfold delListen
  split
  · rfl
  · show s.removals + 1 + _ = s.removals + _ + 1
    exact Nat.add_right_comm _ _ _

theorem closeEvent_deletions :
    s.deletions <= (s.closeEvent script).deletions := by
  cases hclosed : s.closed with
  | true =>
      rw [closeEvent_of_closed script hclosed]
      exact Nat.le_refl _
  | false =>
      rw [closeEvent_of_open script hclosed, delListen_deletions]
      exact Nat.le_succ _

theorem act_deletions (a : Act) :
    s.deletions <= (s.act script a).deletions := by
  cases a with
  | work effect => exact Nat.le_refl _
  | enableListen =>
      show s.deletions <= s.enableListen.deletions
      unfold enableListen
      dsimp only
      split <;> exact Nat.le_refl _
  | delListen => exact Nat.le_of_lt (Nat.lt_of_succ_le
      (Nat.le_of_eq (delListen_deletions script s).symm))
  | close => exact closeEvent_deletions script s
  | delev => exact Nat.le_of_lt (Nat.lt_of_succ_le
      (Nat.le_of_eq (delListen_deletions script (s.push Frame.delev)).symm))
  | handleClose => exact Nat.le_refl _

end Calls

theorem body_grows {script : Nat -> List Act} {s s' : State}
    (hbody : s.body script = Round.again s') :
    Longer s s' ∧ s.deletions <= s'.deletions := by
  rcases s with ⟨conn, removals, closes, pending, invocations, calls, stack⟩
  cases stack with
  | nil => cases hbody
  | cons f rest =>
      cases f with
      | user acts =>
          cases acts with
          | nil =>
              cases hbody
              exact ⟨Longer.refl _, Nat.le_refl _⟩
          | cons a acts =>
              cases hbody
              exact ⟨act_longer script _ a, act_deletions script
                ⟨conn, removals, closes, pending, invocations, calls,
                  Frame.user acts :: rest⟩ a⟩
      | delListen =>
          cases hbody
          refine ⟨Longer.record rfl Call.noConfusion, ?_⟩
          show removals + ((rest.filter Frame.isDelListen).length + 1) <=
            removals + 1 + (rest.filter Frame.isDelListen).length
          omega
      | closeEvent =>
          cases hbody
          exact ⟨Longer.record rfl Call.noConfusion, Nat.le_refl _⟩
      | delev =>
          cases hbody
          exact ⟨Longer.record rfl Call.noConfusion, Nat.le_refl _⟩

theorem body_leave {script : Nat -> List Act} {s t : State}
    (hbody : s.body script = Round.leave t) : s.stack = [] ∧ t = s := by
  rcases s with ⟨conn, removals, closes, pending, invocations, calls, stack⟩
  cases stack with
  | nil =>
      cases hbody
      exact ⟨rfl, rfl⟩
  | cons f rest =>
      cases f with
      | user acts => cases acts <;> cases hbody
      | delListen => cases hbody
      | closeEvent => cases hbody
      | delev => cases hbody

structure Grown (s t : State) : Prop where
  longer : Longer s t
  deletions : s.deletions <= t.deletions
  idle : t.stack = []

theorem returns_grown {script : Nat -> List Act} {s t : State}
    (h : LoopReturns (body script) s t) : Grown s t := by
  refine LoopReturns.induction Grown ?_ ?_ h
  · intro s t hbody
    rcases body_leave hbody with ⟨hidle, rfl⟩
    exact ⟨Longer.refl _, Nat.le_refl _, hidle⟩
  · intro s s' t hbody _ hrest
    have hstep := body_grows hbody
    exact ⟨hstep.left.trans hrest.longer,
      Nat.le_trans hstep.right hrest.deletions, hrest.idle⟩

theorem returns_agrees {script : Nat -> List Act} {s t : State}
    (h : LoopReturns (body script) s t) : s.Agrees -> t.Agrees := by
  refine LoopReturns.induction (fun s t : State => s.Agrees -> t.Agrees) ?_ ?_ h
  · intro s t hbody hs
    rw [(body_leave hbody).right]
    exact hs
  · intro s s' t hbody _ hrest hs
    exact hrest (body_agrees hs hbody)

end State

/-!
# One close of the descriptor
-/

theorem start_agrees (events : Mask) (acts : List Act) :
    ((start events).perform acts).Agrees :=
  ⟨rfl, rfl, rfl⟩

theorem destruct_agrees {s : State} (h : s.Agrees) :
    (s.record Call.destruct).Agrees where
  closed := by
    show s.closed = !listening (s.calls ++ [Call.destruct])
    rw [State.listening_snoc]
    exact h.closed
  closings := by
    show s.closings = closesFrom true (s.calls ++ [Call.destruct])
    rw [State.closesFrom_snoc]
    exact h.closings
  pending := by
    show s.pending = (s.calls ++ [Call.destruct]).count Call.handleClose
    rw [State.count_snoc_other s.calls Call.noConfusion]
    exact h.pending

structure Ended (s t : State) : Prop where
  closes : t.closes = closesFrom true t.calls
  calls : exists more, t.calls = s.calls ++ Call.destruct :: more ∧
    Call.destruct ∉ s.calls ∧ Call.destruct ∉ more
  pending : s.pending = s.calls.count Call.handleClose
  pending_last : t.pending = t.calls.count Call.handleClose

theorem ended_of_returns {script : Nat -> List Act} {acts : List Act}
    {events : Mask} {s t : State}
    (hlife : LoopReturns (State.body script) ((start events).perform acts) s)
    (hend : LoopReturns (State.body script) (s.destroy script) t) :
    Ended s t := by
  have hgrown := State.returns_grown hlife
  have hs := State.returns_agrees hlife (start_agrees events acts)
  have hdestroy : (s.destroy script).Agrees := by
    have hsame : { s with stack := [] } = s := by
      rw [← hgrown.idle]
    unfold State.destroy
    rw [hsame]
    exact State.closeEvent_agrees script (destruct_agrees hs)
  have ht := State.returns_agrees hend hdestroy
  have hidle := (State.returns_grown hend).idle
  have hlonger := (State.closeEvent_longer script
    (({ s with stack := [] } : State).record Call.destruct)).trans
      (State.returns_grown hend).longer
  rcases hlonger with ⟨more, hmore, hnone⟩
  rcases hgrown.longer with ⟨first, hfirst, hfirstNone⟩
  have hcalls : s.calls = first := hfirst
  refine ⟨?_, ⟨more, ?_, hcalls ▸ hfirstNone, hnone⟩, hs.pending, ht.pending⟩
  · have hclosings := ht.closings
    unfold State.closings at hclosings
    rw [hidle] at hclosings
    exact hclosings
  · rw [hmore]
    show s.calls ++ [Call.destruct] ++ more = _
    rw [List.append_assoc]
    rfl

theorem Ended.deletedTimes_iff {s t : State} (h : Ended s t) :
    deletedTimes s t = 1 <->
      t.calls.count Call.handleClose <= 1 ∧
        forall pre post, t.calls = pre ++ Call.destruct :: post ->
          Call.handleClose ∉ post := by
  rcases h.calls with ⟨more, hcalls, hbefore, hafter⟩
  have hsplit : (forall pre post, t.calls = pre ++ Call.destruct :: post ->
      Call.handleClose ∉ post) <-> more.count Call.handleClose = 0 := by
    rw [List.count_eq_zero]
    constructor
    · intro hall
      exact hall s.calls more hcalls
    · intro hnone pre post hpost
      rw [hcalls] at hpost
      have hparts := (List.append_cons_inj_of_notMem hbefore hafter).mp
        hpost
      rw [<- hparts.right.right]
      exact hnone
  have hcount : t.calls.count Call.handleClose =
      s.calls.count Call.handleClose + more.count Call.handleClose := by
    rw [hcalls, List.count_append, List.count_cons_of_ne Call.noConfusion]
  rw [hsplit]
  unfold deletedTimes
  rw [h.pending, h.pending_last, hcount]
  split
  · omega
  · omega

/--
From construction to the end of the destructor `::close` is called exactly once,
and the event is deleted once, if and only if the calls are in order.
-/
theorem closes_once_iff_orderly {script : Nat -> List Act}
    {acts : List Act} {events : Mask} {s t : State}
    (hlife : LoopReturns (State.body script) ((start events).perform acts) s)
    (hend : LoopReturns (State.body script) (s.destroy script) t) :
    t.closes = 1 ∧ deletedTimes s t = 1 <-> Orderly t.calls := by
  have h := ended_of_returns hlife hend
  rw [h.closes, h.deletedTimes_iff, closesFrom_eq_one_iff]
  constructor
  · rintro ⟨⟨hclosed, honce⟩, hqueued, hdeleted⟩
    exact ⟨hclosed, honce, hqueued, hdeleted⟩
  · intro h
    exact ⟨⟨h.closed, h.once⟩, h.queued, h.deleted⟩

/-!
A life with one `close`.  A connection that `server::delev` takes off its loop
is marked as closed there, so its descriptor is never closed; one that listens
again after `close` is closed a second time by the destructor; and one that is
closed and then queued twice is deleted twice.
-/

theorem closes_once_iff_orderly_pausedThenClosed :
    exists s t, LoopReturns (State.body fun _ => [])
        ((start EPOLLIN).perform
          [Act.delListen, Act.enableListen, Act.close, Act.handleClose]) s ∧
      LoopReturns (State.body fun _ => []) (s.destroy fun _ => []) t ∧
      Orderly t.calls ∧ t.closes = 1 ∧ deletedTimes s t = 1 := by
  have hlife : exists s t, LoopReturns (State.body fun _ => [])
      ((start EPOLLIN).perform
        [Act.delListen, Act.enableListen, Act.close, Act.handleClose]) s ∧
      LoopReturns (State.body fun _ => []) (s.destroy fun _ => []) t ∧
      t.calls = [Call.ended, Call.enableListen] ++ Call.close ::
        [Call.ended, Call.ended, Call.handleClose, Call.destruct,
          Call.close] := by
    exact ⟨_, _, LoopReturns.of_loop (n := 10) rfl, LoopReturns.of_leave rfl,
      rfl⟩
  rcases hlife with ⟨s, t, hreturns, hend, hcalls⟩
  have hones : closesFrom true t.calls = 1 := by
    rw [hcalls]
    rfl
  have hclosed := (closesFrom_eq_one_iff t.calls).mp hones
  have horderly : Orderly t.calls := by
    refine ⟨hclosed.left, hclosed.right, by rw [hcalls]; decide, ?_⟩
    intro pre post hpost
    have hsplit : t.calls = [Call.ended, Call.enableListen, Call.close,
        Call.ended, Call.ended, Call.handleClose] ++ Call.destruct ::
          [Call.close] := hcalls
    rw [hsplit] at hpost
    have hparts := (List.append_cons_inj_of_notMem (by decide)
      (by decide)).mp hpost
    rw [<- hparts.right.right]
    decide
  exact ⟨s, t, hreturns, hend, horderly,
    (closes_once_iff_orderly hreturns hend).mpr horderly⟩

theorem closes_never_delev :
    exists s t, LoopReturns (State.body fun _ => [])
        ((start EPOLLIN).perform [Act.delev]) s ∧
      LoopReturns (State.body fun _ => []) (s.destroy fun _ => []) t ∧
      s.pending = 1 ∧ t.closes = 0 :=
  ⟨_, _, LoopReturns.of_loop (n := 4) rfl, LoopReturns.of_leave rfl, rfl, rfl⟩

example :
    exists s t, LoopReturns (State.body fun _ => [])
        ((start EPOLLIN).perform [Act.close, Act.enableListen]) s ∧
      LoopReturns (State.body fun _ => []) (s.destroy fun _ => []) t ∧
      t.closes = 2 :=
  ⟨_, _, LoopReturns.of_loop (n := 5) rfl, LoopReturns.of_loop (n := 2) rfl,
    rfl⟩

example :
    exists s t, LoopReturns (State.body fun _ => [])
        ((start EPOLLIN).perform
          [Act.close, Act.handleClose, Act.handleClose]) s ∧
      LoopReturns (State.body fun _ => []) (s.destroy fun _ => []) t ∧
      t.closes = 1 ∧ deletedTimes s t = 2 :=
  ⟨_, _, LoopReturns.of_loop (n := 7) rfl, LoopReturns.of_leave rfl, rfl, rfl⟩

end Closing

end MoonNet
