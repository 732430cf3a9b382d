import MoonNet.Bfevent.Closing

/-!
# Closing from inside the read callback

While `inbuff_` holds bytes, `del_listen` calls the read callback before it
records anything, and so a callback that closes its event starts from the
beginning.  Such a call removes the inner event once if the callback leaves the
closing alone, twice or more otherwise, unless it never returns.
-/

namespace MoonNet

open Foundation

namespace Closing

inductive Ending where
  | close
  | delev
deriving DecidableEq

def Ending.toAct : Ending -> Act
  | close => Act.close
  | delev => Act.delev

def Act.ends : Act -> Bool
  | delListen => true
  | close => true
  | delev => true
  | _ => false

def Ending.frame : Ending -> Frame
  | close => Frame.closeEvent
  | delev => Frame.delev

/--
The call returns, and an event that was listening has been taken off its loop
once, one that was not has been left alone.
-/
def ReturnsOnce (script : Nat -> List Act) (s : State) (k : Ending) : Prop :=
  exists t, LoopReturns (State.body script) (s.perform [k.toAct]) t ∧
    t.removals = s.removals + if s.closed then 0 else 1

/--
The call is a `close` of a closed event, or the event listens and the read
callback is not called or leaves the closing alone.
-/
def Harmless (script : Nat -> List Act) (s : State) (k : Ending) : Prop :=
  k = Ending.close ∧ s.closed = true ∨
    s.closed = false ∧
      (s.reports = false ∨ forall a, a ∈ script s.invocations -> a.ends = false)

section Steps

variable {script : Nat -> List Act} {s : State}

theorem body_user {a : Act} {acts : List Act} {rest : List Frame}
    (hstack : s.stack = Frame.user (a :: acts) :: rest) :
    s.body script =
      Round.again
        ({ s with stack := Frame.user acts :: rest }.act script a) := by
  unfold State.body
  rw [hstack]

theorem body_return {rest : List Frame}
    (hstack : s.stack = Frame.user [] :: rest) :
    s.body script = Round.again { s with stack := rest } := by
  unfold State.body
  rw [hstack]

theorem body_delListen {rest : List Frame}
    (hstack : s.stack = Frame.delListen :: rest) :
    s.body script =
      Round.again { s with stack := rest }.finishDelListen := by
  unfold State.body
  rw [hstack]

end Steps

section Acts

variable (script : Nat -> List Act) (s : State)

theorem act_plain {a : Act} (hplain : a.ends = false) :
    (s.act script a).stack = s.stack ∧
      (s.act script a).removals = s.removals := by
  cases a with
  | work effect => exact ⟨rfl, rfl⟩
  | enableListen =>
      show s.enableListen.stack = s.stack ∧
        s.enableListen.removals = s.removals
      unfold State.enableListen
      dsimp only
      split <;> exact ⟨rfl, rfl⟩
  | delListen => cases hplain
  | close => cases hplain
  | delev => cases hplain
  | handleClose => exact ⟨rfl, rfl⟩

theorem act_plain_open {a : Act} (hplain : a.ends = false)
    (hopen : s.closed = false) :
    (s.act script a).closed = false ∧
      (s.act script a).deletions = s.deletions := by
  cases a with
  | work effect => exact ⟨hopen, rfl⟩
  | enableListen =>
      show s.enableListen.closed = false ∧ s.enableListen.deletions = s.deletions
      have hsame : (s.record Call.enableListen).closed = false := hopen
      unfold State.enableListen
      dsimp only
      rw [hsame]
      exact ⟨hsame, rfl⟩
  | delListen => cases hplain
  | close => cases hplain
  | delev => cases hplain
  | handleClose => exact ⟨hopen, rfl⟩

theorem act_ends_deletions {a : Act} (hends : a.ends = true)
    (hopen : s.closed = false) :
    (s.act script a).deletions = s.deletions + 1 := by
  cases a with
  | work effect => cases hends
  | enableListen => cases hends
  | delListen => exact State.delListen_deletions script s
  | close =>
      show (s.closeEvent script).deletions = _
      rw [State.closeEvent_of_open script hopen, State.delListen_deletions]
      rfl
  | delev => exact State.delListen_deletions script _
  | handleClose => cases hends

end Acts

/-!
# A callback that leaves the closing alone
-/

theorem returns_of_plain {script : Nat -> List Act} {rest : List Frame}
    (acts : List Act) :
    forall {s : State}, s.stack = Frame.user acts :: rest ->
      (forall a, a ∈ acts -> a.ends = false) ->
        exists s', s'.stack = rest ∧ s'.removals = s.removals ∧
          forall t, LoopReturns (State.body script) s' t ->
            LoopReturns (State.body script) s t := by
  induction acts with
  | nil =>
      intro s hstack _
      exact ⟨{ s with stack := rest }, rfl, rfl,
        fun t ht => LoopReturns.of_again (body_return hstack) ht⟩
  | cons a acts ih =>
      intro s hstack hplain
      have hact := act_plain script
        { s with stack := Frame.user acts :: rest }
        (hplain a List.mem_cons_self)
      rcases ih hact.left (fun b hb => hplain b (List.mem_cons_of_mem a hb)) with
        ⟨s', hrest, hremovals, hreturns⟩
      exact ⟨s', hrest, hremovals.trans hact.right,
        fun t ht => LoopReturns.of_again (body_user hstack) (hreturns t ht)⟩

theorem returns_ending (script : Nat -> List Act) {s : State} {k : Ending}
    (hstack : s.stack = [k.frame, Frame.user []]) :
    exists t, LoopReturns (State.body script) s t ∧ t.removals = s.removals := by
  rcases s with ⟨conn, removals, closes, pending, invocations, calls, stack⟩
  dsimp only at hstack
  subst hstack
  cases k with
  | close =>
      exact ⟨_, LoopReturns.of_again rfl (LoopReturns.of_again rfl
        (LoopReturns.of_leave rfl)), rfl⟩
  | delev =>
      exact ⟨_, LoopReturns.of_again rfl (LoopReturns.of_again rfl
        (LoopReturns.of_leave rfl)), rfl⟩

def entering (s : State) (k : Ending) : State :=
  { s with
    calls :=
      match k with
      | Ending.close => s.calls ++ [Call.close]
      | Ending.delev => s.calls
    stack := [k.frame, Frame.user []] }

theorem entering_deletions (s : State) (k : Ending) :
    (entering s k).deletions = s.removals := by
  cases k <;> rfl

theorem body_perform (script : Nat -> List Act) {s : State} (k : Ending)
    (hopen : s.closed = false) :
    (s.perform [k.toAct]).body script =
      Round.again ((entering s k).delListen script) := by
  cases k with
  | close =>
      have hclose := State.closeEvent_of_open script
        (s := { s with stack := [Frame.user []] }) hopen
      exact congrArg Round.again hclose
  | delev => rfl

theorem delListen_of_silent (script : Nat -> List Act) {s : State}
    (hreports : s.reports = false) :
    s.delListen script = s.finishDelListen := by
  unfold State.delListen
  exact if_neg (by simp [hreports])

theorem delListen_of_reports (script : Nat -> List Act) {s : State}
    (hreports : s.reports = true) :
    s.delListen script = { s with
      invocations := s.invocations + 1
      stack := Frame.user (script s.invocations) :: Frame.delListen ::
        s.stack } := by
  unfold State.delListen
  exact if_pos hreports

theorem returnsOnce_of_closed (script : Nat -> List Act) {s : State}
    (hclosed : s.closed = true) : ReturnsOnce script s Ending.close := by
  have hclose := State.closeEvent_of_closed script
    (s := { s with stack := [Frame.user []] }) hclosed
  refine ⟨{ s.record Call.close with stack := [] }, ?_, by rw [hclosed]; rfl⟩
  refine LoopReturns.of_again (congrArg Round.again hclose) ?_
  exact LoopReturns.of_again rfl (LoopReturns.of_leave rfl)

theorem returnsOnce_of_plain {script : Nat -> List Act} {s : State}
    {k : Ending} (hopen : s.closed = false)
    (hcallback : s.reports = false ∨
      forall a, a ∈ script s.invocations -> a.ends = false) :
    ReturnsOnce script s k := by
  have hbody := body_perform script k hopen
  unfold ReturnsOnce
  rw [hopen]
  cases hreports : s.reports with
  | false =>
      rw [delListen_of_silent script (s := entering s k) hreports] at hbody
      rcases returns_ending script (s := (entering s k).finishDelListen)
        (k := k) rfl with ⟨t, ht, hremovals⟩
      exact ⟨t, LoopReturns.of_again hbody ht, hremovals⟩
  | true =>
      rw [delListen_of_reports script (s := entering s k) hreports] at hbody
      have hplain := hcallback.resolve_left (by simp [hreports])
      rcases returns_of_plain (script s.invocations) (s := { entering s k with
          invocations := s.invocations + 1
          stack := Frame.user (script s.invocations) :: Frame.delListen ::
            (entering s k).stack }) rfl hplain with
        ⟨u, hstack, hremovals, hreturns⟩
      rcases returns_ending script
        (s := { u with stack := (entering s k).stack }.finishDelListen)
        (k := k) rfl with ⟨t, ht, hsame⟩
      refine ⟨t, LoopReturns.of_again hbody (hreturns t
        (LoopReturns.of_again (body_delListen hstack) ht)), ?_⟩
      rw [hsame]
      show u.removals + 1 = s.removals + 1
      rw [hremovals]
      rfl

/-!
# A callback that closes
-/

/--
Inside the callback the event still listens, so the first act that ends
something begins a second `del_listen`.
-/
theorem deletions_of_ends {script : Nat -> List Act} {rest : List Frame}
    {t : State} (acts : List Act) :
    forall {s : State}, LoopReturns (State.body script) s t ->
      s.stack = Frame.user acts :: rest -> s.closed = false ->
        (exists a, a ∈ acts ∧ a.ends = true) ->
          s.deletions + 1 <= t.deletions := by
  induction acts with
  | nil =>
      intro s _ _ _ hends
      rcases hends with ⟨a, hmem, _⟩
      cases hmem
  | cons a acts ih =>
      intro s hreturns hstack hopen hends
      have hrest := hreturns.rest_of_again (body_user hstack)
      have hdeletions : s.deletions =
          State.deletions { s with stack := Frame.user acts :: rest } := by
        unfold State.deletions
        rw [hstack]
        rfl
      cases ha : a.ends with
      | true =>
          have hgrown := (State.returns_grown hrest).deletions
          rw [act_ends_deletions script
            { s with stack := Frame.user acts :: rest } ha hopen] at hgrown
          rw [hdeletions]
          exact hgrown
      | false =>
          have hact := act_plain_open script
            { s with stack := Frame.user acts :: rest } ha hopen
          have hsame := act_plain script
            { s with stack := Frame.user acts :: rest } ha
          have hlater : exists b, b ∈ acts ∧ b.ends = true := by
            rcases hends with ⟨b, hmem, hb⟩
            cases hmem with
            | head =>
                rw [ha] at hb
                cases hb
            | tail _ hmem => exact ⟨b, hmem, hb⟩
          rw [hdeletions, ← hact.right]
          exact ih hrest hsame.left hact.left hlater

theorem removals_eq_deletions {s : State} (hidle : s.stack = []) :
    s.removals = s.deletions := by
  unfold State.deletions
  rw [hidle]
  rfl

theorem harmless_of_returnsOnce {script : Nat -> List Act} {s : State}
    {k : Ending} (h : ReturnsOnce script s k) : Harmless script s k := by
  rcases h with ⟨t, hreturns, hremovals⟩
  have hgrown := State.returns_grown hreturns
  rw [removals_eq_deletions hgrown.idle] at hremovals
  cases hclosed : s.closed with
  | true =>
      cases k with
      | close => exact Or.inl ⟨rfl, hclosed⟩
      | delev =>
          -- the `del_listen` of `server::delev` does not look at the flag
          have hrest := hreturns.rest_of_again rfl
          have hafter : (State.delListen script (entering s Ending.delev)).deletions
              <= t.deletions := (State.returns_grown hrest).deletions
          rw [State.delListen_deletions, entering_deletions, hremovals, hclosed]
            at hafter
          exact absurd hafter (Nat.not_succ_le_self _)
  | false =>
      refine Or.inr ⟨hclosed, ?_⟩
      rw [hclosed] at hremovals
      have hrest := hreturns.rest_of_again (body_perform script k hclosed)
      cases hreports : s.reports with
      | false => exact Or.inl rfl
      | true =>
          refine Or.inr fun a ha => ?_
          cases hends : a.ends with
          | false => rfl
          | true =>
              rw [delListen_of_reports script (s := entering s k) hreports]
                at hrest
              have htwice : (entering s k).deletions + 1 + 1 <= t.deletions :=
                deletions_of_ends (script s.invocations) hrest rfl hclosed
                  ⟨a, ha, hends⟩
              rw [entering_deletions, hremovals] at htwice
              exact absurd htwice (Nat.not_succ_le_self _)

/--
A `close` or `server::delev` returns and removes the inner event from its loop
once if and only if it is a `close` of a closed event, or the event listens and
the read callback, if it is called, does not end anything itself.
-/
theorem ending_returnsOnce_iff (script : Nat -> List Act) (s : State)
    (k : Ending) : ReturnsOnce script s k <-> Harmless script s k := by
  constructor
  · exact harmless_of_returnsOnce
  · rintro (⟨rfl, hclosed⟩ | ⟨hopen, hcallback⟩)
    · exact returnsOnce_of_closed script hclosed
    · exact returnsOnce_of_plain hopen hcallback

def unread : State :=
  { start EPOLLIN with
    conn.bev.inbuff := ValidBuffer.fresh.append [65]
    conn.bev.readcb := true }

/-- A callback that closes without reading is called again and again. -/
theorem close_never_returns :
    ¬ exists t, LoopReturns (State.body fun _ => [Act.close])
      (unread.perform [Act.close]) t := by
  rintro ⟨t, hreturns⟩
  refine not_returns_of_invariant (fun s => s.closed = false ∧
    s.reports = true ∧ exists rest, s.stack = Frame.user [Act.close] :: rest)
    ?_ ⟨rfl, by decide +kernel, [], rfl⟩ hreturns
  rintro s ⟨hopen, hreports, rest, hstack⟩
  refine ⟨_, body_user hstack, ?_⟩
  have hagain : State.act (fun _ => [Act.close])
      { s with stack := Frame.user [] :: rest } Act.close = _ :=
    (State.closeEvent_of_open (fun _ => [Act.close])
      (s := { s with stack := Frame.user [] :: rest }) hopen).trans
      (delListen_of_reports (fun _ => [Act.close]) hreports)
  rw [hagain]
  exact ⟨hopen, hreports, _, rfl⟩

end Closing

end MoonNet
