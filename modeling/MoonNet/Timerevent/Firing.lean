import MoonNet.Foundation.Simulation
import MoonNet.Timerevent.Model

/-!
# When a timer event fires

The kernel keeps the timer on schedule, and the inner event is reported for as
long as expirations are unread.  So every timeout is told to `handle_timeout`
once, none too early, and several at once if it comes late.
-/

namespace MoonNet

open Foundation

namespace Timerevent

variable {s s' : Timerevent}

/-!
# What `_init_` sets
-/

def schedule (timeoutMs : Nat) (periodic : Bool) (now : Nat) : Schedule where
  first := if timeoutMs = 0 then none else some (now + timeoutMs * 1000000)
  period := if periodic then timeoutMs * 1000000 else 0

theorem value_valid_iff (timeoutMs : Int) (periodic : Bool) :
    (itimerspec timeoutMs periodic).itValue.Valid <-> 0 <= timeoutMs := by
  show 0 <= timeoutMs.tdiv 1000 ∧ 0 <= timeoutMs.tmod 1000 * 1000000 ∧
    timeoutMs.tmod 1000 * 1000000 < 1000000000 <-> _
  have hsplit := Int.mul_tdiv_add_tmod timeoutMs 1000
  constructor
  · intro h
    omega
  · intro h
    have hdiv := Int.tdiv_nonneg h (show (0 : Int) <= 1000 by decide)
    have hmod := Int.tmod_nonneg 1000 h
    have hlt := Int.tmod_lt_of_pos timeoutMs (show (0 : Int) < 1000 by decide)
    omega

theorem value_nanoseconds (timeoutMs : Nat) (periodic : Bool) :
    (itimerspec timeoutMs periodic).itValue.nanoseconds =
      timeoutMs * 1000000 := by
  have hsplit := Int.mul_tdiv_add_tmod timeoutMs 1000
  show ((timeoutMs : Int).tdiv 1000 * 1000000000 +
    (timeoutMs : Int).tmod 1000 * 1000000).toNat = _
  omega

theorem new_isSome_iff {timeoutMs : Int} {periodic : Bool} {now : Nat} :
    (new timeoutMs periodic now).isSome <-> 0 <= timeoutMs := by
  have hvalid := value_valid_iff timeoutMs periodic
  unfold new timerfdSettime
  rw [Option.isSome_map]
  split
  · rename_i hboth
    exact iff_of_true rfl (hvalid.mp hboth.left)
  · rename_i hboth
    refine iff_of_false nofun ?_
    intro hle
    apply hboth
    refine ⟨hvalid.mpr hle, ?_⟩
    have hnone : Timespec.Valid { tvSec := 0, tvNsec := 0 } := by decide
    cases periodic with
    | true => exact hvalid.mpr hle
    | false => exact hnone

theorem new_timer {timeoutMs : Nat} {periodic : Bool} {now : Nat}
    (hnew : new timeoutMs periodic now = some s) :
    s.timer = Expiry.start (schedule timeoutMs periodic now) now ∧
      s.cb = false ∧ s.reported = false ∧ s.calls = [] ∧ s.failed = 0 := by
  unfold new timerfdSettime at hnew
  rcases Option.map_eq_some_iff.mp hnew with ⟨timer, htimer, rfl⟩
  refine ⟨?_, rfl, rfl, rfl, rfl⟩
  split at htimer
  · cases htimer
    rw [value_nanoseconds]
    unfold schedule
    have hzero : timeoutMs * 1000000 = 0 <-> timeoutMs = 0 := by omega
    have hinterval : (itimerspec timeoutMs periodic).itInterval.nanoseconds =
        if periodic then timeoutMs * 1000000 else 0 := by
      cases periodic with
      | true => exact value_nanoseconds timeoutMs true
      | false => rfl
    rw [hinterval]
    by_cases htimeout : timeoutMs = 0
    · rw [if_pos htimeout, if_pos (hzero.mpr htimeout)]
    · rw [if_neg htimeout, if_neg fun hno => htimeout (hzero.mp hno)]
  · cases htimer

theorem schedule_due (timeoutMs : Nat) (periodic : Bool) (start time : Nat) :
    (schedule timeoutMs periodic start).due time =
      timeouts timeoutMs periodic (time - start) := by
  by_cases hzero : timeoutMs = 0
  · unfold timeouts
    rw [if_pos hzero]
    apply Schedule.due_of_lt
    intro first hfirst
    unfold schedule at hfirst
    rw [if_pos hzero] at hfirst
    cases hfirst
  · have hpos : 0 < timeoutMs * 1000000 := by omega
    have hfirst : (schedule timeoutMs periodic start).first =
        some (start + timeoutMs * 1000000) := if_neg hzero
    have hperiod : (schedule timeoutMs periodic start).period =
        if periodic then timeoutMs * 1000000 else 0 := rfl
    unfold timeouts
    rw [if_neg hzero]
    generalize timeoutMs * 1000000 = timeout at hpos hfirst hperiod ⊢
    by_cases hlt : time < start + timeout
    · have hnone : (schedule timeoutMs periodic start).due time = 0 := by
        apply Schedule.due_of_lt
        intro f hf
        rw [hfirst] at hf
        exact Option.some.inj hf ▸ hlt
      have hshort : time - start < timeout := by omega
      rw [hnone, Nat.div_eq_of_lt hshort, if_neg (Nat.not_le.mpr hshort),
        ite_self]
    · have hle : start + timeout <= time := Nat.le_of_not_lt hlt
      cases periodic with
      | true =>
          rw [if_pos rfl] at hperiod
          rw [Schedule.due_periodic hfirst (hperiod ▸ Nat.ne_of_gt hpos) hle,
            hperiod, if_pos rfl, <- Nat.add_div_right _ hpos]
          apply congrArg (· / timeout)
          omega
      | false =>
          have honce : timeout <= time - start := by omega
          rw [Schedule.due_once hfirst hperiod hle, if_neg Bool.false_ne_true,
            if_pos honce]

/-!
# What a step does to the timer
-/

def timerAction (_ : Timerevent) : Action -> Option Expiry.Action
  | Action.tick => some Expiry.Action.tick
  | Action.handleCb => some Expiry.Action.read
  | _ => none

structure Inv (s : Timerevent) : Prop where
  reported : s.reported = true -> 0 < s.timer.unread
  failed : s.failed = 0
  calls : s.calls.Sublist (s.timer.reads.map Prod.fst)

theorem read_of_unread (h : 0 < s.timer.unread) :
    s.handleTimeout = { s with timer := { s.timer with
      reads := s.timer.reads ++ [(s.timer.now, s.timer.unread)]
      unread := 0 } }.callCb := by
  unfold handleTimeout Expiry.read
  rw [if_pos h]

theorem callCb_timer (s : Timerevent) : s.callCb.timer = s.timer := by
  unfold callCb
  split
  · rfl
  · rfl

theorem callCb_calls (s : Timerevent) :
    s.callCb.calls.length = s.calls.length + if s.cb then 1 else 0 := by
  unfold callCb
  split
  · exact List.length_append
  · rfl

theorem tick_unread (timer : Expiry) :
    timer.unread <= timer.tick.unread ∧ timer.tick.reads = timer.reads := by
  unfold Expiry.tick
  split
  · exact ⟨Nat.le_succ _, rfl⟩
  · exact ⟨Nat.le_refl _, rfl⟩

theorem readable_unread (h : s.readable = true) : 0 < s.timer.unread := by
  unfold readable at h
  split at h
  · cases h
  · rw [Bool.and_eq_true] at h
    exact of_decide_eq_true h.right

theorem handleTimeout_inv (h : Inv s) (hreported : s.reported = true) :
    Inv { s with reported := false }.handleTimeout := by
  rw [read_of_unread (s := { s with reported := false })
    (h.reported hreported)]
  unfold callCb
  split
  · refine { reported := nofun, failed := h.failed, calls := ?_ }
    show (s.calls ++ [s.timer.now]).Sublist
      ((s.timer.reads ++ [(s.timer.now, s.timer.unread)]).map Prod.fst)
    rw [List.map_append]
    exact h.calls.append (List.Sublist.refl _)
  · refine { reported := nofun, failed := h.failed, calls := ?_ }
    show s.calls.Sublist
      ((s.timer.reads ++ [(s.timer.now, s.timer.unread)]).map Prod.fst)
    rw [List.map_append]
    exact h.calls.trans (List.sublist_append_left _ _)

theorem step_inv {a : Action} (h : Inv s) (hstep : step s a = some s') :
    Inv s' := by
  cases a with
  | tick =>
      cases hstep
      have htick := tick_unread s.timer
      refine { reported := ?_, failed := h.failed, calls := ?_ }
      · intro hreported
        exact Nat.lt_of_lt_of_le (h.reported hreported) htick.left
      · show s.calls.Sublist (s.timer.tick.reads.map Prod.fst)
        rw [htick.right]
        exact h.calls
  | epollWait =>
      simp only [step] at hstep
      split at hstep
      · rename_i hcan
        cases hstep
        exact { h with reported := fun _ => readable_unread hcan.right }
      · cases hstep
  | handleCb =>
      simp only [step] at hstep
      split at hstep
      · rename_i hreported
        cases hstep
        exact handleTimeout_inv h hreported
      · cases hstep
  | _ =>
      cases hstep
      exact ⟨h.reported, h.failed, h.calls⟩

theorem step_timerAction {a : Action} (h : Inv s)
    (hstep : step s a = some s') :
    StepFn.Matches Expiry.step s.timer s'.timer (timerAction s a) := by
  cases a with
  | tick =>
      cases hstep
      rfl
  | epollWait =>
      simp only [step] at hstep
      split at hstep
      · cases hstep
        rfl
      · cases hstep
  | handleCb =>
      simp only [step] at hstep
      split at hstep
      · rename_i hreported
        cases hstep
        have hpos := h.reported hreported
        rw [read_of_unread (s := { s with reported := false }) hpos]
        show s.timer.read = some (callCb _).timer
        rw [callCb_timer]
        exact if_pos hpos
      · cases hstep
  | _ =>
      cases hstep
      rfl

theorem timer_maps :
    StepFn.Maps step Expiry.step Inv timer timerAction where
  keeps := fun _ _ _ h hstep => step_inv h hstep
  matched := fun _ _ _ h hstep => step_timerAction h hstep

/-!
# Every timeout is told once
-/

theorem new_inv {timeoutMs : Nat} {periodic : Bool} {start : Nat}
    (hnew : new timeoutMs periodic start = some s) : Inv s := by
  rcases new_timer hnew with ⟨_, _, hreported, hcalls, hfailed⟩
  refine { reported := ?_, failed := hfailed, calls := ?_ }
  · rw [hreported]
    exact nofun
  · rw [hcalls]
    exact List.nil_sublist _

theorem step_onSchedule {timer timer' : Expiry} {sched : Schedule}
    {a : Expiry.Action} (h : timer.OnSchedule ∧ timer.schedule = sched)
    (hstep : Expiry.step timer a = some timer') :
    timer'.OnSchedule ∧ timer'.schedule = sched := by
  cases a with
  | tick =>
      cases hstep
      refine ⟨Expiry.tick_onSchedule h.left, ?_⟩
      unfold Expiry.tick
      split
      · exact h.right
      · exact h.right
  | read =>
      have hread : timer.read = some timer' := hstep
      refine ⟨Expiry.read_onSchedule h.left hread, ?_⟩
      unfold Expiry.read at hread
      split at hread
      · cases hread
        exact h.right
      · cases hread

theorem run_onSchedule {timeoutMs : Nat} {periodic : Bool} {start : Nat}
    (hnew : new timeoutMs periodic start = some s) {acts : List Action}
    (hrun : StepFn.run step s acts = some s') :
    Inv s' ∧ s'.timer.OnSchedule ∧
      s'.timer.schedule = schedule timeoutMs periodic start := by
  have hstart : s.timer.OnSchedule ∧
      s.timer.schedule = schedule timeoutMs periodic start := by
    rw [(new_timer hnew).left]
    refine ⟨Expiry.start_onSchedule ?_, rfl⟩
    intro first hfirst
    unfold schedule at hfirst
    by_cases hzero : timeoutMs = 0
    · rw [if_pos hzero] at hfirst
      cases hfirst
    · rw [if_neg hzero] at hfirst
      have heq := Option.some.inj hfirst
      omega
  exact timer_maps.run_keeps
    (P := fun timer => timer.OnSchedule ∧
      timer.schedule = schedule timeoutMs periodic start)
    (fun _ _ _ h hstep => step_onSchedule h hstep) (new_inv hnew) hstart hrun

/--
A timer event is set up for a timeout that is not negative.  In every run of it:
no read of the timer fails, each read tells of all timeouts since the read
before, of one at least, and of no timeout early; and `cb_` is called at times
of reads only, at each of them at most once.
-/
theorem timeouts_told (timeoutMs : Int) (periodic : Bool) (start : Nat)
    (acts : List Action) (s t : Timerevent)
    (hnew : new timeoutMs periodic start = some s)
    (hrun : StepFn.run step s acts = some t) :
    0 <= timeoutMs ∧ t.failed = 0 ∧
      Expiry.Punctual
        (fun time => timeouts timeoutMs.toNat periodic (time - start)) 0
        t.timer.reads ∧
      t.timer.told + t.timer.unread =
        timeouts timeoutMs.toNat periodic (t.timer.now - start) ∧
      t.calls.Sublist (t.timer.reads.map Prod.fst) := by
  have hle : 0 <= timeoutMs :=
    new_isSome_iff.mp (Option.isSome_of_eq_some hnew)
  rcases Int.eq_ofNat_of_zero_le hle with ⟨n, rfl⟩
  rcases run_onSchedule hnew hrun with ⟨hinv, hon, hschedule⟩
  have hdue : forall time, t.timer.schedule.due time =
      timeouts n periodic (time - start) := by
    intro time
    rw [hschedule]
    exact schedule_due n periodic start time
  exact ⟨hle, hinv.failed, hon.punctual.congr hdue, hon.all.trans (hdue _),
    hinv.calls⟩

theorem run_ticks (n : Nat) (s : Timerevent)
    (hnext : forall d, s.timer.next = some d -> s.timer.now + n < d) :
    StepFn.run step s (List.replicate n Action.tick) =
      some { s with timer := { s.timer with now := s.timer.now + n } } := by
  induction n generalizing s with
  | zero => rfl
  | succ n ih =>
      have htick : s.timer.tick = { s.timer with now := s.timer.now + 1 } := by
        unfold Expiry.tick
        refine if_neg ?_
        intro hhere
        have hlt := hnext _ hhere
        omega
      have hstep : step s Action.tick =
          some { s with timer := { s.timer with now := s.timer.now + 1 } } := by
        rw [<- htick]
        rfl
      rw [List.replicate_succ]
      refine StepFn.run_cons_eq_some.mpr ⟨_, hstep, ?_⟩
      have hlater : forall d, s.timer.next = some d ->
          s.timer.now + 1 + n < d := by
        intro d hd
        have hlt := hnext d hd
        omega
      rw [ih _ hlater]
      show some { s with timer := { s.timer with
        now := s.timer.now + 1 + n } } = _
      rw [Nat.add_right_comm, Nat.add_assoc]

def oneMs : Timerevent where
  ev := { events := EPOLLIN, registered := some EPOLLIN }
  timer := Expiry.start { first := some 1000000, period := 0 } 0
  cb := true
  reported := false
  calls := []
  failed := 0

def servedAtOnce : List Action :=
  [Action.setcb true, Action.enableListen] ++
    (List.replicate 999999 Action.tick ++
      [Action.tick, Action.epollWait, Action.handleCb])

theorem run_servedAtOnce {s : Timerevent} (hnew : new 1 false 0 = some s) :
    exists t, StepFn.run step s servedAtOnce = some t ∧
      t.timer.now = 1000000 ∧ t.timer.reads = [(1000000, 1)] ∧
      t.timer.unread = 0 ∧ t.calls = [1000000] := by
  have hset : StepFn.run step s [Action.setcb true, Action.enableListen] =
      some oneMs := by
    cases hnew
    rfl
  have hwait : StepFn.run step oneMs (List.replicate 999999 Action.tick) =
      some { oneMs with timer := { oneMs.timer with now := 999999 } } := by
    refine (run_ticks 999999 oneMs ?_).trans rfl
    intro d hd
    cases hd
    decide
  refine ⟨_, StepFn.run_append.mpr ⟨_, hset, StepFn.run_append.mpr
    ⟨_, hwait, rfl⟩⟩, rfl, rfl, rfl, rfl⟩

theorem timeouts_told_servedAtOnce :
    exists s t, new 1 false 0 = some s ∧
      StepFn.run step s servedAtOnce = some t ∧ t.failed = 0 ∧
      1 + 0 = timeouts 1 false (t.timer.now - 0) := by
  rcases Option.isSome_iff_exists.mp (new_isSome_iff.mpr
    (show (0 : Int) <= 1 by decide)) with ⟨s, hnew⟩
  rcases run_servedAtOnce hnew with ⟨t, hrun, _, hreads, hunread, _⟩
  rcases timeouts_told 1 false 0 servedAtOnce s t hnew hrun with
    ⟨_, hfailed, _, hall, _⟩
  unfold Expiry.told at hall
  rw [hreads, hunread] at hall
  exact ⟨s, t, hnew, hrun, hfailed, hall⟩

/-!
# One call for each timeout
-/

/-- When `handle_timeout` reads, one timeout is over since the last read. -/
def Separate (s : Timerevent) (a : Action) : Prop :=
  a = Action.handleCb -> s.cb = true ∧ s.timer.unread = 1

theorem step_told {a : Action} (h : Inv s) (hstep : step s a = some s') :
    a = Action.handleCb ∧ 0 < s.timer.unread ∧
        s'.calls.length = s.calls.length + (if s.cb then 1 else 0) ∧
        s'.timer.told = s.timer.told + s.timer.unread ∨
      a ≠ Action.handleCb ∧ s'.calls.length = s.calls.length ∧
        s'.timer.told = s.timer.told := by
  cases a with
  | tick =>
      cases hstep
      refine Or.inr ⟨nofun, rfl, ?_⟩
      show (s.timer.tick.reads.map Prod.snd).sum = _
      rw [(tick_unread s.timer).right]
      rfl
  | epollWait =>
      simp only [step] at hstep
      split at hstep
      · cases hstep
        exact Or.inr ⟨nofun, rfl, rfl⟩
      · cases hstep
  | handleCb =>
      simp only [step] at hstep
      split at hstep
      · rename_i hreported
        cases hstep
        have hpos := h.reported hreported
        rw [read_of_unread (s := { s with reported := false }) hpos]
        refine Or.inl ⟨rfl, hpos, ?_, ?_⟩
        · exact callCb_calls _
        · unfold Expiry.told
          rw [callCb_timer]
          show ((s.timer.reads ++ [(s.timer.now, s.timer.unread)]).map
            Prod.snd).sum = _
          rw [List.map_append, List.sum_append, List.map_singleton,
            List.sum_singleton]
      · cases hstep
  | _ =>
      cases hstep
      exact Or.inr ⟨nofun, rfl, rfl⟩

/--
In every run of a timer event, the calls of `cb_` and the expirations that are
still unread are together as many as the timeouts that are over, exactly if no
call had to stand for several timeouts or was left out.
-/
theorem calls_eq_timeouts_iff (timeoutMs : Int) (periodic : Bool)
    (start : Nat) (acts : List Action) (s t : Timerevent)
    (hnew : new timeoutMs periodic start = some s)
    (hrun : StepFn.run step s acts = some t) :
    t.calls.length + t.timer.unread =
        timeouts timeoutMs.toNat periodic (t.timer.now - start) <->
      StepFn.Meets step Separate s acts := by
  have hle : 0 <= timeoutMs :=
    new_isSome_iff.mp (Option.isSome_of_eq_some hnew)
  have hall := (timeouts_told timeoutMs periodic start acts s t hnew
    hrun).right.right.right.left
  rcases Int.eq_ofNat_of_zero_le hle with ⟨n, rfl⟩
  rcases new_timer hnew with ⟨htimer, _, _, hcalls, _⟩
  have hstart : s.calls.length = s.timer.told := by
    rw [hcalls, htimer]
    rfl
  constructor
  · intro hsame
    have hend : ¬ t.calls.length < t.timer.told := by omega
    -- A call that is missing stays missing.
    have hinv : forall s a s', Inv s ∧ s.calls.length <= s.timer.told ->
        step s a = some s' -> Inv s' ∧ s'.calls.length <= s'.timer.told := by
      intro s a s' h hstep
      refine ⟨step_inv h.left hstep, ?_⟩
      rcases step_told h.left hstep with
        ⟨_, hpos, hone, htold⟩ | ⟨_, hone, htold⟩
      · split at hone <;> omega
      · omega
    have henter : forall s a s', Inv s ∧ s.calls.length <= s.timer.told ->
        step s a = some s' -> ¬ Separate s a ->
        s'.calls.length < s'.timer.told := by
      intro s a s' h hstep hguard
      rcases step_told h.left hstep with
        ⟨ha, hpos, hone, htold⟩ | ⟨ha, _, _⟩
      · by_cases hcb : s.cb = true
        · have hmany : s.timer.unread ≠ 1 := fun hunread =>
            hguard fun _ => ⟨hcb, hunread⟩
          rw [if_pos hcb] at hone
          omega
        · rw [if_neg hcb] at hone
          omega
      · exact absurd (fun hno => absurd hno ha) hguard
    have hstay : forall s a s', Inv s ∧ s.calls.length <= s.timer.told ->
        s.calls.length < s.timer.told -> step s a = some s' ->
        s'.calls.length < s'.timer.told := by
      intro s a s' h hbad hstep
      rcases step_told h.left hstep with
        ⟨_, hpos, hone, htold⟩ | ⟨_, hone, htold⟩
      · split at hone <;> omega
      · omega
    exact StepFn.meets_of_not_absorbed hinv henter hstay
      ⟨new_inv hnew, Nat.le_of_eq hstart⟩ hrun hend
  · intro hmeets
    have hpres : forall s a s', Inv s ∧ s.calls.length = s.timer.told ->
        Separate s a -> step s a = some s' ->
        Inv s' ∧ s'.calls.length = s'.timer.told := by
      intro s a s' h hguard hstep
      refine ⟨step_inv h.left hstep, ?_⟩
      rcases step_told h.left hstep with
        ⟨ha, _, hone, htold⟩ | ⟨_, hone, htold⟩
      · rcases hguard ha with ⟨hcb, hunread⟩
        rw [if_pos hcb] at hone
        omega
      · omega
    have hend := StepFn.run_invariant_of_meets hpres
      ⟨new_inv hnew, hstart⟩ hmeets hrun
    rw [hend.right]
    exact hall

theorem calls_eq_timeouts_iff_servedAtOnce :
    exists s, new 1 false 0 = some s ∧
      StepFn.Meets step Separate s servedAtOnce := by
  rcases Option.isSome_iff_exists.mp (new_isSome_iff.mpr
    (show (0 : Int) <= 1 by decide)) with ⟨s, hnew⟩
  rcases run_servedAtOnce hnew with ⟨t, hrun, hnow, _, hunread, hcalls⟩
  refine ⟨s, hnew, (calls_eq_timeouts_iff 1 false 0 servedAtOnce s t hnew
    hrun).mp ?_⟩
  rw [hcalls, hunread, hnow]
  decide

end Timerevent

end MoonNet
