import MoonNet.Bfevent.Model
import MoonNet.Event.Flags
import MoonNet.Foundation.Runs
import MoonNet.Udpevent.Model

/-!
# Forwarding of the interest calls

An `event` changes its mask itself; a `bfevent` and a `udpevent` forward each
call to the event they own.  All calls reach the operation of the same name,
with the exception of `udpevent::disable_ET`.
-/

namespace MoonNet

open Foundation

inductive Watcher where
  | event (ev : Interest)
  | bfevent (bev : Bfevent)
  | udpevent (udp : Udpevent)

namespace Watcher

def interest : Watcher -> Interest
  | event ev => ev
  | bfevent bev => bev.ev
  | udpevent udp => udp.ev

def setInterest (w : Watcher) (ev : Interest) : Watcher :=
  match w with
  | event _ => event ev
  | bfevent bev => bfevent { bev with ev := ev }
  | udpevent udp => udpevent { udp with ev := ev }

@[simp] theorem interest_setInterest (w : Watcher) (ev : Interest) :
    (w.setInterest ev).interest = ev := by
  cases w <;> rfl

def call : Watcher -> FlagCall -> Option Watcher
  | event ev, c => some (event (ev.call c))
  | bfevent bev, FlagCall.enableRead => some (bfevent bev.enableRead)
  | bfevent bev, FlagCall.disableRead => some (bfevent bev.disableRead)
  | bfevent bev, FlagCall.enableWrite => some (bfevent bev.enableWrite)
  | bfevent bev, FlagCall.disableWrite => some (bfevent bev.disableWrite)
  | bfevent bev, FlagCall.enableET => some (bfevent bev.enableET)
  | bfevent bev, FlagCall.disableET => some (bfevent bev.disableET)
  | udpevent udp, FlagCall.enableRead => some (udpevent udp.enableRead)
  | udpevent udp, FlagCall.disableRead => some (udpevent udp.disableRead)
  | udpevent udp, FlagCall.enableET => some (udpevent udp.enableET)
  | udpevent udp, FlagCall.disableET => some (udpevent udp.disableET)
  | udpevent _, FlagCall.enableWrite => none
  | udpevent _, FlagCall.disableWrite => none

def crosses : Watcher -> FlagCall -> Bool
  | udpevent _, FlagCall.disableET => true
  | _, _ => false

theorem call_interest {w w' : Watcher} {c : FlagCall}
    (hcall : w.call c = some w') :
    w'.interest =
      if w.crosses c then w.interest.disableRead else w.interest.call c := by
  cases w with
  | event ev =>
      cases hcall
      rfl
  | bfevent bev =>
      cases c <;> (cases hcall; rfl)
  | udpevent udp =>
      cases c <;> cases hcall <;> rfl

end Watcher

namespace Forwarding

/-- An object together with the calls made on it so far. -/
structure State where
  watcher : Watcher
  calls : List FlagCall

def step (s : State) (c : FlagCall) : Option State :=
  (s.watcher.call c).map fun w => { watcher := w, calls := s.calls ++ [c] }

def start (w : Watcher) (m : Mask) : State where
  watcher := w.setInterest { events := m, registered := some m }
  calls := []

/--
The mask that the kernel holds is that of the object, and each of its bits is as
the last call that names it has left it, or as in the mask `m` of the start.
-/
structure Lawful (m : Mask) (s : State) : Prop where
  passed : s.watcher.interest.Passed
  bits : forall i, s.watcher.interest.events.getLsbD i =
    (FlagCall.lastNaming i s.calls).getD (m.getLsbD i)

/-- Where `disable_ET` is crossed, neither flag is set. -/
def Clean (s : State) (c : FlagCall) : Prop :=
  s.watcher.crosses c = true ->
    s.watcher.interest.events.getLsbD 0 = false ∧
      s.watcher.interest.events.getLsbD 31 = false

instance (s : State) (c : FlagCall) : Decidable (Clean s c) := by
  unfold Clean
  infer_instance

theorem start_lawful (w : Watcher) (m : Mask) : Lawful m (start w m) where
  passed := by
    show (w.setInterest _).interest.Passed
    rw [Watcher.interest_setInterest]
    rfl
  bits i := by
    show (w.setInterest _).interest.events.getLsbD i = _
    rw [Watcher.interest_setInterest]
    rfl

theorem step_eq_some {s s' : State} {c : FlagCall}
    (hstep : step s c = some s') :
    s'.calls = s.calls ++ [c] ∧ s'.watcher.interest =
      if s.watcher.crosses c then s.watcher.interest.disableRead
      else s.watcher.interest.call c := by
  rcases Option.map_eq_some_iff.mp hstep with ⟨w, hcall, rfl⟩
  exact ⟨rfl, Watcher.call_interest hcall⟩

theorem lawful_bit {m : Mask} {s : State} (h : Lawful m s) (c : FlagCall)
    (i : Nat) :
    (FlagCall.lastNaming i (s.calls ++ [c])).getD (m.getLsbD i) =
      if c.flag.getLsbD i then c.enables
      else s.watcher.interest.events.getLsbD i := by
  rw [FlagCall.lastNaming_concat, h.bits i]
  split <;> rfl

theorem step_lawful {m : Mask} {s s' : State} {c : FlagCall}
    (h : Lawful m s) (hcrosses : s.watcher.crosses c = false)
    (hstep : step s c = some s') : Lawful m s' := by
  rcases step_eq_some hstep with ⟨hcalls, hinterest⟩
  rw [if_neg (by simp [hcrosses])] at hinterest
  constructor
  · rw [hinterest]
    exact Interest.call_passed h.passed c
  · intro i
    rw [hinterest, hcalls, lawful_bit h c i, Interest.call_getLsbD]

theorem step_crossed_lawful_iff {m : Mask} {s s' : State} {c : FlagCall}
    (h : Lawful m s) (hcrosses : s.watcher.crosses c = true)
    (hstep : step s c = some s') :
    Lawful m s' <->
      s.watcher.interest.events.getLsbD 0 = false ∧
        s.watcher.interest.events.getLsbD 31 = false := by
  have hcall : c = FlagCall.disableET := by
    unfold Watcher.crosses at hcrosses
    split at hcrosses
    · rfl
    · cases hcrosses
  subst hcall
  rcases step_eq_some hstep with ⟨hcalls, hinterest⟩
  rw [if_pos hcrosses] at hinterest
  have hafter : forall i, s'.watcher.interest.events.getLsbD i =
      if i = 0 then false else s.watcher.interest.events.getLsbD i := by
    intro i
    rw [hinterest]
    show (s.watcher.interest.disableEvents EPOLLIN).events.getLsbD i = _
    rw [Interest.disableEvents_getLsbD, getLsbD_EPOLLIN]
    simp only [decide_eq_true_eq]
  have hlaw : forall i,
      (FlagCall.lastNaming i s'.calls).getD (m.getLsbD i) =
        if i = 31 then false else s.watcher.interest.events.getLsbD i := by
    intro i
    rw [hcalls, lawful_bit h FlagCall.disableET i]
    show (if EPOLLET.getLsbD i then false else _) = _
    rw [getLsbD_EPOLLET]
    simp only [decide_eq_true_eq]
  constructor
  · intro h'
    have hbit : forall i,
        (if i = 0 then false else s.watcher.interest.events.getLsbD i) =
          if i = 31 then false else s.watcher.interest.events.getLsbD i := by
      intro i
      rw [← hafter i, h'.bits i, hlaw i]
    exact ⟨(hbit 0).symm, hbit 31⟩
  · rintro ⟨hin, het⟩
    constructor
    · rw [hinterest]
      exact Interest.disableEvents_passed h.passed EPOLLIN
    · intro i
      rw [hafter i, hlaw i]
      by_cases hzero : i = 0
      · subst hzero
        exact hin.symm
      · rw [if_neg hzero]
        split
        · rename_i hlast
          rw [hlast]
          exact het
        · rfl

theorem step_lawful_iff_clean {m : Mask} {s s' : State} {c : FlagCall}
    (h : Lawful m s) (hstep : step s c = some s') :
    Lawful m s' <-> Clean s c := by
  unfold Clean
  cases hcrosses : s.watcher.crosses c with
  | false =>
      exact iff_of_true (step_lawful h hcrosses hstep) fun hcross => by
        cases hcross
  | true =>
      rw [step_crossed_lawful_iff h hcrosses hstep]
      exact ⟨fun hclear _ => hclear, fun hclear => hclear rfl⟩

/--
The calls act on their own flag, whatever their order, exactly if each
`disable_ET` on a `udpevent` finds `EPOLLIN` and `EPOLLET` clear.
-/
theorem ownFlag_iff_clean {w : Watcher} {m : Mask} {calls : List FlagCall}
    {t : State} (hrun : StepFn.run step (start w m) calls = some t) :
    StepFn.Throughout step (Lawful m) (start w m) calls <->
      StepFn.Meets step Clean (start w m) calls := by
  have hiff : forall (s : State) c s', Lawful m s -> True ->
      step s c = some s' -> (Lawful m s' <-> Clean s c) :=
    fun s c s' h _ hstep => step_lawful_iff_clean h hstep
  exact StepFn.throughout_iff_meets hiff (start_lawful w m)
    (StepFn.meets_of_forall (fun _ _ => trivial) _ _) hrun

/-!
On a socket that is not interested in reading, `disable_ET` does no harm.  On a
new `udpevent` it leaves the edge trigger on and makes the socket deaf.
-/

theorem ownFlag_iff_clean_idleSocket :
    exists t, StepFn.run step (start (Watcher.udpevent Udpevent.init) EPOLLIN)
        [FlagCall.disableRead, FlagCall.disableET, FlagCall.enableRead] =
          some t ∧
      StepFn.Throughout step (Lawful EPOLLIN)
        (start (Watcher.udpevent Udpevent.init) EPOLLIN)
        [FlagCall.disableRead, FlagCall.disableET, FlagCall.enableRead] :=
  ⟨_, rfl, (ownFlag_iff_clean rfl).mpr (by decide)⟩

theorem ownFlag_fails_newSocket :
    exists t, StepFn.run step
        (start (Watcher.udpevent Udpevent.init) (EPOLLIN ||| EPOLLET))
        [FlagCall.disableET] = some t ∧
      t.watcher.interest.events = EPOLLET ∧
        ¬ Lawful (EPOLLIN ||| EPOLLET) t := by
  refine ⟨_, rfl, rfl, ?_⟩
  intro h
  cases h.bits 31

end Forwarding

end MoonNet
