import MoonNet.Signalevent.Model

/-!
# Routing of signals

The only step that can route a signal to a wrong object is its arrival, and it
does so exactly if `sigev_` is not the owner; a signal that is in a pipe can be
lost only with the pipe or for want of a callback.
-/

namespace MoonNet

open Foundation

universe u

namespace Signals

variable {O : Type u} {sigaction : Int -> Bool}
variable {s s' : Signals O} {o : O} {signo : Int}

theorem ofNat_castUint8 (hpos : 0 < signo) (hle : signo <= 64) :
    Int.ofNat (castUint8 signo) = signo := by
  have hmod : signo % 256 = signo :=
    Int.emod_eq_of_lt (Int.le_of_lt hpos) (by omega)
  unfold castUint8
  rw [hmod]
  exact Int.toNat_of_nonneg (Int.le_of_lt hpos)

/-!
# Steps that leave the pipes alone
-/

structure SamePipes (s s' : Signals O) : Prop where
  pipe_eq : s'.pipe = s.pipe
  arrivals_eq : s'.arrivals = s.arrivals
  reported_eq : s'.reported = s.reported

theorem SamePipes.routed_iff [DecidableEq O] (h : SamePipes s s') :
    Routed s' <-> Routed s := by
  unfold Routed owned
  rw [h.pipe_eq, h.arrivals_eq, h.reported_eq]

theorem addSignal_eq (h : s.addSignal sigaction o signo = some s') :
    sigaction signo = true ∧
      s' = { s with
        handled := Function.update s.handled signo true
        registered := (signo, o) :: s.registered } := by
  unfold addSignal at h
  split at h
  · rename_i hok
    cases h
    exact ⟨hok.right, rfl⟩
  · cases h

theorem addSignal_samePipes (h : s.addSignal sigaction o signo = some s') :
    SamePipes s s' := by
  rw [(addSignal_eq h).right]
  exact ⟨rfl, rfl, rfl⟩

theorem addSignals_samePipes {signals : List Int}
    (h : addSignals sigaction o s signals = some s') : SamePipes s s' := by
  induction signals generalizing s with
  | nil =>
      cases h
      exact ⟨rfl, rfl, rfl⟩
  | cons sig signals ih =>
      rcases Option.bind_eq_some_iff.mp h with ⟨m, hfirst, hrest⟩
      have hone := addSignal_samePipes hfirst
      have hmore := ih hrest
      exact ⟨hmore.pipe_eq.trans hone.pipe_eq,
        hmore.arrivals_eq.trans hone.arrivals_eq,
        hmore.reported_eq.trans hone.reported_eq⟩

/-!
# Invariant
-/

/-- Handlers are set only for signals that can have one, and every pipe that
was written to belongs to an object that was constructed. -/
structure Inv (sigaction : Int -> Bool) (s : Signals O) : Prop where
  handled : forall signo, s.handled signo = true -> sigaction signo = true
  sigev_created : forall o, s.sigev = some o -> s.created o = true
  pipe_created : forall o, s.created o = false -> s.pipe o = []

theorem start_inv : Inv sigaction (start : Signals O) where
  handled := nofun
  sigev_created := nofun
  pipe_created := fun _ _ => rfl

namespace Inv

theorem addSignal_inv (h : Inv sigaction s)
    (hstep : s.addSignal sigaction o signo = some s') :
    Inv sigaction s' := by
  rcases addSignal_eq hstep with ⟨hok, hs'⟩
  rw [hs']
  constructor
  case handled =>
    intro sig hsig
    by_cases heq : sig = signo
    · rw [heq]
      exact hok
    · apply h.handled
      exact (Function.update_of_ne heq true s.handled).symm.trans hsig
  case sigev_created =>
    exact h.sigev_created
  case pipe_created =>
    exact h.pipe_created

theorem addSignals_inv (h : Inv sigaction s) {signals : List Int}
    (hstep : addSignals sigaction o s signals = some s') :
    Inv sigaction s' := by
  induction signals generalizing s with
  | nil =>
      cases hstep
      exact h
  | cons sig signals ih =>
      rcases Option.bind_eq_some_iff.mp hstep with ⟨m, hfirst, hrest⟩
      exact ih (h.addSignal_inv hfirst) hrest

variable [DecidableEq O]

theorem pipe_cleared {x : O} (hx : x ≠ o -> s.pipe x = []) :
    Function.update s.pipe o [] x = [] := by
  by_cases hxo : x = o
  · rw [hxo, Function.update_self]
  · rw [Function.update_of_ne hxo]
    exact hx hxo

theorem construct_inv (h : Inv sigaction s) (hstep : s.construct o = some s') :
    Inv sigaction s' := by
  unfold construct at hstep
  split at hstep
  · cases hstep
  · cases hstep
    constructor
    case handled =>
      exact h.handled
    case sigev_created =>
      intro x hx
      cases hx
      exact Function.update_self _ _ _
    case pipe_created =>
      intro x hx
      refine pipe_cleared fun hxo => h.pipe_created x ?_
      exact (Function.update_of_ne hxo true s.created).symm.trans hx

theorem destroy_inv (h : Inv sigaction s) (hstep : s.destroy o = some s') :
    Inv sigaction s' := by
  unfold destroy at hstep
  split at hstep
  · cases hstep
    constructor
    case handled =>
      exact h.handled
    case sigev_created =>
      nofun
    case pipe_created =>
      intro x hx
      exact pipe_cleared fun _ => h.pipe_created x hx
  · cases hstep

theorem setcb_inv (h : Inv sigaction s) {cb : Bool}
    (hstep : s.setcb o cb = some s') : Inv sigaction s' := by
  unfold setcb at hstep
  split at hstep
  · cases hstep
    exact ⟨h.handled, h.sigev_created, h.pipe_created⟩
  · cases hstep

theorem arrive_inv (h : Inv sigaction s) : Inv sigaction (s.arrive signo) := by
  unfold arrive
  split
  · unfold handleSignal
    split
    · exact ⟨h.handled, h.sigev_created, h.pipe_created⟩
    · rename_i x hx
      refine ⟨h.handled, h.sigev_created, ?_⟩
      intro y hy
      have hne : y ≠ x := by
        intro heq
        rw [heq, h.sigev_created x hx] at hy
        cases hy
      show Function.update s.pipe x _ y = []
      rw [Function.update_of_ne hne]
      exact h.pipe_created y hy
  · exact h

theorem handleRead_inv (h : Inv sigaction s)
    (hstep : s.handleRead o = some s') : Inv sigaction s' := by
  unfold handleRead at hstep
  split at hstep
  · cases hstep
    refine ⟨h.handled, h.sigev_created, ?_⟩
    intro x hx
    show Function.update s.pipe o _ x = []
    by_cases hxo : x = o
    · rw [hxo] at hx ⊢
      rw [Function.update_self, h.pipe_created o hx, List.drop_nil]
    · rw [Function.update_of_ne hxo]
      exact h.pipe_created x hx
  · cases hstep

theorem step_inv (h : Inv sigaction s) {a : Action O}
    (hstep : step sigaction s a = some s') : Inv sigaction s' := by
  cases a with
  | construct o => exact h.construct_inv hstep
  | destroy o => exact h.destroy_inv hstep
  | addSignal o signo => exact h.addSignal_inv hstep
  | addSignals o signals => exact h.addSignals_inv hstep
  | setcb o => exact h.setcb_inv hstep
  | disableCb o => exact h.setcb_inv hstep
  | arrive signo =>
      cases hstep
      exact h.arrive_inv
  | handleRead o => exact h.handleRead_inv hstep

end Inv

/-!
# Routing
-/

variable [DecidableEq O]

theorem setcb_samePipes {cb : Bool} (h : s.setcb o cb = some s') :
    SamePipes s s' := by
  unfold setcb at h
  split at h
  · cases h
    exact ⟨rfl, rfl, rfl⟩
  · cases h

theorem routed_construct (h : Routed s) (hinv : Inv sigaction s)
    (hstep : s.construct o = some s') : Routed s' := by
  unfold construct at hstep
  split at hstep
  · cases hstep
  · rename_i hnew
    cases hstep
    have hpipe : s.pipe o = [] :=
      hinv.pipe_created o (eq_false_of_ne_true hnew)
    have hsame : Function.update s.pipe o [] = s.pipe := by
      rw [<- hpipe]
      exact Function.update_eq_self o s.pipe
    intro x
    show s.reported x ++ (Function.update s.pipe o [] x).map Int.ofNat = _
    rw [hsame]
    exact h x

theorem routed_destroy_iff (h : Routed s) (hstep : s.destroy o = some s') :
    Routed s' <-> s.pipe o = [] := by
  unfold destroy at hstep
  split at hstep
  · cases hstep
    have hpipe : forall x, x ≠ o ->
        Function.update s.pipe o [] x = s.pipe x :=
      fun x hx => Function.update_of_ne hx [] s.pipe
    constructor
    · intro hrouted
      have hafter : s.reported o ++
          (Function.update s.pipe o [] o).map Int.ofNat = s.owned o :=
        hrouted o
      rw [<- h o, Function.update_self] at hafter
      have hmap := List.append_cancel_left hafter
      exact List.map_eq_nil_iff.mp hmap.symm
    · intro hempty x
      show s.reported x ++ (Function.update s.pipe o [] x).map Int.ofNat =
        s.owned x
      by_cases hx : x = o
      · rw [hx, Function.update_self, <- hempty]
        exact h o
      · rw [hpipe x hx]
        exact h x
  · cases hstep

theorem routed_handleRead_iff (h : Routed s)
    (hstep : s.handleRead o = some s') :
    Routed s' <-> s.cb o = true ∨ s.pipe o = [] := by
  unfold handleRead at hstep
  split at hstep
  · cases hstep
    by_cases hcb : s.cb o = true
    · refine iff_of_true ?_ (Or.inl hcb)
      intro x
      simp only [hcb, if_true]
      by_cases hx : x = o
      · rw [hx, Function.update_self, Function.update_self,
          List.append_assoc, <- List.map_append, List.take_append_drop]
        exact h o
      · rw [Function.update_of_ne hx, Function.update_of_ne hx]
        exact h x
    · rw [or_iff_right hcb]
      simp only [if_neg hcb]
      constructor
      · intro hrouted
        have hafter : s.reported o ++
            (Function.update s.pipe o ((s.pipe o).drop READ_SIZE) o).map
              Int.ofNat = s.owned o :=
          hrouted o
        rw [<- h o, Function.update_self] at hafter
        have hlength := congrArg List.length (List.append_cancel_left hafter)
        rw [List.length_map, List.length_map, List.length_drop] at hlength
        apply List.eq_nil_of_length_eq_zero
        unfold READ_SIZE at hlength
        omega
      · intro hempty x
        show s.reported x ++ (Function.update s.pipe o
          ((s.pipe o).drop READ_SIZE) x).map Int.ofNat = s.owned x
        have hsame : Function.update s.pipe o ((s.pipe o).drop READ_SIZE) =
            s.pipe := by
          rw [hempty, List.drop_nil, <- hempty]
          exact Function.update_eq_self o s.pipe
        rw [hsame]
        exact h x
  · cases hstep

/-!
# Arrivals
-/

theorem option_eq_iff {x y : Option O} {a : Int} :
    x = y <-> forall o, (if x = some o then [a] else []) =
      if y = some o then [a] else [] := by
  constructor
  · intro h o
    rw [h]
  · intro h
    apply Option.ext
    intro o
    have ho := h o
    constructor
    · intro hx
      by_contra hy
      rw [if_pos hx, if_neg hy] at ho
      cases ho
    · intro hy
      by_contra hx
      rw [if_neg hx, if_pos hy] at ho
      cases ho

theorem pipe_handleSignal (hbyte : Int.ofNat (castUint8 signo) = signo)
    (x : O) :
    ((s.handleSignal signo).pipe x).map Int.ofNat =
      (s.pipe x).map Int.ofNat ++
        if s.sigev = some x then [signo] else [] := by
  unfold handleSignal
  cases hsigev : s.sigev with
  | none =>
      simp
  | some y =>
      by_cases hx : x = y
      · rw [hx]
        simp only [Function.update_self, List.map_append, List.map_cons,
          List.map_nil, hbyte, if_true]
      · have hne : ¬ some y = some x := by
          intro heq
          cases heq
          exact hx rfl
        simp only [Function.update_of_ne hx]
        rw [if_neg hne, List.append_nil]

theorem handleSignal_reported :
    (s.handleSignal signo).reported = s.reported := by
  unfold handleSignal
  split <;> rfl

theorem owned_arrive (hhandled : s.handled signo = true) (x : O) :
    (s.arrive signo).owned x =
      s.owned x ++ if s.owner signo = some x then [signo] else [] := by
  unfold arrive owned
  rw [if_pos hhandled]
  simp only [List.filter_append, List.map_append]
  congr 1
  by_cases hx : s.owner signo = some x
  · simp [hx]
  · simp [hx]

theorem routed_arrive_iff (h : Routed s)
    (hbyte : s.handled signo = true -> Int.ofNat (castUint8 signo) = signo) :
    Routed (s.arrive signo) <->
      (s.handled signo = true -> s.sigev = s.owner signo) := by
  by_cases hhandled : s.handled signo = true
  · have hleft : forall x, (s.arrive signo).reported x ++
        ((s.arrive signo).pipe x).map Int.ofNat =
          s.owned x ++ if s.sigev = some x then [signo] else [] := by
      intro x
      unfold arrive
      rw [if_pos hhandled]
      show (s.handleSignal signo).reported x ++ _ = _
      rw [handleSignal_reported, pipe_handleSignal (hbyte hhandled) x,
        <- List.append_assoc, h x]
    have hequal : Routed (s.arrive signo) <->
        forall x, (if s.sigev = some x then [signo] else []) =
          if s.owner signo = some x then [signo] else [] := by
      apply forall_congr'
      intro x
      rw [hleft x, owned_arrive hhandled x]
      exact List.append_cancel_left_eq _ _ _ |>.to_iff
    rw [hequal, <- option_eq_iff]
    simp [hhandled]
  · unfold arrive
    rw [if_neg hhandled]
    exact iff_of_true h fun hno => absurd hno hhandled

/-!
# Runs
-/

theorem step_routed_iff
    (hsignal : forall signo, sigaction signo = true ->
      0 < signo ∧ signo <= 64)
    (h : Routed s) (hinv : Inv sigaction s) {a : Action O}
    (hstep : step sigaction s a = some s') :
    Routed s' <-> s.Undisturbed a := by
  cases a with
  | construct o => exact iff_of_true (routed_construct h hinv hstep) trivial
  | destroy o => exact routed_destroy_iff h hstep
  | addSignal o signo =>
      have hsame := addSignal_samePipes hstep
      exact iff_of_true (hsame.routed_iff.mpr h) trivial
  | addSignals o signals =>
      have hsame := addSignals_samePipes hstep
      exact iff_of_true (hsame.routed_iff.mpr h) trivial
  | setcb o =>
      have hsame := setcb_samePipes hstep
      exact iff_of_true (hsame.routed_iff.mpr h) trivial
  | disableCb o =>
      have hsame := setcb_samePipes hstep
      exact iff_of_true (hsame.routed_iff.mpr h) trivial
  | arrive signo =>
      cases hstep
      apply routed_arrive_iff h
      intro hhandled
      rcases hsignal signo (hinv.handled signo hhandled) with ⟨hpos, hle⟩
      exact ofNat_castUint8 hpos hle
  | handleRead o => exact routed_handleRead_iff h hstep

theorem start_routed : Routed (start : Signals O) :=
  fun _ => rfl

/--
In a run of any objects and signals, every signal that arrives goes to its owner
and to no other object exactly if `sigev_` is the owner at each arrival and no
pipe is closed, or read without a callback, while it holds signals.
-/
theorem routed_iff_undisturbed (sigaction : Int -> Bool)
    (hsignal : forall signo, sigaction signo = true ->
      0 < signo ∧ signo <= 64)
    (acts : List (Action O)) (s : Signals O)
    (hrun : StepFn.run (step sigaction) start acts = some s) :
    StepFn.Throughout (step sigaction) Routed start acts <->
      StepFn.Meets (step sigaction) Undisturbed start acts := by
  have hkeep : forall (s : Signals O) a s', Inv sigaction s ->
      step sigaction s a = some s' -> Inv sigaction s' := by
    intro s a s' h hstep
    exact h.step_inv hstep
  have hiff : forall (s : Signals O) a s', Routed s -> Inv sigaction s ->
      step sigaction s a = some s' -> (Routed s' <-> s.Undisturbed a) := by
    intro s a s' h hinv hstep
    exact step_routed_iff hsignal h hinv hstep
  exact StepFn.throughout_iff_meets hiff start_routed
    (StepFn.meets_of_invariant hkeep start_inv acts) hrun

def catchable (signo : Int) : Bool :=
  decide (0 < signo ∧ signo <= 64 ∧ signo ≠ 9 ∧ signo ≠ 19)

def oneAfterTheOther : List (Action Bool) :=
  addSev false 10 ++
    [Action.arrive 10, Action.handleRead false, Action.destroy false] ++
    addSev true 10 ++ [Action.arrive 10, Action.handleRead true]

theorem routed_iff_undisturbed_oneAfterTheOther :
    exists s, StepFn.run (step catchable) start oneAfterTheOther = some s ∧
      s.reported false = [10] ∧ s.reported true = [10] ∧
      StepFn.Throughout (step catchable) Routed start oneAfterTheOther := by
  have hsignal : forall signo, catchable signo = true ->
      0 < signo ∧ signo <= 64 := by
    intro signo h
    have hall := of_decide_eq_true h
    exact ⟨hall.left, hall.right.left⟩
  have hreached : exists s,
      StepFn.run (step catchable) start oneAfterTheOther = some s ∧
        s.reported false = [10] ∧ s.reported true = [10] :=
    ⟨_, rfl, rfl, rfl⟩
  have hmeets : StepFn.Meets (step catchable) Undisturbed start
      oneAfterTheOther :=
    ⟨trivial, trivial, trivial, fun _ => rfl, Or.inl rfl, rfl, trivial,
      trivial, trivial, fun _ => rfl, Or.inl rfl, trivial⟩
  rcases hreached with ⟨s, hrun, hfirst, hsecond⟩
  exact ⟨s, hrun, hfirst, hsecond,
    (routed_iff_undisturbed catchable hsignal oneAfterTheOther s hrun).mpr
      hmeets⟩

/--
Two signal events as `server::add_sev` makes them: the signal of the first one
is reported by the second one, and is lost once the second one is destroyed.
-/
theorem routed_fails_twoSignalevents :
    exists s,
      StepFn.run (step catchable) start
          (addSev false 10 ++ addSev true 12 ++
            [Action.arrive 10, Action.handleRead false,
              Action.handleRead true, Action.destroy true,
              Action.arrive 10, Action.handleRead false]) = some s ∧
        s.live false = true ∧ s.owned false = [10, 10] ∧
        s.reported false = [] ∧ s.reported true = [10] ∧ ¬ Routed s := by
  refine ⟨_, rfl, rfl, rfl, rfl, rfl, ?_⟩
  intro h
  have hfirst := h false
  cases hfirst

end Signals

end MoonNet
