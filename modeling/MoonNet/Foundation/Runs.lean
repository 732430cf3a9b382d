import Mathlib.Data.List.Basic

/-!
# Runs of partial transition functions

A system is a labelled partial step function: an action that is not enabled in
a state has no successor.  This module collects the induction rules that every
system of the development uses: invariants along a run, runs whose steps all
meet a side condition, and refinement of an abstract machine with outputs.
-/

namespace MoonNet
namespace Foundation

universe u v w x

/-- A labelled partial step; `none` means that the action is not enabled. -/
abbrev StepFn (state : Type u) (action : Type v) :=
  state -> action -> Option state

namespace StepFn

variable {state : Type u} {action : Type v}

def run (step : StepFn state action) : state -> List action -> Option state
  | s, [] => some s
  | s, a :: rest =>
      match step s a with
      | none => none
      | some s' => run step s' rest

@[simp] theorem run_nil (step : StepFn state action) (s : state) :
    run step s [] = some s := rfl

theorem run_cons_eq_some {step : StepFn state action} {s t : state}
    {a : action} {rest : List action} :
    run step s (a :: rest) = some t <->
      exists s', step s a = some s' ∧ run step s' rest = some t := by
  cases hstep : step s a with
  | none =>
      simp [run, hstep]
  | some s' =>
      simp [run, hstep]

theorem run_append {step : StepFn state action} {s t : state}
    {xs ys : List action} :
    run step s (xs ++ ys) = some t <->
      exists m, run step s xs = some m ∧ run step m ys = some t := by
  induction xs generalizing s with
  | nil =>
      simp
  | cons a rest ih =>
      constructor
      · intro h
        rcases run_cons_eq_some.mp h with ⟨s', hstep, hrest⟩
        rcases ih.mp hrest with ⟨m, hm, hys⟩
        exact ⟨m, run_cons_eq_some.mpr ⟨s', hstep, hm⟩, hys⟩
      · intro h
        rcases h with ⟨m, hm, hys⟩
        rcases run_cons_eq_some.mp hm with ⟨s', hstep, hrest⟩
        exact run_cons_eq_some.mpr ⟨s', hstep, ih.mpr ⟨m, hrest, hys⟩⟩

/-!
## Invariants
-/

/-- A property that every enabled step keeps holds at the end of every run. -/
theorem run_invariant {step : StepFn state action} {Inv : state -> Prop}
    (hstep : forall s a s', Inv s -> step s a = some s' -> Inv s')
    {s t : state} {acts : List action}
    (hs : Inv s) (hrun : run step s acts = some t) : Inv t := by
  induction acts generalizing s with
  | nil =>
      cases hrun
      exact hs
  | cons a rest ih =>
      rcases run_cons_eq_some.mp hrun with ⟨s', ha, hrest⟩
      exact ih (hstep s a s' hs ha) hrest

/-!
## Side conditions along a run

`Meets step guard s acts` says that each action of the run satisfies `guard` in
the state in which it is taken, and `Throughout step P s acts` that `P` holds in
every state the run passes through, the first and the last included.
-/

def Meets (step : StepFn state action) (guard : state -> action -> Prop) :
    state -> List action -> Prop
  | _, [] => True
  | s, a :: rest =>
      guard s a ∧
        match step s a with
        | none => True
        | some s' => Meets step guard s' rest

def Throughout (step : StepFn state action) (P : state -> Prop) :
    state -> List action -> Prop
  | s, [] => P s
  | s, a :: rest =>
      P s ∧
        match step s a with
        | none => True
        | some s' => Throughout step P s' rest

theorem meets_cons_of_step {step : StepFn state action}
    {guard : state -> action -> Prop} {s s' : state} {a : action}
    {rest : List action} (hstep : step s a = some s') :
    Meets step guard s (a :: rest) <-> guard s a ∧ Meets step guard s' rest := by
  simp [Meets, hstep]

theorem throughout_cons_of_step {step : StepFn state action}
    {P : state -> Prop} {s s' : state} {a : action}
    {rest : List action} (hstep : step s a = some s') :
    Throughout step P s (a :: rest) <-> P s ∧ Throughout step P s' rest := by
  simp [Throughout, hstep]

theorem throughout_head {step : StepFn state action} {P : state -> Prop}
    {s : state} {acts : List action} (h : Throughout step P s acts) : P s := by
  cases acts with
  | nil => exact h
  | cons a rest => exact h.left

theorem throughout_last {step : StepFn state action} {P : state -> Prop}
    {s t : state} {acts : List action} (h : Throughout step P s acts)
    (hrun : run step s acts = some t) : P t := by
  induction acts generalizing s with
  | nil =>
      cases hrun
      exact h
  | cons a rest ih =>
      rcases run_cons_eq_some.mp hrun with ⟨s', ha, hrest⟩
      exact ih ((throughout_cons_of_step ha).mp h).right hrest

theorem meets_take {step : StepFn state action}
    {guard : state -> action -> Prop} {s : state} {acts : List action}
    (h : Meets step guard s acts) (k : Nat) :
    Meets step guard s (acts.take k) := by
  induction acts generalizing s k with
  | nil =>
      simpa using h
  | cons a rest ih =>
      cases k with
      | zero =>
          trivial
      | succ k =>
          cases hstep : step s a with
          | none =>
              simpa [Meets, hstep] using h
          | some s' =>
              have hsplit := (meets_cons_of_step hstep).mp h
              exact (meets_cons_of_step hstep).mpr
                ⟨hsplit.left, ih hsplit.right k⟩

theorem meets_of_forall_mem {step : StepFn state action}
    {guard : state -> action -> Prop} {acts : List action}
    (h : forall a, a ∈ acts -> forall s, guard s a) (s : state) :
    Meets step guard s acts := by
  induction acts generalizing s with
  | nil =>
      trivial
  | cons a rest ih =>
      refine ⟨h a List.mem_cons_self s, ?_⟩
      split
      · trivial
      · exact ih (fun b hb => h b (List.mem_cons_of_mem a hb)) _

theorem meets_of_forall {step : StepFn state action}
    {guard : state -> action -> Prop} (h : forall s a, guard s a) (s : state)
    (acts : List action) : Meets step guard s acts :=
  meets_of_forall_mem (fun a _ s => h s a) s

theorem meets_of_invariant_of_meets {step : StepFn state action}
    {guard post : state -> action -> Prop} {Inv : state -> Prop}
    (hstep : forall s a s', Inv s -> guard s a -> step s a = some s' -> Inv s')
    (hpost : forall s a, Inv s -> guard s a -> post s a) {s : state}
    (hs : Inv s) {acts : List action} (hmeets : Meets step guard s acts) :
    Meets step post s acts := by
  induction acts generalizing s with
  | nil =>
      trivial
  | cons a rest ih =>
      refine ⟨hpost s a hs hmeets.left, ?_⟩
      have hrest := hmeets.right
      split
      · trivial
      · rename_i s' ha
        simp only [ha] at hrest
        exact ih (hstep s a s' hs hmeets.left ha) hrest

theorem meets_of_invariant {step : StepFn state action} {Inv : state -> Prop}
    (hstep : forall s a s', Inv s -> step s a = some s' -> Inv s')
    {s : state} (hs : Inv s) (acts : List action) :
    Meets step (fun s _ => Inv s) s acts :=
  meets_of_invariant_of_meets (fun s a s' h _ ha => hstep s a s' h ha)
    (fun _ _ h _ => h) hs (meets_of_forall (fun _ _ => trivial) s acts)

theorem throughout_of_invariant {step : StepFn state action}
    {Inv P : state -> Prop}
    (hstep : forall s a s', Inv s -> step s a = some s' -> Inv s')
    (himp : forall s, Inv s -> P s) {s : state} (hs : Inv s)
    (acts : List action) : Throughout step P s acts := by
  induction acts generalizing s with
  | nil =>
      exact himp s hs
  | cons a rest ih =>
      refine ⟨himp s hs, ?_⟩
      split
      · trivial
      · rename_i s' ha
        exact ih (hstep s a s' hs ha)

theorem Meets.imp {step : StepFn state action}
    {guard guard' : state -> action -> Prop}
    (himp : forall s a, guard s a -> guard' s a) {s : state}
    {acts : List action} (h : Meets step guard s acts) :
    Meets step guard' s acts := by
  induction acts generalizing s with
  | nil =>
      trivial
  | cons a rest ih =>
      refine ⟨himp s a h.left, ?_⟩
      have hrest := h.right
      split
      · trivial
      · rename_i s' ha
        simp only [ha] at hrest
        exact ih hrest

theorem Meets.and {step : StepFn state action}
    {guard guard' : state -> action -> Prop} {s : state} {acts : List action}
    (h : Meets step guard s acts) (h' : Meets step guard' s acts) :
    Meets step (fun s a => guard s a ∧ guard' s a) s acts := by
  induction acts generalizing s with
  | nil =>
      trivial
  | cons a rest ih =>
      refine ⟨⟨h.left, h'.left⟩, ?_⟩
      have hrest := h.right
      have hrest' := h'.right
      split
      · trivial
      · rename_i s' ha
        simp only [ha] at hrest hrest'
        exact ih hrest hrest'

instance decidableMeets (step : StepFn state action)
    (guard : state -> action -> Prop) [inst : forall s a, Decidable (guard s a)] :
    forall s acts, Decidable (Meets step guard s acts)
  | _, [] => inferInstanceAs (Decidable True)
  | s, a :: rest =>
      match hstep : step s a with
      | none =>
          decidable_of_iff (guard s a) (by simp [Meets, hstep])
      | some s' =>
          have := decidableMeets step guard s' rest
          decidable_of_iff (guard s a ∧ Meets step guard s' rest)
            (by simp [Meets, hstep])

theorem run_invariant_of_meets {step : StepFn state action}
    {guard : state -> action -> Prop} {Inv : state -> Prop}
    (hstep : forall s a s', Inv s -> guard s a -> step s a = some s' -> Inv s')
    {s t : state} {acts : List action} (hs : Inv s)
    (hmeets : Meets step guard s acts) (hrun : run step s acts = some t) :
    Inv t := by
  induction acts generalizing s with
  | nil =>
      cases hrun
      exact hs
  | cons a rest ih =>
      rcases run_cons_eq_some.mp hrun with ⟨s', ha, hrest⟩
      have hsplit := (meets_cons_of_step ha).mp hmeets
      exact ih (hstep s a s' hs hsplit.left ha) hsplit.right hrest

/--
When a step from a good state ends in a good state exactly if it meets the
guard, a run stays good throughout exactly if all its steps meet the guard.
-/
theorem throughout_iff_meets {step : StepFn state action}
    {side guard : state -> action -> Prop} {P : state -> Prop}
    (hiff : forall s a s', P s -> side s a -> step s a = some s' ->
      (P s' <-> guard s a))
    {s t : state} {acts : List action} (hs : P s)
    (hside : Meets step side s acts) (hrun : run step s acts = some t) :
    Throughout step P s acts <-> Meets step guard s acts := by
  induction acts generalizing s with
  | nil =>
      simp [Throughout, Meets, hs]
  | cons a rest ih =>
      rcases run_cons_eq_some.mp hrun with ⟨s', ha, hrest⟩
      have hsplit := (meets_cons_of_step ha).mp hside
      rw [throughout_cons_of_step ha, meets_cons_of_step ha]
      have hone := hiff s a s' hs hsplit.left ha
      constructor
      · intro h
        have hs' : P s' := throughout_head h.right
        exact ⟨hone.mp hs', (ih hs' hsplit.right hrest).mp h.right⟩
      · intro h
        have hs' : P s' := hone.mpr h.left
        exact ⟨hs, (ih hs' hsplit.right hrest).mpr h.right⟩

/--
Two side conditions that agree in the states of an invariant, which the steps
that meet them keep, are met by the same runs.
-/
theorem meets_iff_of_invariant {step : StepFn state action}
    {guard guard' : state -> action -> Prop} {Inv : state -> Prop}
    (hiff : forall s a, Inv s -> (guard s a <-> guard' s a))
    (hstep : forall s a s', Inv s -> guard s a -> step s a = some s' -> Inv s')
    {s : state} (hs : Inv s) (acts : List action) :
    Meets step guard s acts <-> Meets step guard' s acts := by
  have hstep' : forall s a s', Inv s -> guard' s a -> step s a = some s' ->
      Inv s' := by
    intro s a s' h hguard ha
    exact hstep s a s' h ((hiff s a h).mpr hguard) ha
  constructor
  · intro h
    exact meets_of_invariant_of_meets hstep
      (fun s a hinv hguard => (hiff s a hinv).mp hguard) hs h
  · intro h
    exact meets_of_invariant_of_meets hstep'
      (fun s a hinv hguard => (hiff s a hinv).mpr hguard) hs h

/--
If a step that breaks the guard enters a set of states that no allowed step
leaves, every allowed run that ends outside this set meets the guard.
-/
theorem meets_of_not_absorbed_of_side {step : StepFn state action}
    {guard side : state -> action -> Prop} {Inv Bad : state -> Prop}
    (hinv : forall s a s', Inv s -> side s a -> step s a = some s' -> Inv s')
    (henter : forall s a s', Inv s -> side s a -> step s a = some s' ->
      ¬ guard s a -> Bad s')
    (hstay : forall s a s', Inv s -> Bad s -> side s a ->
      step s a = some s' -> Bad s')
    {s t : state} {acts : List action} (hs : Inv s)
    (hside : Meets step side s acts)
    (hrun : run step s acts = some t) (hgood : ¬ Bad t) :
    Meets step guard s acts := by
  induction acts generalizing s with
  | nil =>
      trivial
  | cons a rest ih =>
      rcases run_cons_eq_some.mp hrun with ⟨s', ha, hrest⟩
      have hsplit := (meets_cons_of_step ha).mp hside
      have hs' : Inv s' := hinv s a s' hs hsplit.left ha
      apply (meets_cons_of_step ha).mpr
      constructor
      · by_contra hguard
        have hpres : forall s a s', Inv s ∧ Bad s -> side s a ->
            step s a = some s' -> Inv s' ∧ Bad s' := by
          intro s a s' h hside hstep
          exact ⟨hinv s a s' h.left hside hstep,
            hstay s a s' h.left h.right hside hstep⟩
        have hbad : Inv t ∧ Bad t :=
          run_invariant_of_meets hpres
            ⟨hs', henter s a s' hs hsplit.left ha hguard⟩ hsplit.right hrest
        exact hgood hbad.right
      · exact ih hs' hsplit.right hrest

theorem meets_of_not_absorbed {step : StepFn state action}
    {guard : state -> action -> Prop} {Inv Bad : state -> Prop}
    (hinv : forall s a s', Inv s -> step s a = some s' -> Inv s')
    (henter : forall s a s', Inv s -> step s a = some s' -> ¬ guard s a -> Bad s')
    (hstay : forall s a s', Inv s -> Bad s -> step s a = some s' -> Bad s')
    {s t : state} {acts : List action} (hs : Inv s)
    (hrun : run step s acts = some t) (hgood : ¬ Bad t) :
    Meets step guard s acts :=
  meets_of_not_absorbed_of_side
    (fun s a s' h _ hstep => hinv s a s' h hstep)
    (fun s a s' h _ hstep => henter s a s' h hstep)
    (fun s a s' h hbad _ hstep => hstay s a s' h hbad hstep)
    hs (meets_of_forall (fun _ _ => trivial) s acts) hrun hgood

end StepFn

/-!
## Machines with outputs

A machine with outputs returns an observation with each successor.  An abstract
machine is total; refinement says that the concrete one is never stuck and
shows the same observations.
-/

abbrev OutStepFn (state : Type u) (action : Type v) (out : Type w) :=
  state -> action -> Option (state × out)

namespace OutStepFn

variable {state : Type u} {action : Type v} {out : Type w} {astate : Type x}

def toStepFn (step : OutStepFn state action out) : StepFn state action :=
  fun s a => (step s a).map Prod.fst

def runOut (step : OutStepFn state action out) :
    state -> List action -> Option (state × List out)
  | s, [] => some (s, [])
  | s, a :: rest =>
      match step s a with
      | none => none
      | some (s', o) => (runOut step s' rest).map fun r => (r.fst, o :: r.snd)

def runTotal (step : astate -> action -> astate × out) :
    astate -> List action -> astate × List out
  | q, [] => (q, [])
  | q, a :: rest =>
      let next := step q a
      let tail := runTotal step next.fst rest
      (tail.fst, next.snd :: tail.snd)

theorem toStepFn_eq_some {step : OutStepFn state action out} {s s' : state}
    {a : action} {o : out} (h : step s a = some (s', o)) :
    toStepFn step s a = some s' := by
  simp [toStepFn, h]

/--
Forward simulation with equal observations: every run allowed by the side
condition is executed without getting stuck, with the abstract observations.
-/
theorem runOut_refines {step : OutStepFn state action out}
    {astep : astate -> action -> astate × out}
    {R : state -> astate -> Prop} {side : state -> action -> Prop}
    (hstep : forall s q a, R s q -> side s a ->
      exists s', step s a = some (s', (astep q a).snd) ∧ R s' (astep q a).fst)
    {acts : List action} {s : state} {q : astate} (hR : R s q)
    (hside : StepFn.Meets (toStepFn step) side s acts) :
    exists s', runOut step s acts = some (s', (runTotal astep q acts).snd) ∧
      R s' (runTotal astep q acts).fst := by
  induction acts generalizing s q with
  | nil =>
      exact ⟨s, rfl, hR⟩
  | cons a rest ih =>
      rcases hstep s q a hR hside.left with ⟨s', hs', hR'⟩
      have hsplit :=
        (StepFn.meets_cons_of_step (toStepFn_eq_some hs')).mp hside
      rcases ih hR' hsplit.right with ⟨t, ht, hRt⟩
      refine ⟨t, ?_, hRt⟩
      simp [runOut, hs', ht, runTotal]

end OutStepFn

end Foundation
end MoonNet
