import MoonNet.Foundation.Runs

/-!
# Refinement mappings

A mapping takes the states of a system to those of an abstract one, and each of
its steps to an abstract step or to none.  What is known of the abstract steps
then holds of the steps and the runs of the system.
-/

namespace MoonNet
namespace Foundation

universe u v w x

namespace StepFn

variable {state : Type u} {action : Type v} {astate : Type w}
  {aaction : Type x}

/-- No abstract action stands for an abstract state that stays the same. -/
def Matches (astep : StepFn astate aaction) (q q' : astate) :
    Option aaction -> Prop
  | none => q' = q
  | some x => astep q x = some q'

/--
`abs` and `label` map the steps of a system to abstract steps, in the states of
an invariant.
-/
structure Maps (step : StepFn state action) (astep : StepFn astate aaction)
    (Inv : state -> Prop) (abs : state -> astate)
    (label : state -> action -> Option aaction) : Prop where
  keeps : forall s a s', Inv s -> step s a = some s' -> Inv s'
  matched : forall s a s', Inv s -> step s a = some s' ->
    Matches astep (abs s) (abs s') (label s a)

namespace Maps

variable {step : StepFn state action} {astep : StepFn astate aaction}
  {Inv : state -> Prop} {abs : state -> astate}
  {label : state -> action -> Option aaction}

/--
What every abstract step that meets the guard keeps, every step keeps of the
mapped states that is mapped to such a step.
-/
theorem step_keeps_of_guard (h : Maps step astep Inv abs label)
    {P : astate -> Prop} {guard : astate -> aaction -> Prop}
    (hkeeps : forall q x q', P q -> guard q x -> astep q x = some q' -> P q')
    {s s' : state} {a : action} (hs : Inv s) (hP : P (abs s))
    (hguard : forall x, label s a = some x -> guard (abs s) x)
    (hstep : step s a = some s') : P (abs s') := by
  have hmatch := h.matched s a s' hs hstep
  cases hlabel : label s a with
  | none =>
      rw [hlabel] at hmatch
      have hsame : abs s' = abs s := hmatch
      rw [hsame]
      exact hP
  | some x =>
      rw [hlabel] at hmatch
      exact hkeeps _ _ _ hP (hguard x hlabel) hmatch

theorem step_keeps (h : Maps step astep Inv abs label) {P : astate -> Prop}
    (hkeeps : forall q x q', P q -> astep q x = some q' -> P q')
    {s s' : state} {a : action} (hs : Inv s) (hP : P (abs s))
    (hstep : step s a = some s') : P (abs s') :=
  h.step_keeps_of_guard (fun q x q' hq (_ : True) => hkeeps q x q' hq) hs hP
    (fun _ _ => trivial) hstep

theorem run_keeps (h : Maps step astep Inv abs label) {P : astate -> Prop}
    (hkeeps : forall q x q', P q -> astep q x = some q' -> P q') {s t : state}
    {acts : List action} (hs : Inv s) (hP : P (abs s))
    (hrun : StepFn.run step s acts = some t) : Inv t ∧ P (abs t) := by
  have hpres : forall s a s', Inv s ∧ P (abs s) -> step s a = some s' ->
      Inv s' ∧ P (abs s') := by
    intro s a s' hboth hstep
    exact ⟨h.keeps s a s' hboth.left hstep,
      h.step_keeps hkeeps hboth.left hboth.right hstep⟩
  exact run_invariant hpres ⟨hs, hP⟩ hrun

/--
If an abstract step from a good state ends in a good state exactly if it meets
the guard, so does a step, by what it is mapped to.
-/
theorem step_iff (h : Maps step astep Inv abs label) {P : astate -> Prop}
    {guard : astate -> aaction -> Prop}
    (hiff : forall q x q', P q -> astep q x = some q' ->
      (P q' <-> guard q x))
    {s s' : state} {a : action} (hs : Inv s) (hP : P (abs s))
    (hstep : step s a = some s') :
    P (abs s') <-> forall x, label s a = some x -> guard (abs s) x := by
  have hmatch := h.matched s a s' hs hstep
  cases hlabel : label s a with
  | none =>
      rw [hlabel] at hmatch
      have hsame : abs s' = abs s := hmatch
      rw [hsame]
      exact iff_of_true hP nofun
  | some x =>
      rw [hlabel] at hmatch
      rw [hiff _ _ _ hP hmatch]
      constructor
      · intro hguard y hy
        exact Option.some.inj hy ▸ hguard
      · intro hall
        exact hall x rfl

end Maps

end StepFn

end Foundation
end MoonNet
