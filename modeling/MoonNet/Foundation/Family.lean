import MoonNet.Foundation.Runs

/-!
# Families of machines

A system may consist of members that are machines of one kind, with a step that
moves one member or none.  What is known of the runs of a single member then
holds of all members in every run of the system.
-/

namespace MoonNet
namespace Foundation

universe u v w x

variable {state : Type u} {action : Type v} {member : Type w}
  {maction : Type x}

def Moves (mstep : StepFn member maction) (ms ms' : List member) :
    Option (Nat × maction) -> Prop
  | none => ms' = ms
  | some (i, x) =>
      exists m m', ms[i]? = some m ∧ mstep m x = some m' ∧ ms' = ms.set i m'

/-- `label` says which member a step of the system moves, and how. -/
structure Family (step : StepFn state action) (mstep : StepFn member maction)
    (members : state -> List member)
    (label : state -> action -> Option (Nat × maction)) : Prop where
  moved : forall s a s', step s a = some s' ->
    Moves mstep (members s) (members s') (label s a)

/-- The step of the member meets the guard. -/
def MemberMeets (members : state -> List member)
    (label : state -> action -> Option (Nat × maction))
    (guard : member -> maction -> Prop) (s : state) (a : action) : Prop :=
  forall i x m, label s a = some (i, x) -> (members s)[i]? = some m ->
    guard m x

namespace Moves

variable {mstep : StepFn member maction} {ms ms' : List member}
  {l : Option (Nat × maction)}

theorem length (h : Moves mstep ms ms' l) : ms'.length = ms.length := by
  cases l with
  | none => exact congrArg List.length h
  | some p =>
      rcases h with ⟨m, m', _, _, rfl⟩
      exact List.length_set

theorem get_cases (h : Moves mstep ms ms' l) {i : Nat} {m' : member}
    (hm' : ms'[i]? = some m') :
    ms[i]? = some m' ∨
      exists m x, l = some (i, x) ∧ ms[i]? = some m ∧ mstep m x = some m' := by
  cases l with
  | none =>
      have hsame : ms' = ms := h
      exact Or.inl (hsame ▸ hm')
  | some p =>
      rcases p with ⟨j, x⟩
      rcases h with ⟨m, next, hm, hstep, rfl⟩
      by_cases hij : j = i
      · subst hij
        have hlt : j < ms.length := (List.getElem?_eq_some_iff.mp hm).1
        rw [List.getElem?_set_self hlt] at hm'
        cases hm'
        exact Or.inr ⟨m, x, rfl, hm, hstep⟩
      · rw [List.getElem?_set_ne hij] at hm'
        exact Or.inl hm'

theorem all_keeps {P : member -> Prop}
    (hkeeps : forall m x m', P m -> mstep m x = some m' -> P m')
    (h : Moves mstep ms ms' l) (hall : forall m, m ∈ ms -> P m) :
    forall m, m ∈ ms' -> P m := by
  intro m' hmem
  rcases List.getElem?_of_mem hmem with ⟨i, hi⟩
  rcases h.get_cases hi with hsame | ⟨m, x, _, hm, hstep⟩
  · exact hall m' (List.mem_of_getElem? hsame)
  · exact hkeeps m x m' (hall m (List.mem_of_getElem? hm)) hstep

end Moves

namespace Family

variable {step : StepFn state action} {mstep : StepFn member maction}
  {members : state -> List member}
  {label : state -> action -> Option (Nat × maction)}

section

variable {Inv Good Bad : member -> Prop}
  {guard : member -> maction -> Prop}
  (hinv : forall m x m', Inv m -> mstep m x = some m' -> Inv m')
  (hkeep : forall m x m', Inv m -> Good m -> guard m x ->
    mstep m x = some m' -> Good m')
  (henter : forall m x m', Inv m -> ¬ guard m x -> mstep m x = some m' ->
    Bad m')
  (hstay : forall m x m', Inv m -> Bad m -> mstep m x = some m' -> Bad m')

include hkeep in
theorem all_good (h : Family step mstep members label) {s s' : state}
    {a : action} (hs : forall m, m ∈ members s -> Inv m ∧ Good m)
    (hguard : MemberMeets members label guard s a)
    (hstep : step s a = some s') : forall m, m ∈ members s' -> Good m := by
  intro m' hmem
  rcases List.getElem?_of_mem hmem with ⟨i, hi⟩
  rcases (h.moved s a s' hstep).get_cases hi with
    hsame | ⟨m, x, hlabel, hm, hone⟩
  · exact (hs m' (List.mem_of_getElem? hsame)).right
  · have hboth := hs m (List.mem_of_getElem? hm)
    exact hkeep m x m' hboth.left hboth.right (hguard i x m hlabel hm) hone

include henter in
theorem some_bad_enter (h : Family step mstep members label) {s s' : state}
    {a : action} (hs : forall m, m ∈ members s -> Inv m)
    (hguard : ¬ MemberMeets members label guard s a)
    (hstep : step s a = some s') : exists m, m ∈ members s' ∧ Bad m := by
  unfold MemberMeets at hguard
  push Not at hguard
  rcases hguard with ⟨i, x, m, hlabel, hm, hbreaks⟩
  have hmoved := h.moved s a s' hstep
  rw [hlabel] at hmoved
  rcases hmoved with ⟨m₀, m', hm₀, hone, hset⟩
  rw [hm] at hm₀
  cases hm₀
  refine ⟨m', ?_, henter m x m' (hs m (List.mem_of_getElem? hm)) hbreaks hone⟩
  rw [hset]
  exact List.mem_set (List.getElem?_eq_some_iff.mp hm).1 m'

include hstay in
theorem some_bad_stay (h : Family step mstep members label) {s s' : state}
    {a : action} (hs : forall m, m ∈ members s -> Inv m)
    (hbad : exists m, m ∈ members s ∧ Bad m) (hstep : step s a = some s') :
    exists m, m ∈ members s' ∧ Bad m := by
  rcases hbad with ⟨m, hmem, hm⟩
  have hmoved := h.moved s a s' hstep
  cases hlabel : label s a with
  | none =>
      rw [hlabel] at hmoved
      have hsame : members s' = members s := hmoved
      exact ⟨m, hsame ▸ hmem, hm⟩
  | some p =>
      rw [hlabel] at hmoved
      rcases p with ⟨i, x⟩
      rcases hmoved with ⟨m₀, m', hm₀, hone, hset⟩
      rcases List.getElem?_of_mem hmem with ⟨j, hj⟩
      by_cases hij : i = j
      · subst hij
        rw [hj] at hm₀
        cases hm₀
        refine ⟨m', ?_, hstay m x m' (hs m hmem) hm hone⟩
        rw [hset]
        exact List.mem_set (List.getElem?_eq_some_iff.mp hj).1 m'
      · refine ⟨m, ?_, hm⟩
        rw [hset]
        apply List.mem_of_getElem? (i := j)
        rw [List.getElem?_set_ne hij]
        exact hj

include hinv hkeep henter hstay in
/--
If a member is good as long as its steps meet the guard, and bad for ever after
a step that does not, no member is bad at the end of a run exactly if all steps
of the run meet the guard.
-/
theorem none_bad_iff_meets (h : Family step mstep members label)
    (hnot : forall m, Good m -> ¬ Bad m) {s t : state} {acts : List action}
    (hs : forall m, m ∈ members s -> Inv m ∧ Good m)
    (hrun : StepFn.run step s acts = some t) :
    (forall m, m ∈ members t -> ¬ Bad m) <->
      StepFn.Meets step (MemberMeets members label guard) s acts := by
  have hall : forall s a s', (forall m, m ∈ members s -> Inv m) ->
      step s a = some s' -> forall m, m ∈ members s' -> Inv m := by
    intro s a s' hs hstep
    exact (h.moved s a s' hstep).all_keeps hinv hs
  constructor
  · intro hnone
    refine StepFn.meets_of_not_absorbed hall
      (fun s a s' hs hstep hguard => h.some_bad_enter henter hs hguard hstep)
      (fun s a s' hs hbad hstep => h.some_bad_stay hstay hs hbad hstep)
      (fun m hm => (hs m hm).left) hrun ?_
    rintro ⟨m, hmem, hm⟩
    exact hnone m hmem hm
  · intro hmeets
    have hpres : forall s a s',
        (forall m, m ∈ members s -> Inv m ∧ Good m) ->
        MemberMeets members label guard s a -> step s a = some s' ->
        forall m, m ∈ members s' -> Inv m ∧ Good m := by
      intro s a s' hs hguard hstep m hm
      exact ⟨hall s a s' (fun m hm => (hs m hm).left) hstep m hm,
        h.all_good hkeep hs hguard hstep m hm⟩
    have hgood := StepFn.run_invariant_of_meets hpres hs hmeets hrun
    intro m hm
    exact hnot m (hgood m hm).right

end

end Family

end Foundation
end MoonNet
