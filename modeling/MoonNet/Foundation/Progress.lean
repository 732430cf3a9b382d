import MoonNet.Foundation.Runs

/-!
# What can be reached without help

Some of the actions of a system are its own, the others need help from outside.
If one of its own steps always lowers a rank, it can reach its goal alone; from
a set of states that its own steps do not leave, it cannot.
-/

namespace MoonNet
namespace Foundation

universe u v

namespace StepFn

variable {state : Type u} {action : Type v} {step : StepFn state action}
  {own : action -> Prop} {goal : state -> Prop}

/-- Steps with actions of `own` lead from `s` to a state of the goal. -/
def CanReach (step : StepFn state action) (own : action -> Prop)
    (goal : state -> Prop) (s : state) : Prop :=
  exists acts t, (forall a, a ∈ acts -> own a) ∧ run step s acts = some t ∧
    goal t

theorem canReach_here {s : state} (h : goal s) : CanReach step own goal s :=
  ⟨[], s, nofun, rfl, h⟩

theorem CanReach.after {s s' : state} {a : action}
    (h : CanReach step own goal s') (hstep : step s a = some s')
    (hown : own a) : CanReach step own goal s := by
  rcases h with ⟨acts, t, hacts, hrun, hgoal⟩
  refine ⟨a :: acts, t, ?_, run_cons_eq_some.mpr ⟨s', hstep, hrun⟩, hgoal⟩
  intro b hb
  cases hb with
  | head => exact hown
  | tail _ hb => exact hacts b hb

theorem CanReach.trans {middle : state -> Prop} {s : state}
    (h : CanReach step own middle s)
    (hnext : forall t, middle t -> CanReach step own goal t) :
    CanReach step own goal s := by
  rcases h with ⟨acts, m, hacts, hrun, hm⟩
  induction acts generalizing s with
  | nil =>
      cases hrun
      exact hnext _ hm
  | cons a rest ih =>
      rcases run_cons_eq_some.mp hrun with ⟨s', hstep, hrest⟩
      have hrests : forall b, b ∈ rest -> own b := by
        intro b hb
        exact hacts b (List.mem_cons_of_mem a hb)
      exact (ih hrests hrest).after hstep (hacts a List.mem_cons_self)

theorem CanReach.imp {goal' : state -> Prop} {s : state}
    (h : CanReach step own goal s) (himp : forall t, goal t -> goal' t) :
    CanReach step own goal' s :=
  h.trans fun t ht => canReach_here (himp t ht)

theorem CanReach.keeps {Inv : state -> Prop}
    (hpres : forall s a s', Inv s -> step s a = some s' -> Inv s') {s : state}
    (hs : Inv s) (h : CanReach step own goal s) :
    CanReach step own (fun t => goal t ∧ Inv t) s := by
  rcases h with ⟨acts, t, hacts, hrun, hgoal⟩
  exact ⟨acts, t, hacts, hrun, hgoal, run_invariant hpres hs hrun⟩

/-- The ranking rule: short of the goal, some step of its own lowers the rank. -/
theorem canReach_of_rank {Inv : state -> Prop} (rank : state -> Nat)
    (hlower : forall s, Inv s -> ¬ goal s -> exists a s', own a ∧
      step s a = some s' ∧ Inv s' ∧ rank s' < rank s)
    {s : state} (hs : Inv s) : CanReach step own goal s := by
  induction hrank : rank s using Nat.strongRecOn generalizing s with
  | ind n ih =>
      by_cases hgoal : goal s
      · exact canReach_here hgoal
      · rcases hlower s hs hgoal with ⟨a, s', hown, hstep, hs', hlt⟩
        exact (ih (rank s') (hrank ▸ hlt) hs' rfl).after hstep hown

/--
Whatever own steps are taken from `s`, there are not more than some number of
them; and where no own step is left, the goal is reached.
-/
def Settles (step : StepFn state action) (own : action -> Prop)
    (goal : state -> Prop) (s : state) : Prop :=
  exists bound, forall acts t, (forall a, a ∈ acts -> own a) ->
    run step s acts = some t ->
    acts.length <= bound ∧ ((forall a, own a -> step t a = none) -> goal t)

/-- The same, as long as the steps meet a side condition. -/
def SettlesWhile (step : StepFn state action) (side : state -> action -> Prop)
    (own : action -> Prop) (goal : state -> Prop) (s : state) : Prop :=
  exists bound, forall acts t, (forall a, a ∈ acts -> own a) ->
    Meets step side s acts -> run step s acts = some t ->
    acts.length <= bound ∧ ((forall a, own a -> step t a = none) -> goal t)

/-- If every own step lowers the rank, they come to an end in any order. -/
theorem settlesWhile_of_rank {side : state -> action -> Prop}
    {Inv : state -> Prop} (rank : state -> Nat)
    (hlower : forall s a s', Inv s -> own a -> side s a ->
      step s a = some s' -> Inv s' ∧ rank s' < rank s)
    (hstuck : forall s, Inv s -> (forall a, own a -> step s a = none) ->
      goal s)
    {s : state} (hs : Inv s) : SettlesWhile step side own goal s := by
  have hrun : forall acts s t, Inv s -> (forall a, a ∈ acts -> own a) ->
      Meets step side s acts -> run step s acts = some t ->
      Inv t ∧ acts.length + rank t <= rank s := by
    intro acts
    induction acts with
    | nil =>
        intro s t hs _ _ hrun
        cases hrun
        exact ⟨hs, Nat.le_of_eq (Nat.zero_add _)⟩
    | cons a rest ih =>
        intro s t hs hacts hmeets hrun
        rcases run_cons_eq_some.mp hrun with ⟨s', hstep, hrest⟩
        have hside := (meets_cons_of_step hstep).mp hmeets
        have hone := hlower s a s' hs (hacts a List.mem_cons_self) hside.left
          hstep
        have hmore := ih s' t hone.left
          (fun b hb => hacts b (List.mem_cons_of_mem a hb)) hside.right hrest
        refine ⟨hmore.left, ?_⟩
        show rest.length + 1 + rank t <= rank s
        rw [Nat.add_right_comm]
        exact Nat.le_trans (Nat.succ_le_succ hmore.right) hone.right
  refine ⟨rank s, ?_⟩
  intro acts t hacts hmeets hacting
  have hend := hrun acts s t hs hacts hmeets hacting
  exact ⟨Nat.le_trans (Nat.le_add_right _ _) hend.right, hstuck t hend.left⟩

theorem settles_of_rank {Inv : state -> Prop} (rank : state -> Nat)
    (hlower : forall s a s', Inv s -> own a -> step s a = some s' ->
      Inv s' ∧ rank s' < rank s)
    (hstuck : forall s, Inv s -> (forall a, own a -> step s a = none) ->
      goal s)
    {s : state} (hs : Inv s) : Settles step own goal s := by
  have hwhile : SettlesWhile step (fun _ _ => True) own goal s :=
    settlesWhile_of_rank rank (fun s a s' h ha _ => hlower s a s' h ha)
      hstuck hs
  rcases hwhile with ⟨bound, hbound⟩
  exact ⟨bound, fun acts t hacts =>
    hbound acts t hacts (meets_of_forall (fun _ _ => trivial) s acts)⟩

theorem Settles.canReach {s : state} (h : Settles step own goal s) :
    CanReach step own goal s := by
  rcases h with ⟨bound, hbound⟩
  by_contra hno
  -- Own steps could be taken for ever.
  have hlong : forall n, exists acts t, acts.length = n ∧
      (forall a, a ∈ acts -> own a) ∧ run step s acts = some t := by
    intro n
    induction n with
    | zero => exact ⟨[], s, rfl, nofun, rfl⟩
    | succ n ih =>
        rcases ih with ⟨acts, t, hlength, hacts, hrun⟩
        have hmore : ¬ forall a, own a -> step t a = none := fun hstuck =>
          hno ⟨acts, t, hacts, hrun, (hbound acts t hacts hrun).right hstuck⟩
        push Not at hmore
        rcases hmore with ⟨a, hown, hstep⟩
        rcases Option.ne_none_iff_exists'.mp hstep with ⟨t', ht'⟩
        refine ⟨acts ++ [a], t', ?_, ?_, ?_⟩
        · rw [List.length_append, hlength]
          rfl
        · intro b hb
          rcases List.mem_append.mp hb with hold | hnew
          · exact hacts b hold
          · exact (List.mem_singleton.mp hnew) ▸ hown
        · exact run_append.mpr
            ⟨t, hrun, run_cons_eq_some.mpr ⟨t', ht', rfl⟩⟩
  rcases hlong (bound + 1) with ⟨acts, t, hlength, hacts, hrun⟩
  have hle := (hbound acts t hacts hrun).left
  rw [hlength] at hle
  exact Nat.not_succ_le_self bound hle

/-- The trapping rule: the goal is not reached from where no step leads out. -/
theorem not_canReach_of_trap {Trap : state -> Prop}
    (hstay : forall s a s', Trap s -> own a -> step s a = some s' -> Trap s')
    (hno : forall s, Trap s -> ¬ goal s) {s : state} (hs : Trap s) :
    ¬ CanReach step own goal s := by
  rintro ⟨acts, t, hacts, hrun, hgoal⟩
  have hmeets : Meets step (fun _ a => own a) s acts :=
    meets_of_forall_mem (fun a ha _ => hacts a ha) s
  exact hno t (run_invariant_of_meets hstay hs hmeets hrun) hgoal

/--
What a system can reach, another one can reach that contains it and takes its
own steps.
-/
theorem CanReach.lift {state' : Type u} {action' : Type v}
    {step' : StepFn state' action'} {own' : action' -> Prop}
    (put : state -> state') (label : action -> action')
    (hlift : forall s a s', own a -> step s a = some s' ->
      own' (label a) ∧ step' (put s) (label a) = some (put s'))
    {s : state} (h : CanReach step own goal s) :
    CanReach step' own' (fun t => exists s', goal s' ∧ t = put s') (put s) := by
  rcases h with ⟨acts, m, hacts, hrun, hm⟩
  induction acts generalizing s with
  | nil =>
      cases hrun
      exact canReach_here ⟨_, hm, rfl⟩
  | cons a rest ih =>
      rcases run_cons_eq_some.mp hrun with ⟨s', hstep, hrest⟩
      have hrests : forall b, b ∈ rest -> own b := by
        intro b hb
        exact hacts b (List.mem_cons_of_mem a hb)
      rcases hlift s a s' (hacts a List.mem_cons_self) hstep with
        ⟨hown, hstep'⟩
      exact (ih hrests hrest).after hstep' hown

end StepFn

end Foundation
end MoonNet
