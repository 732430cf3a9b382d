import Mathlib.Logic.Function.Basic

/-!
# One thread at a time

Each thread has a program counter, some of which are inside a section that only
one thread may be in.  `Sole busy pc a` says that this is the case and that the
program counter of that thread is `a`; if no thread is inside, `a` is any program
counter outside the section.
-/

namespace MoonNet
namespace Foundation

universe u v

variable {thread : Type u} {counter : Type v}

structure Sole (busy : counter -> Prop) (pc : thread -> counter)
    (a : counter) : Prop where
  eq_of_busy : forall i, busy (pc i) -> pc i = a
  exists_of_busy : busy a -> exists i, busy (pc i)
  unique : forall i j, busy (pc i) -> busy (pc j) -> i = j

namespace Sole

variable {busy : counter -> Prop} {pc : thread -> counter} {a b : counter}

theorem of_forall_not_busy (h : forall i, ¬ busy (pc i)) (ha : ¬ busy a) :
    Sole busy pc a where
  eq_of_busy := fun i hi => absurd hi (h i)
  exists_of_busy := fun h' => absurd h' ha
  unique := fun i _ hi => absurd hi (h i)

variable [DecidableEq thread] {i : thread}

theorem busy_update {j : thread} (h : busy (Function.update pc i b j)) :
    (j = i ∧ busy b) ∨ (j ≠ i ∧ busy (pc j)) := by
  by_cases hj : j = i
  · rw [hj, Function.update_self] at h
    exact Or.inl ⟨hj, h⟩
  · rw [Function.update_of_ne hj] at h
    exact Or.inr ⟨hj, h⟩

theorem update_of_not_busy (h : Sole busy pc a) (hi : ¬ busy (pc i))
    (hb : ¬ busy b) : Sole busy (Function.update pc i b) a where
  eq_of_busy := by
    intro j hj
    rcases busy_update hj with ⟨_, hbusy⟩ | ⟨hne, hbusy⟩
    · exact absurd hbusy hb
    · rw [Function.update_of_ne hne]
      exact h.eq_of_busy j hbusy
  exists_of_busy := by
    intro ha
    rcases h.exists_of_busy ha with ⟨j, hj⟩
    have hne : j ≠ i := fun heq => hi (heq ▸ hj)
    refine ⟨j, ?_⟩
    rw [Function.update_of_ne hne]
    exact hj
  unique := by
    intro j k hj hk
    rcases busy_update hj with ⟨_, hbusy⟩ | ⟨_, hbusyj⟩
    · exact absurd hbusy hb
    · rcases busy_update hk with ⟨_, hbusy⟩ | ⟨_, hbusyk⟩
      · exact absurd hbusy hb
      · exact h.unique j k hbusyj hbusyk

theorem update_of_others_not_busy (h : forall j, j ≠ i -> ¬ busy (pc j)) :
    Sole busy (Function.update pc i b) b where
  eq_of_busy := by
    intro j hj
    rcases busy_update hj with ⟨heq, _⟩ | ⟨hne, hbusy⟩
    · rw [heq, Function.update_self]
    · exact absurd hbusy (h j hne)
  exists_of_busy := by
    intro hb
    refine ⟨i, ?_⟩
    rw [Function.update_self]
    exact hb
  unique := by
    intro j k hj hk
    rcases busy_update hj with ⟨hji, _⟩ | ⟨hne, hbusy⟩
    · rcases busy_update hk with ⟨hki, _⟩ | ⟨hne, hbusy⟩
      · exact hji.trans hki.symm
      · exact absurd hbusy (h k hne)
    · exact absurd hbusy (h j hne)

omit [DecidableEq thread] in
theorem not_busy_of_ne (h : Sole busy pc a) (hi : busy (pc i)) (j : thread)
    (hj : j ≠ i) : ¬ busy (pc j) :=
  fun hbusy => hj (h.unique j i hbusy hi)

end Sole

end Foundation
end MoonNet
