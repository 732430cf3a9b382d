import Mathlib.Data.List.Basic
import Mathlib.Data.List.Induction
import Mathlib.Data.List.Nodup

/-!
# Histories

A history lists what has happened, oldest entry first.  It is lawful if each of
its entries was permitted by what had happened before.
-/

namespace MoonNet
namespace Foundation

universe u v

namespace History

variable {entry : Type u} {key : Type v}
variable {permitted : List entry -> entry -> Prop}

def Lawful (permitted : List entry -> entry -> Prop)
    (history : List entry) : Prop :=
  forall past e future, history = past ++ e :: future -> permitted past e

theorem lawful_nil : Lawful permitted [] := by
  intro past e future hnil
  exact absurd hnil.symm (List.append_ne_nil_of_right_ne_nil past nofun)

theorem lawful_snoc {history : List entry} {e : entry} :
    Lawful permitted (history ++ [e]) <->
      Lawful permitted history ∧ permitted history e := by
  constructor
  · intro h
    constructor
    · intro past e' future hsplit
      refine h past e' (future ++ [e]) ?_
      rw [hsplit, List.append_assoc]
      rfl
    · exact h history e [] rfl
  · intro h past e' future hsplit
    rcases List.eq_nil_or_concat future with hnil | ⟨before, last, hlast⟩
    · subst hnil
      rcases List.append_inj' hsplit rfl with ⟨hhistory, he⟩
      cases he
      exact hhistory ▸ h.right
    · rw [hlast, List.concat_eq_append, <- List.cons_append,
        <- List.append_assoc] at hsplit
      exact h.left past e' before (List.append_inj' hsplit rfl).left

theorem Lawful.snoc {history : List entry} {e : entry}
    (h : Lawful permitted history) (he : permitted history e) :
    Lawful permitted (history ++ [e]) :=
  lawful_snoc.mpr ⟨h, he⟩

/-- What may happen only if it has not happened before happens once. -/
theorem Lawful.nodup {keyOf : entry -> Option key} {history : List entry}
    (honce : forall past e k, keyOf e = some k -> permitted past e ->
      k ∉ past.filterMap keyOf)
    (h : Lawful permitted history) : (history.filterMap keyOf).Nodup := by
  induction history using List.reverseRecOn with
  | nil =>
      exact List.nodup_nil
  | append_singleton past e ih =>
      rcases lawful_snoc.mp h with ⟨hpast, he⟩
      rw [List.filterMap_append]
      cases hk : keyOf e with
      | none =>
          rw [List.filterMap_cons_none hk, List.filterMap_nil, List.append_nil]
          exact ih hpast
      | some k =>
          rw [List.filterMap_cons_some hk, List.filterMap_nil]
          have hnew : k ∉ past.filterMap keyOf := honce past e k hk he
          have hnodup := List.Nodup.concat hnew (ih hpast)
          rwa [List.concat_eq_append] at hnodup

end History

end Foundation
end MoonNet
