import Mathlib.Data.List.Perm.Subperm

/-!
# Parts of a list

A list of items with an index each is dealt out to the indices.  All parts
together are the list again, in another order.
-/

namespace MoonNet
namespace Foundation

universe u

namespace Parts

variable {α : Type u}

def part (xs : List (Nat × α)) (i : Nat) : List α :=
  (xs.filter fun p => p.fst == i).map Prod.snd

def joined (n : Nat) (f : Nat -> List α) : List α :=
  (List.range n).flatMap f

theorem joined_succ (n : Nat) (f : Nat -> List α) :
    joined (n + 1) f = joined n f ++ f n := by
  unfold joined
  rw [List.range_succ, List.flatMap_append, List.flatMap_singleton]

theorem joined_congr {n : Nat} {f g : Nat -> List α}
    (h : forall i, i < n -> f i = g i) : joined n f = joined n g := by
  induction n with
  | zero => rfl
  | succ n ih =>
      rw [joined_succ, joined_succ, h n (Nat.lt_succ_self n)]
      rw [ih fun i hi => h i (Nat.lt_succ_of_lt hi)]

theorem part_append (xs ys : List (Nat × α)) (i : Nat) :
    part (xs ++ ys) i = part xs i ++ part ys i := by
  unfold part
  rw [List.filter_append, List.map_append]

theorem part_self (i : Nat) (x : α) : part [(i, x)] i = [x] := by
  simp [part]

theorem part_other {i j : Nat} (h : j ≠ i) (x : α) : part [(j, x)] i = [] := by
  simp [part, h]

theorem joined_perm {n : Nat} {xs : List (Nat × α)}
    (h : forall p, p ∈ xs -> p.fst < n) :
    (joined n (part xs)).Perm (xs.map Prod.snd) := by
  induction n generalizing xs with
  | zero =>
      cases xs with
      | nil => exact List.Perm.nil
      | cons p rest => exact absurd (h p List.mem_cons_self) (Nat.not_lt_zero _)
  | succ n ih =>
      have hsplit := List.filter_append_perm (fun p : Nat × α => p.fst == n) xs
      have hbelow : forall p, p ∈ xs.filter (fun p => !(p.fst == n)) ->
          p.fst < n := by
        intro p hp
        rcases List.mem_filter.mp hp with ⟨hmem, hne⟩
        have hneq : p.fst ≠ n := by simpa using hne
        exact Nat.lt_of_le_of_ne (Nat.le_of_lt_succ (h p hmem)) hneq
      have hrest := ih hbelow
      have hsame : joined n (part (xs.filter fun p => !(p.fst == n))) =
          joined n (part xs) := by
        apply joined_congr
        intro i hi
        unfold part
        rw [List.filter_filter]
        congr 1
        apply List.filter_congr
        intro p _
        by_cases hp : p.fst = i
        · have hne : i ≠ n := Nat.ne_of_lt hi
          simp [hp, hne]
        · simp [hp]
      rw [joined_succ, <- hsame]
      have hlast : part xs n = (xs.filter fun p => p.fst == n).map Prod.snd :=
        rfl
      rw [hlast]
      refine (hrest.append_right _).trans ?_
      rw [<- List.map_append]
      exact (List.perm_append_comm.trans hsplit).map Prod.snd

/-!
## Beginnings
-/

theorem joined_sublist {n : Nat} {f g : Nat -> List α}
    (h : forall i, i < n -> f i <+: g i) :
    (joined n f).Sublist (joined n g) := by
  induction n with
  | zero => exact List.Sublist.refl _
  | succ n ih =>
      rw [joined_succ, joined_succ]
      exact (ih fun i hi => h i (Nat.lt_succ_of_lt hi)).append
        (h n (Nat.lt_succ_self n)).sublist

theorem eq_of_length {n : Nat} {f g : Nat -> List α}
    (h : forall i, i < n -> f i <+: g i)
    (hlength : (joined n f).length = (joined n g).length) :
    forall i, i < n -> f i = g i := by
  induction n with
  | zero =>
      intro i hi
      exact absurd hi (Nat.not_lt_zero i)
  | succ n ih =>
      rw [joined_succ, joined_succ, List.length_append,
        List.length_append] at hlength
      have hfront : forall i, i < n -> f i <+: g i := by
        intro i hi
        exact h i (Nat.lt_succ_of_lt hi)
      have hle := (joined_sublist hfront).length_le
      have hlast := (h n (Nat.lt_succ_self n)).length_le
      intro i hi
      rcases Nat.lt_succ_iff_lt_or_eq.mp hi with hlt | heq
      · exact ih hfront (by omega) i hlt
      · rw [heq]
        exact (h n (Nat.lt_succ_self n)).eq_of_length (by omega)

end Parts

end Foundation
end MoonNet
