import Mathlib.Data.List.Basic
import Mathlib.Logic.Function.Basic

/-!
# Windows of a circular array

A circular array of `cap` cells is read from a start position onwards, wrapping
around at the end.  A window shorter than the array visits no cell twice, so a
write at its end extends it and a write elsewhere leaves it alone.
-/

namespace MoonNet
namespace Foundation

universe u

namespace Circular

variable {α : Type u}

def window (cell : Nat -> α) (cap start count : Nat) : List α :=
  (List.range count).map fun i => cell ((start + i) % cap)

def distance (cap a b : Nat) : Nat :=
  (b + cap - a) % cap

@[simp] theorem window_zero (cell : Nat -> α) (cap start : Nat) :
    window cell cap start 0 = [] := rfl

@[simp] theorem window_length (cell : Nat -> α) (cap start count : Nat) :
    (window cell cap start count).length = count := by
  simp [window]

theorem window_add (cell : Nat -> α) (cap start m n : Nat) :
    window cell cap start (m + n) =
      window cell cap start m ++ window cell cap ((start + m) % cap) n := by
  simp [window, List.range_add, Function.comp_def, Nat.add_assoc]

theorem window_one (cell : Nat -> α) (cap start : Nat) :
    window cell cap start 1 = [cell (start % cap)] := rfl

theorem window_snoc (cell : Nat -> α) (cap start n : Nat) :
    window cell cap start (n + 1) =
      window cell cap start n ++ [cell ((start + n) % cap)] := by
  rw [window_add, window_one, Nat.mod_mod]

theorem window_cons (cell : Nat -> α) (cap start n : Nat) :
    window cell cap start (n + 1) =
      cell (start % cap) :: window cell cap ((start + 1) % cap) n := by
  rw [Nat.add_comm, window_add, window_one]
  rfl

@[simp] theorem window_mod_start (cell : Nat -> α) (cap start count : Nat) :
    window cell cap (start % cap) count = window cell cap start count := by
  simp [window]

theorem window_congr {cell cell' : Nat -> α} {cap start count : Nat}
    (h : forall i, i < count ->
      cell ((start + i) % cap) = cell' ((start + i) % cap)) :
    window cell cap start count = window cell' cap start count := by
  apply List.map_congr_left
  intro i hi
  exact h i (List.mem_range.mp hi)

theorem window_eq_iff {cell cell' : Nat -> α} {cap start start' count : Nat} :
    window cell cap start count = window cell' cap start' count <->
      forall i, i < count ->
        cell ((start + i) % cap) = cell' ((start' + i) % cap) := by
  unfold window
  rw [List.map_inj_left]
  simp only [List.mem_range]

theorem window_update_of_ne (cell : Nat -> α) {cap start count pos : Nat}
    (x : α) (h : forall i, i < count -> (start + i) % cap ≠ pos) :
    window (Function.update cell pos x) cap start count =
      window cell cap start count := by
  apply window_congr
  intro i hi
  exact Function.update_of_ne (h i hi) x cell

/-!
## Positions
-/

theorem add_mod_ne {cap start i j : Nat} (hij : i < j) (hj : j < i + cap) :
    (start + i) % cap ≠ (start + j) % cap := by
  intro h
  have hdvd : cap ∣ (start + j) - (start + i) :=
    Nat.dvd_of_mod_eq_zero (Nat.sub_mod_eq_zero_of_mod_eq h.symm)
  have hpos : 0 < (start + j) - (start + i) := by
    omega
  have hle := Nat.le_of_dvd hpos hdvd
  omega

theorem window_write_end (cell : Nat -> α) {cap start count : Nat} (x : α)
    (h : count < cap) :
    window (Function.update cell ((start + count) % cap) x) cap start
        (count + 1) =
      window cell cap start count ++ [x] := by
  rw [window_snoc, Function.update_self, window_update_of_ne]
  intro i hi
  exact add_mod_ne hi (by omega)

/-!
## Changing the cells of a window one after the other
-/

def mapWindow (f : α -> α) (cap : Nat) :
    (Nat -> α) -> Nat -> Nat -> Nat -> α
  | cell, _, 0 => cell
  | cell, start, count + 1 =>
      mapWindow f cap
        (Function.update cell (start % cap) (f (cell (start % cap))))
        (start + 1) count

theorem mapWindow_add (f : α -> α) (cap : Nat) (cell : Nat -> α)
    (start m n : Nat) :
    mapWindow f cap cell start (m + n) =
      mapWindow f cap (mapWindow f cap cell start m) (start + m) n := by
  induction m generalizing cell start with
  | zero =>
      simp [mapWindow]
  | succ m ih =>
      rw [Nat.add_right_comm, mapWindow, ih, mapWindow,
        Nat.add_right_comm start 1 m, Nat.add_assoc start m 1]

@[simp] theorem mapWindow_mod_start (f : α -> α) (cap : Nat)
    (cell : Nat -> α) (start count : Nat) :
    mapWindow f cap cell (start % cap) count =
      mapWindow f cap cell start count := by
  induction count generalizing cell start with
  | zero =>
      rfl
  | succ count ih =>
      rw [mapWindow, mapWindow, Nat.mod_mod, <- ih _ (start % cap + 1),
        Nat.mod_add_mod, ih]

theorem window_update_start (cell : Nat -> α) {cap start count : Nat} (x : α)
    (h : count < cap) :
    window (Function.update cell (start % cap) x) cap (start + 1) count =
      window cell cap (start + 1) count := by
  apply window_update_of_ne
  intro i hi heq
  have hne : (start + 0) % cap ≠ (start + (i + 1)) % cap :=
    add_mod_ne (by omega) (by omega)
  apply hne
  rw [Nat.add_zero, <- heq, Nat.add_assoc, Nat.add_comm 1 i]

theorem window_mapWindow (f : α -> α) (cell : Nat -> α)
    {cap start m n : Nat} (h : m + n <= cap) :
    window (mapWindow f cap cell start m) cap (start + m) n =
      window cell cap (start + m) n := by
  induction m generalizing cell start with
  | zero =>
      rfl
  | succ m ih =>
      rw [mapWindow, <- Nat.add_assoc, Nat.add_right_comm, ih _ (by omega)]
      apply window_update_of_ne
      intro i hi heq
      have hne : (start + 0) % cap ≠ (start + (1 + m + i)) % cap :=
        add_mod_ne (by omega) (by omega)
      apply hne
      rw [Nat.add_zero, <- heq]
      congr 1
      omega

theorem distance_lt {cap a b : Nat} (hcap : 0 < cap) : distance cap a b < cap :=
  Nat.mod_lt _ hcap

theorem add_distance {cap a b : Nat} (ha : a < cap) (hb : b < cap) :
    (a + distance cap a b) % cap = b := by
  unfold distance
  rw [Nat.add_mod_mod, show a + (b + cap - a) = b + cap by omega,
    Nat.add_mod_right, Nat.mod_eq_of_lt hb]

theorem distance_add {cap a n : Nat} (ha : a < cap) (hn : n < cap) :
    distance cap a ((a + n) % cap) = n := by
  unfold distance
  by_cases hwrap : a + n < cap
  · rw [Nat.mod_eq_of_lt hwrap, show a + n + cap - a = n + cap by omega,
      Nat.add_mod_right, Nat.mod_eq_of_lt hn]
  · have hmod : (a + n) % cap = a + n - cap := by
      rw [Nat.mod_eq_sub_mod (by omega), Nat.mod_eq_of_lt (by omega)]
    rw [hmod, show a + n - cap + cap - a = n by omega, Nat.mod_eq_of_lt hn]

theorem distance_eq {cap a b : Nat} (ha : a < cap) (hb : b < cap) :
    distance cap a b = if a <= b then b - a else cap - a + b := by
  unfold distance
  split
  · rw [show b + cap - a = b - a + cap by omega, Nat.add_mod_right,
      Nat.mod_eq_of_lt (by omega)]
  · rw [show b + cap - a = cap - a + b by omega, Nat.mod_eq_of_lt (by omega)]

end Circular

end Foundation
end MoonNet
