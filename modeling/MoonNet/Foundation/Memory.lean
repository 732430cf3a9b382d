import Mathlib.Data.List.Basic
import Mathlib.Tactic.Common

/-!
# Bounds-checked blocks of memory

A block is a list of cells.  Copies into and out of a block are partial: an
access outside the block has no result, so that memory safety of a program is
the statement that its copies are defined.
-/

namespace MoonNet
namespace Foundation

universe u

namespace Memory

variable {α : Type u}

/-- The cells `pos, ..., pos + len - 1` of a block. -/
def slice (block : List α) (pos len : Nat) : List α :=
  (block.drop pos).take len

def copyIn (block : List α) (pos : Nat) (src : List α) : Option (List α) :=
  if pos + src.length <= block.length then
    some (block.take pos ++ src ++ block.drop (pos + src.length))
  else
    none

def copyOut (block : List α) (pos len : Nat) : Option (List α) :=
  if pos + len <= block.length then
    some (slice block pos len)
  else
    none

/-- Change the length of a block; new cells hold `fill`. -/
def resize (block : List α) (len : Nat) (fill : α) : List α :=
  block.take len ++ List.replicate (len - block.length) fill

/-!
## Slices
-/

theorem slice_length {block : List α} {pos len : Nat}
    (h : pos + len <= block.length) : (slice block pos len).length = len := by
  simp only [slice, List.length_take, List.length_drop]
  omega

@[simp] theorem slice_zero (block : List α) (pos : Nat) :
    slice block pos 0 = [] := by
  simp [slice]

theorem slice_add (block : List α) (pos m n : Nat) :
    slice block pos (m + n) = slice block pos m ++ slice block (pos + m) n := by
  simp [slice, List.take_add, List.drop_drop]

theorem take_slice (block : List α) {pos len k : Nat} (h : k <= len) :
    (slice block pos len).take k = slice block pos k := by
  simp [slice, List.take_take, Nat.min_eq_left h]

theorem drop_slice (block : List α) (pos len k : Nat) :
    (slice block pos len).drop k = slice block (pos + k) (len - k) := by
  simp [slice, List.drop_take, List.drop_drop]

/-!
## Copies
-/

theorem copyOut_eq_some {block : List α} {pos len : Nat}
    (h : pos + len <= block.length) :
    copyOut block pos len = some (slice block pos len) := by
  simp [copyOut, h]

def written (block : List α) (pos : Nat) (src : List α) : List α :=
  block.take pos ++ src ++ block.drop (pos + src.length)

theorem copyIn_eq_some {block : List α} {pos : Nat} {src : List α}
    (h : pos + src.length <= block.length) :
    copyIn block pos src = some (written block pos src) := by
  simp [copyIn, written, h]

theorem length_written {block : List α} {pos : Nat} {src : List α}
    (h : pos + src.length <= block.length) :
    (written block pos src).length = block.length := by
  simp only [written, List.length_append, List.length_take, List.length_drop]
  omega

theorem slice_written_self {block : List α} {pos : Nat} {src : List α}
    (h : pos + src.length <= block.length) :
    slice (written block pos src) pos src.length = src := by
  have hpos : (block.take pos).length = pos := by
    rw [List.length_take]
    omega
  calc
    slice (written block pos src) pos src.length =
        ((block.take pos ++ (src ++ block.drop (pos + src.length))).drop
          (block.take pos).length).take src.length := by
          rw [hpos]
          simp [slice, written]
    _ = src := by
          rw [List.drop_left, List.take_left]

theorem slice_written_before {block : List α} {pos start len : Nat}
    {src : List α} (hpos : pos <= block.length) (h : start + len <= pos) :
    slice (written block pos src) start len = slice block start len := by
  have hsplit : (block.take pos).length = pos := by
    rw [List.length_take]
    omega
  have hfrom : start <= (block.take pos).length := by
    omega
  have hlen : len <= ((block.take pos).drop start).length := by
    rw [List.length_drop]
    omega
  calc
    slice (written block pos src) start len =
        ((block.take pos ++ (src ++ block.drop (pos + src.length))).drop
          start).take len := by
          simp [slice, written]
    _ = ((block.take pos).drop start).take len := by
          rw [List.drop_append_of_le_length hfrom,
            List.take_append_of_le_length hlen]
    _ = slice block start len := by
          rw [List.drop_take, List.take_take, Nat.min_eq_left (by omega)]
          rfl

/-!
## Growing a block
-/

theorem length_resize (block : List α) (len : Nat) (fill : α) :
    (resize block len fill).length = len := by
  simp only [resize, List.length_append, List.length_take,
    List.length_replicate]
  omega

theorem slice_resize {block : List α} {pos len size : Nat} (fill : α)
    (hblock : pos + len <= block.length) (hsize : block.length <= size) :
    slice (resize block size fill) pos len = slice block pos len := by
  have hlen : len <= (block.drop pos).length := by
    rw [List.length_drop]
    omega
  rw [slice, resize, List.take_of_length_le hsize,
    List.drop_append_of_le_length (by omega),
    List.take_append_of_le_length hlen]
  rfl

end Memory

end Foundation
end MoonNet
