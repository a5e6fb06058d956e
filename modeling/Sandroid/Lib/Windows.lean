import Mathlib.Data.List.Basic
import Mathlib.Tactic.Common

/-!
# Cutting a list into windows of a fixed length

The complete windows of a list and what is left over after them, with the
induction that takes one window at a time.
-/

namespace Sandroid
namespace Lib

variable {α : Type*} {n : Nat}

/-- The complete windows, in order. -/
def fullWindows (n : Nat) (xs : List α) : List (List α) :=
  (List.range (xs.length / n)).map fun i => (xs.drop (i * n)).take n

/-- What follows the complete windows. -/
def leftover (n : Nat) (xs : List α) : List α :=
  xs.drop (xs.length / n * n)

theorem fullWindows_of_lt {xs : List α} (h : xs.length < n) : fullWindows n xs = [] := by
  simp [fullWindows, Nat.div_eq_of_lt h]

theorem leftover_of_lt {xs : List α} (h : xs.length < n) : leftover n xs = xs := by
  simp [leftover, Nat.div_eq_of_lt h]

theorem fullWindows_of_le {xs : List α} (hn : 0 < n) (h : n ≤ xs.length) :
    fullWindows n xs = xs.take n :: fullWindows n (xs.drop n) := by
  have hdiv : xs.length / n = (xs.drop n).length / n + 1 := by
    rw [List.length_drop, Nat.div_eq_sub_div hn h]
  rw [fullWindows, hdiv, List.range_succ_eq_map, List.map_cons, List.map_map, Nat.zero_mul,
    List.drop_zero, fullWindows]
  congr 1
  apply List.map_congr_left
  intro i _
  rw [Function.comp_apply, List.drop_drop, Nat.succ_mul, Nat.add_comm]

theorem leftover_of_le {xs : List α} (hn : 0 < n) (h : n ≤ xs.length) :
    leftover n xs = leftover n (xs.drop n) := by
  rw [leftover, leftover, List.drop_drop, List.length_drop, Nat.div_eq_sub_div hn h,
    Nat.add_one_mul, Nat.add_comm]

/-- A property of lists follows the way they are cut. -/
theorem windows_induction (hn : 0 < n) {motive : List α → Prop}
    (short : ∀ xs, xs.length < n → motive xs)
    (long : ∀ xs, n ≤ xs.length → motive (xs.drop n) → motive xs) (xs : List α) :
    motive xs := by
  induction hl : xs.length using Nat.strongRecOn generalizing xs with
  | ind l ih =>
    subst hl
    by_cases h : xs.length < n
    · exact short xs h
    · refine long xs (by omega) (ih (xs.drop n).length ?_ _ rfl)
      rw [List.length_drop]
      omega

/-- The pieces of a list, one after the other. -/
theorem flatten_pieces (n : Nat) (xs : List α) (k : Nat) :
    ((List.range k).map fun i => (xs.drop (i * n)).take n).flatten = xs.take (k * n) := by
  induction k with
  | zero => simp
  | succ k ih =>
    rw [List.range_succ, List.map_append, List.flatten_append, ih, List.map_singleton,
      List.flatten_singleton, Nat.succ_mul, List.take_add]

section Rows

variable {rows : List (List α)} {width : Nat}

/-- Rows of one width in one buffer: to skip whole rows. -/
theorem drop_flatten (h : ∀ row ∈ rows, row.length = width) (k : Nat) :
    rows.flatten.drop (k * width) = (rows.drop k).flatten := by
  induction k generalizing rows with
  | zero => simp
  | succ k ih =>
      cases rows with
      | nil => simp
      | cons row rows =>
          have hrow : row.length = width := h row List.mem_cons_self
          rw [List.flatten_cons, List.drop_succ_cons,
            ← ih fun r hr => h r (List.mem_cons_of_mem _ hr), Nat.succ_mul, Nat.add_comm,
            ← List.drop_drop, ← hrow, List.drop_left]

/-- To take whole rows. -/
theorem take_flatten (h : ∀ row ∈ rows, row.length = width) (k : Nat) :
    rows.flatten.take (k * width) = (rows.take k).flatten := by
  induction k generalizing rows with
  | zero => simp
  | succ k ih =>
      cases rows with
      | nil => simp
      | cons row rows =>
          have hrow : row.length = width := h row List.mem_cons_self
          rw [List.flatten_cons, List.take_succ_cons, List.flatten_cons,
            ← ih fun r hr => h r (List.mem_cons_of_mem _ hr), Nat.succ_mul, Nat.add_comm, ← hrow,
            List.take_length_add_append]

theorem length_flatten_of_width (h : ∀ row ∈ rows, row.length = width) :
    rows.flatten.length = rows.length * width := by
  rw [List.length_flatten, List.map_congr_left h, List.map_const', List.sum_replicate_nat]

end Rows

/-- `count` items of a buffer from an offset on, if they all lie in it. -/
def readAt (buffer : List α) (offset : Nat) : Nat → Option (List α)
  | 0 => some []
  | count + 1 => do
      let x ← buffer[offset]?
      let xs ← readAt buffer (offset + 1) count
      some (x :: xs)

theorem readAt_of_le {buffer : List α} {offset count : Nat} (h : offset + count ≤ buffer.length) :
    readAt buffer offset count = some ((buffer.drop offset).take count) := by
  induction count generalizing offset with
  | zero => simp [readAt]
  | succ count ih =>
      have hlt : offset < buffer.length := by omega
      rw [readAt, List.getElem?_eq_getElem hlt, ih (by omega), List.drop_eq_getElem_cons hlt,
        List.take_succ_cons]
      rfl

end Lib
end Sandroid
