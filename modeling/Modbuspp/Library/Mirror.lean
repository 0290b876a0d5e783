import Mathlib.Data.Nat.Notation
import Mathlib.Tactic.Common

/-!
# Reversal by swaps

The loop that reverses an array in place exchanges each cell of the first half with the cell at the
same distance from the end. The array may also be seen as an array of larger words: grouping its
cells and ungrouping them are inverse to each other.
-/

namespace Mirror

universe u

variable {α : Type u} {n : ℕ}

/-- The first `steps` exchanges of the loop. -/
def loop (cells : Vector α n) (steps : ℕ) (half : steps ≤ n / 2) : Vector α n :=
  match steps with
  | 0 => cells
  | i + 1 => (loop cells i (by omega)).swap i (n - 1 - i) (by omega) (by omega)

theorem getElem_loop (cells : Vector α n) (steps : ℕ) (half : steps ≤ n / 2) (j : ℕ)
    (inside : j < n) :
    (loop cells steps half)[j] =
      if j < steps ∨ n - steps ≤ j then cells[n - 1 - j] else cells[j] := by
  induction steps generalizing j with
  | zero =>
      rw [if_neg (by omega)]
      rfl
  | succ i ih =>
      simp only [loop]
      rw [Vector.getElem_swap, ih _ (n - 1 - i) (by omega), ih _ i (by omega), ih _ j inside]
      by_cases first : j = i
      · subst j
        rw [if_pos rfl, if_neg (by omega), if_pos (by omega)]
      · rw [if_neg first]
        by_cases last : j = n - 1 - i
        · subst j
          rw [if_pos rfl, if_neg (by omega), if_pos (by omega)]
          congr 1
          omega
        · rw [if_neg last]
          by_cases done : j < i ∨ n - i ≤ j
          · rw [if_pos done, if_pos (by omega)]
          · rw [if_neg done, if_neg (by omega)]

/-- The complete loop reverses the array. -/
theorem getElem_loop_half (cells : Vector α n) {steps : ℕ} (half : steps ≤ n / 2)
    (complete : steps = n / 2) (j : ℕ) (inside : j < n) :
    (loop cells steps half)[j] = cells[n - 1 - j] := by
  rw [getElem_loop cells steps half j inside]
  split
  · rfl
  · congr 1
    omega

variable {k : ℕ}

/-- The array seen as one of words. -/
def group (cells : Vector α (2 * k)) : Vector (Vector α 2) k :=
  Vector.ofFn fun i => Vector.ofFn fun j => cells[2 * i.val + j.val]

/-- The cells of an array of words. -/
def ungroup (words : Vector (Vector α 2) k) : Vector α (2 * k) :=
  Vector.ofFn fun i =>
    have word : i.val / 2 < k := by omega
    have cell : i.val % 2 < 2 := by omega
    words[i.val / 2][i.val % 2]

@[simp]
theorem getElem_group (cells : Vector α (2 * k)) (i j : ℕ) (word : i < k) (cell : j < 2) :
    (group cells)[i][j] = cells[2 * i + j] := by
  simp only [group, Vector.getElem_ofFn]

@[simp]
theorem getElem_ungroup (words : Vector (Vector α 2) k) (i : ℕ) (inside : i < 2 * k) :
    (ungroup words)[i] =
      have word : i / 2 < k := by omega
      have cell : i % 2 < 2 := by omega
      words[i / 2][i % 2] := by
  simp only [ungroup, Vector.getElem_ofFn]

end Mirror
