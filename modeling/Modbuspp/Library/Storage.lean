import Mathlib.Data.Int.Notation
import Mathlib.Data.Nat.Notation
import Mathlib.Data.List.Basic
import Mathlib.Tactic.Common

/-!
# Bounds-checked storage

A block of storage is a list of cells addressed by integers, because the code that indexes it
computes offsets by subtraction. Every access says whether it stays inside the block: `none` stands
for an access outside of it. An access to zero cells touches nothing and always succeeds.
-/

namespace Storage

universe u

variable {α : Type u}

/-- The cell at `index`, when `index` lies in the block. -/
def read (cells : List α) (index : ℤ) : Option α :=
  if 0 ≤ index then cells[index.toNat]? else none

/-- The block after one cell has been replaced. -/
def write (cells : List α) (index : ℤ) (value : α) : Option (List α) :=
  if 0 ≤ index ∧ index < cells.length then some (cells.set index.toNat value) else none

/-- The `count` cells from `offset` on. -/
def slice (cells : List α) (offset : ℤ) (count : ℕ) : Option (List α) :=
  if count = 0 then some []
  else if 0 ≤ offset ∧ offset + count ≤ cells.length then
    some ((cells.drop offset.toNat).take count)
  else none

/-- The block with `values` laid over the cells from `offset` on. -/
def overwrite (cells : List α) (offset : ℕ) (values : List α) : List α :=
  cells.take offset ++ values ++ cells.drop (offset + values.length)

/-- Copies `values` into the block from `offset` on. -/
def blit (cells : List α) (offset : ℤ) (values : List α) : Option (List α) :=
  if values = [] then some cells
  else if 0 ≤ offset ∧ offset + values.length ≤ cells.length then
    some (overwrite cells offset.toNat values)
  else none

/-- The block cut to `length` cells, or extended with `filler`. -/
def resize (cells : List α) (length : ℕ) (filler : α) : List α :=
  cells.take length ++ List.replicate (length - cells.length) filler

@[simp]
theorem length_resize (cells : List α) (length : ℕ) (filler : α) :
    (resize cells length filler).length = length := by
  simp only [resize, List.length_append, List.length_take, List.length_replicate]
  omega

theorem read_eq_some_iff {cells : List α} {index : ℤ} {value : α} :
    read cells index = some value ↔ 0 ≤ index ∧ cells[index.toNat]? = some value := by
  by_cases lower : 0 ≤ index <;> simp [read, lower]

theorem read_of_lt {cells : List α} {index : ℤ} (lower : 0 ≤ index)
    (upper : index < cells.length) : ∃ value, read cells index = some value := by
  have bound : index.toNat < cells.length := by omega
  refine ⟨cells[index.toNat], ?_⟩
  rw [read_eq_some_iff]
  exact ⟨lower, List.getElem?_eq_getElem bound⟩

theorem read_eq_none_iff {cells : List α} {index : ℤ} :
    read cells index = none ↔ index < 0 ∨ cells.length ≤ index := by
  simp only [read]
  split
  · rw [List.getElem?_eq_none_iff]
    omega
  · simp only [true_iff]
    omega

theorem write_of_lt (cells : List α) (index : ℤ) (value : α) (lower : 0 ≤ index)
    (upper : index < cells.length) :
    write cells index value = some (cells.set index.toNat value) := by
  simp [write, lower, upper]

theorem write_eq_none_iff {cells : List α} {index : ℤ} {value : α} :
    write cells index value = none ↔ index < 0 ∨ cells.length ≤ index := by
  simp only [write]
  split
  · simp only [reduceCtorEq, false_iff]
    omega
  · simp only [true_iff]
    omega

theorem write_eq_some_iff {cells written : List α} {index : ℤ} {value : α} :
    write cells index value = some written ↔
      (0 ≤ index ∧ index < cells.length) ∧ cells.set index.toNat value = written := by
  by_cases inside : 0 ≤ index ∧ index < cells.length <;> simp [write, inside]

theorem length_of_write {cells written : List α} {index : ℤ} {value : α}
    (stored : write cells index value = some written) : written.length = cells.length := by
  rw [write_eq_some_iff] at stored
  rw [← stored.2, List.length_set]

@[simp]
theorem length_overwrite {cells values : List α} {offset : ℕ}
    (room : offset + values.length ≤ cells.length) :
    (overwrite cells offset values).length = cells.length := by
  simp only [overwrite, List.length_append, List.length_take, List.length_drop]
  omega

theorem getElem?_overwrite {cells values : List α} {offset : ℕ}
    (room : offset + values.length ≤ cells.length) (index : ℕ) :
    (overwrite cells offset values)[index]? =
      if offset ≤ index ∧ index < offset + values.length then values[index - offset]?
      else cells[index]? := by
  have takeLength : (cells.take offset).length = offset := by
    rw [List.length_take]
    omega
  simp only [overwrite]
  rw [List.append_assoc]
  by_cases before : index < offset
  · rw [List.getElem?_append_left (by omega), List.getElem?_take_of_lt before,
      if_neg (by omega)]
  · rw [List.getElem?_append_right (by omega), takeLength]
    by_cases inside : index < offset + values.length
    · rw [List.getElem?_append_left (by omega), if_pos (by omega)]
    · rw [List.getElem?_append_right (by omega), List.getElem?_drop, if_neg (by omega)]
      congr 1
      omega

theorem overwrite_all {cells values : List α} (same : cells.length = values.length) :
    overwrite cells 0 values = values := by
  simp [overwrite, same]

theorem slice_eq_some (cells : List α) (offset : ℤ) (count : ℕ) (lower : 0 ≤ offset)
    (upper : offset + count ≤ cells.length) :
    slice cells offset count = some ((cells.drop offset.toNat).take count) := by
  simp only [slice]
  split
  · simp_all
  · rw [if_pos ⟨lower, upper⟩]

/-- What was laid over a block is found there. -/
theorem slice_overwrite {cells values : List α} {offset : ℕ}
    (room : offset + values.length ≤ cells.length) :
    slice (overwrite cells offset values) offset values.length = some values := by
  have begins : (cells.take offset).length = offset := by
    rw [List.length_take]
    omega
  have length := length_overwrite room
  rw [slice_eq_some _ _ _ (Int.natCast_nonneg offset) (by omega), Int.toNat_natCast, overwrite,
    List.append_assoc, List.drop_left' begins, List.take_left]

/-- The beginning of a block, as far as it goes. -/
theorem slice_min (cells : List α) {count : ℤ} (nonneg : 0 ≤ count) :
    slice cells 0 (min (cells.length : ℤ) count).toNat = some (cells.take count.toNat) := by
  have same : cells.take (min (cells.length : ℤ) count).toNat = cells.take count.toNat := by
    rw [List.take_eq_take_iff]
    omega
  rw [slice_eq_some cells 0 _ (Int.le_refl 0) (by omega), Int.toNat_zero, List.drop_zero, same]

theorem length_of_slice {cells part : List α} {offset : ℤ} {count : ℕ}
    (taken : slice cells offset count = some part) : part.length = count := by
  simp only [slice] at taken
  split at taken
  · simp_all
  · split at taken
    · cases taken
      rw [List.length_take, List.length_drop]
      omega
    · cases taken

theorem blit_eq_some (cells : List α) (offset : ℤ) (values : List α) (lower : 0 ≤ offset)
    (upper : offset + values.length ≤ cells.length) :
    blit cells offset values = some (overwrite cells offset.toNat values) := by
  simp only [blit]
  split
  · subst values
    simp [overwrite]
  · rw [if_pos ⟨lower, upper⟩]

theorem blit_eq_none {cells values : List α} {offset : ℤ} (nonempty : values ≠ [])
    (outside : offset < 0 ∨ cells.length < offset + values.length) :
    blit cells offset values = none := by
  simp only [blit]
  rw [if_neg nonempty, if_neg (by omega)]

theorem length_of_blit {cells values written : List α} {offset : ℤ}
    (stored : blit cells offset values = some written) : written.length = cells.length := by
  simp only [blit] at stored
  split at stored
  · cases stored
    rfl
  · split at stored
    · cases stored
      exact length_overwrite (by omega)
    · cases stored

theorem resize_congr {cells values : List α} {length : ℕ} (same : values.take length = cells.take length)
    (filler : α) : resize values length filler = resize cells length filler := by
  have lengths := congrArg List.length same
  rw [List.length_take, List.length_take] at lengths
  have rest : length - values.length = length - cells.length := by omega
  rw [resize, resize, same, rest]

/-- Values laid over the beginning of new storage. -/
theorem overwrite_replicate (values : List α) (length : ℕ) (filler : α) :
    overwrite (List.replicate length filler) 0 (values.take length) = resize values length filler := by
  have rest : length - min length values.length = length - values.length := by omega
  rw [overwrite, resize, List.take_zero, List.nil_append, Nat.zero_add, List.drop_replicate,
    List.length_take, rest]

theorem resize_eq_replicate_iff {values : List α} {length : ℕ} {filler : α} :
    resize values length filler = List.replicate length filler ↔
      ∀ value ∈ values.take length, value = filler := by
  rw [List.eq_replicate_iff]
  constructor
  · rintro ⟨_, all⟩ value mem
    exact all value (List.mem_append_left _ mem)
  · intro all
    refine ⟨length_resize values length filler, ?_⟩
    intro value mem
    rcases List.mem_append.mp mem with given | added
    · exact all value given
    · exact List.eq_of_mem_replicate added

/-- Values laid over new storage behind its beginning are those that belong there only if they do not
differ from the storage. -/
theorem overwrite_replicate_eq_resize_iff {values : List α} {length offset : ℕ} {filler : α}
    (behind : 0 < offset) (inside : offset ≤ length) :
    overwrite (List.replicate length filler) offset (values.take (length - offset)) =
        resize values length filler ↔ ∀ value ∈ values.take length, value = filler := by
  have room : offset + (values.take (length - offset)).length ≤
      (List.replicate length filler).length := by
    rw [List.length_replicate, List.length_take]
    omega
  constructor
  · intro same
    have zero : ∀ i, i < length → i < values.length → values[i]? = some filler := by
      intro i below given
      induction i using Nat.strongRecOn with
      | ind i ih =>
          have cell := congrArg (fun cells : List α => cells[i]?) same
          simp only [getElem?_overwrite room, resize] at cell
          rw [List.getElem?_append_left (by rw [List.length_take]; omega),
            List.getElem?_take_of_lt below] at cell
          rw [← cell]
          split
          · next laid =>
            rw [List.getElem?_take_of_lt (by omega)]
            exact ih (i - offset) (by omega) (by omega) (by omega)
          · exact List.getElem?_replicate_of_lt below
    intro value mem
    rcases List.mem_iff_getElem?.mp mem with ⟨i, found⟩
    have below := (List.getElem?_eq_some_iff.mp found).1
    rw [List.length_take] at below
    rw [List.getElem?_take_of_lt (by omega), zero i (by omega) (by omega)] at found
    exact (Option.some.inj found).symm
  · intro all
    rw [resize_eq_replicate_iff.mpr all, List.eq_replicate_iff, length_overwrite room,
      List.length_replicate]
    refine ⟨rfl, ?_⟩
    intro value mem
    rcases List.mem_append.mp mem with start | last
    · rcases List.mem_append.mp start with before | given
      · exact List.eq_of_mem_replicate (List.mem_of_mem_take before)
      · exact all value (List.take_subset_take_left values (Nat.sub_le length offset) given)
    · exact List.eq_of_mem_replicate (List.mem_of_mem_drop last)

end Storage
