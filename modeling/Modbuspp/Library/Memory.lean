import Modbuspp.Library.Storage

/-!
# Addressed memory

A memory gives every address a value. Storage that starts at some address is a window onto it: copying
out of the storage loads from the memory, and laying values over the storage stores them.
-/

namespace Memory

universe u

variable {α : Type u}

/-- The values of consecutive cells. -/
def load (memory : ℤ → α) (address : ℤ) (count : ℕ) : List α :=
  (List.range count).map fun i : ℕ => memory (address + i)

/-- The memory after values have been stored in consecutive cells. -/
def store (memory : ℤ → α) (address : ℤ) (values : List α) : ℤ → α :=
  fun place => (Storage.read values (place - address)).getD (memory place)

/-- The cells of a storage are those of the memory from `base` on. -/
def Holds (memory : ℤ → α) (base : ℤ) (cells : List α) : Prop :=
  ∀ i : ℕ, i < cells.length → cells[i]? = some (memory (base + i))

variable {memory : ℤ → α} {address base place : ℤ} {cells values : List α} {count offset : ℕ}

@[simp]
theorem length_load (memory : ℤ → α) (address : ℤ) (count : ℕ) :
    (load memory address count).length = count := by
  simp only [load, List.length_map, List.length_range]

theorem getElem?_load {i : ℕ} (inside : i < count) :
    (load memory address count)[i]? = some (memory (address + i)) := by
  simp only [load, List.getElem?_map, List.getElem?_range inside, Option.map_some]

theorem store_inside {value : α} (lower : address ≤ place)
    (found : values[(place - address).toNat]? = some value) : store memory address values place = value := by
  have read := Storage.read_eq_some_iff.mpr ⟨(by omega : 0 ≤ place - address), found⟩
  simp only [store, read, Option.getD_some]

theorem store_outside (outside : place < address ∨ address + values.length ≤ place) :
    store memory address values place = memory place := by
  have unread : Storage.read values (place - address) = none := by
    rw [Storage.read_eq_none_iff]
    omega
  simp only [store, unread, Option.getD_none]

theorem load_store (memory : ℤ → α) (address : ℤ) (values : List α) :
    load (store memory address values) address values.length = values := by
  apply List.ext_getElem?
  intro i
  by_cases inside : i < values.length
  · have found : values[(address + i - address).toNat]? = some values[i] := by
      rw [show (address + i - address).toNat = i by omega]
      exact List.getElem?_eq_getElem inside
    rw [getElem?_load inside, store_inside (by omega) found, List.getElem?_eq_getElem inside]
  · rw [List.getElem?_eq_none (by rw [length_load]; omega), List.getElem?_eq_none (by omega)]

/-- Storing what is there changes nothing. -/
theorem store_load (memory : ℤ → α) (address : ℤ) (count : ℕ) :
    store memory address (load memory address count) = memory := by
  funext place
  by_cases inside : address ≤ place ∧ place < address + count
  · apply store_inside inside.1
    rw [getElem?_load (by omega)]
    congr 2
    omega
  · apply store_outside
    rw [length_load]
    omega

theorem Holds.read (holds : Holds memory base cells) (lower : base ≤ place)
    (upper : place < base + cells.length) :
    Storage.read cells (place - base) = some (memory place) := by
  rw [Storage.read_eq_some_iff]
  refine ⟨by omega, ?_⟩
  rw [holds _ (by omega)]
  congr 2
  omega

theorem Holds.slice (holds : Holds memory base cells) (room : offset + count ≤ cells.length) :
    (cells.drop offset).take count = load memory (base + offset) count := by
  apply List.ext_getElem?
  intro i
  by_cases inside : i < count
  · rw [List.getElem?_take_of_lt inside, List.getElem?_drop, holds _ (by omega),
      getElem?_load inside]
    congr 2
    omega
  · rw [List.getElem?_eq_none (by rw [List.length_take]; omega),
      List.getElem?_eq_none (by rw [length_load]; omega)]

theorem Holds.overwrite (holds : Holds memory base cells)
    (room : offset + values.length ≤ cells.length) :
    Holds (store memory (base + offset) values) base (Storage.overwrite cells offset values) := by
  intro i inside
  rw [Storage.length_overwrite room] at inside
  rw [Storage.getElem?_overwrite room]
  split
  · next within =>
    have found := List.getElem?_eq_getElem (by omega : i - offset < values.length)
    have place : (base + i - (base + offset)).toNat = i - offset := by omega
    rw [store_inside (by omega) (by rw [place, found]), found]
  · rw [store_outside (by omega), holds i inside]

theorem holds_store (memory : ℤ → α) (address : ℤ) (values : List α) :
    Holds (store memory address values) address values := by
  intro i inside
  have found := List.getElem?_eq_getElem inside
  rw [store_inside (by omega) (by rw [show (address + i - address).toNat = i by omega, found]), found]

end Memory
