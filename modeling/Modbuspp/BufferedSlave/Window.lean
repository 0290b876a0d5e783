import Modbuspp.BufferedSlave.Access
import Modbuspp.BufferedSlave.Range
import Modbuspp.Library.Memory

/-!
# Blocks as windows onto a memory

A block holds the cells of a memory from its start on. An access that stays inside the block then loads
from the memory or stores to it, at the address of the access, and leaves the layout of the block alone.
-/

namespace Modbuspp.Block

variable {α : Type} {block : Block α} {memory : ℤ → α} {address : ℤ} {count : ℕ}

/-- The block is a window on the memory. -/
def Holds (block : Block α) (memory : ℤ → α) : Prop := Memory.Holds memory block.start block.cells

theorem holds_valueAt (block : Block α) (zero : α) :
    block.Holds fun place => (block.valueAt place).getD zero := by
  intro i inside
  have found := List.getElem?_eq_getElem inside
  have value : block.valueAt (block.start + i) = some block.cells[i] := by
    rw [valueAt, Storage.read_eq_some_iff]
    refine ⟨by omega, ?_⟩
    rw [show (block.start + i - block.start).toNat = i by omega, found]
  simp only [value, found, Option.getD_some]

/-- The cells from an address on lie in the storage, as many as `count`. -/
structure Covers (block : Block α) (address : ℤ) (count : ℕ) : Prop where
  lower : block.start ≤ address
  first : address < block.start + block.cells.length
  last : address + count ≤ block.start + block.cells.length

theorem Covers.nonempty (covers : block.Covers address count) : block.cells ≠ [] := by
  have := covers.lower
  have := covers.first
  apply List.ne_nil_of_length_pos
  omega

theorem elementAt_of_covers (holds : block.Holds memory) (covers : block.Covers address count) :
    block.elementAt (address - block.start) = .ok (memory address) := by
  have read := holds.read covers.lower covers.first
  simp only [elementAt, read, checked_some]

theorem slice_of_covers (holds : block.Holds memory) (covers : block.Covers address count) :
    block.slice (address - block.start) count = .ok (Memory.load memory address count) := by
  have := covers.lower
  have := covers.last
  have taken := Storage.slice_eq_some block.cells (address - block.start) count (by omega) (by omega)
  have loaded := Memory.Holds.slice holds
    (by omega : (address - block.start).toNat + count ≤ block.cells.length)
  have place : block.start + ((address - block.start).toNat : ℤ) = address := by omega
  rw [place] at loaded
  simp only [slice, Int.toNat_natCast, taken, loaded, checked_some]

theorem copyOut_of_covers (holds : block.Holds memory) (covers : block.Covers address count) :
    block.copyOut (address - block.start) count = .ok (Memory.load memory address count) := by
  have nonneg : ¬(count : ℤ) < 0 := by omega
  rw [copyOut, if_neg nonneg]
  exact slice_of_covers holds covers

theorem store_of_covers {values : List α} (holds : block.Holds memory)
    (covers : block.Covers address values.length) :
    ∃ after, block.store (address - block.start) values = .ok after ∧ block.SameLayout after ∧
      after.Holds (Memory.store memory address values) := by
  have := covers.lower
  have := covers.last
  have stored := Storage.blit_eq_some block.cells (address - block.start) values (by omega) (by omega)
  have overwritten := Memory.Holds.overwrite holds
    (by omega : (address - block.start).toNat + values.length ≤ block.cells.length)
  have place : block.start + ((address - block.start).toNat : ℤ) = address := by omega
  rw [place] at overwritten
  have run : block.store (address - block.start) values =
      .ok { block with
        tab := some (Storage.overwrite block.cells (address - block.start).toNat values) } := by
    simp only [store, stored]
  exact ⟨_, run, sameLayout_store covers.nonempty run, overwritten⟩

theorem copyIn_of_covers {src : List α} (holds : block.Holds memory)
    (covers : block.Covers address count) (long : count ≤ src.length) :
    ∃ after, block.copyIn (address - block.start) count src = .ok after ∧ block.SameLayout after ∧
      after.Holds (Memory.store memory address (src.take count)) := by
  have length : (src.take count).length = count := by
    rw [List.length_take]
    omega
  have taken := Storage.slice_eq_some src 0 count (by omega) (by omega)
  have nonneg : ¬(count : ℤ) < 0 := by omega
  rcases store_of_covers holds (length.symm ▸ covers) with ⟨after, stored, kept, held⟩
  refine ⟨after, ?_, kept, held⟩
  simp only [copyIn, if_neg nonneg, Int.toNat_natCast, taken, Int.toNat_zero, List.drop_zero,
    checked_some, ok_bind]
  exact stored

/-- A block of the same layout covers the same cells. -/
theorem SameLayout.covers {other : Block α} (same : block.SameLayout other)
    (covers : block.Covers address count) : other.Covers address count := by
  have := same.start_eq
  have := same.length_cells
  exact ⟨by have := covers.lower; omega, by have := covers.first; omega,
    by have := covers.last; omega⟩

end Modbuspp.Block
