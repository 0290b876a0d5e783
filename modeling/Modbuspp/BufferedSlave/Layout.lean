import Modbuspp.BufferedSlave.Window

/-!
# The tables of a slave as an addressed memory

The four tables are functions from addresses to values, and a layout says which of the addresses belong to
a block. The blocks of a slave represent such a memory: looking for an address, cutting a quantity and
replacing a block have their counterparts in the memory.
-/

namespace Modbuspp

/-- The addresses of the tables. -/
structure Layout where
  pduAddressing : Bool
  start : Table → ℤ
  nb : Table → ℕ

namespace Layout

/-- The address on the level of the PDU: the data model counts from 1. -/
def address (layout : Layout) (addr : ℤ) : ℤ := if layout.pduAddressing then addr else addr - 1

/-- The address is one of the block of the table. -/
def Contains (layout : Layout) (t : Table) (address : ℤ) : Prop :=
  layout.start t ≤ address ∧ address < layout.start t + layout.nb t

instance (layout : Layout) (t : Table) (address : ℤ) : Decidable (layout.Contains t address) :=
  inferInstanceAs (Decidable (_ ∧ _))

/-- The end of the block of a table is an `int`. -/
def Near (layout : Layout) (t : Table) : Prop := layout.start t + layout.nb t < 2 ^ 31

instance (layout : Layout) (t : Table) : Decidable (layout.Near t) :=
  inferInstanceAs (Decidable (_ < _))

/-- The number of cells from an address on, up to the end of the table. -/
def count (layout : Layout) (t : Table) (address : ℤ) (nb : ℕ) : ℕ :=
  min nb (layout.start t + layout.nb t - address).toNat

variable (layout : Layout) (cells : Cells)

/-- The cells that a read gets. -/
def load (t : Table) (addr : ℤ) (nb : ℕ) : List t.Cell :=
  Memory.load (cells t) (layout.address addr) (layout.count t (layout.address addr) nb)

/-- The memory after a write. -/
def store (t : Table) (addr : ℤ) (src : List t.Cell) (nb : ℕ) : Cells :=
  Function.update cells t (Memory.store (cells t) (layout.address addr)
    (src.take (layout.count t (layout.address addr) nb)))

/-- The blocks of a station hold the cells of the memory. -/
structure Represents (st : Station) : Prop where
  addressing : st.slave.pduAddressing = layout.pduAddressing
  start_eq : ∀ t, (st.slave.map t).start = layout.start t
  nb_eq : ∀ t, (st.slave.map t).nb = layout.nb t
  laid : ∀ t, (st.slave.map t).LaidOut
  holds : ∀ t, (st.slave.map t).Holds (cells t)

end Layout

/-- The addresses of the blocks of a slave. -/
def Station.layout (st : Station) : Layout where
  pduAddressing := st.slave.pduAddressing
  start := fun t => (st.slave.map t).start
  nb := fun t => (st.slave.map t).nb.toNat

theorem Block.LaidOut.of_sameLayout {α : Type} {block other : Block α} (laid : block.LaidOut)
    (same : block.SameLayout other) : other.LaidOut := by
  have nb_eq := same.nb_eq
  have length_eq := same.length_eq
  rcases laid with ⟨noStorage, none_before⟩ | ⟨cells, storage, count, nonempty⟩
  · left
    rw [noStorage] at length_eq
    exact ⟨Option.map_eq_none_iff.mp length_eq, by omega⟩
  · right
    rw [storage] at length_eq
    rcases Option.map_eq_some_iff.mp length_eq with ⟨others, otherStorage, length⟩
    exact ⟨others, otherStorage, by omega, by omega⟩

namespace Layout.Represents

variable {layout : Layout} {cells : Cells} {st : Station}
  (represents : layout.Represents cells st)

include represents

theorem pduAddress (addr : ℤ) : st.slave.pduAddress addr = layout.address addr := by
  simp only [Slave.pduAddress, address, represents.addressing]
  split <;> omega

theorem contains {t : Table} {address : ℤ} (found : (st.slave.map t).Contains address) :
    layout.Contains t address := by
  have upper := found.lt_end
  rw [represents.start_eq, represents.nb_eq] at upper
  exact ⟨represents.start_eq t ▸ found.1, upper⟩

/-- The code finds an address in its block if the block ends at an `int`. -/
theorem contains_iff {t : Table} {address : ℤ} (near : layout.Contains t address → layout.Near t) :
    (st.slave.map t).Contains address ↔ layout.Contains t address := by
  constructor
  · exact represents.contains
  · intro inside
    have ends := near inside
    rcases inside with ⟨lower, upper⟩
    rw [Near, ← represents.start_eq, ← represents.nb_eq] at ends
    rw [← represents.start_eq] at lower upper
    rw [← represents.nb_eq] at upper
    exact Block.contains_of_near ends lower upper

theorem covers {t : Table} {address : ℤ} (contains : layout.Contains t address) (nb : ℕ) :
    (st.slave.map t).Covers address (layout.count t address nb) := by
  have start_eq := represents.start_eq t
  have length := (represents.laid t).nb_eq
  have nb_eq := represents.nb_eq t
  rcases contains with ⟨lower, upper⟩
  exact ⟨by omega, by omega, by simp only [count]; omega⟩

theorem count_eq {t : Table} {address : ℤ} (contains : layout.Contains t address) (nb : ℕ) :
    min (nb : ℤ) ((st.slave.map t).nb - (address - (st.slave.map t).start)) =
      layout.count t address nb := by
  rcases contains with ⟨lower, upper⟩
  simp only [represents.start_eq, represents.nb_eq, count]
  omega

/-- The cell of a block at an address. -/
theorem valueAt (t : Table) (place : ℤ) :
    (st.slave.map t).valueAt place = if layout.Contains t place then some (cells t place) else none := by
  have length := (represents.laid t).nb_eq
  rw [represents.nb_eq] at length
  have start_eq := represents.start_eq t
  simp only [Block.valueAt]
  split
  · next contains =>
    rcases contains with ⟨lower, upper⟩
    exact (represents.holds t).read (by omega) (by omega)
  · next outside =>
    rw [Storage.read_eq_none_iff]
    simp only [Contains] at outside
    omega

theorem layout_eq : st.layout = layout := by
  rcases layout with ⟨pduAddressing, start, nb⟩
  have start_eq : (fun t => (st.slave.map t).start) = start := funext represents.start_eq
  have nb_eq : (fun t => (st.slave.map t).nb.toNat) = nb := by
    funext t
    rw [represents.nb_eq t, Int.toNat_natCast]
  simp only [Station.layout, represents.addressing, start_eq, nb_eq]

theorem withBlock {t : Table} {block : Block t.Cell} {memory : ℤ → t.Cell}
    (same : (st.slave.map t).SameLayout block) (holds : block.Holds memory) :
    layout.Represents (Function.update cells t memory) (st.withBlock t block) := by
  have laid := (represents.laid t).of_sameLayout same
  have start_eq := same.start_eq.trans (represents.start_eq t)
  have nb_eq := same.nb_eq.trans (represents.nb_eq t)
  refine ⟨represents.addressing, ?_, ?_, ?_, ?_⟩ <;> intro other <;>
    by_cases here : other = t
  · subst here
    simpa only [Station.withBlock, Function.update_self] using start_eq
  · simpa only [Station.withBlock, Function.update_of_ne here] using represents.start_eq other
  · subst here
    simpa only [Station.withBlock, Function.update_self] using nb_eq
  · simpa only [Station.withBlock, Function.update_of_ne here] using represents.nb_eq other
  · subst here
    simpa only [Station.withBlock, Function.update_self] using laid
  · simpa only [Station.withBlock, Function.update_of_ne here] using represents.laid other
  · subst here
    simpa only [Station.withBlock, Function.update_self] using holds
  · simpa only [Station.withBlock, Function.update_of_ne here] using represents.holds other

end Layout.Represents

theorem Station.represents_layout {st : Station} {cells : Cells} (laid : ∀ t, (st.slave.map t).LaidOut)
    (holds : ∀ t, (st.slave.map t).Holds (cells t)) : st.layout.Represents cells st where
  addressing := rfl
  start_eq := fun _ => rfl
  nb_eq := by
    intro t
    have length := (laid t).nb_eq
    simp only [layout]
    omega
  laid := laid
  holds := holds

end Modbuspp
