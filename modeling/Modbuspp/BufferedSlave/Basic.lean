import Mathlib.Logic.Function.Basic
import Modbuspp.Message.Basic
import Modbuspp.Slave.Basic

/-!
# Buffered slaves

A buffered slave keeps a mapping of the four tables of libmodbus. A block has an address on the level
of the PDU, a number of elements and storage on the heap, which is null when there is none. The block
of a table is set by one of four functions that differ in the table they name and in the position at
which the new elements are cleared.
-/

namespace Modbuspp

/-- The part of a mapping that belongs to one table. -/
structure Block (α : Type) where
  start : ℤ
  nb : ℤ
  tab : Option (List α)
deriving DecidableEq

/-- `modbus_mapping_t`: a block for each table. -/
abbrev Mapping := (t : Table) → Block t.Cell

namespace Block

variable {α : Type}

/-- A block without elements, as `modbus_mapping_new` makes it. -/
def empty : Block α := { start := 0, nb := 0, tab := none }

/-- The elements that there is storage for. -/
def cells (block : Block α) : List α := block.tab.getD []

/-- The index expression `tab[offset]`, also where its address is taken. -/
def elementAt (block : Block α) (offset : ℤ) : Except Fault α :=
  checked (Storage.read block.cells offset)

/-- The cell at an address on the level of the PDU. -/
def valueAt (block : Block α) (address : ℤ) : Option α :=
  Storage.read block.cells (address - block.start)

/-- The elements that a pointer into the block gives to a callee. -/
def slice (block : Block α) (offset nb : ℤ) : Except Fault (List α) :=
  checked (Storage.slice block.cells offset nb.toNat)

/-- The block after elements were copied into it from an offset on. -/
def store (block : Block α) (offset : ℤ) (values : List α) : Except Fault (Block α) :=
  match Storage.blit block.cells offset values with
  | none => .error .outOfBounds
  | some cells => .ok { block with tab := some cells }

/-- An allocation of `nmemb` elements: the contents of new storage, or a failure. A negative number
becomes a size that no allocator grants. -/
def allocate (nmemb : ℤ) (fresh : Option (ℕ → α)) : Option (ℕ → α) :=
  if 0 ≤ nmemb then fresh else none

/-- The common form of the functions that set a block. The new elements are cleared from
`&tab[nb * scale]` on. -/
def set (block : Block α) (zero : α) (scale : ℕ) (start nmemb : ℤ) (fresh : Option (ℕ → α)) :
    Except Fault ℤ × Block α :=
  if nmemb = 0 then (.ok nmemb, { start, nb := nmemb, tab := none })
  else if block.nb ≠ nmemb then
    match block.tab, allocate nmemb fresh with
    | _, none => (.ok (-1), { block with tab := none })
    | none, some _ =>
        (.ok nmemb, { start, nb := nmemb, tab := some (List.replicate nmemb.toNat zero) })
    | some cells, some contents =>
        let moved := cells.take nmemb.toNat ++
          (List.range (nmemb.toNat - cells.length)).map contents
        if nmemb > block.nb then
          match Storage.blit moved (block.nb * scale)
              (List.replicate (nmemb - block.nb).toNat zero) with
          | none => (.error .outOfBounds, { block with tab := some moved })
          | some cleared => (.ok nmemb, { start, nb := nmemb, tab := some cleared })
        else (.ok nmemb, { start, nb := nmemb, tab := some moved })
  else (.ok nmemb, { start, nb := nmemb, tab := block.tab })

/-- Storage, where there is some, has the announced number of elements and is not empty. -/
structure Sound (block : Block α) : Prop where
  nb_nonneg : 0 ≤ block.nb
  storage : ∀ cells, block.tab = some cells → block.nb = cells.length ∧ 0 < cells.length

/-- Two blocks that differ in the values of their cells only. -/
structure SameLayout (block other : Block α) : Prop where
  start_eq : other.start = block.start
  nb_eq : other.nb = block.nb
  length_eq : other.tab.map List.length = block.tab.map List.length

theorem Sound.of_sameLayout {block other : Block α} (sound : block.Sound)
    (same : block.SameLayout other) : other.Sound where
  nb_nonneg := by
    rw [same.nb_eq]
    exact sound.nb_nonneg
  storage := by
    intro cells found
    have length_eq := same.length_eq
    rw [found] at length_eq
    cases storage : block.tab with
    | none => simp [storage] at length_eq
    | some before =>
        have := sound.storage before storage
        have := same.nb_eq
        simp only [storage, Option.map_some, Option.some.injEq] at length_eq
        omega

theorem SameLayout.length_cells {block other : Block α} (same : block.SameLayout other) :
    other.cells.length = block.cells.length := by
  have length_eq := same.length_eq
  simp only [cells]
  cases first : block.tab <;> cases second : other.tab <;>
    simp only [first, second, Option.map_none, Option.map_some, reduceCtorEq,
      Option.some.injEq] at length_eq
  · rfl
  · exact length_eq

theorem exists_valueAt_iff {block : Block α} {address : ℤ} :
    (∃ value, block.valueAt address = some value) ↔
      block.start ≤ address ∧ address < block.start + block.cells.length := by
  constructor
  · rintro ⟨value, found⟩
    rcases Storage.read_eq_some_iff.mp found with ⟨lower, cell⟩
    rcases List.getElem?_eq_some_iff.mp cell with ⟨upper, _⟩
    omega
  · rintro ⟨lower, upper⟩
    exact Storage.read_of_lt (by omega) (by omega)

end Block

/-- All storage of a mapping has the announced number of elements. -/
def Mapping.Sound (map : Mapping) : Prop := ∀ t, (map t).Sound

/-- A callback of a slave: what it returns for a request, which it may change along with the mapping.
It reaches the mapping through the functions of the slave only, which keep it sound. -/
structure Callback where
  run : Message → Mapping → ℤ × Message × Mapping
  sound : ∀ req {map : Mapping}, map.Sound → (run req map).2.2.Sound

/-- The private state of `BufferedSlave`. -/
structure BufferedSlave extends Slave where
  map : Mapping
  idReport : List UInt8
  beforeReplyCB : Option Callback
  afterReplyCB : Option Callback

namespace BufferedSlave

/-- A new slave without cells in any table. -/
def create (slaveAddr : ℤ) (dev : Option ℕ) : BufferedSlave where
  pduAddressing := false
  id := slaveAddr
  dev := dev
  map := fun _ => Block.empty
  idReport := []
  beforeReplyCB := none
  afterReplyCB := none

/-- The position at which a table is cleared, for one element: the tables of bits have elements of
one byte, those of registers are indexed with a size in bytes. -/
def clearScale : Table → ℕ
  | .discreteInput => 1
  | .coil => 1
  | .inputRegister => 2
  | .holdingRegister => 2

/-- The common form of the four setters of blocks. New elements are cleared from `&tab[nb * scale]` on. -/
def setTableBlock (slv : BufferedSlave) (t : Table) (scale : ℕ) (addr nmemb : ℤ)
    (fresh : Option (ℕ → t.Cell)) : Except Fault ℤ × BufferedSlave :=
  let (rc, block) := (slv.map t).set t.zero scale (slv.pduAddress addr) nmemb fresh
  (rc, { slv with map := Function.update slv.map t block })

/-- The block of discrete inputs gets this size and start. -/
def setDiscreteInputBlock (slv : BufferedSlave) (addr nmemb : ℤ) (fresh : Option (ℕ → Bool)) :
    Except Fault ℤ × BufferedSlave :=
  slv.setTableBlock .discreteInput 1 addr nmemb fresh

/-- The block of coils gets this size and start. -/
def setCoilBlock (slv : BufferedSlave) (addr nmemb : ℤ) (fresh : Option (ℕ → Bool)) :
    Except Fault ℤ × BufferedSlave :=
  slv.setTableBlock .coil 1 addr nmemb fresh

/-- The factor 2 is `sizeof (uint16_t)`. -/
def setInputRegisterBlock (slv : BufferedSlave) (addr nmemb : ℤ) (fresh : Option (ℕ → UInt16)) :
    Except Fault ℤ × BufferedSlave :=
  slv.setTableBlock .inputRegister 2 addr nmemb fresh

/-- The block of holding registers gets this size and start. -/
def setHoldingRegisterBlock (slv : BufferedSlave) (addr nmemb : ℤ) (fresh : Option (ℕ → UInt16)) :
    Except Fault ℤ × BufferedSlave :=
  slv.setTableBlock .holdingRegister 2 addr nmemb fresh

/-- The address that a block gets when none is given. -/
def blockAddress (slv : BufferedSlave) (startAddr : ℤ) : ℤ :=
  if startAddr < 0 then (if slv.pduAddressing then 0 else 1) else startAddr

/-- The block of a table gets this size and start, a data address. -/
def setBlock (slv : BufferedSlave) (t : Table) (nmemb startAddr : ℤ)
    (fresh : Option (ℕ → t.Cell)) : Except Fault ℤ × BufferedSlave :=
  let startAddr := slv.blockAddress startAddr
  match t with
  | .discreteInput => slv.setDiscreteInputBlock startAddr nmemb fresh
  | .coil => slv.setCoilBlock startAddr nmemb fresh
  | .inputRegister => slv.setInputRegisterBlock startAddr nmemb fresh
  | .holdingRegister => slv.setHoldingRegisterBlock startAddr nmemb fresh

/-- The four functions are one, up to the position at which the new elements are cleared. -/
theorem setBlock_eq (slv : BufferedSlave) (t : Table) (nmemb startAddr : ℤ)
    (fresh : Option (ℕ → t.Cell)) :
    slv.setBlock t nmemb startAddr fresh =
      slv.setTableBlock t (clearScale t) (slv.blockAddress startAddr) nmemb fresh := by
  cases t <;> rfl

end BufferedSlave

end Modbuspp
