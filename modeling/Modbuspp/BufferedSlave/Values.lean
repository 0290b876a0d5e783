import Modbuspp.BufferedSlave.BitValues

/-!
# Values of described blocks

The initial values of a block are numbers that its data type can represent, or booleans, zeros, ones and
bytes. The loops of the configuration read them as the cells they stand for.
-/

namespace Modbuspp

/-- A value of a block of bits: a boolean, one of the numbers 0 and 1, or the text of a byte. -/
inductive BitValue where
  | boolean (value : Bool)
  | binary (value : Bool)
  | byte (str : List Char) (value : ℕ) (denotes : Denotes str value) (small : value ≤ 0xFF)

namespace BitValue

/-- The element as a JSON text has it. -/
def json : BitValue → Json
  | boolean value => .boolean value
  | binary value => .number (Rat.ofInt (if value then 1 else 0))
  | byte str _ _ _ => .text str

/-- A byte stands for its eight bits from the least significant one. -/
def bits : BitValue → List Bool
  | boolean value => [value]
  | binary value => [value]
  | byte _ value _ _ => (List.range 8).map fun i => value.testBit i

end BitValue

/-- The values of a block of registers: numbers that the data type, `uint16` by default, can represent. -/
structure RegisterValues where
  dataType : Option IntType
  endian : Option Endian
  numbers : List ℤ
  representable : ∀ n ∈ numbers, (dataType.getD .uint16).lowest ≤ n ∧ n ≤ (dataType.getD .uint16).max

/-- The name of the type in a JSON text. -/
def IntType.dataEnum : IntType → DataEnum
  | uint16 => .uint16
  | uint32 => .uint32
  | uint64 => .uint64
  | int16 => .int16
  | int32 => .int32
  | int64 => .int64

namespace RegisterValues

variable (values : RegisterValues)

/-- The type of the values, `uint16` when none is named. -/
def type : IntType := values.dataType.getD .uint16

/-- The registers of an element. -/
def width : ℕ := values.type.dataEnum.registers

/-- The endianness, `abcd` by default. -/
def arrangement : Endian := values.endian.getD .bigBig

/-- The numbers in the order of the endianness. -/
def cells : List UInt16 :=
  values.numbers.flatMap fun n => (encode values.arrangement (bytesOf values.width n)).toList

/-- The registers that a machine makes of the numbers. -/
def written (host : Host) : List UInt16 :=
  values.numbers.flatMap fun n =>
    (Data.create host values.arrangement (host.order.represent values.width n)).registers.toList

/-- There is no number whose swaps are undefined. -/
def SwapsDefined : Prop := values.numbers = [] ∨ values.arrangement.Defined (2 * values.width)

/-- The values as a JSON text has them. -/
def json : List Json := values.numbers.map fun n => .number (Rat.ofInt n)

end RegisterValues

/-- The values that a block of a table may have. -/
@[reducible]
def InitialValues : Table → Type
  | .discreteInput => List BitValue
  | .coil => List BitValue
  | .inputRegister => RegisterValues
  | .holdingRegister => RegisterValues

namespace InitialValues

/-- How many cells one of the values takes. -/
def width : {t : Table} → InitialValues t → ℕ
  | .discreteInput, _ => 1
  | .coil, _ => 1
  | .inputRegister, values => RegisterValues.width values
  | .holdingRegister, values => RegisterValues.width values

/-- The cells that the values stand for. -/
def cells : {t : Table} → InitialValues t → List t.Cell
  | .discreteInput, values => List.flatMap BitValue.bits values
  | .coil, values => List.flatMap BitValue.bits values
  | .inputRegister, values => RegisterValues.cells values
  | .holdingRegister, values => RegisterValues.cells values

/-- The cells that a machine writes for the values. -/
def written (host : Host) : {t : Table} → InitialValues t → List t.Cell
  | .discreteInput, values => List.flatMap BitValue.bits values
  | .coil, values => List.flatMap BitValue.bits values
  | .inputRegister, values => RegisterValues.written values host
  | .holdingRegister, values => RegisterValues.written values host

/-- Every machine writes the values themselves. -/
def SwapsDefined : {t : Table} → InitialValues t → Prop
  | .discreteInput, _ => True
  | .coil, _ => True
  | .inputRegister, values => RegisterValues.SwapsDefined values
  | .holdingRegister, values => RegisterValues.SwapsDefined values

/-- The JSON values. -/
def json : {t : Table} → InitialValues t → List Json
  | .discreteInput, values => List.map BitValue.json values
  | .coil, values => List.map BitValue.json values
  | .inputRegister, values => RegisterValues.json values
  | .holdingRegister, values => RegisterValues.json values

/-- The type that the description names. -/
def dataType : {t : Table} → InitialValues t → Option DataEnum
  | .discreteInput, _ => none
  | .coil, _ => none
  | .inputRegister, values => (RegisterValues.dataType values).map IntType.dataEnum
  | .holdingRegister, values => (RegisterValues.dataType values).map IntType.dataEnum

/-- The endianness that the description names. -/
def endian : {t : Table} → InitialValues t → Option Endian
  | .discreteInput, _ => none
  | .coil, _ => none
  | .inputRegister, values => RegisterValues.endian values
  | .holdingRegister, values => RegisterValues.endian values

end InitialValues

/-- The first address of a table. -/
def firstAddress (pduAddressing : Bool) : ℤ := if pduAddressing then 0 else 1

/-- A block with initial values, whose place is not given. -/
structure InitialBlock where
  table : Table
  quantity : ℕ
  positive : 0 < quantity
  startingAddress : Option ℤ
  values : InitialValues table

namespace InitialBlock

variable (b : InitialBlock)

/-- What the JSON text says. Numbers are looked up as `int`. -/
def description : BlockDescription where
  table := .ok b.table
  quantity := .ok (IntType.int32.cast b.quantity)
  startingAddress := .ok (b.startingAddress.map IntType.int32.cast)
  dataType := .ok b.values.dataType
  endian := .ok b.values.endian
  values := some (.array b.values.json)
  valuesAddress := .ok none

/-- The number of cells. -/
def nb : ℕ := b.quantity * b.values.width

/-- The block has its address and its number of cells, and it begins with the values, as many as there is
room for; what follows is zero. -/
structure Initialised (slv : BufferedSlave) : Prop where
  start_eq : (slv.map b.table).start =
    slv.pduAddress (b.startingAddress.getD (firstAddress slv.pduAddressing))
  nb_eq : (slv.map b.table).nb = b.nb
  cells_eq : (slv.map b.table).cells = Storage.resize b.values.cells b.nb b.table.zero

/-- There is storage for the block, its address is the first one of the mode or all its values are zero,
and its address is above the first one or the swaps of its values are defined. -/
structure Placeable (pduAddressing : Bool) (memory : (t : Table) → Option (ℕ → t.Cell)) : Prop where
  granted : (memory b.table).isSome
  small : b.nb < 2 ^ 31
  address : ∀ addr, b.startingAddress = some addr → addr = firstAddress pduAddressing ∨
    (0 ≤ addr ∧ addr < 2 ^ 31 ∧ ∀ cell ∈ b.values.cells.take b.nb, cell = b.table.zero)
  swaps : (∃ addr, b.startingAddress = some addr ∧ firstAddress pduAddressing < addr) ∨
    b.values.SwapsDefined

end InitialBlock

namespace Json

theorem standsFor_bits (value : BitValue) : value.json.StandsFor value.bits := by
  cases value with
  | boolean value => exact .boolean value
  | binary value => exact .binary value
  | byte str value denotes small =>
      rcases denotes with ⟨n, found, whole, same⟩
      have sign := magnitude_eq n
      have converted : stoull "stoul" str = .ok (value, []) := by
        simp only [stoull, found, if_neg (by omega : ¬2 ^ 64 ≤ n.magnitude), whole, same]
        rw [Int.emod_eq_of_lt (by omega) (by omega), Int.toNat_natCast]
      exact .byte converted small

/-- The loop takes as many bits as it was asked for. -/
theorem getBitValues_json (values : List BitValue) (data : List Bool) {nmemb : ℤ}
    (positive : 0 < nmemb) :
    getBitValues data nmemb (values.map BitValue.json) =
      .ok (data ++ (values.flatMap BitValue.bits).take nmemb.toNat) := by
  have stand : List.Forall₂ StandsFor (values.map BitValue.json) (values.map BitValue.bits) := by
    rw [List.forall₂_map_left_iff, List.forall₂_map_right_iff, List.forall₂_same]
    intro value _
    exact standsFor_bits value
  exact getBitValues_of_standsFor stand data positive

theorem significantFirst_represent (order : ByteOrder) (k : ℕ) (n : ℤ) :
    order.significantFirst (order.represent k n) = bytesOf k n := by
  cases order with
  | bigEndian => rfl
  | littleEndian => exact Vector.reverse_reverse _

theorem getDataValue_json (host : Host) {T : IntType} (k : ℕ) (endian : Endian) {n : ℤ}
    (lower : T.lowest ≤ n) (upper : n ≤ T.max) :
    ∃ data, getDataValue host (T.conversion host.order k) endian (.number (Rat.ofInt n)) = .ok data ∧
      (data.updateRegisters host).registers =
        (Data.create host endian (host.order.represent k n)).registers := by
  refine ⟨_, rfl, ?_⟩
  have whole : (Rat.ofInt n).num.tdiv (Rat.ofInt n).den = n := Int.tdiv_one n
  simp only [whole, T.cast_of_representable lower upper]
  rfl

theorem getDataValues_json (host : Host) {T : IntType} (k : ℕ) (endian : Endian) {numbers : List ℤ}
    (representable : ∀ n ∈ numbers, T.lowest ≤ n ∧ n ≤ T.max) :
    ∃ data, getDataValues host (T.conversion host.order k) endian
        (numbers.map fun n => .number (Rat.ofInt n)) = .ok data ∧
      encoded host data = numbers.flatMap fun n =>
        (Data.create host endian (host.order.represent k n)).registers.toList := by
  induction numbers with
  | nil => exact ⟨[], rfl, rfl⟩
  | cons n numbers ih =>
      have range := representable n List.mem_cons_self
      rcases getDataValue_json host k endian range.1 range.2 with ⟨first, found, registers⟩
      rcases ih fun other mem => representable other (List.mem_cons_of_mem n mem) with
        ⟨data, rest, words⟩
      refine ⟨first :: data, ?_, ?_⟩
      · simp only [List.map_cons, getDataValues, found, rest, ok_bind]
        rfl
      · rw [encoded_cons, registers, words, List.flatMap_cons]

theorem conversion_eq (m : Machine) (T : IntType) :
    m.conversion T.dataEnum = T.conversion m.host.order T.dataEnum.registers := by
  cases T <;> rfl

end Json

namespace RegisterValues

variable {values : RegisterValues}

/-- The bytes that a machine sends for a number. -/
theorem wire_create (host : Host) (endian : Endian) (k : ℕ) (n : ℤ) :
    wire (Data.create host endian (host.order.represent k n)).registers =
      Data.swap host endian (bytesOf k n) := by
  rw [Data.create, Data.wire_updateRegisters, Json.significantFirst_represent]

theorem written_of_performs {host : Host} (performs : host.Performs values.arrangement (2 * values.width)) :
    values.written host = values.cells := by
  rw [written, cells]
  congr 1
  funext n
  congr 1
  apply wire_injective
  rw [wire_create, wire_encode, performs.swap_eq_arrange]

/-- Every machine makes the same registers of the numbers, if no swap is undefined. -/
theorem written_of_swapsDefined (defined : values.SwapsDefined) (host : Host) :
    values.written host = values.cells := by
  rcases defined with none_given | defined
  · rw [written, cells, none_given]
    rfl
  · exact written_of_performs (Host.performs_of_defined defined host)

/-- Where a swap is undefined, the first register may be another one. -/
theorem head_written_spoiling (undefined : ¬values.SwapsDefined) (order : ByteOrder) :
    ∃ first other, values.cells.head? = some first ∧
      (values.written (.spoiling order)).head? = some other ∧ first ≠ other := by
  rw [SwapsDefined, not_or] at undefined
  rcases undefined with ⟨some_number, undefined⟩
  rcases List.exists_cons_of_ne_nil some_number with ⟨n, numbers, given⟩
  have positive : 0 < values.width := by
    rw [width]
    cases values.type <;> decide
  generalize width_eq : values.width = k at undefined positive
  have spoiled := wire_create (.spoiling order) values.arrangement k n
  rw [Data.swap, (Host.swap_of_not_defined _ undefined).2.2, Endian.order_eq_arrange, ← wire_encode]
    at spoiled
  let right := encode values.arrangement (bytesOf k n)
  let wrong := (Data.create (.spoiling order) values.arrangement (order.represent k n)).registers
  have wires : wire wrong = (wire right).map (~~~ ·) := spoiled
  refine ⟨right[0], wrong[0], ?_, ?_, ?_⟩
  · rw [cells, given, List.flatMap_cons, List.head?_append, width_eq]
    rw [List.head?_eq_getElem?, List.getElem?_eq_getElem (by simpa using positive), Option.some_or,
      Vector.getElem_toList]
  · rw [written, given, List.flatMap_cons, List.head?_append, width_eq]
    rw [List.head?_eq_getElem?, List.getElem?_eq_getElem (by simpa using positive), Option.some_or,
      Vector.getElem_toList]
    rfl
  · intro same
    have high := (getElem_wire wrong positive).1
    rw [← same, ← (getElem_wire right positive).1] at high
    simp only [wires, Vector.getElem_map] at high
    exact Host.complement_ne _ high

end RegisterValues

namespace InitialValues

variable {t : Table} {values : InitialValues t}

theorem written_of_swapsDefined (defined : values.SwapsDefined) (host : Host) :
    values.written host = values.cells := by
  cases t with
  | discreteInput => rfl
  | coil => rfl
  | inputRegister => exact RegisterValues.written_of_swapsDefined defined host
  | holdingRegister => exact RegisterValues.written_of_swapsDefined defined host

theorem written_asWritten (order : ByteOrder) : values.written (.asWritten order) = values.cells := by
  cases t with
  | discreteInput => rfl
  | coil => rfl
  | inputRegister => exact RegisterValues.written_of_performs (Host.asWritten_performs order _ _)
  | holdingRegister => exact RegisterValues.written_of_performs (Host.asWritten_performs order _ _)

theorem width_of_not_defined (undefined : ¬values.SwapsDefined) : 2 ≤ values.width := by
  have registers : ∀ numbers : RegisterValues, ¬numbers.SwapsDefined → 2 ≤ numbers.width := by
    intro numbers wide
    rw [RegisterValues.SwapsDefined, not_or] at wide
    have size := Endian.wide_of_not_defined wide.2
    omega
  cases t with
  | discreteInput => exact absurd trivial undefined
  | coil => exact absurd trivial undefined
  | inputRegister => exact registers values undefined
  | holdingRegister => exact registers values undefined

theorem head_written_spoiling (undefined : ¬values.SwapsDefined) (order : ByteOrder) :
    ∃ first other, values.cells.head? = some first ∧
      (values.written (.spoiling order)).head? = some other ∧ first ≠ other := by
  cases t with
  | discreteInput => exact absurd trivial undefined
  | coil => exact absurd trivial undefined
  | inputRegister => exact RegisterValues.head_written_spoiling undefined order
  | holdingRegister => exact RegisterValues.head_written_spoiling undefined order

end InitialValues

end Modbuspp
