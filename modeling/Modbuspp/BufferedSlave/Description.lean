import Mathlib.Data.Rat.Init
import Modbuspp.BufferedSlave.Typed
import Modbuspp.Data.Text
import Modbuspp.Router.Basic

/-!
# Descriptions of buffered slaves

A JSON text describes a buffered slave by its number, its addressing and its blocks. Every block is set at
its starting address and with its quantity of elements, each of which takes the registers of the data
type. The initial values are then written like those of a program, from an address of their own on; what
the writes return is ignored.
-/

namespace Modbuspp

/-- A value of a JSON text, as far as the code looks into it. -/
inductive Json where
  | number (value : ℚ)
  | boolean (value : Bool)
  | text (str : List Char)
  | array (values : List Json)
  | other

/-- The data types of `global.h`. -/
inductive DataEnum where
  | uint16
  | uint32
  | uint64
  | int16
  | int32
  | int64
  | float
  | double
  | longDouble
deriving DecidableEq, Repr

/-- `DataType::size`. -/
def DataEnum.size : DataEnum → ℕ
  | uint16 => 2
  | uint32 => 4
  | uint64 => 8
  | int16 => 2
  | int32 => 4
  | int64 => 8
  | float => 4
  | double => 8
  | longDouble => 16

/-- The registers of a value, `size () / sizeof (uint16_t)`. -/
def DataEnum.registers (T : DataEnum) : ℕ := T.size / 2

/-- The bytes of an integer in two's complement, from the most significant one. -/
def bytesOf (k : ℕ) (n : ℤ) : Vector UInt8 (2 * k) :=
  Vector.ofFn fun i => UInt8.ofInt (n >>> (8 * (2 * k - 1 - i.val)))

/-- The object representation of an integer. -/
def ByteOrder.represent (order : ByteOrder) (k : ℕ) (n : ℤ) : Vector UInt8 (2 * k) :=
  match order with
  | .littleEndian => (bytesOf k n).reverse
  | .bigEndian => bytesOf k n

/-- `get<T> ()` of a JSON value: a fraction is cut off. The two types in which the JSON library keeps
integers have 64 bits, and they do not take a boolean. -/
def Json.get (T : IntType) : Json → Except Fault ℤ
  | number value => .ok (T.cast (value.num.tdiv value.den))
  | boolean value => if T.bits = 64 then .error .typeError else .ok (if value then 1 else 0)
  | _ => .error .typeError

/-- How JSON values are converted to an arithmetic type of `2 * k` bytes: `get<T> ()`, and `strToT` for
the texts, without a value when it throws. -/
structure Conversion (k : ℕ) where
  get : Json → Except Fault (Vector UInt8 (2 * k))
  parse : List Char → Option (Vector UInt8 (2 * k))

/-- The conversions to an integer type. -/
def IntType.conversion (T : IntType) (order : ByteOrder) (k : ℕ) : Conversion k where
  get v := (v.get T).map (order.represent k)
  parse str :=
    match strToT T 0 str with
    | (.ok (), value) => some (order.represent k value)
    | (.error _, _) => none

/-- The machine with all that the library needs of it: the conversions to floating-point numbers too. -/
structure Machine where
  host : Host
  float : Conversion 2
  double : Conversion 4
  longDouble : Conversion 8

/-- The conversions to a data type. -/
def Machine.conversion (m : Machine) : (T : DataEnum) → Conversion T.registers
  | .uint16 => IntType.uint16.conversion m.host.order 1
  | .uint32 => IntType.uint32.conversion m.host.order 2
  | .uint64 => IntType.uint64.conversion m.host.order 4
  | .int16 => IntType.int16.conversion m.host.order 1
  | .int32 => IntType.int32.conversion m.host.order 2
  | .int64 => IntType.int64.conversion m.host.order 4
  | .float => m.float
  | .double => m.double
  | .longDouble => m.longDouble

namespace Json

variable {k : ℕ}

/-- One pass of the loop of `getDataValues`. A text changes the value only, and one that cannot be
converted is read as zero. -/
def getDataValue (host : Host) (conversion : Conversion k) (endian : Endian) (v : Json) :
    Except Fault (Data k) :=
  let d := (Data.create host .bigBig (Vector.replicate (2 * k) 0)).setEndianness host endian
  match v with
  | text s =>
      match conversion.parse s with
      | some value => .ok { d with value }
      | none => .ok (d.assign host (Vector.replicate (2 * k) 0))
  | v => (conversion.get v).map fun t => d.assign host t

/-- The data that the values of a description stand for, in a type with this conversion. -/
def getDataValues (host : Host) (conversion : Conversion k) (endian : Endian) :
    List Json → Except Fault (List (Data k))
  | [] => .ok []
  | v :: values => do
      let d ← getDataValue host conversion endian v
      let data ← getDataValues host conversion endian values
      pure (d :: data)

/-- The bits of one value, of which no more than `nmemb` are taken. -/
def getBits (nmemb : ℤ) (v : Json) : Except Fault (List Bool) :=
  match v with
  | text str => do
      let (ul, rest) ← stoull "stoul" str
      if rest ≠ [] ∨ 0xFF < ul then
        .error (.invalidArgument ("Cannot convert " ++ String.ofList str ++
          " to a byte, value must be between 0 and 0xFF"))
      else .ok ((List.range (min nmemb 8).toNat).map fun i => ul.testBit i)
  | boolean b => .ok [b]
  | v => do
      let i ← v.get .int32
      if i ≠ 0 ∧ i ≠ 1 then
        .error (.invalidArgument (toString i ++ " not a binary value (must be 0/1 or true/false)"))
      else .ok [decide (i ≠ 0)]

/-- The bits that the values of a description stand for, appended to those collected so far. -/
def getBitValues (data : List Bool) (nmemb : ℤ) : List Json → Except Fault (List Bool)
  | [] => .ok data
  | v :: values =>
      match getBits nmemb v with
      | .error fault => .error fault
      | .ok bits =>
          if nmemb - bits.length ≤ 0 then .ok (data ++ bits)
          else getBitValues (data ++ bits) (nmemb - bits.length) values

end Json

/-- What a JSON text says about a block: the fields that are looked up by their names. -/
structure BlockDescription where
  table : Except Fault Table
  quantity : Except Fault ℤ
  startingAddress : Except Fault (Option ℤ)
  dataType : Except Fault (Option DataEnum)
  endian : Except Fault (Option Endian)
  values : Option Json
  valuesAddress : Except Fault (Option ℤ)

/-- The elements of the values, when they are an array. -/
def BlockDescription.items (block : BlockDescription) : List Json :=
  match block.values with
  | some (.array values) => values
  | _ => []

namespace Json

/-- The part of `setConfig` for the values of coils and of discrete inputs. -/
def writeBits (st : Station) (block : BlockDescription) : Except Fault ℤ × Station :=
  match block.quantity with
  | .error fault => (.error fault, st)
  | .ok nmemb =>
      if block.items ≠ [] ∧ 0 < nmemb then
        match (do
          let table ← block.table
          let addr ← block.valuesAddress
          let vect ← getBitValues [] nmemb block.items
          pure (table, addr.getD (st.slave.dataAddress 0), vect)) with
        | .error fault => (.error fault, st)
        | .ok (table, addr, vect) =>
            if 0 < vect.length then
              if table = .coil then st.writeCoils addr vect vect.length
              else st.writeDiscreteInputs addr vect vect.length
            else (.ok 0, st)
      else (.ok 0, st)

/-- `writeRegisters<T>`. -/
def writeRegistersAs (m : Machine) (T : DataEnum) (st : Station) (block : BlockDescription) :
    Except Fault ℤ × Station :=
  match block.quantity with
  | .error fault => (.error fault, st)
  | .ok nmemb =>
      if block.items ≠ [] ∧ 0 < nmemb then
        match (do
          let endian ← block.endian
          let vect ← getDataValues m.host (m.conversion T) (endian.getD .bigBig) block.items
          let table ← block.table
          let addr ← block.valuesAddress
          pure (table, addr.getD (st.slave.dataAddress 0), vect)) with
        | .error fault => (.error fault, st)
        | .ok (table, addr, vect) =>
            if 0 < vect.length then
              let (result, st) :=
                if table = .holdingRegister then
                  st.writeRegistersData m.host addr vect vect.length
                else st.writeInputRegistersData m.host addr vect vect.length
              (result.map Prod.fst, st)
            else (.ok 0, st)
      else (.ok 0, st)

/-- The part of `setConfig` for the values of registers. -/
def writeRegisters (m : Machine) (st : Station) (block : BlockDescription) :
    Except Fault ℤ × Station :=
  match block.dataType with
  | .error fault => (.error fault, st)
  | .ok dt => writeRegistersAs m (dt.getD .uint16) st block

/-- The number of elements of a block, an `int` that is multiplied when the data type is given. -/
def elements (nmemb : ℤ) : Option DataEnum → ℤ
  | none => nmemb
  | some T => IntType.int32.cast (nmemb * T.registers)

/-- One pass of the loop of `setConfig`. -/
def setBlock (m : Machine) (memory : (t : Table) → Option (ℕ → t.Cell)) (st : Station)
    (block : BlockDescription) : Except Fault Unit × Station :=
  match (do
    let table ← block.table
    let nmemb ← block.quantity
    let startAddr ← block.startingAddress
    let dt ← block.dataType
    pure (table, elements nmemb dt, startAddr.getD (st.slave.dataAddress 0))) with
  | .error fault => (.error fault, st)
  | .ok (table, nmemb, startAddr) =>
      match st.slave.setBlock table nmemb startAddr (memory table) with
      | (.error fault, slave) => (.error fault, { st with slave })
      | (.ok _, slave) =>
          let st := { st with slave }
          if block.values.isSome then
            let (result, st) :=
              if table = .inputRegister ∨ table = .holdingRegister then writeRegisters m st block
              else writeBits st block
            (result.map fun _ => (), st)
          else (.ok (), st)

/-- The loop of `setConfig` over the blocks of a description. -/
def setBlocks (m : Machine) (memory : (t : Table) → Option (ℕ → t.Cell)) (st : Station) :
    List BlockDescription → Except Fault Unit × Station
  | [] => (.ok (), st)
  | block :: blocks =>
      match setBlock m memory st block with
      | (.error fault, st) => (.error fault, st)
      | (.ok (), st) => setBlocks m memory st blocks

end Json

/-- What a JSON text says about a buffered slave. A text without blocks is one with an empty list. -/
structure BufferedSlaveDescription where
  id : Except Fault ℤ
  pduAddressing : Except Fault (Option Bool)
  blocks : List BlockDescription

/-- `Json::setConfig` of a buffered slave, which begins with that of `Slave`. The storage of a table comes
from `memory`, if it is granted. -/
def Json.setConfig (m : Machine) (memory : (t : Table) → Option (ℕ → t.Cell)) (st : Station)
    (config : BufferedSlaveDescription) : Except Fault Unit × Station :=
  match config.id with
  | .error fault => (.error fault, st)
  | .ok id =>
      let st := { st with slave := { st.slave with id } }
      match config.pduAddressing with
      | .error fault => (.error fault, st)
      | .ok addressing =>
          let st := { st with slave := { st.slave with
            pduAddressing := addressing.getD st.slave.pduAddressing } }
          setBlocks m memory st config.blocks

namespace Station

variable {st : Station} {t : Table} {k : ℕ}

/-- The station differs in its mapping and its device only. -/
def Remapped (st after : Station) : Prop :=
  ∃ map device, after = { slave := { st.slave with map }, device }

theorem remapped_refl (st : Station) : st.Remapped st := ⟨st.slave.map, st.device, rfl⟩

theorem Remapped.trans {before after : Station} (first : st.Remapped before)
    (second : before.Remapped after) : st.Remapped after := by
  rcases first with ⟨_, _, rfl⟩
  rcases second with ⟨map, device, rfl⟩
  exact ⟨map, device, rfl⟩

theorem storeBlock_remapped (addr : ℤ) (src : List t.Cell) (nb : ℤ)
    {transfer : Station → Block t.Cell → ℤ → ℤ → Except Fault ℤ × Station}
    (keeps : ∀ after block offset nb, Remapped after (transfer after block offset nb).2) :
    st.Remapped (st.storeBlock t addr src nb transfer).2 := by
  simp only [storeBlock]
  split
  · split
    · exact remapped_refl st
    · next block _ =>
      have stored : st.Remapped (st.withBlock t block) := ⟨_, st.device, rfl⟩
      exact stored.trans (keeps _ _ _ _)
  · exact remapped_refl st

theorem transferBlock_remapped (addr : ℤ) (block : Block t.Cell) (offset nb : ℤ)
    (writeOne : ℤ → t.Cell → Except Fault (ℤ × Option Payload) × Option Device)
    (write : ℤ → List t.Cell → Except Fault (ℤ × Option Payload) × Option Device) :
    st.Remapped (st.transferBlock t addr block offset nb writeOne write).2 := by
  have moved : ∀ device, st.Remapped { st with device } := fun device => ⟨st.slave.map, device, rfl⟩
  simp only [transferBlock]
  split
  · split
    · split
      · exact remapped_refl st
      · split
        · exact moved _
        · exact moved _
    · split
      · exact remapped_refl st
      · split
        · exact moved _
        · exact moved _
  · exact remapped_refl st

theorem writeCoils_remapped (addr : ℤ) (src : List Bool) (nb : ℤ) :
    st.Remapped (st.writeCoils addr src nb).2 := by
  apply storeBlock_remapped
  intro after block offset nb
  exact transferBlock_remapped ..

theorem writeDiscreteInputs_remapped (addr : ℤ) (src : List Bool) (nb : ℤ) :
    st.Remapped (st.writeDiscreteInputs addr src nb).2 := by
  apply storeBlock_remapped
  intro after block offset nb
  exact remapped_refl after

theorem writeRegisters_remapped (addr : ℤ) (src : List UInt16) (nb : ℤ) :
    st.Remapped (st.writeRegisters addr src nb).2 := by
  apply storeBlock_remapped
  intro after block offset nb
  exact transferBlock_remapped ..

theorem writeInputRegisters_remapped (addr : ℤ) (src : List UInt16) (nb : ℤ) :
    st.Remapped (st.writeInputRegisters addr src nb).2 := by
  apply storeBlock_remapped
  intro after block offset nb
  exact remapped_refl after

theorem writeData_remapped (host : Host) {write : List UInt16 → ℤ → Except Fault ℤ × Station}
    (keeps : ∀ buf nb, st.Remapped (write buf nb).2) (src : List (Data k)) (nb : ℕ) :
    st.Remapped (st.writeData host write src nb).2 := by
  simp only [writeData]
  split
  · exact remapped_refl st
  · exact keeps _ _

end Station

namespace Json

variable {st : Station} {block : BlockDescription}

theorem writeBits_remapped : st.Remapped (writeBits st block).2 := by
  simp only [writeBits]
  split
  · exact st.remapped_refl
  · split
    · split
      · exact st.remapped_refl
      · split
        · split
          · exact Station.writeCoils_remapped ..
          · exact Station.writeDiscreteInputs_remapped ..
        · exact st.remapped_refl
    · exact st.remapped_refl

theorem writeRegisters_remapped (m : Machine) : st.Remapped (writeRegisters m st block).2 := by
  simp only [writeRegisters, writeRegistersAs]
  split
  · exact st.remapped_refl
  · split
    · exact st.remapped_refl
    · split
      · split
        · exact st.remapped_refl
        · split
          · split
            · exact Station.writeData_remapped m.host (Station.writeRegisters_remapped _) ..
            · exact Station.writeData_remapped m.host (Station.writeInputRegisters_remapped _) ..
          · exact st.remapped_refl
      · exact st.remapped_refl

theorem setBlock_remapped (m : Machine) (memory : (t : Table) → Option (ℕ → t.Cell)) :
    st.Remapped (setBlock m memory st block).2 := by
  have resized : ∀ (t : Table) (nmemb startAddr : ℤ) (fresh : Option (ℕ → t.Cell)),
      st.Remapped { st with slave := (st.slave.setBlock t nmemb startAddr fresh).2 } := by
    intro t nmemb startAddr fresh
    rw [BufferedSlave.setBlock_eq]
    exact ⟨_, st.device, rfl⟩
  simp only [setBlock]
  split
  · exact st.remapped_refl
  · next table nmemb startAddr _ =>
    have first := resized table nmemb startAddr (memory table)
    split
    · next set =>
      rw [set] at first
      exact first
    · next set =>
      rw [set] at first
      split
      · split
        · exact first.trans (writeRegisters_remapped m)
        · exact first.trans writeBits_remapped
      · exact first

theorem setBlocks_remapped (m : Machine) (memory : (t : Table) → Option (ℕ → t.Cell)) (st : Station)
    (blocks : List BlockDescription) : st.Remapped (setBlocks m memory st blocks).2 := by
  induction blocks generalizing st with
  | nil => exact st.remapped_refl
  | cons block blocks ih =>
      have first : st.Remapped (setBlock m memory st block).2 := setBlock_remapped m memory
      simp only [setBlocks]
      split
      · next set =>
        rw [set] at first
        exact first
      · next set =>
        rw [set] at first
        exact first.trans (ih _)

end Json

/-- The description of a slave of a router, whose blocks set and fill the mapping. -/
def BufferedSlaveDescription.description (config : BufferedSlaveDescription) (m : Machine)
    (memory : (t : Table) → Option (ℕ → t.Cell)) (device : Option Device) : SlaveDescription where
  id := config.id
  pduAddressing := config.pduAddressing
  blocks slv :=
    let (result, st) := Json.setBlocks m memory ⟨slv, device⟩ config.blocks
    (result, st.slave.map)

/-- The configuration of a slave of a router is that of its description. -/
theorem Json.setConfig_description (m : Machine) (memory : (t : Table) → Option (ℕ → t.Cell))
    (st : Station) {config : BufferedSlaveDescription} {id : ℤ} (number : config.id = .ok id) :
    st.slave.setConfig id (config.description m memory st.device) =
      ((setConfig m memory st config).1, (setConfig m memory st config).2.slave) := by
  cases addressing : config.pduAddressing with
  | error fault =>
      simp only [BufferedSlave.setConfig, BufferedSlaveDescription.description, setConfig, number,
        addressing]
  | ok given =>
      have kept := setBlocks_remapped m memory
        { st with slave := { st.slave with
            id, pduAddressing := given.getD st.slave.pduAddressing } } config.blocks
      rcases kept with ⟨map, device, same⟩
      simp only [BufferedSlave.setConfig, BufferedSlaveDescription.description, setConfig, number,
        addressing, same]

end Modbuspp
