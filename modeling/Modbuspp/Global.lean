import Modbuspp.Library.Storage

/-!
# Enumerations, constants and failures

The enumerations of `global.h`, the constants it takes from libmodbus, and the ways in which a
function of the library does not return: a C++ exception, or an access outside of the storage it
names, whose behaviour C++ leaves undefined.
-/

namespace Modbuspp

/-- Ends of a call other than a return. -/
inductive Fault where
  /-- Undefined behaviour: an access outside of the addressed storage. -/
  | outOfBounds
  /-- Undefined behaviour: the use of a value that was never initialized. -/
  | indeterminate
  | domainError (what : String)
  | invalidArgument (what : String)
  | lengthError
  | logicError (what : String)
  | outOfRange (what : String)
  | runtimeError (what : String)
  /-- `nlohmann::json::type_error`, thrown by a value of another type than is asked for. -/
  | typeError
  /-- `std::future_error`, thrown by a promise that is asked twice for its future. -/
  | futureAlreadyRetrieved
  /-- `std::future_error`, thrown by a promise that is fulfilled twice. -/
  | promiseAlreadySatisfied
deriving DecidableEq, Repr

/-- The values of `errno` that the library sets or tells apart. -/
inductive Errno where
  | none
  | badFile
  | connectionReset
  | brokenPipe
  | invalid
  | badData
  | badCrc
  | other (code : ℕ)
deriving DecidableEq, Repr

/-- An access to storage, undefined when it leaves the storage. -/
def checked {α : Type} : Option α → Except Fault α
  | some value => .ok value
  | none => .error .outOfBounds

@[simp]
theorem checked_some {α : Type} (value : α) : checked (some value) = .ok value := rfl

@[simp]
theorem checked_none {α : Type} : checked (none : Option α) = .error .outOfBounds := rfl

theorem checked_eq_ok_iff {α : Type} {found : Option α} {value : α} :
    checked found = .ok value ↔ found = some value := by
  cases found <;> simp

@[simp]
theorem ok_bind {α β : Type} (value : α) (next : α → Except Fault β) :
    (Except.ok value >>= next) = next value := rfl

@[simp]
theorem error_bind {α β : Type} (fault : Fault) (next : α → Except Fault β) :
    (Except.error fault >>= next) = .error fault := rfl

@[simp]
theorem pure_eq_ok {α : Type} (value : α) : (pure value : Except Fault α) = .ok value := rfl

theorem bind_eq_ok_iff {α β : Type} {first : Except Fault α} {next : α → Except Fault β}
    {result : β} :
    (first >>= next) = .ok result ↔ ∃ value, first = .ok value ∧ next value = .ok result := by
  cases first with
  | error fault => simp
  | ok value => simp

/-- Network layers. -/
inductive Net where
  | rtu
  | tcp
  | noNet
deriving DecidableEq, Repr

/-- `modbus_get_header_length`. -/
def Net.headerLength : Net → ℤ
  | .rtu => 1
  | .tcp => 7
  | .noNet => -1

/-- `MODBUS_RTU_MAX_ADU_LENGTH`, `MODBUS_TCP_MAX_ADU_LENGTH`, and the bound of a layer of no net. -/
def Net.maxAduLength : Net → ℕ
  | .rtu => 256
  | .tcp => 260
  | .noNet => 0

/-- The bytes that follow the PDU on the wire: the CRC of an RTU frame. -/
def Net.trailerLength : Net → ℕ
  | .rtu => 2
  | .tcp => 0
  | .noNet => 0

/-- `MODBUS_MAX_PDU_LENGTH`. -/
def maxPduLength : ℕ := 253

/-- `MODBUS_TCP_SLAVE`. -/
def tcpSlave : ℕ := 0xFF

/-- Sequential order in which bytes are arranged. -/
inductive Endian where
  | bigBig
  | bigLittle
  | littleBig
  | littleLittle
deriving DecidableEq, Repr

/-- The four data tables of a slave. -/
inductive Table where
  | discreteInput
  | coil
  | inputRegister
  | holdingRegister
deriving DecidableEq, Repr

/-- The function codes managed by the library; `other` keeps any other byte a message may carry. -/
inductive Function where
  | readCoils
  | readDiscreteInputs
  | readHoldingRegisters
  | readInputRegisters
  | writeSingleCoil
  | writeSingleRegister
  | readExceptionStatus
  | writeMultipleCoils
  | writeMultipleRegisters
  | reportServerId
  | maskWriteRegister
  | readWriteMultipleRegisters
  | other (code : UInt8)
deriving DecidableEq, Repr

namespace Function

/-- The byte that carries a function code. -/
def code : Function → UInt8
  | readCoils => 1
  | readDiscreteInputs => 2
  | readHoldingRegisters => 3
  | readInputRegisters => 4
  | writeSingleCoil => 5
  | writeSingleRegister => 6
  | readExceptionStatus => 7
  | writeMultipleCoils => 15
  | writeMultipleRegisters => 16
  | reportServerId => 17
  | maskWriteRegister => 22
  | readWriteMultipleRegisters => 23
  | other code => code

/-- The conversion of a byte to a function code. -/
def ofByte (byte : UInt8) : Function :=
  match byte.toNat with
  | 1 => readCoils
  | 2 => readDiscreteInputs
  | 3 => readHoldingRegisters
  | 4 => readInputRegisters
  | 5 => writeSingleCoil
  | 6 => writeSingleRegister
  | 7 => readExceptionStatus
  | 15 => writeMultipleCoils
  | 16 => writeMultipleRegisters
  | 17 => reportServerId
  | 22 => maskWriteRegister
  | 23 => readWriteMultipleRegisters
  | _ => other byte

end Function

end Modbuspp
