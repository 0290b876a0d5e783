import Modbuspp.Message.Layer

/-!
# Devices and the libmodbus context behind them

A device owns a network layer and, through it, a libmodbus context. Seen from the library a context
is a remote party: each transfer is handed to it and comes back with an answer or with an error. How
the equipment answers is arbitrary and may depend on everything sent before; a successful read
delivers exactly as many cells as were asked for, a failed one delivers none.
-/

namespace Modbuspp

/-- The content of a cell: the arrays of coils and discrete inputs are arrays of `bool` behind a
cast, those of registers hold 16-bit words. -/
@[reducible]
def Table.Cell : Table → Type
  | .discreteInput => Bool
  | .coil => Bool
  | .inputRegister => UInt16
  | .holdingRegister => UInt16

instance (t : Table) : DecidableEq t.Cell := by
  cases t <;> infer_instance

/-- The content of a cell that was never written. -/
def Table.zero : (t : Table) → t.Cell
  | .discreteInput => false
  | .coil => false
  | .inputRegister => 0
  | .holdingRegister => 0

/-- The values of all four tables, by their addresses on the level of the PDU. -/
abbrev Cells := (t : Table) → ℤ → t.Cell

/-- A client function of libmodbus with its arguments: `modbus_read_bits` and the three other reads,
`modbus_write_bit` or `modbus_write_register`, `modbus_write_bits` or `modbus_write_registers`,
`modbus_write_and_read_registers` and `modbus_report_slave_id`. -/
inductive Transfer where
  | read (t : Table) (addr nb : ℤ)
  | writeOne (t : Table) (addr : ℤ) (value : t.Cell)
  | write (t : Table) (addr : ℤ) (src : List t.Cell)
  | writeAndRead (writeAddr : ℤ) (src : List UInt16) (readAddr readNb : ℤ)
  | reportSlaveId (maxDest : ℕ)
deriving DecidableEq

/-- A transfer, with the number of the slave that was set when it was sent. -/
structure Sent where
  slave : ℤ
  transfer : Transfer
deriving DecidableEq

/-- What an answer brings: the cells by their place in it, and the report of a slave. -/
structure Payload where
  cells : (t : Table) → ℕ → t.Cell
  report : List UInt8

/-- A libmodbus context used as a client. -/
structure Context where
  slave : ℤ
  /-- The slave numbers that `modbus_set_slave` accepts on this link. -/
  accepts : ℤ → Bool
  /-- The answer to a transfer that follows others, `none` for an error. -/
  answer : List Sent → Sent → Option Payload
  sent : List Sent

namespace Context

/-- `modbus_set_slave`: whether it succeeds, and the context afterwards. -/
def setSlave (ctx : Context) (id : ℤ) : Bool × Context :=
  if ctx.accepts id then (true, { ctx with slave := id }) else (false, ctx)

/-- A transfer is sent, and the equipment on the link answers or not. -/
def exchange (ctx : Context) (transfer : Transfer) : Option Payload × Context :=
  let sent := { slave := ctx.slave, transfer }
  (ctx.answer ctx.sent sent, { ctx with sent := ctx.sent ++ [sent] })

/-- A context on a link where no equipment answers. -/
def silent : Context where
  slave := -1
  accepts := fun id => 0 ≤ id ∧ id ≤ 247
  answer := fun _ _ => none
  sent := []

/-- A context on a link where every transfer succeeds. -/
def answering : Context :=
  { silent with answer := fun _ _ => some { cells := fun t _ => t.zero, report := [] } }

end Context

/-- The state behind `Device`. -/
structure Device where
  backend : Option NetLayer
  isOpen : Bool
  recoveryLink : Bool
  ctx : Context

namespace Device

/-- A closed device with a backend, as the constructor leaves it. -/
def create (backend : NetLayer) (ctx : Context) : Device :=
  { backend := some backend, isOpen := false, recoveryLink := false, ctx }

/-- Whether a backend is set. -/
def isValid (dev : Device) : Bool := dev.backend.isSome

/-- The net of the backend. -/
def net (dev : Device) : Net :=
  match dev.backend with
  | some backend => backend.net
  | none => .noNet

theorem isValid_iff {dev : Device} :
    dev.isValid = true ↔ ∃ backend, dev.backend = some backend ∧ dev.net = backend.net := by
  simp only [isValid, net]
  cases dev.backend <;> simp

/-- `Device::open` when `modbus_connect` succeeds or not. -/
def «open» (dev : Device) (connected : Bool) : Bool × Device :=
  let dev := if dev.isValid && !dev.isOpen then { dev with isOpen := connected } else dev
  (dev.isOpen, dev)

/-- The device after `close`. -/
def close (dev : Device) : Device :=
  if dev.isOpen then { dev with isOpen := false } else dev

end Device

end Modbuspp
