import Modbuspp.Device.Basic

/-!
# Slaves

A slave is a number on the link of a device. Its transfers all have the same form: the slave must be
valid, libmodbus must accept its number, and the address is converted to the addressing of the PDU.
-/

namespace Modbuspp

/-- The private state of `Slave`. The device is a pointer, which may be null. -/
structure Slave where
  pduAddressing : Bool
  id : ℤ
  dev : Option ℕ
deriving DecidableEq

/-- What a client function of libmodbus returns for an answer. -/
def Transfer.result (transfer : Transfer) : Option Payload → ℤ
  | none => -1
  | some payload =>
      match transfer with
      | .read _ _ nb => nb
      | .writeOne _ _ _ => 1
      | .write _ _ src => src.length
      | .writeAndRead _ _ _ readNb => readNb
      | .reportSlaveId _ => payload.report.length

namespace Slave

/-- The address on the wire of a data address. -/
def pduAddress (slave : Slave) (dataAddr : ℤ) : ℤ :=
  dataAddr - if slave.pduAddressing then 0 else 1

/-- The data address of an address on the wire. -/
def dataAddress (slave : Slave) (pduAddr : ℤ) : ℤ :=
  pduAddr + if slave.pduAddressing then 0 else 1

/-- `Slave::isValid`, for the device the slave points to. -/
def isValid (slave : Slave) (device : Option Device) : Bool :=
  (match device with
    | some dev => dev.isValid
    | none => false) && decide (0 ≤ slave.id)

/-- The slave is valid and its device is open. -/
def isOpen (slave : Slave) (device : Option Device) : Bool :=
  match device with
  | some dev => slave.isValid device && dev.isOpen
  | none => false

/-- The common form of the transfers: the value returned with the data of the answer, and the device
afterwards. -/
def exchange (slave : Slave) (device : Option Device) (transfer : Transfer) :
    Except Fault (ℤ × Option Payload) × Option Device :=
  match device with
  | none => (.error (.runtimeError "Slave id or backend not set !"), none)
  | some dev =>
      if slave.isValid device then
        let (accepted, ctx) := dev.ctx.setSlave slave.id
        if accepted then
          let (payload, ctx) := ctx.exchange transfer
          (.ok (transfer.result payload, payload), some { dev with ctx })
        else (.ok (-1, none), some { dev with ctx })
      else (.error (.runtimeError "Slave id or backend not set !"), device)

variable (slave : Slave) (device : Option Device)

/-- Coils are read by function 1. -/
def readCoils (addr nb : ℤ) : Except Fault (ℤ × Option Payload) × Option Device :=
  slave.exchange device (.read .coil (slave.pduAddress addr) nb)

/-- Discrete inputs are read by function 2. -/
def readDiscreteInputs (addr nb : ℤ) : Except Fault (ℤ × Option Payload) × Option Device :=
  slave.exchange device (.read .discreteInput (slave.pduAddress addr) nb)

/-- Holding registers are read by function 3. -/
def readRegisters (addr nb : ℤ) : Except Fault (ℤ × Option Payload) × Option Device :=
  slave.exchange device (.read .holdingRegister (slave.pduAddress addr) nb)

/-- Input registers are read by function 4. -/
def readInputRegisters (addr nb : ℤ) : Except Fault (ℤ × Option Payload) × Option Device :=
  slave.exchange device (.read .inputRegister (slave.pduAddress addr) nb)

/-- A coil is written by function 5. -/
def writeCoil (addr : ℤ) (value : Bool) : Except Fault (ℤ × Option Payload) × Option Device :=
  slave.exchange device (.writeOne .coil (slave.pduAddress addr) value)

/-- A holding register is written by function 6. -/
def writeRegister (addr : ℤ) (value : UInt16) : Except Fault (ℤ × Option Payload) × Option Device :=
  slave.exchange device (.writeOne .holdingRegister (slave.pduAddress addr) value)

/-- Coils are written by function 15. -/
def writeCoils (addr : ℤ) (src : List Bool) : Except Fault (ℤ × Option Payload) × Option Device :=
  slave.exchange device (.write .coil (slave.pduAddress addr) src)

/-- Holding registers are written by function 16. -/
def writeRegisters (addr : ℤ) (src : List UInt16) :
    Except Fault (ℤ × Option Payload) × Option Device :=
  slave.exchange device (.write .holdingRegister (slave.pduAddress addr) src)

/-- Holding registers are written, and others read, by function 23. -/
def writeReadRegisters (waddr : ℤ) (src : List UInt16) (raddr rnb : ℤ) :
    Except Fault (ℤ × Option Payload) × Option Device :=
  slave.exchange device
    (.writeAndRead (slave.pduAddress waddr) src (slave.pduAddress raddr) rnb)

/-- The slave is asked for its identification by function 17. -/
def reportSlaveId (maxDest : ℕ) : Except Fault (ℤ × Option Payload) × Option Device :=
  slave.exchange device (.reportSlaveId maxDest)

variable {slave device}

theorem pduAddress_dataAddress (pduAddr : ℤ) :
    slave.pduAddress (slave.dataAddress pduAddr) = pduAddr := by
  simp only [pduAddress, dataAddress]
  omega

theorem isOpen_iff : slave.isOpen device = true ↔
    ∃ dev, device = some dev ∧ slave.isValid device = true ∧ dev.isOpen = true := by
  cases device with
  | none => simp [isOpen]
  | some dev => simp [isOpen]

/-- The device after a transfer to a slave. -/
def afterTransfer (dev : Device) (id : ℤ) (transfer : Transfer) : Device :=
  { dev with ctx := { dev.ctx with slave := id, sent := dev.ctx.sent ++ [⟨id, transfer⟩] } }

theorem exchange_accepted {dev : Device} (transfer : Transfer)
    (valid : slave.isValid (some dev) = true) (accepted : dev.ctx.accepts slave.id = true) :
    slave.exchange (some dev) transfer =
      (.ok (transfer.result (dev.ctx.answer dev.ctx.sent ⟨slave.id, transfer⟩),
          dev.ctx.answer dev.ctx.sent ⟨slave.id, transfer⟩),
        some (afterTransfer dev slave.id transfer)) := by
  simp only [exchange, if_pos valid, Context.setSlave, if_pos accepted, if_true, Context.exchange,
    afterTransfer]

theorem exchange_refused {dev : Device} (transfer : Transfer)
    (valid : slave.isValid (some dev) = true) (refused : dev.ctx.accepts slave.id = false) :
    slave.exchange (some dev) transfer = (.ok (-1, none), some dev) := by
  simp only [exchange, if_pos valid, Context.setSlave, refused, Bool.false_eq_true, if_false]

end Slave

end Modbuspp
