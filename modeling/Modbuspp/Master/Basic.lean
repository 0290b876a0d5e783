import Modbuspp.Router.Basic

/-!
# Masters

A master is a device with slaves, each at a number. All of them share the libmodbus context of the device,
which has one current slave, so every transfer sets it first. The slave of broadcasts, or the one of a TCP
unit, is registered with the backend and stands for any negative number.
-/

namespace Modbuspp

/-- `Broadcast`. -/
def broadcast : ℤ := 0

/-- A master. Its slaves point to it, by `self`. -/
structure Master where
  device : Device
  slave : ℤ → Option Slave
  self : ℕ

/-- A transfer of a slave: the one of its context, at the addresses of the PDU. -/
def Transfer.at (transfer : Transfer) (place : ℤ → ℤ) : Transfer :=
  match transfer with
  | .read t addr nb => .read t (place addr) nb
  | .writeOne t addr value => .writeOne t (place addr) value
  | .write t addr src => .write t (place addr) src
  | .writeAndRead writeAddr src readAddr readNb =>
      .writeAndRead (place writeAddr) src (place readAddr) readNb
  | .reportSlaveId maxDest => .reportSlaveId maxDest

namespace Slave

/-- The transfers of a slave, from `readCoils` to `reportSlaveId`. -/
def operate (slave : Slave) (device : Option Device) (transfer : Transfer) :
    Except Fault (ℤ × Option Payload) × Option Device :=
  slave.exchange device (transfer.at slave.pduAddress)

theorem operate_eq (slave : Slave) (device : Option Device) :
    (∀ addr nb, slave.operate device (.read .coil addr nb) = slave.readCoils device addr nb) ∧
    (∀ addr nb, slave.operate device (.read .discreteInput addr nb) =
      slave.readDiscreteInputs device addr nb) ∧
    (∀ addr nb, slave.operate device (.read .holdingRegister addr nb) =
      slave.readRegisters device addr nb) ∧
    (∀ addr nb, slave.operate device (.read .inputRegister addr nb) =
      slave.readInputRegisters device addr nb) ∧
    (∀ addr value, slave.operate device (.writeOne .coil addr value) =
      slave.writeCoil device addr value) ∧
    (∀ addr value, slave.operate device (.writeOne .holdingRegister addr value) =
      slave.writeRegister device addr value) ∧
    (∀ addr src, slave.operate device (.write .coil addr src) = slave.writeCoils device addr src) ∧
    (∀ addr src, slave.operate device (.write .holdingRegister addr src) =
      slave.writeRegisters device addr src) ∧
    (∀ waddr src raddr rnb, slave.operate device (.writeAndRead waddr src raddr rnb) =
      slave.writeReadRegisters device waddr src raddr rnb) ∧
    ∀ maxDest, slave.operate device (.reportSlaveId maxDest) = slave.reportSlaveId device maxDest :=
  ⟨fun _ _ => rfl, fun _ _ => rfl, fun _ _ => rfl, fun _ _ => rfl, fun _ _ => rfl, fun _ _ => rfl,
    fun _ _ => rfl, fun _ _ => rfl, fun _ _ _ _ => rfl, fun _ => rfl⟩

/-- `setConfig` of a slave. -/
def setConfig (slave : Slave) (id : ℤ) (config : SlaveDescription) : Except Fault Unit × Slave :=
  let slave := { slave with id }
  match config.pduAddressing with
  | .error fault => (.error fault, slave)
  | .ok addressing =>
      (.ok (), { slave with pduAddressing := addressing.getD slave.pduAddressing })

end Slave

namespace Master

/-- `Master ()`. -/
def create (self : ℕ) : Master := { device := Device.new, slave := fun _ => none, self }

/-- The number that a negative one stands for. -/
def ownSlave (net : Net) : ℤ := if net = .rtu then broadcast else tcpSlave

/-- `Device::Private::defaultSlave`. -/
def defaultSlave (m : Master) (addr : ℤ) : ℤ :=
  if addr < 0 ∧ m.device.isValid = true then ownSlave m.device.net else addr

/-- `Master::hasSlave`. -/
def hasSlave (m : Master) (slaveAddr : ℤ) : Bool := (m.slave slaveAddr).isSome

/-- `Master::addSlave`. -/
def addSlave (m : Master) (slaveAddr : ℤ) : Except Fault Unit × Master :=
  if m.device.isValid then
    let (accepted, ctx) := m.device.ctx.setSlave slaveAddr
    let m := { m with device := { m.device with ctx } }
    if accepted then
      let s :=
        match m.slave slaveAddr with
        | some s => s
        | none => { pduAddressing := false, id := slaveAddr, dev := some m.self }
      (.ok (), { m with slave := Function.update m.slave slaveAddr (some s) })
    else
      (.error (.invalidArgument
        ("Unable to add slave[" ++ toString slaveAddr ++ "]\nInvalid argument")), m)
  else (.error (.runtimeError "Backend not set !"), m)

/-- `operator[]`, which looks up the number as it stands and throws where the map has no slave. -/
def index (m : Master) (slaveAddr : ℤ) : Except Fault Slave :=
  match m.slave slaveAddr with
  | some s => .ok s
  | none => .error (.outOfRange "map::at")

/-- `Master::slave`. -/
def slaveAt (m : Master) (slaveAddr : ℤ) : Except Fault Slave := m.index (m.defaultSlave slaveAddr)

/-- `Master::slavePtr`. -/
def slavePtr (m : Master) (slaveAddr : ℤ) : Option Slave :=
  if m.hasSlave (m.defaultSlave slaveAddr) then m.slave (m.defaultSlave slaveAddr) else none

/-- `Device::setBackend` of a master: the backend is set before its slave is added. -/
def setBackend (m : Master) (link : Except Fault (NetLayer × Context)) : Except Fault Bool × Master :=
  match m.device.setBackend link with
  | (.error fault, device) => (.error fault, { m with device })
  | (.ok false, device) => (.ok false, { m with device })
  | (.ok true, device) =>
      match { m with device }.addSlave (ownSlave device.net) with
      | (.error fault, m) => (.error fault, m)
      | (.ok (), m) => (.ok true, m)

/-- `Master::setRecoveryLink`, which tells libmodbus, too. -/
def setRecoveryLink (m : Master) (recovery : Bool) : Except Fault Bool × Master :=
  if m.device.isValid then (.ok true, { m with device := { m.device with recoveryLink := recovery } })
  else (.error (.runtimeError "Backend not set !"), m)

/-- `setConfig` of a slave that is registered. -/
def setSlaveConfig (m : Master) (id : ℤ) (config : SlaveDescription) : Except Fault Unit × Master :=
  match m.slave id with
  | none => (.error .outOfBounds, m)
  | some s =>
      let (result, s) := s.setConfig id config
      (result, { m with slave := Function.update m.slave id (some s) })

/-- The loop over the slaves of a description. -/
def addSlaves (m : Master) : List SlaveDescription → Except Fault Unit × Master
  | [] => (.ok (), m)
  | config :: rest =>
      match config.id with
      | .error fault => (.error fault, m)
      | .ok id =>
          match m.addSlave id with
          | (.error fault, m) => (.error fault, m)
          | (.ok (), m) =>
              match m.setSlaveConfig id config with
              | (.error fault, m) => (.error fault, m)
              | (.ok (), m) => m.addSlaves rest

/-- `setConfig` of a master: the device first, whose options follow only a backend that was set. -/
def setConfig (m : Master) (config : MasterDescription) : Except Fault Unit × Master :=
  match config.device.fields with
  | .error fault => (.error fault, m)
  | .ok () =>
      match m.setBackend config.device.link with
      | (.error fault, m) => (.error fault, m)
      | (.ok false, m) => m.addSlaves config.slaves
      | (.ok true, m) =>
          let recoveryLink := config.device.recoveryLink.getD m.device.recoveryLink
          let m := { m with device := { m.device with recoveryLink } }
          match config.device.options with
          | .error fault => (.error fault, m)
          | .ok () => m.addSlaves config.slaves

end Master

end Modbuspp
