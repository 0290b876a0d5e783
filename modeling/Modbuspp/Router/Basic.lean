import Mathlib.Data.List.Sort
import Modbuspp.Server.Task

/-!
# Routers

A router is a server that owns masters, each under a name. A slave of the router points to the master
that its messages are relayed to, without owning it. Masters and slaves are added by the program, or
described by a JSON text whose fields may be missing.
-/

namespace Modbuspp

/-- A router. Every master it creates is another object than those created before, and `allocated` is
their number. -/
structure Router extends Server where
  allocated : ℕ

/-- What a JSON text says about a device: its connection, settings and mode, which are read first, make a
layer with a libmodbus context, and what remains may fail after the link has been set. -/
structure DeviceDescription where
  /-- Whether the three can be read. -/
  fields : Except Fault Unit
  link : Except Fault (NetLayer × Context)
  recoveryLink : Option Bool
  options : Except Fault Unit

/-- What a JSON text says about a slave. The blocks set and fill the mapping of the slave. -/
structure SlaveDescription where
  id : Except Fault ℤ
  pduAddressing : Except Fault (Option Bool)
  blocks : BufferedSlave → Except Fault Unit × Mapping

/-- What a JSON text says about a master of a router, with the slaves that point to it. -/
structure MasterDescription where
  name : Except Fault String
  device : DeviceDescription
  slaves : List SlaveDescription

/-- What a JSON text says about a router. -/
structure RouterDescription where
  device : DeviceDescription
  masters : List MasterDescription

namespace Device

/-- A device without a backend, as `Master ()` makes it. -/
def new : Device :=
  { backend := none, isOpen := false, recoveryLink := false, ctx := Context.silent }

/-- `Device::setBackend`: the result, and the device. A backend that is set stays. -/
def setBackend (dev : Device) (link : Except Fault (NetLayer × Context)) :
    Except Fault Bool × Device :=
  if dev.isValid then (.ok false, dev)
  else
    match link with
    | .error fault => (.error fault, dev)
    | .ok (backend, ctx) => (.ok true, { dev with backend := some backend, ctx })

/-- `setConfig` of a device, whose options follow only a backend that was set. -/
def setConfig (dev : Device) (config : DeviceDescription) : Except Fault Unit × Device :=
  match config.fields with
  | .error fault => (.error fault, dev)
  | .ok () =>
      match dev.setBackend config.link with
      | (.error fault, dev) => (.error fault, dev)
      | (.ok false, dev) => (.ok (), dev)
      | (.ok true, dev) =>
          (config.options, { dev with recoveryLink := config.recoveryLink.getD dev.recoveryLink })

end Device

/-- `setConfig` of a buffered slave: the one of a slave, and then its blocks. -/
def BufferedSlave.setConfig (slv : BufferedSlave) (id : ℤ) (config : SlaveDescription) :
    Except Fault Unit × BufferedSlave :=
  let slv := { slv with id }
  match config.pduAddressing with
  | .error fault => (.error fault, slv)
  | .ok addressing =>
      let slv := { slv with pduAddressing := addressing.getD slv.pduAddressing }
      let (result, map) := config.blocks slv
      (result, { slv with map })

/-- `Server::addSlave`. -/
def Server.addSlave (srv : Server) (id : ℤ) (master : Option ℕ) : Except Fault Unit × Server :=
  if srv.device.isOpen then (.error (.logicError "Unable to add slave when open !"), srv)
  else
    match srv.device.backend with
    | none => (.error .outOfBounds, srv)
    | some _ =>
        let (accepted, ctx) := srv.device.ctx.setSlave id
        let srv := { srv with device := { srv.device with ctx } }
        if accepted then
          let slv :=
            match srv.slave id with
            | some slv => { slv with dev := master }
            | none => BufferedSlave.create id master
          (.ok (), { srv with slave := Function.update srv.slave id (some slv) })
        else
          (.error (.invalidArgument
            ("Unable to add slave[" ++ toString id ++ "]\nInvalid argument")), srv)

namespace Router

/-- `Device::open`, which calls `Router::Private::open`. -/
def «open» (r : Router) (links : Links) : Except Fault Bool × Router :=
  let (result, srv) := r.toServer.open links
  (result, { r with toServer := srv })

/-- `Router::close`, after `terminate` has stopped the daemon. -/
def close (r : Router) : Router :=
  if r.device.isOpen then { r with toServer := r.closeDevice.closeMasters } else r

/-- `Router::addMaster`: the new master, which takes the place of one of the same name. -/
def addMaster (r : Router) (name : String) : Except Fault ℕ × Router :=
  if r.device.isOpen then (.error (.logicError "Unable to add master when open !"), r)
  else
    let erased := r.master.filter (·.1 ≠ name)
    (.ok r.allocated,
      { r with
        master := erased.orderedInsert (·.1 ≤ ·.1) (name, r.allocated)
        devices := Function.update r.devices r.allocated Device.new
        allocated := r.allocated + 1 })

/-- `Device::setBackend` of a master. -/
def setMasterBackend (r : Router) (mb : ℕ) (link : Except Fault (NetLayer × Context)) :
    Except Fault Unit × Router :=
  let (result, dev) := (r.devices mb).setBackend link
  (result.map fun _ => (), { r with devices := Function.update r.devices mb dev })

/-- `addMaster` with a net, a connection and settings. -/
def addMasterOn (r : Router) (name : String) (link : Except Fault (NetLayer × Context)) :
    Except Fault Unit × Router :=
  match r.addMaster name with
  | (.error fault, r) => (.error fault, r)
  | (.ok mb, r) => r.setMasterBackend mb link

/-- `Router::addSlave`. -/
def addSlave (r : Router) (id : ℤ) (master : Option ℕ) : Except Fault Unit × Router :=
  let (result, srv) := r.toServer.addSlave id master
  (result, { r with toServer := srv })

/-- `setConfig` of the device of a router. -/
def setDeviceConfig (r : Router) (config : DeviceDescription) : Except Fault Unit × Router :=
  let (result, device) := r.device.setConfig config
  (result, { r with device })

/-- `setConfig` of the device of a master. -/
def setMasterConfig (r : Router) (mb : ℕ) (config : DeviceDescription) :
    Except Fault Unit × Router :=
  let (result, dev) := (r.devices mb).setConfig config
  (result, { r with devices := Function.update r.devices mb dev })

/-- `setConfig` of a slave that is registered. -/
def setSlaveConfig (r : Router) (id : ℤ) (config : SlaveDescription) : Except Fault Unit × Router :=
  match r.slave id with
  | none => (.error .outOfBounds, r)
  | some slv =>
      let (result, slv) := slv.setConfig id config
      (result, { r with slave := Function.update r.slave id (some slv) })

/-- The loop over the slaves of a master. -/
def addSlaves (r : Router) (mb : ℕ) : List SlaveDescription → Except Fault Unit × Router
  | [] => (.ok (), r)
  | config :: rest =>
      match config.id with
      | .error fault => (.error fault, r)
      | .ok id =>
          match r.addSlave id (some mb) with
          | (.error fault, r) => (.error fault, r)
          | (.ok (), r) =>
              match r.setSlaveConfig id config with
              | (.error fault, r) => (.error fault, r)
              | (.ok (), r) => r.addSlaves mb rest

/-- The loop over the masters. -/
def addMasters (r : Router) : List MasterDescription → Except Fault Unit × Router
  | [] => (.ok (), r)
  | config :: rest =>
      match config.name with
      | .error fault => (.error fault, r)
      | .ok name =>
          match r.addMaster name with
          | (.error fault, r) => (.error fault, r)
          | (.ok mb, r) =>
              match r.setMasterConfig mb config.device with
              | (.error fault, r) => (.error fault, r)
              | (.ok (), r) =>
                  match r.addSlaves mb config.slaves with
                  | (.error fault, r) => (.error fault, r)
                  | (.ok (), r) => r.addMasters rest

/-- `setConfig` of a router. -/
def setConfig (r : Router) (config : RouterDescription) : Except Fault Unit × Router :=
  match r.setDeviceConfig config.device with
  | (.error fault, r) => (.error fault, r)
  | (.ok (), r) => r.addMasters config.masters

end Router

end Modbuspp
