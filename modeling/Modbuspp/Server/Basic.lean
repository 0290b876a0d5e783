import Modbuspp.BufferedSlave.Relay

/-!
# Servers and routers

A server has slaves with a mapping each, and hands every message it receives to the slave that the
message names. When the slave has an open device, the cells it reads are fetched from the device
before libmodbus replies, and the cells it writes are passed on afterwards. A router also owns the
masters that the slaves point to. What libmodbus replies, what callbacks do and whether a link can be
opened are inputs.
-/

namespace Modbuspp

/-- What `modbus_reply` does with a message: the length of the answer it has sent, or -1, and the
mapping afterwards. -/
structure Reply where
  rc : ℤ
  /-- The answer is a Modbus exception. -/
  exception : Bool
  map : Mapping

/-- `modbus_reply`, called with the length of the message. It reads and writes cells of the mapping and
never moves a block. -/
structure ModbusReply where
  run : Message → ℤ → Mapping → Reply
  sameLayout : ∀ req rc (map : Mapping) t, (map t).SameLayout ((run req rc map).map t)

/-- The result of a callback that may be absent: one that is not there lets the message pass. -/
def Callback.outcome (cb : Option Callback) (req : Message) (map : Mapping) :
    ℤ × Message × Mapping :=
  match cb with
  | none => (0, req, map)
  | some cb => cb.run req map

/-- The stages that a routed message has been through, with what they returned. -/
inductive Stage where
  | readFromDevice (ret : ℤ)
  | reply (req : Message) (before : Mapping) (answer : Reply)
  | writeToDevice (ret : ℤ)

/-- A message served by a slave. There is a result when the task returned early. -/
structure Served where
  result : Except Fault (Option ℤ)
  station : Station
  req : Message
  stages : List Stage

namespace Station

/-- The station with other data blocks. -/
def withMap (st : Station) (map : Mapping) : Station := { st with slave := { st.slave with map } }

/-- The part of `task` that follows the reply. -/
def afterReply (st : Station) (req : Message) (stages : List Stage) : Served :=
  let (stop, req, map) := Callback.outcome st.slave.afterReplyCB req st.slave.map
  let st := st.withMap map
  if stop ≠ 0 then { result := .ok (some stop), station := st, req, stages }
  else
    match st.writeToDevice (some req) with
    | (.error fault, st) => { result := .error fault, station := st, req, stages }
    | (.ok ret, st) =>
        -- A failed write is assigned to `rc`, which is overwritten afterwards.
        { result := .ok none, station := st, req, stages := stages ++ [.writeToDevice ret] }

/-- The part of `task` for a registered slave. -/
def serve (st : Station) (reply : ModbusReply) (req : Message) (rc : ℤ) : Served :=
  match st.readFromDevice (some req) with
  | (.error fault, st) => { result := .error fault, station := st, req, stages := [] }
  | (.ok ret, st) =>
      if ret < 0 then
        { result := .ok none, station := st, req, stages := [.readFromDevice ret] }
      else
        let (stop, req, map) := Callback.outcome st.slave.beforeReplyCB req st.slave.map
        let st := st.withMap map
        if stop ≠ 0 then
          { result := .ok (some stop), station := st, req, stages := [.readFromDevice ret] }
        else
          let answer := reply.run req rc map
          let stages := [.readFromDevice ret, .reply req map answer]
          let st := st.withMap answer.map
          if answer.rc < 0 then { result := .ok none, station := st, req, stages }
          else st.afterReply req stages

end Station

/-- The message callback, a member that the constructor does not initialize. -/
inductive MessageCallback where
  | indeterminate
  | null
  | installed (run : Message → ℤ × Message)

/-- The private state of `Server`, with the devices that slaves may point to. The masters are those of
a router; a server that is not a router has none. -/
structure Server where
  device : Device
  sock : Option ℕ
  /-- The context of the server is connected, which is how a server on a serial line listens. -/
  connected : Bool := false
  req : Option Message
  slave : ℤ → Option BufferedSlave
  messageCB : MessageCallback
  master : List (String × ℕ)
  devices : ℕ → Device
  /-- The `errno` of the thread that calls `task`. -/
  errno : Errno

/-- Whether the links can be opened when this is tried: the socket of `modbus_tcp_pi_listen`, and the
success of `modbus_connect` for the server and for the masters. -/
structure Links where
  listen : Option ℕ
  connect : Bool
  connectMaster : ℕ → Bool

/-- What a call of `task` returns, the server afterwards, and the stages that a routed message has been
through. -/
structure Handled where
  result : Except Fault ℤ
  server : Server
  stages : List Stage

namespace Server

/-- The backend of the server is open. -/
def Listening (srv : Server) : Prop :=
  match srv.device.net with
  | .tcp => srv.sock ≠ none
  | .rtu => srv.connected = true
  | .noNet => False

instance (srv : Server) : Decidable srv.Listening :=
  match net : srv.device.net with
  | .tcp => decidable_of_iff (srv.sock ≠ none) (by simp only [Listening, net])
  | .rtu => decidable_of_iff (srv.connected = true) (by simp only [Listening, net])
  | .noNet => .isFalse (by simp only [Listening, net, not_false_eq_true])

/-- `Server::Private::close`. -/
def closeLink (srv : Server) : Server :=
  let srv := if srv.device.net = .tcp then { srv with sock := none } else srv
  { srv with connected := false }

/-- `Server::Private::open`. -/
def openLink (srv : Server) (links : Links) : Except Fault Bool × Server :=
  let (isOk, srv) :=
    match srv.device.net with
    | .tcp => (links.listen.isSome, { srv with sock := links.listen })
    | .rtu => (links.connect, { srv with connected := links.connect })
    | .noNet => (false, srv)
  if isOk ∧ srv.req = none then
    match Message.create (.device srv.device.backend) .empty with
    | .error fault => (.error fault, srv)
    | .ok req => (.ok isOk, { srv with req := some req })
  else (.ok isOk, srv)

/-- Opens the masters one after the other until one of them cannot be opened. -/
def openMasters (srv : Server) (links : Links) : Bool × Server :=
  srv.master.foldl (fun (isOk, srv) (_, m) =>
    if isOk then
      let (opened, dev) := (srv.devices m).open (links.connectMaster m)
      (opened, { srv with devices := Function.update srv.devices m dev })
    else (false, srv)) (true, srv)

/-- Closes the masters one after the other. -/
def closeMasters (srv : Server) : Server :=
  srv.master.foldl (fun srv (_, m) =>
    { srv with devices := Function.update srv.devices m (srv.devices m).close }) srv

/-- `Router::Private::open`, which for a server without masters is the one of the server. -/
def openAll (srv : Server) (links : Links) : Except Fault Bool × Server :=
  let (isOk, srv) := srv.openMasters links
  let (isOk, srv) := if isOk then srv.openLink links else (.ok false, srv)
  (isOk, if isOk = .ok false then srv.closeMasters else srv)

/-- `Device::open`, which calls the virtual `open` of the private class. -/
def «open» (srv : Server) (links : Links) : Except Fault Bool × Server :=
  if srv.device.isValid && !srv.device.isOpen then
    match srv.openAll links with
    | (.error fault, srv) => (.error fault, srv)
    | (.ok isOpen, srv) => (.ok isOpen, { srv with device := { srv.device with isOpen } })
  else (.ok srv.device.isOpen, srv)

/-- `Device::close`. -/
def closeDevice (srv : Server) : Server :=
  if srv.device.isOpen then
    let srv := srv.closeLink
    { srv with device := { srv.device with isOpen := false } }
  else srv

/-- A slave with the device it points to. -/
def station (srv : Server) (slv : BufferedSlave) : Station where
  slave := slv
  device := slv.dev.map srv.devices

/-- The server after a slave has served a message. -/
def store (srv : Server) (id : ℤ) (served : Served) : Server :=
  { srv with
    req := some served.req
    slave := Function.update srv.slave id (some served.station.slave)
    devices :=
      match served.station.slave.dev, served.station.device with
      | some i, some dev => Function.update srv.devices i dev
      | _, _ => srv.devices }

/-- `Server::Private::task`. -/
def task (srv : Server) (links : Links) (reply : ModbusReply) (rc : ℤ) : Handled :=
  if rc = -1 ∧ srv.errno ≠ .badCrc then
    if srv.device.recoveryLink then
      match srv.closeLink.openAll links with
      | (.error fault, srv) => { result := .error fault, server := srv, stages := [] }
      | (.ok true, srv) =>
          { result := .ok 0, server := { srv with errno := .none }, stages := [] }
      | (.ok false, srv) =>
          { result := .error (.runtimeError "Unable to recovery link !"), server := srv,
            stages := [] }
    else { result := .ok rc, server := srv, stages := [] }
  else if rc > 0 then
    match srv.req with
    | none => { result := .error .outOfBounds, server := srv, stages := [] }
    | some req =>
        match req.slave with
        | .error fault => { result := .error fault, server := srv, stages := [] }
        | .ok id =>
            match srv.slave id with
            | some slv =>
                let (accepted, ctx) := srv.device.ctx.setSlave id
                let srv := { srv with device := { srv.device with ctx } }
                if accepted then
                  let served := (srv.station slv).serve reply req rc
                  { result := served.result.map (·.getD 0), server := srv.store id served,
                    stages := served.stages }
                else { result := .ok 0, server := srv, stages := [] }
            | none =>
                match srv.messageCB with
                | .indeterminate =>
                    { result := .error .indeterminate, server := srv, stages := [] }
                | .null => { result := .ok rc, server := srv, stages := [] }
                | .installed run =>
                    { result := .ok (run req).1, server := { srv with req := some (run req).2 },
                      stages := [] }
  else { result := .ok rc, server := srv, stages := [] }

end Server

end Modbuspp
