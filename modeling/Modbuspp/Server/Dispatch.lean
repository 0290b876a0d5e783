import Modbuspp.Server.Task

/-!
# Dispatch of messages

A message for a registered slave concerns that slave and its device only. One for any other slave is handed
to the message callback, a pointer that the constructor leaves uninitialized, so that a server whose
callback was never set jumps to an arbitrary address.
-/

namespace Modbuspp

/-- A function that the program installs for the messages of no slave: its result, and the message. -/
abbrev MessageHandler := Message → ℤ × Message

namespace Server

/-- A new server. -/
def create (device : Device) (devices : ℕ → Device) (errno : Errno) : Server where
  device := device
  sock := none
  req := none
  slave := fun _ => none
  messageCB := .indeterminate
  master := []
  devices := devices
  errno := errno

/-- The server with another callback for its messages. -/
def setMessageCallback (srv : Server) (cb : Option MessageHandler) : Server :=
  { srv with
    messageCB :=
      match cb with
      | none => .null
      | some run => .installed run }

/-- The device of a slave is the same in two servers. -/
def SameDevice (srv other : Server) (slv : BufferedSlave) : Prop :=
  ∀ i, slv.dev = some i → other.devices i = srv.devices i

/-- The task writes to one slave and its device only, and depends on nothing else but the server's own
device. -/
structure Confined (srv : Server) (d : Delivery) (id : ℤ) (slv : BufferedSlave) : Prop where
  slaves : ∀ other, other ≠ id → (srv.deliver d).server.slave other = srv.slave other
  devices : ∀ i, slv.dev ≠ some i → (srv.deliver d).server.devices i = srv.devices i
  independent : ∀ other : Server, other.device = srv.device → other.slave id = some slv →
    srv.SameDevice other slv → (other.deliver d).result = (srv.deliver d).result ∧
      (other.deliver d).stages = (srv.deliver d).stages ∧
      (other.deliver d).server.slave id = (srv.deliver d).server.slave id ∧
      (srv.deliver d).server.SameDevice (other.deliver d).server slv

/-- A message of no slave touches no slave and no device. It is handed once to the function that is
installed, whose result is returned, or dropped. -/
structure HandedOver (srv : Server) (d : Delivery) (installed : Option MessageHandler) : Prop where
  slaves : (srv.deliver d).server.slave = srv.slave
  devices : (srv.deliver d).server.devices = srv.devices
  handled : ∀ run, installed = some run → (srv.deliver d).result = .ok (run d.req).1 ∧
    (srv.deliver d).server = { srv.received d with req := some (run d.req).2 }
  dropped : installed = none → (∃ rc, (srv.deliver d).result = .ok rc) ∧
    (srv.deliver d).server = srv.received d

/-- The law for one message, given the function that the program has installed, if any. -/
def Dispatches (srv : Server) (installed : Option MessageHandler) (d : Delivery) : Prop :=
  ∀ id, 0 < d.rc → d.req.slave = .ok id →
    match srv.slave id with
    | some slv => srv.Confined d id slv
    | none => srv.HandedOver d installed

end Server

/-- What happens to a server: the program sets its callback, a message is received, or the program changes
something else. -/
inductive Event where
  | setMessageCallback (cb : Option MessageHandler)
  | receive (d : Delivery)
  /-- Any other use of the server, which may change everything but the callback. -/
  | change (other : Server)

/-- A server, and the functions given to `setMessageCallback` so far, the latest one first. -/
structure Session where
  server : Server
  given : List (Option MessageHandler)

namespace Session

/-- The session after an event. -/
def step (s : Session) : Event → Session
  | .setMessageCallback cb => { server := s.server.setMessageCallback cb, given := cb :: s.given }
  | .receive d => { s with server := s.server.next d }
  | .change other => { s with server := { other with messageCB := s.server.messageCB } }

/-- The function that is installed: there is none after a null pointer. -/
def installed (s : Session) : Option MessageHandler := s.given.head?.join

/-- The law of dispatching for one event. -/
def Dispatches (s : Session) : Event → Prop
  | .receive d => s.server.Dispatches s.installed d
  | _ => True

/-- The slave that a message names is registered, or `setMessageCallback` has been called. -/
def Answerable (s : Session) : Event → Prop
  | .receive d => ∀ id, 0 < d.rc → d.req.slave = .ok id →
      (∃ slv, s.server.slave id = some slv) ∨ s.given ≠ []
  | _ => True

/-- The callback of the server is what was given last. -/
def Faithful (s : Session) : Prop :=
  s.server.messageCB =
    match s.given with
    | [] => .indeterminate
    | none :: _ => .null
    | some run :: _ => .installed run

end Session

namespace Server

variable {srv : Server} {slv : BufferedSlave} {id : ℤ} {d : Delivery}

theorem task_messageCB (srv : Server) (links : Links) (reply : ModbusReply) (rc : ℤ) :
    (srv.task links reply rc).server.messageCB = srv.messageCB := by
  rcases srv.task_cases links reply rc with ⟨_, _, _, _, _, _, run⟩ | ⟨_, _, _, _, _, run⟩ | ⟨_, _, run⟩
  · rw [run]
  · rw [run]
    rfl
  · rw [run]

theorem sameDevice_station {other : Server} (same : srv.SameDevice other slv) :
    other.station slv = srv.station slv := by
  simp only [station]
  cases pointer : slv.dev with
  | none => rfl
  | some i => simp only [Option.map_some, same i pointer]

theorem store_devices_of_ne {served : Served} {i : ℕ}
    (elsewhere : served.station.slave.dev ≠ some i) :
    (srv.store id served).devices i = srv.devices i := by
  simp only [store]
  cases pointer : served.station.slave.dev with
  | none => rfl
  | some j =>
      have ne : i ≠ j := by
        rintro rfl
        exact elsewhere pointer
      cases served.station.device with
      | none => rfl
      | some dev => exact Function.update_of_ne ne _ _

theorem store_sameDevice {other : Server} {served : Served} (same : srv.SameDevice other slv)
    (pointer : served.station.slave.dev = slv.dev) :
    (srv.store id served).SameDevice (other.store id served) slv := by
  intro i found
  simp only [store, pointer, found]
  cases served.station.device with
  | none => exact same i found
  | some dev => simp only [Function.update_self]

/-- A message for a registered slave. -/
theorem confined_of_registered (positive : 0 < d.rc) (addressee : d.req.slave = .ok id)
    (registered : srv.slave id = some slv) : srv.Confined d id slv := by
  have present : ∀ srv : Server, (srv.received d).req = some d.req := fun _ => rfl
  cases accepts : srv.device.ctx.accepts id with
  | false =>
      have run : ∀ other : Server, other.device = srv.device → other.slave id = some slv →
          other.deliver d = { result := .ok 0, server := other.received d, stages := [] } := by
        intro other device_eq found
        exact task_of_refused (other.received d) d.links d.reply positive (present other) addressee
          found (by rw [← accepts, ← device_eq]; rfl)
      refine ⟨?_, ?_, ?_⟩
      · intro _ _
        rw [run srv rfl registered]
        rfl
      · intro _ _
        rw [run srv rfl registered]
        rfl
      · intro other device_eq found same
        rw [run srv rfl registered, run other device_eq found]
        exact ⟨rfl, rfl, found.trans registered.symm, same⟩
  | true =>
      have run : ∀ other : Server, other.device = srv.device → other.slave id = some slv →
          ∃ dev, other.deliver d =
            { result := ((other.station slv).serve d.reply d.req d.rc).result.map (·.getD 0)
              server := { other.received d with device := dev }.store id
                ((other.station slv).serve d.reply d.req d.rc)
              stages := ((other.station slv).serve d.reply d.req d.rc).stages } := by
        intro other device_eq found
        exact task_of_registered (other.received d) d.links d.reply positive (present other) addressee
          found (by rw [← accepts, ← device_eq]; rfl)
      have pointer : ((srv.station slv).serve d.reply d.req d.rc).station.slave.dev = slv.dev :=
        (srv.station slv).serve_dev d.reply d.req d.rc
      rcases run srv rfl registered with ⟨dev, handled⟩
      refine ⟨?_, ?_, ?_⟩
      · intro other ne
        rw [handled]
        exact Function.update_of_ne ne _ _
      · intro i elsewhere
        rw [handled]
        exact store_devices_of_ne (by rw [pointer]; exact elsewhere)
      · intro other device_eq found same
        rcases run other device_eq found with ⟨otherDev, otherHandled⟩
        rw [sameDevice_station same] at otherHandled
        rw [handled, otherHandled]
        refine ⟨rfl, rfl, ?_, ?_⟩
        · simp only [store, Function.update_self]
        · exact store_sameDevice same pointer

/-- A message for no slave, by what the callback is. -/
theorem deliver_of_unregistered (positive : 0 < d.rc) (addressee : d.req.slave = .ok id)
    (unregistered : srv.slave id = none) :
    srv.deliver d =
      match srv.messageCB with
      | .indeterminate => { result := .error .indeterminate, server := srv.received d, stages := [] }
      | .null => { result := .ok d.rc, server := srv.received d, stages := [] }
      | .installed run =>
          { result := .ok (run d.req).1
            server := { srv.received d with req := some (run d.req).2 }
            stages := [] } := by
  have noFailure : ¬(d.rc = -1 ∧ (srv.received d).errno ≠ .badCrc) := by omega
  have none_found : (srv.received d).slave id = none := unregistered
  simp only [deliver, task, if_neg noFailure, gt_iff_lt, if_pos positive]
  simp only [received, addressee] at none_found ⊢
  split
  · next slv found =>
    rw [none_found] at found
    cases found
  · cases srv.messageCB <;> rfl

end Server

namespace Session

variable {s : Session}

theorem step_faithful (faithful : s.Faithful) (event : Event) : (s.step event).Faithful := by
  cases event with
  | setMessageCallback cb => cases cb <;> rfl
  | receive d => exact (Server.task_messageCB _ _ _ _).trans faithful
  | change other => exact faithful

/-- A message for no slave is handed over as it should be exactly when a callback has been set. -/
theorem handedOver_iff (faithful : s.Faithful) {d : Delivery} {id : ℤ} (positive : 0 < d.rc)
    (addressee : d.req.slave = .ok id) (unregistered : s.server.slave id = none) :
    s.server.HandedOver d s.installed ↔ s.given ≠ [] := by
  have run := Server.deliver_of_unregistered positive addressee unregistered
  rw [faithful] at run
  cases given : s.given with
  | nil =>
      rw [given] at run
      refine iff_of_false ?_ (by simp)
      intro handed
      rcases (handed.dropped (by rw [installed, given]; rfl)).1 with ⟨rc, returned⟩
      rw [run] at returned
      cases returned
  | cons cb earlier =>
      rw [given] at run
      refine iff_of_true ?_ (by simp)
      cases cb with
      | none =>
          refine ⟨by rw [run]; rfl, by rw [run]; rfl, ?_, ?_⟩
          · intro handler found
            rw [installed, given] at found
            cases found
          · intro _
            rw [run]
            exact ⟨⟨_, rfl⟩, rfl⟩
      | some handler =>
          refine ⟨by rw [run]; rfl, by rw [run]; rfl, ?_, ?_⟩
          · intro other found
            rw [installed, given] at found
            cases found
            rw [run]
            exact ⟨rfl, rfl⟩
          · intro found
            rw [installed, given] at found
            cases found

theorem dispatches_iff (faithful : s.Faithful) {event : Event} :
    s.Dispatches event ↔ s.Answerable event := by
  cases event with
  | setMessageCallback cb => exact Iff.rfl
  | change other => exact Iff.rfl
  | receive d =>
      constructor
      · intro dispatches id positive addressee
        have lawful := dispatches id positive addressee
        cases registered : s.server.slave id with
        | some slv => exact .inl ⟨slv, rfl⟩
        | none =>
            rw [registered] at lawful
            exact .inr ((handedOver_iff faithful positive addressee registered).mp lawful)
      · intro answerable id positive addressee
        cases registered : s.server.slave id with
        | some slv => exact Server.confined_of_registered positive addressee registered
        | none =>
            apply (handedOver_iff faithful positive addressee registered).mpr
            rcases answerable id positive addressee with ⟨slv, found⟩ | called
            · rw [registered] at found
              cases found
            · exact called

/-- Along every run from a new server the law holds exactly when each message names a registered slave or
finds a callback that has been set. -/
theorem dispatches_along_iff (device : Device) (devices : ℕ → Device) (errno : Errno)
    (events : List Event) :
    Process.Along Session.step Session.Dispatches
        { server := .create device devices errno, given := [] } events ↔
      Process.Along Session.step Session.Answerable
        { server := .create device devices errno, given := [] } events := by
  apply Process.along_iff_of_invariant Session.Faithful
  · intro s event faithful _
    exact step_faithful faithful event
  · intro s event faithful
    exact dispatches_iff faithful
  · rfl

/-- A new server on a serial line. -/
def onSerialLine : Session where
  server := .create (.create .rtu Context.silent) (fun _ => .create .rtu Context.silent) .none
  given := []

/-- The first message, for a slave that is not registered, makes a new server jump. -/
theorem new_server_jumps : ∃ req,
    Message.create (.net .rtu) (.adu [2, 3, 0, 0, 0, 1, 0x84, 0x39]) = .ok req ∧
      (onSerialLine.server.deliver (.frame req 8)).result = .error .indeterminate ∧
      ¬Process.Along step Dispatches onSerialLine [.receive (.frame req 8)] := by
  refine ⟨_, rfl, rfl, ?_⟩
  rintro ⟨dispatches, _⟩
  have handed : Server.HandedOver _ _ _ := dispatches 2 (by decide) rfl
  rcases (handed.dropped rfl).1 with ⟨rc, returned⟩
  cases returned

end Session

end Modbuspp
