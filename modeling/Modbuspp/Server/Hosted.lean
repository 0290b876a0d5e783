import Mathlib.Data.List.Induction
import Modbuspp.Server.Dispatch
import Modbuspp.Server.Serial

/-!
# The memory of a slave

A slave that points to no device is a memory of its own: the messages that name it are served one after the
other, and nothing else that happens to the server reaches it, whatever its threads do.
-/

namespace Modbuspp

namespace Server

/-- What a call makes of a slave that has no device. -/
def servedBy (id : ℤ) (slv : BufferedSlave) : ServerCall → BufferedSlave
  | .deliver d =>
      if 0 < d.rc ∧ d.req.slave = .ok id then
        (Station.serve { slave := slv, device := none } d.reply d.req d.rc).station.slave
      else slv
  | _ => slv

/-- A slave that was added to the server and has no device. -/
structure Hosts (srv : Server) (id : ℤ) (slv : BufferedSlave) : Prop where
  registered : srv.slave id = some slv
  unrouted : slv.dev = none
  accepted : srv.device.ctx.accepts id = true

variable {srv : Server} {id : ℤ} {slv : BufferedSlave}

theorem Hosts.withRequest {req : Option Message} {errno : Errno}
    (hosts : (srv.withRequest req errno).Hosts id slv) : srv.Hosts id slv :=
  ⟨hosts.registered, hosts.unrouted, hosts.accepted⟩

theorem open_hosts (hosts : srv.Hosts id slv) (links : Links) : (srv.open links).2.Hosts id slv := by
  rcases openAll_frame srv links with ⟨sock, connected, req, devices, frame⟩
  simp only [Server.open]
  split
  · generalize srv.openAll links = opened at frame
    rcases opened with ⟨fault | isOpen, after⟩
    all_goals
      simp only at frame ⊢
      subst frame
      exact ⟨hosts.registered, hosts.unrouted, hosts.accepted⟩
  · exact hosts

theorem closeDevice_hosts (hosts : srv.Hosts id slv) : srv.closeDevice.Hosts id slv := by
  simp only [closeDevice, closeLink]
  split
  · split <;> exact ⟨hosts.registered, hosts.unrouted, hosts.accepted⟩
  · exact hosts

/-- Without a message the task looks after the link at most. -/
theorem task_of_nothing (srv : Server) (links : Links) (reply : ModbusReply) {rc : ℤ}
    (nothing : ¬0 < rc) : ∃ sock connected req devices errno,
      (srv.task links reply rc).server = { srv with sock, connected, req, devices, errno } := by
  have recovered : ∃ sock connected req devices, (srv.closeLink.openAll links).2 =
      { srv with sock, connected, req, devices } := by
    rcases openAll_frame srv.closeLink links with ⟨sock, connected, req, devices, frame⟩
    rw [frame]
    simp only [closeLink]
    split
    · exact ⟨_, _, _, _, rfl⟩
    · exact ⟨_, _, _, _, rfl⟩
  rcases recovered with ⟨sock, connected, req, devices, frame⟩
  simp only [task, gt_iff_lt, if_neg nothing]
  split
  · split
    · generalize srv.closeLink.openAll links = opened at frame
      rcases opened with ⟨outcome, after⟩
      simp only at frame
      subst frame
      rcases outcome with fault | isOk
      · exact ⟨_, _, _, _, _, rfl⟩
      · cases isOk
        · exact ⟨_, _, _, _, _, rfl⟩
        · exact ⟨_, _, _, _, _, rfl⟩
    · exact ⟨_, _, _, _, _, rfl⟩
  · exact ⟨_, _, _, _, _, rfl⟩

/-- The slaves that the link accepts are the same after the task. -/
theorem task_accepts (srv : Server) (links : Links) (reply : ModbusReply) (rc : ℤ) :
    (srv.task links reply rc).server.device.ctx.accepts = srv.device.ctx.accepts := by
  by_cases positive : 0 < rc
  · have noFailure : ¬(rc = -1 ∧ srv.errno ≠ .badCrc) := by omega
    simp only [task, if_neg noFailure, gt_iff_lt, if_pos positive]
    split
    · rfl
    · split
      · rfl
      · next id _ =>
        split
        · cases accepts : srv.device.ctx.accepts id with
          | true => simp only [Context.setSlave, accepts, if_true, store]
          | false => simp only [Context.setSlave, accepts, Bool.false_eq_true, if_false]
        · split <;> rfl
  · rcases task_of_nothing srv links reply positive with ⟨_, _, _, _, _, run⟩
    rw [run]

/-- The slave that a message names serves it; the others stay as they are. -/
theorem next_slave (hosts : srv.Hosts id slv) (d : Delivery) :
    (srv.next d).slave id = some (servedBy id slv (.deliver d)) := by
  have registered := hosts.registered
  by_cases positive : 0 < d.rc
  · cases addressee : d.req.slave with
    | error fault =>
        have noFailure : ¬(d.rc = -1 ∧ (srv.received d).errno ≠ .badCrc) := by omega
        simp only [next, deliver, task, if_neg noFailure, gt_iff_lt, if_pos positive, servedBy]
        simp only [received, addressee, registered, reduceCtorEq, and_false, if_false]
    | ok other =>
        by_cases same : other = id
        · subst same
          have station_eq : srv.station slv = { slave := slv, device := none } := by
            simp only [station, hosts.unrouted, Option.map_none]
          rcases task_of_registered (srv.received d) d.links d.reply positive rfl addressee registered
            hosts.accepted with ⟨dev, run⟩
          simp only [next, deliver, run, store, Function.update_self, servedBy, positive, addressee,
            and_self, if_true, ← station_eq]
          rfl
        · have elsewhere : ¬(0 < d.rc ∧ Except.ok (ε := Fault) other = .ok id) := by
            rintro ⟨_, equal⟩
            exact same (Except.ok.inj equal)
          simp only [servedBy, addressee, if_neg elsewhere, next]
          cases found : srv.slave other with
          | some _ =>
              have confined := confined_of_registered positive addressee found
              rw [confined.slaves id (Ne.symm same), registered]
          | none =>
              rw [deliver_of_unregistered positive addressee found]
              cases srv.messageCB <;> exact registered
  · rcases task_of_nothing (srv.received d) d.links d.reply positive with ⟨_, _, _, _, _, run⟩
    rw [next, deliver, run]
    simp only [servedBy, positive, false_and, if_false]
    exact registered

theorem perform_hosts (hosts : srv.Hosts id slv) (call : ServerCall) :
    (srv.perform call).2.Hosts id (servedBy id slv call) := by
  cases call with
  | «open» links => exact open_hosts hosts links
  | close => exact closeDevice_hosts hosts
  | deliver d =>
      refine ⟨next_slave hosts d, ?_, ?_⟩
      · simp only [servedBy]
        split
        · rw [Station.serve_dev]
          exact hosts.unrouted
        · exact hosts.unrouted
      · have accepts_eq := task_accepts (srv.received d) d.links d.reply d.rc
        simp only [perform, next, deliver, accepts_eq]
        exact hosts.accepted

/-- A slave without a device is a memory of its own. -/
theorem performAll_hosts (hosts : srv.Hosts id slv) (calls : List ServerCall) :
    (srv.performAll calls).2.Hosts id (calls.foldl (servedBy id) slv) := by
  induction calls using List.reverseRecOn with
  | nil => exact hosts
  | append_singleton calls call ih =>
      rw [performAll_concat, List.foldl_append]
      exact perform_hosts ih call

end Server

namespace History

/-- Whatever the interleaving, a slave without a device is left as by the messages that name it, each
served once in the order of the arrivals. -/
theorem slave_of_run (server : Server) {id : ℤ} {slv : BufferedSlave} (hosts : server.Hosts id slv)
    (events : List Service.Event)
    (guarded : Process.Along Service.step Service.StartsAlone (.create server) events) :
    (events.foldl step (create server)).handedOver <+: (events.foldl step (create server)).arrivals ∧
      (events.foldl Service.step (.create server)).server.slave id =
        some (((events.foldl step (create server)).calls.map Prod.fst).foldl (Server.servedBy id) slv) := by
  have serial := (ordered_of_run server guarded).serial
  have service_eq := service_foldl events (create server)
  generalize events.foldl step (create server) = h at serial service_eq
  rcases serial.state with ⟨req, errno, state_eq⟩
  refine ⟨⟨h.inRequest ++ h.onLink, ?_⟩, ?_⟩
  · rw [← List.append_assoc]
    exact serial.conserved
  · rw [← show h.service = events.foldl Service.step (.create server) from service_eq, state_eq]
    exact (Server.performAll_hosts hosts _).registered

/-- A slave with one register on the line of the server. -/
def oneRegister : Server :=
  { Service.onLine with
    slave := Function.update (fun _ => none) 1
      (some { (Station.holding 0 [7]).slave with dev := none }) }

/-- A request to write the register, which `poll` hands over. -/
theorem slave_of_run_oneRegister : ∃ req,
    Message.create (.net .rtu) (.adu [1, 6, 0, 0, 0, 9, 0x49, 0xCC]) = .ok req ∧
      ∀ message : Incoming, message = { req, rc := 8, positive := by decide } →
        ∃ slv, oneRegister.slave 1 = some slv ∧
          ∃ left, ([.open Service.connected, .arrive message, .poll, .taskReceive .message,
            .take .none Service.connected .singleRegister].foldl Service.step
              (.create oneRegister)).server.slave 1 = some left ∧
            (slv.map .holdingRegister).cells = [7] ∧ (left.map .holdingRegister).cells = [9] := by
  refine ⟨_, rfl, ?_⟩
  intro message message_eq
  have hosts : oneRegister.Hosts 1 _ := ⟨rfl, rfl, rfl⟩
  have after := slave_of_run oneRegister hosts [.open Service.connected, .arrive message, .poll,
    .taskReceive .message, .take .none Service.connected .singleRegister]
    ⟨fun _ _ => rfl, fun _ _ => rfl, fun _ _ => rfl, fun starts => Bool.noConfusion starts,
      fun starts => Bool.noConfusion starts, trivial⟩
  subst message_eq
  exact ⟨_, rfl, _, after.2, rfl, rfl⟩

end History

end Modbuspp
