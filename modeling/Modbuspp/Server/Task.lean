import Modbuspp.BufferedSlave.Range
import Modbuspp.Server.Basic

/-!
# Runs of a server

The messages handed to `task` one after the other make a run. The blocks of every slave stay sound along
it. A message that was replied to has passed the relay of reads and the first callback; what remains is
the second callback and the relay of writes.
-/

namespace Modbuspp

theorem Callback.outcome_sound (cb : Option Callback) (req : Message) {map : Mapping}
    (sound : map.Sound) : (outcome cb req map).2.2.Sound := by
  cases cb with
  | none => exact sound
  | some cb => exact cb.sound req sound

theorem ModbusReply.run_sound (reply : ModbusReply) (req : Message) (rc : ℤ) {map : Mapping}
    (sound : map.Sound) : (reply.run req rc map).map.Sound := by
  intro t
  exact (sound t).of_sameLayout (reply.sameLayout req rc map t)

namespace Station

variable {st : Station} {reply : ModbusReply} {req passed : Message} {rc : ℤ} {before : Mapping}
  {answer : Reply}

theorem afterReply_sound (sound : st.slave.map.Sound) (req : Message) (stages : List Stage) :
    (st.afterReply req stages).station.slave.map.Sound := by
  have passed := Callback.outcome_sound st.slave.afterReplyCB req sound
  simp only [afterReply]
  generalize Callback.outcome st.slave.afterReplyCB req st.slave.map = outcome at passed
  rcases outcome with ⟨stop, left, map⟩
  have slave_eq := writeToDevice_slave (st.withMap map) (some left)
  split
  · exact passed
  · split
    · next written =>
      rw [written] at slave_eq
      rw [slave_eq]
      exact passed
    · next written =>
      rw [written] at slave_eq
      rw [slave_eq]
      exact passed

theorem serve_sound (sound : st.slave.map.Sound) (reply : ModbusReply) (req : Message) (rc : ℤ) :
    (st.serve reply req rc).station.slave.map.Sound := by
  have read := (readFromDevice_refreshed st (some req)).sound sound
  simp only [serve]
  generalize st.readFromDevice (some req) = run at read
  rcases run with ⟨_ | ret, after⟩
  · exact read
  · have passed := Callback.outcome_sound after.slave.beforeReplyCB req read
    simp only
    generalize Callback.outcome after.slave.beforeReplyCB req after.slave.map = outcome at passed
    rcases outcome with ⟨stop, left, map⟩
    have replied := reply.run_sound left rc passed
    split
    · exact read
    · split
      · exact passed
      · split
        · exact replied
        · exact afterReply_sound replied _ _

/-- What a message can change of a station. -/
structure Touched (st after : Station) : Prop where
  slave_eq : ∃ map idReport, after.slave = { st.slave with map, idReport }
  device_eq : ∃ ctx, after.device = st.device.map fun dev => { dev with ctx }

theorem Touched.withMap {after : Station} (touched : st.Touched after) (map : Mapping) :
    st.Touched (after.withMap map) := by
  rcases touched.slave_eq with ⟨_, idReport, slave_eq⟩
  exact ⟨⟨map, idReport, by rw [Station.withMap, slave_eq]⟩, touched.device_eq⟩

theorem readFromDevice_touched (st : Station) (req : Option Message) :
    st.Touched (st.readFromDevice req).2 := by
  rcases (readFromDevice_refreshed st req).slave_eq with ⟨map, idReport, slave_eq, _⟩
  exact ⟨⟨map, idReport, slave_eq⟩, (readFromDevice_exchanged st req).device_eq⟩

theorem writeToDevice_touched {after : Station} (touched : st.Touched after) (req : Option Message) :
    st.Touched (after.writeToDevice req).2 := by
  rcases touched.device_eq with ⟨before, device_eq⟩
  rcases (writeToDevice_exchanged after req).device_eq with ⟨ctx, moved⟩
  refine ⟨?_, ctx, ?_⟩
  · rw [writeToDevice_slave]
    exact touched.slave_eq
  · rw [moved, device_eq, Option.map_map]
    rfl

theorem afterReply_touched {after : Station} (touched : st.Touched after) (req : Message)
    (stages : List Stage) : st.Touched (after.afterReply req stages).station := by
  simp only [afterReply]
  generalize Callback.outcome after.slave.afterReplyCB req after.slave.map = outcome
  rcases outcome with ⟨stop, left, map⟩
  have passed := touched.withMap map
  have written := writeToDevice_touched passed (some left)
  split
  · exact passed
  · split
    · next run =>
      rw [run] at written
      exact written
    · next run =>
      rw [run] at written
      exact written

theorem serve_touched (st : Station) (reply : ModbusReply) (req : Message) (rc : ℤ) :
    st.Touched (st.serve reply req rc).station := by
  have read := readFromDevice_touched st (some req)
  simp only [serve]
  generalize st.readFromDevice (some req) = run at read
  rcases run with ⟨_ | ret, after⟩
  · exact read
  · simp only at read ⊢
    split
    · exact read
    · split
      · exact read.withMap _
      · split
        · exact (read.withMap _).withMap _
        · exact afterReply_touched ((read.withMap _).withMap _) _ _

theorem serve_dev (st : Station) (reply : ModbusReply) (req : Message) (rc : ℤ) :
    (st.serve reply req rc).station.slave.dev = st.slave.dev := by
  rcases (serve_touched st reply req rc).slave_eq with ⟨map, idReport, slave_eq⟩
  rw [slave_eq]

theorem reply_mem_afterReply {stages : List Stage} :
    Stage.reply passed before answer ∈ (st.afterReply req stages).stages ↔
      Stage.reply passed before answer ∈ stages := by
  simp only [afterReply]
  split
  · rfl
  · split <;> simp

theorem afterReply_of_passed (st : Station) {left : Mapping} (stages : List Stage)
    (outcome_eq : Callback.outcome st.slave.afterReplyCB req st.slave.map = (0, passed, left)) :
    st.afterReply req stages =
      match (st.withMap left).writeToDevice (some passed) with
      | (.error fault, after) => { result := .error fault, station := after, req := passed, stages }
      | (.ok ret, after) =>
          { result := .ok none, station := after, req := passed,
            stages := stages ++ [.writeToDevice ret] } := by
  simp only [afterReply, outcome_eq]
  rfl

/-- A message that was replied to. -/
theorem serve_of_replied
    (replied : Stage.reply passed before answer ∈ (st.serve reply req rc).stages) :
    ∃ ret after, st.readFromDevice (some req) = (.ok ret, after) ∧
      Callback.outcome after.slave.beforeReplyCB req after.slave.map = (0, passed, before) ∧
      answer = reply.run passed rc before ∧
      (0 ≤ answer.rc → st.serve reply req rc = (after.withMap answer.map).afterReply passed
        [.readFromDevice ret, .reply passed before answer]) := by
  simp only [serve] at replied ⊢
  generalize read : st.readFromDevice (some req) = run at replied
  rcases run with ⟨_ | ret, after⟩
  · simp at replied
  · simp only at replied ⊢
    generalize outcome_eq : Callback.outcome after.slave.beforeReplyCB req after.slave.map = outcome
      at replied
    rcases outcome with ⟨stop, left, map⟩
    by_cases failed : ret < 0
    · simp [failed] at replied
    · by_cases stopped : stop ≠ 0
      · simp [failed, stopped] at replied
      · simp only [if_neg failed, if_neg stopped] at replied ⊢
        have same : passed = left ∧ before = map ∧ answer = reply.run left rc map := by
          split at replied
          · simpa using replied
          · rw [reply_mem_afterReply] at replied
            simpa using replied
        rcases same with ⟨rfl, rfl, rfl⟩
        have continues : stop = 0 := by omega
        subst continues
        refine ⟨ret, after, rfl, outcome_eq, rfl, ?_⟩
        intro positive
        rw [if_neg (by omega)]
        rfl

end Station

/-- A message handed to `task`: its content, what receiving it returned, and the outside world that the
task meets. -/
structure Delivery where
  req : Message
  rc : ℤ
  /-- The `errno` of the thread that calls `task`. -/
  errno : Errno
  links : Links
  reply : ModbusReply

namespace Server

/-- The server when a message has been received, as `task` finds it. -/
def received (srv : Server) (d : Delivery) : Server :=
  { srv with req := some d.req, errno := d.errno }

/-- The message is handed to `task`. -/
def deliver (srv : Server) (d : Delivery) : Handled :=
  (srv.received d).task d.links d.reply d.rc

/-- The server after a message was handed to `task`. -/
def next (srv : Server) (d : Delivery) : Server := (srv.deliver d).server

/-- `Server::poll`, with what `isRunning` returns, the `errno` of the thread that calls it, and the message
that is ready, if there is one when the time is over. -/
def poll (srv : Server) (running : Bool) (errno : Errno) (ready : Option Delivery) : Handled :=
  if !running && srv.device.isOpen then
    match ready with
    -- Another thread has received the message, and `errno` is local to a thread.
    | some d => srv.deliver { d with errno }
    | none => { result := .ok 0, server := srv, stages := [] }
  else { result := .ok (-1), server := srv, stages := [] }

/-- The mappings of all slaves are sound. -/
def Sound (srv : Server) : Prop := ∀ id slv, srv.slave id = some slv → slv.map.Sound

variable {srv : Server} {links : Links} {reply : ModbusReply} {rc : ℤ}

/-- One turn of the loop that opens the masters. -/
def openMaster (links : Links) (state : Bool × Server) (m : String × ℕ) : Bool × Server :=
  if state.1 then
    let (opened, dev) := (state.2.devices m.2).open (links.connectMaster m.2)
    (opened, { state.2 with devices := Function.update state.2.devices m.2 dev })
  else (false, state.2)

/-- One turn of the loop that closes the masters. -/
def closeMaster (srv : Server) (m : String × ℕ) : Server :=
  { srv with devices := Function.update srv.devices m.2 (srv.devices m.2).close }

/-- Opening the masters changes nothing but the devices. -/
theorem openMasters_frame (srv : Server) (links : Links) :
    ∃ devices, (srv.openMasters links).2 = { srv with devices } := by
  have fold : ∀ (masters : List (String × ℕ)) (isOk : Bool) (start : Server),
      ∃ devices, (masters.foldl (openMaster links) (isOk, start)).2 = { start with devices } := by
    intro masters
    induction masters with
    | nil => exact fun _ start => ⟨start.devices, rfl⟩
    | cons m masters ih =>
        intro isOk start
        cases isOk
        · exact ih false start
        · exact ih _ _
  exact fold srv.master true srv

theorem closeMasters_frame (srv : Server) : ∃ devices, srv.closeMasters = { srv with devices } := by
  have fold : ∀ (masters : List (String × ℕ)) (start : Server),
      ∃ devices, masters.foldl closeMaster start = { start with devices } := by
    intro masters
    induction masters with
    | nil => exact fun start => ⟨start.devices, rfl⟩
    | cons m masters ih => exact fun start => ih _
  exact fold srv.master srv

theorem openLink_frame (srv : Server) (links : Links) :
    ∃ sock connected req, (srv.openLink links).2 = { srv with sock, connected, req } := by
  simp only [openLink]
  cases srv.device.net <;> simp only <;> split
  · split <;> exact ⟨_, _, _, rfl⟩
  · exact ⟨_, _, _, rfl⟩
  · split <;> exact ⟨_, _, _, rfl⟩
  · exact ⟨_, _, _, rfl⟩
  · split <;> exact ⟨_, _, _, rfl⟩
  · exact ⟨_, _, _, rfl⟩

/-- Opening a server changes its link, its request and the devices. -/
theorem openAll_frame (srv : Server) (links : Links) : ∃ sock connected req devices,
    (srv.openAll links).2 = { srv with sock, connected, req, devices } := by
  rcases openMasters_frame srv links with ⟨devices, masters⟩
  simp only [openAll]
  generalize srv.openMasters links = opened at masters
  rcases opened with ⟨isOk, after⟩
  simp only at masters
  subst masters
  cases isOk with
  | false =>
      rcases closeMasters_frame { srv with devices } with ⟨closed, run⟩
      simp only [Bool.false_eq_true, if_false, if_true]
      exact ⟨_, _, _, closed, run⟩
  | true =>
      rcases openLink_frame { srv with devices } links with ⟨sock, connected, req, link⟩
      simp only [if_true]
      split
      · rcases closeMasters_frame { srv with sock, connected, req, devices } with ⟨closed, run⟩
        rw [link]
        exact ⟨_, _, _, closed, run⟩
      · exact ⟨_, _, _, _, link⟩

/-- The server after the task: its link was recovered, a slave of its map has served the request, or the
reply or the callback has touched the context or the request only. -/
theorem task_cases (srv : Server) (links : Links) (reply : ModbusReply) (rc : ℤ) :
    ((rc = -1 ∧ srv.errno ≠ .badCrc ∧ srv.device.recoveryLink = true) ∧
      ∃ sock connected req devices errno, (srv.task links reply rc).server =
        { srv with sock, connected, req, devices, errno }) ∨
    (∃ ctx req id slv, srv.slave id = some slv ∧ (srv.task links reply rc).server =
      { srv with device := { srv.device with ctx } }.store id
        ((srv.station slv).serve reply req rc)) ∨
    ∃ ctx req, (srv.task links reply rc).server =
      { srv with device := { srv.device with ctx }, req } := by
  have recovered : ∃ sock connected req devices, (srv.closeLink.openAll links).2 =
      { srv with sock, connected, req, devices } := by
    rcases openAll_frame srv.closeLink links with ⟨sock, connected, req, devices, frame⟩
    rw [frame]
    simp only [closeLink]
    split
    · exact ⟨_, _, _, _, rfl⟩
    · exact ⟨_, _, _, _, rfl⟩
  simp only [task]
  split
  · next failed =>
    split
    · next recovery =>
      rcases recovered with ⟨sock, connected, req, devices, frame⟩
      generalize srv.closeLink.openAll links = opened at frame
      rcases opened with ⟨outcome, after⟩
      simp only at frame
      subst frame
      refine Or.inl ⟨⟨failed.1, failed.2, recovery⟩, sock, connected, req, devices, ?_⟩
      rcases outcome with fault | isOk
      · exact ⟨_, rfl⟩
      · cases isOk
        · exact ⟨_, rfl⟩
        · exact ⟨_, rfl⟩
    · exact Or.inr (Or.inr ⟨_, _, rfl⟩)
  · split
    · split
      · exact Or.inr (Or.inr ⟨_, _, rfl⟩)
      · next req _ =>
        split
        · exact Or.inr (Or.inr ⟨_, _, rfl⟩)
        · next id _ =>
          split
          · next slv registered =>
            split
            · exact Or.inr (Or.inl ⟨_, req, id, slv, registered, rfl⟩)
            · exact Or.inr (Or.inr ⟨_, _, rfl⟩)
          · split
            · exact Or.inr (Or.inr ⟨_, _, rfl⟩)
            · exact Or.inr (Or.inr ⟨_, _, rfl⟩)
            · exact Or.inr (Or.inr ⟨_, _, rfl⟩)
    · exact Or.inr (Or.inr ⟨_, _, rfl⟩)

/-- The flag of the server is not touched by the task. -/
theorem task_isOpen (srv : Server) (links : Links) (reply : ModbusReply) (rc : ℤ) :
    (srv.task links reply rc).server.device.isOpen = srv.device.isOpen := by
  rcases srv.task_cases links reply rc with ⟨_, _, _, _, _, _, run⟩ | ⟨_, _, _, _, _, run⟩ | ⟨_, _, run⟩
  · rw [run]
  · rw [run]
    rfl
  · rw [run]

theorem open_of_open (links : Links) (open_ : srv.device.isOpen = true) :
    srv.open links = (.ok true, srv) := by
  simp only [Server.open, open_, Bool.not_true, Bool.and_false, Bool.false_eq_true, if_false]

theorem task_stages_of_not_positive (negative : ¬0 < rc) :
    (srv.task links reply rc).stages = [] := by
  simp only [task]
  split
  · split
    · split <;> rfl
    · rfl
  · rfl

theorem station_store (srv : Server) (id : ℤ) {served : Served} {i : ℕ} {dev : Device}
    (dev_eq : served.station.slave.dev = some i) (device_eq : served.station.device = some dev) :
    (srv.store id served).station served.station.slave = served.station := by
  simp only [station, store, dev_eq, device_eq, Option.map_some, Function.update_self]
  rw [← device_eq]

theorem task_of_registered (srv : Server) (links : Links) (reply : ModbusReply) {req : Message}
    {id : ℤ} {slv : BufferedSlave} (positive : 0 < rc)
    (received : srv.req = some req) (addressee : req.slave = .ok id)
    (registered : srv.slave id = some slv) (accepts : srv.device.ctx.accepts id = true) :
    ∃ dev, srv.task links reply rc =
      { result := ((srv.station slv).serve reply req rc).result.map (·.getD 0)
        server := { srv with device := dev }.store id ((srv.station slv).serve reply req rc)
        stages := ((srv.station slv).serve reply req rc).stages } := by
  refine ⟨{ srv.device with ctx := { srv.device.ctx with slave := id } }, ?_⟩
  have noFailure : ¬(rc = -1 ∧ srv.errno ≠ .badCrc) := by omega
  simp only [task, if_neg noFailure, if_pos positive, gt_iff_lt, received, addressee, registered,
    Context.setSlave, accepts, if_true]
  rfl

theorem task_of_refused (srv : Server) (links : Links) (reply : ModbusReply) {req : Message}
    {id : ℤ} {slv : BufferedSlave} (positive : 0 < rc)
    (received : srv.req = some req) (addressee : req.slave = .ok id)
    (registered : srv.slave id = some slv) (refused : srv.device.ctx.accepts id = false) :
    srv.task links reply rc = { result := .ok 0, server := srv, stages := [] } := by
  have noFailure : ¬(rc = -1 ∧ srv.errno ≠ .badCrc) := by omega
  simp only [task, if_neg noFailure, if_pos positive, gt_iff_lt, received, addressee, registered,
    Context.setSlave, refused, Bool.false_eq_true, if_false]
  rw [← received]

theorem task_sound (sound : srv.Sound) (links : Links) (reply : ModbusReply) (rc : ℤ) :
    (srv.task links reply rc).server.Sound := by
  rcases srv.task_cases links reply rc with
    ⟨_, _, _, _, _, _, run⟩ | ⟨_, req, id, slv, registered, run⟩ | ⟨_, _, run⟩
  · rw [run]
    exact sound
  · rw [run]
    intro other found registeredAfter
    simp only [store] at registeredAfter
    by_cases same : other = id
    · subst same
      rw [Function.update_self] at registeredAfter
      cases registeredAfter
      exact Station.serve_sound (sound other slv registered) _ _ _
    · rw [Function.update_of_ne same] at registeredAfter
      exact sound other found registeredAfter
  · rw [run]
    exact sound

theorem next_sound {d : Delivery} (sound : srv.Sound) : (srv.next d).Sound := by
  have received : (srv.received d).Sound := sound
  exact task_sound received d.links d.reply d.rc

end Server

/-- The register that a request writes, as an offset in the block, with its new value. -/
def Message.writtenRegister (req : Message) (block : Block UInt16) : Except Fault (ℤ × UInt16) := do
  let address ← req.startingAddress
  let offset := address.toNat - block.start
  let func ← req.function
  match func with
  | .writeSingleRegister => do
      let value ← req.word 3
      pure (offset, value)
  | .maskWriteRegister => do
      let old ← block.elementAt offset
      let kept ← req.word 3
      let added ← req.word 5
      pure (offset, (old &&& kept) ||| (added &&& ~~~kept))
  | _ => .error (.invalidArgument "Illegal function")

/-- `modbus_reply` of a server that knows the writes of a single register only: the new mapping, or
nothing where an exception is the answer. -/
def Message.writeRegister (req : Message) (map : Mapping) : Except Fault Mapping := do
  let (offset, value) ← req.writtenRegister (map .holdingRegister)
  let cells ← checked (Storage.write (map .holdingRegister).cells offset value)
  pure (Function.update map .holdingRegister { map .holdingRegister with tab := some cells })

/-- A reply that serves requests to write a single register. -/
def ModbusReply.singleRegister : ModbusReply where
  run req rc map :=
    match req.writeRegister map with
    -- The answer to a write is its echo.
    | .ok written => { rc, exception := false, map := written }
    | .error _ =>
        { rc := req.net.headerLength + 2 + req.net.trailerLength, exception := true, map }
  sameLayout := by
    intro req rc map t
    split
    · next written found =>
      simp only [Message.writeRegister, bind_eq_ok_iff] at found
      rcases found with ⟨⟨offset, value⟩, _, cells, stored, written_eq⟩
      cases written_eq
      by_cases same : t = .holdingRegister
      · subst same
        simp only [Function.update_self]
        refine ⟨rfl, rfl, ?_⟩
        rw [checked_eq_ok_iff] at stored
        have length_eq := Storage.length_of_write stored
        rcases Storage.write_eq_some_iff.mp stored with ⟨inside, _⟩
        simp only [Block.cells] at inside length_eq
        cases storage : (map .holdingRegister).tab with
        | none =>
            rw [storage] at inside
            simp only [Option.getD_none, List.length_nil] at inside
            omega
        | some before =>
            rw [storage] at length_eq
            exact congrArg some length_eq
      · simp only [Function.update_of_ne same]
        exact ⟨rfl, rfl, rfl⟩
    · exact ⟨rfl, rfl, rfl⟩

/-- A message that was received without an error, where every link opens. -/
def Delivery.frame (req : Message) (rc : ℤ) : Delivery where
  req := req
  rc := rc
  errno := .none
  links := { listen := none, connect := true, connectMaster := fun _ => true }
  reply := .singleRegister

namespace Server

/-- A router with one register behind an open link on which every transfer succeeds. -/
def routing (value : UInt16) : Server where
  device := { Device.create .rtu Context.silent with isOpen := true }
  sock := none
  req := none
  slave := Function.update (fun _ => none) 1 (some (Station.holding 0 [value]).slave)
  messageCB := .null
  master := [("link", 0)]
  devices := fun _ => { Device.create .rtu Context.answering with isOpen := true }
  errno := .none

theorem routing_slave {value : UInt16} {id : ℤ} {slv : BufferedSlave}
    (registered : (routing value).slave id = some slv) :
    slv = (Station.holding 0 [value]).slave := by
  simp only [routing, Function.update_apply] at registered
  split at registered
  · exact (Option.some.inj registered).symm
  · cases registered

theorem routing_reachable {value : UInt16} (id : ℤ) (slv : BufferedSlave)
    (registered : (routing value).slave id = some slv) : slv.map.Reachable := by
  rw [routing_slave registered]
  have set : (BufferedSlave.create 1 (some 0)).setBlock .holdingRegister 1 1 (some fun _ => 0) =
      (.ok 1, (Station.holding 0 [0]).slave) := rfl
  apply Mapping.Reachable.stored (Mapping.Reachable.setBlock .new set)
  intro t
  cases t <;> exact ⟨rfl, rfl, rfl⟩

end Server

end Modbuspp
