import Modbuspp.Router.Routes

/-!
# Loading a description

A server is described with its slaves, a router with its masters and their slaves. Loading goes through the
descriptions in their order and stops at the first that cannot be followed. Each slave is then the work of
the descriptions of its number alone, and each name stands for the master that was described last.
-/

namespace Modbuspp

/-- What a JSON text says about a server. -/
structure ServerDescription where
  device : DeviceDescription
  slaves : List SlaveDescription

namespace Server

/-- `setConfig` of the device of a server. -/
def setDeviceConfig (srv : Server) (config : DeviceDescription) : Except Fault Unit × Server :=
  let (result, device) := srv.device.setConfig config
  (result, { srv with device })

/-- `setConfig` of a slave that is registered. -/
def setSlaveConfig (srv : Server) (id : ℤ) (config : SlaveDescription) : Except Fault Unit × Server :=
  match srv.slave id with
  | none => (.error .outOfBounds, srv)
  | some slv =>
      let (result, slv) := slv.setConfig id config
      (result, { srv with slave := Function.update srv.slave id (some slv) })

/-- The loop over the slaves, with the master that they point to. -/
def addSlaves (srv : Server) (master : Option ℕ) : List SlaveDescription → Except Fault Unit × Server
  | [] => (.ok (), srv)
  | config :: rest =>
      match config.id with
      | .error fault => (.error fault, srv)
      | .ok id =>
          match srv.addSlave id master with
          | (.error fault, srv) => (.error fault, srv)
          | (.ok (), srv) =>
              match srv.setSlaveConfig id config with
              | (.error fault, srv) => (.error fault, srv)
              | (.ok (), srv) => srv.addSlaves master rest

/-- `setConfig` of a server. -/
def setConfig (srv : Server) (config : ServerDescription) : Except Fault Unit × Server :=
  match srv.setDeviceConfig config.device with
  | (.error fault, srv) => (.error fault, srv)
  | (.ok (), srv) => srv.addSlaves none config.slaves

end Server

namespace Router

/-- `Router::hasMaster`. -/
def hasMaster (r : Router) (name : String) : Bool := r.master.any (·.1 = name)

/-- `Router::master` and `operator[]`, which throw where there is no master of the name. -/
def masterAt (r : Router) (name : String) : Except Fault ℕ :=
  match r.master.find? (·.1 = name) with
  | some (_, mb) => .ok mb
  | none => .error (.outOfRange "map::at")

/-- `Router::masterPtr`, a null pointer there. -/
def masterPtr (r : Router) (name : String) : Option ℕ :=
  if r.hasMaster name then (r.masterAt name).toOption else none

theorem masterPtr_eq (r : Router) (name : String) :
    r.masterPtr name = (r.master.find? (·.1 = name)).map (·.2) := by
  cases found : r.master.find? (·.1 = name) with
  | none =>
      have absent : r.hasMaster name = false := by
        rw [hasMaster, List.any_eq_false]
        exact List.find?_eq_none.mp found
      simp only [masterPtr, absent, Bool.false_eq_true, if_false, Option.map_none]
  | some entry =>
      have named := List.find?_some found
      have present : r.hasMaster name = true := by
        rw [hasMaster, List.any_eq_true]
        exact ⟨entry, List.mem_of_find?_eq_some found, named⟩
      simp only [masterPtr, masterAt, present, if_true, found, Option.map_some]
      rfl

end Router

/-- The description of a slave with the master that it is to point to. -/
structure Entry where
  master : Option ℕ
  config : SlaveDescription

namespace Entry

/-- The description has this number. -/
def names (id : ℤ) (entry : Entry) : Bool :=
  match entry.config.id with
  | .ok other => other = id
  | .error _ => false

/-- Whether one more description of a slave can be followed, with the slave afterwards. -/
def settle (id : ℤ) (slave : Option BufferedSlave) (entry : Entry) : Except Fault Unit × BufferedSlave :=
  let slv :=
    match slave with
    | some slv => { slv with dev := entry.master }
    | none => BufferedSlave.create id entry.master
  slv.setConfig id entry.config

/-- The slave of a number after one more of its descriptions. -/
def describe (id : ℤ) (slave : Option BufferedSlave) (entry : Entry) : Option BufferedSlave :=
  some (entry.settle id slave).2

/-- The slave of a number after those of the descriptions that name it. -/
def describeAll (id : ℤ) (slave : Option BufferedSlave) (entries : List Entry) : Option BufferedSlave :=
  (entries.filter (names id)).foldl (describe id) slave

/-- Why loading has stopped between two entries: the number of the next one cannot be read, or it is refused,
or the settings of the last one cannot be followed. -/
inductive Stops (slave : ℤ → Option BufferedSlave) (after : Server) (fault : Fault) :
    List Entry → List Entry → Prop where
  | unread {loaded rest : List Entry} {entry : Entry} (failed : entry.config.id = .error fault) :
      Stops slave after fault loaded (entry :: rest)
  | refused {loaded rest : List Entry} {entry : Entry} {id : ℤ} (number : entry.config.id = .ok id)
      (failed : (after.addSlave id entry.master).1 = .error fault) :
      Stops slave after fault loaded (entry :: rest)
  | unsettled {loaded rest : List Entry} {entry : Entry} {id : ℤ} (number : entry.config.id = .ok id)
      (failed : (entry.settle id (describeAll id (slave id) loaded)).1 = .error fault) :
      Stops slave after fault (loaded ++ [entry]) rest

end Entry

/-- The slaves of masters that follow each other on the heap. -/
def MasterDescription.entriesFrom : ℕ → List MasterDescription → List Entry
  | _, [] => []
  | mb, config :: rest => config.slaves.map (Entry.mk (some mb)) ++ entriesFrom (mb + 1) rest

/-- The masters of the names that the descriptions have. -/
def MasterDescription.namesFrom : ℕ → List MasterDescription → (String → Option ℕ) → String → Option ℕ
  | _, [], masters => masters
  | mb, config :: rest, masters =>
      namesFrom (mb + 1) rest
        (match config.name with
          | .ok name => Function.update masters name (some mb)
          | .error _ => masters)

namespace BufferedSlave

theorem setConfig_frame (slv : BufferedSlave) (id : ℤ) (config : SlaveDescription) :
    (slv.setConfig id config).2.dev = slv.dev ∧ (slv.setConfig id config).2.id = id := by
  simp only [setConfig]
  split <;> exact ⟨rfl, rfl⟩

end BufferedSlave

namespace Entry

variable {id : ℤ} {slave : Option BufferedSlave} {entries : List Entry}

theorem describeAll_append (id : ℤ) (slave : Option BufferedSlave) (entries later : List Entry) :
    describeAll id slave (entries ++ later) = describeAll id (describeAll id slave entries) later := by
  rw [describeAll, List.filter_append, List.foldl_append]
  rfl

theorem describeAll_singleton (id : ℤ) (slave : Option BufferedSlave) (entry : Entry) :
    describeAll id slave [entry] = if entry.names id then describe id slave entry else slave := by
  rw [describeAll, List.filter_singleton]
  cases entry.names id <;> rfl

/-- Entries that were loaded before. -/
theorem Stops.after {before after : Server} {slave : ℤ → Option BufferedSlave} {fault : Fault}
    {earlier rest : List Entry} (described : ∀ id, before.slave id = describeAll id (slave id) earlier)
    (stops : Stops before.slave after fault entries rest) :
    Stops slave after fault (earlier ++ entries) rest := by
  cases stops with
  | unread failed => exact .unread failed
  | refused number failed => exact .refused number failed
  | unsettled number failed =>
      rw [← List.append_assoc]
      apply Stops.unsettled number
      rw [describeAll_append, ← described]
      exact failed

/-- The last description that names a slave says which master it points to. -/
theorem describeAll_master {named : List Entry} {last : Entry}
    (last_eq : entries.filter (names id) = named ++ [last]) (slave : Option BufferedSlave) :
    ∃ slv, describeAll id slave entries = some slv ∧ slv.dev = last.master ∧ slv.id = id := by
  rw [describeAll, last_eq, List.foldl_append]
  generalize named.foldl (describe id) slave = before
  refine ⟨_, rfl, ?_, (BufferedSlave.setConfig_frame _ _ _).2⟩
  simp only [settle]
  rw [(BufferedSlave.setConfig_frame _ _ _).1]
  cases before <;> rfl

end Entry

namespace Server

variable {srv after : Server} {master : Option ℕ} {id : ℤ} {config : SlaveDescription}

/-- The server after descriptions of slaves were loaded, all or some of them. -/
structure Describes (srv after : Server) (entries : List Entry) : Prop where
  slaves : ∀ id, after.slave id = Entry.describeAll id (srv.slave id) entries
  rest : ∃ slave ctx, after = { srv with slave, device := { srv.device with ctx } }

theorem describes_nil (srv : Server) : srv.Describes srv [] := ⟨fun _ => rfl, _, _, rfl⟩

theorem Describes.trans {middle : Server} {entries later : List Entry}
    (first : srv.Describes middle entries) (second : middle.Describes after later) :
    srv.Describes after (entries ++ later) := by
  rcases first.rest with ⟨_, _, rfl⟩
  rcases second.rest with ⟨slave, ctx, rfl⟩
  refine ⟨?_, slave, ctx, rfl⟩
  intro id
  rw [Entry.describeAll_append, ← first.slaves]
  exact second.slaves id

/-- What adding a slave does: it is refused, or the slave is there and points to the master. -/
theorem addSlave_cases (srv : Server) (id : ℤ) (master : Option ℕ) :
    (∃ fault, srv.addSlave id master = (.error fault, srv)) ∨
      ∃ ctx, srv.addSlave id master = (.ok (),
        { srv with
          device := { srv.device with ctx }
          slave := Function.update srv.slave id (some
            (match srv.slave id with
              | some slv => { slv with dev := master }
              | none => BufferedSlave.create id master)) }) := by
  simp only [addSlave, Context.setSlave]
  split
  · exact Or.inl ⟨_, rfl⟩
  · split
    · exact Or.inl ⟨_, rfl⟩
    · by_cases accepted : srv.device.ctx.accepts id = true
      · simp only [if_pos accepted, if_true]
        exact Or.inr ⟨_, rfl⟩
      · simp only [if_neg accepted, Bool.false_eq_true, if_false]
        exact Or.inl ⟨_, rfl⟩

/-- A description whose slave was added, whether its settings could be followed or not. -/
theorem described (srv : Server) (number : config.id = .ok id) {added : Server}
    (run : srv.addSlave id master = (.ok (), added)) :
    srv.Describes (added.setSlaveConfig id config).2 [⟨master, config⟩] := by
  rcases srv.addSlave_cases id master with ⟨fault, refused⟩ | ⟨ctx, accepted⟩
  · rw [refused] at run
    cases run
  · rw [accepted] at run
    cases run
    simp only [setSlaveConfig, Function.update_self]
    refine ⟨?_, _, ctx, rfl⟩
    intro other
    rw [Entry.describeAll_singleton]
    by_cases same : other = id
    · subst same
      have named : (Entry.mk master config).names other = true := by
        simp only [Entry.names, number, decide_true]
      rw [if_pos named]
      exact Function.update_self ..
    · have unnamed : ¬(Entry.mk master config).names other = true := by
        simp only [Entry.names, number, decide_eq_true_eq]
        exact fun equal => same equal.symm
      rw [if_neg unnamed]
      exact (Function.update_of_ne same ..).trans (Function.update_of_ne same ..)

/-- Whether the settings of a slave that was added can be followed. -/
theorem settled (srv : Server) (config : SlaveDescription) {added : Server}
    (run : srv.addSlave id master = (.ok (), added)) :
    (added.setSlaveConfig id config).1 =
      ((Entry.mk master config).settle id (Entry.describeAll id (srv.slave id) [])).1 := by
  rcases srv.addSlave_cases id master with ⟨fault, refused⟩ | ⟨ctx, accepted⟩
  · rw [refused] at run
    cases run
  · rw [accepted] at run
    cases run
    simp only [setSlaveConfig, Function.update_self]
    rfl

/-- The slaves of a server after its descriptions were loaded, with the result: all of them, or those up to
the one that the fault comes from. -/
structure LoadsSlaves (srv after : Server) (entries : List Entry) (result : Except Fault Unit) : Prop where
  parts : ∃ loaded rest, entries = loaded ++ rest ∧ srv.Describes after loaded ∧
    (result = .ok () → rest = []) ∧
    ∀ fault, result = .error fault → Entry.Stops srv.slave after fault loaded rest

/-- Loading follows the descriptions up to the first that fails. -/
theorem addSlaves_loads (master : Option ℕ) (configs : List SlaveDescription) (srv : Server) :
    srv.LoadsSlaves (srv.addSlaves master configs).2 (configs.map (Entry.mk master))
      (srv.addSlaves master configs).1 := by
  induction configs generalizing srv with
  | nil => exact ⟨[], [], rfl, srv.describes_nil, fun _ => rfl, fun _ failed => by cases failed⟩
  | cons config configs ih =>
      have failing : ∀ {after : Server} {fault : Fault}, srv.Describes after [] →
          Entry.Stops srv.slave after fault [] ((config :: configs).map (Entry.mk master)) →
            srv.LoadsSlaves after ((config :: configs).map (Entry.mk master)) (.error fault) := by
        intro after fault described stops
        refine ⟨[], _, rfl, described, ?_, ?_⟩
        · intro success
          cases success
        · intro cause same
          cases same
          exact stops
      simp only [addSlaves]
      cases number : config.id with
      | error fault => exact failing srv.describes_nil (.unread number)
      | ok id =>
          simp only
          rcases srv.addSlave_cases id master with ⟨fault, refused⟩ | ⟨ctx, accepted⟩
          · rw [refused]
            exact failing srv.describes_nil (.refused number (congrArg Prod.fst refused))
          · have step := described srv number accepted
            have outcome := settled srv config accepted
            rw [accepted]
            simp only
            generalize Server.setSlaveConfig _ id config = configured at step outcome
            rcases configured with ⟨fault | ⟨⟩, after⟩
            · refine ⟨[⟨master, config⟩], configs.map (Entry.mk master), rfl, step, ?_, ?_⟩
              · intro success
                cases success
              · intro cause same
                cases same
                have stops : Entry.Stops srv.slave after fault ([] ++ [⟨master, config⟩])
                    (configs.map (Entry.mk master)) := .unsettled number outcome.symm
                exact stops
            · rcases ih after with ⟨loaded, rest, parted, described, complete, stops⟩
              refine ⟨⟨master, config⟩ :: loaded, rest, ?_, step.trans described, complete, ?_⟩
              · rw [List.map_cons, parted, List.cons_append]
              · intro cause failed
                exact (stops cause failed).after step.slaves

/-- However a description of a server turns out, its slaves are what the descriptions up to the fault say,
each what those of its number say. -/
theorem setConfig_loads (srv : Server) (config : ServerDescription) :
    (∃ fault, (srv.device.setConfig config.device).1 = .error fault ∧
      (srv.setConfig config).1 = .error fault ∧ (srv.setConfig config).2.slave = srv.slave) ∨
      ∃ device, ({ srv with device } : Server).LoadsSlaves (srv.setConfig config).2
        (config.slaves.map (Entry.mk none)) (srv.setConfig config).1 := by
  simp only [setConfig, setDeviceConfig]
  rcases srv.device.setConfig config.device with ⟨fault | ⟨⟩, device⟩
  · exact .inl ⟨fault, rfl, rfl, rfl⟩
  · exact .inr ⟨device, addSlaves_loads none config.slaves { srv with device }⟩

end Server

namespace Router

variable {r : Router}

/-- The slaves of a master are added to a router as to a server. -/
theorem addSlaves_toServer (mb : ℕ) (configs : List SlaveDescription) (r : Router) :
    r.addSlaves mb configs = ((r.toServer.addSlaves (some mb) configs).1,
      { r with toServer := (r.toServer.addSlaves (some mb) configs).2 }) := by
  induction configs generalizing r with
  | nil => rfl
  | cons config configs ih =>
      simp only [addSlaves, Server.addSlaves]
      cases number : config.id with
      | error fault => rfl
      | ok id =>
          simp only [addSlave]
          rcases r.toServer.addSlave id (some mb) with ⟨fault | ⟨⟩, added⟩
          · rfl
          · simp only [setSlaveConfig, Server.setSlaveConfig]
            cases found : added.slave id with
            | none => rfl
            | some slv =>
                simp only
                rcases slv.setConfig id config with ⟨fault | ⟨⟩, configured⟩
                · rfl
                · exact ih _

theorem find?_orderedInsert {α : Type} {le : α → α → Prop} [DecidableRel le] {x : α} {found : α → Bool}
    {list : List α} (others : found x = true → ∀ y ∈ list, found y = false) :
    (list.orderedInsert le x).find? found = if found x then some x else list.find? found := by
  induction list with
  | nil =>
      cases holds : found x <;>
        simp only [List.orderedInsert_nil, List.find?_singleton, holds, List.find?_nil]
  | cons y list ih =>
      have later := ih fun holds z mem => others holds z (List.mem_cons_of_mem y mem)
      simp only [List.orderedInsert_cons]
      cases holds : found x with
      | false =>
          simp only [holds, Bool.false_eq_true, if_false] at later ⊢
          split
          · rw [List.find?_cons, holds]
          · rw [List.find?_cons, List.find?_cons, later]
      | true =>
          have differs := others holds y List.mem_cons_self
          simp only [holds, if_true] at later ⊢
          split
          · rw [List.find?_cons, holds]
          · rw [List.find?_cons, differs, later]

/-- The new master has its name, and the others keep theirs. -/
theorem masterPtr_addMaster (closed : r.device.isOpen = false) (name : String) :
    (r.addMaster name).2.masterPtr = Function.update r.masterPtr name (some r.allocated) := by
  funext other
  have erased : ∀ entry ∈ r.master.filter (·.1 ≠ name), decide (entry.1 = name) = false := by
    intro entry mem
    simpa using (List.mem_filter.mp mem).2
  simp only [Function.update_apply, masterPtr_eq, addMaster, closed, Bool.false_eq_true, if_false]
  by_cases same : other = name
  · subst same
    rw [find?_orderedInsert fun _ => erased]
    simp only [decide_true, if_true, Option.map_some]
  · have differs : decide (name = other) = false := by
      simpa using fun equal => same equal.symm
    rw [find?_orderedInsert (by simp [differs])]
    simp only [differs, if_neg same, Bool.false_eq_true, if_false, List.find?_filter]
    congr 2
    funext entry
    by_cases named : entry.1 = other
    · subst named
      simp [same]
    · simp [named]

/-- The router after the masters of a description were loaded, all of them. -/
structure Complete (r after : Router) (configs : List MasterDescription) : Prop where
  masterPtr_eq : after.masterPtr = MasterDescription.namesFrom r.allocated configs r.masterPtr
  devices_eq : ∀ k config, configs[k]? = some config →
    after.devices (r.allocated + k) = (Device.new.setConfig config.device).2
  others : ∀ mb, mb < r.allocated → after.devices mb = r.devices mb
  allocated_eq : after.allocated = r.allocated + configs.length

/-- The router after masters and their slaves were loaded, up to the first that failed. -/
structure Loads (r after : Router) (configs : List MasterDescription) (result : Except Fault Unit) :
    Prop where
  slaves : ∃ loaded rest, MasterDescription.entriesFrom r.allocated configs = loaded ++ rest ∧
    (∀ id, after.slave id = Entry.describeAll id (r.slave id) loaded) ∧ (result = .ok () → rest = [])
  complete : result = .ok () → r.Complete after configs

/-- Why loading has stopped at a master, with the slaves that are there then: its name cannot be read, its
device cannot be described, or one of its slaves is not loaded. -/
inductive Stops (r after : Router) (fault : Fault) (done : List MasterDescription)
    (config : MasterDescription) : Prop where
  | unnamed (failed : config.name = .error fault)
      (slaves : ∀ id, after.slave id =
        Entry.describeAll id (r.slave id) (MasterDescription.entriesFrom r.allocated done))
  | unlinked {name : String} (title : config.name = .ok name)
      (failed : (Device.new.setConfig config.device).1 = .error fault)
      (slaves : ∀ id, after.slave id =
        Entry.describeAll id (r.slave id) (MasterDescription.entriesFrom r.allocated done))
  | slaves {name : String} {loaded rest : List Entry} (title : config.name = .ok name)
      (linked : (Device.new.setConfig config.device).1 = .ok ())
      (parted : config.slaves.map (Entry.mk (some (r.allocated + done.length))) = loaded ++ rest)
      (slaves : ∀ id, after.slave id = Entry.describeAll id (r.slave id)
        (MasterDescription.entriesFrom r.allocated done ++ loaded))
      (failed : Entry.Stops r.slave after.toServer fault
        (MasterDescription.entriesFrom r.allocated done ++ loaded) rest)

/-- A master was added, its device described, and its slaves were added as far as they could be. -/
structure Follows (r after : Router) (name : String) (config : MasterDescription) (loaded : List Entry) :
    Prop where
  slaves : ∀ id, after.slave id = Entry.describeAll id (r.slave id) loaded
  masterPtr_eq : after.masterPtr = Function.update r.masterPtr name (some r.allocated)
  devices_eq : after.devices =
    Function.update r.devices r.allocated (Device.new.setConfig config.device).2
  allocated_eq : after.allocated = r.allocated + 1
  isOpen_eq : after.device.isOpen = r.device.isOpen

theorem addMaster_ok (closed : r.device.isOpen = false) (name : String) :
    r.addMaster name = (.ok r.allocated, (r.addMaster name).2) := by
  simp only [addMaster, closed, Bool.false_eq_true, if_false]

theorem setMasterConfig_follows (closed : r.device.isOpen = false) (name : String)
    (config : MasterDescription) :
    (r.addMaster name).2.setMasterConfig r.allocated config.device =
        ((Device.new.setConfig config.device).1,
          ((r.addMaster name).2.setMasterConfig r.allocated config.device).2) ∧
      r.Follows ((r.addMaster name).2.setMasterConfig r.allocated config.device).2 name config [] := by
  have named := masterPtr_addMaster closed name
  have fresh : (r.addMaster name).2.devices = Function.update r.devices r.allocated Device.new := by
    simp only [addMaster, closed, Bool.false_eq_true, if_false]
  have frame : (r.addMaster name).2.slave = r.slave ∧ (r.addMaster name).2.device = r.device ∧
      (r.addMaster name).2.allocated = r.allocated + 1 := by
    simp only [addMaster, closed, Bool.false_eq_true, if_false, and_self]
  generalize (r.addMaster name).2 = added at named fresh frame
  rcases frame with ⟨slave_eq, device_eq, allocated_eq⟩
  have here : added.devices r.allocated = Device.new := by rw [fresh, Function.update_self]
  refine ⟨by simp only [setMasterConfig, here], ⟨?_, named, ?_, allocated_eq, ?_⟩⟩
  · intro id
    exact congrFun slave_eq id
  · simp only [setMasterConfig, here, fresh, Function.update_idem]
  · exact congrArg Device.isOpen device_eq

/-- One turn of the loop over the masters. -/
theorem addMasters_cons (closed : r.device.isOpen = false) {name : String} {config : MasterDescription}
    (title : config.name = .ok name) (configs : List MasterDescription) {described : Router}
    (described_eq : ((r.addMaster name).2.setMasterConfig r.allocated config.device).2 = described) :
    r.addMasters (config :: configs) =
      match (Device.new.setConfig config.device).1 with
      | .error fault => (.error fault, described)
      | .ok () =>
          match described.addSlaves r.allocated config.slaves with
          | (.error fault, after) => (.error fault, after)
          | (.ok (), after) => after.addMasters configs := by
  have added := addMaster_ok closed name
  have run := (setMasterConfig_follows closed name config).1
  rw [described_eq] at run
  generalize (r.addMaster name).2 = master at added run
  simp only [addMasters, title, added, run]
  cases (Device.new.setConfig config.device).1 with
  | error fault => rfl
  | ok _ =>
      rcases slaves : described.addSlaves r.allocated config.slaves with ⟨fault | ⟨⟩, after⟩
      · simp only [slaves]
      · simp only [slaves]

/-- The slaves of the master, after it was described. -/
theorem Follows.addSlaves {described : Router} {name : String} {config : MasterDescription}
    (follows : r.Follows described name config []) :
    ∃ loaded rest, config.slaves.map (Entry.mk (some r.allocated)) = loaded ++ rest ∧
      r.Follows (described.addSlaves r.allocated config.slaves).2 name config loaded ∧
      ((described.addSlaves r.allocated config.slaves).1 = .ok () → rest = []) ∧
      ∀ fault, (described.addSlaves r.allocated config.slaves).1 = .error fault →
        Entry.Stops r.slave (described.addSlaves r.allocated config.slaves).2.toServer fault loaded rest := by
  rcases (described.toServer.addSlaves_loads (some r.allocated) config.slaves).parts with
    ⟨loaded, rest, parted, describes, complete, stops⟩
  rw [addSlaves_toServer]
  rcases describes.rest with ⟨slave, ctx, after_eq⟩
  refine ⟨loaded, rest, parted, ⟨?_, ?_, ?_, follows.allocated_eq, ?_⟩, complete, ?_⟩
  · intro id
    have before : described.slave id = r.slave id := follows.slaves id
    rw [← before]
    exact describes.slaves id
  · rw [after_eq]
    exact follows.masterPtr_eq
  · rw [after_eq]
    exact follows.devices_eq
  · rw [after_eq]
    exact follows.isOpen_eq
  · intro fault failed
    have stopped : Entry.Stops r.slave (described.toServer.addSlaves (some r.allocated) config.slaves).2
        fault ([] ++ loaded) rest := (stops fault failed).after follows.slaves
    exact stopped

/-- A master and then the others. -/
theorem Follows.trans {middle after : Router} {name : String} {config : MasterDescription}
    {configs : List MasterDescription} {result : Except Fault Unit} (title : config.name = .ok name)
    (follows : r.Follows middle name config (config.slaves.map (Entry.mk (some r.allocated))))
    (loads : middle.Loads after configs result) : r.Loads after (config :: configs) result := by
  have allocated_eq := follows.allocated_eq
  rcases loads.slaves with ⟨loaded, rest, parted, slaves, done⟩
  refine ⟨⟨config.slaves.map (Entry.mk (some r.allocated)) ++ loaded, rest, ?_, ?_, done⟩, ?_⟩
  · rw [MasterDescription.entriesFrom, ← allocated_eq, parted, List.append_assoc]
  · intro id
    rw [Entry.describeAll_append, ← follows.slaves]
    exact slaves id
  · intro success
    rcases loads.complete success with ⟨masterPtr_eq, devices_eq, others, count⟩
    refine ⟨?_, ?_, ?_, ?_⟩
    · rw [masterPtr_eq, MasterDescription.namesFrom, title, allocated_eq, follows.masterPtr_eq]
    · intro k other found
      cases k with
      | zero =>
          cases found
          rw [Nat.add_zero, others r.allocated (by omega), follows.devices_eq, Function.update_self]
      | succ k =>
          have later := devices_eq k other found
          rwa [allocated_eq, Nat.add_right_comm, Nat.add_assoc] at later
    · intro mb before
      rw [others mb (by omega), follows.devices_eq, Function.update_of_ne (by omega)]
    · rw [count, allocated_eq, List.length_cons]
      omega

theorem addMasters_loads (configs : List MasterDescription) (r : Router)
    (closed : r.device.isOpen = false) :
    r.Loads (r.addMasters configs).2 configs (r.addMasters configs).1 := by
  induction configs generalizing r with
  | nil =>
      refine ⟨⟨[], [], rfl, fun _ => rfl, fun _ => rfl⟩, fun _ => ⟨rfl, ?_, fun _ _ => rfl, rfl⟩⟩
      intro k config found
      cases found
  | cons config configs ih =>
      have failing : ∀ {after : Router} {fault : Fault} {loaded rest : List Entry},
          config.slaves.map (Entry.mk (some r.allocated)) = loaded ++ rest →
          (∀ id, after.slave id = Entry.describeAll id (r.slave id) loaded) →
          r.Loads after (config :: configs) (.error fault) := by
        intro after fault loaded rest parted slaves
        refine ⟨⟨loaded, rest ++ MasterDescription.entriesFrom (r.allocated + 1) configs, ?_, slaves,
          fun failed => by cases failed⟩, fun failed => by cases failed⟩
        rw [MasterDescription.entriesFrom, parted, List.append_assoc]
      cases title : config.name with
      | error fault =>
          simp only [addMasters, title]
          exact failing (List.nil_append _).symm fun _ => rfl
      | ok name =>
          rcases setMasterConfig_follows closed name config with ⟨_, follows⟩
          generalize described_eq :
            ((r.addMaster name).2.setMasterConfig r.allocated config.device).2 = described at follows
          rw [addMasters_cons closed title configs described_eq]
          cases (Device.new.setConfig config.device).1 with
          | error fault => exact failing (List.nil_append _).symm follows.slaves
          | ok _ =>
              simp only
              rcases follows.addSlaves with ⟨loaded, rest, parted, added, complete, _⟩
              generalize described.addSlaves r.allocated config.slaves = slaves at added complete
              rcases slaves with ⟨fault | ⟨⟩, after⟩
              · exact failing parted added.slaves
              · have all := complete rfl
                subst all
                rw [List.append_nil] at parted
                subst parted
                exact added.trans title (ih after (added.isOpen_eq.trans closed))

/-- A master that was loaded before. -/
theorem Stops.after {middle after : Router} {name : String} {fault : Fault}
    {first config : MasterDescription} {done : List MasterDescription}
    (follows : r.Follows middle name first (first.slaves.map (Entry.mk (some r.allocated))))
    (stops : middle.Stops after fault done config) : r.Stops after fault (first :: done) config := by
  have entries_eq : MasterDescription.entriesFrom r.allocated (first :: done) =
      first.slaves.map (Entry.mk (some r.allocated)) ++
        MasterDescription.entriesFrom middle.allocated done := by
    rw [MasterDescription.entriesFrom, follows.allocated_eq]
  have described : ∀ (id : ℤ) (entries : List Entry),
      Entry.describeAll id (middle.slave id) (MasterDescription.entriesFrom middle.allocated done ++ entries) =
        Entry.describeAll id (r.slave id)
          (MasterDescription.entriesFrom r.allocated (first :: done) ++ entries) := by
    intro id entries
    rw [entries_eq, List.append_assoc, Entry.describeAll_append id (r.slave id), ← follows.slaves]
  have number : middle.allocated + done.length = r.allocated + (first :: done).length := by
    rw [follows.allocated_eq, List.length_cons, Nat.add_assoc, Nat.add_comm 1]
  cases stops with
  | unnamed failed slaves =>
      apply Stops.unnamed failed
      intro id
      exact (slaves id).trans (by simpa only [List.append_nil] using described id [])
  | unlinked title failed slaves =>
      apply Stops.unlinked title failed
      intro id
      exact (slaves id).trans (by simpa only [List.append_nil] using described id [])
  | @slaves _ loaded _ title linked parted slaves failed =>
      apply Stops.slaves title linked (number ▸ parted)
      · intro id
        exact (slaves id).trans (described id loaded)
      · rw [entries_eq, List.append_assoc]
        exact failed.after follows.slaves

/-- Loading stops at the master that the fault comes from. -/
theorem addMasters_stops (configs : List MasterDescription) (r : Router)
    (closed : r.device.isOpen = false) {fault : Fault} (failed : (r.addMasters configs).1 = .error fault) :
    ∃ done config later, configs = done ++ config :: later ∧
      r.Stops (r.addMasters configs).2 fault done config := by
  induction configs generalizing r with
  | nil => cases failed
  | cons config configs ih =>
      cases title : config.name with
      | error cause =>
          simp only [addMasters, title] at failed ⊢
          cases failed
          exact ⟨[], config, configs, rfl, .unnamed title fun _ => rfl⟩
      | ok name =>
          rcases setMasterConfig_follows closed name config with ⟨_, follows⟩
          generalize described_eq :
            ((r.addMaster name).2.setMasterConfig r.allocated config.device).2 = described at follows
          rw [addMasters_cons closed title configs described_eq] at failed ⊢
          cases linked : (Device.new.setConfig config.device).1 with
          | error cause =>
              simp only [linked] at failed ⊢
              cases failed
              exact ⟨[], config, configs, rfl, .unlinked title linked follows.slaves⟩
          | ok _ =>
              simp only [linked] at failed ⊢
              rcases follows.addSlaves with ⟨loaded, rest, parted, added, complete, stops⟩
              generalize described.addSlaves r.allocated config.slaves = slaves at added complete stops failed
              rcases slaves with ⟨cause | ⟨⟩, after⟩
              · cases failed
                exact ⟨[], config, configs, rfl, .slaves title linked parted added.slaves (stops _ rfl)⟩
              · have all := complete rfl
                subst all
                rw [List.append_nil] at parted
                subst parted
                rcases ih after (added.isOpen_eq.trans closed) failed with
                  ⟨done, stopped, later, rfl, cause⟩
                exact ⟨config :: done, stopped, later, rfl, cause.after added⟩

/-- However a description of a closed router turns out, its slaves are what the descriptions up to the
fault say. Without a fault the names stand for new masters, each with its own device. -/
theorem loads_of_setConfig (closed : r.device.isOpen = false) (config : RouterDescription) :
    r.Loads (r.setConfig config).2 config.masters (r.setConfig config).1 ∧
      ∀ fault, (r.setConfig config).1 = .error fault →
        ((r.device.setConfig config.device).1 = .error fault ∧ (r.setConfig config).2.slave = r.slave) ∨
          ∃ done master later, config.masters = done ++ master :: later ∧
            r.Stops (r.setConfig config).2 fault done master := by
  have opened := setConfig_isOpen r.device config.device
  simp only [setConfig, setDeviceConfig]
  generalize r.device.setConfig config.device = run at opened
  rcases run with ⟨fault | ⟨⟩, device⟩
  · refine ⟨⟨⟨[], _, rfl, fun _ => rfl, fun failed => by cases failed⟩, fun failed => by cases failed⟩, ?_⟩
    intro cause failed
    cases failed
    exact .inl ⟨rfl, rfl⟩
  · have loads := addMasters_loads config.masters { r with device } (opened.trans closed)
    refine ⟨⟨loads.slaves, fun success =>
      ⟨(loads.complete success).masterPtr_eq, (loads.complete success).devices_eq,
        (loads.complete success).others, (loads.complete success).allocated_eq⟩⟩, ?_⟩
    intro fault failed
    rcases addMasters_stops config.masters { r with device } (opened.trans closed) failed with
      ⟨done, master, later, parted, stops⟩
    refine .inr ⟨done, master, later, parted, ?_⟩
    cases stops with
    | unnamed failed slaves => exact .unnamed failed slaves
    | unlinked title failed slaves => exact .unlinked title failed slaves
    | slaves title linked parted slaves failed => exact .slaves title linked parted slaves failed

/-- A slave is described under a master, and nothing that follows describes the slave again or gives the
name to another master. -/
structure Describes (configs : List MasterDescription) (name : String) (id : ℤ) (k : ℕ)
    (config : MasterDescription) : Prop where
  here : configs[k]? = some config
  title : config.name = .ok name
  slave : ∃ slave ∈ config.slaves, slave.id = .ok id
  lastMaster : ∀ other ∈ configs.drop (k + 1), other.name ≠ .ok name
  lastSlave : ∀ other ∈ configs.drop (k + 1), ∀ slave ∈ other.slaves, slave.id ≠ .ok id

theorem filter_entriesFrom (first : ℕ) {id : ℤ} {configs : List MasterDescription}
    (others : ∀ other ∈ configs, ∀ slave ∈ other.slaves, slave.id ≠ .ok id) :
    (MasterDescription.entriesFrom first configs).filter (Entry.names id) = [] := by
  induction configs generalizing first with
  | nil => rfl
  | cons config configs ih =>
      have own : (config.slaves.map (Entry.mk (some first))).filter (Entry.names id) = [] := by
        rw [List.filter_eq_nil_iff]
        rintro entry mem named
        rcases List.mem_map.mp mem with ⟨slave, member, rfl⟩
        have differs := others config List.mem_cons_self slave member
        simp only [Entry.names] at named
        split at named
        · next number =>
          rw [number, of_decide_eq_true named] at differs
          exact differs rfl
        · cases named
      rw [MasterDescription.entriesFrom, List.filter_append, own,
        ih (first + 1) fun other mem => others other (List.mem_cons_of_mem config mem), List.nil_append]

theorem namesFrom_of_others (first : ℕ) {name : String} {configs : List MasterDescription}
    (others : ∀ other ∈ configs, other.name ≠ .ok name) (masters : String → Option ℕ) :
    MasterDescription.namesFrom first configs masters name = masters name := by
  induction configs generalizing first masters with
  | nil => rfl
  | cons config configs ih =>
      rw [MasterDescription.namesFrom,
        ih (first + 1) fun other mem => others other (List.mem_cons_of_mem config mem)]
      cases title : config.name with
      | error fault => rfl
      | ok other =>
          apply Function.update_of_ne
          rintro rfl
          exact others config List.mem_cons_self title

/-- The descriptions of a slave end with one of the last master that describes it. -/
theorem Describes.entries {configs : List MasterDescription} {name : String} {id : ℤ} {k : ℕ}
    {config : MasterDescription} (describes : Describes configs name id k config) (first : ℕ) :
    ∃ named last, (MasterDescription.entriesFrom first configs).filter (Entry.names id) =
      named ++ [last] ∧ last.master = some (first + k) := by
  induction configs generalizing first k with
  | nil => cases describes.here
  | cons head configs ih =>
      rw [MasterDescription.entriesFrom, List.filter_append]
      cases k with
      | zero =>
          cases describes.here
          have last : ∀ other ∈ configs, ∀ slave ∈ other.slaves, slave.id ≠ .ok id :=
            describes.lastSlave
          rw [filter_entriesFrom (first + 1) last, List.append_nil]
          rcases describes.slave with ⟨slave, member, number⟩
          have mem : Entry.mk (some first) slave ∈
              (config.slaves.map (Entry.mk (some first))).filter (Entry.names id) := by
            rw [List.mem_filter]
            refine ⟨List.mem_map_of_mem member, ?_⟩
            simp only [Entry.names, number, decide_true]
          rcases List.eq_nil_or_concat ((config.slaves.map (Entry.mk (some first))).filter
            (Entry.names id)) with none | ⟨named, last, some⟩
          · rw [none] at mem
            cases mem
          · refine ⟨named, last, by rw [some, List.concat_eq_append], ?_⟩
            have kept : last ∈ (config.slaves.map (Entry.mk (Option.some first))).filter
                (Entry.names id) := by
              rw [some, List.concat_eq_append]
              exact List.mem_append_right _ (List.mem_singleton_self last)
            rcases List.mem_map.mp (List.mem_filter.mp kept).1 with ⟨_, _, rfl⟩
            rfl
      | succ k =>
          have later : Describes configs name id k config :=
            ⟨describes.here, describes.title, describes.slave, describes.lastMaster, describes.lastSlave⟩
          rcases ih later (first + 1) with ⟨named, last, parted, master⟩
          refine ⟨_ ++ named, last, by rw [parted, List.append_assoc], ?_⟩
          rw [master, Nat.add_right_comm, Nat.add_assoc]

theorem Describes.names {configs : List MasterDescription} {name : String} {id : ℤ} {k : ℕ}
    {config : MasterDescription} (describes : Describes configs name id k config) (first : ℕ)
    (masters : String → Option ℕ) :
    MasterDescription.namesFrom first configs masters name = some (first + k) := by
  induction configs generalizing first k masters with
  | nil => cases describes.here
  | cons head configs ih =>
      rw [MasterDescription.namesFrom]
      cases k with
      | zero =>
          cases describes.here
          have last : ∀ other ∈ configs, other.name ≠ .ok name := describes.lastMaster
          rw [namesFrom_of_others (first + 1) last, describes.title]
          exact Function.update_self ..
      | succ k =>
          have later : Describes configs name id k config :=
            ⟨describes.here, describes.title, describes.slave, describes.lastMaster, describes.lastSlave⟩
          rw [ih later (first + 1), Nat.add_right_comm, Nat.add_assoc]

/-- A slave of a description that was loaded points to the master under whose name it was described. -/
theorem routed_of_setConfig (closed : r.device.isOpen = false) {config : RouterDescription}
    (success : (r.setConfig config).1 = .ok ()) {name : String} {id : ℤ} {k : ℕ}
    {master : MasterDescription} (describes : Describes config.masters name id k master) :
    ∃ slv mb, (r.setConfig config).2.slave id = some slv ∧ slv.id = id ∧ slv.dev = some mb ∧
      (r.setConfig config).2.masterPtr name = some mb ∧
      (r.setConfig config).2.devices mb = (Device.new.setConfig master.device).2 := by
  have loads := (loads_of_setConfig closed config).1
  have complete := loads.complete success
  rcases loads.slaves with ⟨loaded, rest, parted, slaves, done⟩
  rw [done success, List.append_nil] at parted
  subst parted
  rcases describes.entries r.allocated with ⟨named, last, filtered, points⟩
  rcases Entry.describeAll_master filtered (r.slave id) with ⟨slv, described, dev_eq, id_eq⟩
  refine ⟨slv, r.allocated + k, (slaves id).trans described, id_eq, dev_eq.trans points, ?_,
    complete.devices_eq k master describes.here⟩
  rw [complete.masterPtr_eq, describes.names r.allocated r.masterPtr]

/-- A slave without settings or blocks. -/
def plainSlave (id : ℤ) : SlaveDescription where
  id := .ok id
  pduAddressing := .ok none
  blocks := fun slv => (.ok (), slv.map)

/-- A line with two slaves. -/
def hall : MasterDescription where
  name := .ok "hall"
  device := serialLine
  slaves := [plainSlave 3, plainSlave 1]

/-- Two lines, the second of which takes a slave over. -/
def twoLines : RouterDescription where
  device := serialLine
  masters :=
    [{ name := .ok "line", device := serialLine, slaves := [plainSlave 1, plainSlave 2] }, hall]

theorem loads_of_setConfig_twoLines :
    (create Device.new .none).Loads ((create Device.new .none).setConfig twoLines).2 twoLines.masters
      (.ok ()) :=
  (loads_of_setConfig rfl twoLines).1

theorem routed_of_setConfig_twoLines :
    ∃ slv mb, ((create Device.new .none).setConfig twoLines).2.slave 1 = some slv ∧ slv.id = 1 ∧
      slv.dev = some mb ∧
      ((create Device.new .none).setConfig twoLines).2.masterPtr "hall" = some mb ∧
      ((create Device.new .none).setConfig twoLines).2.devices mb =
        (Device.new.setConfig serialLine).2 := by
  have success : ((create Device.new .none).setConfig twoLines).1 = .ok () := rfl
  have describes : Describes twoLines.masters "hall" 1 1 hall :=
    ⟨rfl, rfl, ⟨plainSlave 1, by simp [hall], rfl⟩, by simp [twoLines], by simp [twoLines]⟩
  exact routed_of_setConfig rfl success describes

end Router

end Modbuspp
