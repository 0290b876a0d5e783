import Modbuspp.Router.OpenState
import Modbuspp.Server.Dispatch

/-!
# Routes

The route of a slave is the pointer to its master. A master that is added under a name in use takes the
place of the one before, which is destroyed, while the slaves keep their pointers.
-/

namespace Modbuspp

namespace Router

/-- A new router. -/
def create (device : Device) (errno : Errno) : Router where
  toServer := Server.create device (fun _ => Device.new) errno
  allocated := 0

/-- The calls that a router is built with. The name of a master and the number of a slave may be fields
that a JSON text does not have. -/
inductive Call where
  | setDeviceConfig (config : DeviceDescription)
  | addMaster (name : Except Fault String)
  | setMasterBackend (mb : ℕ) (link : Except Fault (NetLayer × Context))
  | setMasterConfig (mb : ℕ) (config : DeviceDescription)
  | addSlave (id : Except Fault ℤ) (master : Option ℕ)
  | setSlaveConfig (config : SlaveDescription)

/-- The router after a call, with its result. -/
def call (r : Router) : Call → Except Fault Unit × Router
  | .setDeviceConfig config => r.setDeviceConfig config
  | .addMaster (.error fault) => (.error fault, r)
  | .addMaster (.ok name) => ((r.addMaster name).1.map fun _ => (), (r.addMaster name).2)
  | .setMasterBackend mb link => r.setMasterBackend mb link
  | .setMasterConfig mb config => r.setMasterConfig mb config
  | .addSlave (.error fault) _ => (.error fault, r)
  | .addSlave (.ok id) master => r.addSlave id master
  | .setSlaveConfig config =>
      match config.id with
      | .error fault => (.error fault, r)
      | .ok id => r.setSlaveConfig id config

/-- A sequence of calls under way. One that throws ends it. -/
structure Loading where
  router : Router
  result : Except Fault Unit

namespace Loading

/-- Goes on with a call, unless one before it has thrown. -/
def next (l : Loading) (call : Call) : Loading :=
  match l.result with
  | .error _ => l
  | .ok () => { router := (l.router.call call).2, result := (l.router.call call).1 }

/-- The loading of a router before its first call. -/
def start (r : Router) : Loading := { router := r, result := .ok () }

end Loading

end Router

/-- The calls that a slave of a description makes, for the master with this number. -/
def SlaveDescription.calls (mb : ℕ) (config : SlaveDescription) : List Router.Call :=
  [.addSlave config.id (some mb), .setSlaveConfig config]

/-- The calls that a master of a description makes once it was added. -/
def MasterDescription.calls (mb : ℕ) (config : MasterDescription) : List Router.Call :=
  .addMaster config.name :: .setMasterConfig mb config.device ::
    config.slaves.flatMap (SlaveDescription.calls mb)

/-- The calls for masters that follow each other on the heap. -/
def MasterDescription.callsFrom : ℕ → List MasterDescription → List Router.Call
  | _, [] => []
  | mb, config :: rest => config.calls mb ++ callsFrom (mb + 1) rest

/-- The calls that the loading of a description makes. The first new master gets this number. -/
def RouterDescription.calls (mb : ℕ) (config : RouterDescription) : List Router.Call :=
  .setDeviceConfig config.device :: MasterDescription.callsFrom mb config.masters

namespace Router

/-- What a program does with a router that it builds. -/
inductive Action where
  | addMaster (name : String)
  | addMasterOn (name : String) (link : Except Fault (NetLayer × Context))
  | addSlave (id : ℤ) (master : Option ℕ)
  | setConfig (config : RouterDescription)

/-- The router after an action. -/
def perform (r : Router) : Action → Router
  | .addMaster name => (r.addMaster name).2
  | .addMasterOn name link => (r.addMasterOn name link).2
  | .addSlave id master => (r.addSlave id master).2
  | .setConfig config => (r.setConfig config).2

/-- The calls that an action makes. -/
def Action.calls (r : Router) : Action → List Call
  | .addMaster name => [.addMaster (.ok name)]
  | .addMasterOn name link => [.addMaster (.ok name), .setMasterBackend r.allocated link]
  | .addSlave id master => [.addSlave (.ok id) master]
  | .setConfig config => config.calls r.allocated

variable {r : Router}

namespace Loading

theorem foldl_of_error {l : Loading} {fault : Fault} (failed : l.result = .error fault)
    (calls : List Call) : calls.foldl next l = l := by
  induction calls with
  | nil => rfl
  | cons call calls ih =>
      have same : l.next call = l := by simp only [next, failed]
      rw [List.foldl_cons, same, ih]

theorem foldl_start_cons (r : Router) (call : Call) (calls : List Call) :
    (call :: calls).foldl next (start r) =
      match r.call call with
      | (.error fault, after) => { router := after, result := .error fault }
      | (.ok (), after) => calls.foldl next (start after) := by
  simp only [List.foldl_cons, start, next]
  rcases r.call call with ⟨_ | _, after⟩
  · exact foldl_of_error rfl calls
  · rfl

end Loading

theorem addSlave_allocated (r : Router) (id : ℤ) (master : Option ℕ) :
    (r.addSlave id master).2.allocated = r.allocated := rfl

theorem setSlaveConfig_allocated (r : Router) (id : ℤ) (config : SlaveDescription) :
    (r.setSlaveConfig id config).2.allocated = r.allocated := by
  simp only [setSlaveConfig]
  split <;> rfl

theorem addSlaves_allocated (mb : ℕ) (slaves : List SlaveDescription) (r : Router) :
    (r.addSlaves mb slaves).2.allocated = r.allocated := by
  induction slaves generalizing r with
  | nil => rfl
  | cons config rest ih =>
      simp only [addSlaves]
      split
      · rfl
      · next id _ =>
        have added := addSlave_allocated r id (some mb)
        split
        · next run =>
          rw [run] at added
          exact added
        · next after run =>
          rw [run] at added
          have configured := setSlaveConfig_allocated after id config
          split
          · next run =>
            rw [run] at configured
            exact configured.trans added
          · next run =>
            rw [run] at configured
            exact (ih _).trans (configured.trans added)

theorem addSlaves_eq (mb : ℕ) (slaves : List SlaveDescription) (r : Router) :
    (slaves.flatMap (SlaveDescription.calls mb)).foldl Loading.next (.start r) =
      { router := (r.addSlaves mb slaves).2, result := (r.addSlaves mb slaves).1 } := by
  induction slaves generalizing r with
  | nil => rfl
  | cons config rest ih =>
      simp only [List.flatMap_cons, SlaveDescription.calls, List.cons_append, List.nil_append,
        Loading.foldl_start_cons, call, addSlaves]
      cases number : config.id with
      | error fault => rfl
      | ok id =>
          simp only
          rcases r.addSlave id (some mb) with ⟨_ | _, after⟩
          · rfl
          · simp only
            rcases after.setSlaveConfig id config with ⟨_ | _, configured⟩
            · rfl
            · exact ih configured

theorem addMaster_fresh (r : Router) (name : String) :
    (∃ fault, r.addMaster name = (.error fault, r)) ∨
      ∃ after, r.addMaster name = (.ok r.allocated, after) ∧ after.allocated = r.allocated + 1 := by
  simp only [addMaster]
  split
  · exact Or.inl ⟨_, rfl⟩
  · exact Or.inr ⟨_, rfl, rfl⟩

theorem addMasters_eq (masters : List MasterDescription) (r : Router) :
    (MasterDescription.callsFrom r.allocated masters).foldl Loading.next (.start r) =
      { router := (r.addMasters masters).2, result := (r.addMasters masters).1 } := by
  induction masters generalizing r with
  | nil => rfl
  | cons config rest ih =>
      simp only [MasterDescription.callsFrom, MasterDescription.calls, List.cons_append,
        Loading.foldl_start_cons, call, addMasters]
      cases title : config.name with
      | error fault => rfl
      | ok name =>
          rcases r.addMaster_fresh name with ⟨fault, refused⟩ | ⟨added, run, more⟩
          · simp only [refused]
            rfl
          · simp only [run, Except.map]
            have kept : (added.setMasterConfig r.allocated config.device).2.allocated =
                added.allocated := rfl
            generalize added.setMasterConfig r.allocated config.device = configuring at kept
            rcases configuring with ⟨_ | _, configured⟩
            · rfl
            · simp only at kept
              have loaded := addSlaves_eq r.allocated config.slaves configured
              have slaves := addSlaves_allocated r.allocated config.slaves configured
              simp only
              rw [List.foldl_append, loaded]
              generalize configured.addSlaves r.allocated config.slaves = adding at slaves
              rcases adding with ⟨_ | _, after⟩
              · exact Loading.foldl_of_error rfl _
              · simp only at slaves ⊢
                rw [← more, ← kept, ← slaves]
                exact ih after

theorem setConfig_eq (r : Router) (config : RouterDescription) :
    (config.calls r.allocated).foldl Loading.next (.start r) =
      { router := (r.setConfig config).2, result := (r.setConfig config).1 } := by
  simp only [RouterDescription.calls, Loading.foldl_start_cons, call, setConfig]
  have kept : (r.setDeviceConfig config.device).2.allocated = r.allocated := rfl
  generalize r.setDeviceConfig config.device = run at kept
  rcases run with ⟨_ | _, after⟩
  · rfl
  · simp only at kept ⊢
    rw [← kept]
    exact addMasters_eq config.masters after

theorem perform_eq (r : Router) (action : Action) :
    r.perform action = ((action.calls r).foldl Loading.next (.start r)).router := by
  cases action with
  | addMaster name => rfl
  | addMasterOn name link =>
      simp only [perform, addMasterOn, Action.calls, Loading.foldl_start_cons, call]
      rcases r.addMaster_fresh name with ⟨fault, refused⟩ | ⟨after, run, _⟩
      · simp only [refused]
        rfl
      · simp only [run, Except.map]
        rcases after.setMasterBackend r.allocated link with ⟨_ | _, linked⟩ <;> rfl
  | addSlave id master => rfl
  | setConfig config => simp only [Action.calls, setConfig_eq, perform]

/-- The router has the master under some name. -/
def Owns (r : Router) (mb : ℕ) : Prop := ∃ name, (name, mb) ∈ r.master

/-- No route dangles. -/
def Connected (r : Router) : Prop :=
  ∀ id slv mb, r.slave id = some slv → slv.dev = some mb → r.Owns mb

/-- The router takes a slave of this number. -/
structure Takes (r : Router) (id : ℤ) : Prop where
  closed : r.device.isOpen = false
  valid : r.device.isValid = true
  accepts : r.device.ctx.accepts id = true

/-- No slave points to a master that the call replaces, and the call gives no slave a master that the router
does not own. -/
def Spares (r : Router) : Call → Prop
  | .addMaster (.ok name) => r.device.isOpen = false →
      ∀ id slv mb, r.slave id = some slv → slv.dev = some mb → (name, mb) ∉ r.master
  | .addSlave (.ok id) (some mb) => r.Takes id → r.Owns mb
  | _ => True

/-- After the call, every slave of the router points to a master that it has. -/
def Loading.Connects (l : Loading) (call : Call) : Prop := (l.next call).router.Connected

/-- The call spares the routes, if it is made at all. -/
def Loading.Spares (l : Loading) (call : Call) : Prop := l.result = .ok () → l.router.Spares call

/-- Every route is connected after each call of an action. -/
def Connects (r : Router) (action : Action) : Prop :=
  Process.Along Loading.next Loading.Connects (.start r) (action.calls r)

/-- Every call of an action spares the routes. -/
def SparesRoutes (r : Router) (action : Action) : Prop :=
  Process.Along Loading.next Loading.Spares (.start r) (action.calls r)

/-- The invariant: each master is another object, created before. -/
structure Registered (r : Router) : Prop where
  connected : r.Connected
  below : ∀ mb, r.Owns mb → mb < r.allocated
  unique : ∀ {name other : String} {mb : ℕ}, (name, mb) ∈ r.master → (other, mb) ∈ r.master →
    name = other

/-- The routes of two routers are the same. -/
structure SameRoutes (r after : Router) : Prop where
  master_eq : after.master = r.master
  allocated_eq : after.allocated = r.allocated
  dev_eq : ∀ id, (after.slave id).map (fun slv => slv.dev) = (r.slave id).map fun slv => slv.dev

variable {after : Router} {name : String} {id : ℤ} {mb : ℕ}

theorem SameRoutes.refl (r : Router) : r.SameRoutes r := ⟨rfl, rfl, fun _ => rfl⟩

theorem connected_iff : r.Connected ↔
    ∀ id mb, (r.slave id).map (fun slv => slv.dev) = some (some mb) → r.Owns mb := by
  constructor
  · intro connected id mb found
    rcases Option.map_eq_some_iff.mp found with ⟨slv, registered, dev⟩
    exact connected id slv mb registered dev
  · intro connected id slv mb registered dev
    exact connected id mb (by rw [registered, Option.map_some, dev])

theorem SameRoutes.registered (same : r.SameRoutes after) (registered : r.Registered) :
    after.Registered := by
  refine ⟨?_, ?_, ?_⟩
  · rw [connected_iff]
    intro id mb found
    rw [same.dev_eq] at found
    simp only [Owns, same.master_eq]
    exact connected_iff.mp registered.connected id mb found
  · intro mb owns
    simp only [Owns, same.master_eq] at owns
    rw [same.allocated_eq]
    exact registered.below mb owns
  · intro name other mb
    rw [same.master_eq]
    exact registered.unique

theorem setSlaveConfig_sameRoutes (r : Router) (id : ℤ) (config : SlaveDescription) :
    r.SameRoutes (r.setSlaveConfig id config).2 := by
  simp only [setSlaveConfig]
  split
  · exact SameRoutes.refl r
  · next slv registered =>
    refine ⟨rfl, rfl, ?_⟩
    intro other
    have dev : (slv.setConfig id config).2.dev = slv.dev := by
      simp only [BufferedSlave.setConfig]
      split <;> rfl
    simp only [Function.update_apply]
    split
    · next same => rw [same, registered, Option.map_some, Option.map_some, dev]
    · rfl

theorem addSlave_of_not_takes (refused : ¬r.Takes id) (master : Option ℕ) :
    r.SameRoutes (r.addSlave id master).2 := by
  simp only [addSlave, Server.addSlave]
  split
  · exact SameRoutes.refl r
  · next closed =>
    split
    · exact SameRoutes.refl r
    · next backend found =>
      have valid : r.device.isValid = true := by simp only [Device.isValid, found, Option.isSome_some]
      cases accepts : r.device.ctx.accepts id with
      | false =>
          simp only [Context.setSlave, accepts, Bool.false_eq_true, if_false]
          exact SameRoutes.refl r
      | true => exact absurd ⟨Bool.eq_false_iff.mpr closed, valid, accepts⟩ refused

theorem addSlave_of_takes (takes : r.Takes id) (master : Option ℕ) :
    (r.addSlave id master).2.master = r.master ∧ (r.addSlave id master).2.allocated = r.allocated ∧
      ∀ other, ((r.addSlave id master).2.slave other).map (fun slv => slv.dev) =
        if other = id then some master else (r.slave other).map fun slv => slv.dev := by
  rcases Option.isSome_iff_exists.mp takes.valid with ⟨backend, found⟩
  simp only [addSlave, Server.addSlave, Context.setSlave, takes.closed, takes.accepts, found,
    Bool.false_eq_true, if_false, if_true, true_and]
  intro other
  rw [Function.update_apply]
  split
  · cases r.slave id <;> rfl
  · rfl

/-- Adding a slave keeps the routes when its master is owned. -/
theorem addSlave_registered (registered : r.Registered) (takes : r.Takes id) {master : Option ℕ}
    (owned : ∀ mb, master = some mb → r.Owns mb) : (r.addSlave id master).2.Registered := by
  rcases addSlave_of_takes takes master with ⟨master_eq, allocated_eq, dev_eq⟩
  refine ⟨?_, ?_, ?_⟩
  · rw [connected_iff]
    intro other mb found
    rw [dev_eq] at found
    simp only [Owns, master_eq]
    split at found
    · exact owned mb (Option.some.inj found)
    · exact connected_iff.mp registered.connected other mb found
  · intro mb owns
    simp only [Owns, master_eq] at owns
    rw [allocated_eq]
    exact registered.below mb owns
  · intro name other mb
    rw [master_eq]
    exact registered.unique

/-- The masters after one was added to a closed router. -/
theorem mem_addMaster (closed : r.device.isOpen = false) {other : String} :
    (other, mb) ∈ (r.addMaster name).2.master ↔
      (other = name ∧ mb = r.allocated) ∨ ((other, mb) ∈ r.master ∧ other ≠ name) := by
  simp only [addMaster, closed, Bool.false_eq_true, if_false, List.mem_orderedInsert, List.mem_filter,
    Prod.mk.injEq, ne_eq, decide_not, Bool.not_eq_true', decide_eq_false_iff_not]

theorem addMaster_rest (closed : r.device.isOpen = false) (name : String) :
    (r.addMaster name).2.slave = r.slave ∧ (r.addMaster name).2.allocated = r.allocated + 1 := by
  simp only [addMaster, closed, Bool.false_eq_true, if_false, and_self]

/-- The router owns what it owned before, except for the master it has replaced, and the new master. -/
theorem owns_addMaster_iff (registered : r.Registered) (closed : r.device.isOpen = false) :
    (r.addMaster name).2.Owns mb ↔ mb = r.allocated ∨ (r.Owns mb ∧ (name, mb) ∉ r.master) := by
  constructor
  · rintro ⟨other, mem⟩
    rcases (mem_addMaster closed).mp mem with ⟨_, fresh⟩ | ⟨old, ne⟩
    · exact Or.inl fresh
    · refine Or.inr ⟨⟨other, old⟩, ?_⟩
      intro replaced
      exact ne (registered.unique old replaced)
  · rintro (fresh | ⟨⟨other, old⟩, kept⟩)
    · exact ⟨name, (mem_addMaster closed).mpr (Or.inl ⟨rfl, fresh⟩)⟩
    · refine ⟨other, (mem_addMaster closed).mpr (Or.inr ⟨old, ?_⟩)⟩
      rintro rfl
      exact kept old

theorem addMaster_registered (registered : r.Registered) (closed : r.device.isOpen = false)
    (connected : (r.addMaster name).2.Connected) : (r.addMaster name).2.Registered := by
  rcases addMaster_rest closed name with ⟨_, allocated_eq⟩
  refine ⟨connected, ?_, ?_⟩
  · intro mb owns
    rw [allocated_eq]
    rcases (owns_addMaster_iff registered closed).mp owns with fresh | ⟨old, _⟩
    · omega
    · have := registered.below mb old
      omega
  · intro first second mb one other
    rcases (mem_addMaster closed).mp one with ⟨rfl, fresh⟩ | ⟨old, ne⟩ <;>
      rcases (mem_addMaster closed).mp other with ⟨rfl, same⟩ | ⟨older, differs⟩
    · rfl
    · have := registered.below mb ⟨_, older⟩
      omega
    · have := registered.below mb ⟨_, old⟩
      omega
    · exact registered.unique old older

/-- Adding a master spares the routes unless it replaces the master of a slave. -/
theorem addMaster_connected_iff (registered : r.Registered) (closed : r.device.isOpen = false) :
    (r.addMaster name).2.Connected ↔ r.Spares (.addMaster (.ok name)) := by
  rcases addMaster_rest closed name with ⟨slave_eq, _⟩
  constructor
  · intro connected _ id slv mb found dev
    have owns := connected id slv mb (by rw [slave_eq, found]) dev
    rcases (owns_addMaster_iff registered closed).mp owns with fresh | ⟨_, kept⟩
    · have := registered.below mb (registered.connected id slv mb found dev)
      omega
    · exact kept
  · intro spares id slv mb found dev
    rw [slave_eq] at found
    apply (owns_addMaster_iff registered closed).mpr
    exact Or.inr ⟨registered.connected id slv mb found dev, spares closed id slv mb found dev⟩

theorem spares_addSlave_iff (takes : r.Takes id) {master : Option ℕ} :
    r.Spares (.addSlave (.ok id) master) ↔ ∀ mb, master = some mb → r.Owns mb := by
  cases master with
  | none => exact iff_of_true trivial (fun mb none_eq => by cases none_eq)
  | some mb =>
      constructor
      · rintro spares other same
        cases same
        exact spares takes
      · exact fun owned _ => owned mb rfl

/-- Adding a slave spares the routes unless its master is one that the router does not own. -/
theorem addSlave_connected_iff (registered : r.Registered) (takes : r.Takes id) {master : Option ℕ} :
    (r.addSlave id master).2.Connected ↔ ∀ mb, master = some mb → r.Owns mb := by
  constructor
  · rintro connected mb rfl
    rcases addSlave_of_takes takes (some mb) with ⟨master_eq, _, dev_eq⟩
    have found := dev_eq id
    rw [if_pos rfl] at found
    have owns := connected_iff.mp connected id mb found
    simp only [Owns, master_eq] at owns
    exact owns
  · intro owned
    exact (addSlave_registered registered takes owned).connected

/-- A call that spares the routes keeps them, and no other call does. -/
theorem call_connected_iff (registered : r.Registered) (c : Call) :
    ((r.call c).2.Connected ↔ r.Spares c) ∧ (r.Spares c → (r.call c).2.Registered) := by
  have same : r.SameRoutes (r.call c).2 → r.Spares c →
      ((r.call c).2.Connected ↔ r.Spares c) ∧ (r.Spares c → (r.call c).2.Registered) := by
    intro routes spares
    have kept := routes.registered registered
    exact ⟨iff_of_true kept.connected spares, fun _ => kept⟩
  cases c with
  | setDeviceConfig config => exact same ⟨rfl, rfl, fun _ => rfl⟩ trivial
  | setMasterBackend mb link => exact same ⟨rfl, rfl, fun _ => rfl⟩ trivial
  | setMasterConfig mb config => exact same ⟨rfl, rfl, fun _ => rfl⟩ trivial
  | setSlaveConfig config =>
      refine same ?_ trivial
      simp only [call]
      split
      · exact SameRoutes.refl r
      · exact setSlaveConfig_sameRoutes r _ config
  | addMaster name =>
      cases name with
      | error fault => exact same (SameRoutes.refl r) trivial
      | ok name =>
          cases closed : r.device.isOpen with
          | true =>
              refine same ?_ ?_
              · simp only [call, addMaster, closed, if_true]
                exact SameRoutes.refl r
              · intro contrary
                rw [closed] at contrary
                cases contrary
          | false =>
              have connects : (r.addMaster name).2.Connected ↔ _ :=
                addMaster_connected_iff registered closed
              exact ⟨connects, fun spares => addMaster_registered registered closed (connects.mpr spares)⟩
  | addSlave id master =>
      cases id with
      | error fault => exact same (SameRoutes.refl r) (by cases master <;> trivial)
      | ok id =>
          by_cases takes : r.Takes id
          · rw [spares_addSlave_iff takes]
            exact ⟨addSlave_connected_iff registered takes, addSlave_registered registered takes⟩
          · refine same (addSlave_of_not_takes takes master) ?_
            cases master with
            | none => trivial
            | some mb => exact fun contrary => absurd contrary takes

theorem connects_iff (registered : r.Registered) (action : Action) :
    (r.Connects action ↔ r.SparesRoutes action) ∧
      (r.SparesRoutes action → (r.perform action).Registered) := by
  have step : ∀ {l : Loading} {c : Call}, l.router.Registered → l.Spares c →
      (l.next c).router.Registered := by
    intro l c registered spares
    simp only [Loading.next]
    split
    · exact registered
    · next ongoing => exact (call_connected_iff registered c).2 (spares ongoing)
  have agree : ∀ {l : Loading} {c : Call}, l.router.Registered → (l.Connects c ↔ l.Spares c) := by
    intro l c registered
    simp only [Loading.Connects, Loading.Spares, Loading.next]
    cases ended : l.result with
    | error fault => exact iff_of_true registered.connected (fun ongoing => by cases ongoing)
    | ok _ => exact (call_connected_iff registered c).1.trans ⟨fun spares _ => spares, fun spares => spares rfl⟩
  refine ⟨Process.along_iff_of_invariant (fun l : Loading => l.router.Registered) step agree registered, ?_⟩
  intro spares
  rw [perform_eq]
  exact Process.Along.foldl_invariant (fun l : Loading => l.router.Registered) step registered spares

theorem create_registered (device : Device) (errno : Errno) : (create device errno).Registered := by
  refine ⟨?_, ?_, ?_⟩
  · intro id slv mb registered
    cases registered
  · rintro mb ⟨name, mem⟩
    cases mem
  · intro name other mb mem
    cases mem

/-- However a new router is built, its routes are connected after each call exactly when each call spares
them. -/
theorem connects_along_iff (device : Device) (errno : Errno) (actions : List Action) :
    Process.Along perform Connects (create device errno) actions ↔
      Process.Along perform SparesRoutes (create device errno) actions := by
  apply Process.along_iff_of_invariant Registered
  · intro r action registered
    exact (connects_iff registered action).2
  · intro r action registered
    exact (connects_iff registered action).1
  · exact create_registered device errno

/-- A serial line as a JSON text describes it. -/
def serialLine : DeviceDescription where
  fields := .ok ()
  link := .ok (.rtu, Context.silent)
  recoveryLink := none
  options := .ok ()

/-- A description in which the name of a master occurs twice. -/
def twice : RouterDescription where
  device := serialLine
  masters :=
    [{ name := .ok "line"
       device := serialLine
       slaves := [{ id := .ok 1, pduAddressing := .ok none, blocks := fun slv => (.ok (), slv.map) }] },
      { name := .ok "line", device := serialLine, slaves := [] }]

/-- The second master of a name leaves the slave of the first with a pointer to it, whether the program adds
them or a JSON text describes them. -/
theorem replaced_master_dangles :
    ¬Process.Along perform Connects (create (.create .rtu Context.silent) .none)
        [.addMaster "line", .addSlave 1 (some 0), .addMaster "line"] ∧
      ¬Process.Along perform Connects (create Device.new .none) [.setConfig twice] := by
  constructor
  · rintro ⟨_, _, ⟨connected, _⟩, _⟩
    rcases connected 1 _ 0 rfl rfl with ⟨name, mem⟩
    cases List.mem_singleton.mp mem
  · rintro ⟨⟨_, _, _, _, _, connected, _⟩, _⟩
    rcases connected 1 _ 0 rfl rfl with ⟨name, mem⟩
    cases List.mem_singleton.mp mem

theorem setBackend_isOpen (dev : Device) (link : Except Fault (NetLayer × Context)) :
    (dev.setBackend link).2.isOpen = dev.isOpen := by
  simp only [Device.setBackend]
  split
  · rfl
  · split <;> rfl

theorem setConfig_isOpen (dev : Device) (config : DeviceDescription) :
    (dev.setConfig config).2.isOpen = dev.isOpen := by
  have same := setBackend_isOpen dev config.link
  simp only [Device.setConfig]
  rcases config.fields with _ | _
  · rfl
  simp only
  generalize dev.setBackend config.link = run at same
  rcases run with ⟨_ | set, after⟩
  · exact same
  · cases set <;> exact same

theorem Shut.update (shut : r.Shut) {dev : Device} (same : dev.isOpen = (r.devices mb).isOpen) :
    Router.Shut { r with devices := Function.update r.devices mb dev } := by
  refine ⟨shut.isOpen_eq, ?_⟩
  intro m mem
  simp only [Function.update_apply]
  split
  · next known =>
    rw [same, ← known]
    exact shut.masters m mem
  · exact shut.masters m mem

theorem addMaster_shut (shut : r.Shut) (name : String) : (r.addMaster name).2.Shut := by
  have closed := shut.isOpen_eq
  have device_eq : (r.addMaster name).2.device = r.device := by
    simp only [addMaster, closed, Bool.false_eq_true, if_false]
  have devices_eq : (r.addMaster name).2.devices =
      Function.update r.devices r.allocated Device.new := by
    simp only [addMaster, closed, Bool.false_eq_true, if_false]
  refine ⟨by rw [device_eq, closed], ?_⟩
  rintro ⟨other, mb⟩ mem
  rw [devices_eq, Function.update_apply]
  rcases (mem_addMaster closed).mp mem with ⟨_, rfl⟩ | ⟨old, _⟩
  · rw [if_pos rfl]
    rfl
  · split
    · rfl
    · exact shut.masters (other, mb) old

theorem addSlave_shut (shut : r.Shut) (id : ℤ) (master : Option ℕ) :
    (r.addSlave id master).2.Shut := by
  have links : ∃ ctx slave, (r.addSlave id master).2 =
      { r with device := { r.device with ctx }, slave } := by
    simp only [addSlave, Server.addSlave]
    split
    · exact ⟨_, _, rfl⟩
    · split
      · exact ⟨_, _, rfl⟩
      · split <;> exact ⟨_, _, rfl⟩
  rcases links with ⟨ctx, slave, run⟩
  rw [run]
  exact ⟨shut.isOpen_eq, shut.masters⟩

theorem call_shut (shut : r.Shut) (c : Call) : (r.call c).2.Shut := by
  cases c with
  | setDeviceConfig config => exact ⟨(setConfig_isOpen _ _).trans shut.isOpen_eq, shut.masters⟩
  | setMasterBackend mb link => exact shut.update (setBackend_isOpen _ link)
  | setMasterConfig mb config => exact shut.update (setConfig_isOpen _ config)
  | addMaster name =>
      cases name with
      | error fault => exact shut
      | ok name => exact addMaster_shut shut name
  | addSlave id master =>
      cases id with
      | error fault => exact shut
      | ok id => exact addSlave_shut shut id master
  | setSlaveConfig config =>
      have links : ∀ id, (r.setSlaveConfig id config).2.Shut := by
        intro id
        simp only [setSlaveConfig]
        split <;> exact ⟨shut.isOpen_eq, shut.masters⟩
      simp only [call]
      split
      · exact shut
      · exact links _

/-- However a new router is built, it is closed with its masters. -/
theorem built_shut {device : Device} (closed : device.isOpen = false) (errno : Errno)
    (actions : List Action) : (actions.foldl perform (create device errno)).Shut := by
  have step : ∀ {l : Loading} {c : Call}, l.router.Shut → (l.next c).router.Shut := by
    intro l c shut
    simp only [Loading.next]
    split
    · exact shut
    · exact call_shut shut c
  have calls : ∀ (calls : List Call) {l : Loading}, l.router.Shut →
      (calls.foldl Loading.next l).router.Shut := by
    intro calls
    induction calls with
    | nil => exact fun shut => shut
    | cons c calls ih => exact fun shut => ih (step shut)
  have run : ∀ (actions : List Action) {r : Router}, r.Shut → (actions.foldl perform r).Shut := by
    intro actions
    induction actions with
    | nil => exact fun shut => shut
    | cons action actions ih =>
        intro r shut
        apply ih
        rw [perform_eq]
        exact calls _ shut
  exact run actions ⟨closed, fun _ mem => by cases mem⟩

end Router

end Modbuspp
