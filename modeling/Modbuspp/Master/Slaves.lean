import Modbuspp.Library.Process
import Modbuspp.Master.Basic

/-!
# The slaves of a master

A slave that is registered stays so, with its number, and the default slave is there as soon as the master
has its backend. Though all slaves use one context, each gets the answers that it would get if the master
had no other but the one of broadcasts.
-/

namespace Modbuspp

namespace Master

/-- What a program does with the slaves of a master. -/
inductive Use where
  | addSlave (slaveAddr : ℤ)
  | setPduAddressing (slaveAddr : ℤ) (pdu : Bool)
  | transfer (slaveAddr : ℤ) (transfer : Transfer)

/-- What a call answers: the fault that it throws, or the number of data, with those that were received. -/
abbrev Answer := Except Fault (ℤ × Option Payload)

/-- A call on the slaves of a master, with its answer. -/
def use (m : Master) : Use → Answer × Master
  | .addSlave slaveAddr =>
      ((m.addSlave slaveAddr).1.map fun _ => (0, none), (m.addSlave slaveAddr).2)
  | .setPduAddressing slaveAddr pdu =>
      match m.slaveAt slaveAddr with
      | .error fault => (.error fault, m)
      | .ok s =>
          let s := { s with pduAddressing := pdu }
          (.ok (0, none), { m with slave := Function.update m.slave (m.defaultSlave slaveAddr) (some s) })
  | .transfer slaveAddr transfer =>
      match m.slaveAt slaveAddr with
      | .error fault => (.error fault, m)
      | .ok s =>
          let (answer, device) := s.operate (some m.device) transfer
          (answer, { m with device := device.getD m.device })

/-- The calls of a program that builds and uses a master. -/
inductive Action where
  | setBackend (link : Except Fault (NetLayer × Context))
  | setConfig (config : MasterDescription)
  | setRecoveryLink (recovery : Bool)
  | open (success : Bool)
  | close
  | use (use : Use)

/-- The master after a call. -/
def perform (m : Master) : Action → Master
  | .setBackend link => (m.setBackend link).2
  | .setConfig config => (m.setConfig config).2
  | .setRecoveryLink recovery => (m.setRecoveryLink recovery).2
  | .open success => { m with device := (m.device.open success).2 }
  | .close => { m with device := m.device.close }
  | .use use => (m.use use).2

/-- The slaves are those of the master, each at its number, which libmodbus accepts. -/
def Registered (m : Master) : Prop :=
  ∀ slaveAddr s, m.slave slaveAddr = some s →
    s.id = slaveAddr ∧ s.dev = some m.self ∧ m.device.isValid = true ∧
      m.device.ctx.accepts slaveAddr = true

/-- The slave that negative numbers stand for is there, unless libmodbus refuses its number. -/
def HasOwn (m : Master) : Prop :=
  m.device.isValid = true → m.device.ctx.accepts (ownSlave m.device.net) = true →
    m.hasSlave (ownSlave m.device.net) = true

/-- What later calls keep: the backend, and the slaves with their numbers. -/
structure Extends (m after : Master) : Prop where
  self_eq : after.self = m.self
  backend_eq : m.device.isValid = true → after.device.backend = m.device.backend
  accepts_eq : m.device.isValid = true → after.device.ctx.accepts = m.device.ctx.accepts
  slaves : ∀ slaveAddr s, m.slave slaveAddr = some s →
    ∃ same, after.slave slaveAddr = some same ∧ same.id = s.id ∧ same.dev = s.dev

variable {m between after : Master}

theorem Extends.refl (m : Master) : m.Extends m :=
  ⟨rfl, fun _ => rfl, fun _ => rfl, fun _ s found => ⟨s, found, rfl, rfl⟩⟩

theorem Extends.isValid (extends_ : m.Extends after) (valid : m.device.isValid = true) :
    after.device.isValid = true := by
  simp only [Device.isValid, extends_.backend_eq valid]
  exact valid

theorem Extends.trans (first : m.Extends between) (rest : between.Extends after) : m.Extends after where
  self_eq := rest.self_eq.trans first.self_eq
  backend_eq valid := (rest.backend_eq (first.isValid valid)).trans (first.backend_eq valid)
  accepts_eq valid := (rest.accepts_eq (first.isValid valid)).trans (first.accepts_eq valid)
  slaves := by
    intro slaveAddr s found
    rcases first.slaves slaveAddr s found with ⟨same, kept, id_eq, dev_eq⟩
    rcases rest.slaves slaveAddr same kept with ⟨last, still, id_eq', dev_eq'⟩
    exact ⟨last, still, id_eq'.trans id_eq, dev_eq'.trans dev_eq⟩

/-- A call on a master whose slaves are registered. -/
structure Keeps (m after : Master) : Prop where
  extends_ : m.Extends after
  registered : after.Registered
  hasOwn : m.HasOwn → after.HasOwn

theorem Keeps.refl (registered : m.Registered) : m.Keeps m := ⟨.refl m, registered, id⟩

theorem Keeps.trans (first : m.Keeps between) (rest : between.Keeps after) : m.Keeps after :=
  ⟨first.extends_.trans rest.extends_, rest.registered, fun own => rest.hasOwn (first.hasOwn own)⟩

/-- A device with the same backend. -/
theorem keeps_of_device (registered : m.Registered) {device : Device}
    (backend_eq : device.backend = m.device.backend)
    (accepts_eq : device.ctx.accepts = m.device.ctx.accepts) : m.Keeps { m with device } := by
  have valid_eq : device.isValid = m.device.isValid := by simp only [Device.isValid, backend_eq]
  have net_eq : device.net = m.device.net := by simp only [Device.net, backend_eq]
  refine ⟨⟨rfl, fun _ => backend_eq, fun _ => accepts_eq, fun _ s found => ⟨s, found, rfl, rfl⟩⟩, ?_, ?_⟩
  · intro slaveAddr s found
    rw [valid_eq, accepts_eq]
    exact registered slaveAddr s found
  · intro own
    simp only [HasOwn, valid_eq, accepts_eq, net_eq, hasSlave]
    exact own

/-- A slave takes a free number, or the place of the same slave. -/
theorem keeps_of_slave (registered : m.Registered) {slaveAddr : ℤ} {s : Slave} (id_eq : s.id = slaveAddr)
    (dev_eq : s.dev = some m.self) (valid : m.device.isValid = true)
    (accepted : m.device.ctx.accepts slaveAddr = true) :
    m.Keeps { m with slave := Function.update m.slave slaveAddr (some s) } := by
  refine ⟨⟨rfl, fun _ => rfl, fun _ => rfl, ?_⟩, ?_, ?_⟩
  · intro other before found
    by_cases same : other = slaveAddr
    · subst same
      rcases registered other before found with ⟨id_before, dev_before, _⟩
      exact ⟨s, Function.update_self .., id_eq.trans id_before.symm, dev_eq.trans dev_before.symm⟩
    · exact ⟨before, (Function.update_of_ne same ..).trans found, rfl, rfl⟩
  · intro other after found
    by_cases same : other = slaveAddr
    · subst same
      cases (Function.update_self ..).symm.trans found
      exact ⟨id_eq, dev_eq, valid, accepted⟩
    · exact registered other after ((Function.update_of_ne same ..).symm.trans found)
  · intro own isValid accepts
    have before := own isValid accepts
    simp only [hasSlave, Function.update_apply] at before ⊢
    split
    · rfl
    · exact before

/-- A slave is added or found, unless libmodbus refuses its number. -/
theorem addSlave_cases (m : Master) (slaveAddr : ℤ) :
    (∃ fault, m.addSlave slaveAddr = (.error fault, m) ∧
      ¬(m.device.isValid = true ∧ m.device.ctx.accepts slaveAddr = true)) ∨
      m.device.isValid = true ∧ m.device.ctx.accepts slaveAddr = true ∧
        ∃ s, s = (m.slave slaveAddr).getD
            { pduAddressing := false, id := slaveAddr, dev := some m.self } ∧
          m.addSlave slaveAddr = (.ok (), { m with
            device := { m.device with ctx := { m.device.ctx with slave := slaveAddr } }
            slave := Function.update m.slave slaveAddr (some s) }) := by
  by_cases valid : m.device.isValid = true
  · by_cases accepted : m.device.ctx.accepts slaveAddr = true
    · refine .inr ⟨valid, accepted, _, rfl, ?_⟩
      simp only [addSlave, Context.setSlave, if_pos valid, if_pos accepted, if_true]
      cases m.slave slaveAddr <;> rfl
    · refine .inl ⟨.invalidArgument
        ("Unable to add slave[" ++ toString slaveAddr ++ "]\nInvalid argument"), ?_,
          fun contrary => accepted contrary.2⟩
      simp only [addSlave, Context.setSlave, if_pos valid, if_neg accepted, Bool.false_eq_true, if_false]
  · refine .inl ⟨.runtimeError "Backend not set !", ?_, fun contrary => valid contrary.1⟩
    simp only [addSlave, if_neg valid]

theorem addSlave_keeps (registered : m.Registered) (slaveAddr : ℤ) :
    m.Keeps (m.addSlave slaveAddr).2 := by
  rcases m.addSlave_cases slaveAddr with ⟨fault, run, _⟩ | ⟨valid, accepted, s, s_eq, run⟩
  · rw [run]
    exact .refl registered
  · rw [run]
    have placed : s.id = slaveAddr ∧ s.dev = some m.self := by
      cases found : m.slave slaveAddr with
      | none =>
          rw [s_eq, found]
          exact ⟨rfl, rfl⟩
      | some before =>
          rcases registered slaveAddr before found with ⟨id_eq, dev_eq, _⟩
          rw [s_eq, found]
          exact ⟨id_eq, dev_eq⟩
    have switched : m.Keeps { m with
        device := { m.device with ctx := { m.device.ctx with slave := slaveAddr } } } :=
      keeps_of_device registered rfl rfl
    exact switched.trans (keeps_of_slave switched.registered placed.1 placed.2 valid accepted)

/-- The backend comes with the slave that negative numbers stand for. -/
theorem setBackend_keeps (registered : m.Registered) (link : Except Fault (NetLayer × Context)) :
    m.Keeps (m.setBackend link).2 := by
  simp only [setBackend, Device.setBackend]
  cases valid : m.device.isValid with
  | true => exact .refl registered
  | false =>
      have empty : ∀ slaveAddr, m.slave slaveAddr = none := by
        intro slaveAddr
        cases found : m.slave slaveAddr with
        | none => rfl
        | some s =>
            have contrary := (registered slaveAddr s found).2.2.1
            rw [valid] at contrary
            cases contrary
      cases link with
      | error fault => exact .refl registered
      | ok link =>
          rcases link with ⟨backend, ctx⟩
          simp only [Bool.false_eq_true, if_false]
          generalize start_eq : ({ m with
            device := { m.device with backend := some backend, ctx } } : Master) = start
          have start_registered : start.Registered := by
            intro slaveAddr s found
            subst start_eq
            rw [empty slaveAddr] at found
            cases found
          have start_extends : m.Extends start := by
            subst start_eq
            refine ⟨rfl, ?_, ?_, fun _ s found => ⟨s, found, rfl, rfl⟩⟩ <;>
              exact fun contrary => absurd (valid.symm.trans contrary) Bool.false_ne_true
          have net_eq : Device.net { m.device with backend := some backend, ctx } = start.device.net := by
            subst start_eq
            rfl
          rw [net_eq]
          have added := addSlave_keeps start_registered (ownSlave start.device.net)
          rcases start.addSlave_cases (ownSlave start.device.net) with
            ⟨fault, run, refused⟩ | ⟨_, accepted, s, _, run⟩
          · rw [run] at added ⊢
            refine ⟨start_extends.trans added.extends_, added.registered, fun _ => ?_⟩
            exact fun isValid accepts => absurd ⟨isValid, accepts⟩ refused
          · rw [run] at added ⊢
            refine ⟨start_extends.trans added.extends_, added.registered, fun _ _ _ => ?_⟩
            change (Function.update start.slave (ownSlave start.device.net) (some s)
              (ownSlave start.device.net)).isSome = true
            rw [Function.update_self]
            rfl

theorem slaveAt_eq_ok {slaveAddr : ℤ} {s : Slave} :
    m.slaveAt slaveAddr = .ok s ↔ m.slave (m.defaultSlave slaveAddr) = some s := by
  simp only [slaveAt, index]
  cases m.slave (m.defaultSlave slaveAddr) <;> simp

/-- A transfer changes the context only. -/
theorem operate_device (s : Slave) (device : Device) (transfer : Transfer) : ∃ ctx answer,
    s.operate (some device) transfer = (answer, some { device with ctx }) ∧
      ctx.accepts = device.ctx.accepts := by
  simp only [Slave.operate, Slave.exchange, Context.setSlave]
  split
  · split
    · exact ⟨_, _, rfl, rfl⟩
    · exact ⟨_, _, rfl, rfl⟩
  · exact ⟨device.ctx, _, rfl, rfl⟩

theorem use_keeps (registered : m.Registered) (use : Use) : m.Keeps (m.use use).2 := by
  cases use with
  | addSlave slaveAddr => exact addSlave_keeps registered slaveAddr
  | setPduAddressing slaveAddr pdu =>
      simp only [Master.use]
      cases found : m.slaveAt slaveAddr with
      | error fault => exact .refl registered
      | ok s =>
          rcases registered _ s (slaveAt_eq_ok.mp found) with ⟨id_eq, dev_eq, valid, accepted⟩
          exact keeps_of_slave registered id_eq dev_eq valid accepted
  | transfer slaveAddr transfer =>
      simp only [Master.use]
      cases m.slaveAt slaveAddr with
      | error fault => exact .refl registered
      | ok s =>
          rcases operate_device s m.device transfer with ⟨ctx, answer, run, accepts_eq⟩
          simp only [run]
          exact keeps_of_device registered rfl accepts_eq

theorem setSlaveConfig_keeps (registered : m.Registered) (id : ℤ) (config : SlaveDescription) :
    m.Keeps (m.setSlaveConfig id config).2 := by
  simp only [setSlaveConfig]
  cases found : m.slave id with
  | none => exact .refl registered
  | some s =>
      rcases registered id s found with ⟨_, dev_eq, valid, accepted⟩
      simp only [Slave.setConfig]
      cases config.pduAddressing with
      | error fault => exact keeps_of_slave registered rfl dev_eq valid accepted
      | ok addressing => exact keeps_of_slave registered rfl dev_eq valid accepted

theorem addSlaves_keeps (registered : m.Registered) (configs : List SlaveDescription) :
    m.Keeps (m.addSlaves configs).2 := by
  induction configs generalizing m with
  | nil => exact .refl registered
  | cons config rest ih =>
      simp only [addSlaves]
      cases config.id with
      | error fault => exact .refl registered
      | ok id =>
          have added := addSlave_keeps registered id
          simp only
          generalize m.addSlave id = adding at added ⊢
          rcases adding with ⟨_ | _, start⟩
          · exact added
          · have configured := setSlaveConfig_keeps added.registered id config
            simp only at added configured ⊢
            generalize start.setSlaveConfig id config = configuring at configured ⊢
            rcases configuring with ⟨_ | _, after⟩
            · exact added.trans configured
            · exact (added.trans configured).trans (ih configured.registered)

theorem setConfig_keeps (registered : m.Registered) (config : MasterDescription) :
    m.Keeps (m.setConfig config).2 := by
  have linked := setBackend_keeps registered config.device.link
  simp only [setConfig]
  rcases config.device.fields with _ | _
  · exact .refl registered
  simp only
  generalize m.setBackend config.device.link = setting at linked ⊢
  rcases setting with ⟨_ | set, after⟩
  · exact linked
  · cases set with
    | false => exact linked.trans (addSlaves_keeps linked.registered config.slaves)
    | true =>
        simp only at linked ⊢
        have recovers : after.Keeps { after with
            device := { after.device with
              recoveryLink := config.device.recoveryLink.getD after.device.recoveryLink } } :=
          keeps_of_device linked.registered rfl rfl
        cases config.device.options with
        | error fault => exact linked.trans recovers
        | ok _ =>
            exact (linked.trans recovers).trans (addSlaves_keeps recovers.registered config.slaves)

theorem perform_keeps (registered : m.Registered) (action : Action) : m.Keeps (m.perform action) := by
  cases action with
  | setBackend link => exact setBackend_keeps registered link
  | setConfig config => exact setConfig_keeps registered config
  | setRecoveryLink recovery =>
      simp only [perform, setRecoveryLink]
      split
      · exact keeps_of_device registered rfl rfl
      · exact .refl registered
  | «open» success =>
      simp only [perform, Device.open]
      split
      · exact keeps_of_device registered rfl rfl
      · exact .refl registered
  | close =>
      simp only [perform, Device.close]
      split
      · exact keeps_of_device registered rfl rfl
      · exact .refl registered
  | use use => exact use_keeps registered use

theorem run_keeps (registered : m.Registered) (actions : List Action) :
    m.Keeps (actions.foldl perform m) := by
  induction actions generalizing m with
  | nil => exact .refl registered
  | cons action actions ih =>
      have first := perform_keeps registered action
      exact first.trans (ih first.registered)

theorem create_registered (self : ℕ) : (create self).Registered ∧ (create self).HasOwn := by
  constructor
  · intro slaveAddr s found
    cases found
  · intro valid
    cases valid

/-- There is no slave at a number that libmodbus refuses. -/
theorem Keeps.absent_of_refused (keeps : m.Keeps after) (valid : m.device.isValid = true) {slaveAddr : ℤ}
    (refused : m.device.ctx.accepts slaveAddr = false) :
    after.hasSlave slaveAddr = false ∧ after.index slaveAddr = .error (.outOfRange "map::at") := by
  cases found : after.slave slaveAddr with
  | none => exact ⟨by simp only [hasSlave, found, Option.isSome_none], by simp only [index, found]⟩
  | some s =>
      have accepted := (keeps.registered slaveAddr s found).2.2.2
      rw [keeps.extends_.accepts_eq valid, refused] at accepted
      cases accepted

theorem slavePtr_eq (m : Master) (slaveAddr : ℤ) :
    m.slavePtr slaveAddr = m.slave (m.defaultSlave slaveAddr) := by
  cases found : m.slave (m.defaultSlave slaveAddr) <;> simp [slavePtr, hasSlave, found]

/-- In every run, the slaves of a master are its own and keep their numbers, whatever is called later. When
it has a backend, a negative number stands for the slave that was registered with it, except in `operator[]`,
which does not find a number that libmodbus refuses. -/
theorem registered_of_run (self : ℕ) (earlier later : List Action) :
    ∃ m after, earlier.foldl perform (create self) = m ∧ later.foldl perform m = after ∧
      m.Extends after ∧ after.Registered ∧
        (m.device.isValid = true → m.device.ctx.accepts (ownSlave m.device.net) = true →
          ∀ slaveAddr : ℤ, slaveAddr < 0 → ∃ s, after.slaveAt slaveAddr = .ok s ∧
            after.slavePtr slaveAddr = some s ∧ after.index (ownSlave m.device.net) = .ok s ∧
              s.id = ownSlave m.device.net ∧ s.dev = some self) ∧
        (m.device.isValid = true → ∀ slaveAddr : ℤ, m.device.ctx.accepts slaveAddr = false →
          after.hasSlave slaveAddr = false ∧
            after.index slaveAddr = .error (.outOfRange "map::at")) := by
  have built := run_keeps (create_registered self).1 earlier
  have own := built.hasOwn (create_registered self).2
  refine ⟨_, _, rfl, rfl, ?_⟩
  generalize earlier.foldl perform (create self) = m at built own
  have used := run_keeps built.registered later
  generalize later.foldl perform m = after at used
  refine ⟨used.extends_, used.registered, ?_, fun valid slaveAddr => used.absent_of_refused valid⟩
  intro valid accepts slaveAddr negative
  rcases Option.isSome_iff_exists.mp (own valid accepts) with ⟨s, found⟩
  rcases built.registered _ s found with ⟨id_eq, dev_eq, _⟩
  rcases used.extends_.slaves _ s found with ⟨same, still, id_eq', dev_eq'⟩
  have net_eq : after.device.net = m.device.net := by
    simp only [Device.net, used.extends_.backend_eq valid]
  have default_eq : after.defaultSlave slaveAddr = ownSlave m.device.net := by
    simp only [defaultSlave, used.extends_.isValid valid, negative, and_self, if_true, net_eq]
  refine ⟨same, ?_, ?_, ?_, id_eq'.trans id_eq, dev_eq'.trans (dev_eq.trans ?_)⟩
  · rw [slaveAt_eq_ok, default_eq]
    exact still
  · rw [slavePtr_eq, default_eq]
    exact still
  · simp only [index, still]
  · exact congrArg some built.extends_.self_eq

/-- A master on a serial line, whose slaves are added before and after it is used. -/
theorem registered_of_run_onLine : ∃ m after,
    [.setBackend (.ok (.rtu, Context.silent)), .use (.addSlave 5)].foldl perform (create 0) = m ∧
      [.open true, .use (.transfer 5 (.read .coil 1 8)), .use (.addSlave 7)].foldl perform m = after ∧
        m.Extends after ∧ after.Registered ∧
          (∃ s, after.slaveAt (-1) = .ok s ∧ after.slavePtr (-1) = some s ∧ after.index 0 = .ok s ∧
            s.id = 0 ∧ s.dev = some 0) ∧
          after.index (-1) = .error (.outOfRange "map::at") := by
  rcases registered_of_run 0 [.setBackend (.ok (.rtu, Context.silent)), .use (.addSlave 5)]
    [.open true, .use (.transfer 5 (.read .coil 1 8)), .use (.addSlave 7)] with
      ⟨m, after, rfl, rfl, extends_, registered, own, refused⟩
  exact ⟨_, _, rfl, rfl, extends_, registered, own rfl rfl (-1) (by decide), (refused rfl (-1) rfl).2⟩

/-- The number of the slave that a call is about. -/
def Use.number (m : Master) : Use → ℤ
  | .addSlave slaveAddr => slaveAddr
  | .setPduAddressing slaveAddr _ => m.defaultSlave slaveAddr
  | .transfer slaveAddr _ => m.defaultSlave slaveAddr

/-- The calls with their answers. -/
def answers (m : Master) : List Use → List (Use × Answer)
  | [] => []
  | use :: uses => (use, (m.use use).1) :: answers (m.use use).2 uses

/-- The slave with this number, or all of them. -/
def hears (n slaveAddr : ℤ) : Bool := slaveAddr = n ∨ slaveAddr = broadcast

/-- What a slave answers depends on what was sent to it and to all. -/
def Separate (answer : List Sent → Sent → Option Payload) : Prop :=
  ∀ earlier sent, answer earlier sent = answer (earlier.filter fun s => hears sent.slave s.slave) sent

/-- Two masters that a slave cannot tell apart. -/
structure Same (n : ℤ) (m other : Master) : Prop where
  self_eq : other.self = m.self
  backend_eq : other.device.backend = m.device.backend
  accepts_eq : other.device.ctx.accepts = m.device.ctx.accepts
  answer_eq : other.device.ctx.answer = m.device.ctx.answer
  sent_eq : other.device.ctx.sent.filter (fun s => hears n s.slave) =
    m.device.ctx.sent.filter fun s => hears n s.slave
  slave_eq : ∀ slaveAddr, hears n slaveAddr = true → other.slave slaveAddr = m.slave slaveAddr

variable {n : ℤ} {other : Master}

theorem defaultSlave_congr (backend_eq : other.device.backend = m.device.backend) (slaveAddr : ℤ) :
    other.defaultSlave slaveAddr = m.defaultSlave slaveAddr := by
  have valid_eq : other.device.isValid = m.device.isValid := by simp only [Device.isValid, backend_eq]
  have net_eq : other.device.net = m.device.net := by simp only [Device.net, backend_eq]
  simp only [defaultSlave, valid_eq, net_eq]

theorem Use.number_congr (backend_eq : other.device.backend = m.device.backend) (use : Use) :
    use.number other = use.number m := by
  cases use with
  | addSlave slaveAddr => rfl
  | setPduAddressing slaveAddr pdu => exact defaultSlave_congr backend_eq slaveAddr
  | transfer slaveAddr transfer => exact defaultSlave_congr backend_eq slaveAddr

theorem Same.isValid_eq (same : Same n m other) : other.device.isValid = m.device.isValid := by
  simp only [Device.isValid, same.backend_eq]

theorem Same.slaveAt_eq (same : Same n m other) {slaveAddr : ℤ}
    (heard : hears n (m.defaultSlave slaveAddr) = true) :
    other.slaveAt slaveAddr = m.slaveAt slaveAddr := by
  simp only [slaveAt, index, defaultSlave_congr same.backend_eq, same.slave_eq _ heard]

/-- The answer to a transfer that the slave hears. -/
theorem Same.answered (same : Same n m other) (separate : Separate m.device.ctx.answer) {sent : Sent}
    (heard : hears n sent.slave = true) :
    other.device.ctx.answer other.device.ctx.sent sent = m.device.ctx.answer m.device.ctx.sent sent := by
  have narrowed : ∀ earlier : List Sent,
      (earlier.filter fun s => hears n s.slave).filter (fun s => hears sent.slave s.slave) =
        earlier.filter fun s => hears sent.slave s.slave := by
    intro earlier
    rw [List.filter_filter]
    apply List.filter_congr
    intro s _
    simp only [hears, decide_eq_true_eq] at heard ⊢
    grind
  rw [same.answer_eq, separate other.device.ctx.sent, separate m.device.ctx.sent,
    ← narrowed other.device.ctx.sent, same.sent_eq, narrowed]

/-- A registered slave hands its transfer to the link, under its own number. -/
theorem operate_cases (registered : m.Registered) {slaveAddr : ℤ} {s : Slave}
    (found : m.slave slaveAddr = some s) (transfer : Transfer) :
    (slaveAddr < 0 ∧ s.operate (some m.device) transfer =
        (.error (.runtimeError "Slave id or backend not set !"), some m.device)) ∨
      0 ≤ slaveAddr ∧ ∃ sent : Sent, sent = ⟨slaveAddr, transfer.at s.pduAddress⟩ ∧
        s.operate (some m.device) transfer =
          (.ok ((transfer.at s.pduAddress).result (m.device.ctx.answer m.device.ctx.sent sent),
              m.device.ctx.answer m.device.ctx.sent sent),
            some (Slave.afterTransfer m.device slaveAddr (transfer.at s.pduAddress))) := by
  rcases registered slaveAddr s found with ⟨rfl, _, valid, accepted⟩
  by_cases negative : s.id < 0
  · left
    refine ⟨negative, ?_⟩
    have invalid : s.isValid (some m.device) = false := by
      simp only [Slave.isValid, valid, Bool.true_and, decide_eq_false_iff_not]
      omega
    simp only [Slave.operate, Slave.exchange, invalid, Bool.false_eq_true, if_false]
  · right
    have isValid : s.isValid (some m.device) = true := by
      simp only [Slave.isValid, valid, Bool.true_and, decide_eq_true_eq]
      omega
    exact ⟨by omega, _, rfl, Slave.exchange_accepted _ isValid accepted⟩

/-- A call that the slave hears nothing of. -/
theorem Same.unheard (same : Same n m other) (registered : m.Registered) {use : Use}
    (unheard : hears n (use.number m) = false) : Same n (m.use use).2 other := by
  -- What becomes of another slave, and of the current slave of the context.
  have elsewhere : ∀ (slaveAddr : ℤ) (s : Slave) (ctx : Context), hears n slaveAddr = false →
      ctx.accepts = m.device.ctx.accepts → ctx.answer = m.device.ctx.answer →
      ctx.sent.filter (fun s => hears n s.slave) = m.device.ctx.sent.filter (fun s => hears n s.slave) →
        Same n { m with
          device := { m.device with ctx }
          slave := Function.update m.slave slaveAddr (some s) } other := by
    intro slaveAddr s ctx unheard accepts_eq answer_eq sent_eq
    refine ⟨same.self_eq, same.backend_eq, same.accepts_eq.trans accepts_eq.symm,
      same.answer_eq.trans answer_eq.symm, same.sent_eq.trans sent_eq.symm, ?_⟩
    intro heardAddr heard
    have different : heardAddr ≠ slaveAddr := by
      rintro rfl
      exact Bool.false_ne_true (unheard.symm.trans heard)
    exact (same.slave_eq heardAddr heard).trans (Function.update_of_ne different ..).symm
  cases use with
  | addSlave slaveAddr =>
      rcases m.addSlave_cases slaveAddr with ⟨fault, run, _⟩ | ⟨_, _, s, _, run⟩
      · simp only [Master.use, run]
        exact same
      · simp only [Master.use, run]
        exact elsewhere slaveAddr s { m.device.ctx with slave := slaveAddr } unheard rfl rfl rfl
  | setPduAddressing slaveAddr pdu =>
      simp only [Master.use]
      cases m.slaveAt slaveAddr with
      | error fault => exact same
      | ok s => exact elsewhere _ { s with pduAddressing := pdu } m.device.ctx unheard rfl rfl rfl
  | transfer slaveAddr transfer =>
      simp only [Master.use]
      cases found : m.slaveAt slaveAddr with
      | error fault => exact same
      | ok s =>
          rcases operate_cases registered (slaveAt_eq_ok.mp found) transfer with
            ⟨_, run⟩ | ⟨_, sent, sent_eq, run⟩
          · simp only [run]
            exact same
          · simp only [run]
            refine ⟨same.self_eq, same.backend_eq, same.accepts_eq, same.answer_eq, ?_, same.slave_eq⟩
            change _ = (m.device.ctx.sent ++ [_]).filter _
            rw [List.filter_append, List.filter_singleton]
            change _ = _ ++ (bif hears n (m.defaultSlave slaveAddr) then _ else [])
            rw [show hears n (m.defaultSlave slaveAddr) = false from unheard, cond_false,
              List.append_nil]
            exact same.sent_eq

/-- A call that the slave hears is answered alike. -/
theorem Same.heard (same : Same n m other) (registered : m.Registered) (others : other.Registered)
    (separate : Separate m.device.ctx.answer) {use : Use} (heard : hears n (use.number m) = true) :
    (other.use use).1 = (m.use use).1 ∧ Same n (m.use use).2 (other.use use).2 := by
  cases use with
  | addSlave slaveAddr =>
      have slave_eq := same.slave_eq slaveAddr heard
      simp only [Master.use, addSlave, Context.setSlave, same.isValid_eq, same.accepts_eq, slave_eq,
        same.self_eq]
      by_cases valid : m.device.isValid = true
      · by_cases accepted : m.device.ctx.accepts slaveAddr = true
        · simp only [if_pos valid, if_pos accepted, if_true]
          refine ⟨trivial, rfl, same.backend_eq, rfl, same.answer_eq, same.sent_eq, ?_⟩
          intro heardAddr heard
          simp only [Function.update_apply, same.slave_eq heardAddr heard]
        · simp only [if_pos valid, if_neg accepted, Bool.false_eq_true, if_false]
          exact ⟨trivial, rfl, same.backend_eq, same.accepts_eq, same.answer_eq, same.sent_eq,
            same.slave_eq⟩
      · simp only [if_neg valid]
        exact ⟨trivial, same⟩
  | setPduAddressing slaveAddr pdu =>
      have found := same.slaveAt_eq heard
      simp only [Master.use, found, defaultSlave_congr same.backend_eq]
      cases m.slaveAt slaveAddr with
      | error fault => exact ⟨rfl, same⟩
      | ok s =>
          refine ⟨rfl, same.self_eq, same.backend_eq, same.accepts_eq, same.answer_eq, same.sent_eq, ?_⟩
          intro heardAddr heard
          simp only [Function.update_apply, same.slave_eq heardAddr heard]
  | transfer slaveAddr transfer =>
      have found_eq := same.slaveAt_eq heard
      simp only [Master.use, found_eq]
      cases found : m.slaveAt slaveAddr with
      | error fault => exact ⟨rfl, same⟩
      | ok s =>
          have found_other : other.slave (m.defaultSlave slaveAddr) = some s :=
            (same.slave_eq _ heard).trans (slaveAt_eq_ok.mp found)
          rcases operate_cases registered (slaveAt_eq_ok.mp found) transfer with
            ⟨negative, run⟩ | ⟨positive, sent, sent_eq, run⟩
          · rcases operate_cases others found_other transfer with ⟨_, run_other⟩ | ⟨contrary, _⟩
            · simp only [run, run_other]
              exact ⟨trivial, same⟩
            · omega
          · rcases operate_cases others found_other transfer with
              ⟨contrary, _⟩ | ⟨_, sent_other, sent_other_eq, run_other⟩
            · omega
            · have same_sent : sent_other = sent := sent_other_eq.trans sent_eq.symm
              subst same_sent
              have heard_sent : hears n sent_other.slave = true := by
                rw [sent_eq]
                exact heard
              have answered := same.answered separate heard_sent
              simp only [run, run_other, answered, true_and]
              refine ⟨same.self_eq, same.backend_eq, same.accepts_eq, same.answer_eq, ?_, same.slave_eq⟩
              change (other.device.ctx.sent ++ [_]).filter _ = (m.device.ctx.sent ++ [_]).filter _
              rw [List.filter_append, List.filter_append, same.sent_eq]

/-- The link stays, so a negative number stands for the same slave throughout. -/
theorem use_link (registered : m.Registered) (use : Use) :
    (m.use use).2.device.backend = m.device.backend ∧
      (m.use use).2.device.ctx.answer = m.device.ctx.answer := by
  cases use with
  | addSlave slaveAddr =>
      rcases m.addSlave_cases slaveAddr with ⟨fault, run, _⟩ | ⟨_, _, s, _, run⟩
      · simp only [Master.use, run, and_self]
      · simp only [Master.use, run, and_self]
  | setPduAddressing slaveAddr pdu =>
      simp only [Master.use]
      cases m.slaveAt slaveAddr <;> exact ⟨rfl, rfl⟩
  | transfer slaveAddr transfer =>
      simp only [Master.use]
      cases found : m.slaveAt slaveAddr with
      | error fault => exact ⟨rfl, rfl⟩
      | ok s =>
          rcases operate_cases registered (slaveAt_eq_ok.mp found) transfer with
            ⟨_, run⟩ | ⟨_, sent, _, run⟩
          · simp only [run, Option.getD_some, and_self]
          · simp only [run, Option.getD_some]
            exact ⟨rfl, rfl⟩

theorem Same.answers_eq {start : Master} (same : Same n m other) (registered : m.Registered)
    (others : other.Registered) (separate : Separate m.device.ctx.answer)
    (backend_eq : m.device.backend = start.device.backend) (uses : List Use) :
    (m.answers uses).filter (fun entry => entry.1.number start = n) =
      (other.answers (uses.filter fun use => hears n (use.number start))).filter
        fun entry => entry.1.number start = n := by
  induction uses generalizing m other with
  | nil => rfl
  | cons use uses ih =>
      have number_eq := Use.number_congr backend_eq use
      have kept := (use_keeps registered use).registered
      rcases use_link registered use with ⟨backend_next, answer_next⟩
      have separate_next : Separate (m.use use).2.device.ctx.answer := answer_next ▸ separate
      have backend_start := backend_next.trans backend_eq
      cases heard : hears n (use.number start) with
      | false =>
          have different : use.number start ≠ n := by
            rintro rfl
            simp only [hears, true_or, decide_true, Bool.true_eq_false] at heard
          have next := same.unheard registered (number_eq ▸ heard)
          simp only [answers, List.filter_cons, heard, different, decide_false, Bool.false_eq_true,
            if_false]
          exact ih next kept others separate_next backend_start
      | true =>
          rcases same.heard registered others separate (number_eq ▸ heard) with ⟨answer_eq, next⟩
          have kept_other := (use_keeps others use).registered
          have rest := ih next kept kept_other separate_next backend_start
          simp only [answers, List.filter_cons, heard, if_true, answer_eq, rest]

/-- The calls about this slave, with their answers. -/
def answersOf (m : Master) (n : ℤ) (uses : List Use) : List (Use × Answer) :=
  (m.answers uses).filter fun entry => entry.1.number m = n

/-- Whatever else a program does with the slaves of a master, one of them gets the answers that it would get
if there were only the calls about it and about all slaves. -/
theorem isolated_of_run (self : ℕ) (actions : List Action)
    (separate : Separate (actions.foldl perform (create self)).device.ctx.answer) (n : ℤ) (uses : List Use) :
    ∃ m, actions.foldl perform (create self) = m ∧
      m.answersOf n uses = m.answersOf n (uses.filter fun use => hears n (use.number m)) := by
  have registered := (run_keeps (create_registered self).1 actions).registered
  refine ⟨_, rfl, ?_⟩
  generalize actions.foldl perform (create self) = m at separate registered
  have same : Same n m m := ⟨rfl, rfl, rfl, rfl, rfl, fun _ _ => rfl⟩
  exact same.answers_eq registered registered separate rfl uses

/-- Equipment that counts what each of its slaves hears. -/
def counting : Context :=
  { Context.silent with
    answer := fun earlier sent => some
      { cells := fun t _ => t.zero
        report := List.replicate (earlier.countP fun s => hears sent.slave s.slave) 0 } }

theorem isolated_of_run_counting :
    ∃ m, [.setBackend (.ok (.rtu, counting))].foldl perform (create 0) = m ∧
      m.answersOf 5 [.addSlave 5, .addSlave 7, .transfer 5 (.reportSlaveId 8),
          .transfer 7 (.reportSlaveId 8), .transfer (-1) (.reportSlaveId 8),
          .transfer 5 (.reportSlaveId 8)] =
        m.answersOf 5 [.addSlave 5, .transfer 5 (.reportSlaveId 8), .transfer (-1) (.reportSlaveId 8),
          .transfer 5 (.reportSlaveId 8)] := by
  have separate : Separate ([.setBackend (.ok (.rtu, counting))].foldl perform
      (create 0)).device.ctx.answer := by
    intro earlier sent
    change counting.answer earlier sent = counting.answer _ sent
    simp only [counting, List.countP_filter, Bool.and_self]
  rcases isolated_of_run 0 [.setBackend (.ok (.rtu, counting))] separate 5
    [.addSlave 5, .addSlave 7, .transfer 5 (.reportSlaveId 8), .transfer 7 (.reportSlaveId 8),
      .transfer (-1) (.reportSlaveId 8), .transfer 5 (.reportSlaveId 8)] with ⟨m, rfl, alike⟩
  exact ⟨_, rfl, alike⟩

end Master

end Modbuspp
