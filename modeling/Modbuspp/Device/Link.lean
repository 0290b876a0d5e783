import Modbuspp.Device.RawSend
import Modbuspp.Router.Routes

/-!
# The sockets of a device

`modbus_connect` opens a socket, which replaces the one of the context without closing it, and `modbus_close`
closes the one of the context. A device calls them when it is opened and closed, and when a raw send recovers
the link. No socket is left behind, as long as the requests that recover the link are sent on open devices.
-/

namespace Modbuspp

/-- A device with the sockets that its context has opened and that were not closed. -/
structure Link where
  dev : Device
  /-- The context has a socket. -/
  connected : Bool
  sockets : ℕ

namespace Link

/-- A device without a backend. -/
def create : Link := { dev := Device.new, connected := false, sockets := 0 }

/-- `modbus_connect`, which succeeds or not. -/
def connect (s : Link) (success : Bool) : Link :=
  { s with connected := success, sockets := if success then s.sockets + 1 else s.sockets }

/-- `modbus_close`. -/
def disconnect (s : Link) : Link :=
  { s with connected := false, sockets := if s.connected then s.sockets - 1 else s.sockets }

/-- What a raw send does to the sockets, when its calls of `modbus_connect` have these outcomes. -/
def follow (s : Link) : List LinkAction → List Bool → Link
  | [], _ => s
  | .close :: actions, outcomes => s.disconnect.follow actions outcomes
  | .open :: actions, outcomes => (s.connect (outcomes.headD false)).follow actions outcomes.tail
  | .prepare :: actions, outcomes => s.follow actions outcomes
  | .transmit _ :: actions, outcomes => s.follow actions outcomes
  | .sleep :: actions, outcomes => s.follow actions outcomes
  | .flush :: actions, outcomes => s.follow actions outcomes

/-- `Device::open`. -/
def «open» (s : Link) (success : Bool) : Link :=
  if s.dev.isValid && !s.dev.isOpen then
    { s.connect success with dev := (s.dev.open success).2 }
  else s

/-- `Device::close`, which the destructor calls, too. -/
def close (s : Link) : Link :=
  if s.dev.isOpen then { s.disconnect with dev := s.dev.close } else s

/-- A raw send that returns. -/
def send (s : Link) (msg : Message) (prepareBefore : Bool) (attempts : List Attempt)
    (outcomes : List Bool) : Link :=
  match s.dev.sendRawMessage msg prepareBefore attempts with
  | .ok (some result) =>
      follow { s with dev := { s.dev with backend := some result.backend } } result.actions outcomes
  | _ => s

/-- The calls of a program, with what the system answers. -/
inductive Event where
  | setBackend (link : Except Fault (NetLayer × Context))
  | setConfig (config : DeviceDescription)
  | setRecoveryLink (recovery : Bool)
  | open (success : Bool)
  | close
  | send (msg : Message) (prepareBefore : Bool) (attempts : List Attempt) (outcomes : List Bool)

/-- The link after an event. -/
def step (s : Link) : Event → Link
  | .setBackend link => { s with dev := (s.dev.setBackend link).2 }
  | .setConfig config => { s with dev := (s.dev.setConfig config).2 }
  | .setRecoveryLink recovery => { s with dev := { s.dev with recoveryLink := recovery } }
  | .open success => s.open success
  | .close => s.close
  | .send msg prepareBefore attempts outcomes => s.send msg prepareBefore attempts outcomes

/-- No socket is left behind, and a closed device has none. -/
structure Tight (s : Link) : Prop where
  sockets_eq : s.sockets = s.connected.toNat
  closed : s.dev.isOpen = false → s.connected = false

/-- A request that recovers the link is sent on an open device only. -/
def SendsOpen (s : Link) : Event → Prop
  | .send msg _ _ _ => s.dev.isOpen = true ∨ s.dev.recovering msg = false
  | _ => True

variable {s : Link}

theorem connect_sockets (closed : s.connected = false) (sockets_eq : s.sockets = s.connected.toNat)
    (success : Bool) : (s.connect success).sockets = (s.connect success).connected.toNat := by
  rw [closed] at sockets_eq
  cases success with
  | false => exact sockets_eq
  | true => exact congrArg Nat.succ sockets_eq

theorem disconnect_sockets (sockets_eq : s.sockets = s.connected.toNat) :
    s.disconnect.sockets = s.disconnect.connected.toNat := by
  simp only [disconnect, sockets_eq]
  cases s.connected <;> rfl

/-- A link that is recovered is closed before it is opened. -/
theorem follow_recoverLink (errno : Errno) (sockets_eq : s.sockets = s.connected.toNat)
    (actions : List LinkAction) (outcomes : List Bool) :
    ∃ (next : Link) (later : List Bool),
      s.follow (Device.recoverLink errno ++ actions) outcomes = next.follow actions later ∧
      next.dev = s.dev ∧ next.sockets = next.connected.toNat := by
  have reopened : ∀ success : Bool, (s.disconnect.connect success).sockets =
      (s.disconnect.connect success).connected.toNat :=
    connect_sockets rfl (disconnect_sockets sockets_eq)
  cases errno with
  | badFile => exact ⟨_, _, rfl, rfl, reopened _⟩
  | connectionReset => exact ⟨_, _, rfl, rfl, reopened _⟩
  | brokenPipe => exact ⟨_, _, rfl, rfl, reopened _⟩
  | _ => exact ⟨s, outcomes, rfl, rfl, sockets_eq⟩

theorem follow_sendLoop {recovering : Bool} {frame : List UInt8} {attempts unused : List Attempt}
    {last : Attempt} {actions : List LinkAction}
    (looped : Device.sendLoop recovering frame attempts = some (last, actions, unused))
    (sockets_eq : s.sockets = s.connected.toNat) (outcomes : List Bool) :
    (s.follow actions outcomes).dev = s.dev ∧
      (s.follow actions outcomes).sockets = (s.follow actions outcomes).connected.toNat ∧
        (recovering = false → (s.follow actions outcomes).connected = s.connected) := by
  induction attempts generalizing s outcomes actions with
  | nil => cases looped
  | cons attempt attempts ih =>
      rw [Device.sendLoop] at looped
      split at looped
      · next again =>
        cases rest : Device.sendLoop recovering frame attempts with
        | none =>
            rw [rest] at looped
            cases looped
        | some ends =>
            rw [rest] at looped
            rcases ends with ⟨final, later, left⟩
            cases looped
            rcases follow_recoverLink attempt.errno sockets_eq later outcomes with
              ⟨next, remaining, run, dev_eq, next_eq⟩
            change (s.follow (Device.recoverLink attempt.errno ++ later) outcomes).dev = s.dev ∧ _
            have followed := ih rest next_eq remaining
            rw [← run, dev_eq] at followed
            exact ⟨followed.1, followed.2.1, fun off => absurd again.1 (by rw [off]; exact Bool.false_ne_true)⟩
      · cases looped
        exact ⟨rfl, sockets_eq, fun _ => rfl⟩

/-- The flag of a message survives its preparation. -/
theorem prepared_isResponse {layer next : NetLayer} {msg prepared : Message} {done : Bool}
    (run : layer.prepareToSend msg = .ok (done, prepared, next)) :
    prepared.isResponse = msg.isResponse := by
  cases layer with
  | rtu =>
      simp only [NetLayer.prepareToSend, Rtu.prepareToSend] at run
      split at run
      · simp only [bind_eq_ok_iff] at run
        rcases run with ⟨_, ⟨crc, _, high, _, low, _, built⟩, ends⟩
        cases built
        cases ends
        rfl
      · cases run
        rfl
  | tcp tid =>
      simp only [NetLayer.prepareToSend, Tcp.prepareToSend] at run
      split at run
      · -- The header is written for a request only.
        split at run
        · simp only [bind_eq_ok_iff] at run
          rcases run with ⟨_, ⟨_, _, high, _, low, _, built⟩, ends⟩
          cases built
          cases ends
          rfl
        · simp only [bind_eq_ok_iff] at run
          rcases run with ⟨_, ⟨_, _, _, _, _, _, _, _, _, _, high, _, low, _, built⟩, ends⟩
          cases built
          cases ends
          rfl
      · cases run
        rfl

/-- A raw send that returns has made no call of the backend, or its loop has ended. -/
theorem sendRawMessage_actions {dev : Device} {msg : Message} {prepareBefore : Bool}
    {attempts : List Attempt} {result : RawSend}
    (run : dev.sendRawMessage msg prepareBefore attempts = .ok (some result)) :
    result.actions = [] ∨ ∃ frame last actions unused,
      Device.sendLoop (dev.recovering msg) frame attempts = some (last, actions, unused) ∧
        ∃ prepared, (prepared = [] ∨ prepared = [LinkAction.prepare]) ∧
          result.actions = prepared ++ actions := by
  simp only [Device.sendRawMessage] at run
  split at run
  · cases run
  · next backend _ =>
    simp only [bind_eq_ok_iff] at run
    rcases run with ⟨⟨done, framed, next⟩, ready, rest⟩
    have same : framed.isResponse = msg.isResponse := by
      cases prepareBefore with
      | false =>
          cases ready
          rfl
      | true => exact prepared_isResponse ready
    have recovers : dev.recovering framed = dev.recovering msg := by
      simp only [Device.recovering, same]
    cases done with
    | false =>
        cases rest
        exact .inl rfl
    | true =>
        right
        simp only [if_true, bind_eq_ok_iff, recovers] at rest
        rcases rest with ⟨frame, _, rest⟩
        refine ⟨frame, ?_⟩
        cases looped : Device.sendLoop (dev.recovering msg) frame attempts with
        | none =>
            rw [looped] at rest
            cases rest
        | some ends =>
            rw [looped] at rest
            rcases ends with ⟨last, actions, unused⟩
            refine ⟨last, actions, unused, rfl, if prepareBefore then [.prepare] else [], ?_, ?_⟩
            · cases prepareBefore
              · exact .inl rfl
              · exact .inr rfl
            · simp only at rest
              split at rest <;> cases rest <;> rfl

theorem open_tight (tight : s.Tight) (success : Bool) : (s.open success).Tight := by
  simp only [Link.open]
  split
  · next opens =>
    simp only [Bool.and_eq_true, Bool.not_eq_true'] at opens
    refine ⟨connect_sockets (tight.closed opens.2) tight.sockets_eq success, ?_⟩
    intro closed
    simp only [Device.open, opens.1, opens.2, Bool.not_false, Bool.and_true, if_true] at closed
    exact closed
  · exact tight

theorem close_tight (tight : s.Tight) : s.close.Tight ∧ s.close.dev.isOpen = false := by
  simp only [close, Device.close]
  split
  · exact ⟨⟨disconnect_sockets tight.sockets_eq, fun _ => rfl⟩, rfl⟩
  · next closed => exact ⟨tight, Bool.eq_false_iff.mpr closed⟩

theorem send_tight (tight : s.Tight) {msg : Message} {prepareBefore : Bool} {attempts : List Attempt}
    {outcomes : List Bool} (open_ : s.dev.isOpen = true ∨ s.dev.recovering msg = false) :
    (s.send msg prepareBefore attempts outcomes).Tight := by
  simp only [send]
  split
  · next result run =>
    generalize prepared_eq : { s with
      dev := { s.dev with backend := some result.backend } } = start
    have start_tight : start.Tight := by
      subst prepared_eq
      exact ⟨tight.sockets_eq, tight.closed⟩
    have start_open : start.dev.isOpen = s.dev.isOpen := by
      subst prepared_eq
      rfl
    rcases sendRawMessage_actions run with
      none_eq | ⟨frame, last, actions, unused, looped, before, prepares, actions_eq⟩
    · rw [none_eq]
      exact start_tight
    · have skipped : start.follow (before ++ actions) outcomes = start.follow actions outcomes := by
        rcases prepares with rfl | rfl <;> rfl
      rcases follow_sendLoop looped start_tight.sockets_eq outcomes with ⟨dev_eq, sockets_eq, kept⟩
      rw [actions_eq, skipped]
      refine ⟨sockets_eq, ?_⟩
      intro closed
      rw [dev_eq, start_open] at closed
      rcases open_ with open_ | off
      · exact absurd (open_.symm.trans closed) (by decide)
      · rw [kept off]
        exact start_tight.closed (start_open.trans closed)
  · exact tight

theorem step_tight {event : Event} (tight : s.Tight) (guarded : s.SendsOpen event) :
    (s.step event).Tight := by
  cases event with
  | setBackend link =>
      have kept := Router.setBackend_isOpen s.dev link
      exact ⟨tight.sockets_eq, fun closed => tight.closed (kept.symm.trans closed)⟩
  | setConfig config =>
      have kept := Router.setConfig_isOpen s.dev config
      exact ⟨tight.sockets_eq, fun closed => tight.closed (kept.symm.trans closed)⟩
  | setRecoveryLink recovery => exact ⟨tight.sockets_eq, tight.closed⟩
  | «open» success => exact open_tight tight success
  | close => exact (close_tight tight).1
  | send msg prepareBefore attempts outcomes => exact send_tight tight guarded

/-- In every run that sends the requests that recover the link on open devices only, no socket is left
behind, and after `close` there is none. -/
theorem tight_of_run (events : List Event) (guarded : Process.Along step SendsOpen create events) :
    Process.Along step (fun s event => s.Tight ∧ (s.step event).Tight) create events ∧
      ((events.foldl step create).step .close).sockets = 0 := by
  have initially : create.Tight := ⟨rfl, fun _ => rfl⟩
  constructor
  · apply Process.Along.of_invariant Tight _ _ initially guarded
    · exact step_tight
    · intro s event tight open_
      exact ⟨tight, step_tight tight open_⟩
  · have tight := Process.Along.foldl_invariant Tight step_tight initially guarded
    rcases close_tight tight with ⟨closed, shut⟩
    change (events.foldl step create).close.sockets = 0
    rw [closed.sockets_eq, closed.closed shut]
    rfl

/-- A request finds the connection broken, and the link is recovered at the second attempt. -/
theorem tight_of_run_recovered : ∃ msg, Message.create (.net .rtu) (.adu [0x21, 7, 0x58, 0x22]) = .ok msg ∧
    ∃ recovered, [.setBackend (.ok (.rtu, Context.silent)), .setRecoveryLink true, .open true,
        .send msg false [⟨-1, .brokenPipe⟩, ⟨-1, .badFile⟩, ⟨1, .other 0⟩] [false, true]].foldl step
          create = recovered ∧
      recovered.connected = true ∧ recovered.sockets = 1 ∧ (recovered.step .close).sockets = 0 := by
  have tight := fun msg : Message => tight_of_run
    [.setBackend (.ok (.rtu, Context.silent)), .setRecoveryLink true, .open true,
      .send msg false [⟨-1, .brokenPipe⟩, ⟨-1, .badFile⟩, ⟨1, .other 0⟩] [false, true]]
    ⟨trivial, trivial, trivial, .inl rfl, trivial⟩
  exact ⟨_, rfl, _, rfl, rfl, rfl, (tight _).2⟩

/-- The precondition is needed: a request that recovers the link of a device that was never opened leaves a
socket, which the next `open` replaces. -/
example : ∃ msg, Message.create (.net .rtu) (.adu [0x21, 7, 0x58, 0x22]) = .ok msg ∧
    ([.setBackend (.ok (.rtu, Context.silent)), .setRecoveryLink true,
      .send msg false [⟨-1, .badFile⟩, ⟨1, .other 0⟩] [true], .open true, .close].foldl step create).sockets =
        1 :=
  ⟨_, rfl, rfl⟩

end Link

end Modbuspp
