import Modbuspp.Router.Basic

/-!
# The open state of a router

A router reports that it is open by a flag of its device. Its links are opened and closed together, the
masters first and then the backend that listens, except where a receive error is recovered: there the
links are opened again below the flag, which stays set when this fails. Accepting and receiving leave the
socket that listens as it is.
-/

namespace Modbuspp

namespace Server

/-- All masters are open. -/
def MastersOpen (srv : Server) : Prop := ∀ m ∈ srv.master, (srv.devices m.2).isOpen = true

/-- All masters are closed. -/
def MastersClosed (srv : Server) : Prop := ∀ m ∈ srv.master, (srv.devices m.2).isOpen = false

/-- The backend can be opened. -/
def canListen (srv : Server) (links : Links) : Bool :=
  match srv.device.net with
  | .tcp => links.listen.isSome
  | .rtu => links.connect
  | .noNet => false

/-- The task answers this message by recovering the link. -/
def Recovers (srv : Server) (d : Delivery) : Prop :=
  d.rc = -1 ∧ d.errno ≠ .badCrc ∧ srv.device.recoveryLink = true

/-- The links of two servers are open alike. -/
structure SameLinks (srv after : Server) : Prop where
  isOpen_eq : after.device.isOpen = srv.device.isOpen
  backend_eq : after.device.backend = srv.device.backend
  recoveryLink_eq : after.device.recoveryLink = srv.device.recoveryLink
  sock_eq : after.sock = srv.sock
  connected_eq : after.connected = srv.connected
  master_eq : after.master = srv.master
  devices_eq : ∀ i, (after.devices i).isOpen = (srv.devices i).isOpen

variable {srv after : Server} {links : Links} {d : Delivery}

theorem isOpen_open_of_open {dev : Device} (open_ : dev.isOpen = true) (connected : Bool) :
    dev.open connected = (true, dev) := by
  simp only [Device.open, open_, Bool.not_true, Bool.and_false, Bool.false_eq_true, if_false]

theorem openMaster_opened (start : Server) (m : String × ℕ) (links : Links)
    (opened : (openMaster links (true, start) m).1 = true) :
    ((openMaster links (true, start) m).2.devices m.2).isOpen = true ∧
      ∀ i, (start.devices i).isOpen = true →
        ((openMaster links (true, start) m).2.devices i).isOpen = true := by
  have isOpen : ((start.devices m.2).open (links.connectMaster m.2)).2.isOpen = true := opened
  simp only [openMaster, if_true]
  refine ⟨?_, ?_⟩
  · rw [Function.update_self]
    exact isOpen
  · intro i open_
    rw [Function.update_apply]
    split
    · exact isOpen
    · exact open_

theorem closeMaster_closed (start : Server) (m : String × ℕ) :
    ((start.closeMaster m).devices m.2).isOpen = false ∧
      ∀ i, (start.devices i).isOpen = false → ((start.closeMaster m).devices i).isOpen = false := by
  have shut : (start.devices m.2).close.isOpen = false := by
    simp only [Device.close]
    split
    · rfl
    · next closed => exact Bool.eq_false_iff.mpr closed
  simp only [closeMaster]
  refine ⟨?_, ?_⟩
  · rw [Function.update_self]
    exact shut
  · intro i closed
    rw [Function.update_apply]
    split
    · exact shut
    · exact closed

/-- Masters that are open are left as they are. -/
theorem openMasters_of_open (open_ : srv.MastersOpen) : srv.openMasters links = (true, srv) := by
  have fold : ∀ masters : List (String × ℕ), (∀ m ∈ masters, (srv.devices m.2).isOpen = true) →
      masters.foldl (openMaster links) (true, srv) = (true, srv) := by
    intro masters
    induction masters with
    | nil => exact fun _ => rfl
    | cons m masters ih =>
        intro allOpen
        rw [List.forall_mem_cons] at allOpen
        simp only [List.foldl_cons, openMaster, if_true, isOpen_open_of_open allOpen.1,
          Function.update_eq_self]
        exact ih allOpen.2
  exact fold srv.master open_

theorem openMasters_open (srv : Server) (links : Links) (opened : (srv.openMasters links).1 = true) :
    (srv.openMasters links).2.MastersOpen := by
  have failed : ∀ (masters : List (String × ℕ)) (start : Server),
      (masters.foldl (openMaster links) (false, start)).1 = false := by
    intro masters start
    induction masters with
    | nil => rfl
    | cons m masters ih => exact ih
  have fold : ∀ (masters : List (String × ℕ)) (start : Server),
      (masters.foldl (openMaster links) (true, start)).1 = true →
      (∀ m ∈ masters,
        ((masters.foldl (openMaster links) (true, start)).2.devices m.2).isOpen = true) ∧
        ∀ i, (start.devices i).isOpen = true →
          ((masters.foldl (openMaster links) (true, start)).2.devices i).isOpen = true := by
    intro masters
    induction masters with
    | nil => exact fun start _ => ⟨fun _ mem => by simp at mem, fun _ open_ => open_⟩
    | cons m masters ih =>
        intro start succeeded
        have step := openMaster_opened start m links
        rw [List.foldl_cons] at succeeded ⊢
        generalize openMaster links (true, start) m = first at step succeeded
        rcases first with ⟨isOk, next⟩
        cases isOk with
        | false =>
            rw [failed] at succeeded
            cases succeeded
        | true =>
            rcases step rfl with ⟨isOpen, stays⟩
            rcases ih next succeeded with ⟨later, kept⟩
            rw [List.forall_mem_cons]
            exact ⟨⟨kept m.2 isOpen, later⟩, fun i open_ => kept i (stays i open_)⟩
  intro m mem
  rcases openMasters_frame srv links with ⟨devices, frame⟩
  rw [frame] at mem
  exact (fold srv.master srv opened).1 m mem

theorem closeMasters_closed (srv : Server) : srv.closeMasters.MastersClosed := by
  have fold : ∀ (masters : List (String × ℕ)) (start : Server),
      (∀ m ∈ masters, ((masters.foldl closeMaster start).devices m.2).isOpen = false) ∧
      ∀ i, (start.devices i).isOpen = false →
        ((masters.foldl closeMaster start).devices i).isOpen = false := by
    intro masters
    induction masters with
    | nil => exact fun start => ⟨fun _ mem => by simp at mem, fun _ closed => closed⟩
    | cons m masters ih =>
        intro start
        rcases closeMaster_closed start m with ⟨shut, stays⟩
        rcases ih (start.closeMaster m) with ⟨later, kept⟩
        rw [List.foldl_cons, List.forall_mem_cons]
        exact ⟨⟨kept m.2 shut, later⟩, fun i closed => kept i (stays i closed)⟩
  intro m mem
  rcases closeMasters_frame srv with ⟨devices, frame⟩
  rw [frame] at mem
  exact (fold srv.master srv).1 m mem

theorem exists_request (backend : NetLayer) :
    ∃ req, Message.create (.device (some backend)) .empty = .ok req := by
  simp only [Message.create, Message.Origin.blank, Message.blank_eq]
  exact ⟨_, rfl⟩

/-- What opening the backend returns; the backend listens when it succeeds. -/
theorem openLink_result (srv : Server) (links : Links) :
    (srv.openLink links).1 = .ok (srv.canListen links) ∧
      ((srv.openLink links).2.Listening ↔ srv.canListen links = true) := by
  cases found : srv.device.backend with
  | none =>
      have net : srv.device.net = .noNet := by simp only [Device.net, found]
      simp [openLink, canListen, Listening, net]
  | some backend =>
      rcases exists_request backend with ⟨req, created⟩
      have net : srv.device.net = backend.net := by simp only [Device.net, found]
      rw [← found] at created
      cases backend with
      | rtu =>
          simp only [NetLayer.net] at net
          simp only [openLink, canListen, net, created]
          split
          · exact ⟨rfl, by simp only [Listening, net]⟩
          · exact ⟨rfl, by simp only [Listening, net]⟩
      | tcp _ =>
          simp only [NetLayer.net] at net
          simp only [openLink, canListen, net, created]
          split
          · exact ⟨rfl, by simp only [Listening, net, Option.isSome_iff_ne_none]⟩
          · exact ⟨rfl, by simp only [Listening, net, Option.isSome_iff_ne_none]⟩

theorem openLink_mastersOpen (open_ : srv.MastersOpen) (links : Links) :
    (srv.openLink links).2.MastersOpen := by
  rcases openLink_frame srv links with ⟨sock, connected, req, frame⟩
  rw [frame]
  exact open_

/-- The links are opened together, or none of the masters is open. -/
theorem openAll_cases (srv : Server) (links : Links) :
    ((srv.openAll links).1 = .ok true ∧ (srv.openAll links).2.Listening ∧
        (srv.openAll links).2.MastersOpen) ∨
      ((srv.openAll links).1 = .ok false ∧ (srv.openAll links).2.MastersClosed) := by
  have masters := openMasters_open srv links
  simp only [openAll]
  generalize srv.openMasters links = opened at masters
  rcases opened with ⟨isOk, after⟩
  cases isOk with
  | false => exact Or.inr ⟨rfl, closeMasters_closed after⟩
  | true =>
      rcases openLink_result after links with ⟨result, listens⟩
      have kept := openLink_mastersOpen (masters rfl) links
      simp only [if_true]
      generalize after.openLink links = link at result listens kept
      rcases link with ⟨outcome, final⟩
      simp only at result
      subst result
      cases canListen : after.canListen links with
      | false => exact Or.inr ⟨rfl, closeMasters_closed final⟩
      | true => exact Or.inl ⟨rfl, listens.mpr canListen, kept⟩

theorem openAll_of_open (open_ : srv.MastersOpen) (links : Links) :
    (srv.openAll links).1 = .ok (srv.canListen links) := by
  simp only [openAll, openMasters_of_open open_, if_true]
  exact (openLink_result srv links).1

namespace SameLinks

theorem refl (srv : Server) : srv.SameLinks srv := ⟨rfl, rfl, rfl, rfl, rfl, rfl, fun _ => rfl⟩

theorem listening_iff (same : srv.SameLinks after) : after.Listening ↔ srv.Listening := by
  simp only [Listening, Device.net, same.backend_eq, same.sock_eq, same.connected_eq]

theorem mastersOpen_iff (same : srv.SameLinks after) : after.MastersOpen ↔ srv.MastersOpen := by
  simp only [MastersOpen, same.master_eq, same.devices_eq]

end SameLinks

theorem store_sameLinks (srv : Server) (ctx : Context) (id : ℤ) {slv : BufferedSlave} {served : Served}
    (touched : (srv.station slv).Touched served.station) :
    srv.SameLinks ({ srv with device := { srv.device with ctx } }.store id served) := by
  refine ⟨rfl, rfl, rfl, rfl, rfl, rfl, ?_⟩
  intro i
  rcases touched.slave_eq with ⟨map, idReport, slave_eq⟩
  rcases touched.device_eq with ⟨ctx, device_eq⟩
  have dev_eq : served.station.slave.dev = slv.dev := by
    rw [slave_eq]
    rfl
  simp only [store, dev_eq, device_eq, station]
  cases slv.dev with
  | none => rfl
  | some j =>
      simp only [Option.map_some, Function.update_apply]
      split
      · next same => rw [same]
      · rfl

theorem task_sameLinks (srv : Server) (links : Links) (reply : ModbusReply) {rc : ℤ}
    (normal : ¬(rc = -1 ∧ srv.errno ≠ .badCrc ∧ srv.device.recoveryLink = true)) :
    srv.SameLinks (srv.task links reply rc).server := by
  rcases srv.task_cases links reply rc with ⟨recovery, _⟩ | ⟨ctx, req, id, slv, _, run⟩ | ⟨_, _, run⟩
  · exact absurd recovery normal
  · rw [run]
    exact store_sameLinks srv ctx id (Station.serve_touched (srv.station slv) reply req rc)
  · rw [run]
    exact ⟨rfl, rfl, rfl, rfl, rfl, rfl, fun _ => rfl⟩

theorem deliver_sameLinks (normal : ¬srv.Recovers d) : srv.SameLinks (srv.deliver d).server := by
  have same := task_sameLinks (srv.received d) d.links d.reply normal
  exact ⟨same.isOpen_eq, same.backend_eq, same.recoveryLink_eq, same.sock_eq, same.connected_eq,
    same.master_eq, same.devices_eq⟩

/-- Recovering the link of a server whose masters are open. The flag stays what it was. -/
theorem deliver_of_recovers (open_ : srv.MastersOpen) (recovers : srv.Recovers d) :
    (srv.deliver d).server.device.isOpen = srv.device.isOpen ∧
      (srv.canListen d.links = true → (srv.deliver d).result = .ok 0 ∧
        (srv.deliver d).server.Listening ∧ (srv.deliver d).server.MastersOpen) ∧
      (srv.canListen d.links = false →
        (srv.deliver d).result = .error (.runtimeError "Unable to recovery link !")) := by
  have failed : d.rc = -1 ∧ (srv.received d).errno ≠ .badCrc := ⟨recovers.1, recovers.2.1⟩
  have recovery : (srv.received d).device.recoveryLink = true := recovers.2.2
  have closed : ∃ sock, (srv.received d).closeLink =
      { srv.received d with sock, connected := false } := by
    simp only [closeLink]
    split <;> exact ⟨_, rfl⟩
  simp only [deliver, task, if_pos failed, if_pos recovery]
  rcases closed with ⟨sock, run⟩
  rw [run]
  have stillOpen : MastersOpen { srv.received d with sock, connected := false } := open_
  have result := openAll_of_open stillOpen d.links
  have cases_ := openAll_cases { srv.received d with sock, connected := false } d.links
  rcases openAll_frame { srv.received d with sock, connected := false } d.links
    with ⟨_, _, _, _, frame⟩
  have kept : (openAll { srv.received d with sock, connected := false } d.links).2.device =
      srv.device := by
    rw [frame]
    rfl
  have same : canListen { srv.received d with sock, connected := false } d.links =
      srv.canListen d.links := rfl
  rw [same] at result
  generalize openAll { srv.received d with sock, connected := false } d.links = opened
    at result cases_ kept
  rcases opened with ⟨outcome, after⟩
  simp only at result cases_ kept
  subst result
  cases listens : srv.canListen d.links with
  | true =>
      rcases cases_ with ⟨_, listening, masters⟩ | ⟨contrary, _⟩
      · exact ⟨congrArg Device.isOpen kept, fun _ => ⟨rfl, listening, masters⟩, fun no => by cases no⟩
      · rw [listens] at contrary
        cases contrary
  | false => exact ⟨congrArg Device.isOpen kept, fun no => (by cases no), fun _ => rfl⟩

/-- A server whose links are open keeps them open, unless they have to be opened again and cannot. -/
theorem deliver_stays_open (open_ : srv.device.isOpen = true) (listening : srv.Listening)
    (masters : srv.MastersOpen) (reopens : srv.Recovers d → srv.canListen d.links = true) :
    ((srv.deliver d).server.device.isOpen = true ∧ (srv.deliver d).server.Listening ∧
      (srv.deliver d).server.MastersOpen) ∧
        (srv.Recovers d → (srv.deliver d).result = .ok 0) := by
  by_cases recovers : srv.Recovers d
  · rcases deliver_of_recovers masters recovers with ⟨isOpen_eq, recovered, _⟩
    rcases recovered (reopens recovers) with ⟨result, listens, opened⟩
    exact ⟨⟨isOpen_eq.trans open_, listens, opened⟩, fun _ => result⟩
  · have same := deliver_sameLinks recovers
    refine ⟨⟨?_, ?_, ?_⟩, fun contrary => absurd contrary recovers⟩
    · rw [same.isOpen_eq, open_]
    · exact same.listening_iff.mpr listening
    · exact same.mastersOpen_iff.mpr masters

end Server

/-- The uses of a router that open or close links. A message is handed to `task` by `poll`, which has an
`errno` of its own, or by the daemon, which runs while the router is open. -/
inductive Router.Use where
  | open (links : Links)
  | close
  | poll (running : Bool) (errno : Errno) (ready : Option Delivery)
  | task (d : Delivery)

namespace Router

/-- The router after a use. -/
def step (r : Router) : Use → Router
  | .open links => (r.open links).2
  | .close => r.close
  | .poll running errno ready => { r with toServer := (r.toServer.poll running errno ready).server }
  | .task d => if r.device.isOpen then { r with toServer := r.toServer.next d } else r

/-- The message that a use hands to `task`, with the `errno` that `task` finds. -/
def message (r : Router) : Use → Option Delivery
  | .open _ => none
  | .close => none
  | .poll running errno ready =>
      if !running && r.device.isOpen then ready.map fun d => { d with errno } else none
  | .task d => if r.device.isOpen then some d else none

/-- The router is closed with its masters. -/
structure Shut (r : Router) : Prop where
  isOpen_eq : r.device.isOpen = false
  masters : r.MastersClosed

/-- What the router reports is so. -/
def Truthful (r : Router) : Prop := r.device.isOpen = true → r.Listening ∧ r.MastersOpen

/-- The law of the open state for one use. -/
structure Keeps (r : Router) (use : Use) : Prop where
  truthful : (r.step use).Truthful
  refused : ∀ links, use = .open links → (r.open links).1 ≠ .ok true → (r.step use).Shut
  failed : ∀ d, r.message use = some d → r.Recovers d → (∀ rc, (r.deliver d).result ≠ .ok rc) →
    (r.step use).Shut

/-- A receive error that is to be recovered finds a backend that can be opened again. In `poll` every
receive error is, a bad CRC too, unless the `errno` of the calling thread happens to be that one. -/
def Reopens (r : Router) (use : Use) : Prop :=
  ∀ d, r.message use = some d → r.Recovers d → r.canListen d.links = true

/-- The invariant of runs. -/
structure Settled (r : Router) : Prop where
  truthful : r.Truthful
  closed : r.device.isOpen = false → r.MastersClosed

variable {r : Router} {use : Use} {d : Delivery}

theorem Settled.shut (settled : r.Settled) (closed : r.device.isOpen = false) : r.Shut :=
  ⟨closed, settled.closed closed⟩

theorem Shut.settled (shut : r.Shut) : r.Settled := by
  refine ⟨?_, fun _ => shut.masters⟩
  intro open_
  rw [shut.isOpen_eq] at open_
  cases open_

theorem open_cases (settled : r.Settled) (links : Links) :
    ((r.open links).1 = .ok true ∧ (r.open links).2.Settled) ∨
      ((r.open links).1 = .ok false ∧ (r.open links).2.Shut) := by
  by_cases opens : (r.device.isValid && !r.device.isOpen) = true
  · simp only [Router.open, Server.open, if_pos opens]
    have cases_ := Server.openAll_cases r.toServer links
    generalize r.openAll links = opened at cases_
    rcases opened with ⟨outcome, after⟩
    rcases cases_ with ⟨result, listening, masters⟩ | ⟨result, masters⟩
    · simp only at result
      subst result
      refine Or.inl ⟨rfl, fun _ => ⟨listening, masters⟩, ?_⟩
      intro closed
      cases closed
    · simp only at result
      subst result
      exact Or.inr ⟨rfl, rfl, masters⟩
  · simp only [Router.open, Server.open, if_neg opens]
    cases isOpen : r.device.isOpen with
    | true => exact Or.inl ⟨rfl, settled⟩
    | false => exact Or.inr ⟨rfl, settled.shut isOpen⟩

theorem close_shut (settled : r.Settled) : r.close.Shut := by
  simp only [close]
  split
  · next open_ =>
    refine ⟨?_, Server.closeMasters_closed _⟩
    rcases Server.closeMasters_frame r.closeDevice with ⟨_, frame⟩
    rw [frame]
    simp only [Server.closeDevice, if_pos open_]
  · next closed => exact settled.shut (Bool.eq_false_iff.mpr closed)

theorem step_of_message (found : r.message use = some d) :
    r.device.isOpen = true ∧ r.step use = { r with toServer := r.toServer.next d } := by
  cases use with
  | «open» links => cases found
  | close => cases found
  | poll running errno ready =>
      simp only [message] at found
      split at found
      · next polls =>
        rcases Option.map_eq_some_iff.mp found with ⟨received, rfl, rfl⟩
        refine ⟨(Bool.and_eq_true_iff.mp polls).2, ?_⟩
        simp only [step, Server.poll, if_pos polls]
        rfl
      · cases found
  | task other =>
      simp only [message] at found
      split at found
      · next open_ =>
        cases found
        exact ⟨open_, by simp only [step, if_pos open_]⟩
      · cases found

theorem poll_of_no_message {running : Bool} {errno : Errno} {ready : Option Delivery}
    (nothing : r.message (.poll running errno ready) = none) :
    r.step (.poll running errno ready) = r := by
  simp only [message] at nothing
  simp only [step, Server.poll]
  split
  · next polls =>
    rw [if_pos polls] at nothing
    rw [Option.map_eq_none_iff.mp nothing]
  · rfl

theorem task_of_no_message (nothing : r.message (.task d) = none) : r.step (.task d) = r := by
  simp only [message] at nothing
  simp only [step]
  split
  · next open_ =>
    rw [if_pos open_] at nothing
    cases nothing
  · rfl

/-- A use without a message keeps the law. -/
theorem keeps_of_no_message (settled : r.Settled) (nothing : r.message use = none) :
    r.Keeps use ∧ (r.step use).Settled := by
  have silent : ∀ {after : Router}, r.step use = after → after.Settled →
      (∀ links, use = .open links → (r.open links).1 ≠ .ok true → after.Shut) →
        r.Keeps use ∧ (r.step use).Settled := by
    rintro after rfl kept refused
    refine ⟨⟨kept.truthful, refused, ?_⟩, kept⟩
    intro d found
    rw [nothing] at found
    cases found
  cases use with
  | «open» links =>
      rcases open_cases settled links with ⟨result, kept⟩ | ⟨result, shut⟩
      · apply silent rfl kept
        intro other same failed
        cases same
        exact absurd result failed
      · apply silent rfl shut.settled
        intro other same _
        exact shut
  | close =>
      apply silent rfl (close_shut settled).settled
      intro links same
      cases same
  | poll running errno ready =>
      apply silent (poll_of_no_message nothing) settled
      intro links same
      cases same
  | task d =>
      apply silent (task_of_no_message nothing) settled
      intro links same
      cases same

theorem keeps_of_message (settled : r.Settled) (found : r.message use = some d)
    (reopens : r.Recovers d → r.canListen d.links = true) :
    r.Keeps use ∧ (r.step use).Settled := by
  rcases step_of_message found with ⟨open_, after⟩
  rcases settled.truthful open_ with ⟨listening, masters⟩
  rcases Server.deliver_stays_open open_ listening masters reopens
    with ⟨⟨stillOpen, listens, opened⟩, recovered⟩
  have kept : (r.step use).Settled := by
    rw [after]
    refine ⟨fun _ => ⟨listens, opened⟩, ?_⟩
    intro closed
    exact absurd (stillOpen.symm.trans closed) (by decide)
  refine ⟨⟨kept.truthful, ?_, ?_⟩, kept⟩
  · rintro links rfl
    cases found
  · intro other same recovers failed
    rw [found] at same
    cases same
    exact absurd (recovered recovers) (failed 0)

/-- A recovery that fails leaves the flag of the router set. -/
theorem not_keeps_of_message (settled : r.Settled) (found : r.message use = some d)
    (recovers : r.Recovers d) (refused : r.canListen d.links = false) : ¬r.Keeps use := by
  intro keeps
  rcases step_of_message found with ⟨open_, after⟩
  rcases settled.truthful open_ with ⟨_, masters⟩
  rcases Server.deliver_of_recovers masters recovers with ⟨isOpen_eq, _, failed⟩
  have shut := keeps.failed d found recovers (by
    intro rc returned
    rw [failed refused] at returned
    cases returned)
  have closed := shut.isOpen_eq
  rw [after] at closed
  have stillOpen := isOpen_eq.trans open_
  exact absurd (stillOpen.symm.trans closed) (by decide)

theorem step_settled (settled : r.Settled) (reopens : r.Reopens use) : (r.step use).Settled := by
  cases found : r.message use with
  | none => exact (keeps_of_no_message settled found).2
  | some d => exact (keeps_of_message settled found (reopens d found)).2

theorem keeps_iff (settled : r.Settled) : r.Keeps use ↔ r.Reopens use := by
  constructor
  · intro keeps d found recovers
    apply Bool.of_not_eq_false
    intro refused
    exact not_keeps_of_message settled found recovers refused keeps
  · intro reopens
    cases found : r.message use with
    | none => exact (keeps_of_no_message settled found).1
    | some d => exact (keeps_of_message settled found (reopens d found)).1

/-- Along every run of a router that is closed at first, its open state is kept exactly when each receive
error finds a backend that can be opened again. -/
theorem keeps_along_iff (r : Router) (shut : r.Shut) (uses : List Use) :
    Process.Along step Keeps r uses ↔ Process.Along step Reopens r uses := by
  apply Process.along_iff_of_invariant Settled
  · exact step_settled
  · intro r use settled
    exact keeps_iff settled
  · exact shut.settled

/-- A closed router with one master, which recovers its link. -/
def recovering : Router where
  toServer := { Server.routing 7 with
    device := { Device.create .rtu Context.silent with recoveryLink := true }
    devices := fun _ => Device.create .rtu Context.answering }
  allocated := 1

theorem recovering_shut : recovering.Shut := ⟨rfl, fun _ _ => rfl⟩

/-- A receive error, after which the link of the router can be opened again or not. -/
def lost (req : Message) (connect : Bool) : Delivery :=
  { Delivery.frame req (-1) with
    errno := .connectionReset
    links := { listen := none, connect, connectMaster := fun _ => true } }

theorem keeps_along_iff_of_recovering :
    ∃ req, Message.create (.device (some .rtu)) .empty = .ok req ∧
      (Process.Along step Keeps recovering
          [.open (lost req true).links, .poll false .connectionReset (some (lost req true)), .close] ↔
        Process.Along step Reopens recovering
          [.open (lost req true).links, .poll false .connectionReset (some (lost req true)), .close]) := by
  refine ⟨_, rfl, ?_⟩
  apply keeps_along_iff
  exact recovering_shut

/-- The link is lost and cannot be opened again: the router reports that it is open, its backend does not
listen and its master is closed. -/
theorem lost_router_reports_open :
    ∃ req, Message.create (.device (some .rtu)) .empty = .ok req ∧
      ∃ lostRouter, lostRouter = (recovering.step (.open (lost req true).links)).step
        (.poll false .connectionReset (some (lost req false))) ∧
      lostRouter.device.isOpen = true ∧ ¬lostRouter.Listening ∧ lostRouter.MastersClosed ∧
      ¬Process.Along step Keeps recovering
        [.open (lost req true).links, .poll false .connectionReset (some (lost req false))] := by
  refine ⟨_, rfl, _, rfl, rfl, ?_, ?_, ?_⟩
  · intro listens
    cases listens
  · intro m mem
    cases List.mem_singleton.mp mem
    rfl
  · rintro ⟨_, kept, _⟩
    cases (kept.truthful rfl).1

end Router

end Modbuspp
