import Modbuspp.Router.OpenState
import Modbuspp.Server.Receivers

/-!
# The threads serve a server one call at a time

The calls of the program, the task of `poll` and the daemon work on one server. Seen from the outside they
amount to a sequence of calls, each of which runs alone and finds the server as the previous one has left
it: a message is handed over in one piece with its content, in the order of the arrivals. `History` records
this sequence along a run; the record is compared with a server without threads.
-/

namespace Modbuspp

/-- What is asked of a server: to open or to close its link, or to handle what was received. -/
inductive ServerCall where
  | open (links : Links)
  | close
  | deliver (d : Delivery)

/-- What a call answers: a handled message with the stages that it has been through. -/
inductive ServerAnswer where
  | opened (result : Except Fault Bool)
  | closed
  | handled (result : Except Fault ℤ) (stages : List Stage)

/-- The request and the length of a message that is handed over. -/
def ServerCall.message : ServerCall → Option (Message × ℤ)
  | .deliver d => if 0 < d.rc then some (d.req, d.rc) else none
  | _ => none

namespace Server

/-- A call without threads. -/
def perform (srv : Server) : ServerCall → ServerAnswer × Server
  | .open links => (.opened (srv.open links).1, (srv.open links).2)
  | .close => (.closed, srv.closeDevice)
  | .deliver d => (.handled (srv.deliver d).result (srv.deliver d).stages, srv.next d)

/-- A server without threads, which answers one call after the other. -/
def performAll (srv : Server) (calls : List ServerCall) : List ServerAnswer × Server :=
  calls.foldl (fun (answers, srv) call =>
    (answers ++ [(srv.perform call).1], (srv.perform call).2)) ([], srv)

theorem performAll_concat (srv : Server) (calls : List ServerCall) (call : ServerCall) :
    srv.performAll (calls ++ [call]) =
      ((srv.performAll calls).1 ++ [((srv.performAll calls).2.perform call).1],
        ((srv.performAll calls).2.perform call).2) := by
  simp only [performAll, List.foldl_append, List.foldl_cons, List.foldl_nil]

/-- Receiving a message and handing it to `task` changes these two. -/
def withRequest (srv : Server) (req : Option Message) (errno : Errno) : Server :=
  { srv with req, errno }

theorem openMasters_withRequest (srv : Server) (links : Links) (req : Option Message) (errno : Errno) :
    (srv.withRequest req errno).openMasters links =
      ((srv.openMasters links).1, (srv.openMasters links).2.withRequest req errno) := by
  have fold : ∀ (masters : List (String × ℕ)) (isOk : Bool) (start : Server),
      masters.foldl (openMaster links) (isOk, start.withRequest req errno) =
        ((masters.foldl (openMaster links) (isOk, start)).1,
          (masters.foldl (openMaster links) (isOk, start)).2.withRequest req errno) := by
    intro masters
    induction masters with
    | nil => exact fun _ _ => rfl
    | cons m masters ih =>
        intro isOk start
        cases isOk with
        | false => exact ih false start
        | true => exact ih _ (openMaster links (true, start) m).2
  exact fold srv.master true srv

theorem closeMasters_withRequest (srv : Server) (req : Option Message) (errno : Errno) :
    (srv.withRequest req errno).closeMasters = srv.closeMasters.withRequest req errno := by
  have fold : ∀ (masters : List (String × ℕ)) (start : Server),
      masters.foldl closeMaster (start.withRequest req errno) =
        (masters.foldl closeMaster start).withRequest req errno := by
    intro masters
    induction masters with
    | nil => exact fun _ => rfl
    | cons m masters ih => exact fun start => ih (start.closeMaster m)
  exact fold srv.master srv

/-- The link after the backend was opened. -/
def linked (srv : Server) (links : Links) : Server :=
  match srv.device.net with
  | .tcp => { srv with sock := links.listen }
  | .rtu => { srv with connected := links.connect }
  | .noNet => srv

/-- Opening the backend makes a request when there is none. Whether it succeeds does not depend on it. -/
theorem openLink_eq (srv : Server) (links : Links) : ∃ req,
    srv.openLink links = (.ok (srv.canListen links), (srv.linked links).withRequest req srv.errno) ∧
      (srv.req.isSome = true → req = srv.req) := by
  cases found : srv.device.backend with
  | none =>
      have net : srv.device.net = .noNet := by simp only [Device.net, found]
      refine ⟨srv.req, ?_, fun _ => rfl⟩
      simp [openLink, linked, canListen, withRequest, net]
  | some backend =>
      rcases exists_request backend with ⟨made, created⟩
      have net : srv.device.net = backend.net := by simp only [Device.net, found]
      rw [← found] at created
      refine ⟨if srv.canListen links = true ∧ srv.req = none then some made else srv.req, ?_, ?_⟩
      · cases backend with
        | rtu =>
            simp only [NetLayer.net] at net
            simp only [openLink, linked, canListen, withRequest, net, created]
            split <;> rfl
        | tcp _ =>
            simp only [NetLayer.net] at net
            simp only [openLink, linked, canListen, withRequest, net, created]
            split <;> rfl
      · intro present
        rw [if_neg]
        rintro ⟨_, absent⟩
        rw [absent] at present
        cases present

/-- Opening the links, whatever the request is. -/
theorem openAll_withRequest (srv : Server) (links : Links) (req : Option Message) (errno : Errno) :
    ∃ after, (srv.withRequest req errno).openAll links =
      ((srv.openAll links).1, (srv.openAll links).2.withRequest after errno) ∧
      (req.isSome = true → after = req) := by
  have masters := openMasters_withRequest srv links req errno
  rcases openMasters_frame srv links with ⟨devices, frame⟩
  simp only [openAll, masters]
  generalize srv.openMasters links = opened at frame
  rcases opened with ⟨isOk, start⟩
  simp only at frame ⊢
  cases isOk with
  | false =>
      refine ⟨req, ?_, fun _ => rfl⟩
      simp only [Bool.false_eq_true, if_false, if_true, closeMasters_withRequest]
  | true =>
      rcases openLink_eq start links with ⟨plain, plain_eq, _⟩
      rcases openLink_eq (start.withRequest req errno) links with ⟨after, after_eq, kept⟩
      have sameResult : (start.withRequest req errno).canListen links = start.canListen links := rfl
      have sameLink : ((start.withRequest req errno).linked links).withRequest after errno =
          ((start.linked links).withRequest plain start.errno).withRequest after errno := by
        simp only [linked, withRequest]
        split <;> rfl
      refine ⟨after, ?_, kept⟩
      simp only [if_true, plain_eq, after_eq, sameResult]
      split
      · rw [← closeMasters_withRequest]
        exact Prod.ext rfl (congrArg closeMasters sameLink)
      · exact Prod.ext rfl sameLink

theorem open_withRequest (srv : Server) (links : Links) (req : Option Message) (errno : Errno) :
    ∃ after, (srv.withRequest req errno).open links =
      ((srv.open links).1, (srv.open links).2.withRequest after errno) ∧
      (req.isSome = true → after = req) := by
  rcases openAll_withRequest srv links req errno with ⟨after, opened, kept⟩
  simp only [Server.open, opened]
  by_cases tried : (srv.device.isValid && !srv.device.isOpen) = true
  · refine ⟨after, ?_, kept⟩
    simp only [withRequest, tried, if_true]
    generalize srv.openAll links = outcome
    rcases outcome with ⟨fault | isOpen, opened⟩ <;> rfl
  · refine ⟨req, ?_, fun _ => rfl⟩
    simp only [withRequest, tried]
    rfl

theorem closeDevice_withRequest (srv : Server) (req : Option Message) (errno : Errno) :
    (srv.withRequest req errno).closeDevice = srv.closeDevice.withRequest req errno := by
  by_cases open_ : srv.device.isOpen = true <;> by_cases tcp : srv.device.net = .tcp <;>
    simp [closeDevice, closeLink, withRequest, open_, tcp]

end Server

namespace Service

/-- The server is asked to handle what is in its request, by a thread with this `errno`. -/
def handing (s : Service) (errno : Errno) (links : Links) (reply : ModbusReply) (rc : ℤ) :
    Option (ServerCall × ServerAnswer) :=
  s.server.req.map fun req =>
    let handled := { s.server with errno }.task links reply rc
    (.deliver { req, rc, errno, links, reply }, .handled handled.result handled.stages)

/-- What the threads ask of the server in a step. -/
def call (s : Service) (event : Event) : Option (ServerCall × ServerAnswer) :=
  if s.aborted then none
  else
    match event with
    | .open links =>
        if s.caller = .idle then some (.open links, .opened (s.open links).1) else none
    | .close =>
        if s.caller = .idle ∧ s.isOpen = true ∧ s.isRunning = false then some (.close, .closed)
        else none
    | .join =>
        if s.caller = .joining true ∧ s.daemon = some .finished then some (.close, .closed) else none
    | .take errno links reply =>
        match s.caller, s.receiveTask with
        | .polling, some (.ready rc) => s.handing errno links reply rc
        | _, _ => none
    | .daemonHandle links reply =>
        match s.daemon with
        | some (.handling rc errno) => s.handing errno links reply rc
        | _ => none
    | _ => none

/-- The message that arrives in a step. -/
def arrival (s : Service) (event : Event) : Option (Message × ℤ) :=
  if s.aborted then none
  else
    match event with
    | .arrive message => some (message.req, message.rc)
    | _ => none

/-- What a step does to the server and to the messages, with what is recorded of it. -/
inductive Effect (s : Service) : Option (ServerCall × ServerAnswer) → Option (Message × ℤ) →
    Service → Prop where
  | keeps {after : Service} (server_eq : after.server = s.server)
      (outcome_eq : after.outcome = s.outcome) (inbox_eq : after.inbox = s.inbox) :
      Effect s none none after
  | opens {after : Service} (links : Links) (server_eq : after.server = (s.server.open links).2)
      (outcome_eq : after.outcome = s.outcome) (inbox_eq : after.inbox = s.inbox) :
      Effect s (some (.open links, .opened (s.server.open links).1)) none after
  | closes {after : Service} (server_eq : after.server = s.server.closeDevice)
      (outcome_eq : after.outcome = s.outcome) (inbox_eq : after.inbox = s.inbox) :
      Effect s (some (.close, .closed)) none after
  | receives {reception : Reception} {rc : ℤ} {received after : Service} (idle : s.outcome = none)
      (reception_eq : s.receive reception = some (rc, received))
      (server_eq : after.server = received.server) (outcome_eq : after.outcome = some rc)
      (inbox_eq : after.inbox = received.inbox) : Effect s none none after
  | handles {rc : ℤ} {errno : Errno} {links : Links} {reply : ModbusReply} {after : Service}
      (found : s.outcome = some rc)
      (server_eq : after.server = ({ s.server with errno }.task links reply rc).server)
      (idle : after.outcome = none) (inbox_eq : after.inbox = s.inbox) :
      Effect s (s.handing errno links reply rc) none after
  | arrives {after : Service} (message : Incoming) (server_eq : after.server = s.server)
      (outcome_eq : after.outcome = s.outcome)
      (inbox_eq : after.inbox = s.inbox ++ [(s.arrived, message)]) :
      Effect s none (some (message.req, message.rc)) after

variable {s : Service}

theorem open_effect (alive : s.aborted = false) (links : Links) :
    s.Effect (s.call (.open links)) none (s.called fun s => (s.open links).2) := by
  simp only [call, called, alive, Bool.false_eq_true, if_false]
  cases s.caller with
  | idle => exact .opens links rfl rfl rfl
  | polling => exact .keeps rfl rfl rfl
  | joining _ => exact .keeps rfl rfl rfl

theorem take_effect (orderly : s.Orderly) (alive : s.aborted = false) (errno : Errno) (links : Links)
    (reply : ModbusReply) :
    s.Effect (s.call (.take errno links reply)) none (s.take errno links reply) := by
  simp only [call, take, alive, Bool.false_eq_true, if_false]
  cases s.caller with
  | idle => exact .keeps rfl rfl rfl
  | joining _ => exact .keeps rfl rfl rfl
  | polling =>
      rcases task : s.receiveTask with _ | _ | rc
      · exact .keeps rfl rfl rfl
      · exact .keeps rfl rfl rfl
      · have stopped := orderly.stopped task
        refine .handles ?_ rfl ?_ rfl
        · simp only [outcome, stopped, task]
        · simp only [outcome, handle, stopped]

theorem daemonHandle_effect (orderly : s.Orderly) (alive : s.aborted = false) (links : Links)
    (reply : ModbusReply) :
    s.Effect (s.call (.daemonHandle links reply)) none (s.daemonHandle links reply) := by
  simp only [call, daemonHandle, alive, Bool.false_eq_true, if_false]
  rcases phase : s.daemon with _ | _ | _ | ⟨rc, errno⟩ | _
  · exact .keeps rfl rfl rfl
  · exact .keeps rfl rfl rfl
  · exact .keeps rfl rfl rfl
  · have outstanding := orderly.outstanding phase
    have found : s.outcome = some rc := by simp only [outcome, phase]
    have server_eq : (s.handle errno links reply rc).2.server =
        ({ s.server with errno }.task links reply rc).server := rfl
    have inbox_eq : (s.handle errno links reply rc).2.inbox = s.inbox := rfl
    have stays : (s.handle errno links reply rc).2.receiveTask = none := outstanding
    dsimp only
    generalize s.handle errno links reply rc = handled at server_eq inbox_eq stays ⊢
    rcases handled with ⟨fault | result, after⟩
    · refine .handles found server_eq ?_ inbox_eq
      rw [outcome, show after.receiveTask = none from stays]
    · refine .handles found server_eq ?_ inbox_eq
      rw [outcome, show after.receiveTask = none from stays]
  · exact .keeps rfl rfl rfl

theorem close_effect (alive : s.aborted = false) :
    s.Effect (s.call .close) none (s.called fun s => s.close.2) := by
  simp only [call, called, alive, Bool.false_eq_true, if_false]
  cases s.caller with
  | polling => exact .keeps rfl rfl rfl
  | joining _ => exact .keeps rfl rfl rfl
  | idle =>
      simp only [close, terminate, StopPromise.setValue]
      cases s.isOpen <;> cases s.isRunning <;> cases s.stopDaemon.satisfied
      case true.false.false => exact .closes rfl rfl rfl
      case true.false.true => exact .closes rfl rfl rfl
      all_goals exact .keeps rfl rfl rfl

theorem join_effect (orderly : s.Orderly) (alive : s.aborted = false) :
    s.Effect (s.call .join) none s.join := by
  simp only [call, join, alive, Bool.false_eq_true, if_false]
  cases s.caller with
  | polling => exact .keeps rfl rfl rfl
  | idle => exact .keeps rfl rfl rfl
  | joining closes =>
      rcases phase : s.daemon with _ | _ | _ | _ | _
      case some.finished =>
        have outstanding := orderly.outstanding phase
        have before : s.outcome = none := by simp only [outcome, phase, outstanding]
        have after : (s.joined closes).outcome = none := by
          cases closes <;> simp only [outcome, joined, outstanding] <;> rfl
        cases closes with
        | true => exact .closes rfl (after.trans before.symm) rfl
        | false => exact .keeps rfl (after.trans before.symm) rfl
      all_goals cases closes <;> exact .keeps rfl rfl rfl

/-- The events that neither ask something of the server nor bring a message. -/
def Event.silent : Event → Bool
  | .poll | .expire | .run | .terminate | .taskReceive _ | .daemonWake | .daemonReceive _ => true
  | _ => false

theorem silent_effect {event : Event} {after : Service} (orderly : s.Orderly)
    (guarded : s.StartsAlone event) (alive : s.aborted = false) (silent : event.silent = true)
    (move : s.Move event after) : s.Effect none none after := by
  cases move with
  | none => exact .keeps rfl rfl rfl
  | polls stopped =>
      refine .keeps rfl ?_ rfl
      simp only [outcome, stopped]
      cases s.receiveTask <;> rfl
  | expires polling => exact .keeps rfl rfl rfl
  | starts idle stopped open_ first =>
      have outstanding := guarded (runs_iff.mpr ⟨rfl, alive, idle, stopped, open_⟩) first
      refine .keeps rfl ?_ rfl
      simp only [outcome, stopped, outstanding]
  | signals idle running => exact .keeps rfl rfl rfl
  | taskReceives receiving received =>
      have stopped := orderly.stopped receiving
      have idle : s.outcome = none := by simp only [outcome, stopped, receiving]
      rcases receive_frame received with ⟨req, inbox, content, rfl⟩
      refine .receives idle received rfl ?_ rfl
      simp only [outcome, stopped]
  | wakes waiting =>
      have outstanding := orderly.outstanding waiting
      refine .keeps rfl ?_ rfl
      simp only [outcome, waiting, outstanding]
      cases s.stopDaemon.satisfied <;> rfl
  | daemonReceives receiving received =>
      have outstanding := orderly.outstanding receiving
      have idle : s.outcome = none := by simp only [outcome, receiving, outstanding]
      exact .receives idle received rfl rfl rfl
  | opens _ => cases silent
  | takes _ _ => cases silent
  | closes _ => cases silent
  | joins _ _ => cases silent
  | arrives _ => cases silent
  | handles _ => cases silent
  | aborts _ => cases silent

theorem call_of_silent {event : Event} (silent : event.silent = true) : s.call event = none := by
  cases event <;> simp only [Event.silent, Bool.false_eq_true] at silent <;> simp only [call, ite_self]

theorem arrival_of_silent {event : Event} (silent : event.silent = true) :
    s.arrival event = none := by
  cases event <;> simp only [Event.silent, Bool.false_eq_true] at silent <;>
    simp only [arrival, ite_self]

theorem step_effect {event : Event} (orderly : s.Orderly) (guarded : s.StartsAlone event)
    (alive : s.aborted = false) : s.Effect (s.call event) (s.arrival event) (s.step event) := by
  by_cases silent : event.silent = true
  · rw [call_of_silent silent, arrival_of_silent silent]
    exact silent_effect orderly guarded alive silent (step_move s event)
  · simp only [step, arrival, alive, Bool.false_eq_true, if_false]
    cases event with
    | «open» links => exact open_effect alive links
    | close => exact close_effect alive
    | join => exact join_effect orderly alive
    | take errno links reply => exact take_effect orderly alive errno links reply
    | daemonHandle links reply => exact daemonHandle_effect orderly alive links reply
    | arrive message =>
        have quiet : s.call (.arrive message) = none := by simp only [call, ite_self]
        rw [quiet]
        exact .arrives message rfl rfl rfl
    | poll => exact absurd rfl silent
    | expire => exact absurd rfl silent
    | run => exact absurd rfl silent
    | terminate => exact absurd rfl silent
    | taskReceive _ => exact absurd rfl silent
    | daemonWake => exact absurd rfl silent
    | daemonReceive _ => exact absurd rfl silent

end Service

/-- A service with the messages that have arrived, and with the calls of its server. -/
structure History where
  service : Service
  arrivals : List (Message × ℤ)
  calls : List (ServerCall × ServerAnswer)

namespace History

/-- Nothing has arrived and nothing was asked. -/
def create (server : Server) : History where
  service := .create server
  arrivals := []
  calls := []

/-- One step, with what is recorded of it. -/
def step (h : History) (event : Service.Event) : History where
  service := h.service.step event
  arrivals := h.arrivals ++ (h.service.arrival event).toList
  calls := h.calls ++ (h.service.call event).toList

/-- The messages that were handed over, in their order. -/
def handedOver (h : History) : List (Message × ℤ) := h.calls.filterMap fun entry => entry.1.message

/-- The message in the request, while it is still to be handed over. -/
def inRequest (h : History) : List (Message × ℤ) :=
  match h.service.outcome with
  | some rc => if 0 < rc then h.service.server.req.toList.map fun req => (req, rc) else []
  | none => []

/-- The messages on the link. -/
def onLink (h : History) : List (Message × ℤ) :=
  h.service.inbox.map fun entry => (entry.2.req, entry.2.rc)

/-- The history is one of a server without threads: the calls get its answers and leave its state, apart
from what was received since, and each message that has arrived is in one place, in the order of the
arrivals. -/
structure Serial (server : Server) (h : History) : Prop where
  answers : (server.performAll (h.calls.map Prod.fst)).1 = h.calls.map Prod.snd
  state : ∃ req errno,
    h.service.server = (server.performAll (h.calls.map Prod.fst)).2.withRequest req errno
  conserved : h.handedOver ++ h.inRequest ++ h.onLink = h.arrivals

/-- The history is serial, and what a thread has received is in the request. -/
structure Accounted (server : Server) (h : History) : Prop where
  serial : h.Serial server
  filled : h.service.outcome ≠ none → h.service.server.req.isSome = true

/-- The invariant of runs. -/
structure Ordered (server : Server) (h : History) : Prop extends Accounted server h where
  orderly : h.service.Orderly

variable {server : Server} {h : History} {after : Service}

theorem create_ordered (server : Server) : (create server).Ordered server where
  orderly := Service.create_orderly server
  filled := fun found => absurd rfl found
  serial := ⟨rfl, ⟨server.req, server.errno, rfl⟩, rfl⟩

/-- What is recorded of a step. -/
def recorded (h : History) (after : Service) (call : Option (ServerCall × ServerAnswer))
    (arrival : Option (Message × ℤ)) : History where
  service := after
  arrivals := h.arrivals ++ arrival.toList
  calls := h.calls ++ call.toList

/-- A step that asks nothing of the server. The messages may move from the link to the request. -/
theorem Serial.quiet (serial : h.Serial server) {arrival : Option (Message × ℤ)}
    (state_eq : ∃ req errno, after.server = h.service.server.withRequest req errno)
    (moved : (h.recorded after none arrival).inRequest ++ (h.recorded after none arrival).onLink =
      h.inRequest ++ h.onLink ++ arrival.toList) :
    (h.recorded after none arrival).Serial server := by
  rcases serial.state with ⟨before, _, before_eq⟩
  rcases state_eq with ⟨req, errno, after_eq⟩
  refine ⟨?_, ⟨req, errno, ?_⟩, ?_⟩
  · simp only [recorded, Option.toList_none, List.append_nil]
    exact serial.answers
  · simp only [recorded, Option.toList_none, List.append_nil]
    rw [after_eq, before_eq]
    rfl
  · have handed_eq : (h.recorded after none arrival).handedOver = h.handedOver := by
      simp only [handedOver, recorded, Option.toList_none, List.append_nil]
    rw [List.append_assoc, moved, handed_eq, ← List.append_assoc, ← List.append_assoc,
      serial.conserved]
    rfl

/-- A call that is answered as by the server without threads. The message in the request may be handed
over by it. -/
theorem Serial.answered (serial : h.Serial server) {call : ServerCall} {answer : ServerAnswer}
    (answer_eq : ((server.performAll (h.calls.map Prod.fst)).2.perform call).1 = answer)
    (state_eq : ∃ req errno, after.server =
      ((server.performAll (h.calls.map Prod.fst)).2.perform call).2.withRequest req errno)
    (handed : call.message.toList ++ (h.recorded after (some (call, answer)) none).inRequest =
      h.inRequest)
    (inbox_eq : after.inbox = h.service.inbox) :
    (h.recorded after (some (call, answer)) none).Serial server := by
  refine ⟨?_, ?_, ?_⟩
  · simp only [recorded, Option.toList_some, List.map_append, List.map_cons, List.map_nil,
      Server.performAll_concat, serial.answers, answer_eq]
  · simp only [recorded, Option.toList_some, List.map_append, List.map_cons, List.map_nil,
      Server.performAll_concat]
    exact state_eq
  · have handed_eq : (h.recorded after (some (call, answer)) none).handedOver =
        h.handedOver ++ call.message.toList := by
      simp only [handedOver, recorded, Option.toList_some, List.filterMap_append, List.filterMap_cons,
        List.filterMap_nil]
      cases call.message <;> rfl
    have link_eq : (h.recorded after (some (call, answer)) none).onLink = h.onLink := by
      simp only [onLink, recorded, inbox_eq]
    rw [handed_eq, link_eq, List.append_assoc h.handedOver, handed, serial.conserved]
    simp only [recorded, Option.toList_none, List.append_nil]

theorem inRequest_of_idle (idle : h.service.outcome = none) : h.inRequest = [] := by
  simp only [inRequest, idle]

theorem inRequest_of_outcome {rc : ℤ} {req : Message} (found : h.service.outcome = some rc)
    (request : h.service.server.req = some req) :
    h.inRequest = if 0 < rc then [(req, rc)] else [] := by
  simp only [inRequest, found, request]
  rfl

theorem inRequest_congr {other : History} (outcome_eq : other.service.outcome = h.service.outcome)
    (req_eq : h.service.outcome ≠ none → other.service.server.req = h.service.server.req) :
    other.inRequest = h.inRequest := by
  cases found : h.service.outcome with
  | none => rw [inRequest_of_idle found, inRequest_of_idle (outcome_eq.trans found)]
  | some rc =>
      have same := req_eq (by rw [found]; exact Option.some_ne_none rc)
      simp only [inRequest, outcome_eq, found, same]

/-- What is received comes from the link. -/
theorem receive_messages {s received : Service} {reception : Reception} {rc : ℤ}
    (reception_eq : s.receive reception = some (rc, received)) : ∃ req,
    received.server = s.server.withRequest (some req) s.server.errno ∧
      (if 0 < rc then [(req, rc)] else []) ++
        received.inbox.map (fun entry => (entry.2.req, entry.2.rc)) =
          s.inbox.map fun entry => (entry.2.req, entry.2.rc) := by
  cases reception with
  | nothing rc notPositive left errno =>
      cases reception_eq
      refine ⟨left, rfl, ?_⟩
      rw [if_neg (by omega), List.nil_append]
  | message =>
      simp only [Service.receive] at reception_eq
      cases waiting : s.inbox with
      | nil =>
          rw [waiting] at reception_eq
          cases reception_eq
      | cons first inbox =>
          rcases first with ⟨number, message⟩
          rw [waiting] at reception_eq
          simp only at reception_eq
          split at reception_eq
          · cases reception_eq
            refine ⟨message.req, rfl, ?_⟩
            rw [if_pos message.positive]
            rfl
          · cases reception_eq

/-- A step that leaves the server as it is. -/
theorem Accounted.keeps (accounted : h.Accounted server) (server_eq : after.server = h.service.server)
    (outcome_eq : after.outcome = h.service.outcome) (inbox_eq : after.inbox = h.service.inbox) :
    (h.recorded after none none).Accounted server := by
  refine ⟨accounted.serial.quiet ⟨h.service.server.req, h.service.server.errno, server_eq⟩ ?_, ?_⟩
  · have same : (h.recorded after none none).inRequest = h.inRequest :=
      inRequest_congr outcome_eq fun _ => congrArg Server.req server_eq
    rw [same]
    simp only [onLink, recorded, inbox_eq, Option.toList_none, List.append_nil]
  · simp only [recorded, outcome_eq, server_eq]
    exact accounted.filled

/-- Opening the server may make a request, but does not touch the one that there is. -/
theorem Accounted.opens (accounted : h.Accounted server) (links : Links)
    (server_eq : after.server = (h.service.server.open links).2)
    (outcome_eq : after.outcome = h.service.outcome) (inbox_eq : after.inbox = h.service.inbox) :
    (h.recorded after (some (.open links, .opened (h.service.server.open links).1)) none).Accounted
      server := by
  rcases accounted.serial.state with ⟨req, errno, state_eq⟩
  rcases Server.open_withRequest (server.performAll (h.calls.map Prod.fst)).2 links req errno with
    ⟨made, opened, kept⟩
  rw [← state_eq] at opened
  have made_eq : after.server.req = made := by
    rw [server_eq, opened]
    rfl
  have same : h.service.outcome ≠ none → after.server.req = h.service.server.req := by
    intro found
    have request := accounted.filled found
    rw [made_eq, kept (by rw [state_eq] at request; exact request), state_eq]
    rfl
  refine ⟨accounted.serial.answered ?_ ⟨made, errno, ?_⟩ ?_ inbox_eq, ?_⟩
  · rw [opened]
    rfl
  · rw [server_eq, opened]
    rfl
  · exact inRequest_congr outcome_eq same
  · simp only [recorded, outcome_eq]
    intro found
    rw [same found]
    exact accounted.filled found

theorem Accounted.closes (accounted : h.Accounted server)
    (server_eq : after.server = h.service.server.closeDevice)
    (outcome_eq : after.outcome = h.service.outcome) (inbox_eq : after.inbox = h.service.inbox) :
    (h.recorded after (some (.close, .closed)) none).Accounted server := by
  rcases accounted.serial.state with ⟨req, errno, state_eq⟩
  have closed := Server.closeDevice_withRequest
    (server.performAll (h.calls.map Prod.fst)).2 req errno
  rw [← state_eq] at closed
  have same : after.server.req = h.service.server.req := by
    rw [server_eq, closed, state_eq]
    rfl
  refine ⟨accounted.serial.answered rfl ⟨req, errno, ?_⟩ ?_ inbox_eq, ?_⟩
  · rw [server_eq, closed]
    rfl
  · exact inRequest_congr outcome_eq fun _ => same
  · simp only [recorded, outcome_eq, same]
    exact accounted.filled

/-- Receiving moves a message from the link to the request. -/
theorem Accounted.receives (accounted : h.Accounted server) {reception : Reception} {rc : ℤ}
    {received : Service} (idle : h.service.outcome = none)
    (reception_eq : h.service.receive reception = some (rc, received))
    (server_eq : after.server = received.server) (outcome_eq : after.outcome = some rc)
    (inbox_eq : after.inbox = received.inbox) : (h.recorded after none none).Accounted server := by
  rcases receive_messages reception_eq with ⟨next, received_eq, moved⟩
  have request : after.server.req = some next := by
    rw [server_eq, received_eq]
    rfl
  refine ⟨accounted.serial.quiet ⟨some next, _, server_eq.trans received_eq⟩ ?_, ?_⟩
  · rw [inRequest_of_outcome (h := h.recorded after none none) outcome_eq request,
      inRequest_of_idle idle]
    simp only [onLink, recorded, inbox_eq, Option.toList_none, List.append_nil, List.nil_append]
    exact moved
  · intro _
    simp only [recorded, request, Option.isSome_some]

/-- The server without threads receives the message just before it handles it. -/
theorem Accounted.handles (accounted : h.Accounted server) {rc : ℤ} {errno : Errno} {links : Links}
    {reply : ModbusReply} (found : h.service.outcome = some rc)
    (server_eq : after.server = ({ h.service.server with errno }.task links reply rc).server)
    (idle : after.outcome = none) (inbox_eq : after.inbox = h.service.inbox) :
    (h.recorded after (h.service.handing errno links reply rc) none).Accounted server := by
  rcases accounted.serial.state with ⟨req, before, state_eq⟩
  rcases Option.isSome_iff_exists.mp (accounted.filled (by rw [found]; exact Option.some_ne_none rc))
    with ⟨request, request_eq⟩
  have received : (server.performAll (h.calls.map Prod.fst)).2.received
      { req := request, rc, errno, links, reply } = { h.service.server with errno } := by
    rw [state_eq] at request_eq ⊢
    simp only [Server.withRequest] at request_eq
    simp only [Server.received, Server.withRequest, request_eq]
  have handed : h.service.handing errno links reply rc = some
      (.deliver { req := request, rc, errno, links, reply },
        .handled ({ h.service.server with errno }.task links reply rc).result
          ({ h.service.server with errno }.task links reply rc).stages) := by
    simp only [Service.handing, request_eq, Option.map_some]
  rw [handed]
  refine ⟨accounted.serial.answered ?_ ⟨after.server.req, after.server.errno, ?_⟩ ?_ inbox_eq, ?_⟩
  · simp only [Server.perform, Server.deliver, received]
  · simp only [Server.perform, Server.next, Server.deliver, received, ← server_eq]
    rfl
  · rw [inRequest_of_idle (h := h.recorded after _ none) idle,
      inRequest_of_outcome found request_eq, List.append_nil]
    simp only [ServerCall.message]
    split <;> rfl
  · intro contrary
    exact absurd idle contrary

theorem Accounted.arrives (accounted : h.Accounted server) (message : Incoming)
    (server_eq : after.server = h.service.server) (outcome_eq : after.outcome = h.service.outcome)
    (inbox_eq : after.inbox = h.service.inbox ++ [(h.service.arrived, message)]) :
    (h.recorded after none (some (message.req, message.rc))).Accounted server := by
  refine ⟨accounted.serial.quiet ⟨h.service.server.req, h.service.server.errno, server_eq⟩ ?_, ?_⟩
  · have same : (h.recorded after none (some (message.req, message.rc))).inRequest = h.inRequest :=
      inRequest_congr outcome_eq fun _ => congrArg Server.req server_eq
    rw [same]
    simp only [onLink, recorded, inbox_eq, Option.toList_some, List.map_append, List.map_cons,
      List.map_nil, List.append_assoc]
  · simp only [recorded, outcome_eq, server_eq]
    exact accounted.filled

theorem effect_accounted {call : Option (ServerCall × ServerAnswer)} {arrival : Option (Message × ℤ)}
    (accounted : h.Accounted server) (effect : h.service.Effect call arrival after) :
    (h.recorded after call arrival).Accounted server := by
  cases effect with
  | keeps server_eq outcome_eq inbox_eq => exact accounted.keeps server_eq outcome_eq inbox_eq
  | opens links server_eq outcome_eq inbox_eq =>
      exact accounted.opens links server_eq outcome_eq inbox_eq
  | closes server_eq outcome_eq inbox_eq => exact accounted.closes server_eq outcome_eq inbox_eq
  | receives idle reception_eq server_eq outcome_eq inbox_eq =>
      exact accounted.receives idle reception_eq server_eq outcome_eq inbox_eq
  | handles found server_eq idle inbox_eq => exact accounted.handles found server_eq idle inbox_eq
  | arrives message server_eq outcome_eq inbox_eq =>
      exact accounted.arrives message server_eq outcome_eq inbox_eq

theorem step_ordered {event : Service.Event} (ordered : h.Ordered server)
    (guarded : h.service.StartsAlone event) : (h.step event).Ordered server := by
  cases alive : h.service.aborted with
  | true =>
      have stays : h.step event = h := by
        simp only [step, Service.step, Service.call, Service.arrival, alive, if_true,
          Option.toList_none, List.append_nil]
      rw [stays]
      exact ordered
  | false =>
      have accounted := effect_accounted ordered.toAccounted
        (Service.step_effect ordered.orderly guarded alive)
      exact ⟨accounted, Service.step_orderly ordered.orderly guarded⟩

/-- The service of a history is the one of the run. -/
theorem service_foldl (events : List Service.Event) (h : History) :
    (events.foldl step h).service = events.foldl Service.step h.service := by
  induction events generalizing h with
  | nil => rfl
  | cons event events ih => exact ih (h.step event)

theorem along_step {guard : Service → Service.Event → Prop} {events : List Service.Event}
    (guarded : Process.Along Service.step guard h.service events) :
    Process.Along step (fun h event => guard h.service event) h events := by
  induction events generalizing h with
  | nil => trivial
  | cons event events ih =>
      rcases guarded with ⟨first, rest⟩
      exact ⟨first, ih (h := h.step event) rest⟩

theorem ordered_of_run (server : Server) {events : List Service.Event}
    (guarded : Process.Along Service.step Service.StartsAlone (.create server) events) :
    (events.foldl step (create server)).Ordered server :=
  Process.Along.foldl_invariant (Ordered server) step_ordered (create_ordered server)
    (along_step (h := create server) guarded)

/-- Whatever the interleaving of the calls, the threads and the arrivals: when the daemon is only started
while no task of `poll` is outstanding, the history is serial. -/
theorem serial_of_run (server : Server) (events : List Service.Event)
    (guarded : Process.Along Service.step Service.StartsAlone (.create server) events) :
    (events.foldl step (create server)).Serial server ∧
      (events.foldl step (create server)).service = events.foldl Service.step (.create server) :=
  ⟨(ordered_of_run server guarded).serial, service_foldl events (create server)⟩

/-- A message that the daemon hands over while another one arrives. -/
theorem serial_of_run_onLine : ∃ req,
    Message.create (.net .rtu) (.adu [2, 3, 0, 0, 0, 1, 0x84, 0x39]) = .ok req ∧
      ∀ message : Incoming, message = { req, rc := 8, positive := by decide } →
        let events := [.open Service.connected, .arrive message, .run, .daemonWake,
          .daemonReceive .message, .arrive message, .daemonHandle Service.connected .singleRegister]
        let h := events.foldl step (create Service.onLine)
        h.handedOver = [(req, 8)] ∧ h.onLink = [(req, 8)] ∧ h.Serial Service.onLine := by
  refine ⟨_, rfl, ?_⟩
  rintro message rfl
  refine ⟨rfl, rfl, (serial_of_run Service.onLine _ ?_).1⟩
  exact ⟨fun _ _ => rfl, fun _ _ => rfl, fun _ _ => rfl, fun _ _ => rfl, fun _ _ => rfl,
    fun _ _ => rfl, fun _ _ => rfl, trivial⟩

end History

end Modbuspp
