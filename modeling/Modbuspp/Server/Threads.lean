import Modbuspp.Server.Task

/-!
# The threads of a server

`poll` leaves it to an asynchronous task to receive a message, and the task outlives a call whose time is
over. `run` starts a daemon that receives and handles messages in turn, until a promise tells it to stop.
Both receive into the request of the server. The program makes its calls one after the other; what the
threads do and when messages arrive interleaves with the calls in any order.
-/

namespace Modbuspp

/-- A message on the link, with the length that `modbus_receive` returns for it. -/
structure Incoming where
  req : Message
  rc : ℤ
  positive : 0 < rc

/-- How `receive` returns: with the next message, or with none, where `left` is what is in the request then. -/
inductive Reception where
  | message
  | nothing (rc : ℤ) (notPositive : rc ≤ 0) (left : Message) (errno : Errno)

/-- What `errno` is then in the thread that has received. After a message nothing looks at it. -/
def Reception.errno : Reception → Errno
  | .message => .none
  | .nothing _ _ _ errno => errno

/-- The task behind the future `receiveTask`. Its thread ends with it, and its `errno` is lost. -/
inductive ReceiveTask where
  | receiving
  | ready (rc : ℤ)
deriving DecidableEq

/-- Where the daemon is in its loop: it waits for the promise, receives, or handles what it has received, with
the `errno` that receiving has left to it. -/
inductive Daemon where
  | waiting
  | receiving
  | handling (rc : ℤ) (errno : Errno)
  | finished
deriving DecidableEq

/-- `std::promise<void>`. -/
structure StopPromise where
  retrieved : Bool
  satisfied : Bool

namespace StopPromise

/-- The promise that the server is made with. -/
def new : StopPromise := { retrieved := false, satisfied := false }

/-- `std::promise::get_future`, which can be called once. -/
def getFuture (promise : StopPromise) : Except Fault StopPromise :=
  if promise.retrieved then .error .futureAlreadyRetrieved else .ok { promise with retrieved := true }

/-- `std::promise::set_value`, which can be called once. -/
def setValue (promise : StopPromise) : Except Fault StopPromise :=
  if promise.satisfied then .error .promiseAlreadySatisfied else .ok { promise with satisfied := true }

end StopPromise

/-- What the program does: it waits in `poll`, or in `terminate` for the daemon to end, which `close` may have
called. -/
inductive Caller where
  | idle
  | polling
  | joining (closes : Bool)
deriving DecidableEq

/-- A server and the threads that work on it. -/
structure Service where
  server : Server
  receiveTask : Option ReceiveTask
  daemon : Option Daemon
  stopDaemon : StopPromise
  caller : Caller
  /-- The messages on the link, each with its number. What a link that closes loses has not arrived. -/
  inbox : List (ℕ × Incoming)
  arrived : ℕ
  /-- The number of the message in the request. -/
  content : Option ℕ
  /-- The messages that were handed to `task`, the latest one first. -/
  handed : List ℕ
  /-- An exception has left the daemon, which ends the program. -/
  aborted : Bool

namespace Service

/-- A server of which no thread has been started. -/
def create (server : Server) : Service where
  server := server
  receiveTask := none
  daemon := none
  stopDaemon := .new
  caller := .idle
  inbox := []
  arrived := 0
  content := none
  handed := []
  aborted := false

/-- `Device::isOpen`. -/
def isOpen (s : Service) : Bool := s.server.device.isOpen

/-- `Server::isRunning`. The thread is joinable until `terminate` has joined it. -/
def isRunning (s : Service) : Bool := s.daemon.isSome

/-- `Device::open`. -/
def «open» (s : Service) (links : Links) : Except Fault Bool × Service :=
  let (result, server) := s.server.open links
  (result, { s with server })

/-- The part of `poll` that precedes the wait. -/
def poll (s : Service) : Service :=
  if !s.isRunning && s.isOpen then
    { s with receiveTask := some (s.receiveTask.getD .receiving), caller := .polling }
  else s

/-- `Server::run`. -/
def run (s : Service) : Except Fault Bool × Service :=
  if !s.isRunning && s.isOpen then
    match s.stopDaemon.getFuture with
    | .error fault => (.error fault, s)
    | .ok stopDaemon =>
        let s := { s with stopDaemon, daemon := some .waiting }
        (.ok s.isRunning, s)
  else (.ok s.isRunning, s)

/-- `terminate` up to the end of the daemon, and what `close` does afterwards. -/
def terminate (s : Service) (closes : Bool) : Except Fault Unit × Service :=
  if s.isRunning then
    match s.stopDaemon.setValue with
    | .error fault => (.error fault, s)
    | .ok stopDaemon => (.ok (), { s with stopDaemon, caller := .joining closes })
  else (.ok (), if closes then { s with server := s.server.closeDevice } else s)

/-- `Server::close` up to the end of the daemon. -/
def close (s : Service) : Except Fault Unit × Service :=
  if s.isOpen then s.terminate true else (.ok (), s)

/-- The end of `terminate`, when the daemon has ended. -/
def joined (s : Service) (closes : Bool) : Service :=
  let s := { s with daemon := none, caller := .idle }
  if closes then { s with server := s.server.closeDevice } else s

/-- The end of `receive`, which waits while there is no message on an open link. -/
def receive (s : Service) : Reception → Option (ℤ × Service)
  | .nothing rc _ left _ =>
      some (rc, { s with server := { s.server with req := some left }, content := none })
  | .message =>
      match s.inbox with
      | [] => none
      | (number, message) :: inbox =>
          if s.server.Listening then
            some (message.rc, { s with
              server := { s.server with req := some message.req }
              inbox
              content := some number })
          else none

/-- A call of `task` by a thread with this `errno`. -/
def handle (s : Service) (errno : Errno) (links : Links) (reply : ModbusReply) (rc : ℤ) :
    Except Fault ℤ × Service :=
  let handled := { s.server with errno }.task links reply rc
  (handled.result, { s with
    server := handled.server
    handed := if 0 < rc then s.content.toList ++ s.handed else s.handed })

/-- The time of `poll` is over. -/
def expire (s : Service) : Service :=
  match s.caller, s.receiveTask with
  | .polling, some .receiving => { s with caller := .idle }
  | _, _ => s

/-- The end of `poll` when the task has received. What `errno` is in the thread of the program has nothing to
do with the reception. -/
def take (s : Service) (errno : Errno) (links : Links) (reply : ModbusReply) : Service :=
  match s.caller, s.receiveTask with
  | .polling, some (.ready rc) =>
      ({ s with receiveTask := none, caller := .idle }.handle errno links reply rc).2
  | _, _ => s

/-- The end of `terminate` when the daemon has ended. -/
def join (s : Service) : Service :=
  match s.caller, s.daemon with
  | .joining closes, some .finished => s.joined closes
  | _, _ => s

/-- The end of the task that `poll` has started. -/
def taskReceive (s : Service) (reception : Reception) : Service :=
  match s.receiveTask, s.receive reception with
  | some .receiving, some (rc, s) => { s with receiveTask := some (.ready rc) }
  | _, _ => s

/-- The condition of the loop of the daemon, after a wait of 100 ms or when the promise is fulfilled. -/
def daemonWake (s : Service) : Service :=
  match s.daemon with
  | some .waiting =>
      { s with daemon := some (if s.stopDaemon.satisfied then .finished else .receiving) }
  | _ => s

/-- The end of `receive` in the loop of the daemon. -/
def daemonReceive (s : Service) (reception : Reception) : Service :=
  match s.daemon, s.receive reception with
  | some .receiving, some (rc, s) => { s with daemon := some (.handling rc reception.errno) }
  | _, _ => s

/-- The call of `task` in the loop of the daemon, which an exception leaves. -/
def daemonHandle (s : Service) (links : Links) (reply : ModbusReply) : Service :=
  match s.daemon with
  | some (.handling rc errno) =>
      match s.handle errno links reply rc with
      | (.ok _, s) => { s with daemon := some .waiting }
      | (.error _, s) => { s with daemon := some .finished, aborted := true }
  | _ => s

/-- The calls of the program and the ends of those that wait, the arrival of messages, and what the two
threads do. -/
inductive Event where
  | open (links : Links)
  | poll
  | expire
  | take (errno : Errno) (links : Links) (reply : ModbusReply)
  | run
  | terminate
  | close
  | join
  | arrive (message : Incoming)
  | taskReceive (reception : Reception)
  | daemonWake
  | daemonReceive (reception : Reception)
  | daemonHandle (links : Links) (reply : ModbusReply)

/-- A call, which the program makes when it is in no other. -/
def called (s : Service) (call : Service → Service) : Service :=
  match s.caller with
  | .idle => call s
  | _ => s

/-- One step. An event that cannot happen in a state leaves it as it is. -/
def step (s : Service) (event : Event) : Service :=
  if s.aborted then s
  else
    match event with
    | .open links => s.called fun s => (s.open links).2
    | .poll => s.called poll
    | .expire => s.expire
    | .take errno links reply => s.take errno links reply
    | .run => s.called fun s => s.run.2
    | .terminate => s.called fun s => (s.terminate false).2
    | .close => s.called fun s => s.close.2
    | .join => s.join
    | .arrive message =>
        { s with inbox := s.inbox ++ [(s.arrived, message)], arrived := s.arrived + 1 }
    | .taskReceive reception => s.taskReceive reception
    | .daemonWake => s.daemonWake
    | .daemonReceive reception => s.daemonReceive reception
    | .daemonHandle links reply => s.daemonHandle links reply

/-- `run` is called while the server is open and not running. -/
def runs (s : Service) : Event → Bool
  | .run => !s.aborted && decide (s.caller = .idle) && !s.isRunning && s.isOpen
  | _ => false

theorem runs_iff {s : Service} {event : Event} : s.runs event = true ↔
    event = .run ∧ s.aborted = false ∧ s.caller = .idle ∧ s.daemon = none ∧ s.isOpen = true := by
  cases event <;> simp [runs, isRunning, and_assoc]

/-- The effects of the events, each with the state it needs. -/
inductive Move (s : Service) : Event → Service → Prop where
  | none {event : Event} : Move s event s
  | opens (links : Links) : Move s (.open links) { s with server := (s.server.open links).2 }
  | polls (stopped : s.daemon = none) : Move s .poll
      { s with receiveTask := some (s.receiveTask.getD .receiving), caller := .polling }
  | expires (polling : s.caller = .polling) : Move s .expire { s with caller := .idle }
  | takes {rc : ℤ} {errno : Errno} {links : Links} {reply : ModbusReply} (polling : s.caller = .polling)
      (ready : s.receiveTask = some (.ready rc)) : Move s (.take errno links reply)
        ({ s with receiveTask := none, caller := .idle }.handle errno links reply rc).2
  | starts (idle : s.caller = .idle) (stopped : s.daemon = none) (open_ : s.isOpen = true)
      (first : s.stopDaemon.retrieved = false) : Move s .run
        { s with stopDaemon := { s.stopDaemon with retrieved := true }, daemon := some .waiting }
  | signals {event : Event} {closes : Bool} (idle : s.caller = .idle)
      (running : s.daemon.isSome = true) : Move s event
        { s with stopDaemon := { s.stopDaemon with satisfied := true }, caller := .joining closes }
  | closes (stopped : s.daemon = none) : Move s .close { s with server := s.server.closeDevice }
  | joins {closes : Bool} (joining : s.caller = .joining closes)
      (finished : s.daemon = some .finished) : Move s .join (s.joined closes)
  | arrives (message : Incoming) : Move s (.arrive message)
      { s with inbox := s.inbox ++ [(s.arrived, message)], arrived := s.arrived + 1 }
  | taskReceives {reception : Reception} {rc : ℤ} {after : Service}
      (receiving : s.receiveTask = some .receiving) (received : s.receive reception = some (rc, after)) :
      Move s (.taskReceive reception) { after with receiveTask := some (.ready rc) }
  | wakes (waiting : s.daemon = some .waiting) : Move s .daemonWake
      { s with daemon := some (if s.stopDaemon.satisfied then .finished else .receiving) }
  | daemonReceives {reception : Reception} {rc : ℤ} {after : Service}
      (receiving : s.daemon = some .receiving) (received : s.receive reception = some (rc, after)) :
      Move s (.daemonReceive reception)
        { after with daemon := some (.handling rc reception.errno) }
  | handles {rc : ℤ} {errno : Errno} {links : Links} {reply : ModbusReply}
      (handling : s.daemon = some (.handling rc errno)) : Move s (.daemonHandle links reply)
        { (s.handle errno links reply rc).2 with daemon := some .waiting }
  | aborts {rc : ℤ} {errno : Errno} {links : Links} {reply : ModbusReply}
      (handling : s.daemon = some (.handling rc errno)) : Move s (.daemonHandle links reply)
        { (s.handle errno links reply rc).2 with daemon := some .finished, aborted := true }

variable {s : Service} {event : Event}

theorem called_move {call : Service → Service} (move : s.caller = .idle → s.Move event (call s)) :
    s.Move event (s.called call) := by
  simp only [called]
  split
  · next idle => exact move idle
  · exact .none

theorem startable_iff :
    (!s.isRunning && s.isOpen) = true ↔ s.daemon = none ∧ s.isOpen = true := by
  simp only [isRunning, Bool.and_eq_true, Bool.not_eq_true', Option.isSome_eq_false_iff,
    Option.isNone_iff_eq_none]

theorem poll_move (s : Service) : s.Move .poll s.poll := by
  simp only [poll]
  split
  · next polling => exact .polls (startable_iff.mp polling).1
  · exact .none

theorem run_move (idle : s.caller = .idle) : s.Move .run s.run.2 := by
  simp only [run]
  split
  · next starting =>
    rcases startable_iff.mp starting with ⟨stopped, open_⟩
    simp only [StopPromise.getFuture]
    cases first : s.stopDaemon.retrieved with
    | true => exact .none
    | false => exact .starts idle stopped open_ first
  · exact .none

theorem terminate_move (idle : s.caller = .idle) (closes : Bool)
    (event_eq : closes = true → event = .close) : s.Move event (s.terminate closes).2 := by
  simp only [terminate]
  split
  · next running =>
    simp only [StopPromise.setValue]
    cases s.stopDaemon.satisfied with
    | true => exact .none
    | false => exact .signals idle running
  · next stopped =>
    cases closes with
    | false => exact .none
    | true =>
        rw [event_eq rfl]
        exact .closes (Option.not_isSome_iff_eq_none.mp stopped)

theorem close_move (idle : s.caller = .idle) : s.Move .close s.close.2 := by
  simp only [close]
  split
  · exact terminate_move idle true fun _ => rfl
  · exact .none

theorem expire_move (s : Service) : s.Move .expire s.expire := by
  simp only [expire]
  split
  · next polling _ => exact .expires polling
  · exact .none

theorem take_move (s : Service) (errno : Errno) (links : Links) (reply : ModbusReply) :
    s.Move (.take errno links reply) (s.take errno links reply) := by
  simp only [take]
  split
  · next polling ready => exact .takes polling ready
  · exact .none

theorem join_move (s : Service) : s.Move .join s.join := by
  simp only [join]
  split
  · next joining finished => exact .joins joining finished
  · exact .none

theorem taskReceive_move (s : Service) (reception : Reception) :
    s.Move (.taskReceive reception) (s.taskReceive reception) := by
  simp only [taskReceive]
  split
  · next receiving received => exact .taskReceives receiving received
  · exact .none

theorem daemonWake_move (s : Service) : s.Move .daemonWake s.daemonWake := by
  simp only [daemonWake]
  split
  · next waiting => exact .wakes waiting
  · exact .none

theorem daemonReceive_move (s : Service) (reception : Reception) :
    s.Move (.daemonReceive reception) (s.daemonReceive reception) := by
  simp only [daemonReceive]
  split
  · next receiving received => exact .daemonReceives receiving received
  · exact .none

theorem daemonHandle_move (s : Service) (links : Links) (reply : ModbusReply) :
    s.Move (.daemonHandle links reply) (s.daemonHandle links reply) := by
  simp only [daemonHandle]
  split
  · next rc errno handling =>
    split
    · next handled =>
      have moved : s.Move (.daemonHandle links reply)
        { (s.handle errno links reply rc).2 with daemon := some .waiting } := .handles handling
      rw [handled] at moved
      exact moved
    · next handled =>
      have moved : s.Move (.daemonHandle links reply)
        { (s.handle errno links reply rc).2 with daemon := some .finished, aborted := true } :=
          .aborts handling
      rw [handled] at moved
      exact moved
  · exact .none

/-- Every step is a move. -/
theorem step_move (s : Service) (event : Event) : s.Move event (s.step event) := by
  simp only [step]
  split
  · exact .none
  · cases event with
    | «open» links => exact called_move fun _ => .opens links
    | poll => exact called_move fun _ => poll_move s
    | expire => exact expire_move s
    | take errno links reply => exact take_move s errno links reply
    | run => exact called_move run_move
    | terminate =>
        apply called_move
        intro idle
        exact terminate_move idle false fun contrary => by cases contrary
    | close => exact called_move close_move
    | join => exact join_move s
    | arrive message => exact .arrives message
    | taskReceive reception => exact taskReceive_move s reception
    | daemonWake => exact daemonWake_move s
    | daemonReceive reception => exact daemonReceive_move s reception
    | daemonHandle links reply => exact daemonHandle_move s links reply

/-- Receiving changes the request of the server, and what is on the link. -/
theorem receive_frame {reception : Reception} {rc : ℤ} {after : Service}
    (received : s.receive reception = some (rc, after)) :
    ∃ req inbox content, after = { s with server := { s.server with req }, inbox, content } := by
  cases reception with
  | nothing _ _ _ _ =>
      cases received
      exact ⟨_, _, _, rfl⟩
  | message =>
      simp only [receive] at received
      split at received
      · cases received
      · split at received
        · cases received
          exact ⟨_, _, _, rfl⟩
        · cases received

/-- A closed server on a serial line. It drops the messages of slaves that it does not have. -/
def onLine : Server := { Server.routing 7 with device := Device.create .rtu Context.silent }

/-- Every link can be opened. -/
def connected : Links := { listen := none, connect := true, connectMaster := fun _ => true }

end Service

end Modbuspp
