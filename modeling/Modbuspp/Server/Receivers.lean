import Mathlib.Data.List.Nodup
import Modbuspp.Library.Process
import Modbuspp.Server.Threads

/-!
# One receiver at a time

`run` looks for another daemon, not for a task that `poll` has left behind. When there is none, the daemon and
the task exclude each other from then on, and every message passes from the link through the request to
`task` once.
-/

namespace Modbuspp

namespace Service

/-- At most one thread receives, and no message was handed to `task` twice. -/
structure Exclusive (s : Service) : Prop where
  receivers : ¬(s.receiveTask = some .receiving ∧ s.daemon = some .receiving)
  once : s.handed.Nodup

/-- The daemon is started only when no task of `poll` is outstanding. -/
def StartsAlone (s : Service) (event : Event) : Prop :=
  s.runs event = true → s.stopDaemon.retrieved = false → s.receiveTask = none

/-- What a thread has received and not yet handed to `task`. -/
def outcome (s : Service) : Option ℤ :=
  match s.daemon, s.receiveTask with
  | some (.handling rc _), _ => some rc
  | _, some (.ready rc) => some rc
  | _, _ => none

/-- The message in the request, while it is still to be handed to `task`. -/
def pending (s : Service) : List ℕ :=
  match s.outcome with
  | some rc => if 0 < rc then s.content.toList else []
  | none => []

/-- All messages that are not lost, in the order in which they are handed to `task`. -/
def ledger (s : Service) : List ℕ := s.handed.reverse ++ s.pending ++ s.inbox.map Prod.fst

/-- The invariant: the daemon and the task exclude each other, and each message has one place. -/
structure Orderly (s : Service) : Prop where
  alone : s.daemon = none ∨ s.receiveTask = none
  nodup : s.ledger.Nodup
  numbered : ∀ n ∈ s.ledger, n < s.arrived

variable {s after : Service} {event : Event}

theorem Orderly.exclusive (orderly : s.Orderly) : s.Exclusive := by
  constructor
  · rintro ⟨task, daemon⟩
    rcases orderly.alone with none_eq | none_eq
    · rw [none_eq] at daemon
      cases daemon
    · rw [none_eq] at task
      cases task
  · have nodup := orderly.nodup
    simp only [ledger, List.append_assoc] at nodup
    exact List.nodup_reverse.mp nodup.of_append_left

/-- A state with the same messages in the same places. -/
theorem Orderly.of_ledger (orderly : s.Orderly) (alone : after.daemon = none ∨ after.receiveTask = none)
    (ledger_eq : after.ledger = s.ledger) (arrived_eq : after.arrived = s.arrived) : after.Orderly := by
  refine ⟨alone, ?_, ?_⟩
  · rw [ledger_eq]
    exact orderly.nodup
  · rw [ledger_eq, arrived_eq]
    exact orderly.numbered

theorem create_orderly (server : Server) : (create server).Orderly := by
  refine ⟨.inl rfl, List.nodup_nil, ?_⟩
  intro n mem
  cases mem

theorem ledger_of_idle (idle : s.outcome = none) :
    s.ledger = s.handed.reverse ++ s.inbox.map Prod.fst := by
  simp only [ledger, pending, idle, List.append_nil]

theorem ledger_of_outcome {rc : ℤ} (found : s.outcome = some rc) :
    s.ledger = s.handed.reverse ++ (if 0 < rc then s.content.toList else []) ++
      s.inbox.map Prod.fst := by
  simp only [ledger, pending, found]

/-- Receiving moves the next message from the link to the request. -/
theorem receive_moves {reception : Reception} {rc : ℤ}
    (received : s.receive reception = some (rc, after)) :
    (if 0 < rc then after.content.toList else []) ++ after.inbox.map Prod.fst =
      s.inbox.map Prod.fst := by
  cases reception with
  | nothing rc notPositive left errno =>
      cases received
      rw [if_neg (by omega), List.nil_append]
  | message =>
      simp only [receive] at received
      cases waiting : s.inbox with
      | nil =>
          rw [waiting] at received
          cases received
      | cons first inbox =>
          rcases first with ⟨number, message⟩
          rw [waiting] at received
          simp only at received
          split at received
          · cases received
            rw [if_pos message.positive]
            rfl
          · cases received

/-- A thread that has received, where no other was under way. -/
theorem receive_orderly {reception : Reception} {rc : ℤ} (orderly : s.Orderly) (idle : s.outcome = none)
    (received : s.receive reception = some (rc, after)) {final : Service}
    (alone : final.daemon = none ∨ final.receiveTask = none) (found : final.outcome = some rc)
    (handed_eq : final.handed = s.handed) (content_eq : final.content = after.content)
    (inbox_eq : final.inbox = after.inbox) (arrived_eq : final.arrived = s.arrived) :
    final.Orderly := by
  apply orderly.of_ledger alone _ arrived_eq
  rw [ledger_of_outcome found, ledger_of_idle idle, handed_eq, content_eq, inbox_eq,
    List.append_assoc, receive_moves received]

/-- Handling moves the message from the request to `task`. -/
theorem handle_orderly {rc : ℤ} (orderly : s.Orderly) (found : s.outcome = some rc)
    {final : Service} (alone : final.daemon = none ∨ final.receiveTask = none)
    (idle : final.outcome = none)
    (handed_eq : final.handed = if 0 < rc then s.content.toList ++ s.handed else s.handed)
    (inbox_eq : final.inbox = s.inbox) (arrived_eq : final.arrived = s.arrived) : final.Orderly := by
  apply orderly.of_ledger alone _ arrived_eq
  rw [ledger_of_idle idle, ledger_of_outcome found, handed_eq, inbox_eq]
  split
  · cases s.content <;> simp
  · rw [List.append_nil]

/-- A step between two states in which the request holds nothing to be handed over. -/
theorem idle_orderly (orderly : s.Orderly) (idle : s.outcome = none)
    (alone : after.daemon = none ∨ after.receiveTask = none) (idle' : after.outcome = none)
    (handed_eq : after.handed = s.handed) (inbox_eq : after.inbox = s.inbox)
    (arrived_eq : after.arrived = s.arrived) : after.Orderly := by
  apply orderly.of_ledger alone _ arrived_eq
  rw [ledger_of_idle idle', ledger_of_idle idle, handed_eq, inbox_eq]

/-- A message that arrives has a number of its own. -/
theorem arrive_orderly (orderly : s.Orderly) (message : Incoming) :
    Orderly { s with inbox := s.inbox ++ [(s.arrived, message)], arrived := s.arrived + 1 } := by
  have ledger_eq : ledger { s with
      inbox := s.inbox ++ [(s.arrived, message)], arrived := s.arrived + 1 } =
        s.ledger ++ [s.arrived] := by
    simp only [ledger, pending, outcome, List.map_append, List.map_cons, List.map_nil,
      List.append_assoc]
  refine ⟨orderly.alone, ?_, ?_⟩
  · rw [ledger_eq]
    apply List.Nodup.append orderly.nodup (List.nodup_singleton _)
    intro n old fresh
    have := orderly.numbered n old
    have := List.mem_singleton.mp fresh
    omega
  · rw [ledger_eq]
    intro n mem
    rcases List.mem_append.mp mem with old | fresh
    · have := orderly.numbered n old
      simp only
      omega
    · rw [List.mem_singleton.mp fresh]
      exact Nat.lt_succ_self _

theorem Orderly.outstanding (orderly : s.Orderly) {phase : Daemon} (running : s.daemon = some phase) :
    s.receiveTask = none := by
  apply orderly.alone.resolve_left
  rw [running]
  exact Option.some_ne_none _

theorem Orderly.stopped (orderly : s.Orderly) {task : ReceiveTask} (found : s.receiveTask = some task) :
    s.daemon = none := by
  apply orderly.alone.resolve_right
  rw [found]
  exact Option.some_ne_none _

theorem move_orderly (orderly : s.Orderly) (guarded : s.StartsAlone event)
    (alive : s.aborted = false) (move : s.Move event after) : after.Orderly := by
  cases move with
  | none => exact orderly
  | opens links => exact orderly.of_ledger orderly.alone rfl rfl
  | polls stopped =>
      refine orderly.of_ledger (.inl stopped) ?_ rfl
      have same : outcome { s with
          receiveTask := some (s.receiveTask.getD .receiving), caller := .polling } = s.outcome := by
        simp only [outcome, stopped]
        cases s.receiveTask <;> rfl
      simp only [ledger, pending, same]
  | expires polling => exact orderly.of_ledger orderly.alone rfl rfl
  | takes polling ready =>
      have stopped := orderly.stopped ready
      refine handle_orderly orderly ?_ (.inl stopped) ?_ rfl rfl rfl
      · simp only [outcome, stopped, ready]
      · simp only [outcome, handle, stopped]
  | starts idle stopped open_ first =>
      have outstanding := guarded (runs_iff.mpr ⟨rfl, alive, idle, stopped, open_⟩) first
      refine idle_orderly orderly ?_ (.inr outstanding) ?_ rfl rfl rfl
      · simp only [outcome, stopped, outstanding]
      · simp only [outcome, outstanding]
  | signals idle running => exact orderly.of_ledger orderly.alone rfl rfl
  | closes stopped => exact orderly.of_ledger orderly.alone rfl rfl
  | joins joining finished =>
      have outstanding := orderly.outstanding finished
      have idle : s.outcome = none := by simp only [outcome, finished, outstanding]
      simp only [joined]
      split
      · refine idle_orderly orderly idle (.inl rfl) ?_ rfl rfl rfl
        simp only [outcome, outstanding]
      · refine idle_orderly orderly idle (.inl rfl) ?_ rfl rfl rfl
        simp only [outcome, outstanding]
  | arrives message => exact arrive_orderly orderly message
  | taskReceives receiving received =>
      have stopped := orderly.stopped receiving
      have idle : s.outcome = none := by simp only [outcome, stopped, receiving]
      rcases receive_frame received with ⟨req, inbox, content, rfl⟩
      refine receive_orderly orderly idle received (.inl stopped) ?_ rfl rfl rfl rfl
      simp only [outcome, stopped]
  | wakes waiting =>
      have outstanding := orderly.outstanding waiting
      refine idle_orderly orderly ?_ (.inr outstanding) ?_ rfl rfl rfl
      · simp only [outcome, waiting, outstanding]
      · simp only [outcome, outstanding]
        cases s.stopDaemon.satisfied <;> rfl
  | daemonReceives receiving received =>
      have outstanding := orderly.outstanding receiving
      have idle : s.outcome = none := by simp only [outcome, receiving, outstanding]
      rcases receive_frame received with ⟨req, inbox, content, rfl⟩
      exact receive_orderly orderly idle received (.inr outstanding) rfl rfl rfl rfl rfl
  | handles handling =>
      have outstanding := orderly.outstanding handling
      refine handle_orderly orderly ?_ (.inr outstanding) ?_ rfl rfl rfl
      · simp only [outcome, handling]
      · simp only [outcome, handle, outstanding]
  | aborts handling =>
      have outstanding := orderly.outstanding handling
      refine handle_orderly orderly ?_ (.inr outstanding) ?_ rfl rfl rfl
      · simp only [outcome, handling]
      · simp only [outcome, handle, outstanding]

theorem step_orderly (orderly : s.Orderly) (guarded : s.StartsAlone event) :
    (s.step event).Orderly := by
  cases alive : s.aborted with
  | true =>
      simp only [step, alive, if_true]
      exact orderly
  | false => exact move_orderly orderly guarded alive (step_move s event)

/-- In every run in which the daemon is only started when no task of `poll` is outstanding, at most one
thread receives at any time and each message is handed over at most once. -/
theorem exclusive_along (server : Server) (events : List Event)
    (guarded : Process.Along step StartsAlone (create server) events) :
    Process.Along step (fun s event => s.Exclusive ∧ (s.step event).Exclusive) (create server) events := by
  apply Process.Along.of_invariant Orderly _ _ (create_orderly server) guarded
  · exact step_orderly
  · intro s event orderly alone
    exact ⟨orderly.exclusive, (step_orderly orderly alone).exclusive⟩

theorem exclusive_along_of_run :
    Process.Along step (fun s event => s.Exclusive ∧ (s.step event).Exclusive) (create onLine)
      [.open connected, .run, .daemonWake, .poll, .terminate] := by
  apply exclusive_along
  exact ⟨fun _ _ => rfl, fun _ _ => rfl, fun _ _ => rfl, fun _ _ => rfl, fun _ _ => rfl, trivial⟩

/-- The daemon starts while the task of `poll` still receives, or still has its result. -/
theorem task_outlives_poll :
    ¬Process.Along step (fun s event => s.Exclusive ∧ (s.step event).Exclusive) (create onLine)
        [.open connected, .poll, .expire, .run, .daemonWake] ∧
      ∃ req, Message.create (.net .rtu) (.adu [2, 3, 0, 0, 0, 1, 0x84, 0x39]) = .ok req ∧
        ∀ message : Incoming, message = { req, rc := 8, positive := by decide } →
          ([.open connected, .poll, .expire, .arrive message, .taskReceive .message, .run, .daemonWake,
            .arrive message, .daemonReceive .message, .daemonHandle connected .singleRegister, .terminate,
            .daemonWake, .join, .poll, .take .none connected .singleRegister].foldl step
              (create onLine)).handed = [1, 1] := by
  refine ⟨?_, _, rfl, ?_⟩
  · rintro ⟨_, _, _, _, ⟨_, shared⟩, _⟩
    exact shared.receivers ⟨rfl, rfl⟩
  · rintro message rfl
    rfl

end Service

end Modbuspp
