import Modbuspp.Library.Process
import Modbuspp.Server.Threads

/-!
# Starting the daemon again

The promise that stops the daemon is a member of the server, which is made once. Its future can be retrieved
once, so the daemon can be started once.
-/

namespace Modbuspp

namespace Service

/-- A call of `terminate` or of `close` may return in this step. -/
inductive Stops (s : Service) : Event → Prop where
  | terminate (idle : s.caller = .idle) : s.Stops .terminate
  | close (idle : s.caller = .idle) : s.Stops .close
  | join {closes : Bool} (joining : s.caller = .joining closes) : s.Stops .join

end Service

/-- A server with its threads, and how often `run` was called while it was open and not running. -/
structure Cycle where
  service : Service
  started : ℕ

namespace Cycle

/-- A server of which no thread has been started. -/
def create (server : Server) : Cycle := { service := .create server, started := 0 }

/-- One step, which counts the calls of `run`. -/
def step (c : Cycle) (event : Service.Event) : Cycle where
  service := c.service.step event
  started := if c.service.runs event then c.started + 1 else c.started

end Cycle

namespace Service

/-- The invariant: what the promise, the daemon and the flag of the server say fits together. -/
structure Fits (s : Service) : Prop where
  satisfied : s.stopDaemon.satisfied = true → s.stopDaemon.retrieved = true
  running : s.daemon ≠ none → s.isOpen = true ∧ s.stopDaemon.retrieved = true
  signalled : s.stopDaemon.satisfied = true → s.daemon ≠ none → ∃ closes, s.caller = .joining closes

variable {s after : Service} {event : Event}

/-- A step that keeps the promise, and neither starts a daemon nor closes the server. -/
theorem Fits.keep (fits : s.Fits) (daemon : after.daemon ≠ none → s.daemon ≠ none)
    (isOpen : s.isOpen = true → after.isOpen = true) (promise : after.stopDaemon = s.stopDaemon)
    (caller : after.daemon ≠ none → after.caller = s.caller) : after.Fits := by
  refine ⟨?_, ?_, ?_⟩
  · rw [promise]
    exact fits.satisfied
  · intro running
    rcases fits.running (daemon running) with ⟨open_, retrieved⟩
    rw [promise]
    exact ⟨isOpen open_, retrieved⟩
  · intro satisfied running
    rw [promise] at satisfied
    rw [caller running]
    exact fits.signalled satisfied (daemon running)

theorem create_fits (server : Server) : (create server).Fits := by
  refine ⟨?_, ?_, ?_⟩
  · intro satisfied
    cases satisfied
  · intro running
    exact absurd rfl running
  · intro satisfied
    cases satisfied

theorem handle_isOpen (s : Service) (errno : Errno) (links : Links) (reply : ModbusReply) (rc : ℤ) :
    (s.handle errno links reply rc).2.isOpen = s.isOpen :=
  Server.task_isOpen { s.server with errno } links reply rc

/-- A step after which no daemon runs. -/
theorem Fits.stop (fits : s.Fits) (stopped : after.daemon = none)
    (promise : after.stopDaemon = s.stopDaemon) : after.Fits := by
  refine ⟨?_, fun running => absurd stopped running, fun _ running => absurd stopped running⟩
  rw [promise]
  exact fits.satisfied

/-- A call of `poll` does not end while the promise is fulfilled and the daemon has not ended. -/
theorem Fits.poll (fits : s.Fits) (polling : s.caller = .polling) (daemon : after.daemon = s.daemon)
    (isOpen : after.isOpen = s.isOpen) (promise : after.stopDaemon = s.stopDaemon) : after.Fits := by
  refine ⟨?_, ?_, ?_⟩
  · rw [promise]
    exact fits.satisfied
  · rw [daemon, isOpen, promise]
    exact fits.running
  · intro satisfied running
    rw [promise] at satisfied
    rw [daemon] at running
    rcases fits.signalled satisfied running with ⟨closes, joining⟩
    rw [polling] at joining
    cases joining

/-- The daemon goes on, or ends, while `caller` and the promise stay. -/
theorem Fits.goOn (fits : s.Fits) {phase : Daemon} (running : s.daemon = some phase)
    (isOpen : after.isOpen = s.isOpen) (promise : after.stopDaemon = s.stopDaemon)
    (caller : after.caller = s.caller) : after.Fits := by
  refine fits.keep ?_ ?_ promise fun _ => caller
  · intro _
    rw [running]
    exact Option.some_ne_none _
  · intro open_
    rw [isOpen]
    exact open_

theorem move_fits (fits : s.Fits) (move : s.Move event after) : after.Fits := by
  cases move with
  | none => exact fits
  | opens links =>
      refine fits.keep id ?_ rfl fun _ => rfl
      intro open_
      simp only [isOpen, Server.open_of_open links open_]
      exact open_
  | polls stopped => exact fits.stop stopped rfl
  | expires polling => exact fits.poll polling rfl rfl rfl
  | takes polling ready => exact fits.poll polling rfl (handle_isOpen _ _ _ _ _) rfl
  | starts idle stopped open_ first =>
      refine ⟨fun _ => rfl, fun _ => ⟨open_, rfl⟩, ?_⟩
      intro satisfied
      have retrieved := fits.satisfied satisfied
      rw [first] at retrieved
      cases retrieved
  | signals idle running =>
      have live := fits.running (Option.isSome_iff_ne_none.mp running)
      exact ⟨fun _ => live.2, fun _ => live, fun _ _ => ⟨_, rfl⟩⟩
  | closes stopped => exact fits.stop stopped rfl
  | joins joining finished =>
      simp only [joined]
      split <;> exact fits.stop rfl rfl
  | arrives message => exact fits.keep id id rfl fun _ => rfl
  | taskReceives receiving received =>
      rcases receive_frame received with ⟨req, inbox, content, rfl⟩
      exact fits.keep id id rfl fun _ => rfl
  | wakes waiting => exact fits.goOn waiting rfl rfl rfl
  | daemonReceives receiving received =>
      rcases receive_frame received with ⟨req, inbox, content, rfl⟩
      exact fits.goOn receiving rfl rfl rfl
  | handles handling => exact fits.goOn handling (handle_isOpen _ _ _ _ _) rfl rfl
  | aborts handling => exact fits.goOn handling (handle_isOpen _ _ _ _ _) rfl rfl

theorem step_of_runs (runs : s.runs event = true) :
    s.step event = s.run.2 ∧ s.run =
      if s.stopDaemon.retrieved then (.error .futureAlreadyRetrieved, s)
      else (.ok true, { s with
        stopDaemon := { s.stopDaemon with retrieved := true }, daemon := some .waiting }) := by
  rcases runs_iff.mp runs with ⟨rfl, alive, idle, stopped, open_⟩
  have startable := startable_iff.mpr ⟨stopped, open_⟩
  refine ⟨?_, ?_⟩
  · simp only [step, alive, called, idle, Bool.false_eq_true, if_false]
  · simp only [run, if_pos startable, StopPromise.getFuture]
    cases s.stopDaemon.retrieved <;> rfl

theorem retrieved_step (s : Service) (event : Event) :
    (s.step event).stopDaemon.retrieved = true ↔
      s.stopDaemon.retrieved = true ∨ s.runs event = true := by
  cases runs : s.runs event with
  | true =>
      rcases step_of_runs runs with ⟨step_eq, run_eq⟩
      rw [step_eq, run_eq]
      refine iff_of_true ?_ (.inr rfl)
      split
      · next retrieved => exact retrieved
      · rfl
  | false =>
      have same : (s.step event).stopDaemon.retrieved = s.stopDaemon.retrieved := by
        cases alive : s.aborted with
        | true => simp only [step, alive, if_true]
        | false =>
            have move := step_move s event
            generalize s.step event = after at move
            cases move with
            | starts idle stopped open_ first =>
                have starting := runs_iff.mpr ⟨rfl, alive, idle, stopped, open_⟩
                rw [runs] at starting
                cases starting
            | joins joining finished =>
                simp only [joined]
                split <;> rfl
            | taskReceives receiving received =>
                rcases receive_frame received with ⟨_, _, _, rfl⟩
                rfl
            | daemonReceives receiving received =>
                rcases receive_frame received with ⟨_, _, _, rfl⟩
                rfl
            | _ => rfl
      rw [same]
      simp

end Service

namespace Cycle

variable {c : Cycle} {event : Service.Event}

end Cycle

end Modbuspp
