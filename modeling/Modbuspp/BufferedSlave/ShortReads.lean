import Modbuspp.BufferedSlave.Blocks
import Modbuspp.BufferedSlave.Transfers
import Modbuspp.BufferedSlave.Typed

/-!
# Short reads of a value

A read of registers may deliver fewer than it was asked for, as at the end of a block. The functions
that take an array of `Data` read into a buffer, which they drop then; those that take one element read
straight into its registers.
-/

namespace Modbuspp

variable {α : Type} {k : ℕ}

/-- What a read of `k` registers may come to: an error, or some of the registers, from the first one. -/
inductive ReadOutcome (α : Type) (k : ℕ) where
  | failed (rc : ℤ) (negative : rc < 0)
  | delivered (words : List α) (few : words.length ≤ k)

namespace ReadOutcome

/-- The registers that were put into the array of the caller. -/
def words : ReadOutcome α k → List α
  | failed _ _ => []
  | delivered words _ => words

/-- What libmodbus returns for the outcome of a read. -/
def rc : ReadOutcome α k → ℤ
  | failed rc _ => rc
  | delivered words _ => words.length

end ReadOutcome

namespace Data

/-- Nothing that can be observed of the destination has changed. -/
structure SameContent (before after : Data k) : Prop where
  value : after.value = before.value
  registers : after.registers = before.registers

end Data

variable (host : Host) {dest : Data k} {outcome : ReadOutcome UInt16 k} {after : Station}
  {read : List UInt16 → ℤ → Except Fault (ℤ × List UInt16) × Station}

namespace ReadOutcome

/-- The registers of the destination that is read into. -/
def received (outcome : ReadOutcome UInt16 k) (dest : Data k) : Data k :=
  let registers := Storage.overwrite dest.registers.toList 0 outcome.words
  { dest with registers := Vector.ofFn fun i => registers.getD i (dest.registers.get i) }

/-- The destination after a read of one element. -/
def one (outcome : ReadOutcome UInt16 k) (dest : Data k) : Data k :=
  if outcome.rc = k then (outcome.received dest).updateValue host else outcome.received dest

end ReadOutcome

namespace Station

end Station

end Modbuspp
