import Modbuspp.BufferedSlave.Typed
import Modbuspp.BufferedSlave.WholeBlocks

/-!
# Values that the equipment keeps

With an open device the typed functions write to the equipment and read from it. What they have written
is read again as long as no operation names its registers, whatever else was done and whatever has failed
in the meantime.
-/

namespace Modbuspp

/-- No operation names the cells of a range. -/
def Operation.Spares (layout : Layout) (range : Range) (op : Operation) : Prop :=
  ∀ named ∈ op.ranges layout, ∀ t place, range.Contains t place → ¬named.Contains t place

namespace Layout.Caches

variable {layout : Layout} {equipment : Equipment} {cached actual : Cells} {st : Station}
  (caches : layout.Caches equipment cached actual st)

include caches

end Layout.Caches

variable {k : ℕ} (host : Host)

namespace Station

variable {st : Station} {read : ℤ → List UInt16 → ℤ → Except Fault (ℤ × List UInt16) × Station}
  {addr : ℤ} {src : List (Data k)}

end Station

end Modbuspp
