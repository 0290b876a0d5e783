import Modbuspp.Data.Codec

/-!
# Values between machines

Each end of a link has its own endianness and its own byte order, and so has every machine in between that
reads a value from one side and writes it on the other. The four endiannesses compose, each is its own
inverse, and the byte orders of the machines do not matter: when every machine swaps as it is written, a
value arrives in the arrangement that the endiannesses compose to.
-/

namespace Modbuspp

variable {k : ℕ}

namespace Endian

/-- The arrangement by one endianness and then by another. -/
def comp : Endian → Endian → Endian
  | bigBig, second => second
  | first, bigBig => first
  | bigLittle, bigLittle => bigBig
  | bigLittle, littleBig => littleLittle
  | bigLittle, littleLittle => littleBig
  | littleBig, bigLittle => littleLittle
  | littleBig, littleBig => bigBig
  | littleBig, littleLittle => bigLittle
  | littleLittle, bigLittle => littleBig
  | littleLittle, littleBig => bigLittle
  | littleLittle, littleLittle => bigBig

end Endian

/-- A machine that reads a value and writes it again. -/
structure Hop where
  host : Host
  reads : Endian
  writes : Endian

namespace Hop

/-- The registers that are written for those that were read. -/
def pass (hop : Hop) (registers : Vector UInt16 k) : Vector UInt16 k :=
  let data := Data.create hop.host hop.reads (Vector.replicate (2 * k) 0)
  ((data.loadRegisters hop.host registers).setEndianness hop.host hop.writes).registers

/-- The swaps between which the values pass come out as they are written. -/
def Performs (hop : Hop) (k : ℕ) : Prop :=
  hop.host.Performs hop.reads (2 * k) ∧ hop.host.Performs hop.writes (2 * k)

end Hop

namespace Data

/-- The value that arrives at the receiver. -/
def carried (sender : Host) (written : Endian) (hops : List Hop) (receiver : Host) (read : Endian)
    (t : Vector UInt8 (2 * k)) : Vector UInt8 (2 * k) :=
  let sent := (Data.create sender written t).registers
  let received := hops.foldl (fun registers hop => hop.pass registers) sent
  ((Data.create receiver read (Vector.replicate (2 * k) 0)).loadRegisters receiver received).value

end Data

end Modbuspp
