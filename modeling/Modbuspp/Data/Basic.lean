import Modbuspp.Global
import Modbuspp.Library.Mirror

/-!
# Arithmetic data in registers

The swaps of `swap.h` and the state of `Data<T>`. A value of `2 * k` bytes is its object
representation, in the order of the host's memory; a register is a number, whose two bytes are in
memory in the order of the host. Copying with `memcpy` goes through the representations.

Two of the swaps go through the value by an `uint16_t *`. When the type has more than 16 bits, such an
access is undefined behaviour, and compilers that optimise do leave the swap out. What these swaps
return for a wide type is therefore a part of the machine of which nothing is known.
-/

namespace Modbuspp

/-- The order of the bytes of a number in memory. -/
inductive ByteOrder where
  | littleEndian
  | bigEndian
deriving DecidableEq, Repr

/-- The machine the library was compiled for: its byte order, and what the compiled `swapWords` and
`swapBytesInWords` return for a type of so many bytes, when their accesses are undefined. -/
structure Host where
  order : ByteOrder
  wideSwapWords : (n : ℕ) → Vector UInt8 n → Vector UInt8 n
  wideSwapBytesInWords : (n : ℕ) → Vector UInt8 n → Vector UInt8 n

variable {n k : ℕ}

/-- Reverses the order of the bytes. -/
def swapBytes (input : Vector UInt8 n) : Vector UInt8 n :=
  Mirror.loop input (n / 2) (by omega)

/-- A function of the 16-bit words of a value. The last byte of an odd number of them is in no word. -/
def onWords (f : Vector UInt8 (2 * (n / 2)) → Vector UInt8 (2 * (n / 2))) (v : Vector UInt8 n) :
    Vector UInt8 n :=
  let words := f (Vector.ofFn fun i =>
    have inside : i.val < n := by omega
    v[i.val])
  Vector.ofFn fun i => if whole : i.val < 2 * (n / 2) then words[i.val] else v.get i

/-- Reverses the order of the 16-bit words, as it is written. -/
def swapWords (input : Vector UInt8 n) : Vector UInt8 n :=
  onWords (fun ptr => Mirror.ungroup (Mirror.loop (Mirror.group ptr) (n / 4) (by omega))) input

/-- Reverses the byte order of each 16-bit word, as it is written. -/
def swapBytesInWords (input : Vector UInt8 n) : Vector UInt8 n :=
  onWords (fun ptr => Mirror.ungroup ((Mirror.group ptr).map swapBytes)) input

namespace Host

/-- `swapWords` as it runs. A type of 16 bits has no words to exchange, and so it is not accessed. -/
def runSwapWords (host : Host) (input : Vector UInt8 n) : Vector UInt8 n :=
  if n < 4 then swapWords input else host.wideSwapWords n input

/-- `swapBytesInWords` as it runs. A type of 16 bits may be accessed as an `uint16_t`. -/
def runSwapBytesInWords (host : Host) (input : Vector UInt8 n) : Vector UInt8 n :=
  if n ≤ 2 then swapBytesInWords input else host.wideSwapBytesInWords n input

/-- The common body of the functions `swap`, which swap the bytes as the endianness asks for. -/
def swap (host : Host) (endian : Endian) (v : Vector UInt8 n) : Vector UInt8 n :=
  match endian with
  | .bigBig => v
  | .bigLittle => host.runSwapWords v
  | .littleBig => host.runSwapBytesInWords v
  | .littleLittle => swapBytes v

end Host

/-- From the byte order of the host to the one of the network. -/
def hton (order : ByteOrder) (input : Vector UInt8 n) : Vector UInt8 n :=
  match order with
  | .littleEndian => swapBytes input
  | .bigEndian => input

/-- From the byte order of the network to the one of the host. -/
def ntoh (order : ByteOrder) (input : Vector UInt8 n) : Vector UInt8 n :=
  match order with
  | .littleEndian => swapBytes input
  | .bigEndian => input

/-- The number that has these two bytes. -/
def wordOf (high low : UInt8) : UInt16 := (high.toUInt16 <<< 8) + low.toUInt16

namespace ByteOrder

/-- The number that two bytes in memory stand for. -/
def load (order : ByteOrder) (bytes : Vector UInt8 2) : UInt16 :=
  match order with
  | .littleEndian => wordOf bytes[1] bytes[0]
  | .bigEndian => wordOf bytes[0] bytes[1]

/-- The two bytes of a number in memory. -/
def store (order : ByteOrder) (word : UInt16) : Vector UInt8 2 :=
  match order with
  | .littleEndian => #v[word.toUInt8, (word >>> 8).toUInt8]
  | .bigEndian => #v[(word >>> 8).toUInt8, word.toUInt8]

end ByteOrder

/-- `hton` of a register. -/
def htonWord (order : ByteOrder) (word : UInt16) : UInt16 := order.load (hton order (order.store word))

/-- `ntoh` of a register. -/
def ntohWord (order : ByteOrder) (word : UInt16) : UInt16 := order.load (ntoh order (order.store word))

/-- The state of `Data<T>`, for a type `T` of `2 * k` bytes. -/
structure Data (k : ℕ) where
  value : Vector UInt8 (2 * k)
  endianness : Endian
  registers : Vector UInt16 k
deriving DecidableEq

namespace Data

/-- `Data::swap`. -/
def swap (host : Host) (endian : Endian) (v : Vector UInt8 (2 * k)) : Vector UInt8 (2 * k) :=
  host.swap endian v

/-- Updates the registers from the value. -/
def updateRegisters (host : Host) (data : Data k) : Data k :=
  let v := hton host.order data.value
  let v := swap host data.endianness v
  let registers := (Mirror.group v).map host.order.load
  { data with registers := registers.map (ntohWord host.order) }

/-- Updates the value from the registers, which are left in network order. -/
def updateValue (host : Host) (data : Data k) : Data k :=
  let registers := data.registers.map (htonWord host.order)
  let v := Mirror.ungroup (registers.map host.order.store)
  let v := swap host data.endianness v
  { data with registers, value := ntoh host.order v }

/-- The constructors: the endianness is a parameter of the type, and the default value is zero. The
registers, which are not initialized, are overwritten at once. -/
def create (host : Host) (endian : Endian) (t : Vector UInt8 (2 * k)) : Data k :=
  updateRegisters host { value := t, endianness := endian, registers := Vector.replicate k 0 }

/-- The assignment of a value. -/
def assign (host : Host) (data : Data k) (t : Vector UInt8 (2 * k)) : Data k :=
  updateRegisters host { data with value := t }

/-- Changes the endianness and updates the registers. -/
def setEndianness (host : Host) (data : Data k) (endian : Endian) : Data k :=
  updateRegisters host { data with endianness := endian }

/-- What `Slave` does with a `Data` it reads: it loads the registers and updates the value. -/
def loadRegisters (host : Host) (data : Data k) (registers : Vector UInt16 k) : Data k :=
  updateValue host { data with registers }

end Data

end Modbuspp
