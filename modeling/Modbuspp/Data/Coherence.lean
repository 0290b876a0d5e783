import Modbuspp.Data.Swaps
import Modbuspp.Library.Process

/-!
# Agreement of the value and the registers

The registers of a datum are meant to be the encoding of its value: its bytes, from the most
significant to the least significant, in the arrangement of the endianness. The mutators that start
from the value restore the agreement from any state when the swaps come out as they are written. The
update of the value converts the loaded registers to network order in place, so on a little-endian host
it leaves them with their bytes exchanged.
-/

namespace Modbuspp

variable {n k : ℕ}

theorem toNat_wordOf (high low : UInt8) :
    (wordOf high low).toNat = high.toNat * 256 + low.toNat := by
  have highBound := high.toNat_lt
  have lowBound := low.toNat_lt
  simp only [wordOf, UInt16.toNat_add, UInt16.toNat_shiftLeft, UInt8.toNat_toUInt16,
    Nat.shiftLeft_eq]
  change (high.toNat * 256 % 65536 + low.toNat) % 65536 = _
  omega

@[simp]
theorem low_wordOf (high low : UInt8) : (wordOf high low).toUInt8 = low := by
  have lowBound := low.toNat_lt
  apply UInt8.toNat_inj.mp
  rw [UInt16.toNat_toUInt8, toNat_wordOf]
  omega

@[simp]
theorem high_wordOf (high low : UInt8) : (wordOf high low >>> 8).toUInt8 = high := by
  have highBound := high.toNat_lt
  have lowBound := low.toNat_lt
  apply UInt8.toNat_inj.mp
  rw [UInt16.toNat_toUInt8, UInt16.toNat_shiftRight, toNat_wordOf, Nat.shiftRight_eq_div_pow]
  change (high.toNat * 256 + low.toNat) / 256 % 256 = _
  omega

theorem wordOf_bytes (word : UInt16) : wordOf (word >>> 8).toUInt8 word.toUInt8 = word := by
  have bound := word.toNat_lt
  apply UInt16.toNat_inj.mp
  rw [toNat_wordOf, UInt16.toNat_toUInt8, UInt16.toNat_toUInt8, UInt16.toNat_shiftRight,
    Nat.shiftRight_eq_div_pow]
  change word.toNat / 256 % 256 * 256 + word.toNat % 256 = _
  omega

/-- The conversion of a word in memory gives its first byte the high place, in either byte order. -/
theorem ntohWord_load (order : ByteOrder) (bytes : Vector UInt8 2) :
    ntohWord order (order.load bytes) = ByteOrder.bigEndian.load bytes := by
  cases order with
  | littleEndian =>
      simp only [ntohWord, ntoh, ByteOrder.load, ByteOrder.store, low_wordOf, high_wordOf]
      rfl
  | bigEndian =>
      simp only [ntohWord, ntoh, ByteOrder.load, ByteOrder.store, low_wordOf, high_wordOf]
      rfl

theorem htonWord_eq (order : ByteOrder) (word : UInt16) :
    htonWord order word =
      match order with
      | .littleEndian => wordOf word.toUInt8 (word >>> 8).toUInt8
      | .bigEndian => word := by
  cases order with
  | littleEndian => rfl
  | bigEndian => exact wordOf_bytes word

/-- The bytes of a converted word in memory, from the high one to the low one. -/
theorem store_htonWord (order : ByteOrder) (word : UInt16) :
    order.store (htonWord order word) = ByteOrder.bigEndian.store word := by
  rw [htonWord_eq]
  cases order with
  | littleEndian => simp only [ByteOrder.store, low_wordOf, high_wordOf]
  | bigEndian => rfl

namespace ByteOrder

/-- The bytes of a value from the most significant to the least significant. -/
def significantFirst (order : ByteOrder) (value : Vector UInt8 n) : Vector UInt8 n :=
  match order with
  | .littleEndian => value.reverse
  | .bigEndian => value

theorem significantFirst_significantFirst (order : ByteOrder) (value : Vector UInt8 n) :
    order.significantFirst (order.significantFirst value) = value := by
  cases order with
  | bigEndian => rfl
  | littleEndian => exact Vector.reverse_reverse value

theorem significantFirst_injective {order : ByteOrder} {first second : Vector UInt8 n}
    (same : order.significantFirst first = order.significantFirst second) : first = second := by
  calc
    first = order.significantFirst (order.significantFirst first) :=
      (order.significantFirst_significantFirst first).symm
    _ = order.significantFirst (order.significantFirst second) := by rw [same]
    _ = second := order.significantFirst_significantFirst second

end ByteOrder

theorem hton_eq (order : ByteOrder) (value : Vector UInt8 n) :
    hton order value = order.significantFirst value := by
  cases order with
  | bigEndian => rfl
  | littleEndian => exact swapBytes_eq_reverse value

theorem ntoh_eq (order : ByteOrder) (value : Vector UInt8 n) :
    ntoh order value = order.significantFirst value := by
  cases order with
  | bigEndian => rfl
  | littleEndian => exact swapBytes_eq_reverse value

/-- The first byte of a register among those of the value. -/
def firstOf (i : Fin k) : Fin (2 * k) := ⟨2 * i.val, by omega⟩

/-- The second byte of a register among those of the value. -/
def secondOf (i : Fin k) : Fin (2 * k) := ⟨2 * i.val + 1, by omega⟩

/-- The registers that carry a value, given its bytes from the most significant one. -/
def encode (endian : Endian) (bytes : Vector UInt8 (2 * k)) : Vector UInt16 k :=
  Vector.ofFn fun i =>
    wordOf bytes[endian.place (firstOf i)] bytes[endian.place (secondOf i)]

/-- The bytes of registers as they are sent. -/
def wire (registers : Vector UInt16 k) : Vector UInt8 (2 * k) :=
  Mirror.ungroup (registers.map ByteOrder.bigEndian.store)

theorem wire_encode (endian : Endian) (bytes : Vector UInt8 (2 * k)) :
    wire (encode endian bytes) = endian.arrange bytes := by
  apply Vector.ext
  intro i inside
  rw [endian.getElem_arrange bytes i inside]
  simp only [wire, ByteOrder.store, Mirror.getElem_ungroup, Vector.getElem_map, encode,
    Vector.getElem_ofFn, high_wordOf, low_wordOf]
  rcases Nat.mod_two_eq_zero_or_one i with even | odd
  · have place_eq : firstOf ⟨i / 2, by omega⟩ = (⟨i, inside⟩ : Fin (2 * k)) := by
      apply Fin.ext
      simp only [firstOf]
      omega
    simp only [even, place_eq]
    rfl
  · have place_eq : secondOf ⟨i / 2, by omega⟩ = (⟨i, inside⟩ : Fin (2 * k)) := by
      apply Fin.ext
      simp only [secondOf]
      omega
    simp only [odd, place_eq]
    rfl

theorem getElem_wire (registers : Vector UInt16 k) {i : ℕ} (inside : i < k) :
    (wire registers)[2 * i] = (registers[i] >>> 8).toUInt8 ∧
      (wire registers)[2 * i + 1] = registers[i].toUInt8 := by
  have word : 2 * i / 2 = i := by omega
  have high : 2 * i % 2 = 0 := by omega
  have next : (2 * i + 1) / 2 = i := by omega
  have low : (2 * i + 1) % 2 = 1 := by omega
  constructor
  · simp only [wire, Mirror.getElem_ungroup, Vector.getElem_map, word, high]
    rfl
  · simp only [wire, Mirror.getElem_ungroup, Vector.getElem_map, next, low]
    rfl

/-- Registers are known by what is sent. -/
theorem wire_injective {first second : Vector UInt16 k} (same : wire first = wire second) :
    first = second := by
  apply Vector.ext
  intro i inside
  have one := getElem_wire first inside
  have other := getElem_wire second inside
  simp only [same] at one
  rw [← wordOf_bytes first[i], ← wordOf_bytes second[i], ← one.1, ← one.2, other.1, other.2]

namespace Data

/-- The registers are the encoding of the value. -/
def Coherent (order : ByteOrder) (data : Data k) : Prop :=
  data.registers = encode data.endianness (order.significantFirst data.value)

/-- What is sent after the update of the registers, whatever the swaps come to. -/
theorem wire_updateRegisters (host : Host) (data : Data k) :
    wire (data.updateRegisters host).registers =
      swap host data.endianness (host.order.significantFirst data.value) := by
  apply Vector.ext
  intro i inside
  have place_eq : 2 * (i / 2) + i % 2 = i := Nat.div_add_mod i 2
  have cell := Mirror.getElem_group (swap host data.endianness (hton host.order data.value)) (i / 2)
    (i % 2) (by omega) (by omega)
  simp only [wire, updateRegisters, Mirror.getElem_ungroup, Vector.getElem_map, ntohWord_load]
  rcases Nat.mod_two_eq_zero_or_one i with even | odd
  · simp only [even, Nat.add_zero] at cell place_eq ⊢
    simp only [ByteOrder.store, ByteOrder.load, high_wordOf, ← hton_eq]
    simp only [place_eq] at cell
    exact cell
  · simp only [odd] at cell place_eq ⊢
    simp only [ByteOrder.store, ByteOrder.load, low_wordOf, ← hton_eq]
    simp only [place_eq] at cell
    exact cell

/-- The value after its update, whatever the swaps come to. -/
theorem significantFirst_updateValue (host : Host) (data : Data k) :
    host.order.significantFirst (data.updateValue host).value =
      swap host data.endianness (wire data.registers) := by
  have stored : (data.registers.map (htonWord host.order)).map host.order.store =
      data.registers.map ByteOrder.bigEndian.store := by
    rw [Vector.map_map]
    apply Vector.map_congr_left
    intro word _
    exact store_htonWord host.order word
  simp only [updateValue, ntoh_eq, ByteOrder.significantFirst_significantFirst, stored]
  rfl

/-- An operation on a datum. -/
inductive Call (k : ℕ) where
  | assign (t : Vector UInt8 (2 * k))
  | setEndianness (endian : Endian)
  | updateRegisters
  | loadRegisters (registers : Vector UInt16 k)

/-- The datum after an operation. -/
def Call.apply (host : Host) (data : Data k) : Call k → Data k
  | .assign t => data.assign host t
  | .setEndianness endian => data.setEndianness host endian
  | .updateRegisters => data.updateRegisters host
  | .loadRegisters registers => data.loadRegisters host registers

/-- After the call the value and the registers agree; registers that were loaded are still there, and
a second update of the value changes nothing. -/
def Call.Lawful (host : Host) (data : Data k) (call : Call k) : Prop :=
  (call.apply host data).Coherent host.order ∧
    match call with
    | .loadRegisters registers =>
        (call.apply host data).registers = registers ∧
          ((call.apply host data).updateValue host).value = (call.apply host data).value
    | _ => True

/-- The endianness that the call sets has swaps without undefined accesses. -/
def Call.SwapsDefined : Call k → Prop
  | .setEndianness endian => endian.Defined (2 * k)
  | _ => True

end Data

end Modbuspp
