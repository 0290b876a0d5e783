import Modbuspp.Data.Coherence

/-!
# Multi-register values on the wire

A value is sent as its registers, each with its high byte first. Where no swap is undefined, the bytes on
the wire are those of the value, from the most significant one, in the order that the documentation gives
for the endianness. The update of the value and the update of the registers are inverse to each other
wherever the swaps are undone by themselves, although the first of them leaves the registers in network
order.
-/

namespace Modbuspp

variable {k : ℕ}

namespace Data

variable {host : Host} {data : Data k}

/-- The value is read from its own registers again exactly when the swap of its bytes undoes itself. -/
theorem updateValue_updateRegisters_iff :
    ((data.updateRegisters host).updateValue host).value = data.value ↔
      swap host data.endianness (swap host data.endianness (host.order.significantFirst data.value)) =
        host.order.significantFirst data.value := by
  have decoded := significantFirst_updateValue host (data.updateRegisters host)
  rw [wire_updateRegisters] at decoded
  change _ = swap host data.endianness _ at decoded
  rw [← decoded]
  constructor
  · intro same
    rw [same]
  · intro same
    exact ByteOrder.significantFirst_injective same

theorem updateValue_updateRegisters (undoes : host.Undoes data.endianness (2 * k)) :
    ((data.updateRegisters host).updateValue host).value = data.value :=
  updateValue_updateRegisters_iff.mpr (undoes _)

theorem updateRegisters_loadRegisters (undoes : host.Undoes data.endianness (2 * k))
    (registers : Vector UInt16 k) :
    ((data.loadRegisters host registers).updateRegisters host).registers = registers := by
  apply wire_injective
  rw [wire_updateRegisters]
  change swap host data.endianness
    (host.order.significantFirst (({ data with registers }).updateValue host).value) = _
  rw [significantFirst_updateValue]
  exact undoes _

/-- The registers carry the bytes of the value in the order of the endianness, and the two updates are
inverse to each other. -/
structure Codec (host : Host) (data : Data k) : Prop where
  layout : wire (data.updateRegisters host).registers =
    data.endianness.arrange (host.order.significantFirst data.value)
  value : ((data.updateRegisters host).updateValue host).value = data.value
  registers : ∀ registers, ((data.loadRegisters host registers).updateRegisters host).registers =
    registers

theorem codec_of_performs (performs : host.Performs data.endianness (2 * k)) : data.Codec host := by
  refine ⟨?_, updateValue_updateRegisters performs.undoes, updateRegisters_loadRegisters performs.undoes⟩
  rw [wire_updateRegisters, performs.swap_eq_arrange]

/-- The values of an endianness are sent as documented and read again, on every machine of a byte order,
exactly when their swaps are defined. -/
theorem codec_iff (order : ByteOrder) (endian : Endian) (k : ℕ) :
    (∀ host : Host, host.order = order →
      ∀ data : Data k, data.endianness = endian → data.Codec host) ↔ endian.Defined (2 * k) := by
  constructor
  · intro codec
    let zero : Data k :=
      { value := Vector.replicate (2 * k) 0, endianness := endian, registers := Vector.replicate k 0 }
    have layout := (codec (Host.spoiling order) rfl zero rfl).layout
    rw [wire_updateRegisters, ← Endian.order_eq_arrange] at layout
    exact Host.spoiling_swap_eq_iff.mp layout
  · rintro defined host _ data rfl
    exact codec_of_performs (Host.performs_of_defined defined host)

/-- The number `0x0102030405060708` is sent from its most significant byte on by a machine that leaves the
swap of its words out. -/
theorem wide_words_kept :
    let data : Data 4 := ⟨#v[8, 7, 6, 5, 4, 3, 2, 1], .bigLittle, #v[0, 0, 0, 0]⟩
    wire (data.updateRegisters (.optimised .littleEndian)).registers = #v[1, 2, 3, 4, 5, 6, 7, 8] ∧
      Endian.arrange (k := 4) .bigLittle #v[1, 2, 3, 4, 5, 6, 7, 8] = #v[7, 8, 5, 6, 3, 4, 1, 2] ∧
        ¬data.Codec (.optimised .littleEndian) := by
  have sent : wire ((⟨#v[8, 7, 6, 5, 4, 3, 2, 1], .bigLittle, #v[0, 0, 0, 0]⟩ : Data 4).updateRegisters
      (.optimised .littleEndian)).registers = #v[1, 2, 3, 4, 5, 6, 7, 8] := by decide +kernel
  refine ⟨sent, by decide +kernel, ?_⟩
  intro codec
  have layout := sent.symm.trans codec.layout
  exact absurd layout (by decide +kernel)

end Data

end Modbuspp
