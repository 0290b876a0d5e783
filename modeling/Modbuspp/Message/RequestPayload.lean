import Modbuspp.Message.Buffer
import Modbuspp.Message.Packing

/-!
# The payload of a request

A request to write several values carries them behind its function code, address, quantity and byte
count, from offset 6 of the PDU on. A request to write a single value has it in the place of the
quantity.
-/

namespace Modbuspp.Request

open BitField

/-- `registerValue`, without an index. -/
def soleRegisterValue (req : Message) : Except Fault UInt16 := req.word 3

/-- `coilValue`, without an index. -/
def soleCoilValue (req : Message) : Except Fault Bool := do
  let value ← req.word 3
  pure (value == 0xFF00)

/-- `setRegisterValue`, without an index. -/
def setSoleRegisterValue (req : Message) (value : UInt16) : Except Fault Message :=
  req.setWord 3 value

/-- `setCoilValue`, without an index. -/
def setSoleCoilValue (req : Message) (value : Bool) : Except Fault Message :=
  req.setWord 3 (if value then 0xFF00 else 0x0000)

/-- The byte count of a request that writes several cells. -/
def byteCount (req : Message) : Except Fault UInt8 := req.byte 5

/-- Sets the byte count. -/
def setByteCount (req : Message) (n : UInt8) : Except Fault Message := req.setByte 5 n

/-- The register at an index, behind the header of the request. -/
def registerValue (req : Message) (index : UInt16) : Except Fault UInt16 :=
  Packing.register 6 req index

/-- The registers from an index on. -/
def registerValues (req : Message) (index : UInt16) (quantity : ℕ) : Except Fault (List UInt16) :=
  Packing.registers 6 req index quantity

/-- Stores a register at an index. -/
def setRegisterValue (req : Message) (index value : UInt16) : Except Fault Message :=
  Packing.setRegister 6 req index value

/-- Stores registers from an index on. -/
def setRegisterValues (req : Message) (index : UInt16) (values : List UInt16) :
    Except Fault Message :=
  Packing.setRegisters 6 req index values

/-- The coil at an index, behind the header of the request. -/
def coilValue (req : Message) (index : UInt16) : Except Fault Bool := Packing.bit 6 req index

/-- The coils from an index on. -/
def coilValues (req : Message) (index : UInt16) (quantity : ℕ) : Except Fault (List Bool) :=
  Packing.bits 6 req index quantity

/-- Stores a coil at an index. -/
def setCoilValue (req : Message) (index : UInt16) (value : Bool) : Except Fault Message :=
  Packing.setBit 6 req index value

/-- Stores coils from an index on. -/
def setCoilValues (req : Message) (index : UInt16) (values : List Bool) : Except Fault Message :=
  Packing.setBits 6 req index values

/-- A call that sets a field or values of a request. -/
inductive Call where
  | setSoleRegisterValue (value : UInt16)
  | setSoleCoilValue (value : Bool)
  | setByteCount (n : UInt8)
  | setRegisterValue (index value : UInt16)
  | setRegisterValues (index : UInt16) (values : List UInt16)
  | setCoilValue (index : UInt16) (value : Bool)
  | setCoilValues (index : UInt16) (values : List Bool)

/-- The request after a call. -/
def Call.perform (call : Call) (req : Message) : Except Fault Message :=
  match call with
  | .setSoleRegisterValue value => Request.setSoleRegisterValue req value
  | .setSoleCoilValue value => Request.setSoleCoilValue req value
  | .setByteCount n => Request.setByteCount req n
  | .setRegisterValue index value => Request.setRegisterValue req index value
  | .setRegisterValues index values => Request.setRegisterValues req index values
  | .setCoilValue index value => Request.setCoilValue req index value
  | .setCoilValues index values => Request.setCoilValues req index values

theorem soleRegisterValue_setSoleRegisterValue {req after : Message} {value : UInt16}
    (run : setSoleRegisterValue req value = .ok after) : soleRegisterValue after = .ok value :=
  Message.word_setWord run

theorem soleCoilValue_setSoleCoilValue {req after : Message} {value : Bool}
    (run : setSoleCoilValue req value = .ok after) : soleCoilValue after = .ok value := by
  have stored := Message.word_setWord run
  simp only [soleCoilValue, stored, ok_bind, pure_eq_ok]
  cases value <;> rfl

theorem byteCount_setByteCount {req after : Message} {n : UInt8}
    (run : setByteCount req n = .ok after) : byteCount after = .ok n :=
  Message.byte_setByte run

/-- The function code, the address, the quantity and the byte count. -/
def SameFields (req after : Message) : Prop := ∀ k, k < 6 → after.pdu[k]? = req.pdu[k]?

/-- The registers are stored behind the fields, high byte first, and are read back; the rest of the PDU
stays, and the ADU contains the last byte of them. -/
structure StoresRegisters (req after : Message) (index : UInt16) (values : List UInt16) :
    Prop where
  layout : ∀ (j : ℕ) (value : UInt16), values[j]? = some value →
    after.pdu[6 + 2 * (index.toNat + j)]? = some (value >>> 8).toUInt8 ∧
      after.pdu[7 + 2 * (index.toNat + j)]? = some value.toUInt8
  readBack : registerValues after index values.length = .ok values
  others : ∀ k, k < 2 * index.toNat ∨ 2 * (index.toNat + values.length) ≤ k →
    after.pdu[6 + k]? = req.pdu[6 + k]?
  fields : SameFields req after
  aduSize_eq : after.aduSize = if values = [] then req.aduSize
    else max req.aduSize (req.pduBegin.toNat + (7 + 2 * (index.toNat + values.length - 1) + 1))

/-- The coils are stored behind the fields, the first one in the least significant bit, and are read
back; the rest of the PDU stays, and the ADU contains the last byte of them. -/
structure StoresCoils (req after : Message) (index : UInt16) (values : List Bool) : Prop where
  layout : ∀ (j : ℕ) (value : Bool), values[j]? = some value →
    bitAt after.pdu (8 * 6 + (index.toNat + j)) = some value
  readBack : coilValues after index values.length = .ok values
  others : ∀ j, j < index.toNat ∨ index.toNat + values.length ≤ j →
    bitAt after.pdu (8 * 6 + j) = bitAt req.pdu (8 * 6 + j)
  fields : SameFields req after
  aduSize_eq : after.aduSize = if values = [] then req.aduSize
    else max req.aduSize (req.pduBegin.toNat + (6 + (index.toNat + values.length - 1) / 8 + 1))

theorem maxPduLength_le_length_pdu {req : Message} (full : req.adu.length = req.maxAduLength) :
    maxPduLength ≤ req.pdu.length := by
  have limits := req.pduBegin_cases
  simp only [maxPduLength, Message.pdu, List.length_drop]
  omega

theorem storesRegisters_nil (req : Message) (index : UInt16) : StoresRegisters req req index [] where
  layout := by
    intro j value found
    cases found
  readBack := rfl
  others := fun _ _ => rfl
  fields := fun _ _ => rfl
  aduSize_eq := rfl

theorem storesCoils_nil (req : Message) (index : UInt16) : StoresCoils req req index [] where
  layout := by
    intro j value found
    cases found
  readBack := rfl
  others := fun _ _ => rfl
  fields := fun _ _ => rfl
  aduSize_eq := rfl

theorem setRegisterValues_stores {req : Message} (full : req.adu.length = req.maxAduLength)
    {index : UInt16} {values : List UInt16}
    (fits : ∀ j, j < values.length → 7 + 2 * (index.toNat + j) < maxPduLength) :
    ∃ after, setRegisterValues req index values = .ok after ∧
      StoresRegisters req after index values := by
  by_cases none : values = []
  · subst none
    exact ⟨req, rfl, storesRegisters_nil req index⟩
  · have room := maxPduLength_le_length_pdu full
    have some_values := List.length_pos_of_ne_nil none
    have last := fits (values.length - 1) (by omega)
    simp only [maxPduLength] at room last
    have inside : 6 + 2 * (index.toNat + values.length) ≤ req.pdu.length := by omega
    rcases Packing.setRegisters_spec none inside (by omega) with ⟨after, run, stored⟩
    refine ⟨after, run, ?_, ?_, ?_, ?_, ?_⟩
    · intro j value found
      have cells := stored.registers j value found
      have place : 7 + 2 * (index.toNat + j) = 6 + 2 * (index.toNat + j) + 1 := by omega
      rw [place]
      exact cells
    · exact Packing.registers_of_hasRegisters stored.registers (by omega)
    · intro k outside
      exact stored.others (6 + k) (by omega)
    · intro k field
      exact stored.others k (Or.inl (by omega))
    · rw [if_neg none, stored.rewritten.aduSize_eq]
      omega

theorem setCoilValues_stores {req : Message} (full : req.adu.length = req.maxAduLength)
    {index : UInt16} {values : List Bool}
    (fits : ∀ j, j < values.length → 6 + (index.toNat + j) / 8 < maxPduLength) :
    ∃ after, setCoilValues req index values = .ok after ∧ StoresCoils req after index values := by
  by_cases none : values = []
  · subst none
    exact ⟨req, rfl, storesCoils_nil req index⟩
  · have room := maxPduLength_le_length_pdu full
    have some_values := List.length_pos_of_ne_nil none
    have last := fits (values.length - 1) (by omega)
    simp only [maxPduLength] at room last
    have inside : 8 * 6 + (index.toNat + values.length) ≤ 8 * req.pdu.length := by omega
    rcases Packing.setBits_spec none inside (by omega) with ⟨after, run, stored⟩
    refine ⟨after, run, stored.written, ?_, ?_, ?_, ?_⟩
    · exact Packing.bits_of_bitAt stored.written (by omega)
    · intro j outside
      exact stored.others (8 * 6 + j) (by omega)
    · intro k field
      apply getElem?_eq_iff.mpr
      intro b place
      exact stored.others b (Or.inl (by omega))
    · rw [if_neg none, stored.rewritten.aduSize_eq]
      omega

/-- Registers and coils whose cells lie within a PDU of legal length are stored where they belong,
whatever the request holds before. -/
theorem values_stored {req : Message} (full : req.adu.length = req.maxAduLength) (index : UInt16) :
    (∀ values : List UInt16,
      (∀ j, j < values.length → 7 + 2 * (index.toNat + j) < maxPduLength) →
        ∃ after, setRegisterValues req index values = .ok after ∧
          StoresRegisters req after index values) ∧
    ∀ values : List Bool,
      (∀ j, j < values.length → 6 + (index.toNat + j) / 8 < maxPduLength) →
        ∃ after, setCoilValues req index values = .ok after ∧ StoresCoils req after index values :=
  ⟨fun _ fits => setRegisterValues_stores full fits, fun _ fits => setCoilValues_stores full fits⟩

/-- Coils 3 to 5 of a new request. -/
theorem values_stored_of_coils :
    ∃ req after, Message.create (.net .rtu) .empty = .ok req ∧
      setCoilValues req 3 [true, false, true] = .ok after ∧
        StoresCoils req after 3 [true, false, true] := by
  have created : Message.create (.net .rtu) .empty = .ok _ := rfl
  rcases Message.create_spec created with ⟨bytes, impossible, _⟩ | ⟨_, full, _⟩
  · cases impossible
  · have fits : ∀ j, j < [true, false, true].length →
        6 + ((3 : UInt16).toNat + j) / 8 < maxPduLength := by decide
    rcases (values_stored full 3).2 [true, false, true] fits with ⟨after, run, stores⟩
    exact ⟨_, after, created, run, stores⟩

end Modbuspp.Request
