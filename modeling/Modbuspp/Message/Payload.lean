import Modbuspp.Library.Process
import Modbuspp.Message.Packing

/-!
# The payload of a response

The values of a response follow its function code and its byte count, so they begin at offset 2 of
the PDU. The setters and getters of registers count from there. Those of bits count from the start of
the PDU: they agree with each other, but a bit written through them lands two bytes too early, in the
function code or in the byte count if its index is small.
-/

namespace Modbuspp.Response

open BitField

/-- `setByteCount`. -/
def setByteCount (resp : Message) (n : UInt8) : Except Fault Message := resp.setByte 1 n

/-- `setRegisterValue`. -/
def setRegisterValue (resp : Message) (index value : UInt16) : Except Fault Message :=
  Packing.setRegister 2 resp index value

/-- `setRegisterValues`, for the `quantity` values behind the pointer. -/
def setRegisterValues (resp : Message) (index : UInt16) (values : List UInt16) :
    Except Fault Message :=
  Packing.setRegisters 2 resp index values

/-- `registerValue`. -/
def registerValue (resp : Message) (index : UInt16) : Except Fault UInt16 :=
  Packing.register 2 resp index

/-- `registerValues`. -/
def registerValues (resp : Message) (index : UInt16) (quantity : ℕ) : Except Fault (List UInt16) :=
  Packing.registers 2 resp index quantity

/-- `setBitValue`, which takes the index for one from the start of the PDU. -/
def setBitValue (resp : Message) (index : UInt16) (value : Bool) : Except Fault Message :=
  Packing.setBit 0 resp index value

/-- `setBitValues`. -/
def setBitValues (resp : Message) (index : UInt16) (values : List Bool) : Except Fault Message :=
  Packing.setBits 0 resp index values

/-- `bitValue`. -/
def bitValue (resp : Message) (index : UInt16) : Except Fault Bool := Packing.bit 0 resp index

/-- `bitValues`. -/
def bitValues (resp : Message) (index : UInt16) (quantity : ℕ) : Except Fault (List Bool) :=
  Packing.bits 0 resp index quantity

/-- A call of a setter. -/
inductive Call where
  | setRegisterValue (index value : UInt16)
  | setRegisterValues (index : UInt16) (values : List UInt16)
  | setBitValue (index : UInt16) (value : Bool)
  | setBitValues (index : UInt16) (values : List Bool)

/-- The response after a call. -/
def Call.perform (call : Call) (resp : Message) : Except Fault Message :=
  match call with
  | .setRegisterValue index value => Response.setRegisterValue resp index value
  | .setRegisterValues index values => Response.setRegisterValues resp index values
  | .setBitValue index value => Response.setBitValue resp index value
  | .setBitValues index values => Response.setBitValues resp index values

/-- The response after a call, or as it was when the call does not return. -/
def next (resp : Message) (call : Call) : Message :=
  match call.perform resp with
  | .ok after => after
  | .error _ => resp

/-- The bytes that the PDU can have in its buffer. -/
def room (resp : Message) : ℕ := min maxPduLength resp.pdu.length

/-- The values fit in the data area, which begins at offset 2 of the PDU. -/
def Call.Fits (room : ℕ) : Call → Prop
  | .setRegisterValue index _ => 2 + 2 * (index.toNat + 1) ≤ room
  | .setRegisterValues index values => 2 + 2 * (index.toNat + values.length) ≤ room
  | .setBitValue index _ => 8 * 2 + (index.toNat + 1) ≤ 8 * room
  | .setBitValues index values => 8 * 2 + (index.toNat + values.length) ≤ 8 * room

/-- The registers are stored in the data area, high byte first, and are read back; the rest of the
PDU stays. -/
structure StoresRegisters (resp after : Message) (index : UInt16) (values : List UInt16) :
    Prop where
  layout : ∀ (j : ℕ) (value : UInt16), values[j]? = some value →
    after.pdu[2 + 2 * (index.toNat + j)]? = some (value >>> 8).toUInt8 ∧
      after.pdu[2 + 2 * (index.toNat + j) + 1]? = some value.toUInt8
  readBack : registerValues after index values.length = .ok values
  others : ∀ k, k < 2 * index.toNat ∨ 2 * (index.toNat + values.length) ≤ k →
    after.pdu[2 + k]? = resp.pdu[2 + k]?
  header : after.pdu[0]? = resp.pdu[0]? ∧ after.pdu[1]? = resp.pdu[1]?

/-- The bits are stored in the data area, the first one in the least significant bit, and are read
back; the rest of the PDU stays. -/
structure StoresBits (resp after : Message) (index : UInt16) (values : List Bool) : Prop where
  layout : ∀ (j : ℕ) (value : Bool), values[j]? = some value →
    bitAt after.pdu (8 * 2 + (index.toNat + j)) = some value
  readBack : bitValues after index values.length = .ok values
  others : ∀ j, j < index.toNat ∨ index.toNat + values.length ≤ j →
    bitAt after.pdu (8 * 2 + j) = bitAt resp.pdu (8 * 2 + j)
  header : after.pdu[0]? = resp.pdu[0]? ∧ after.pdu[1]? = resp.pdu[1]?

/-- The response after a call holds the values of the call. -/
def Call.StoredIn (resp after : Message) : Call → Prop
  | .setRegisterValue index value => StoresRegisters resp after index [value]
  | .setRegisterValues index values => StoresRegisters resp after index values
  | .setBitValue index value => StoresBits resp after index [value]
  | .setBitValues index values => StoresBits resp after index values

/-- The call returns and does what it is for. -/
def Call.Stores (resp : Message) (call : Call) : Prop :=
  ∃ after, call.perform resp = .ok after ∧ call.StoredIn resp after

/-- Bits whose storage 16 bits too early makes no difference: the first 16 are there already, later
ones repeat, and the last 16 are also where they belong. -/
def Coincide (resp : Message) (index : UInt16) (values : List Bool) : Prop :=
  ∀ (j : ℕ) (value : Bool), values[j]? = some value →
    (j < 16 → bitAt resp.pdu (index.toNat + j) = some value) ∧
      match values[j + 16]? with
      | some later => later = value
      | none => bitAt resp.pdu (16 + (index.toNat + j)) = some value

/-- The calls that do what they are for: all those on registers, and those on bits that coincide. -/
def Call.Harmless (resp : Message) : Call → Prop
  | .setRegisterValue _ _ => True
  | .setRegisterValues _ _ => True
  | .setBitValue index value => Coincide resp index [value]
  | .setBitValues index values => Coincide resp index values

/-- A message of the same net with a buffer of the same length. -/
def SameShape (after resp : Message) : Prop :=
  after.net = resp.net ∧ after.adu.length = resp.adu.length

theorem SameShape.length_pdu {after resp : Message} (same : SameShape after resp) :
    after.pdu.length = resp.pdu.length := by
  simp only [Message.pdu, List.length_drop, Message.pduBegin, same.1, same.2]

theorem sameShape_of_rewritten {after resp : Message} {finish : ℕ}
    (rewritten : resp.Rewritten after finish) : SameShape after resp :=
  ⟨rewritten.net_eq, rewritten.length_eq⟩

theorem storesRegisters {resp : Message} {index : UInt16} {values : List UInt16}
    (fits : (Call.setRegisterValues index values).Fits (room resp)) :
    ∃ after, setRegisterValues resp index values = .ok after ∧ SameShape after resp ∧
      StoresRegisters resp after index values := by
  simp only [Call.Fits, room, maxPduLength] at fits
  have inside : 2 + 2 * (index.toNat + values.length) ≤ resp.pdu.length := by omega
  by_cases none : values = []
  · subst none
    refine ⟨resp, rfl, ⟨rfl, rfl⟩, ?_, rfl, fun _ _ => rfl, rfl, rfl⟩
    intro j value found
    cases found
  · rcases Packing.setRegisters_spec none inside (by omega) with ⟨after, run, stored⟩
    refine ⟨after, run, sameShape_of_rewritten stored.rewritten, stored.registers, ?_, ?_, ?_, ?_⟩
    · exact Packing.registers_of_hasRegisters stored.registers (by omega)
    · intro k outside
      exact stored.others (2 + k) (by omega)
    · exact stored.others 0 (by omega)
    · exact stored.others 1 (by omega)

theorem setBitValues_spec {resp : Message} {index : UInt16} {values : List Bool}
    (fits : index.toNat + values.length ≤ 8 * resp.pdu.length)
    (small : index.toNat + values.length < 65536) :
    ∃ after, setBitValues resp index values = .ok after ∧ SameShape after resp ∧
      (∀ (j : ℕ) (value : Bool), values[j]? = some value →
        bitAt after.pdu (index.toNat + j) = some value) ∧
      ∀ b, b < index.toNat ∨ index.toNat + values.length ≤ b →
        bitAt after.pdu b = bitAt resp.pdu b := by
  by_cases none : values = []
  · subst none
    refine ⟨resp, rfl, ⟨rfl, rfl⟩, ?_, fun _ _ => rfl⟩
    intro j value found
    cases found
  · have room : 8 * 0 + (index.toNat + values.length) ≤ 8 * resp.pdu.length := by
      rw [Nat.mul_zero, Nat.zero_add]
      exact fits
    rcases Packing.setBits_spec none room small with ⟨after, run, stored⟩
    rcases stored with ⟨rewritten, written, others⟩
    rw [Nat.mul_zero] at others
    simp only [Nat.mul_zero, Nat.zero_add] at written others
    exact ⟨after, run, sameShape_of_rewritten rewritten, written, others⟩

section Bits

variable {resp after : Message} {index : UInt16} {values : List Bool}
  (written : ∀ (j : ℕ) (value : Bool), values[j]? = some value →
    bitAt after.pdu (index.toNat + j) = some value)
  (others : ∀ b, b < index.toNat ∨ index.toNat + values.length ≤ b →
    bitAt after.pdu b = bitAt resp.pdu b)

include written others

theorem coincide_of_storesBits (stores : StoresBits resp after index values) :
    Coincide resp index values := by
  intro j value found
  have inside : j < values.length := (List.getElem?_eq_some_iff.mp found).1
  have bit := written j value found
  constructor
  · intro early
    rw [← bit]
    by_cases header : index.toNat + j < 16
    · -- The bit belongs to the function code or to the byte count.
      by_cases firstByte : index.toNat + j < 8
      · exact (getElem?_eq_iff.mp stores.header.1 _ (by omega)).symm
      · exact (getElem?_eq_iff.mp stores.header.2 _ (by omega)).symm
    · have place : index.toNat + j = 8 * 2 + (index.toNat + j - 16) := by omega
      rw [place]
      exact (stores.others _ (Or.inl (by omega))).symm
  · have place : 16 + (index.toNat + j) = index.toNat + (j + 16) := by omega
    have shifted : bitAt after.pdu (16 + (index.toNat + j)) = some value :=
      stores.layout j value found
    split
    · next later laterFound =>
        rw [place, written (j + 16) later laterFound] at shifted
        exact Option.some.inj shifted
    · next none =>
        rw [List.getElem?_eq_none_iff] at none
        rw [← others _ (Or.inr (by omega))]
        exact shifted

theorem storesBits_of_coincide (small : index.toNat + values.length < 65536)
    (coincide : Coincide resp index values) : StoresBits resp after index values := by
  have kept : ∀ b, b < index.toNat + 16 → bitAt after.pdu b = bitAt resp.pdu b := by
    intro b early
    by_cases inside : index.toNat ≤ b ∧ b < index.toNat + values.length
    · have found := List.getElem?_eq_getElem (by omega : b - index.toNat < values.length)
      have place : index.toNat + (b - index.toNat) = b := by omega
      have new := written _ _ found
      have old := (coincide _ _ found).1 (by omega)
      rw [place] at new old
      rw [new, old]
    · exact others b (by omega)
  refine ⟨?_, ?_, ?_, ?_, ?_⟩
  · intro j value found
    have place : 8 * 2 + (index.toNat + j) = index.toNat + (j + 16) := by omega
    have shifted := (coincide j value found).2
    rw [place]
    split at shifted
    · next later laterFound => rw [written (j + 16) later laterFound, shifted]
    · next none =>
        rw [List.getElem?_eq_none_iff] at none
        rw [others _ (Or.inr (by omega)), ← shifted]
        congr 1
        omega
  · apply Packing.bits_of_bitAt _ small
    simp only [Nat.mul_zero, Nat.zero_add]
    exact written
  · intro j outside
    rcases outside with before | behind
    · exact kept _ (by omega)
    · exact others _ (Or.inr (by omega))
  · apply getElem?_eq_iff.mpr
    intro b place
    exact kept b (by omega)
  · apply getElem?_eq_iff.mpr
    intro b place
    exact kept b (by omega)

end Bits

/-- The bits are stored where they belong exactly when they coincide with what is there. -/
theorem storesBits_iff {resp : Message} {index : UInt16} {values : List Bool}
    (fits : (Call.setBitValues index values).Fits (room resp)) :
    ∃ after, setBitValues resp index values = .ok after ∧ SameShape after resp ∧
      (StoresBits resp after index values ↔ Coincide resp index values) := by
  simp only [Call.Fits, room, maxPduLength] at fits
  have inside : index.toNat + values.length ≤ 8 * resp.pdu.length := by omega
  rcases setBitValues_spec inside (by omega) with ⟨after, stored, shape, written, others⟩
  refine ⟨after, stored, shape, ?_⟩
  constructor
  · exact coincide_of_storesBits written others
  · exact storesBits_of_coincide written others (by omega)

theorem setRegisterValues_singleton (resp : Message) (index value : UInt16) :
    setRegisterValues resp index [value] = setRegisterValue resp index value := by
  simp only [setRegisterValues, setRegisterValue, Packing.setRegisters]
  cases Packing.setRegister 2 resp index value <;> rfl

theorem setBitValues_singleton (resp : Message) (index : UInt16) (value : Bool) :
    setBitValues resp index [value] = setBitValue resp index value := by
  simp only [setBitValues, setBitValue, Packing.setBits]
  cases Packing.setBit 0 resp index value <;> rfl

theorem next_of_perform {resp after : Message} {call : Call}
    (performed : call.perform resp = .ok after) : next resp call = after := by
  simp only [next, performed]

theorem stores_of_perform {resp after : Message} {call : Call}
    (performed : call.perform resp = .ok after) :
    call.Stores resp ↔ call.StoredIn resp after := by
  constructor
  · rintro ⟨other, otherPerformed, stores⟩
    rw [performed] at otherPerformed
    cases otherPerformed
    exact stores
  · intro stores
    exact ⟨after, performed, stores⟩

/-- One call whose values fit. -/
theorem call_stores_iff {resp : Message} {call : Call} (fits : call.Fits (room resp)) :
    SameShape (next resp call) resp ∧ (call.Stores resp ↔ call.Harmless resp) := by
  cases call with
  | setRegisterValue index value =>
      have single : (Call.setRegisterValues index [value]).Fits (room resp) := fits
      rcases storesRegisters single with ⟨after, stored, shape, stores⟩
      rw [setRegisterValues_singleton] at stored
      have performed : (Call.setRegisterValue index value).perform resp = .ok after := stored
      rw [next_of_perform performed, stores_of_perform performed]
      exact ⟨shape, fun _ => trivial, fun _ => stores⟩
  | setRegisterValues index values =>
      rcases storesRegisters fits with ⟨after, stored, shape, stores⟩
      have performed : (Call.setRegisterValues index values).perform resp = .ok after := stored
      rw [next_of_perform performed, stores_of_perform performed]
      exact ⟨shape, fun _ => trivial, fun _ => stores⟩
  | setBitValue index value =>
      have single : (Call.setBitValues index [value]).Fits (room resp) := fits
      rcases storesBits_iff single with ⟨after, stored, shape, stores⟩
      rw [setBitValues_singleton] at stored
      have performed : (Call.setBitValue index value).perform resp = .ok after := stored
      rw [next_of_perform performed, stores_of_perform performed]
      exact ⟨shape, stores⟩
  | setBitValues index values =>
      rcases storesBits_iff fits with ⟨after, stored, shape, stores⟩
      have performed : (Call.setBitValues index values).perform resp = .ok after := stored
      rw [next_of_perform performed, stores_of_perform performed]
      exact ⟨shape, stores⟩

/-- In a run of calls whose values fit every call stores its values where they belong exactly when
all bits that are set coincide with what is there. -/
theorem stores_along_iff {resp : Message} {calls : List Call}
    (fits : ∀ call ∈ calls, call.Fits (room resp)) :
    Process.Along next (fun resp call => call.Stores resp) resp calls ↔
      Process.Along next (fun resp call => call.Harmless resp) resp calls := by
  apply Process.along_iff_of_permitted (fun call => call.Fits (room resp))
    (fun state => room state = room resp)
  · intro state call same permitted _
    have shape := (call_stores_iff (same ▸ permitted)).1
    rw [← same, room, shape.length_pdu, room]
  · intro state call same permitted
    exact (call_stores_iff (same ▸ permitted)).2
  · rfl
  · exact fits

/-- A response to a read of two registers. -/
theorem stores_along_iff_of_registers :
    ∃ resp, Message.create (.layer .rtu) (.adu [0x11, 3, 4, 0, 0, 0, 0]) = .ok resp ∧
      Process.Along next (fun resp call => call.Stores resp) resp
        [.setRegisterValue 1 0xABCD, .setRegisterValues 0 [7, 8]] := by
  refine ⟨_, rfl, (stores_along_iff ?_).mpr ⟨trivial, trivial, trivial⟩⟩
  intro call mem
  rcases List.mem_pair.mp mem with rfl | rfl
  · exact (by decide : 2 + 2 * (1 + 1) ≤ 6)
  · exact (by decide : 2 + 2 * (0 + 2) ≤ 6)

/-- In a response to a read of coils the second coil turns the function code into that of a read of
registers. -/
theorem coil_overwrites_function :
    ∃ built resp after, Message.create (.layer .rtu) (.adu [0x11, 1, 0, 0]) = .ok built ∧
      setByteCount built 1 = .ok resp ∧ (Call.setBitValue 1 true).Fits (room resp) ∧
      setBitValue resp 1 true = .ok after ∧ resp.pdu[0]? = some 1 ∧
      after.pdu[0]? = some 3 ∧ after.pdu[2]? = some 0 ∧ ¬(Call.setBitValue 1 true).Stores resp := by
  refine ⟨_, _, _, rfl, rfl, (by decide : 8 * 2 + 2 ≤ 8 * 3), rfl, rfl, rfl, rfl, ?_⟩
  rintro ⟨after, performed, stores⟩
  cases performed
  have header := stores.header.1
  cases header

end Modbuspp.Response
