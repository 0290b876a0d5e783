import Modbuspp.Library.BitField
import Modbuspp.Message.Words

/-!
# Values packed in a PDU

Requests and responses carry lists of registers and of bits behind the other fields of their PDU. The
loops that store and read them are the same, up to the offset in the PDU from which they count. What is
stored is read back, the rest of the PDU stays, and the ADU grows to the last byte that is written.
-/

namespace Modbuspp

open BitField

/-- The cells of the buffer from the start of the PDU on. -/
def Message.pdu (msg : Message) : List UInt8 := msg.adu.drop msg.pduBegin.toNat

namespace Packing

variable (base : ℕ)

/-- Stores a register at its index behind the base. -/
def setRegister (msg : Message) (index value : UInt16) : Except Fault Message :=
  msg.setWord (base + index.toNat * 2) value

/-- The sum of the index and the loop counter is cut to 16 bits. -/
def setRegisters (msg : Message) (index : UInt16) : List UInt16 → Except Fault Message
  | [] => .ok msg
  | value :: values => do
      let msg ← setRegister base msg index value
      setRegisters msg (index + 1) values

/-- The register at an index behind the base. -/
def register (msg : Message) (index : UInt16) : Except Fault UInt16 :=
  msg.word (base + index.toNat * 2)

/-- The registers from an index on. -/
def registers (msg : Message) (index : UInt16) : ℕ → Except Fault (List UInt16)
  | 0 => .ok []
  | quantity + 1 => do
      let value ← register base msg index
      let values ← registers msg (index + 1) quantity
      pure (value :: values)

/-- Stores a bit at its index behind the base, and keeps the others of its byte. -/
def setBit (msg : Message) (index : UInt16) (value : Bool) : Except Fault Message := do
  let bit := (index % 8).toUInt8
  let index := index / 8
  let b ← msg.byte (index.toNat + base)
  let b := b &&& ~~~((1 : UInt8) <<< bit)
  let b := b ||| ((if value then 1 else 0) <<< bit)
  msg.setByte (index.toNat + base) b

/-- Stores bits from an index on. -/
def setBits (msg : Message) (index : UInt16) : List Bool → Except Fault Message
  | [] => .ok msg
  | value :: values => do
      let msg ← setBit base msg index value
      setBits msg (index + 1) values

/-- The bit at an index behind the base. -/
def bit (msg : Message) (index : UInt16) : Except Fault Bool := do
  let bit := (index % 8).toUInt8
  let index := index / 8
  let b ← msg.byte (index.toNat + base)
  pure ((b &&& ((1 : UInt8) <<< bit)) != 0)

/-- The bits from an index on. -/
def bits (msg : Message) (index : UInt16) : ℕ → Except Fault (List Bool)
  | 0 => .ok []
  | quantity + 1 => do
      let value ← bit base msg index
      let values ← bits msg (index + 1) quantity
      pure (value :: values)

end Packing

namespace Message

theorem getElem?_pdu (msg : Message) (k : ℕ) :
    msg.pdu[k]? = msg.adu[msg.pduBegin.toNat + k]? :=
  List.getElem?_drop

/-- A message whose PDU has been written to, up to the offset `finish`. -/
structure Rewritten (msg after : Message) (finish : ℕ) : Prop where
  net_eq : after.net = msg.net
  length_eq : after.adu.length = msg.adu.length
  aduSize_eq : after.aduSize = max msg.aduSize (msg.pduBegin.toNat + finish)

theorem Rewritten.length_pdu {msg after : Message} {finish : ℕ}
    (rewritten : msg.Rewritten after finish) : after.pdu.length = msg.pdu.length := by
  simp only [pdu, List.length_drop, pduBegin, rewritten.net_eq, rewritten.length_eq]

theorem Rewritten.trans {msg between after : Message} {first second : ℕ}
    (start : msg.Rewritten between first) (rest : between.Rewritten after second)
    (order : first ≤ second) : msg.Rewritten after second where
  net_eq := rest.net_eq.trans start.net_eq
  length_eq := rest.length_eq.trans start.length_eq
  aduSize_eq := by
    have same : between.pduBegin = msg.pduBegin := by simp only [pduBegin, start.net_eq]
    rw [rest.aduSize_eq, start.aduSize_eq, same]
    omega

theorem setByte_pdu {msg : Message} {k : ℕ} (value : UInt8) (inside : k < msg.pdu.length) :
    ∃ after, msg.setByte k value = .ok after ∧ msg.Rewritten after (k + 1) ∧
      after.pdu = msg.pdu.set k value := by
  have begins := msg.pduBegin_pos
  rw [pdu, List.length_drop] at inside
  have place : msg.pduBegin + (k : ℤ) = (msg.pduBegin.toNat + k : ℕ) := by omega
  refine ⟨_, setByte_ok k _ value place (by omega), ⟨rfl, List.length_set, ?_⟩, ?_⟩
  · simp only [Nat.add_assoc]
  · change (msg.adu.set (msg.pduBegin.toNat + k) value).drop msg.pduBegin.toNat = _
    rw [pdu, List.set_drop]

theorem setWord_pdu {msg : Message} {k : ℕ} (value : UInt16) (inside : k + 1 < msg.pdu.length) :
    ∃ after, msg.setWord k value = .ok after ∧ msg.Rewritten after (k + 2) ∧
      after.pdu = (msg.pdu.set k (value >>> 8).toUInt8).set (k + 1) value.toUInt8 := by
  have begins := msg.pduBegin_pos
  rw [pdu, List.length_drop] at inside
  have place : msg.pduBegin + (k : ℤ) = (msg.pduBegin.toNat + k : ℕ) := by omega
  refine ⟨_, setWord_ok k _ value place (by omega), ⟨rfl, ?_, ?_⟩, ?_⟩
  · simp only [List.length_set]
  · simp only [Nat.add_assoc]
  · change ((msg.adu.set (msg.pduBegin.toNat + k) _).set (msg.pduBegin.toNat + k + 1) _).drop
      msg.pduBegin.toNat = _
    rw [pdu, List.set_drop, List.set_drop, Nat.add_assoc]

theorem byte_pdu {msg : Message} {k : ℕ} {value : UInt8} (found : msg.pdu[k]? = some value) :
    msg.byte k = .ok value := by
  have begins := msg.pduBegin_pos
  rw [getElem?_pdu] at found
  exact byte_of_cell (by omega) found

theorem word_pdu {msg : Message} {k : ℕ} {value : UInt16}
    (high : msg.pdu[k]? = some (value >>> 8).toUInt8)
    (low : msg.pdu[k + 1]? = some value.toUInt8) : msg.word k = .ok value := by
  have begins := msg.pduBegin_pos
  rw [getElem?_pdu] at high low
  exact word_of_bytes (by omega) high low

end Message

namespace Packing

variable {base : ℕ} {msg : Message} {index : UInt16}

theorem toNat_succ (small : index.toNat + 1 < 65536) : (index + 1).toNat = index.toNat + 1 := by
  rw [UInt16.toNat_add]
  change (index.toNat + 1) % 65536 = _
  omega

theorem register_place (base : ℕ) (index : UInt16) :
    (base + (index.toNat : ℤ) * 2) = (base + 2 * index.toNat : ℕ) := by
  omega

/-- The registers of a list lie in the PDU from an index on, high byte first. -/
def HasRegisters (base : ℕ) (msg : Message) (index : ℕ) (values : List UInt16) : Prop :=
  ∀ (j : ℕ) (value : UInt16), values[j]? = some value →
    msg.pdu[base + 2 * (index + j)]? = some (value >>> 8).toUInt8 ∧
      msg.pdu[base + 2 * (index + j) + 1]? = some value.toUInt8

/-- The registers are stored, and nothing else of the PDU changes. -/
structure RegistersStored (base : ℕ) (msg after : Message) (index : ℕ) (values : List UInt16) :
    Prop where
  rewritten : msg.Rewritten after (base + 2 * (index + values.length))
  registers : HasRegisters base after index values
  others : ∀ k, k < base + 2 * index ∨ base + 2 * (index + values.length) ≤ k →
    after.pdu[k]? = msg.pdu[k]?

theorem setRegister_spec (value : UInt16) (inside : base + 2 * index.toNat + 1 < msg.pdu.length) :
    ∃ after, setRegister base msg index value = .ok after ∧
      RegistersStored base msg after index.toNat [value] := by
  rcases Message.setWord_pdu value inside with ⟨after, stored, rewritten, cells⟩
  refine ⟨after, ?_, rewritten, ?_, ?_⟩
  · rw [setRegister, register_place]
    exact stored
  · intro j other found
    rcases List.getElem?_eq_some_iff.mp found with ⟨first, rfl⟩
    rw [List.length_singleton] at first
    obtain rfl : j = 0 := by omega
    rw [cells]
    constructor
    · rw [List.getElem?_set_ne (by omega)]
      exact List.getElem?_set_self (by omega)
    · exact List.getElem?_set_self (by rw [List.length_set]; omega)
  · intro k outside
    rw [List.length_singleton] at outside
    rw [cells, List.getElem?_set_ne (by omega), List.getElem?_set_ne (by omega)]

theorem RegistersStored.cons {between after : Message} {i : ℕ} {value : UInt16}
    {values : List UInt16} (first : RegistersStored base msg between i [value])
    (rest : RegistersStored base between after (i + 1) values) :
    RegistersStored base msg after i (value :: values) where
  rewritten := by
    have length : i + 1 + values.length = i + (value :: values).length := by
      rw [List.length_cons]
      omega
    rw [← length]
    exact first.rewritten.trans rest.rewritten (by rw [List.length_singleton]; omega)
  registers := by
    intro j
    cases j with
    | zero =>
        intro other found
        have stored := first.registers 0 other found
        rw [rest.others _ (Or.inl (by omega)), rest.others _ (Or.inl (by omega))]
        exact stored
    | succ j =>
        intro other found
        have place : i + (j + 1) = i + 1 + j := by omega
        rw [place]
        exact rest.registers j other found
  others := by
    intro k outside
    rw [List.length_cons] at outside
    rw [rest.others k (by omega), first.others k (by rw [List.length_singleton]; omega)]

/-- The loop over values, of which there is at least one. -/
theorem setRegisters_spec {values : List UInt16} (nonempty : values ≠ [])
    (fits : base + 2 * (index.toNat + values.length) ≤ msg.pdu.length)
    (small : index.toNat + values.length < 65536) :
    ∃ after, setRegisters base msg index values = .ok after ∧
      RegistersStored base msg after index.toNat values := by
  induction values generalizing msg index with
  | nil => exact absurd rfl nonempty
  | cons value values ih =>
      rw [List.length_cons] at fits small
      have inside : base + 2 * index.toNat + 1 < msg.pdu.length := by omega
      rcases setRegister_spec value inside with ⟨between, stored, first⟩
      simp only [setRegisters, stored, ok_bind]
      by_cases last : values = []
      · subst last
        exact ⟨between, rfl, first⟩
      · have following := toNat_succ (by omega : index.toNat + 1 < 65536)
        have length := first.rewritten.length_pdu
        have room : base + 2 * ((index + 1).toNat + values.length) ≤ between.pdu.length := by omega
        rcases ih last room (by omega) with ⟨after, run, rest⟩
        rw [following] at rest
        exact ⟨after, run, first.cons rest⟩

theorem registers_of_hasRegisters {values : List UInt16}
    (stored : HasRegisters base msg index.toNat values)
    (small : index.toNat + values.length < 65536) :
    registers base msg index values.length = .ok values := by
  induction values generalizing index with
  | nil => rfl
  | cons value values ih =>
      rw [List.length_cons] at small
      have following := toNat_succ (by omega : index.toNat + 1 < 65536)
      have first : register base msg index = .ok value := by
        rcases stored 0 value rfl with ⟨high, low⟩
        rw [register, register_place]
        exact Message.word_pdu high low
      have rest : HasRegisters base msg (index + 1).toNat values := by
        intro j later found
        have place : (index + 1).toNat + j = index.toNat + (j + 1) := by omega
        rw [place]
        exact stored (j + 1) later found
      simp only [List.length_cons, registers, first, ih rest (by omega), ok_bind, pure_eq_ok]

theorem toNat_bit (index : UInt16) : (index % 8).toUInt8.toNat = index.toNat % 8 := by
  simp only [UInt16.toNat_toUInt8, UInt16.toNat_mod]
  change index.toNat % 8 % 256 = _
  omega

theorem toNat_byte (index : UInt16) : (index / 8).toNat = index.toNat / 8 := UInt16.toNat_div ..

theorem byte_place (base : ℕ) (index : UInt16) :
    ((index / 8).toNat + (base : ℤ)) = ((index.toNat + 8 * base) / 8 : ℕ) := by
  rw [toNat_byte]
  omega

/-- The bits are stored, and nothing else of the PDU changes. -/
structure BitsStored (base : ℕ) (msg after : Message) (index : ℕ) (values : List Bool) : Prop where
  rewritten : msg.Rewritten after (base + (index + values.length + 7) / 8)
  written : ∀ (j : ℕ) (value : Bool), values[j]? = some value →
    bitAt after.pdu (8 * base + (index + j)) = some value
  others : ∀ b, b < 8 * base + index ∨ 8 * base + (index + values.length) ≤ b →
    bitAt after.pdu b = bitAt msg.pdu b

theorem setBit_spec (value : Bool) (inside : base + index.toNat / 8 < msg.pdu.length) :
    ∃ after, setBit base msg index value = .ok after ∧
      BitsStored base msg after index.toNat [value] := by
  have place : (index.toNat + 8 * base) / 8 < msg.pdu.length := by omega
  have found : msg.pdu[(index.toNat + 8 * base) / 8]? = some msg.pdu[(index.toNat + 8 * base) / 8] :=
    List.getElem?_eq_getElem place
  generalize msg.pdu[(index.toNat + 8 * base) / 8] = byte at found
  rcases Message.setByte_pdu (assign byte (index % 8).toUInt8 value) place with
    ⟨after, stored, rewritten, cells⟩
  have same : (index % 8).toUInt8.toNat = (index.toNat + 8 * base) % 8 := by
    rw [toNat_bit]
    omega
  have bits : ∀ b, bitAt after.pdu b =
      if b = index.toNat + 8 * base then some value else bitAt msg.pdu b := by
    intro b
    rw [cells]
    exact bitAt_set found same b
  refine ⟨after, ?_, ?_, ?_, ?_⟩
  · simp only [setBit, byte_place, Message.byte_pdu found, ok_bind]
    exact stored
  · have finish : (index.toNat + 8 * base) / 8 + 1 =
        base + (index.toNat + [value].length + 7) / 8 := by
      rw [List.length_singleton]
      omega
    rw [← finish]
    exact rewritten
  · intro j other only
    rcases List.getElem?_eq_some_iff.mp only with ⟨first, rfl⟩
    rw [List.length_singleton] at first
    obtain rfl : j = 0 := by omega
    rw [bits, if_pos (by omega)]
    rfl
  · intro b outside
    rw [List.length_singleton] at outside
    rw [bits, if_neg (by omega)]

theorem BitsStored.cons {between after : Message} {i : ℕ} {value : Bool} {values : List Bool}
    (first : BitsStored base msg between i [value])
    (rest : BitsStored base between after (i + 1) values) :
    BitsStored base msg after i (value :: values) where
  rewritten := by
    have length : i + 1 + values.length = i + (value :: values).length := by
      rw [List.length_cons]
      omega
    rw [← length]
    exact first.rewritten.trans rest.rewritten (by rw [List.length_singleton]; omega)
  written := by
    intro j
    cases j with
    | zero =>
        intro other found
        rw [rest.others _ (Or.inl (by omega))]
        exact first.written 0 other found
    | succ j =>
        intro other found
        have place : i + (j + 1) = i + 1 + j := by omega
        rw [place]
        exact rest.written j other found
  others := by
    intro b outside
    rw [List.length_cons] at outside
    rw [rest.others b (by omega), first.others b (by rw [List.length_singleton]; omega)]

theorem setBits_spec {values : List Bool} (nonempty : values ≠ [])
    (fits : 8 * base + (index.toNat + values.length) ≤ 8 * msg.pdu.length)
    (small : index.toNat + values.length < 65536) :
    ∃ after, setBits base msg index values = .ok after ∧
      BitsStored base msg after index.toNat values := by
  induction values generalizing msg index with
  | nil => exact absurd rfl nonempty
  | cons value values ih =>
      rw [List.length_cons] at fits small
      have inside : base + index.toNat / 8 < msg.pdu.length := by omega
      rcases setBit_spec value inside with ⟨between, stored, first⟩
      simp only [setBits, stored, ok_bind]
      by_cases last : values = []
      · subst last
        exact ⟨between, rfl, first⟩
      · have following := toNat_succ (by omega : index.toNat + 1 < 65536)
        have length := first.rewritten.length_pdu
        have room : 8 * base + ((index + 1).toNat + values.length) ≤ 8 * between.pdu.length := by
          omega
        rcases ih last room (by omega) with ⟨after, run, rest⟩
        rw [following] at rest
        exact ⟨after, run, first.cons rest⟩

theorem bit_of_bitAt {value : Bool}
    (found : bitAt msg.pdu (8 * base + index.toNat) = some value) :
    bit base msg index = .ok value := by
  rw [Nat.add_comm] at found
  rcases Option.map_eq_some_iff.mp found with ⟨byte, cell, isSet⟩
  have small : (index % 8).toUInt8.toNat < 8 := by
    rw [toNat_bit]
    omega
  have tested : test byte (index % 8).toUInt8 = value := by
    rw [test_eq small, toNat_bit, ← isSet]
    congr 1
    omega
  simp only [bit, byte_place, Message.byte_pdu cell, ok_bind, pure_eq_ok]
  exact congrArg Except.ok tested

theorem bits_of_bitAt {values : List Bool}
    (stored : ∀ (j : ℕ) (value : Bool), values[j]? = some value →
      bitAt msg.pdu (8 * base + (index.toNat + j)) = some value)
    (small : index.toNat + values.length < 65536) :
    bits base msg index values.length = .ok values := by
  induction values generalizing index with
  | nil => rfl
  | cons value values ih =>
      rw [List.length_cons] at small
      have following := toNat_succ (by omega : index.toNat + 1 < 65536)
      have first : bit base msg index = .ok value := bit_of_bitAt (stored 0 value rfl)
      have rest : ∀ (j : ℕ) (later : Bool), values[j]? = some later →
          bitAt msg.pdu (8 * base + ((index + 1).toNat + j)) = some later := by
        intro j later found
        have place : (index + 1).toNat + j = index.toNat + (j + 1) := by omega
        rw [place]
        exact stored (j + 1) later found
      simp only [List.length_cons, bits, first, ih rest (by omega), ok_bind, pure_eq_ok]

end Packing

end Modbuspp
