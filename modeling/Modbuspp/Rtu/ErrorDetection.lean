import Mathlib.Tactic.NormNum.Prime
import Modbuspp.Library.ErrorPattern
import Modbuspp.Message.Layer
import Modbuspp.Rtu.CrcModbus

/-!
# Errors that the CRC detects

The polynomial of CRC-16/MODBUS has an odd number of bits, and a bit that circulates alone in its register
comes back after 32767 shifts. So the CRC of the RTU layer notices every odd number of errors, and two errors
unless they are a multiple of 32767 bits apart, which is more than a frame has. Frames of one length that
`prepareToSend` makes differ at four bits at least.
-/

namespace Modbuspp.Rtu

/-- The number of bits at which two sequences differ. -/
def errors (a b : List UInt8) : ℕ :=
  ShiftRegister.errors (a.map UInt8.toBitVec) (b.map UInt8.toBitVec)

/-- Two sequences that differ at the bits `p` and `q` only. -/
def DifferAt (a b : List UInt8) (p q : ℕ) : Prop :=
  ShiftRegister.DifferAt (a.map UInt8.toBitVec) (b.map UInt8.toBitVec) p q

theorem polynomial_top : polynomial.getLsbD (16 - 1) = true := by decide

theorem polynomial_odd : ShiftRegister.weight polynomial % 2 = 1 := by decide

theorem isPeriodicPt_iff (exponents : List ℕ) :
    Function.IsPeriodicPt (ShiftRegister.shift polynomial)
        (exponents.foldr (fun k n => 2 ^ k + n) 0) 1#16 ↔
      exponents.foldr (ShiftRegister.doubled 0xA001) 1 = 1 := by
  rw [← show (1#16).toNat = 1 from rfl, ← show polynomial.toNat = 0xA001 from rfl,
    ← ShiftRegister.toNat_shifts_sum, BitVec.toNat_inj]
  rfl

/-- A bit comes back after 2 ^ 15 - 1 shifts. -/
theorem isPeriodicPt_polynomial :
    Function.IsPeriodicPt (ShiftRegister.shift polynomial) 32767 1#16 := by
  have doubled : ShiftRegister.doubled 0xA001 15 1 = ShiftRegister.shiftNat 0xA001 1 := by
    decide +kernel
  have returned : ShiftRegister.shifts polynomial (2 ^ 15) 1#16 =
      ShiftRegister.shifts polynomial 1 1#16 := by
    apply BitVec.eq_of_toNat_eq
    rw [ShiftRegister.toNat_shifts_two_pow]
    exact doubled.trans (ShiftRegister.toNat_shift polynomial 1#16).symm
  rw [show 2 ^ 15 = 1 + 32767 by decide, ShiftRegister.shifts_add] at returned
  exact ShiftRegister.shifts_injective polynomial_top 1 returned

theorem minimalPeriod_polynomial :
    Function.minimalPeriod (ShiftRegister.shift polynomial) 1#16 = 32767 := by
  have prime₇ : Nat.Prime 7 := by norm_num
  have prime₃₁ : Nat.Prime 31 := by norm_num
  have prime₁₅₁ : Nat.Prime 151 := by norm_num
  apply ShiftRegister.minimalPeriod_eq isPeriodicPt_polynomial
  intro p prime divides
  rw [show 32767 = 7 * 31 * 151 by decide, prime.dvd_mul, prime.dvd_mul,
    Nat.prime_dvd_prime_iff_eq prime prime₇, Nat.prime_dvd_prime_iff_eq prime prime₃₁,
    Nat.prime_dvd_prime_iff_eq prime prime₁₅₁] at divides
  -- What is left of the period without 7, 31 or 151, as sums of powers of two.
  rcases divides with (rfl | rfl) | rfl
  · exact fun periodic =>
      absurd ((isPeriodicPt_iff [12, 9, 6, 3, 0]).mp periodic) (by decide +kernel)
  · exact fun periodic => absurd ((isPeriodicPt_iff [10, 5, 0]).mp periodic) (by decide +kernel)
  · exact fun periodic => absurd ((isPeriodicPt_iff [7, 6, 4, 3, 0]).mp periodic) (by decide +kernel)

theorem crcOf_eq_iff {a b : List UInt8} : crcOf a = crcOf b ↔
    (a.map UInt8.toBitVec).foldl (ShiftRegister.feed polynomial) 0xFFFF#16 =
      (b.map UInt8.toBitVec).foldl (ShiftRegister.feed polynomial) 0xFFFF#16 := by
  constructor
  · intro same
    have registers := congrArg CrcBytes.register (toWord_injective same)
    rwa [register_foldl, register_foldl] at registers
  · intro same
    rw [crcOf_eq, crcOf_eq, crcModbus, same]
    rfl

theorem crc16_eq_iff {a b : List UInt8} (length : a.length = b.length) (short : a.length ≤ 65535) :
    crc16 a (UInt16.ofNat a.length) = crc16 b (UInt16.ofNat b.length) ↔ crcOf a = crcOf b := by
  have first := crc16_append short []
  have second := crc16_append (by omega : b.length ≤ 65535) []
  rw [List.append_nil] at first second
  rw [first, second, Except.ok.injEq]

/-- Sequences that differ at an odd number of bits have different CRCs. -/
theorem crc16_detects_odd {a b : List UInt8} (length : a.length = b.length) (short : a.length ≤ 65535)
    (odd : errors a b % 2 = 1) :
    crc16 a (UInt16.ofNat a.length) ≠ crc16 b (UInt16.ofNat b.length) := by
  intro same
  rw [crc16_eq_iff length short, crcOf_eq_iff] at same
  refine ShiftRegister.foldl_feed_ne_of_odd (by decide) polynomial_odd ?_ odd _ same
  rw [List.length_map, List.length_map, length]

theorem crc16_detects_odd_of_three : crc16 [0x01, 0x03, 0x00, 0x07] 4 ≠ crc16 [0x81, 0x03, 0x10, 0x06] 4 :=
  crc16_detects_odd (a := [0x01, 0x03, 0x00, 0x07]) (b := [0x81, 0x03, 0x10, 0x06]) rfl (by decide)
    (by decide)

/-- Sequences that differ at two bits have the same CRC exactly when these are a multiple of 32767 bits
apart. -/
theorem crc16_eq_iff_of_two {a b : List UInt8} {p q : ℕ} (differ : DifferAt a b p q)
    (short : a.length ≤ 65535) :
    crc16 a (UInt16.ofNat a.length) = crc16 b (UInt16.ofNat b.length) ↔ 32767 ∣ q - p := by
  have length := differ.length_eq
  rw [List.length_map, List.length_map] at length
  rw [crc16_eq_iff length short, crcOf_eq_iff,
    ShiftRegister.foldl_feed_eq_iff_of_two (by decide) polynomial_top differ, minimalPeriod_polynomial]

theorem crc16_eq_iff_of_two_of_pair :
    crc16 [0x01, 0x03, 0x00, 0x07] 4 = crc16 [0x00, 0x03, 0x00, 0x87] 4 ↔ 32767 ∣ 31 - 0 := by
  refine crc16_eq_iff_of_two (a := [0x01, 0x03, 0x00, 0x07]) (b := [0x00, 0x03, 0x00, 0x87])
    ⟨rfl, by decide, ?_⟩ (by decide)
  intro k
  by_cases inside : k < 32
  · revert k
    decide
  · rw [ShiftRegister.bitOf_of_le (Nat.le_of_not_lt inside),
      ShiftRegister.bitOf_of_le (Nat.le_of_not_lt inside)]
    exact iff_of_false (fun ne => ne rfl) (by omega)

/-- The bytes of a message that are sent. -/
def frame (msg : Message) : List UInt8 := msg.adu.take msg.aduSize

/-- A prepared frame is the message followed by its CRC. -/
theorem frame_withCrc {msg : Message} (room : msg.aduSize + 2 ≤ msg.adu.length)
    (short : msg.aduSize ≤ 65535) :
    frame msg.withCrc =
      frame msg ++ [(crcOf (frame msg) >>> 8).toUInt8, (crcOf (frame msg)).toUInt8] := by
  have counted : (UInt16.ofNat msg.aduSize).toNat = msg.aduSize := by
    rw [UInt16.toNat_ofNat']
    omega
  have length : (frame msg).length = msg.aduSize := by
    rw [frame, List.length_take]
    omega
  apply List.ext_getElem?
  intro index
  simp only [frame, Message.withCrc, counted] at length ⊢
  rcases Nat.lt_trichotomy index msg.aduSize with inside | rfl | beyond
  · rw [List.getElem?_take_of_lt (by omega), List.getElem?_set_ne (by omega),
      List.getElem?_set_ne (by omega), List.getElem?_append_left (by omega),
      List.getElem?_take_of_lt inside]
  · rw [List.getElem?_take_of_lt (by omega), List.getElem?_set_ne (by omega),
      List.getElem?_set_self (by omega), List.getElem?_append_right (by omega), length, Nat.sub_self]
    rfl
  · by_cases last : index = msg.aduSize + 1
    · subst last
      rw [List.getElem?_take_of_lt (by omega), List.getElem?_set_self (by rw [List.length_set]; omega),
        List.getElem?_append_right (by omega), length, Nat.add_sub_cancel_left]
      rfl
    · rw [List.getElem?_take_eq_none (by omega), List.getElem?_eq_none]
      rw [List.length_append, length]
      simp only [List.length_cons, List.length_nil]
      omega

/-- The layer and a message without backend append the CRC alike. -/
theorem prepareToSend_eq_withCrc {msg : Message} {layer : NetLayer} (same : layer.net = msg.net)
    (rtu : msg.net = .rtu) (nonempty : 1 ≤ msg.size) (room : msg.aduSize + 2 ≤ msg.adu.length) :
    msg.prepareToSend layer = .ok (true, msg.withCrc, layer) := by
  cases kept : msg.backend with
  | false => exact Message.own_rtu_prepareToSend_ok kept rtu nonempty room
  | true =>
      cases layer with
      | tcp _ =>
          rw [rtu] at same
          cases same
      | rtu =>
          simp only [Message.prepareToSend, if_pos kept, NetLayer.prepareToSend,
            Message.rtu_prepareToSend_ok rtu nonempty room, ok_bind, pure_eq_ok]

/-- Two messages of the same length that differ in the slave or in the PDU are sent as frames that differ
at four bits at least. -/
theorem prepared_frames_distance {msg other : Message} {layer : NetLayer} (sameNet : layer.net = .rtu)
    (rtu : msg.net = .rtu) (otherRtu : other.net = .rtu) (nonempty : 1 ≤ msg.size)
    (legal : msg.size ≤ maxPduLength) (sameSize : other.size = msg.size)
    (room : msg.aduSize + 2 ≤ msg.adu.length) (otherRoom : other.aduSize + 2 ≤ other.adu.length)
    (differ : frame msg ≠ frame other) :
    ∃ prepared sent, msg.prepareToSend layer = .ok (true, prepared, layer) ∧
      other.prepareToSend layer = .ok (true, sent, layer) ∧
      4 ≤ errors (frame prepared) (frame sent) := by
  have begin_eq : msg.pduBegin = 1 := by simp [Message.pduBegin, rtu, Net.headerLength]
  have otherBegin : other.pduBegin = 1 := by simp [Message.pduBegin, otherRtu, Net.headerLength]
  have extent := Message.aduSize_eq_of_size_pos nonempty
  have otherExtent := Message.aduSize_eq_of_size_pos (by omega : 1 ≤ other.size)
  simp only [maxPduLength] at legal
  refine ⟨msg.withCrc, other.withCrc, prepareToSend_eq_withCrc (sameNet.trans rtu.symm) rtu nonempty room,
    prepareToSend_eq_withCrc (sameNet.trans otherRtu.symm) otherRtu (by omega) otherRoom, ?_⟩
  have framed := frame_withCrc room (by omega)
  have otherFramed := frame_withCrc otherRoom (by omega)
  have length : (frame msg).length = msg.aduSize := by
    rw [frame, List.length_take]
    omega
  have otherLength : (frame other).length = msg.aduSize := by
    rw [frame, List.length_take]
    omega
  have ends : crcOf (frame msg.withCrc) = crcOf (frame other.withCrc) := by
    rw [framed, otherFramed, crcOf_own, crcOf_own]
  rw [crcOf_eq_iff] at ends
  refine ShiftRegister.four_le_errors (by decide) polynomial_odd polynomial_top ?_ ?_ ?_ ends
  · rw [List.length_map, List.length_map, framed, otherFramed, List.length_append, List.length_append,
      length, otherLength]
    rfl
  · rw [minimalPeriod_polynomial, List.length_map, framed, List.length_append, length]
    simp only [List.length_cons, List.length_nil]
    omega
  · intro same
    have frames := List.map_injective_iff.mpr (fun _ _ => UInt8.toBitVec_inj.mp) same
    rw [framed, otherFramed] at frames
    exact differ (List.append_inj_left frames (length.trans otherLength.symm))

/-- Requests that differ at one bit of the address. -/
theorem prepared_frames_distance_of_requests : ∃ msg other,
    Message.create (.net .rtu) (.adu [0x21, 3, 0, 0, 0, 1, 0, 0]) = .ok msg ∧
      Message.create (.net .rtu) (.adu [0x21, 3, 0, 1, 0, 1, 0, 0]) = .ok other ∧
      ∃ prepared sent, (msg.setSize 5).prepareToSend .rtu = .ok (true, prepared, .rtu) ∧
        (other.setSize 5).prepareToSend .rtu = .ok (true, sent, .rtu) ∧
        4 ≤ errors (frame prepared) (frame sent) :=
  ⟨_, _, rfl, rfl, prepared_frames_distance rfl rfl rfl (by decide) (by decide) rfl (by decide)
    (by decide) (by decide)⟩

end Modbuspp.Rtu
