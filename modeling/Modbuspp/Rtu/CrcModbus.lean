import Modbuspp.Library.ShiftRegister
import Modbuspp.Rtu.Crc

/-!
# CRC-16/MODBUS

The two tables hold the bytes of the octets shifted through the register of CRC-16/MODBUS, so the loop
over them is that register, with its low byte in `crcHi`. What is known of the register then holds of the
CRC of the RTU layer: a frame that ends with its own CRC leaves the register clear, and two bytes next to
each other cannot be changed without a change of the CRC.
-/

namespace Modbuspp.Rtu

/-- The reflected polynomial of CRC-16/MODBUS. -/
def polynomial : BitVec 16 := 0xA001#16

/-- CRC-16/MODBUS, bit by bit. -/
def crcModbus (bytes : List UInt8) : UInt16 :=
  ⟨(bytes.map UInt8.toBitVec).foldl (ShiftRegister.feed polynomial) 0xFFFF#16⟩

/-- A word with its two bytes exchanged. -/
def exchanged (word : UInt16) : UInt16 := (word <<< 8) ||| (word >>> 8)

/-- The register that the two bytes of the running CRC stand for. -/
def CrcBytes.register (crc : CrcBytes) : BitVec 16 := crc.crcLo.toBitVec ++ crc.crcHi.toBitVec

/-- The entries of the tables are the bytes of the shifted octets. -/
theorem tables_eq :
    (List.range 256).map (fun i => ShiftRegister.shifts polynomial 8 (BitVec.ofNat 16 i)) =
      List.zipWith (fun lo hi => lo.toBitVec ++ hi.toBitVec) crcLoTable crcHiTable := by
  decide +kernel

theorem length_tables : crcLoTable.length = 256 ∧ crcHiTable.length = 256 := by
  decide +kernel

theorem entry_eq {i : ℕ} (inside : i < 256) :
    ShiftRegister.shifts polynomial 8 (BitVec.ofNat 16 i) =
      (crcLoTable.getD i 0).toBitVec ++ (crcHiTable.getD i 0).toBitVec := by
  have entries := congrArg (fun entries : List (BitVec 16) => entries[i]?) tables_eq
  have lo := List.getElem?_eq_getElem (by rw [length_tables.1]; exact inside : i < crcLoTable.length)
  have hi := List.getElem?_eq_getElem (by rw [length_tables.2]; exact inside : i < crcHiTable.length)
  simp only [List.getElem?_map, List.getElem?_range inside, Option.map_some, List.getElem?_zipWith,
    lo, hi, Option.some.injEq] at entries
  rw [List.getD_eq_getElem?_getD, List.getD_eq_getElem?_getD, lo, hi]
  exact entries

theorem append_ushiftRight (high low : BitVec 8) : (high ++ low) >>> 8 = 0#8 ++ high := by
  apply BitVec.eq_of_getLsbD_eq
  intro i _
  simp only [BitVec.getLsbD_ushiftRight, BitVec.getLsbD_append, BitVec.getLsbD_zero]
  by_cases inside : i < 8
  · simp [inside]
  · simp [inside, BitVec.getLsbD_of_ge high i (by omega)]

theorem register_crcStep (crc : CrcBytes) (byte : UInt8) :
    (crcStep crc byte).register = ShiftRegister.feed polynomial crc.register byte.toBitVec := by
  have low : crc.register.setWidth 8 = crc.crcHi.toBitVec := BitVec.setWidth_append_eq_right
  have entry := entry_eq (crc.crcHi ^^^ byte).toNat_lt
  have index : BitVec.ofNat 16 (crc.crcHi ^^^ byte).toNat =
      (crc.crcHi.toBitVec ^^^ byte.toBitVec).setWidth 16 := BitVec.ofNat_toNat 16 _
  simp only [index] at entry
  rw [ShiftRegister.feed_eq_table, low, entry]
  have moved : crc.register >>> 8 = 0#8 ++ crc.crcLo.toBitVec := append_ushiftRight _ _
  rw [moved, BitVec.xor_append, BitVec.zero_xor]
  rfl

theorem register_foldl (crc : CrcBytes) (bytes : List UInt8) :
    (bytes.foldl crcStep crc).register =
      (bytes.map UInt8.toBitVec).foldl (ShiftRegister.feed polynomial) crc.register := by
  induction bytes generalizing crc with
  | nil => rfl
  | cons byte bytes ih => rw [List.foldl_cons, ih, register_crcStep, List.map_cons, List.foldl_cons]

theorem register_getLsbD (crc : CrcBytes) (i : ℕ) : crc.register.getLsbD i =
    if i < 8 then crc.crcHi.toBitVec.getLsbD i else crc.crcLo.toBitVec.getLsbD (i - 8) :=
  BitVec.getLsbD_append

theorem toWord_eq (crc : CrcBytes) : crc.toWord = exchanged ⟨crc.register⟩ := by
  apply UInt16.toBitVec_inj.mp
  apply BitVec.eq_of_getLsbD_eq
  intro i inside
  change (crc.crcHi.toBitVec.setWidth 16 <<< 8 ||| crc.crcLo.toBitVec.setWidth 16).getLsbD i =
    (crc.register <<< 8 ||| crc.register >>> 8).getLsbD i
  simp only [BitVec.getLsbD_or, BitVec.getLsbD_shiftLeft, BitVec.getLsbD_ushiftRight,
    BitVec.getLsbD_setWidth, register_getLsbD, decide_eq_true inside, Bool.true_and]
  by_cases low : i < 8
  · simp [low]
  · have inByte : i - 8 < 8 := by omega
    have inWord : i - 8 < 16 := by omega
    simp [low, inByte, inWord, BitVec.getLsbD_of_ge crc.crcLo.toBitVec i (by omega)]

theorem crcOf_eq (bytes : List UInt8) : crcOf bytes = exchanged (crcModbus bytes) := by
  rw [crcOf, toWord_eq, register_foldl]
  rfl

theorem crc16_append {bytes : List UInt8} (short : bytes.length ≤ 65535) (rest : List UInt8) :
    crc16 (bytes ++ rest) (UInt16.ofNat bytes.length) = .ok (crcOf bytes) := by
  have count : (UInt16.ofNat bytes.length).toNat = bytes.length := by
    rw [UInt16.toNat_ofNat']
    omega
  have inside : (UInt16.ofNat bytes.length).toNat ≤ (bytes ++ rest).length := by
    rw [count, List.length_append]
    omega
  rw [crc16_of_le inside, count, List.take_left]

theorem high_toWord (crc : CrcBytes) : (crc.toWord >>> 8).toUInt8 = crc.crcHi := by
  apply UInt8.toBitVec_inj.mp
  apply BitVec.eq_of_getLsbD_eq
  intro i inside
  change (((crc.crcHi.toBitVec.setWidth 16 <<< 8 ||| crc.crcLo.toBitVec.setWidth 16) >>> 8).setWidth
    8).getLsbD i = _
  have inWord : i < 16 := by omega
  have above : 8 + i < 16 := by omega
  simp [inside, inWord, above]

theorem low_toWord (crc : CrcBytes) : crc.toWord.toUInt8 = crc.crcLo := by
  apply UInt8.toBitVec_inj.mp
  apply BitVec.eq_of_getLsbD_eq
  intro i inside
  change ((crc.crcHi.toBitVec.setWidth 16 <<< 8 ||| crc.crcLo.toBitVec.setWidth 16).setWidth
    8).getLsbD i = _
  simp [inside]

theorem pack_register (crc : CrcBytes) :
    ShiftRegister.pack 16 [crc.crcHi.toBitVec, crc.crcLo.toBitVec] = crc.register := by
  apply BitVec.eq_of_getLsbD_eq
  intro i inside
  rw [register_getLsbD]
  split
  · next low => exact ShiftRegister.pack_getLsbD_of_lt _ _ low inside
  · next high =>
    have place : i = (i - 8) + 8 := by omega
    rw [place, ShiftRegister.pack_getLsbD_add _ _ (by omega), Nat.add_sub_cancel]
    exact ShiftRegister.pack_getLsbD_of_lt _ _ (by omega) (by omega)

/-- A sequence that ends with its own CRC has the CRC 0. -/
theorem crcOf_own (bytes : List UInt8) :
    crcOf (bytes ++ [(crcOf bytes >>> 8).toUInt8, (crcOf bytes).toUInt8]) = 0 := by
  generalize state_eq : bytes.foldl crcStep { crcHi := 0xFF, crcLo := 0xFF } = state
  have ended : ([state.crcHi, state.crcLo].foldl crcStep state).register = 0#16 := by
    rw [register_foldl, ← pack_register]
    exact ShiftRegister.foldl_feed_own polynomial (Nat.le_refl 16)
  simp only [crcOf, List.foldl_append, state_eq, high_toWord, low_toWord]
  rw [toWord_eq, ended]
  rfl

/-- The loop over the tables is CRC-16/MODBUS with its bytes exchanged, and a sequence followed by its own
CRC gives 0. -/
theorem crc16_refines (bytes rest : List UInt8) :
    (bytes.length ≤ 65535 →
      crc16 (bytes ++ rest) (UInt16.ofNat bytes.length) = .ok (exchanged (crcModbus bytes))) ∧
    (bytes.length ≤ 65533 → ∃ crc, crc16 bytes (UInt16.ofNat bytes.length) = .ok crc ∧
      crc16 (bytes ++ [(crc >>> 8).toUInt8, crc.toUInt8] ++ rest) (UInt16.ofNat (bytes.length + 2)) =
        .ok 0) := by
  constructor
  · intro short
    rw [crc16_append short, crcOf_eq]
  · intro short
    have computed := crc16_append (by omega : bytes.length ≤ 65535) []
    rw [List.append_nil] at computed
    refine ⟨crcOf bytes, computed, ?_⟩
    have length : (bytes ++ [(crcOf bytes >>> 8).toUInt8, (crcOf bytes).toUInt8]).length =
        bytes.length + 2 := by
      simp only [List.length_append, List.length_cons, List.length_nil]
    rw [← length, crc16_append (by omega), crcOf_own]

theorem crc16_refines_of_check :
    crc16 [0x31, 0x32, 0x33, 0x34, 0x35, 0x36, 0x37, 0x38, 0x39] 9 = .ok (exchanged (crcModbus
        [0x31, 0x32, 0x33, 0x34, 0x35, 0x36, 0x37, 0x38, 0x39])) ∧
      ∃ crc, crc16 [0x31, 0x32, 0x33, 0x34, 0x35, 0x36, 0x37, 0x38, 0x39] 9 = .ok crc ∧
        crc16 [0x31, 0x32, 0x33, 0x34, 0x35, 0x36, 0x37, 0x38, 0x39, (crc >>> 8).toUInt8, crc.toUInt8] 11 =
          .ok 0 := by
  have refined := crc16_refines [0x31, 0x32, 0x33, 0x34, 0x35, 0x36, 0x37, 0x38, 0x39] []
  exact ⟨refined.1 (by decide), refined.2 (by decide)⟩

/-- The check value of CRC-16/MODBUS. -/
example : crcModbus [0x31, 0x32, 0x33, 0x34, 0x35, 0x36, 0x37, 0x38, 0x39] = 0x4B37 := by
  decide +kernel

theorem toWord_injective : Function.Injective CrcBytes.toWord := by
  intro crc other same
  have high := congrArg (fun word : UInt16 => (word >>> 8).toUInt8) same
  have low := congrArg UInt16.toUInt8 same
  simp only [high_toWord, low_toWord] at high low
  rcases crc with ⟨crcHi, crcLo⟩
  rw [CrcBytes.mk.injEq]
  exact ⟨high, low⟩

theorem crcOf_ne {bytes other : List UInt8} (length : bytes.length = other.length)
    (short : bytes.length ≤ 2) (differ : bytes ≠ other) (before after : List UInt8) :
    crcOf (before ++ bytes ++ after) ≠ crcOf (before ++ other ++ after) := by
  intro same
  have registers := congrArg CrcBytes.register (toWord_injective same)
  simp only [register_foldl, List.map_append] at registers
  refine ShiftRegister.foldl_feed_ne (by decide) ?_ ?_ ?_ _ _ _ registers
  · rw [List.length_map, List.length_map, length]
  · rw [List.length_map]
    omega
  · intro bits
    exact differ (List.map_injective_iff.mpr (fun _ _ => UInt8.toBitVec_inj.mp) bits)

/-- Sequences that differ, but only in two bytes next to each other, have different CRCs. -/
theorem crc16_detects_burst {a b : List UInt8} {i : ℕ} (length : a.length = b.length)
    (short : a.length ≤ 65535) (differ : a ≠ b) (window : ∀ j, a[j]? ≠ b[j]? → j = i ∨ j = i + 1) :
    crc16 a (UInt16.ofNat a.length) ≠ crc16 b (UInt16.ofNat b.length) := by
  have parts : ∀ bytes : List UInt8, bytes = bytes.take i ++ (bytes.drop i).take 2 ++ bytes.drop (i + 2) := by
    intro bytes
    rw [List.append_assoc, ← List.drop_drop, List.take_append_drop, List.take_append_drop]
  have before : a.take i = b.take i := by
    apply List.ext_getElem?
    intro j
    simp only [List.getElem?_take]
    split
    · by_contra other
      have := window j other
      omega
    · rfl
  have after : a.drop (i + 2) = b.drop (i + 2) := by
    apply List.ext_getElem?
    intro j
    simp only [List.getElem?_drop]
    by_contra other
    have := window (i + 2 + j) other
    omega
  have burst : crcOf a ≠ crcOf b := by
    rw [parts a, parts b, before, after]
    refine crcOf_ne ?_ (List.length_take_le 2 _) ?_ _ _
    · simp only [List.length_take, List.length_drop, length]
    · intro same
      apply differ
      rw [parts a, parts b, before, after, same]
  have first := crc16_append short []
  have second := crc16_append (by omega : b.length ≤ 65535) []
  rw [List.append_nil] at first second
  rw [first, second]
  exact fun same => burst (Except.ok.inj same)

theorem crc16_detects_burst_of_pair :
    crc16 [0x01, 0x03, 0x00, 0x07] 4 ≠ crc16 [0x01, 0x04, 0x80, 0x07] 4 := by
  refine crc16_detects_burst (i := 1) rfl (by decide) (by decide) ?_
  intro j other
  rcases j with _ | _ | _ | _ | j
  · exact absurd rfl other
  · exact .inl rfl
  · exact .inr rfl
  · exact absurd rfl other
  · exact absurd rfl other

end Modbuspp.Rtu
