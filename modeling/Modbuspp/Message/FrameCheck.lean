import Modbuspp.Message.Buffer

/-!
# Verification of RTU frames

`RtuLayer::checkMessage` compares the CRC of a frame with the one `Message::crc` reads behind it. The
guard of `Message::crc` is the opposite of what its documentation says: it throws for every ADU of at
least four bytes, which are the only ones that can carry a PDU and a CRC, and lets the shorter ones
pass. No frame is ever verified.
-/

namespace Modbuspp.Message

/-- The last two bytes of the ADU, most significant first. -/
def trailer (msg : Message) : Option UInt16 := do
  let high ← msg.adu[msg.aduSize - 2]?
  let low ← msg.adu[msg.aduSize - 1]?
  some ((high.toUInt16 <<< 8) + low.toUInt16)

/-- The frame made of the message by `prepareToSend` is accepted. -/
def AcceptedOncePrepared (msg : Message) (layer : NetLayer) : Prop :=
  ∃ prepared next, msg.prepareToSend layer = .ok (true, prepared, next) ∧
    Rtu.checkMessage prepared = .ok true

/-- `crc` returns the last two bytes of the ADU. -/
def ReadsTrailer (msg : Message) : Prop :=
  ∃ received, msg.trailer = some received ∧ msg.crc = .ok received

/-- `checkMessage` says whether the last two bytes are the CRC of the others. -/
def VerifiesTrailer (msg : Message) : Prop :=
  ∃ received, msg.trailer = some received ∧
    Rtu.checkMessage msg =
      .ok (decide (Rtu.crcOf (msg.adu.take (msg.aduSize - 2)) = received))

/-- `crc` throws the exception announced for short ADUs. -/
def RefusesShort (msg : Message) : Prop :=
  ∃ what, msg.crc = .error (.invalidArgument what)

theorem crc_of_long {msg : Message} (rtu : msg.net = .rtu) (long : 4 ≤ msg.aduSize) :
    msg.crc = .error (.invalidArgument "Unable to return CRC if ADU size less than 4 !") := by
  simp [crc, rtu, long]

theorem crc_of_short {msg : Message} (rtu : msg.net = .rtu) (short : msg.aduSize < 4) :
    msg.crc = msg.word (msg.size - 2) := by
  simp [crc, rtu, Nat.not_le.mpr short]

theorem word_ne_invalidArgument (msg : Message) (i : ℤ) (what : String) :
    msg.word i ≠ .error (.invalidArgument what) := by
  intro refused
  simp only [word] at refused
  cases high : Storage.read msg.adu (msg.pduBegin + i) with
  | none => simp [high] at refused
  | some hi =>
      cases low : Storage.read msg.adu (msg.pduBegin + i + 1) with
      | none => simp [high, low] at refused
      | some lo => simp [high, low] at refused

theorem checkMessage_of_long {msg : Message} (rtu : msg.net = .rtu) (long : 4 ≤ msg.aduSize)
    (verdict : Bool) : Rtu.checkMessage msg ≠ .ok verdict := by
  intro returned
  simp only [Rtu.checkMessage, bind_eq_ok_iff] at returned
  rcases returned with ⟨_, _, received, readBack, _⟩
  rw [crc_of_long rtu long] at readBack
  cases readBack

/-- The verification of frames fails on every RTU message: a prepared frame is not accepted, the CRC
of a complete frame is neither read nor compared, and a short ADU is not refused. -/
theorem frameCheck_never {msg : Message} {layer : NetLayer} (rtu : msg.net = .rtu)
    (same : layer.net = msg.net) :
    (1 ≤ msg.size → msg.size ≤ maxPduLength → ¬msg.AcceptedOncePrepared layer) ∧
      (4 ≤ msg.aduSize → ¬msg.ReadsTrailer ∧ ¬msg.VerifiesTrailer) ∧
        (msg.aduSize < 4 → ¬msg.RefusesShort) := by
  refine ⟨?_, ?_, ?_⟩
  · rintro nonempty legal ⟨prepared, next, done, accepted⟩
    have begin_eq : msg.pduBegin = 1 := by simp [pduBegin, rtu, Net.headerLength]
    have extent := aduSize_eq_of_size_pos nonempty
    simp only [maxPduLength] at legal
    have framed : prepared.net = .rtu ∧ prepared.aduSize = msg.aduSize + 2 := by
      by_cases room : msg.aduSize + 2 ≤ msg.adu.length
      · rcases prepareToSend_ok same nonempty (by simpa only [rtu, Net.trailerLength] using room)
          with ⟨frame, _, sent, _, framed⟩
        rw [sent] at done
        cases done
        exact ⟨framed.net_eq.trans rtu, by simpa only [rtu, Net.trailerLength] using
          framed.aduSize_eq⟩
      · rw [prepareToSend_noRoom same rtu nonempty (by omega)] at done
        cases done
    exact checkMessage_of_long framed.1 (by omega) true accepted
  · intro long
    refine ⟨?_, ?_⟩
    · rintro ⟨received, _, readBack⟩
      rw [crc_of_long rtu long] at readBack
      cases readBack
    · rintro ⟨received, _, returned⟩
      exact checkMessage_of_long rtu long _ returned
  · rintro short ⟨what, refused⟩
    rw [crc_of_short rtu short] at refused
    exact word_ne_invalidArgument msg _ what refused

theorem frameCheck_never_of_frame :
    ∃ msg, create (.net .rtu) (.adu [0x21, 7, 0x58, 0x22]) = .ok msg ∧ NetLayer.rtu.net = msg.net ∧
      ((1 ≤ msg.size → msg.size ≤ maxPduLength → ¬msg.AcceptedOncePrepared .rtu) ∧
        (4 ≤ msg.aduSize → ¬msg.ReadsTrailer ∧ ¬msg.VerifiesTrailer) ∧
          (msg.aduSize < 4 → ¬msg.RefusesShort)) :=
  ⟨_, rfl, rfl, frameCheck_never rfl rfl⟩

/-- An intact frame whose CRC is not read and which is not accepted. -/
theorem intact_frame_not_verified :
    ∃ msg, create (.net .rtu) (.adu [0x21, 7, 0x58, 0x22]) = .ok msg ∧
      msg.trailer = some (Rtu.crcOf [0x21, 7]) ∧ ¬msg.ReadsTrailer ∧ ¬msg.VerifiesTrailer := by
  refine ⟨_, rfl, by decide, ?_, ?_⟩
  · rintro ⟨received, _, readBack⟩
    cases readBack
  · rintro ⟨received, _, returned⟩
    cases returned

end Modbuspp.Message
