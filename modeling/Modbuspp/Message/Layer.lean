import Modbuspp.Message.Basic

/-!
# Preparation and verification of frames

`prepareToSend` exists three times: in each of the two layers, which work on absolute indices of
the ADU, and in `Message`, which does the work itself when it was built without a backend. The
preparation completes the header of a TCP frame and appends the CRC of an RTU frame.
-/

namespace Modbuspp

/-- `RtuLayer::prepareToSend`. -/
def Rtu.prepareToSend (msg : Message) : Except Fault (Bool × Message) :=
  if msg.net = .rtu ∧ 1 ≤ msg.size then do
    let aduSize := msg.aduSize
    let crc ← Rtu.crc16 msg.adu (UInt16.ofNat aduSize)
    let adu ← checked (Storage.write msg.adu aduSize (crc >>> 8).toUInt8)
    let adu ← checked (Storage.write adu (aduSize + 1) crc.toUInt8)
    pure (true, { msg with adu }.setAduSize (aduSize + 2))
  else pure (false, msg)

/-- `TcpLayer::prepareToSend`, with the transaction identifier the layer keeps. -/
def Tcp.prepareToSend (transactionId : UInt16) (msg : Message) :
    Except Fault (Bool × Message × UInt16) :=
  if msg.net = .tcp ∧ 1 ≤ msg.size then do
    let s := UInt16.ofNat (msg.size + 1)
    let (adu, next) ←
      if msg.isResponse then pure (msg.adu, transactionId)
      else do
        let adu ← checked (Storage.write msg.adu 0 (transactionId >>> 8).toUInt8)
        let adu ← checked (Storage.write adu 1 transactionId.toUInt8)
        let adu ← checked (Storage.write adu 2 0)
        let adu ← checked (Storage.write adu 3 0)
        pure (adu, transactionId + 1)
    let adu ← checked (Storage.write adu 4 (s >>> 8).toUInt8)
    let adu ← checked (Storage.write adu 5 s.toUInt8)
    pure (true, { msg with adu }, next)
  else pure (false, msg, transactionId)

/-- The virtual `NetLayer::prepareToSend`. -/
def NetLayer.prepareToSend (layer : NetLayer) (msg : Message) :
    Except Fault (Bool × Message × NetLayer) :=
  match layer with
  | .rtu => do
      let (done, msg) ← Rtu.prepareToSend msg
      pure (done, msg, .rtu)
  | .tcp transactionId => do
      let (done, msg, next) ← Tcp.prepareToSend transactionId msg
      pure (done, msg, .tcp next)

namespace Message

/-- The header of a TCP frame, written by a message without a backend. -/
def setTcpHeader (msg : Message) : Except Fault Message := do
  let i := -msg.pduBegin
  let msg ←
    if msg.isResponse then pure msg
    else do
      let tid := msg.transactionId
      let msg ← { msg with transactionId := tid + 1 }.setWord i tid
      msg.setWord (i + 2) 0
  msg.setWord (i + 4) (UInt16.ofNat (msg.size + 1))

/-- `Message::prepareToSend`. The layer is the one the message was built on, if it keeps one. -/
def prepareToSend (msg : Message) (layer : NetLayer) :
    Except Fault (Bool × Message × NetLayer) :=
  if msg.backend then layer.prepareToSend msg
  else if 1 ≤ msg.size then
    match msg.net with
    | .tcp => do
        let msg ← msg.setTcpHeader
        pure (true, msg, layer)
    | .rtu => do
        let crc ← Rtu.crc16 msg.adu (UInt16.ofNat msg.aduSize)
        let msg ← msg.setWord msg.size crc
        pure (true, msg, layer)
    | .noNet => .error (.invalidArgument "Unable to set PDU for this net !")
  else pure (false, msg, layer)

end Message

/-- `RtuLayer::checkMessage`. The count `aduSize - 2` is cut to 16 bits. -/
def Rtu.checkMessage (msg : Message) : Except Fault Bool := do
  let computed ← Rtu.crc16 msg.adu (UInt16.ofNat msg.aduSize - 2)
  let received ← msg.crc
  pure (computed == received)

/-- `TcpLayer::checkMessage`. -/
def Tcp.checkMessage (msg : Message) : Bool :=
  msg.net == .tcp && 1 ≤ msg.size

namespace Message

/-- The message after its CRC has been appended. The CRC counts bytes in 16 bits. -/
def withCrc (msg : Message) : Message :=
  let crc := Rtu.crcOf (msg.adu.take (UInt16.ofNat msg.aduSize).toNat)
  { msg with
    adu := (msg.adu.set msg.aduSize (crc >>> 8).toUInt8).set (msg.aduSize + 1) crc.toUInt8
    aduSize := msg.aduSize + 2 }

theorem counted_le {size bound : ℕ} (le : size ≤ bound) : (UInt16.ofNat size).toNat ≤ bound := by
  simp only [UInt16.toNat_ofNat']
  omega

theorem rtu_prepareToSend_ok {msg : Message} (rtu : msg.net = .rtu) (nonempty : 1 ≤ msg.size)
    (room : msg.aduSize + 2 ≤ msg.adu.length) :
    Rtu.prepareToSend msg = .ok (true, msg.withCrc) := by
  have computed := Rtu.crc16_of_le (counted_le (by omega : msg.aduSize ≤ msg.adu.length))
  generalize crc_eq : Rtu.crcOf (msg.adu.take (UInt16.ofNat msg.aduSize).toNat) = crc at computed
  have first := Storage.write_of_lt msg.adu msg.aduSize (crc >>> 8).toUInt8 (by omega)
    (by omega)
  have second := Storage.write_of_lt (msg.adu.set msg.aduSize (crc >>> 8).toUInt8)
    ((msg.aduSize : ℤ) + 1) crc.toUInt8 (by omega) (by rw [List.length_set]; omega)
  have next : ((msg.aduSize : ℤ) + 1).toNat = msg.aduSize + 1 := by omega
  rw [next] at second
  simp only [Rtu.prepareToSend, if_pos (And.intro rtu nonempty), computed, ok_bind, first,
    checked_some, Int.toNat_natCast, second, pure_eq_ok, withCrc, crc_eq]
  rfl

theorem appendCrc_noRoom {β : Type} {adu : List UInt8} {place : ℕ} (noRoom : adu.length < place + 2)
    (high low : UInt8) (next : List UInt8 → Except Fault β) :
    (checked (Storage.write adu place high) >>= fun adu =>
      checked (Storage.write adu (place + 1) low) >>= next) = .error .outOfBounds := by
  cases stored : Storage.write adu place high with
  | none => rfl
  | some longer =>
      have length := Storage.length_of_write stored
      have outside : Storage.write longer (place + 1) low = none := by
        rw [Storage.write_eq_none_iff]
        omega
      simp only [checked_some, ok_bind, outside, checked_none, error_bind]

theorem rtu_prepareToSend_noRoom {msg : Message} (rtu : msg.net = .rtu) (nonempty : 1 ≤ msg.size)
    (noRoom : msg.adu.length < msg.aduSize + 2) :
    Rtu.prepareToSend msg = .error .outOfBounds := by
  simp only [Rtu.prepareToSend, if_pos (And.intro rtu nonempty)]
  rcases Rtu.crc16_cases msg.adu (UInt16.ofNat msg.aduSize) with outside | ⟨crc, found⟩
  · simp only [outside, error_bind]
  · simp only [found, ok_bind, appendCrc_noRoom noRoom]

/-- The message after its TCP header has been completed for a transaction. -/
def withTcpHeader (msg : Message) (tid : UInt16) : Message :=
  let s := UInt16.ofNat (msg.size + 1)
  let adu :=
    if msg.isResponse then msg.adu
    else (((msg.adu.set 0 (tid >>> 8).toUInt8).set 1 tid.toUInt8).set 2 0).set 3 0
  { msg with adu := (adu.set 4 (s >>> 8).toUInt8).set 5 s.toUInt8 }

theorem tcp_prepareToSend_ok {msg : Message} (tid : UInt16) (tcp : msg.net = .tcp)
    (nonempty : 1 ≤ msg.size) (header : 6 ≤ msg.adu.length) :
    Tcp.prepareToSend tid msg =
      .ok (true, msg.withTcpHeader tid, if msg.isResponse then tid else tid + 1) := by
  have zero : (0 : ℤ) < msg.adu.length := by omega
  have one : (1 : ℤ) < msg.adu.length := by omega
  have two : (2 : ℤ) < msg.adu.length := by omega
  have three : (3 : ℤ) < msg.adu.length := by omega
  have four : (4 : ℤ) < msg.adu.length := by omega
  have five : (5 : ℤ) < msg.adu.length := by omega
  cases response : msg.isResponse with
  | true =>
      simp only [Tcp.prepareToSend, if_pos (And.intro tcp nonempty), response, if_true, pure_eq_ok,
        ok_bind, Storage.write, four, five, List.length_set, checked_some, withTcpHeader,
        Int.reduceLE, and_self]
      rfl
  | false =>
      simp only [Tcp.prepareToSend, if_pos (And.intro tcp nonempty), response, Bool.false_eq_true,
        if_false, pure_eq_ok, ok_bind, Storage.write, zero, one, two, three, four, five,
        List.length_set, checked_some, withTcpHeader, Int.reduceLE, and_self, if_true]
      rfl

theorem setWord_header (msg : Message) (pduOffset : ℤ) (index : ℕ) (value : UInt16)
    (place : msg.pduBegin + pduOffset = index) (inHeader : pduOffset + 2 ≤ 0)
    (nonempty : 1 ≤ msg.size) (room : index + 1 < msg.adu.length) :
    msg.setWord pduOffset value = .ok { msg with
      adu := (msg.adu.set index (value >>> 8).toUInt8).set (index + 1) value.toUInt8 } := by
  have header := size_pos_iff.mp nonempty
  have unchanged : max msg.aduSize (index + 2) = msg.aduSize := by omega
  rw [setWord_ok pduOffset index value place room, unchanged]

theorem setTcpHeader_ok {msg : Message} (tcp : msg.net = .tcp) (nonempty : 1 ≤ msg.size)
    (header : 6 ≤ msg.adu.length) :
    msg.setTcpHeader = .ok ({ msg with
      transactionId := if msg.isResponse then msg.transactionId else msg.transactionId + 1
      }.withTcpHeader msg.transactionId) := by
  have begin_eq : msg.pduBegin = 7 := by simp [pduBegin, tcp, Net.headerLength]
  by_cases response : msg.isResponse = true
  · have length := setWord_header msg (-msg.pduBegin + 4) 4
      (UInt16.ofNat (msg.size + 1)) (by omega) (by omega) nonempty (by omega)
    simp only [setTcpHeader, if_pos response, pure_eq_ok, ok_bind, length, withTcpHeader]
  · let counted := { msg with transactionId := msg.transactionId + 1 }
    let numbered := { counted with
      adu := (msg.adu.set 0 (msg.transactionId >>> 8).toUInt8).set 1 msg.transactionId.toUInt8 }
    let complete := { numbered with adu := (numbered.adu.set 2 0).set 3 0 }
    have first : counted.setWord (-msg.pduBegin) msg.transactionId = .ok numbered :=
      setWord_header _ _ 0 msg.transactionId (by change msg.pduBegin + _ = _; omega)
        (by omega) nonempty (by change 1 < msg.adu.length; omega)
    have second : numbered.setWord (-msg.pduBegin + 2) 0 = .ok complete :=
      setWord_header _ _ 2 0 (by change msg.pduBegin + _ = _; omega) (by omega) nonempty
        (by simp only [numbered, List.length_set]; omega)
    have third := setWord_header complete (-msg.pduBegin + 4) 4
      (UInt16.ofNat (msg.size + 1)) (by change msg.pduBegin + _ = _; omega) (by omega) nonempty
      (by simp only [complete, numbered, List.length_set]; omega)
    have begun : msg.setTcpHeader = counted.setWord (-msg.pduBegin) msg.transactionId >>=
        fun m => m.setWord (-msg.pduBegin + 2) 0 >>=
        fun m => m.setWord (-msg.pduBegin + 4) (UInt16.ofNat (m.size + 1)) := by
      simp only [setTcpHeader, if_neg response]
      rfl
    rw [begun, first, ok_bind, second, ok_bind]
    refine third.trans ?_
    simp only [withTcpHeader, if_neg response]
    rfl

/-- What a preparation keeps: everything from the byte before the PDU to the end of the ADU. -/
structure PreparedFrom (msg prepared : Message) : Prop where
  net_eq : prepared.net = msg.net
  isResponse_eq : prepared.isResponse = msg.isResponse
  length_eq : prepared.adu.length = msg.adu.length
  aduSize_eq : prepared.aduSize = msg.aduSize + msg.net.trailerLength
  kept : ∀ index : ℕ, msg.pduBegin - 1 ≤ index → index < msg.aduSize →
    prepared.adu[index]? = msg.adu[index]?

theorem withCrc_preparedFrom {msg : Message} (rtu : msg.net = .rtu) :
    PreparedFrom msg msg.withCrc where
  net_eq := rfl
  isResponse_eq := rfl
  length_eq := by simp only [withCrc, List.length_set]
  aduSize_eq := by simp only [withCrc, rtu, Net.trailerLength]
  kept := by
    intro index _ inside
    simp only [withCrc]
    rw [List.getElem?_set_ne (by omega), List.getElem?_set_ne (by omega)]

theorem withTcpHeader_preparedFrom (msg : Message) (tid : UInt16) (tcp : msg.net = .tcp) :
    PreparedFrom msg (msg.withTcpHeader tid) where
  net_eq := rfl
  isResponse_eq := rfl
  length_eq := by
    simp only [withTcpHeader, List.length_set]
    split <;> simp only [List.length_set]
  aduSize_eq := by simp only [withTcpHeader, tcp, Net.trailerLength, Nat.add_zero]
  kept := by
    intro index header _
    have begin_eq : msg.pduBegin = 7 := by simp [pduBegin, tcp, Net.headerLength]
    simp only [withTcpHeader]
    rw [List.getElem?_set_ne (by omega), List.getElem?_set_ne (by omega)]
    split
    · rfl
    · rw [List.getElem?_set_ne (by omega), List.getElem?_set_ne (by omega),
        List.getElem?_set_ne (by omega), List.getElem?_set_ne (by omega)]

theorem layer_prepareToSend_ok {msg : Message} {layer : NetLayer} (same : layer.net = msg.net)
    (nonempty : 1 ≤ msg.size) (room : msg.aduSize + msg.net.trailerLength ≤ msg.adu.length) :
    ∃ prepared next, layer.prepareToSend msg = .ok (true, prepared, next) ∧
      next.net = layer.net ∧ PreparedFrom msg prepared := by
  cases layer with
  | rtu =>
      have rtu : msg.net = .rtu := same.symm
      simp only [rtu, Net.trailerLength] at room
      refine ⟨msg.withCrc, .rtu, ?_, rfl, withCrc_preparedFrom rtu⟩
      simp only [NetLayer.prepareToSend, rtu_prepareToSend_ok rtu nonempty room, ok_bind,
        pure_eq_ok]
  | tcp tid =>
      have tcp : msg.net = .tcp := same.symm
      simp only [tcp, Net.trailerLength, Nat.add_zero] at room
      have begin_eq : msg.pduBegin = 7 := by simp [pduBegin, tcp, Net.headerLength]
      have extent := size_pos_iff.mp nonempty
      refine ⟨msg.withTcpHeader tid, .tcp (if msg.isResponse then tid else tid + 1), ?_, rfl,
        withTcpHeader_preparedFrom msg tid tcp⟩
      simp only [NetLayer.prepareToSend, tcp_prepareToSend_ok tid tcp nonempty (by omega), ok_bind,
        pure_eq_ok]

theorem own_rtu_prepareToSend_ok {msg : Message} {layer : NetLayer} (own : msg.backend = false)
    (rtu : msg.net = .rtu) (nonempty : 1 ≤ msg.size) (room : msg.aduSize + 2 ≤ msg.adu.length) :
    msg.prepareToSend layer = .ok (true, msg.withCrc, layer) := by
  have crc := Rtu.crc16_of_le (counted_le (by omega : msg.aduSize ≤ msg.adu.length))
  have place := aduSize_eq_of_size_pos nonempty
  have appended := setWord_ok msg.size msg.aduSize
    (Rtu.crcOf (msg.adu.take (UInt16.ofNat msg.aduSize).toNat)) place.symm (by omega)
  have unkept : ¬msg.backend = true := by simp only [own, Bool.false_eq_true, not_false_iff]
  simp only [prepareToSend, if_neg unkept, if_pos nonempty]
  split
  · next other => exact absurd (rtu.symm.trans other) (by decide)
  · simp only [crc, ok_bind, appended, pure_eq_ok]
    simp [withCrc]
  · next other => exact absurd (rtu.symm.trans other) (by decide)

theorem own_tcp_prepareToSend_ok {msg : Message} {layer : NetLayer} (own : msg.backend = false)
    (tcp : msg.net = .tcp) (nonempty : 1 ≤ msg.size) (header : 6 ≤ msg.adu.length) :
    msg.prepareToSend layer = .ok (true, { msg with
      transactionId := if msg.isResponse then msg.transactionId else msg.transactionId + 1
      }.withTcpHeader msg.transactionId, layer) := by
  have unkept : ¬msg.backend = true := by simp only [own, Bool.false_eq_true, not_false_iff]
  simp only [prepareToSend, if_neg unkept, if_pos nonempty]
  split
  · simp only [setTcpHeader_ok tcp nonempty header, ok_bind, pure_eq_ok]
  · next other => exact absurd (tcp.symm.trans other) (by decide)
  · next other => exact absurd (tcp.symm.trans other) (by decide)

theorem prepareToSend_ok {msg : Message} {layer : NetLayer} (same : layer.net = msg.net)
    (nonempty : 1 ≤ msg.size) (room : msg.aduSize + msg.net.trailerLength ≤ msg.adu.length) :
    ∃ prepared next, msg.prepareToSend layer = .ok (true, prepared, next) ∧
      next.net = layer.net ∧ PreparedFrom msg prepared := by
  cases kept : msg.backend with
  | true =>
      rcases layer_prepareToSend_ok same nonempty room with ⟨prepared, next, done, framed⟩
      refine ⟨prepared, next, ?_, framed⟩
      simpa only [prepareToSend, if_pos kept] using done
  | false =>
      rcases msg.pduBegin_cases with ⟨rtu, begin_eq, _⟩ | ⟨tcp, begin_eq, _⟩
      · simp only [rtu, Net.trailerLength] at room
        exact ⟨_, layer, own_rtu_prepareToSend_ok kept rtu nonempty room, rfl,
          withCrc_preparedFrom rtu⟩
      · simp only [tcp, Net.trailerLength, Nat.add_zero] at room
        have extent := size_pos_iff.mp nonempty
        have framed := withTcpHeader_preparedFrom { msg with
          transactionId := if msg.isResponse then msg.transactionId else msg.transactionId + 1 }
          msg.transactionId tcp
        exact ⟨_, layer, own_tcp_prepareToSend_ok kept tcp nonempty (by omega), rfl, framed.net_eq,
          framed.isResponse_eq, framed.length_eq, framed.aduSize_eq, framed.kept⟩

theorem PreparedFrom.size_eq {msg prepared : Message} (framed : PreparedFrom msg prepared)
    (nonempty : 1 ≤ msg.size) : prepared.size = msg.size + msg.net.trailerLength := by
  have extent := aduSize_eq_of_size_pos nonempty
  have begin_eq : prepared.pduBegin = msg.pduBegin := by simp only [pduBegin, framed.net_eq]
  have longer : prepared.pduBegin < prepared.aduSize := by
    rw [begin_eq, framed.aduSize_eq]
    omega
  have preparedExtent := aduSize_eq_of_size_pos (size_pos_iff.mpr longer)
  rw [begin_eq, framed.aduSize_eq] at preparedExtent
  omega

/-- A message without room for the trailer is an RTU message, if it carries its ADU at all. -/
theorem rtu_of_noRoom {msg : Message} (carried : msg.aduSize ≤ msg.adu.length)
    (noRoom : msg.adu.length < msg.aduSize + msg.net.trailerLength) :
    msg.net = .rtu ∧ msg.adu.length < msg.aduSize + 2 := by
  rcases msg.pduBegin_cases with ⟨rtu, _, _⟩ | ⟨tcp, _, _⟩
  · rw [rtu] at noRoom
    exact ⟨rtu, noRoom⟩
  · rw [tcp] at noRoom
    simp only [Net.trailerLength] at noRoom
    omega

theorem layer_prepareToSend_noRoom {msg : Message} {layer : NetLayer} (same : layer.net = msg.net)
    (rtu : msg.net = .rtu) (nonempty : 1 ≤ msg.size) (noRoom : msg.adu.length < msg.aduSize + 2) :
    layer.prepareToSend msg = .error .outOfBounds := by
  cases layer with
  | rtu => simp only [NetLayer.prepareToSend, rtu_prepareToSend_noRoom rtu nonempty noRoom, error_bind]
  | tcp tid => simp [NetLayer.net, rtu] at same

theorem prepareToSend_noRoom {msg : Message} {layer : NetLayer} (same : layer.net = msg.net)
    (rtu : msg.net = .rtu) (nonempty : 1 ≤ msg.size)
    (noRoom : msg.adu.length < msg.aduSize + 2) :
    msg.prepareToSend layer = .error .outOfBounds := by
  have place := aduSize_eq_of_size_pos nonempty
  by_cases kept : msg.backend
  · simp only [prepareToSend, if_pos kept, layer_prepareToSend_noRoom same rtu nonempty noRoom]
  · simp only [prepareToSend, if_neg kept, if_pos nonempty]
    split
    · next other => exact absurd (rtu.symm.trans other) (by decide)
    · rcases Rtu.crc16_cases msg.adu (UInt16.ofNat msg.aduSize) with outside | ⟨crc, found⟩
      · simp only [outside, error_bind]
      · simp only [found, ok_bind, setWord, ← place, appendCrc_noRoom noRoom, error_bind]
    · next other => exact absurd (rtu.symm.trans other) (by decide)

theorem prepareToSend_empty {msg : Message} {layer : NetLayer} (empty : msg.size = 0) :
    msg.prepareToSend layer = .ok (false, msg, layer) := by
  by_cases kept : msg.backend
  · cases layer with
    | rtu => simp [prepareToSend, kept, NetLayer.prepareToSend, Rtu.prepareToSend, empty]
    | tcp tid => simp [prepareToSend, kept, NetLayer.prepareToSend, Tcp.prepareToSend, empty]
  · simp [prepareToSend, kept, empty]

/-- Messages with the same frame: they differ at most in the backend and in the counter they would
number a request with. -/
structure SameFrame (left right : Message) : Prop where
  net_eq : left.net = right.net
  aduSize_eq : left.aduSize = right.aduSize
  isResponse_eq : left.isResponse = right.isResponse
  adu_eq : left.adu = right.adu

theorem SameFrame.refl (msg : Message) : SameFrame msg msg :=
  ⟨rfl, rfl, rfl, rfl⟩

theorem SameFrame.size_eq {left right : Message} (same : SameFrame left right) :
    left.size = right.size := by
  have begin_eq : left.pduBegin = right.pduBegin := by simp only [pduBegin, same.net_eq]
  simp only [size, begin_eq, same.aduSize_eq]

theorem SameFrame.withCrc {left right : Message} (same : SameFrame left right) :
    SameFrame left.withCrc right.withCrc := by
  refine ⟨same.net_eq, ?_, same.isResponse_eq, ?_⟩
  · simp only [Message.withCrc, same.aduSize_eq]
  · simp only [Message.withCrc, same.aduSize_eq, same.adu_eq]

theorem SameFrame.withTcpHeader {left right : Message} (same : SameFrame left right)
    (tid : UInt16) : SameFrame (left.withTcpHeader tid) (right.withTcpHeader tid) := by
  refine ⟨same.net_eq, same.aduSize_eq, same.isResponse_eq, ?_⟩
  simp only [Message.withTcpHeader, same.size_eq, same.isResponse_eq, same.adu_eq]

/-- The layer numbers its next request like the message does. Only TCP counts requests. -/
def CountsLike (msg : Message) : NetLayer → Prop
  | .rtu => True
  | .tcp transactionId => transactionId = msg.transactionId

/-- A layer frames a message exactly as a message with the same frame and no backend frames itself,
and both leave an empty message alone. -/
theorem prepareToSend_agrees {msg framed : Message} {layer : NetLayer}
    (own : msg.backend = false) (corresponds : layer.net = msg.net) (same : SameFrame msg framed)
    (counts : msg.CountsLike layer) :
    (1 ≤ msg.size → msg.size ≤ maxPduLength → msg.adu.length = msg.maxAduLength →
      ∃ prepared sent next, msg.prepareToSend layer = .ok (true, prepared, layer) ∧
        layer.prepareToSend framed = .ok (true, sent, next) ∧
        SameFrame prepared sent ∧ prepared.CountsLike next) ∧
      (msg.size = 0 → msg.prepareToSend layer = .ok (false, msg, layer) ∧
        layer.prepareToSend framed = .ok (false, framed, layer)) := by
  constructor
  · intro nonempty short full
    have extent := aduSize_eq_of_size_pos nonempty
    have framedNonempty : 1 ≤ framed.size := same.size_eq ▸ nonempty
    have length := congrArg List.length same.adu_eq
    have sameSize := same.aduSize_eq
    simp only [maxPduLength] at short
    cases layer with
    | rtu =>
        have rtu : msg.net = .rtu := corresponds.symm
        have framedRtu : framed.net = .rtu := same.net_eq.symm.trans rtu
        have limits : msg.pduBegin = 1 ∧ msg.maxAduLength = 256 := by
          simp [pduBegin, maxAduLength, rtu, Net.headerLength, Net.maxAduLength]
        refine ⟨msg.withCrc, framed.withCrc, .rtu, ?_, ?_, same.withCrc, trivial⟩
        · exact own_rtu_prepareToSend_ok own rtu nonempty (by omega)
        · simp only [NetLayer.prepareToSend,
            rtu_prepareToSend_ok framedRtu framedNonempty (by omega), ok_bind, pure_eq_ok]
    | tcp tid =>
        have tcp : msg.net = .tcp := corresponds.symm
        have framedTcp : framed.net = .tcp := same.net_eq.symm.trans tcp
        have limits : msg.pduBegin = 7 ∧ msg.maxAduLength = 260 := by
          simp [pduBegin, maxAduLength, tcp, Net.headerLength, Net.maxAduLength]
        have numbered : tid = msg.transactionId := counts
        let counted := { msg with
          transactionId := if msg.isResponse then msg.transactionId else msg.transactionId + 1 }
        have sameCounted : SameFrame counted framed :=
          ⟨same.net_eq, same.aduSize_eq, same.isResponse_eq, same.adu_eq⟩
        refine ⟨counted.withTcpHeader msg.transactionId, framed.withTcpHeader tid,
          .tcp (if framed.isResponse then tid else tid + 1), ?_, ?_, ?_, ?_⟩
        · exact own_tcp_prepareToSend_ok own tcp nonempty (by omega)
        · simp only [NetLayer.prepareToSend,
            tcp_prepareToSend_ok tid framedTcp framedNonempty (by omega), ok_bind, pure_eq_ok]
        · rw [numbered]
          exact sameCounted.withTcpHeader msg.transactionId
        · change (if framed.isResponse then tid else tid + 1) =
            if msg.isResponse then msg.transactionId else msg.transactionId + 1
          rw [numbered, same.isResponse_eq]
  · intro empty
    have framedEmpty : framed.size = 0 := same.size_eq ▸ empty
    refine ⟨prepareToSend_empty empty, ?_⟩
    cases layer with
    | rtu => simp [NetLayer.prepareToSend, Rtu.prepareToSend, framedEmpty]
    | tcp tid => simp [NetLayer.prepareToSend, Tcp.prepareToSend, framedEmpty]

/-- A read request on TCP with the last transaction identifier before the counter wraps. -/
theorem prepareToSend_agrees_of_request :
    let msg : Message :=
      { net := .tcp, onWire := NetLayer.net_ne_noNet (.tcp 0), aduSize := 12, isResponse := false
        backend := false, transactionId := 65535
        adu := [0, 0, 0, 0, 0, 0, 255, 3, 0, 0, 0, 1] ++ List.replicate 248 0 }
    ∃ prepared sent next, msg.prepareToSend (.tcp 65535) = .ok (true, prepared, .tcp 65535) ∧
      NetLayer.prepareToSend (.tcp 65535) msg = .ok (true, sent, next) ∧
      SameFrame prepared sent ∧ prepared.CountsLike next := by
  intro msg
  have counts : msg.CountsLike (.tcp 65535) := rfl
  have full : msg.adu.length = msg.maxAduLength := by
    change (_ ++ List.replicate 248 0).length = 260
    rw [List.length_append, List.length_replicate]
    rfl
  exact (prepareToSend_agrees rfl rfl (SameFrame.refl msg) counts).1 (by decide) (by decide) full

end Message

end Modbuspp
