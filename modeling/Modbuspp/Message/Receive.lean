import Mathlib.Algebra.Group.Int.Defs
import Mathlib.Algebra.Group.Nat.Defs
import Modbuspp.Device.Basic
import Modbuspp.Message.Buffer

/-!
# Reception of frames

A frame reaches a message on two paths: `Master::receiveResponse` for a response and
`Server::Private::receive` for a request. libmodbus stores the frame at the start of the buffer and
returns its total length, which contains the CRC on RTU. Only the master takes the CRC off.
-/

namespace Modbuspp

/-- What the network brings while a message is awaited. -/
structure Arrival where
  /-- A client is connected, as far as TCP is concerned. -/
  connected : Bool
  /-- `modbus_tcp_pi_accept` succeeds if it is called. -/
  accepted : Bool
  /-- The frame received, `none` for an error. -/
  frame : Option (List UInt8)

/-- `modbus_receive` and `modbus_receive_confirmation` on the buffer `adu`. -/
def receiveFrame (frame : Option (List UInt8)) (adu : List UInt8) :
    Except Fault (ℤ × List UInt8) :=
  match frame with
  | none => .ok (-1, adu)
  | some bytes => do
      let adu ← checked (Storage.blit adu 0 bytes)
      pure (bytes.length, adu)

/-- The conversion of an `int` to `size_t`. -/
def toSize (n : ℤ) : ℕ := (n % 2 ^ 64).toNat

/-- `Master::receiveResponse`. -/
def Master.receiveResponse (dev : Device) (arrival : Arrival) (resp : Message) :
    Except Fault (ℤ × Message) :=
  if dev.isValid then do
    let (rc, adu) ← receiveFrame arrival.frame resp.adu
    let resp := { resp with adu }
    if rc > 0 then
      pure (rc, resp.setAduSize (toSize (if dev.net = .tcp then rc else rc - 2)))
    else pure (rc, resp)
  else .error (.runtimeError "Backend not set !")

/-- `Server::Private::receive`. -/
def Server.receive (dev : Device) (arrival : Arrival) (req : Message) :
    Except Fault (ℤ × Message) :=
  if dev.net = .tcp ∧ arrival.connected = false ∧ arrival.accepted = false then .ok (-1, req)
  else do
    let req ← req.clear
    let (rc, adu) ← receiveFrame arrival.frame req.adu
    let req := { req with adu }
    if rc > 0 then pure (rc, req.setAduSize (toSize rc)) else pure (rc, req)

/-- The end of a link that receives: a master waits for a response, a server for a request. -/
inductive Peer where
  | master
  | server
deriving DecidableEq

/-- The message that a peer makes of what has arrived. -/
def Peer.receive (peer : Peer) (dev : Device) (arrival : Arrival) (buffer : Message) :
    Except Fault (ℤ × Message) :=
  match peer with
  | .master => Master.receiveResponse dev arrival buffer
  | .server => Server.receive dev arrival buffer

namespace Message

/-- The bytes of the PDU. -/
def pduBytes (msg : Message) : List UInt8 :=
  (msg.adu.drop msg.pduBegin.toNat).take msg.size

/-- A message that carries the same slave number and the same PDU as another. -/
structure SameContent (received msg : Message) : Prop where
  slave_eq : received.slave = msg.slave
  size_eq : received.size = msg.size
  pdu_eq : received.pduBytes = msg.pduBytes

/-- The message prepared for sending reaches the peer with the same content. -/
def RoundTrips (msg : Message) (layer : NetLayer) (peer : Peer) (dev : Device)
    (arrival : Arrival) (buffer : Message) : Prop :=
  ∃ prepared next, msg.prepareToSend layer = .ok (true, prepared, next) ∧
    ∃ rc received,
      peer.receive dev { arrival with frame := some (prepared.adu.take prepared.aduSize) } buffer =
        .ok (rc, received) ∧ SameContent received msg

theorem size_eq_of_net_eq {left right : Message} (net_eq : left.net = right.net)
    (aduSize_eq : left.aduSize = right.aduSize) : left.size = right.size := by
  have begin_eq : left.pduBegin = right.pduBegin := by simp only [pduBegin, net_eq]
  simp only [size, begin_eq, aduSize_eq]

theorem receiveFrame_ok {bytes adu : List UInt8} (room : bytes.length ≤ adu.length) :
    receiveFrame (some bytes) adu = .ok (bytes.length, Storage.overwrite adu 0 bytes) := by
  have stored := Storage.blit_eq_some adu 0 bytes (by omega) (by omega)
  simp only [receiveFrame, stored, checked_some, ok_bind, pure_eq_ok, Int.toNat_zero]

theorem toSize_of_nonneg {n : ℤ} {size : ℕ} (same : n = size) (small : size < 2 ^ 64) :
    toSize n = size := by
  simp only [toSize, same]
  omega

/-- The buffer of the receiver agrees with the message sent, from the slave number to the end of
the PDU. -/
theorem received_getElem? {msg prepared : Message} {cells : List UInt8}
    (framed : PreparedFrom msg prepared) (inside : prepared.aduSize ≤ prepared.adu.length)
    (room : prepared.aduSize ≤ cells.length) (index : ℕ) (lower : msg.pduBegin - 1 ≤ index)
    (upper : index < msg.aduSize) :
    (Storage.overwrite cells 0 (prepared.adu.take prepared.aduSize))[index]? =
      msg.adu[index]? := by
  have extent := framed.aduSize_eq
  have length : (prepared.adu.take prepared.aduSize).length = prepared.aduSize := by
    rw [List.length_take]
    omega
  rw [Storage.getElem?_overwrite (by omega), if_pos (by omega), Nat.sub_zero,
    List.getElem?_take_of_lt (by omega)]
  exact framed.kept index lower upper

/-- A frame laid over a buffer, with its recorded size set to the length of the ADU without
trailer, has the content of the message it was prepared from. -/
theorem sameContent_of_frame {msg prepared buffer : Message} (framed : PreparedFrom msg prepared)
    (nonempty : 1 ≤ msg.size) (inside : prepared.aduSize ≤ prepared.adu.length)
    (sameNet : buffer.net = msg.net) (room : prepared.aduSize ≤ buffer.adu.length) :
    SameContent { buffer with
      adu := Storage.overwrite buffer.adu 0 (prepared.adu.take prepared.aduSize)
      aduSize := msg.aduSize } msg := by
  have extent := aduSize_eq_of_size_pos nonempty
  have begins := msg.pduBegin_pos
  have agrees := received_getElem? framed inside room
  let received := { buffer with
    adu := Storage.overwrite buffer.adu 0 (prepared.adu.take prepared.aduSize)
    aduSize := msg.aduSize }
  have sameBegin : received.pduBegin = msg.pduBegin := by
    simp only [pduBegin, received, sameNet]
  have sameSize : received.size = msg.size := size_eq_of_net_eq sameNet rfl
  refine ⟨?_, sameSize, ?_⟩
  · have index : msg.pduBegin + -1 = ((msg.pduBegin - 1).toNat : ℤ) := by omega
    change received.slave = msg.slave
    simp only [slave, byte, sameBegin, Storage.read, index, Int.toNat_natCast]
    rw [agrees _ (by omega) (by omega)]
  · change received.pduBytes = msg.pduBytes
    apply List.ext_getElem?
    intro index
    simp only [pduBytes, sameBegin, sameSize]
    by_cases within : index < msg.size
    · rw [List.getElem?_take_of_lt within, List.getElem?_take_of_lt within, List.getElem?_drop,
        List.getElem?_drop]
      exact agrees _ (by omega) (by omega)
    · rw [List.getElem?_take_eq_none (by omega), List.getElem?_take_eq_none (by omega)]

theorem master_receiveResponse_ok (dev : Device) (arrival : Arrival) (buffer : Message)
    {bytes : List UInt8} (valid : dev.isValid) (nonempty : bytes ≠ [])
    (room : bytes.length ≤ buffer.adu.length) :
    Master.receiveResponse dev { arrival with frame := some bytes } buffer =
      .ok (bytes.length, { buffer with
        adu := Storage.overwrite buffer.adu 0 bytes
        aduSize := toSize (if dev.net = .tcp then bytes.length else bytes.length - 2) }) := by
  have received : (bytes.length : ℤ) > 0 := by
    have := List.length_pos_of_ne_nil nonempty
    omega
  simp only [Master.receiveResponse, if_pos valid, receiveFrame_ok room, ok_bind, if_pos received,
    pure_eq_ok, setAduSize]

theorem server_receive_ok (dev : Device) (arrival : Arrival) {buffer cleared : Message}
    (bytes : List UInt8) (reached : arrival.connected = true ∨ arrival.accepted = true)
    (emptied : buffer.clear = .ok cleared) (nonempty : bytes ≠ [])
    (room : bytes.length ≤ cleared.adu.length) :
    Server.receive dev { arrival with frame := some bytes } buffer =
      .ok (bytes.length, { cleared with
        adu := Storage.overwrite cleared.adu 0 bytes
        aduSize := toSize bytes.length }) := by
  have received : (bytes.length : ℤ) > 0 := by
    have := List.length_pos_of_ne_nil nonempty
    omega
  have awaited : ¬(dev.net = .tcp ∧ arrival.connected = false ∧ arrival.accepted = false) := by
    rintro ⟨_, unconnected, refused⟩
    rcases reached with connected | accepted
    · rw [unconnected] at connected
      cases connected
    · rw [refused] at accepted
      cases accepted
  simp only [Server.receive, if_neg awaited, emptied, ok_bind, receiveFrame_ok room,
    if_pos received, pure_eq_ok, setAduSize]

theorem Device.isValid_of_net {dev : Device} {msg : Message} (sameNet : dev.net = msg.net) :
    dev.isValid = true := by
  cases found : dev.backend with
  | none =>
      have none_net : msg.net = .noNet := by simp [← sameNet, Device.net, found]
      exact absurd none_net msg.onWire
  | some backend => simp [Device.isValid, found]

theorem master_receiveResponse_noRoom (dev : Device) (arrival : Arrival) (buffer : Message)
    {bytes : List UInt8} (valid : dev.isValid) (noRoom : buffer.adu.length < bytes.length) :
    Master.receiveResponse dev { arrival with frame := some bytes } buffer =
      .error .outOfBounds := by
  have nonempty : bytes ≠ [] := by
    apply List.ne_nil_of_length_pos
    omega
  have outside : Storage.blit buffer.adu 0 bytes = none :=
    Storage.blit_eq_none nonempty (Or.inr (by omega))
  simp only [Master.receiveResponse, if_pos valid, receiveFrame, outside, checked_none, error_bind]

theorem roundTrips_iff_received {msg prepared buffer : Message} {layer next : NetLayer} {peer : Peer}
    {dev : Device} {arrival : Arrival} (sent : msg.prepareToSend layer = .ok (true, prepared, next)) :
    msg.RoundTrips layer peer dev arrival buffer ↔ ∃ rc received,
      peer.receive dev { arrival with frame := some (prepared.adu.take prepared.aduSize) } buffer =
        .ok (rc, received) ∧ SameContent received msg := by
  constructor
  · rintro ⟨other, otherNext, otherSent, trip⟩
    rw [sent] at otherSent
    cases otherSent
    exact trip
  · intro trip
    exact ⟨prepared, next, sent, trip⟩

section Prepared

variable {msg prepared buffer : Message} {dev : Device} {arrival : Arrival}
  (framed : PreparedFrom msg prepared) (nonempty : 1 ≤ msg.size)
  (inside : prepared.aduSize ≤ prepared.adu.length) (sameBuffer : buffer.net = msg.net)

include framed nonempty inside

theorem frame_length : (prepared.adu.take prepared.aduSize).length = prepared.aduSize ∧
    prepared.adu.take prepared.aduSize ≠ [] := by
  have extent := aduSize_eq_of_size_pos nonempty
  have header := msg.pduBegin_pos
  have frameSize := framed.aduSize_eq
  have length : (prepared.adu.take prepared.aduSize).length = prepared.aduSize := by
    rw [List.length_take]
    omega
  refine ⟨length, ?_⟩
  apply List.ne_nil_of_length_pos
  omega

include sameBuffer

/-- A master takes the CRC off, so it needs no more than room for the frame. -/
theorem master_receives_iff (sameDevice : dev.net = msg.net) (legal : prepared.aduSize < 2 ^ 64) :
    (∃ rc received, Master.receiveResponse dev
        { arrival with frame := some (prepared.adu.take prepared.aduSize) } buffer =
          .ok (rc, received) ∧ SameContent received msg) ↔
      prepared.aduSize ≤ buffer.adu.length := by
  rcases frame_length framed nonempty inside with ⟨length, frameNonempty⟩
  have frameSize := framed.aduSize_eq
  have valid := Device.isValid_of_net sameDevice
  constructor
  · rintro ⟨rc, received, arrived, _⟩
    by_contra noRoom
    rw [master_receiveResponse_noRoom dev arrival buffer valid (by omega)] at arrived
    cases arrived
  · intro room
    have received := master_receiveResponse_ok dev arrival buffer valid frameNonempty (by omega)
    have stripped : toSize (if dev.net = .tcp then
        ((prepared.adu.take prepared.aduSize).length : ℤ)
        else (prepared.adu.take prepared.aduSize).length - 2) = msg.aduSize := by
      rw [length]
      rcases msg.pduBegin_cases with ⟨rtu, _, _⟩ | ⟨tcp, _, _⟩
      · rw [rtu] at sameDevice
        simp only [rtu, Net.trailerLength] at frameSize
        simp only [sameDevice, reduceCtorEq, if_false]
        exact toSize_of_nonneg (by omega) (by omega)
      · rw [tcp] at sameDevice
        simp only [tcp, Net.trailerLength] at frameSize
        simp only [sameDevice, if_true]
        exact toSize_of_nonneg (by omega) (by omega)
    rw [stripped] at received
    exact ⟨_, _, received, sameContent_of_frame framed nonempty inside sameBuffer room⟩

/-- A server clears its buffer before, and keeps the CRC. -/
theorem server_receives_iff (legal : prepared.aduSize ≤ msg.maxAduLength)
    (reached : arrival.connected = true ∨ arrival.accepted = true) :
    (∃ rc received, Server.receive dev
        { arrival with frame := some (prepared.adu.take prepared.aduSize) } buffer =
          .ok (rc, received) ∧ SameContent received msg) ↔ msg.net = .tcp := by
  rcases frame_length framed nonempty inside with ⟨length, frameNonempty⟩
  have frameSize := framed.aduSize_eq
  have extent := aduSize_eq_of_size_pos nonempty
  rcases clear_fullBuffer buffer with ⟨cleared, emptied, clearedNet, full⟩
  have sameCleared : cleared.net = msg.net := clearedNet.trans sameBuffer
  have clearedLength : cleared.adu.length = msg.maxAduLength := by
    rw [full.length_eq]
    simp only [maxAduLength, sameCleared]
  have limits := msg.pduBegin_cases
  have received := server_receive_ok dev arrival (prepared.adu.take prepared.aduSize) reached emptied
    frameNonempty (by omega)
  rw [toSize_of_nonneg rfl (by omega), length] at received
  rcases limits with ⟨rtu, _, _⟩ | ⟨tcp, _, _⟩
  · simp only [rtu, Net.trailerLength] at frameSize
    simp only [rtu, reduceCtorEq, iff_false]
    rintro ⟨rc, other, otherReceived, content⟩
    rw [received] at otherReceived
    cases otherReceived
    have longer := aduSize_eq_of_size_pos (le_of_le_of_eq nonempty content.size_eq.symm)
    have clearedBegin : cleared.pduBegin = msg.pduBegin := by
      simp only [pduBegin, sameCleared]
    rw [content.size_eq] at longer
    change (prepared.aduSize : ℤ) = cleared.pduBegin + msg.size at longer
    omega
  · simp only [tcp, Net.trailerLength, Nat.add_zero] at frameSize
    simp only [tcp, iff_true]
    have content := sameContent_of_frame framed nonempty inside sameCleared (by omega)
    rw [frameSize] at received content ⊢
    exact ⟨_, _, received, content⟩

end Prepared

theorem roundTrips_iff_of_room {msg buffer : Message} {layer : NetLayer} {peer : Peer} {dev : Device}
    {arrival : Arrival} (nonempty : 1 ≤ msg.size) (legal : msg.size ≤ maxPduLength)
    (room : msg.aduSize + msg.net.trailerLength ≤ msg.adu.length)
    (sameLayer : layer.net = msg.net) (sameDevice : dev.net = msg.net)
    (sameBuffer : buffer.net = msg.net)
    (reached : arrival.connected = true ∨ arrival.accepted = true) :
    msg.RoundTrips layer peer dev arrival buffer ↔ match peer with
      | .master => msg.aduSize + msg.net.trailerLength ≤ buffer.adu.length
      | .server => msg.net = .tcp := by
  rcases prepareToSend_ok sameLayer nonempty room with ⟨prepared, next, sent, _, framed⟩
  have extent := aduSize_eq_of_size_pos nonempty
  have frameSize := framed.aduSize_eq
  have frameLength := framed.length_eq
  have bounded : prepared.aduSize ≤ msg.maxAduLength := by
    simp only [maxPduLength] at legal
    rcases msg.pduBegin_cases with ⟨rtu, _, _⟩ | ⟨tcp, _, _⟩
    · simp only [rtu, Net.trailerLength] at frameSize
      omega
    · simp only [tcp, Net.trailerLength] at frameSize
      omega
  have limits := msg.pduBegin_cases
  rw [roundTrips_iff_received sent]
  cases peer with
  | master =>
      rw [← frameSize]
      exact master_receives_iff framed nonempty (by omega) sameBuffer sameDevice (by omega)
  | server =>
      exact server_receives_iff framed nonempty (by omega) sameBuffer bounded reached

/-- A message comes back the same when there is room for its CRC and for the frame at the master. A
server must also be reached over TCP: it takes the CRC of an RTU frame for a part of the PDU. -/
theorem roundTrips_iff {msg buffer : Message} {layer : NetLayer} {peer : Peer} {dev : Device}
    {arrival : Arrival} (nonempty : 1 ≤ msg.size) (legal : msg.size ≤ maxPduLength)
    (carried : msg.aduSize ≤ msg.adu.length)
    (sameLayer : layer.net = msg.net) (sameDevice : dev.net = msg.net)
    (sameBuffer : buffer.net = msg.net)
    (reached : arrival.connected = true ∨ arrival.accepted = true) :
    msg.RoundTrips layer peer dev arrival buffer ↔
      msg.aduSize + msg.net.trailerLength ≤ msg.adu.length ∧ match peer with
        | .master => msg.aduSize + msg.net.trailerLength ≤ buffer.adu.length
        | .server => msg.net = .tcp := by
  by_cases room : msg.aduSize + msg.net.trailerLength ≤ msg.adu.length
  · rw [roundTrips_iff_of_room nonempty legal room sameLayer sameDevice sameBuffer reached]
    exact (and_iff_right room).symm
  · refine iff_of_false ?_ (fun condition => room condition.1)
    rintro ⟨prepared, next, sent, _⟩
    rcases rtu_of_noRoom carried (by omega) with ⟨rtu, short⟩
    rw [prepareToSend_noRoom sameLayer rtu nonempty short] at sent
    cases sent

theorem roundTrips_iff_of_exceptionStatus :
    ∃ msg buffer, (do pure ((← create (.net .rtu) (.adu [0x21, 7, 0, 0])).setSize 1)) = .ok msg ∧
      create (.layer .rtu) (.adu [0, 0, 0, 0]) = .ok buffer ∧
      (msg.RoundTrips .rtu .master (Device.create .rtu Context.silent) ⟨true, false, none⟩ buffer ↔
        msg.aduSize + msg.net.trailerLength ≤ msg.adu.length ∧
          msg.aduSize + msg.net.trailerLength ≤ buffer.adu.length) := by
  refine ⟨_, _, rfl, rfl, ?_⟩
  apply roundTrips_iff
  · decide
  · decide
  · decide
  · rfl
  · rfl
  · rfl
  · exact Or.inl rfl

/-- A request whose PDU is one byte arrives with a PDU of three. -/
theorem server_receives_crc_as_pdu :
    ∃ msg, (do pure ((← create (.net .rtu) (.adu [0x21, 7, 0, 0])).setSize 1)) = .ok msg ∧
      ∀ buffer : Message, buffer.net = .rtu →
        ¬msg.RoundTrips .rtu .server (Device.create .rtu Context.silent) ⟨true, false, none⟩
          buffer := by
  refine ⟨_, rfl, ?_⟩
  rintro buffer bufferNet ⟨prepared, next, sent, rc, received, arrived, content⟩
  cases sent
  rcases clear_fullBuffer buffer with ⟨cleared, emptied, sameNet, full⟩
  rw [bufferNet] at sameNet
  have room : 4 ≤ cleared.adu.length := by
    rw [full.length_eq, maxAduLength, sameNet]
    decide
  have stored := server_receive_ok (Device.create .rtu Context.silent) ⟨true, false, none⟩
    [0x21, 7, 0x58, 0x22] (Or.inl rfl) emptied (by decide) room
  cases stored.symm.trans arrived
  have longer := content.size_eq
  simp only [size, pduBegin, sameNet] at longer
  exact absurd longer (by decide)

end Message

end Modbuspp
