import Modbuspp.Message.Payload
import Modbuspp.Message.Receive
import Modbuspp.Message.RequestPayload
import Modbuspp.Message.Transactions

/-!
# Messages from end to end

A message that is prepared, sent and received arrives with the bytes from the slave number to the end of its
ADU. A server on RTU keeps the CRC as two more bytes, which lie behind everything that the getters of the
message read. So the values that one end sets are the ones that the other end gets.
-/

namespace Modbuspp

namespace Message

/-- The bytes of a message, from the slave number to the end of the ADU, in a message that was received. -/
structure ArrivedFrom (received msg : Message) : Prop where
  net_eq : received.net = msg.net
  bytes : ∀ index : ℕ, msg.pduBegin - 1 ≤ index → index < msg.aduSize →
    received.adu[index]? = msg.adu[index]?

namespace ArrivedFrom

variable {received msg : Message} (arrived : ArrivedFrom received msg)

include arrived

theorem pduBegin_eq : received.pduBegin = msg.pduBegin := by
  simp only [pduBegin, arrived.net_eq]

theorem byte {i : ℤ} (lower : -1 ≤ i) (inside : msg.pduBegin + i < msg.aduSize) :
    received.byte i = msg.byte i := by
  have begins := msg.pduBegin_pos
  have index : msg.pduBegin + i = ((msg.pduBegin + i).toNat : ℤ) := by omega
  have cell := arrived.bytes (msg.pduBegin + i).toNat (by omega) (by omega)
  simp only [Message.byte, Storage.read, arrived.pduBegin_eq]
  rw [index, Int.toNat_natCast, cell]

theorem word {i : ℤ} (lower : -1 ≤ i) (inside : msg.pduBegin + i + 1 < msg.aduSize) :
    received.word i = msg.word i := by
  have high := arrived.byte lower (by omega)
  have low := arrived.byte (i := i + 1) (by omega) (by omega)
  simp only [Message.byte, ← Int.add_assoc] at high low
  simp only [Message.word, high, low]

theorem slave (nonempty : 1 ≤ msg.size) : received.slave = msg.slave := by
  have extent := size_pos_iff.mp nonempty
  simp only [Message.slave, arrived.byte (i := -1) (by omega) (by omega)]

theorem function (nonempty : 1 ≤ msg.size) : received.function = msg.function := by
  have extent := size_pos_iff.mp nonempty
  simp only [Message.function, arrived.byte (i := 0) (by omega) (by omega)]

theorem registers {base : ℕ} {index : UInt16} {quantity : ℕ}
    (small : index.toNat + quantity < 65536)
    (inside : msg.pduBegin + base + 2 * (index.toNat + quantity) ≤ msg.aduSize) :
    Packing.registers base received index quantity = Packing.registers base msg index quantity := by
  induction quantity generalizing index with
  | zero => rfl
  | succ quantity ih =>
      have following := Packing.toNat_succ (by omega : index.toNat + 1 < 65536)
      have first : Packing.register base received index = Packing.register base msg index :=
        arrived.word (by omega) (by omega)
      have rest := @ih (index + 1) (by omega) (by omega)
      simp only [Packing.registers, first, rest]

theorem bits {base : ℕ} {index : UInt16} {quantity : ℕ}
    (small : index.toNat + quantity < 65536)
    (inside : 8 * (msg.pduBegin + base) + (index.toNat + quantity) ≤ 8 * msg.aduSize) :
    Packing.bits base received index quantity = Packing.bits base msg index quantity := by
  induction quantity generalizing index with
  | zero => rfl
  | succ quantity ih =>
      have following := Packing.toNat_succ (by omega : index.toNat + 1 < 65536)
      have place := Packing.toNat_byte index
      have byte_eq := arrived.byte (i := (index / 8).toNat + base) (by omega) (by omega)
      have first : Packing.bit base received index = Packing.bit base msg index := by
        simp only [Packing.bit, byte_eq]
      have rest := @ih (index + 1) (by omega) (by omega)
      simp only [Packing.bits, first, rest]

end ArrivedFrom

/-- A frame laid over a buffer. -/
theorem arrived_of_frame {msg prepared buffer : Message} (framed : PreparedFrom msg prepared)
    (inside : prepared.aduSize ≤ prepared.adu.length) (sameNet : buffer.net = msg.net)
    (room : prepared.aduSize ≤ buffer.adu.length) (size : ℕ) :
    ArrivedFrom { buffer with
      adu := Storage.overwrite buffer.adu 0 (prepared.adu.take prepared.aduSize)
      aduSize := size } msg where
  net_eq := sameNet
  bytes := received_getElem? framed inside room

/-- The message is sent over the layer and received by the peer, which reads `received`. -/
def Reaches (msg : Message) (layer : NetLayer) (peer : Peer) (dev : Device) (arrival : Arrival)
    (buffer received : Message) : Prop :=
  ∃ prepared next rc, msg.prepareToSend layer = .ok (true, prepared, next) ∧
    peer.receive dev { arrival with frame := some (prepared.adu.take prepared.aduSize) } buffer =
      .ok (rc, received) ∧ 0 < rc

section Ends

variable {msg buffer : Message} {layer : NetLayer} {dev : Device} {arrival : Arrival}
  (nonempty : 1 ≤ msg.size) (room : msg.aduSize + msg.net.trailerLength ≤ msg.adu.length)
  (sameLayer : layer.net = msg.net) (sameBuffer : buffer.net = msg.net)

include nonempty room sameLayer sameBuffer

/-- A server clears its buffer first, so there is room for every frame. -/
theorem reaches_server (legal : msg.size ≤ maxPduLength)
    (reached : arrival.connected = true ∨ arrival.accepted = true) :
    ∃ received, msg.Reaches layer .server dev arrival buffer received ∧ received.ArrivedFrom msg := by
  rcases prepareToSend_ok sameLayer nonempty room with ⟨prepared, next, sent, _, framed⟩
  have extent := aduSize_eq_of_size_pos nonempty
  have frameSize := framed.aduSize_eq
  have length_eq := framed.length_eq
  rcases frame_length framed nonempty (by omega) with ⟨length, frameNonempty⟩
  rcases clear_fullBuffer buffer with ⟨cleared, emptied, clearedNet, full⟩
  have sameCleared : cleared.net = msg.net := clearedNet.trans sameBuffer
  have clearedLength : cleared.adu.length = msg.maxAduLength := by
    rw [full.length_eq]
    simp only [maxAduLength, sameCleared]
  have bounded : prepared.aduSize ≤ msg.maxAduLength := by
    simp only [maxPduLength] at legal
    rcases msg.pduBegin_cases with ⟨rtu, _, _⟩ | ⟨tcp, _, _⟩
    · simp only [rtu, Net.trailerLength] at frameSize
      omega
    · simp only [tcp, Net.trailerLength] at frameSize
      omega
  have received := server_receive_ok dev arrival (prepared.adu.take prepared.aduSize) reached emptied
    frameNonempty (by omega)
  refine ⟨_, ⟨prepared, next, _, sent, received, ?_⟩,
    arrived_of_frame framed (by omega) sameCleared (by omega) _⟩
  have := List.length_pos_of_ne_nil frameNonempty
  omega

/-- A master receives into the buffer as it is. -/
theorem reaches_master (sameDevice : dev.net = msg.net)
    (bufferRoom : msg.aduSize + msg.net.trailerLength ≤ buffer.adu.length) :
    ∃ received, msg.Reaches layer .master dev arrival buffer received ∧ received.ArrivedFrom msg := by
  rcases prepareToSend_ok sameLayer nonempty room with ⟨prepared, next, sent, _, framed⟩
  have frameSize := framed.aduSize_eq
  have length_eq := framed.length_eq
  rcases frame_length framed nonempty (by omega) with ⟨length, frameNonempty⟩
  have received := master_receiveResponse_ok dev arrival buffer (Device.isValid_of_net sameDevice)
    frameNonempty (by omega)
  refine ⟨_, ⟨prepared, next, _, sent, received, ?_⟩,
    arrived_of_frame framed (by omega) sameBuffer (by omega) _⟩
  have := List.length_pos_of_ne_nil frameNonempty
  omega

end Ends

theorem KeepsBelow.refl (bound : ℤ) (msg : Message) : KeepsBelow bound msg msg :=
  ⟨rfl, rfl, fun _ _ _ => rfl⟩

theorem KeepsBelow.trans {bound : ℤ} {msg between after : Message} (first : KeepsBelow bound msg between)
    (rest : KeepsBelow bound between after) : KeepsBelow bound msg after where
  net_eq := rest.net_eq.trans first.net_eq
  isResponse_eq := rest.isResponse_eq.trans first.isResponse_eq
  cells := by
    intro index below inside
    have cell := first.cells index below inside
    rw [List.getElem?_eq_getElem inside] at cell
    rw [rest.cells index below (List.getElem?_eq_some_iff.mp cell).1, cell,
      List.getElem?_eq_getElem inside]

end Message

namespace Packing

open Message

theorem setRegisters_keepsBelow {base : ℕ} {msg after : Message} {index : UInt16}
    {values : List UInt16} (run : setRegisters base msg index values = .ok after) :
    KeepsBelow msg.pduBegin msg after := by
  induction values generalizing msg index with
  | nil =>
      cases run
      exact .refl _ _
  | cons value values ih =>
      simp only [setRegisters, bind_eq_ok_iff] at run
      rcases run with ⟨between, stored, rest⟩
      have first : KeepsBelow msg.pduBegin msg between := (setWord_keepsBelow stored).mono (by omega)
      have same : between.pduBegin = msg.pduBegin := by simp only [pduBegin, first.net_eq]
      exact first.trans (same ▸ ih rest)

theorem setBits_keepsBelow {base : ℕ} {msg after : Message} {index : UInt16} {values : List Bool}
    (run : setBits base msg index values = .ok after) : KeepsBelow msg.pduBegin msg after := by
  induction values generalizing msg index with
  | nil =>
      cases run
      exact .refl _ _
  | cons value values ih =>
      simp only [setBits, setBit, bind_eq_ok_iff] at run
      rcases run with ⟨between, ⟨byte, _, stored⟩, rest⟩
      have first : KeepsBelow msg.pduBegin msg between := (setByte_keepsBelow stored).mono (by omega)
      have same : between.pduBegin = msg.pduBegin := by simp only [pduBegin, first.net_eq]
      exact first.trans (same ▸ ih rest)

end Packing

namespace Request

open Message

/-- The fields of a request that precede its values. -/
structure SameRequest (received req : Message) : Prop where
  slave_eq : received.slave = req.slave
  function_eq : received.function = req.function
  startingAddress_eq : received.startingAddress = req.startingAddress
  quantity_eq : received.quantity = req.quantity
  byteCount_eq : byteCount received = byteCount req

theorem sameRequest_of_arrived {received msg : Message} (arrived : received.ArrivedFrom msg)
    (long : msg.pduBegin + 6 ≤ msg.aduSize) : SameRequest received msg where
  slave_eq := by simp only [slave, arrived.byte (i := -1) (by omega) (by omega)]
  function_eq := by simp only [function, arrived.byte (i := 0) (by omega) (by omega)]
  startingAddress_eq := arrived.word (by omega) (by omega)
  quantity_eq := arrived.word (by omega) (by omega)
  byteCount_eq := arrived.byte (by omega) (by omega)

theorem SameRequest.trans {received set req : Message} (first : SameRequest received set)
    (second : SameRequest set req) : SameRequest received req where
  slave_eq := first.slave_eq.trans second.slave_eq
  function_eq := first.function_eq.trans second.function_eq
  startingAddress_eq := first.startingAddress_eq.trans second.startingAddress_eq
  quantity_eq := first.quantity_eq.trans second.quantity_eq
  byteCount_eq := first.byteCount_eq.trans second.byteCount_eq

/-- Setting values leaves the fields. -/
theorem sameRequest_of_fields {set req : Message} (keeps : KeepsBelow req.pduBegin req set)
    (fields : SameFields req set) (header : req.pduBegin ≤ req.adu.length) : SameRequest set req := by
  have begins := req.pduBegin_pos
  have begin_eq : set.pduBegin = req.pduBegin := by simp only [pduBegin, keeps.net_eq]
  -- The getters do not look at the size, which may end behind the fields.
  have arrived : set.ArrivedFrom (req.setAduSize (req.pduBegin + 6).toNat) := by
    refine ⟨keeps.net_eq, ?_⟩
    intro index _ inside
    change index < (req.pduBegin + 6).toNat at inside
    by_cases inHeader : index < req.pduBegin
    · exact keeps.cells index inHeader (by omega)
    · have field := fields (index - req.pduBegin.toNat) (by omega)
      have place : req.pduBegin.toNat + (index - req.pduBegin.toNat) = index := by omega
      rw [getElem?_pdu, getElem?_pdu, begin_eq, place] at field
      exact field
  have long : (req.setAduSize (req.pduBegin + 6).toNat).pduBegin + 6 ≤
      (req.setAduSize (req.pduBegin + 6).toNat).aduSize := by
    change req.pduBegin + 6 ≤ ((req.pduBegin + 6).toNat : ℤ)
    omega
  have same := sameRequest_of_arrived arrived long
  exact ⟨same.slave_eq, same.function_eq, same.startingAddress_eq, same.quantity_eq, same.byteCount_eq⟩

variable {req buffer : Message} {layer : NetLayer} {dev : Device} {arrival : Arrival}

/-- A request with values, of which there is at least one, reaches the server as it was set. -/
theorem set_reaches_server {set : Message} {finish : ℕ} (full : req.adu.length = req.maxAduLength)
    (legal : req.size ≤ maxPduLength) (finishLegal : 6 ≤ finish ∧ finish ≤ maxPduLength)
    (keeps : KeepsBelow req.pduBegin req set) (length_eq : set.adu.length = req.adu.length)
    (aduSize_eq : set.aduSize = max req.aduSize (req.pduBegin.toNat + finish))
    (fields : SameFields req set)
    (sameLayer : layer.net = req.net) (sameBuffer : buffer.net = req.net)
    (reached : arrival.connected = true ∨ arrival.accepted = true) :
    ∃ received, set.Reaches layer .server dev arrival buffer received ∧ received.ArrivedFrom set ∧
      SameRequest received req := by
  have limits := req.pduBegin_cases
  have begin_eq : set.pduBegin = req.pduBegin := by simp only [pduBegin, keeps.net_eq]
  have nonempty : 1 ≤ set.size := by
    rw [size_pos_iff]
    omega
  have extent := aduSize_eq_of_size_pos nonempty
  have reqExtent : (req.aduSize : ℤ) ≤ req.pduBegin + req.size := by
    simp only [size]
    split <;> omega
  simp only [maxPduLength] at legal finishLegal
  have setLegal : set.size ≤ maxPduLength := by
    simp only [maxPduLength]
    omega
  have room : set.aduSize + set.net.trailerLength ≤ set.adu.length := by
    rw [keeps.net_eq]
    rcases limits with ⟨rtu, _, _⟩ | ⟨tcp, _, _⟩
    · simp only [rtu, Net.trailerLength]
      omega
    · simp only [tcp, Net.trailerLength]
      omega
  rcases reaches_server nonempty room (sameLayer.trans keeps.net_eq.symm)
    (sameBuffer.trans keeps.net_eq.symm) setLegal reached with ⟨received, reaches, arrived⟩
  refine ⟨received, reaches, arrived, ?_⟩
  exact (sameRequest_of_arrived arrived (by omega)).trans
    (sameRequest_of_fields keeps fields (by omega))

theorem registers_reach_server (full : req.adu.length = req.maxAduLength)
    (legal : req.size ≤ maxPduLength) (sameLayer : layer.net = req.net)
    (sameBuffer : buffer.net = req.net) (reached : arrival.connected = true ∨ arrival.accepted = true)
    {index : UInt16} {values : List UInt16} (some_values : values ≠ [])
    (fits : 6 + 2 * (index.toNat + values.length) ≤ maxPduLength) :
    ∃ set received, setRegisterValues req index values = .ok set ∧
      set.Reaches layer .server dev arrival buffer received ∧
      registerValues received index values.length = .ok values ∧ SameRequest received req := by
  have room := maxPduLength_le_length_pdu full
  simp only [maxPduLength] at room fits
  have inside : 6 + 2 * (index.toNat + values.length) ≤ req.pdu.length := by omega
  have small : index.toNat + values.length < 65536 := by omega
  rcases Packing.setRegisters_spec some_values inside small with ⟨set, run, stored⟩
  have keeps := Packing.setRegisters_keepsBelow run
  have begin_eq : set.pduBegin = req.pduBegin := by simp only [pduBegin, keeps.net_eq]
  have begins := req.pduBegin_pos
  have sizes := stored.rewritten.aduSize_eq
  rcases set_reaches_server full legal (by simp only [maxPduLength]; omega) keeps
    stored.rewritten.length_eq sizes (fun k field => stored.others k (.inl (by omega))) sameLayer
    sameBuffer reached with ⟨received, reaches, arrived, same⟩
  refine ⟨set, received, run, reaches, ?_, same⟩
  rw [registerValues, arrived.registers (by omega) (by omega)]
  exact Packing.registers_of_hasRegisters stored.registers (by omega)

theorem coils_reach_server (full : req.adu.length = req.maxAduLength)
    (legal : req.size ≤ maxPduLength) (sameLayer : layer.net = req.net)
    (sameBuffer : buffer.net = req.net) (reached : arrival.connected = true ∨ arrival.accepted = true)
    {index : UInt16} {values : List Bool} (some_values : values ≠ [])
    (fits : 8 * 6 + (index.toNat + values.length) ≤ 8 * maxPduLength) :
    ∃ set received, setCoilValues req index values = .ok set ∧
      set.Reaches layer .server dev arrival buffer received ∧
      coilValues received index values.length = .ok values ∧ SameRequest received req := by
  have room := maxPduLength_le_length_pdu full
  simp only [maxPduLength] at room fits
  have inside : 8 * 6 + (index.toNat + values.length) ≤ 8 * req.pdu.length := by omega
  have small : index.toNat + values.length < 65536 := by omega
  rcases Packing.setBits_spec some_values inside small with ⟨set, run, stored⟩
  have keeps := Packing.setBits_keepsBelow run
  have begin_eq : set.pduBegin = req.pduBegin := by simp only [pduBegin, keeps.net_eq]
  have begins := req.pduBegin_pos
  have sizes := stored.rewritten.aduSize_eq
  have fields : SameFields req set := by
    intro k field
    apply BitField.getElem?_eq_iff.mpr
    intro b place
    exact stored.others b (.inl (by omega))
  rcases set_reaches_server full legal (by simp only [maxPduLength]; omega) keeps
    stored.rewritten.length_eq sizes fields sameLayer sameBuffer reached with
      ⟨received, reaches, arrived, same⟩
  refine ⟨set, received, run, reaches, ?_, same⟩
  rw [coilValues, arrived.bits (by omega) (by omega)]
  exact Packing.bits_of_bitAt stored.written (by omega)

/-- The values that are set in a request are the ones that the server gets, with the fields of the
request. -/
theorem values_reach_server (full : req.adu.length = req.maxAduLength) (legal : req.size ≤ maxPduLength)
    (sameLayer : layer.net = req.net) (sameBuffer : buffer.net = req.net)
    (reached : arrival.connected = true ∨ arrival.accepted = true) (index : UInt16) :
    (∀ values : List UInt16, values ≠ [] →
      6 + 2 * (index.toNat + values.length) ≤ maxPduLength →
        ∃ set received, setRegisterValues req index values = .ok set ∧
          set.Reaches layer .server dev arrival buffer received ∧
          registerValues received index values.length = .ok values ∧ SameRequest received req) ∧
    ∀ values : List Bool, values ≠ [] →
      8 * 6 + (index.toNat + values.length) ≤ 8 * maxPduLength →
        ∃ set received, setCoilValues req index values = .ok set ∧
          set.Reaches layer .server dev arrival buffer received ∧
          coilValues received index values.length = .ok values ∧ SameRequest received req :=
  ⟨fun _ some_values fits =>
      registers_reach_server full legal sameLayer sameBuffer reached some_values fits,
    fun _ some_values fits => coils_reach_server full legal sameLayer sameBuffer reached some_values fits⟩

/-- Registers in a new request on RTU. -/
theorem values_reach_server_of_registers :
    ∃ req, Message.create (.net .rtu) .empty = .ok req ∧
      ∃ set received, setRegisterValues req 0 [0x1234, 0xABCD] = .ok set ∧
        set.Reaches .rtu .server (.create .rtu Context.silent) ⟨true, false, none⟩ req received ∧
        registerValues received 0 2 = .ok [0x1234, 0xABCD] ∧ SameRequest received req := by
  have created : Message.create (.net .rtu) .empty = .ok _ := rfl
  rcases Message.create_spec created with ⟨bytes, impossible, _⟩ | ⟨_, full, _⟩
  · cases impossible
  · have reached : (⟨true, false, none⟩ : Arrival).connected = true ∨
        (⟨true, false, none⟩ : Arrival).accepted = true := .inl rfl
    refine ⟨_, created, ?_⟩
    exact (values_reach_server full (by decide) rfl rfl reached 0).1 [0x1234, 0xABCD] (by decide)
      (by decide)

end Request

end Modbuspp
