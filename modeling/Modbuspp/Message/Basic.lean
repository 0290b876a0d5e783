import Modbuspp.Rtu.Crc

/-!
# Modbus messages

The state behind `Message`, its constructors and its accessors. `Request` and `Response` add no
state of their own. The buffer is a C++ vector indexed without a check, so every access to it is
one to `Storage`. Offsets are relative to the PDU: negative ones reach the header of the ADU.
-/

namespace Modbuspp

/-- A network layer, with the state its backend keeps between messages. -/
inductive NetLayer where
  | rtu
  | tcp (transactionId : UInt16)
deriving DecidableEq, Repr

namespace NetLayer

/-- The net that the layer is for. -/
def net : NetLayer → Net
  | rtu => .rtu
  | tcp _ => .tcp

theorem net_ne_noNet (layer : NetLayer) : layer.net ≠ .noNet := by
  cases layer <;> simp [net]

end NetLayer

/-- The private state of a message. A message always belongs to a net: the constructors reject the
other value of `Net`. The start of the PDU and the maximum length of the ADU are those of the net. -/
structure Message where
  net : Net
  onWire : net ≠ .noNet
  aduSize : ℕ
  isResponse : Bool
  /-- Whether the message keeps a pointer to the layer it was built on. -/
  backend : Bool
  transactionId : UInt16
  adu : List UInt8
deriving DecidableEq

namespace Message

/-- Where the PDU begins in the ADU. -/
def pduBegin (msg : Message) : ℤ := msg.net.headerLength

/-- The length of the buffer of a new message. -/
def maxAduLength (msg : Message) : ℕ := msg.net.maxAduLength

/-- The byte at an offset in the PDU. -/
def byte (msg : Message) (i : ℤ) : Except Fault UInt8 :=
  checked (Storage.read msg.adu (msg.pduBegin + i))

/-- The big endian word at an offset in the PDU. -/
def word (msg : Message) (i : ℤ) : Except Fault UInt16 := do
  let hi ← checked (Storage.read msg.adu (msg.pduBegin + i))
  let lo ← checked (Storage.read msg.adu (msg.pduBegin + i + 1))
  pure ((hi.toUInt16 <<< 8) + lo.toUInt16)

/-- Stores a byte at an offset in the PDU. The ADU grows to contain it. -/
def setByte (msg : Message) (pduOffset : ℤ) (value : UInt8) : Except Fault Message := do
  let index := msg.pduBegin + pduOffset
  let adu ← checked (Storage.write msg.adu index value)
  pure { msg with adu, aduSize := max msg.aduSize (index + 1).toNat }

/-- Stores a big endian word at an offset in the PDU. The ADU grows to contain it. -/
def setWord (msg : Message) (pduOffset : ℤ) (value : UInt16) : Except Fault Message := do
  let index := msg.pduBegin + pduOffset
  let adu ← checked (Storage.write msg.adu index (value >>> 8).toUInt8)
  let adu ← checked (Storage.write adu (index + 1) value.toUInt8)
  pure { msg with adu, aduSize := max msg.aduSize (index + 2).toNat }

/-- The length of the PDU. -/
def size (msg : Message) : ℕ :=
  if (msg.aduSize : ℤ) > msg.pduBegin then ((msg.aduSize : ℤ) - msg.pduBegin).toNat else 0

/-- Sets the length of the ADU, without a look at the buffer. -/
def setAduSize (msg : Message) (size : ℕ) : Message := { msg with aduSize := size }

/-- Sets the length of the PDU, without a look at the buffer. -/
def setSize (msg : Message) (size : ℕ) : Message :=
  { msg with aduSize := (msg.pduBegin + size).toNat }

/-- The number of the slave, which precedes the PDU on both nets. -/
def slave (msg : Message) : Except Fault ℤ := do
  let id ← msg.byte (-1)
  pure id.toNat

/-- The function of the PDU. -/
def function (msg : Message) : Except Fault Function := do
  let code ← msg.byte 0
  pure (Function.ofByte code)

/-- The address that the request starts at. -/
def startingAddress (msg : Message) : Except Fault UInt16 := msg.word 1

/-- The quantity that the request asks for. -/
def quantity (msg : Message) : Except Fault UInt16 := msg.word 3

/-- Sets the number of the slave. -/
def setSlaveId (msg : Message) (id : ℤ) : Except Fault Message :=
  msg.setByte (-1) (UInt8.ofNat (id % 256).toNat)

/-- Sets the function code. -/
def setFunction (msg : Message) (func : Function) : Except Fault Message :=
  msg.setByte 0 func.code

/-- Sets the address that the request starts at. -/
def setStartingAdress (msg : Message) (addr : UInt16) : Except Fault Message :=
  msg.setWord 1 addr

/-- Sets the quantity that the request asks for. -/
def setQuantity (msg : Message) (n : UInt16) : Except Fault Message :=
  msg.setWord 3 n

/-- The message after `clear`. Only bytes that a longer buffer gains are zeroed. -/
def clear (msg : Message) : Except Fault Message :=
  let emptied := { msg with adu := Storage.resize msg.adu msg.maxAduLength 0, aduSize := 0 }
  if msg.net = .tcp then emptied.setSlaveId tcpSlave else .ok emptied

/-- Copies bytes to the PDU, which becomes as long as they are. -/
def setPdu (msg : Message) (data : List UInt8) : Except Fault Message := do
  let adu ← checked (Storage.blit msg.adu msg.pduBegin data)
  pure ({ msg with adu }.setSize data.length)

/-- The overload of `setPdu` that copies the PDU of another message. -/
def setPduFrom (msg src : Message) : Except Fault Message := do
  let data ← checked (Storage.slice src.adu src.pduBegin src.size)
  let adu ← checked (Storage.blit msg.adu msg.pduBegin data)
  pure ({ msg with adu }.setSize src.size)

/-- The CRC read in the message. The difference `size - 2` is a `size_t`, which becomes a negative
`int` when the PDU has less than two bytes. -/
def crc (msg : Message) : Except Fault UInt16 :=
  if msg.net ≠ .rtu then
    .error (.domainError "Unable to return CRC if backend is not RTU !")
  else if 4 ≤ msg.aduSize then
    .error (.invalidArgument "Unable to return CRC if ADU size less than 4 !")
  else msg.word (msg.size - 2)

theorem pduBegin_cases (msg : Message) :
    (msg.net = .rtu ∧ msg.pduBegin = 1 ∧ msg.maxAduLength = 256) ∨
      (msg.net = .tcp ∧ msg.pduBegin = 7 ∧ msg.maxAduLength = 260) := by
  have onWire := msg.onWire
  cases found : msg.net with
  | rtu => simp [pduBegin, maxAduLength, found, Net.headerLength, Net.maxAduLength]
  | tcp => simp [pduBegin, maxAduLength, found, Net.headerLength, Net.maxAduLength]
  | noNet => exact absurd found onWire

theorem pduBegin_pos (msg : Message) : 1 ≤ msg.pduBegin := by
  rcases msg.pduBegin_cases with ⟨_, begin_eq, _⟩ | ⟨_, begin_eq, _⟩ <;> omega

theorem aduSize_eq_of_size_pos {msg : Message} (nonempty : 1 ≤ msg.size) :
    (msg.aduSize : ℤ) = msg.pduBegin + msg.size := by
  have := msg.pduBegin_pos
  simp only [size] at nonempty ⊢
  split at nonempty <;> split <;> omega

theorem size_pos_iff {msg : Message} : 1 ≤ msg.size ↔ msg.pduBegin < msg.aduSize := by
  simp only [size]
  split <;> omega

theorem setByte_ok {msg : Message} (pduOffset : ℤ) (index : ℕ) (value : UInt8)
    (place : msg.pduBegin + pduOffset = index) (inside : index < msg.adu.length) :
    msg.setByte pduOffset value = .ok { msg with
      adu := msg.adu.set index value
      aduSize := max msg.aduSize (index + 1) } := by
  have stored := Storage.write_of_lt msg.adu index value (by omega) (by omega)
  have next : ((index : ℤ) + 1).toNat = index + 1 := by omega
  simp only [setByte, place, stored, checked_some, ok_bind, Int.toNat_natCast, next]
  rfl

theorem setWord_ok {msg : Message} (pduOffset : ℤ) (index : ℕ) (value : UInt16)
    (place : msg.pduBegin + pduOffset = index) (inside : index + 1 < msg.adu.length) :
    msg.setWord pduOffset value = .ok { msg with
      adu := (msg.adu.set index (value >>> 8).toUInt8).set (index + 1) value.toUInt8
      aduSize := max msg.aduSize (index + 2) } := by
  have first := Storage.write_of_lt msg.adu index (value >>> 8).toUInt8 (by omega)
    (by omega)
  have second := Storage.write_of_lt (msg.adu.set index (value >>> 8).toUInt8)
    ((index : ℤ) + 1) value.toUInt8 (by omega) (by rw [List.length_set]; omega)
  have next : ((index : ℤ) + 1).toNat = index + 1 := by omega
  have afterNext : ((index : ℤ) + 2).toNat = index + 2 := by omega
  rw [next] at second
  simp only [setWord, place, first, checked_some, ok_bind, Int.toNat_natCast, second, afterNext]
  rfl

/-- The common part of the constructors: an empty message on a net. -/
def blank (net : Net) (onWire : net ≠ .noNet) (backend : Bool) : Except Fault Message := do
  let adu := List.replicate net.maxAduLength 0
  let adu ← if net = .tcp then checked (Storage.write adu 6 (UInt8.ofNat tcpSlave)) else pure adu
  pure { net, onWire, aduSize := 0, isResponse := false, backend, transactionId := 1, adu }

/-- What a message is built on: a net, a layer, or a device whose backend may not be set. -/
inductive Origin where
  | net (n : Net)
  | layer (b : NetLayer)
  | device (backend : Option NetLayer)

/-- What a message is built with: nothing, the bytes of an ADU, or a function code. -/
inductive Content where
  | empty
  | adu (bytes : List UInt8)
  | function (f : Function)

/-- The empty message that a constructor starts from. -/
def Origin.blank : Origin → Except Fault Message
  | .layer b => Message.blank b.net b.net_ne_noNet true
  | .device (some b) => Message.blank b.net b.net_ne_noNet true
  | .device none => .error (.domainError "Unable to return backend !")
  | .net .rtu => Message.blank .rtu (by decide) false
  | .net .tcp => Message.blank .tcp (by decide) false
  | .net .noNet => .error (.invalidArgument "Unable to create Modbus Device for this net !")

/-- The buffer of a new message. -/
def blankAdu (net : Net) : List UInt8 :=
  if net = .tcp then (List.replicate net.maxAduLength 0).set 6 (UInt8.ofNat tcpSlave)
  else List.replicate net.maxAduLength 0

@[simp]
theorem length_blankAdu (net : Net) : (blankAdu net).length = net.maxAduLength := by
  simp only [blankAdu]
  split <;> simp

theorem blank_eq (net : Net) (onWire : net ≠ .noNet) (backend : Bool) :
    blank net onWire backend = .ok
      { net, onWire, aduSize := 0, isResponse := false, backend, transactionId := 1
        adu := blankAdu net } := by
  by_cases tcp : net = .tcp
  · have stored := Storage.write_of_lt (List.replicate net.maxAduLength (0 : UInt8)) 6
      (UInt8.ofNat tcpSlave) (by omega)
      (by rw [List.length_replicate, tcp, Net.maxAduLength]; omega)
    simp only [blank, blankAdu, if_pos tcp, stored, checked_some, ok_bind, pure_eq_ok]
    rfl
  · simp only [blank, blankAdu, if_neg tcp, ok_bind, pure_eq_ok]

/-- The constructors of `Message`, `Request` and `Response`. -/
def create (origin : Origin) (content : Content) : Except Fault Message := do
  let msg ← origin.blank
  match content with
  | .empty => pure msg
  | .adu bytes => pure { msg with adu := bytes, aduSize := bytes.length }
  | .function f =>
      let adu ← checked (Storage.write msg.adu msg.pduBegin f.code)
      pure { msg with adu }

end Message

end Modbuspp
