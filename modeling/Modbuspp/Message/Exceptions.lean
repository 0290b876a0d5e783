import Modbuspp.Message.Transport

/-!
# Responses from end to end

A response is received by a master that has a buffer of the full length. It gets the registers and the bits
that were set, and an exception with its code: the function code of the request with a flag that no other
function carries.
-/

namespace Modbuspp

/-- The exception codes managed by the library; `other` keeps any other byte a response may carry. -/
inductive ExceptionCode where
  | illegalFunction
  | illegalDataAddress
  | illegalDataValue
  | slaveOrServerFailure
  | acknowledge
  | slaveOrServerBusy
  | negativeAcknowledge
  | memoryParity
  | notDefined
  | gatewayPath
  | gatewayTarget
  | exceptionMax
  | other (code : UInt8)
deriving DecidableEq, Repr

namespace ExceptionCode

/-- The byte that carries an exception code. -/
def code : ExceptionCode → UInt8
  | illegalFunction => 1
  | illegalDataAddress => 2
  | illegalDataValue => 3
  | slaveOrServerFailure => 4
  | acknowledge => 5
  | slaveOrServerBusy => 6
  | negativeAcknowledge => 7
  | memoryParity => 8
  | notDefined => 9
  | gatewayPath => 10
  | gatewayTarget => 11
  | exceptionMax => 12
  | other code => code

/-- The conversion of a byte to an exception code. -/
def ofByte (byte : UInt8) : ExceptionCode :=
  match byte.toNat with
  | 1 => illegalFunction
  | 2 => illegalDataAddress
  | 3 => illegalDataValue
  | 4 => slaveOrServerFailure
  | 5 => acknowledge
  | 6 => slaveOrServerBusy
  | 7 => negativeAcknowledge
  | 8 => memoryParity
  | 9 => notDefined
  | 10 => gatewayPath
  | 11 => gatewayTarget
  | 12 => exceptionMax
  | _ => other byte

theorem ofByte_code {exception : ExceptionCode} (named : ∀ byte, exception ≠ other byte) :
    ofByte exception.code = exception := by
  cases exception with
  | other byte => exact absurd rfl (named byte)
  | _ => rfl

end ExceptionCode

/-- `ExceptionFlag`. -/
def exceptionFlag : UInt8 := 0x80

theorem Function.code_ofByte (byte : UInt8) : (Function.ofByte byte).code = byte := by
  simp only [Function.ofByte]
  split <;> first | rfl | (next found => exact UInt8.toNat_inj.mp found.symm)

/-- No function that the library manages carries the flag of an exception. -/
theorem Function.ofByte_flagged (byte : UInt8) :
    Function.ofByte (byte ||| exceptionFlag) = .other (byte ||| exceptionFlag) := by
  have flagged : 128 ≤ (byte ||| exceptionFlag).toNat := by
    rw [UInt8.toNat_or]
    exact Nat.right_le_or
  simp only [Function.ofByte]
  split <;> first | rfl | omega

namespace Response

open Message

/-- The response becomes an exception: the flag is set in its function, and the code follows. -/
def setExceptionCode (resp : Message) (exception : ExceptionCode) : Except Fault Message := do
  let func ← resp.function
  let resp ← resp.setFunction (.ofByte (func.code ||| exceptionFlag))
  resp.setByte 1 exception.code

/-- The code of an exception response. -/
def exceptionCode (resp : Message) : Except Fault ExceptionCode := do
  let byte ← resp.byte 1
  pure (.ofByte byte)

variable {resp set buffer : Message} {layer : NetLayer} {dev : Device} {arrival : Arrival}

/-- A response of legal length reaches a master that has a full buffer. -/
theorem set_reaches_master {finish : ℕ} (full : resp.adu.length = resp.maxAduLength)
    (legal : resp.size ≤ maxPduLength) (finishLegal : 1 ≤ finish ∧ finish ≤ maxPduLength)
    (keeps : KeepsBelow resp.pduBegin resp set) (length_eq : set.adu.length = resp.adu.length)
    (aduSize_eq : set.aduSize = max resp.aduSize (resp.pduBegin.toNat + finish))
    (sameLayer : layer.net = resp.net) (sameDevice : dev.net = resp.net)
    (sameBuffer : buffer.net = resp.net) (bufferFull : buffer.adu.length = buffer.maxAduLength) :
    ∃ received, set.Reaches layer .master dev arrival buffer received ∧ received.ArrivedFrom set ∧
      set.pduBegin + finish ≤ set.aduSize ∧ received.slave = resp.slave := by
  have limits := resp.pduBegin_cases
  have begin_eq : set.pduBegin = resp.pduBegin := by simp only [pduBegin, keeps.net_eq]
  have buffer_eq : buffer.maxAduLength = resp.maxAduLength := by
    simp only [maxAduLength, sameBuffer]
  have nonempty : 1 ≤ set.size := by
    rw [size_pos_iff]
    omega
  have respExtent : (resp.aduSize : ℤ) ≤ resp.pduBegin + resp.size := by
    simp only [size]
    split <;> omega
  simp only [maxPduLength] at legal finishLegal
  have room : set.aduSize + set.net.trailerLength ≤ resp.maxAduLength := by
    rw [keeps.net_eq]
    rcases limits with ⟨rtu, _, _⟩ | ⟨tcp, _, _⟩
    · simp only [rtu, Net.trailerLength]
      omega
    · simp only [tcp, Net.trailerLength]
      omega
  rcases @reaches_master set buffer layer dev arrival nonempty (by omega)
    (sameLayer.trans keeps.net_eq.symm) (sameBuffer.trans keeps.net_eq.symm)
      (sameDevice.trans keeps.net_eq.symm) (by omega) with ⟨received, reaches, arrived⟩
  refine ⟨received, reaches, arrived, by omega, ?_⟩
  have header : set.ArrivedFrom (resp.setAduSize resp.pduBegin.toNat) := by
    refine ⟨keeps.net_eq, ?_⟩
    intro index _ inside
    change index < resp.pduBegin.toNat at inside
    exact keeps.cells index (by omega) (by omega)
  have slave_eq : set.slave = (resp.setAduSize resp.pduBegin.toNat).slave := by
    simp only [slave, header.byte (i := -1) (by omega)
      (by change resp.pduBegin + -1 < (resp.pduBegin.toNat : ℤ); omega)]
  exact (arrived.slave nonempty).trans slave_eq

theorem length_pdu_of_full (full : resp.adu.length = resp.maxAduLength) :
    maxPduLength ≤ resp.pdu.length :=
  Request.maxPduLength_le_length_pdu full

/-- An exception replaces the function code by the same code with the flag, and the byte after it. -/
theorem setExceptionCode_spec (full : resp.adu.length = resp.maxAduLength) (exception : ExceptionCode) :
    ∃ func set, resp.function = .ok func ∧ setExceptionCode resp exception = .ok set ∧
      resp.Rewritten set 2 ∧ KeepsBelow resp.pduBegin resp set ∧
      set.pdu[0]? = some (func.code ||| exceptionFlag) ∧ set.pdu[1]? = some exception.code := by
  have room := length_pdu_of_full full
  simp only [maxPduLength] at room
  have first : resp.pdu[0]? = some resp.pdu[0] := List.getElem?_eq_getElem (by omega)
  generalize resp.pdu[0] = byte at first
  have function_eq : resp.function = .ok (.ofByte byte) := by
    have read := byte_pdu first
    simp only [Int.natCast_zero] at read
    simp only [function, read, ok_bind, pure_eq_ok]
  rcases setByte_pdu (Function.ofByte ((Function.ofByte byte).code ||| exceptionFlag)).code
    (by omega : 0 < resp.pdu.length) with ⟨flagged, flag_eq, flag_rewritten, flag_pdu⟩
  rcases setByte_pdu exception.code
    (by rw [flag_rewritten.length_pdu]; omega : 1 < flagged.pdu.length) with
      ⟨set, set_eq, set_rewritten, set_pdu⟩
  have flag_keeps : KeepsBelow resp.pduBegin resp flagged := (setByte_keepsBelow flag_eq).mono (by omega)
  have set_keeps : KeepsBelow flagged.pduBegin flagged set := (setByte_keepsBelow set_eq).mono (by omega)
  have begin_eq : flagged.pduBegin = resp.pduBegin := by simp only [pduBegin, flag_keeps.net_eq]
  rw [begin_eq] at set_keeps
  simp only [Int.natCast_zero, Int.natCast_one] at flag_eq set_eq
  refine ⟨_, set, function_eq, ?_, flag_rewritten.trans set_rewritten (by omega),
    flag_keeps.trans set_keeps, ?_, ?_⟩
  · simp only [setExceptionCode, function_eq, ok_bind, setFunction, flag_eq, set_eq]
  · rw [set_pdu, List.getElem?_set_ne (by omega), flag_pdu, List.getElem?_set_self (by omega),
      Function.code_ofByte]
  · rw [set_pdu, List.getElem?_set_self (by rw [flag_rewritten.length_pdu]; omega)]

section Master

variable (full : resp.adu.length = resp.maxAduLength) (legal : resp.size ≤ maxPduLength)
  (sameLayer : layer.net = resp.net) (sameDevice : dev.net = resp.net) (sameBuffer : buffer.net = resp.net)
  (bufferFull : buffer.adu.length = buffer.maxAduLength)

include full legal sameLayer sameDevice sameBuffer bufferFull

theorem registers_reach_master {index : UInt16} {values : List UInt16} (some_values : values ≠ [])
    (fits : 2 + 2 * (index.toNat + values.length) ≤ maxPduLength) :
    ∃ set received, setRegisterValues resp index values = .ok set ∧
      set.Reaches layer .master dev arrival buffer received ∧ received.slave = resp.slave ∧
      received.function = resp.function ∧ received.byte 1 = resp.byte 1 ∧
      registerValues received index values.length = .ok values := by
  have room := length_pdu_of_full full
  have begins := resp.pduBegin_pos
  simp only [maxPduLength] at room fits
  have inside : 2 + 2 * (index.toNat + values.length) ≤ resp.pdu.length := by omega
  have small : index.toNat + values.length < 65536 := by omega
  rcases Packing.setRegisters_spec some_values inside small with ⟨set, run, stored⟩
  have keeps := Packing.setRegisters_keepsBelow run
  have begin_eq : set.pduBegin = resp.pduBegin := by simp only [pduBegin, keeps.net_eq]
  rcases set_reaches_master full legal (by simp only [maxPduLength]; omega) keeps
    stored.rewritten.length_eq stored.rewritten.aduSize_eq sameLayer sameDevice sameBuffer bufferFull
      with ⟨received, reaches, arrived, long, slave_eq⟩
  have header : ∀ k : ℕ, k < 2 → set.byte k = resp.byte k := by
    intro k inHeader
    have cell := stored.others k (.inl (by omega))
    rw [getElem?_pdu, getElem?_pdu, begin_eq] at cell
    have place : resp.pduBegin + (k : ℤ) = (resp.pduBegin.toNat + k : ℕ) := by omega
    simp only [byte, begin_eq, place, Storage.read, Int.toNat_natCast, cell]
  have first := header 0 (by decide)
  have second := header 1 (by decide)
  simp only [Int.natCast_zero, Int.natCast_one] at first second
  refine ⟨set, received, run, reaches, slave_eq, ?_, ?_, ?_⟩
  · simp only [function, arrived.byte (i := 0) (by omega) (by omega), first]
  · rw [arrived.byte (by omega) (by omega), second]
  · rw [registerValues, arrived.registers (by omega) (by omega)]
    exact Packing.registers_of_hasRegisters stored.registers (by omega)

theorem bits_reach_master {index : UInt16} {values : List Bool} (some_values : values ≠ [])
    (fits : index.toNat + values.length ≤ 8 * maxPduLength) :
    ∃ set received, setBitValues resp index values = .ok set ∧
      set.Reaches layer .master dev arrival buffer received ∧ received.slave = resp.slave ∧
      bitValues received index values.length = .ok values := by
  have room := length_pdu_of_full full
  simp only [maxPduLength] at room fits
  have someValues := List.length_pos_of_ne_nil some_values
  have inside : 8 * 0 + (index.toNat + values.length) ≤ 8 * resp.pdu.length := by omega
  have small : index.toNat + values.length < 65536 := by omega
  rcases Packing.setBits_spec some_values inside small with ⟨set, run, stored⟩
  have keeps := Packing.setBits_keepsBelow run
  rcases set_reaches_master full legal (by simp only [maxPduLength]; omega) keeps
    stored.rewritten.length_eq stored.rewritten.aduSize_eq sameLayer sameDevice sameBuffer bufferFull
      with ⟨received, reaches, arrived, long, slave_eq⟩
  refine ⟨set, received, run, reaches, slave_eq, ?_⟩
  rw [bitValues, arrived.bits (by omega) (by omega)]
  exact Packing.bits_of_bitAt stored.written (by omega)

/-- The values that are set in a response are the ones that the master gets. Those of registers come with
the function code and the byte count. -/
theorem values_reach_master (index : UInt16) :
    (∀ values : List UInt16, values ≠ [] →
      2 + 2 * (index.toNat + values.length) ≤ maxPduLength →
        ∃ set received, setRegisterValues resp index values = .ok set ∧
          set.Reaches layer .master dev arrival buffer received ∧ received.slave = resp.slave ∧
          received.function = resp.function ∧ received.byte 1 = resp.byte 1 ∧
          registerValues received index values.length = .ok values) ∧
    ∀ values : List Bool, values ≠ [] → index.toNat + values.length ≤ 8 * maxPduLength →
      ∃ set received, setBitValues resp index values = .ok set ∧
        set.Reaches layer .master dev arrival buffer received ∧ received.slave = resp.slave ∧
        bitValues received index values.length = .ok values :=
  ⟨fun _ some_values fits => registers_reach_master full legal sameLayer sameDevice sameBuffer bufferFull
      some_values fits,
    fun _ some_values fits => bits_reach_master full legal sameLayer sameDevice sameBuffer bufferFull
      some_values fits⟩

/-- Whatever a response holds, an exception that is set in it reaches the master with the flagged function
code, which is the one of no other function. -/
theorem exception_reaches_master {exception : ExceptionCode} (named : ∀ byte, exception ≠ .other byte) :
    ∃ func set received, resp.function = .ok func ∧ setExceptionCode resp exception = .ok set ∧
      set.Reaches layer .master dev arrival buffer received ∧ received.slave = resp.slave ∧
      received.function = .ok (.other (func.code ||| exceptionFlag)) ∧
      exceptionCode received = .ok exception := by
  rcases setExceptionCode_spec full exception with
    ⟨func, set, function_eq, run, rewritten, keeps, flag, code⟩
  rcases set_reaches_master full legal (by decide) keeps rewritten.length_eq rewritten.aduSize_eq sameLayer
    sameDevice sameBuffer bufferFull with ⟨received, reaches, arrived, long, slave_eq⟩
  refine ⟨func, set, received, function_eq, run, reaches, slave_eq, ?_, ?_⟩
  · have read := byte_pdu flag
    simp only [Int.natCast_zero] at read
    simp only [function, arrived.byte (i := 0) (by omega) (by omega), read, ok_bind, pure_eq_ok,
      Function.ofByte_flagged]
  · have read := byte_pdu code
    simp only [Int.natCast_one] at read
    simp only [exceptionCode, arrived.byte (i := 1) (by omega) (by omega), read, ok_bind, pure_eq_ok,
      ExceptionCode.ofByte_code named]

end Master

/-- A new response on RTU. -/
theorem values_reach_master_of_registers :
    ∃ resp, Message.create (.layer .rtu) .empty = .ok resp ∧
      ∃ set received, setRegisterValues resp 0 [0x1234, 0xABCD] = .ok set ∧
        set.Reaches .rtu .master (.create .rtu Context.silent) ⟨true, false, none⟩ resp received ∧
        received.slave = resp.slave ∧ received.function = resp.function ∧
        received.byte 1 = resp.byte 1 ∧ registerValues received 0 2 = .ok [0x1234, 0xABCD] := by
  have created : Message.create (.layer .rtu) .empty = .ok _ := rfl
  rcases Message.create_spec created with ⟨bytes, impossible, _⟩ | ⟨_, full, _⟩
  · cases impossible
  · refine ⟨_, created, ?_⟩
    exact (values_reach_master full (by decide) rfl rfl rfl full 0).1 [0x1234, 0xABCD] (by decide)
      (by decide)

theorem exception_reaches_master_of_address :
    ∃ resp, Message.create (.layer .rtu) .empty = .ok resp ∧
      ∃ func set received, resp.function = .ok func ∧
        setExceptionCode resp .illegalDataAddress = .ok set ∧
        set.Reaches .rtu .master (.create .rtu Context.silent) ⟨true, false, none⟩ resp received ∧
        received.slave = resp.slave ∧
        received.function = .ok (.other (func.code ||| exceptionFlag)) ∧
        exceptionCode received = .ok .illegalDataAddress := by
  have created : Message.create (.layer .rtu) .empty = .ok _ := rfl
  rcases Message.create_spec created with ⟨bytes, impossible, _⟩ | ⟨_, full, _⟩
  · cases impossible
  · exact ⟨_, created, exception_reaches_master full (by decide) rfl rfl rfl full
      (fun _ contrary => by cases contrary)⟩

end Response

end Modbuspp
