import Modbuspp.Message.Layer

/-!
# The buffer of a message

The accessors index the buffer without a check, so their safety rests on its length. An edited
message stays inside a buffer of the full length of its net; a constructor that takes over the bytes
of a shorter ADU does not provide one, and a later edit or the CRC of an RTU frame leaves it.
-/

namespace Modbuspp.Message

/-- A call that may change the buffer of a message or its length. -/
inductive Edit where
  | setByte (pduOffset : ℤ) (value : UInt8)
  | setWord (pduOffset : ℤ) (value : UInt16)
  | setFunction (func : Function)
  | setSlaveId (id : ℤ)
  | setStartingAdress (addr : UInt16)
  | setQuantity (n : UInt16)
  | setSize (size : ℕ)
  | setPdu (data : List UInt8)
  | setPduFrom (src : Message)
  | clear

/-- The message after a call. -/
def Edit.apply (edit : Edit) (msg : Message) : Except Fault Message :=
  match edit with
  | .setByte pduOffset value => msg.setByte pduOffset value
  | .setWord pduOffset value => msg.setWord pduOffset value
  | .setFunction func => msg.setFunction func
  | .setSlaveId id => msg.setSlaveId id
  | .setStartingAdress addr => msg.setStartingAdress addr
  | .setQuantity n => msg.setQuantity n
  | .setSize size => .ok (msg.setSize size)
  | .setPdu data => msg.setPdu data
  | .setPduFrom src => msg.setPduFrom src
  | .clear => msg.clear

/-- The message after the calls of a list. -/
def applyEdits (msg : Message) (edits : List Edit) : Except Fault Message :=
  edits.foldlM (fun msg edit => edit.apply msg) msg

/-- The recorded size lies in the buffer and within the bound of the net. -/
def Fits (msg : Message) : Prop :=
  msg.aduSize ≤ msg.adu.length ∧ msg.aduSize ≤ msg.maxAduLength

instance (msg : Message) : Decidable msg.Fits :=
  inferInstanceAs (Decidable (_ ∧ _))

/-- The limits that the documentation sets to the arguments of an edit. -/
def Edit.Documented (net : Net) : Edit → Prop
  | .setByte pduOffset _ => -net.headerLength ≤ pduOffset ∧ pduOffset ≤ maxPduLength - 1
  | .setWord pduOffset _ => -net.headerLength ≤ pduOffset ∧ pduOffset ≤ maxPduLength - 2
  | .setSize size => size ≤ maxPduLength
  | .setPdu data => data.length ≤ maxPduLength
  | .setPduFrom src => src.size ≤ maxPduLength ∧ src.Fits
  | _ => True

/-- Whatever documented edits are made, all accesses stay in the buffer, and so do those of a final
preparation of a PDU of legal length. -/
def BufferSafe (msg : Message) : Prop :=
  ∀ edits : List Edit, (∀ edit ∈ edits, edit.Documented msg.net) →
    ∃ edited, msg.applyEdits edits = .ok edited ∧ edited.Fits ∧
      ∀ layer : NetLayer, layer.net = msg.net → edited.size ≤ maxPduLength →
        ∃ done prepared next,
          edited.prepareToSend layer = .ok (done, prepared, next) ∧ prepared.Fits

/-- The buffer has the full length of the net and contains the recorded ADU. -/
structure FullBuffer (msg : Message) : Prop where
  length_eq : msg.adu.length = msg.maxAduLength
  aduSize_le : msg.aduSize ≤ msg.maxAduLength

theorem FullBuffer.fits {msg : Message} (full : msg.FullBuffer) : msg.Fits := by
  have := full.length_eq
  have := full.aduSize_le
  exact ⟨by omega, by omega⟩

theorem FullBuffer.setByte {msg : Message} (full : msg.FullBuffer) (pduOffset : ℤ)
    (value : UInt8) (lower : -msg.pduBegin ≤ pduOffset) (upper : pduOffset < maxPduLength) :
    ∃ edited, msg.setByte pduOffset value = .ok edited ∧ edited.net = msg.net ∧
      edited.FullBuffer := by
  have limits := msg.pduBegin_cases
  have length := full.length_eq
  have size := full.aduSize_le
  simp only [maxPduLength] at upper
  have place : msg.pduBegin + pduOffset = ((msg.pduBegin + pduOffset).toNat : ℤ) := by omega
  refine ⟨_, setByte_ok pduOffset _ value place (by omega), rfl, ?_, ?_⟩
  · rw [List.length_set]
    exact length
  · change max _ _ ≤ msg.maxAduLength
    omega

theorem FullBuffer.setWord {msg : Message} (full : msg.FullBuffer) (pduOffset : ℤ)
    (value : UInt16) (lower : -msg.pduBegin ≤ pduOffset) (upper : pduOffset + 1 < maxPduLength) :
    ∃ edited, msg.setWord pduOffset value = .ok edited ∧ edited.net = msg.net ∧
      edited.FullBuffer := by
  have limits := msg.pduBegin_cases
  have length := full.length_eq
  have size := full.aduSize_le
  simp only [maxPduLength] at upper
  have place : msg.pduBegin + pduOffset = ((msg.pduBegin + pduOffset).toNat : ℤ) := by omega
  refine ⟨_, setWord_ok pduOffset _ value place (by omega), rfl, ?_, ?_⟩
  · rw [List.length_set, List.length_set]
    exact length
  · change max _ _ ≤ msg.maxAduLength
    omega

theorem FullBuffer.setSize {msg : Message} {size : ℕ} (full : msg.FullBuffer)
    (upper : size ≤ maxPduLength) : (msg.setSize size).FullBuffer where
  length_eq := full.length_eq
  aduSize_le := by
    have limits := msg.pduBegin_cases
    simp only [maxPduLength] at upper
    change (msg.pduBegin + size).toNat ≤ msg.maxAduLength
    omega

theorem FullBuffer.blit {msg : Message} {data : List UInt8} (full : msg.FullBuffer)
    (upper : data.length ≤ maxPduLength) :
    ∃ adu, Storage.blit msg.adu msg.pduBegin data = some adu ∧
      ({ msg with adu }.setSize data.length).FullBuffer := by
  have limits := msg.pduBegin_cases
  have length := full.length_eq
  have size := full.aduSize_le
  simp only [maxPduLength] at upper
  have stored := Storage.blit_eq_some msg.adu msg.pduBegin data (by omega) (by omega)
  refine ⟨_, stored, FullBuffer.setSize ⟨?_, size⟩ (by simp only [maxPduLength]; omega)⟩
  exact (Storage.length_of_blit stored).trans length

/-- Clearing gives any message a full buffer. -/
theorem clear_fullBuffer (msg : Message) :
    ∃ edited, msg.clear = .ok edited ∧ edited.net = msg.net ∧ edited.FullBuffer := by
  let emptied := { msg with adu := Storage.resize msg.adu msg.maxAduLength 0, aduSize := 0 }
  have emptiedFull : emptied.FullBuffer :=
    ⟨Storage.length_resize _ _ _, Nat.zero_le _⟩
  by_cases tcp : msg.net = .tcp
  · have limits := msg.pduBegin_cases
    have numbered := emptiedFull.setByte (-1) (UInt8.ofNat (tcpSlave % 256 : ℤ).toNat)
      (by change -msg.pduBegin ≤ -1; omega) (by decide)
    simpa only [Message.clear, if_pos tcp, setSlaveId] using numbered
  · exact ⟨emptied, by simp only [Message.clear, if_neg tcp, emptied], rfl, emptiedFull⟩

/-- A documented edit of a message with a full buffer stays in the buffer and keeps it full. -/
theorem FullBuffer.apply {msg : Message} {edit : Edit} (full : msg.FullBuffer)
    (documented : edit.Documented msg.net) :
    ∃ edited, edit.apply msg = .ok edited ∧ edited.net = msg.net ∧ edited.FullBuffer := by
  have begin_eq : msg.net.headerLength = msg.pduBegin := rfl
  have begin_pos := msg.pduBegin_pos
  cases edit with
  | setByte pduOffset value =>
      rcases documented with ⟨lower, upper⟩
      exact full.setByte pduOffset value lower (by omega)
  | setWord pduOffset value =>
      rcases documented with ⟨lower, upper⟩
      exact full.setWord pduOffset value lower (by omega)
  | setFunction func => exact full.setByte 0 func.code (by omega) (by decide)
  | setSlaveId id => exact full.setByte (-1) _ (by omega) (by decide)
  | setStartingAdress addr => exact full.setWord 1 addr (by omega) (by decide)
  | setQuantity n => exact full.setWord 3 n (by omega) (by decide)
  | setSize size => exact ⟨_, rfl, rfl, full.setSize documented⟩
  | setPdu data =>
      rcases full.blit documented with ⟨adu, stored, edited⟩
      refine ⟨{ msg with adu }.setSize data.length, ?_, rfl, edited⟩
      simp only [Edit.apply, Message.setPdu, stored, checked_some, ok_bind, pure_eq_ok]
  | setPduFrom src =>
      rcases documented with ⟨short, fits, _⟩
      have sourceBegin := src.pduBegin_pos
      have taken : ∃ data, Storage.slice src.adu src.pduBegin src.size = some data ∧
          data.length = src.size := by
        by_cases empty : src.size = 0
        · exact ⟨[], by simp [Storage.slice, empty], by simp [empty]⟩
        · have extent : (src.aduSize : ℤ) = src.pduBegin + src.size :=
            aduSize_eq_of_size_pos (by omega)
          have found := Storage.slice_eq_some src.adu src.pduBegin src.size (by omega)
            (by omega)
          exact ⟨_, found, Storage.length_of_slice found⟩
      rcases taken with ⟨data, found, length⟩
      rcases full.blit (le_of_eq_of_le length short) with ⟨adu, stored, edited⟩
      refine ⟨{ msg with adu }.setSize data.length, ?_, rfl, edited⟩
      simp only [Edit.apply, Message.setPduFrom, found, stored, checked_some, ok_bind, pure_eq_ok,
        length]
  | clear => exact msg.clear_fullBuffer

theorem FullBuffer.applyEdits {msg : Message} {edits : List Edit} (full : msg.FullBuffer)
    (documented : ∀ edit ∈ edits, edit.Documented msg.net) :
    ∃ edited, msg.applyEdits edits = .ok edited ∧ edited.net = msg.net ∧ edited.FullBuffer := by
  induction edits generalizing msg with
  | nil => exact ⟨msg, rfl, rfl, full⟩
  | cons edit edits ih =>
      rcases full.apply (documented edit (by simp)) with ⟨next, applied, sameNet, nextFull⟩
      have remaining : ∀ later ∈ edits, later.Documented next.net := by
        intro later laterMem
        rw [sameNet]
        exact documented later (List.mem_cons_of_mem edit laterMem)
      rcases ih nextFull remaining with ⟨edited, rest, restNet, editedFull⟩
      refine ⟨edited, ?_, restNet.trans sameNet, editedFull⟩
      simp only [Message.applyEdits, List.foldlM_cons, applied, ok_bind]
      exact rest

theorem FullBuffer.prepareToSend {msg : Message} {layer : NetLayer} (full : msg.FullBuffer)
    (same : layer.net = msg.net) (short : msg.size ≤ maxPduLength) :
    ∃ done prepared next,
      msg.prepareToSend layer = .ok (done, prepared, next) ∧ prepared.Fits := by
  have limits := msg.pduBegin_cases
  have length := full.length_eq
  have size := full.aduSize_le
  simp only [maxPduLength] at short
  by_cases empty : msg.size = 0
  · exact ⟨_, _, _, prepareToSend_empty empty, full.fits⟩
  · have extent : (msg.aduSize : ℤ) = msg.pduBegin + msg.size :=
      aduSize_eq_of_size_pos (by omega)
    have trailer : msg.aduSize + msg.net.trailerLength ≤ msg.maxAduLength := by
      rcases limits with ⟨rtu, begin_eq, max_eq⟩ | ⟨tcp, begin_eq, max_eq⟩
      · simp only [rtu, Net.trailerLength]
        omega
      · simp only [tcp, Net.trailerLength]
        omega
    rcases prepareToSend_ok same (by omega) (by omega) with
      ⟨prepared, next, done, _, framed⟩
    have preparedLength := framed.length_eq
    have preparedSize := framed.aduSize_eq
    have preparedMax : prepared.maxAduLength = msg.maxAduLength := by
      simp only [maxAduLength, framed.net_eq]
    exact ⟨true, prepared, next, done, by omega, by omega⟩

theorem FullBuffer.bufferSafe {msg : Message} (full : msg.FullBuffer) : msg.BufferSafe := by
  intro edits documented
  rcases full.applyEdits documented with ⟨edited, applied, sameNet, editedFull⟩
  refine ⟨edited, applied, editedFull.fits, ?_⟩
  intro layer same short
  exact editedFull.prepareToSend (same.trans sameNet.symm) short

/-- The content a message is built with brings or leaves a buffer of the full length of the net:
only the bytes of an ADU can be too few. -/
def Content.FillsBuffer (content : Content) (net : Net) : Prop :=
  match content with
  | .empty => True
  | .adu bytes => bytes.length = net.maxAduLength
  | .function _ => True

/-- The ADU a message is built from respects the bound of the net. -/
def Content.WithinBound (content : Content) (net : Net) : Prop :=
  match content with
  | .empty => True
  | .adu bytes => bytes.length ≤ net.maxAduLength
  | .function _ => True

theorem Origin.blank_spec {origin : Origin} {msg : Message} (built : origin.blank = .ok msg) :
    msg.aduSize = 0 ∧ msg.isResponse = false ∧ msg.adu = blankAdu msg.net := by
  have source : ∃ net onWire backend, Message.blank net onWire backend = .ok msg := by
    cases origin with
    | net n =>
        cases n with
        | rtu => exact ⟨.rtu, by decide, false, built⟩
        | tcp => exact ⟨.tcp, by decide, false, built⟩
        | noNet => cases built
    | layer b => exact ⟨b.net, b.net_ne_noNet, true, built⟩
    | device backend =>
        cases backend with
        | none => cases built
        | some b => exact ⟨b.net, b.net_ne_noNet, true, built⟩
  rcases source with ⟨net, onWire, backend, found⟩
  rw [blank_eq] at found
  cases found
  exact ⟨rfl, rfl, rfl⟩

theorem create_spec {origin : Origin} {content : Content} {msg : Message}
    (created : create origin content = .ok msg) :
    (∃ bytes, content = .adu bytes ∧ msg.adu = bytes ∧ msg.aduSize = bytes.length) ∨
      ((∀ bytes, content ≠ .adu bytes) ∧ msg.adu.length = msg.maxAduLength ∧ msg.aduSize = 0) := by
  simp only [create, bind_eq_ok_iff] at created
  rcases created with ⟨blank, built, filled⟩
  rcases Origin.blank_spec built with ⟨noSize, _, buffer⟩
  cases content with
  | empty =>
      cases filled
      right
      exact ⟨by simp, by rw [buffer, length_blankAdu]; rfl, noSize⟩
  | adu bytes =>
      cases filled
      left
      exact ⟨bytes, rfl, rfl, rfl⟩
  | function f =>
      right
      simp only [bind_eq_ok_iff] at filled
      rcases filled with ⟨adu, stored, done⟩
      cases done
      cases written : Storage.write blank.adu blank.pduBegin f.code with
      | none => simp [written] at stored
      | some cells =>
          simp only [written, checked_some, Except.ok.injEq] at stored
          subst stored
          refine ⟨by simp, ?_, noSize⟩
          change cells.length = blank.maxAduLength
          rw [Storage.length_of_write written, buffer, length_blankAdu]
          rfl

/-- A new message is safe to edit exactly when its constructor filled the buffer. -/
theorem bufferSafe_iff_fillsBuffer {origin : Origin} {content : Content} {msg : Message}
    (created : create origin content = .ok msg) (bounded : content.WithinBound msg.net) :
    msg.BufferSafe ↔ content.FillsBuffer msg.net := by
  have limits := msg.pduBegin_cases
  have max_eq : msg.maxAduLength = msg.net.maxAduLength := rfl
  rcases create_spec created with ⟨bytes, rfl, buffer, extent⟩ | ⟨other, length, noSize⟩
  · simp only [Content.WithinBound] at bounded
    simp only [Content.FillsBuffer]
    constructor
    · intro safe
      rcases safe [.setSize maxPduLength] (by simp [Edit.Documented]) with
        ⟨edited, applied, fits, prepared⟩
      cases applied
      have edited : (msg.setSize maxPduLength).adu.length = bytes.length := by
        rw [← buffer]
        rfl
      have pdu : ((msg.setSize maxPduLength).aduSize : ℤ) = msg.pduBegin + 253 := by
        change ((msg.pduBegin + (maxPduLength : ℕ)).toNat : ℤ) = _
        simp only [maxPduLength]
        omega
      rcases fits with ⟨inBuffer, _⟩
      rcases limits with ⟨rtu, begin_eq, rtuMax⟩ | ⟨tcp, begin_eq, tcpMax⟩
      · -- The PDU fits, but its CRC needs the last two bytes of a full buffer.
        by_contra short
        have nonempty : 1 ≤ (msg.setSize maxPduLength).size :=
          size_pos_iff.mpr (by change msg.pduBegin < _; omega)
        have legal : (msg.setSize maxPduLength).size ≤ maxPduLength := by
          have extent := aduSize_eq_of_size_pos nonempty
          change _ = msg.pduBegin + _ at extent
          change (msg.setSize maxPduLength).size ≤ 253
          omega
        have same : NetLayer.rtu.net = (msg.setSize maxPduLength).net := rtu.symm
        have outside := prepareToSend_noRoom same rtu nonempty (by omega)
        rcases prepared .rtu rtu.symm legal with ⟨done, prepared, next, sent, _⟩
        rw [outside] at sent
        cases sent
      · omega
    · intro filled
      exact FullBuffer.bufferSafe ⟨by rw [buffer]; omega, by omega⟩
  · have full : msg.FullBuffer := ⟨length, by omega⟩
    refine ⟨fun _ => ?_, fun _ => full.bufferSafe⟩
    cases content with
    | empty => trivial
    | adu bytes => exact absurd rfl (other bytes)
    | function f => trivial

theorem bufferSafe_iff_fillsBuffer_of_empty :
    ∃ msg, create (.net .rtu) .empty = .ok msg ∧
      (msg.BufferSafe ↔ Content.FillsBuffer .empty msg.net) := by
  have created : create (.net .rtu) .empty = .ok _ := rfl
  exact ⟨_, created, bufferSafe_iff_fillsBuffer created trivial⟩

/-- A request built from the six bytes of its ADU leaves the buffer when it is prepared. -/
theorem not_bufferSafe_of_shortAdu :
    ∃ msg, create (.net .rtu) (.adu [0x21, 3, 0, 0, 0, 1]) = .ok msg ∧
      Content.WithinBound (.adu [0x21, 3, 0, 0, 0, 1]) msg.net ∧
      msg.prepareToSend .rtu = .error .outOfBounds ∧ ¬msg.BufferSafe := by
  refine ⟨_, rfl, (by decide : 6 ≤ 256), rfl, ?_⟩
  intro safe
  rcases safe [] (by simp) with ⟨edited, applied, _, prepared⟩
  cases applied
  rcases prepared .rtu rfl (by decide) with ⟨done, frame, next, sent, _⟩
  cases sent

end Modbuspp.Message
