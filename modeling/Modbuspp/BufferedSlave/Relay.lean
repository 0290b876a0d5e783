import Mathlib.Algebra.Group.Int.Defs
import Modbuspp.BufferedSlave.Basic

/-!
# The relay of a buffered slave

Around the reply to a request, a slave with an open device first reads the requested cells from the
device into its block, and then writes the cells of its block to the device. Each of the eight cases
clamps the request to the block in the same way, and passes the address to the functions of `Slave`
in the same way. The sum in that address is parsed as the condition of the conditional expression.
-/

namespace Modbuspp

/-- The start of a request moved into the block. The address of the last element is a sum of type `int`,
which wraps around in a block that ends above the greatest one, as no block from 0 on does. Such a sum is
negative, and so it is the smaller one; the offset that is computed from it wraps back to the one of the
last element, which the sum stands for here. -/
def Block.clamp {α : Type} (block : Block α) (start : ℤ) : ℤ :=
  let last := block.start + block.nb - 1
  if 0 < block.start ∧ 2 ^ 31 ≤ last then last else min (max start block.start) last

/-- A buffered slave together with the device it points to. -/
structure Station where
  slave : BufferedSlave
  device : Option Device

namespace Station

/-- The device of the slave is open. -/
def isOpen (st : Station) : Bool := st.slave.toSlave.isOpen st.device

/-- A new slave behind an open device. -/
def fresh : Station where
  slave := BufferedSlave.create 1 (some 0)
  device := some { Device.create .rtu Context.silent with isOpen := true }

/-- A slave with one block of holding registers behind an open device. -/
def holding (start : ℤ) (registers : List UInt16) : Station :=
  { fresh with
    slave := { fresh.slave with
      map := Function.update fresh.slave.map .holdingRegister
        { start, nb := registers.length, tab := some registers } } }

/-- The address `start + pduAddressing() ? 0 : 1`. -/
def relayAddress (st : Station) (start : ℤ) : ℤ :=
  if start + (if st.slave.pduAddressing then 1 else 0) ≠ 0 then 0 else 1

variable (st : Station) (t : Table)

/-- A read of `readFromDevice`. -/
def relayRead (start nb : ℤ)
    (read : ℤ → ℤ → Except Fault (ℤ × Option Payload) × Option Device) :
    Except Fault ℤ × Station :=
  let block := st.slave.map t
  let start := block.clamp start
  let offset := start - block.start
  let nb := min nb (block.nb - offset)
  match block.elementAt offset with
  | .error fault => (.error fault, st)
  | .ok _ =>
      match read (st.relayAddress start) nb with
      | (.error fault, device) => (.error fault, { st with device })
      | (.ok (rc, none), device) => (.ok rc, { st with device })
      | (.ok (rc, some payload), device) =>
          match block.store offset ((List.range nb.toNat).map (payload.cells t)) with
          | .error fault => (.error fault, { st with device })
          | .ok block =>
              (.ok rc, { slave := { st.slave with map := Function.update st.slave.map t block },
                         device })

/-- A write of one cell of `writeToDevice`. -/
def relayWriteOne (start : ℤ)
    (write : ℤ → t.Cell → Except Fault (ℤ × Option Payload) × Option Device) :
    Except Fault ℤ × Station :=
  let block := st.slave.map t
  let start := block.clamp start
  let offset := start - block.start
  match block.elementAt offset with
  | .error fault => (.error fault, st)
  | .ok value =>
      match write (st.relayAddress start) value with
      | (.error fault, device) => (.error fault, { st with device })
      | (.ok (rc, _), device) => (.ok rc, { st with device })

/-- A write of several cells of `writeToDevice`. -/
def relayWrite (start nb : ℤ)
    (write : ℤ → List t.Cell → Except Fault (ℤ × Option Payload) × Option Device) :
    Except Fault ℤ × Station :=
  let block := st.slave.map t
  let start := block.clamp start
  let offset := start - block.start
  let nb := min nb (block.nb - offset)
  match (do let _ ← block.elementAt offset; block.slice offset nb) with
  | .error fault => (.error fault, st)
  | .ok src =>
      match write (st.relayAddress start) src with
      | (.error fault, device) => (.error fault, { st with device })
      | (.ok (rc, _), device) => (.ok rc, { st with device })

/-- The case of `ReportServerId` of `readFromDevice`. The vector is resized when the transfer failed,
and the failure is a negative size. -/
def relayReportServerId : Except Fault ℤ × Station :=
  let idReport := Storage.resize st.slave.idReport maxPduLength 0
  match st.slave.toSlave.reportSlaveId st.device idReport.length with
  | (.error fault, device) => (.error fault, { slave := { st.slave with idReport }, device })
  | (.ok (nb, payload), device) =>
      let idReport :=
        match payload with
        | none => idReport
        | some payload => Storage.overwrite idReport 0 (payload.report.take idReport.length)
      let after := { slave := { st.slave with idReport }, device }
      if nb < 0 then (.error .lengthError, after) else (.ok nb, after)

end Station

/-- The address, the quantity and the function, which both relays read before anything else. -/
def Message.relayFields (req : Message) : Except Fault (ℤ × ℤ × Function) := do
  let start ← req.startingAddress
  let nb ← req.quantity
  let func ← req.function
  pure (start.toNat, nb.toNat, func)

namespace Station

/-- The cells that a request reads are first read from the device into the block. -/
def readFromDevice (st : Station) (req : Option Message) : Except Fault ℤ × Station :=
  match req with
  | none => (.ok (-1), st)
  | some req =>
      if st.isOpen then
        match req.relayFields with
        | .error fault => (.error fault, st)
        | .ok (start, nb, .readCoils) =>
            st.relayRead .coil start nb (st.slave.toSlave.readCoils st.device)
        | .ok (start, nb, .readDiscreteInputs) =>
            st.relayRead .discreteInput start nb (st.slave.toSlave.readDiscreteInputs st.device)
        | .ok (start, nb, .readHoldingRegisters) =>
            st.relayRead .holdingRegister start nb (st.slave.toSlave.readRegisters st.device)
        | .ok (start, nb, .readInputRegisters) =>
            st.relayRead .inputRegister start nb (st.slave.toSlave.readInputRegisters st.device)
        | .ok (_, _, .reportServerId) => st.relayReportServerId
        -- The source has no relay for `ReadWriteMultipleRegisters` yet.
        | .ok _ => (.ok 0, st)
      else (.ok 0, st)

/-- The cells that a request has written are written from the block to the device. -/
def writeToDevice (st : Station) (req : Option Message) : Except Fault ℤ × Station :=
  match req with
  | none => (.ok (-1), st)
  | some req =>
      if st.isOpen then
        match req.relayFields with
        | .error fault => (.error fault, st)
        | .ok (start, _, .writeSingleCoil) =>
            st.relayWriteOne .coil start (st.slave.toSlave.writeCoil st.device)
        | .ok (start, nb, .writeMultipleCoils) =>
            st.relayWrite .coil start nb (st.slave.toSlave.writeCoils st.device)
        | .ok (start, _, .writeSingleRegister) =>
            st.relayWriteOne .holdingRegister start (st.slave.toSlave.writeRegister st.device)
        | .ok (start, nb, .writeMultipleRegisters) =>
            st.relayWrite .holdingRegister start nb (st.slave.toSlave.writeRegisters st.device)
        -- Neither here.
        | .ok _ => (.ok 0, st)
      else (.ok 0, st)

end Station

namespace Function

/-- The table that the relay of a function reads from the device. -/
def reads : Function → Option Table
  | readCoils => some .coil
  | readDiscreteInputs => some .discreteInput
  | readHoldingRegisters => some .holdingRegister
  | readInputRegisters => some .inputRegister
  | _ => none

/-- The table of which a function writes a single cell. -/
def writesOne : Function → Option Table
  | writeSingleCoil => some .coil
  | writeSingleRegister => some .holdingRegister
  | _ => none

/-- The table of which a function writes several cells. -/
def writes : Function → Option Table
  | writeMultipleCoils => some .coil
  | writeMultipleRegisters => some .holdingRegister
  | _ => none

/-- The table that a function is relayed on. -/
def relayed (func : Function) : Option Table :=
  func.reads <|> func.writesOne <|> func.writes

/-- The table that the relay of a function writes to the device. -/
def written (func : Function) : Option Table := func.writesOne <|> func.writes

theorem written_cases {func : Function} {t : Table} (write : func.written = some t) :
    func.writesOne = some t ∨ func.writes = some t := by
  cases func <;> first | exact Or.inl write | exact Or.inr write

theorem written_eq_none {func : Function} (other : func.written = none) :
    func.writesOne = none ∧ func.writes = none := by
  cases func <;> first | exact ⟨rfl, rfl⟩ | cases other

theorem relayed_cases {func : Function} {t : Table} (relay : func.relayed = some t) :
    (func.reads = some t ∧ func.writesOne = none ∧ func.writes = none) ∨
      (func.reads = none ∧ func.writesOne = some t ∧ func.writes = none) ∨
        (func.reads = none ∧ func.writesOne = none ∧ func.writes = some t) := by
  cases func <;> cases relay <;> decide

theorem relayed_of_reads {func : Function} {t : Table} (read : func.reads = some t) :
    func.relayed = some t := by
  cases func <;> first | exact read | cases read

theorem relayed_of_writesOne {func : Function} {t : Table} (write : func.writesOne = some t) :
    func.relayed = some t := by
  cases func <;> first | exact write | cases write

theorem relayed_of_writes {func : Function} {t : Table} (write : func.writes = some t) :
    func.relayed = some t := by
  cases func <;> first | exact write | cases write

end Function

/-- The fields of a request. -/
structure Message.Requests (req : Message) (func : Function) (start nb : ℕ) : Prop where
  fields : req.relayFields = .ok ((start : ℤ), (nb : ℤ), func)

theorem Message.Requests.unique {req : Message} {func other : Function}
    {start first nb quantity : ℕ} (requests : req.Requests func start nb)
    (same : req.Requests other first quantity) : other = func ∧ first = start ∧ quantity = nb := by
  have fields := same.fields.symm.trans requests.fields
  simp only [Except.ok.injEq, Prod.mk.injEq] at fields
  rcases fields with ⟨first_eq, quantity_eq, func_eq⟩
  exact ⟨func_eq, by omega, by omega⟩

namespace Station

variable {st : Station} {req : Message} {func : Function} {t : Table} {start nb : ℕ}

theorem readFromDevice_of_closed (req : Message) (closed : st.isOpen = false) :
    st.readFromDevice (some req) = (.ok 0, st) := by
  simp only [readFromDevice, closed, Bool.false_eq_true, if_false]

theorem writeToDevice_of_closed (req : Message) (closed : st.isOpen = false) :
    st.writeToDevice (some req) = (.ok 0, st) := by
  simp only [writeToDevice, closed, Bool.false_eq_true, if_false]

/-- The four reads are one. -/
theorem readFromDevice_eq (open_ : st.isOpen = true) (requests : req.Requests func start nb)
    (read : func.reads = some t) :
    st.readFromDevice (some req) = st.relayRead t start nb fun addr nb =>
      st.slave.toSlave.exchange st.device (.read t (st.slave.pduAddress addr) nb) := by
  simp only [readFromDevice, if_pos open_, requests.fields]
  cases func <;> cases read <;> rfl

theorem readFromDevice_eq_of_not_reads (open_ : st.isOpen = true)
    (requests : req.Requests func start nb) (other : func.reads = none) :
    st.readFromDevice (some req) =
      if func = .reportServerId then st.relayReportServerId else (.ok 0, st) := by
  simp only [readFromDevice, if_pos open_, requests.fields]
  cases func <;> first | rfl | cases other

theorem readFromDevice_eq_of_written (open_ : st.isOpen = true)
    (requests : req.Requests func start nb) (write : func.written = some t) :
    st.readFromDevice (some req) = (.ok 0, st) := by
  simp only [readFromDevice, if_pos open_, requests.fields]
  cases func <;> first | rfl | cases write

theorem writeToDevice_eq_of_writesOne (open_ : st.isOpen = true)
    (requests : req.Requests func start nb) (write : func.writesOne = some t) :
    st.writeToDevice (some req) = st.relayWriteOne t start fun addr value =>
      st.slave.toSlave.exchange st.device (.writeOne t (st.slave.pduAddress addr) value) := by
  simp only [writeToDevice, if_pos open_, requests.fields]
  cases func <;> cases write <;> rfl

theorem writeToDevice_eq_of_writes (open_ : st.isOpen = true)
    (requests : req.Requests func start nb) (write : func.writes = some t) :
    st.writeToDevice (some req) = st.relayWrite t start nb fun addr src =>
      st.slave.toSlave.exchange st.device (.write t (st.slave.pduAddress addr) src) := by
  simp only [writeToDevice, if_pos open_, requests.fields]
  cases func <;> cases write <;> rfl

theorem writeToDevice_eq_of_not_writes (open_ : st.isOpen = true)
    (requests : req.Requests func start nb) (one : func.writesOne = none)
    (several : func.writes = none) : st.writeToDevice (some req) = (.ok 0, st) := by
  simp only [writeToDevice, if_pos open_, requests.fields]
  cases func <;> first | rfl | (cases one; done) | cases several

/-- Everything that the relay of reads can come to. -/
theorem readFromDevice_cases (st : Station) (req : Option Message) :
    (∃ result, st.readFromDevice req = (result, st)) ∨
      (∃ t start nb, st.readFromDevice req = st.relayRead t start nb fun addr nb =>
        st.slave.toSlave.exchange st.device (.read t (st.slave.pduAddress addr) nb)) ∨
      st.readFromDevice req = st.relayReportServerId := by
  simp only [readFromDevice]
  split
  · exact Or.inl ⟨_, rfl⟩
  · split
    · split
      · exact Or.inl ⟨_, rfl⟩
      · exact Or.inr (Or.inl ⟨.coil, _, _, rfl⟩)
      · exact Or.inr (Or.inl ⟨.discreteInput, _, _, rfl⟩)
      · exact Or.inr (Or.inl ⟨.holdingRegister, _, _, rfl⟩)
      · exact Or.inr (Or.inl ⟨.inputRegister, _, _, rfl⟩)
      · exact Or.inr (Or.inr rfl)
      · exact Or.inl ⟨_, rfl⟩
    · exact Or.inl ⟨_, rfl⟩

/-- Everything that the relay of writes can come to. -/
theorem writeToDevice_cases (st : Station) (req : Option Message) :
    (∃ result, st.writeToDevice req = (result, st)) ∨
      (∃ t start, st.writeToDevice req = st.relayWriteOne t start fun addr value =>
        st.slave.toSlave.exchange st.device (.writeOne t (st.slave.pduAddress addr) value)) ∨
      ∃ t start nb, st.writeToDevice req = st.relayWrite t start nb fun addr src =>
        st.slave.toSlave.exchange st.device (.write t (st.slave.pduAddress addr) src) := by
  simp only [writeToDevice]
  split
  · exact Or.inl ⟨_, rfl⟩
  · split
    · split
      · exact Or.inl ⟨_, rfl⟩
      · exact Or.inr (Or.inl ⟨.coil, _, rfl⟩)
      · exact Or.inr (Or.inr ⟨.coil, _, _, rfl⟩)
      · exact Or.inr (Or.inl ⟨.holdingRegister, _, rfl⟩)
      · exact Or.inr (Or.inr ⟨.holdingRegister, _, _, rfl⟩)
      · exact Or.inl ⟨_, rfl⟩
    · exact Or.inl ⟨_, rfl⟩

/-- The address the relays pass on is right for a request of address zero only. -/
theorem pduAddress_relayAddress_eq_iff (st : Station) :
    st.slave.pduAddress (st.relayAddress start) = start ↔ start = 0 := by
  simp only [Slave.pduAddress, relayAddress]
  cases st.slave.pduAddressing <;> simp only [Bool.false_eq_true, if_false, if_true] <;>
    split <;> omega

end Station

end Modbuspp
