import Modbuspp.BufferedSlave.Relay

/-!
# Direct access to a buffered slave

The functions by which a program reads and writes the tables of a buffered slave. Each of them looks for
the first address in the block, cuts the quantity to what is left of the block, and copies between the
block and the array of the caller. Behind an open device a read fetches the cells before they are copied,
and a write passes them on afterwards; the functions for inputs only write to the block. The updates call
these functions with the block itself as the array.
-/

namespace Modbuspp

namespace Block

variable {α : Type}

/-- The end of the block, `start + nb`: a sum of type `int`, which wraps around. -/
def bound (block : Block α) : ℤ :=
  if block.start + block.nb < 2 ^ 31 then block.start + block.nb else block.start + block.nb - 2 ^ 32

/-- The first address of an access lies in the block, as far as the code can tell. -/
def Contains (block : Block α) (pduAddr : ℤ) : Prop :=
  block.start ≤ pduAddr ∧ pduAddr < block.bound

instance (block : Block α) (pduAddr : ℤ) : Decidable (block.Contains pduAddr) :=
  inferInstanceAs (Decidable (_ ∧ _))

theorem bound_le (block : Block α) : block.bound ≤ block.start + block.nb := by
  simp only [bound]
  split <;> omega

theorem Contains.lt_end {block : Block α} {pduAddr : ℤ} (contains : block.Contains pduAddr) :
    pduAddr < block.start + block.nb :=
  Int.lt_of_lt_of_le contains.2 block.bound_le

theorem contains_of_near {block : Block α} {pduAddr : ℤ} (near : block.start + block.nb < 2 ^ 31)
    (lower : block.start ≤ pduAddr) (upper : pduAddr < block.start + block.nb) :
    block.Contains pduAddr := by
  refine ⟨lower, ?_⟩
  rw [bound, if_pos near]
  exact upper

/-- No address is found in a block whose end wraps around. -/
theorem not_contains_of_far {block : Block α} (short : block.nb < 2 ^ 31)
    (far : 2 ^ 31 ≤ block.start + block.nb) (pduAddr : ℤ) : ¬block.Contains pduAddr := by
  rintro ⟨lower, upper⟩
  rw [bound, if_neg (by omega)] at upper
  omega

/-- `memcpy` of elements out of the block. A negative number becomes a huge `size_t`. -/
def copyOut (block : Block α) (offset nb : ℤ) : Except Fault (List α) :=
  if nb < 0 then .error .outOfBounds else block.slice offset nb

/-- `memcpy` of the first elements of an array into the block. -/
def copyIn (block : Block α) (offset nb : ℤ) (src : List α) : Except Fault (Block α) := do
  if nb < 0 then throw .outOfBounds
  let values ← checked (Storage.slice src 0 nb.toNat)
  block.store offset values

end Block

/-- What libmodbus leaves in the elements of the block it was given for an answer. -/
def Block.received {t : Table} (block : Block t.Cell) (offset nb : ℤ) :
    Option Payload → Except Fault (Block t.Cell)
  | none => .ok block
  | some payload => block.store offset ((List.range nb.toNat).map (payload.cells t))

namespace Station

variable (st : Station) (t : Table)

/-- The station with another block for a table. -/
def withBlock (block : Block t.Cell) : Station :=
  { st with slave := { st.slave with map := Function.update st.slave.map t block } }

/-- The common form of the reads. The cells are those that are copied to the array of the caller, if it
comes to that. -/
def readBlock (addr nb : ℤ)
    (read : ℤ → ℤ → Except Fault (ℤ × Option Payload) × Option Device) :
    Except Fault (ℤ × Option (List t.Cell)) × Station :=
  let block := st.slave.map t
  let pduAddr := st.slave.pduAddress addr
  if block.Contains pduAddr then
    let offset := pduAddr - block.start
    let nb := min nb (block.nb - offset)
    match block.elementAt offset with
    | .error fault => (.error fault, st)
    | .ok _ =>
        if st.isOpen then
          match read addr nb with
          | (.error fault, device) => (.error fault, { st with device })
          | (.ok (rc, payload), device) =>
              match block.received offset nb payload with
              | .error fault => (.error fault, { st with device })
              | .ok block =>
                  let st := { st with device }.withBlock t block
                  if rc < 0 then (.ok (rc, none), st)
                  else ((block.copyOut offset nb).map fun cells => (nb, some cells), st)
        else ((block.copyOut offset nb).map fun cells => (nb, some cells), st)
  else (.ok (-1, none), st)

/-- The array of the caller after a read. -/
def deliver {α : Type} (dest : List α) (run : Except Fault (ℤ × Option (List α)) × Station) :
    Except Fault (ℤ × List α) × Station :=
  match run with
  | (.error fault, st) => (.error fault, st)
  | (.ok (rc, none), st) => (.ok (rc, dest), st)
  | (.ok (rc, some cells), st) =>
      ((checked (Storage.blit dest 0 cells)).map fun dest => (rc, dest), st)

theorem deliver_some {α : Type} {dest values : List α} (room : values.length ≤ dest.length) (rc : ℤ)
    (st : Station) :
    deliver dest (.ok (rc, some values), st) = (.ok (rc, Storage.overwrite dest 0 values), st) := by
  have delivered := Storage.blit_eq_some dest 0 values (by omega) (by omega)
  simp only [deliver, delivered, checked_some, Int.toNat_zero]
  rfl

/-- The coils of the block from an address on, after they were read from an open device. -/
def readCoils (addr : ℤ) (dest : List Bool) (nb : ℤ) : Except Fault (ℤ × List Bool) × Station :=
  deliver dest (st.readBlock .coil addr nb (st.slave.toSlave.readCoils st.device))

/-- The discrete inputs of the block, read like the coils. -/
def readDiscreteInputs (addr : ℤ) (dest : List Bool) (nb : ℤ) :
    Except Fault (ℤ × List Bool) × Station :=
  deliver dest (st.readBlock .discreteInput addr nb (st.slave.toSlave.readDiscreteInputs st.device))

/-- The holding registers of the block, read like the coils. -/
def readRegisters (addr : ℤ) (dest : List UInt16) (nb : ℤ) :
    Except Fault (ℤ × List UInt16) × Station :=
  deliver dest (st.readBlock .holdingRegister addr nb (st.slave.toSlave.readRegisters st.device))

/-- The input registers of the block, read like the coils. -/
def readInputRegisters (addr : ℤ) (dest : List UInt16) (nb : ℤ) :
    Except Fault (ℤ × List UInt16) × Station :=
  deliver dest (st.readBlock .inputRegister addr nb (st.slave.toSlave.readInputRegisters st.device))

/-- The part that the writes have in common: the elements of the array are copied into the block. What
follows is given the block, the offset and the quantity that was left. -/
def storeBlock (addr : ℤ) (src : List t.Cell) (nb : ℤ)
    (transfer : Station → Block t.Cell → ℤ → ℤ → Except Fault ℤ × Station) :
    Except Fault ℤ × Station :=
  let block := st.slave.map t
  let pduAddr := st.slave.pduAddress addr
  if block.Contains pduAddr then
    let offset := pduAddr - block.start
    let nb := min nb (block.nb - offset)
    match block.copyIn offset nb src with
    | .error fault => (.error fault, st)
    | .ok block => transfer (st.withBlock t block) block offset nb
  else (.ok (-1), st)

/-- The transfer that follows in `writeCoils` and `writeRegisters`. -/
def transferBlock (addr : ℤ) (block : Block t.Cell) (offset nb : ℤ)
    (writeOne : ℤ → t.Cell → Except Fault (ℤ × Option Payload) × Option Device)
    (write : ℤ → List t.Cell → Except Fault (ℤ × Option Payload) × Option Device) :
    Except Fault ℤ × Station :=
  if st.isOpen then
    if nb = 1 then
      match block.elementAt offset with
      | .error fault => (.error fault, st)
      | .ok value =>
          match writeOne addr value with
          | (.error fault, device) => (.error fault, { st with device })
          | (.ok (rc, _), device) => (.ok rc, { st with device })
    else
      match block.slice offset nb with
      | .error fault => (.error fault, st)
      | .ok src =>
          match write addr src with
          | (.error fault, device) => (.error fault, { st with device })
          | (.ok (rc, _), device) => (.ok rc, { st with device })
  else (.ok nb, st)

/-- Coils are stored in the block and, on an open device, written to the slave. -/
def writeCoils (addr : ℤ) (src : List Bool) (nb : ℤ) : Except Fault ℤ × Station :=
  st.storeBlock .coil addr src nb fun st block offset nb =>
    st.transferBlock .coil addr block offset nb (st.slave.toSlave.writeCoil st.device)
      (st.slave.toSlave.writeCoils st.device)

/-- A single coil is written as an array of one. -/
def writeCoil (addr : ℤ) (value : Bool) : Except Fault ℤ × Station := st.writeCoils addr [value] 1

/-- Holding registers are stored and written like the coils. -/
def writeRegisters (addr : ℤ) (src : List UInt16) (nb : ℤ) : Except Fault ℤ × Station :=
  st.storeBlock .holdingRegister addr src nb fun st block offset nb =>
    st.transferBlock .holdingRegister addr block offset nb
      (st.slave.toSlave.writeRegister st.device) (st.slave.toSlave.writeRegisters st.device)

/-- A single holding register is written as an array of one. -/
def writeRegister (addr : ℤ) (value : UInt16) : Except Fault ℤ × Station :=
  st.writeRegisters addr [value] 1

/-- Discrete inputs are stored in the block only: no function of the protocol writes them. -/
def writeDiscreteInputs (addr : ℤ) (src : List Bool) (nb : ℤ) : Except Fault ℤ × Station :=
  st.storeBlock .discreteInput addr src nb fun st _ _ nb => (.ok nb, st)

/-- A single discrete input is stored as an array of one. -/
def writeDiscreteInput (addr : ℤ) (value : Bool) : Except Fault ℤ × Station :=
  st.writeDiscreteInputs addr [value] 1

/-- Input registers are stored in the block only. -/
def writeInputRegisters (addr : ℤ) (src : List UInt16) (nb : ℤ) : Except Fault ℤ × Station :=
  st.storeBlock .inputRegister addr src nb fun st _ _ nb => (.ok nb, st)

/-- A single input register is stored as an array of one. -/
def writeInputRegister (addr : ℤ) (value : UInt16) : Except Fault ℤ × Station :=
  st.writeInputRegisters addr [value] 1

/-- The transaction with the device: the new read quantity, which is that of the answer or an error, and
the block with the answer in it. -/
def exchangeBlock (writeAddr : ℤ) (src : List UInt16) (readAddr readNb offsetRead : ℤ) :
    Except Fault ℤ × Station :=
  if st.isOpen then
    match st.slave.toSlave.writeReadRegisters st.device writeAddr src readAddr readNb with
    | (.error fault, device) => (.error fault, { st with device })
    | (.ok (rc, payload), device) =>
        match (st.slave.map .holdingRegister).received offsetRead readNb payload with
        | .error fault => (.error fault, { st with device })
        | .ok block => (.ok rc, { st with device }.withBlock .holdingRegister block)
  else (.ok readNb, st)

/-- Holding registers are stored and then others read, in one transaction on an open device. Both
addresses must lie in the block. -/
def writeReadRegisters (writeAddr : ℤ) (writeSrc : List UInt16) (writeNb readAddr : ℤ)
    (readDest : List UInt16) (readNb : ℤ) : Except Fault (ℤ × List UInt16) × Station :=
  let block := st.slave.map .holdingRegister
  let pduReadAddr := st.slave.pduAddress readAddr
  let pduWriteAddr := st.slave.pduAddress writeAddr
  if block.Contains pduReadAddr ∧ block.Contains pduWriteAddr then
    let offsetRead := pduReadAddr - block.start
    let offsetWrite := pduWriteAddr - block.start
    let readNb := min readNb (block.nb - offsetRead)
    let writeNb := min writeNb (block.nb - offsetWrite)
    match block.copyIn offsetWrite writeNb writeSrc with
    | .error fault => (.error fault, st)
    | .ok block =>
        let st := st.withBlock .holdingRegister block
        match block.slice offsetWrite writeNb with
        | .error fault => (.error fault, st)
        | .ok src =>
            match st.exchangeBlock writeAddr src readAddr readNb offsetRead with
            | (.error fault, st) => (.error fault, st)
            | (.ok readNb, st) =>
                if 0 ≤ readNb then
                  deliver readDest
                    (((st.slave.map .holdingRegister).copyOut offsetRead readNb).map fun cells =>
                      (readNb, some cells), st)
                else (.ok (readNb, readDest), st)
  else (.ok (-1, readDest), st)

/-- The common form of the updates of a block, whose elements are also the array of the caller. -/
def updateFromSlave (read : ℤ → ℤ → Except Fault (ℤ × Option Payload) × Option Device) :
    Except Fault ℤ × Station :=
  let block := st.slave.map t
  if st.isOpen ∧ 0 < block.nb then
    match st.readBlock t (st.slave.dataAddress block.start) block.nb read with
    | (.error fault, st) => (.error fault, st)
    | (.ok (rc, none), st) => (.ok rc, st)
    | (.ok (rc, some cells), st) =>
        -- `memcpy` of the elements onto themselves.
        match (st.slave.map t).store 0 cells with
        | .error fault => (.error fault, st)
        | .ok block => (.ok rc, st.withBlock t block)
  else (.ok 0, st)

/-- The block of discrete inputs is read whole from an open device. -/
def updateDiscreteInputBlockFromSlave : Except Fault ℤ × Station :=
  st.updateFromSlave .discreteInput (st.slave.toSlave.readDiscreteInputs st.device)

/-- The block of coils is read whole from an open device. -/
def updateCoilBlockFromSlave : Except Fault ℤ × Station :=
  st.updateFromSlave .coil (st.slave.toSlave.readCoils st.device)

/-- The block of holding registers is read whole from an open device. -/
def updateHoldingRegisterBlockFromSlave : Except Fault ℤ × Station :=
  st.updateFromSlave .holdingRegister (st.slave.toSlave.readRegisters st.device)

/-- The block of input registers is read whole from an open device. -/
def updateInputRegisterBlockFromSlave : Except Fault ℤ × Station :=
  st.updateFromSlave .inputRegister (st.slave.toSlave.readInputRegisters st.device)

/-- The block of a table is read whole from an open device. -/
def updateBlockFromSlave (t : Table) : Except Fault ℤ × Station :=
  match t with
  | .discreteInput => st.updateDiscreteInputBlockFromSlave
  | .coil => st.updateCoilBlockFromSlave
  | .inputRegister => st.updateInputRegisterBlockFromSlave
  | .holdingRegister => st.updateHoldingRegisterBlockFromSlave

/-- The common form of the updates of the slave, by the functions of the table for one element and for
several. -/
def updateSlave (writeOne : ℤ → t.Cell → Except Fault ℤ × Station)
    (write : ℤ → List t.Cell → ℤ → Except Fault ℤ × Station) : Except Fault ℤ × Station :=
  let block := st.slave.map t
  if st.isOpen ∧ 0 < block.nb then
    let addr := st.slave.dataAddress block.start
    if block.nb = 1 then
      match block.elementAt 0 with
      | .error fault => (.error fault, st)
      | .ok value => writeOne addr value
    else write addr block.cells block.nb
  else (.ok 0, st)

/-- The block of coils is written whole to an open device. -/
def updateSlaveCoilFromBlock : Except Fault ℤ × Station :=
  st.updateSlave .coil st.writeCoil st.writeCoils

/-- The block of holding registers is written whole to an open device. -/
def updateSlaveHoldingRegisterFromBlock : Except Fault ℤ × Station :=
  st.updateSlave .holdingRegister st.writeRegister st.writeRegisters

/-- The block of a table is written whole to an open device, unless a master cannot write the table. -/
def updateSlaveFromBlock (t : Table) : Except Fault ℤ × Station :=
  match t with
  | .coil => st.updateSlaveCoilFromBlock
  | .holdingRegister => st.updateSlaveHoldingRegisterFromBlock
  | .discreteInput => (.ok (-1), st)
  | .inputRegister => (.ok (-1), st)

end Station

/-- A direct access, with the arrays and quantities of the caller. -/
inductive Access where
  | read (t : Table) (addr : ℤ) (dest : List t.Cell) (nb : ℕ)
  | write (t : Table) (addr : ℤ) (src : List t.Cell) (nb : ℕ)
  | writeOne (t : Table) (addr : ℤ) (value : t.Cell)
  | writeRead (writeAddr : ℤ) (writeSrc : List UInt16) (writeNb : ℕ) (readAddr : ℤ)
      (readDest : List UInt16) (readNb : ℕ)

/-- What an access returns, and the array of the caller after a read. -/
inductive Answer where
  | returned (rc : ℤ)
  | delivered (t : Table) (rc : ℤ) (dest : List t.Cell)

/-- The arrays of the caller are as long as the quantities say. -/
def Access.HasRoom : Access → Prop
  | .read _ _ dest nb => nb ≤ dest.length
  | .write _ _ src nb => nb ≤ src.length
  | .writeOne _ _ _ => True
  | .writeRead _ writeSrc writeNb _ readDest readNb =>
      writeNb ≤ writeSrc.length ∧ readNb ≤ readDest.length

namespace Station

/-- The answer of a call that returns a number. -/
def returning (run : Except Fault ℤ × Station) : Except Fault Answer × Station :=
  (run.1.map .returned, run.2)

/-- The answer of a call that also fills the array of the caller. -/
def delivering (t : Table) (run : Except Fault (ℤ × List t.Cell) × Station) :
    Except Fault Answer × Station :=
  (run.1.map fun (rc, dest) => .delivered t rc dest, run.2)

/-- An access, made by the function of its table. -/
def access (st : Station) : Access → Except Fault Answer × Station
  | .read .coil addr dest nb => delivering .coil (st.readCoils addr dest nb)
  | .read .discreteInput addr dest nb =>
      delivering .discreteInput (st.readDiscreteInputs addr dest nb)
  | .read .holdingRegister addr dest nb =>
      delivering .holdingRegister (st.readRegisters addr dest nb)
  | .read .inputRegister addr dest nb =>
      delivering .inputRegister (st.readInputRegisters addr dest nb)
  | .write .coil addr src nb => returning (st.writeCoils addr src nb)
  | .write .discreteInput addr src nb => returning (st.writeDiscreteInputs addr src nb)
  | .write .holdingRegister addr src nb => returning (st.writeRegisters addr src nb)
  | .write .inputRegister addr src nb => returning (st.writeInputRegisters addr src nb)
  | .writeOne .coil addr value => returning (st.writeCoil addr value)
  | .writeOne .discreteInput addr value => returning (st.writeDiscreteInput addr value)
  | .writeOne .holdingRegister addr value => returning (st.writeRegister addr value)
  | .writeOne .inputRegister addr value => returning (st.writeInputRegister addr value)
  | .writeRead writeAddr writeSrc writeNb readAddr readDest readNb =>
      delivering .holdingRegister
        (st.writeReadRegisters writeAddr writeSrc writeNb readAddr readDest readNb)

end Station

end Modbuspp
