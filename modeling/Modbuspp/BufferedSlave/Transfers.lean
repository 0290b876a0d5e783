import Modbuspp.BufferedSlave.Access

/-!
# Transfers of the relays and of the reads

In a block that has elements the clamping always ends at one of them. A relay then makes one transfer,
on a link that accepts the number of the slave, and none otherwise. So does a direct read that begins in
the block.
-/

namespace Modbuspp

namespace Block

variable {α : Type} {block : Block α}

/-- The number of cells of a request that are left in the block. -/
def remaining (block : Block α) (start nb : ℤ) : ℤ := min nb (block.nb - (start - block.start))

theorem cells_of_some {cells : List α} (found : block.tab = some cells) : block.cells = cells := by
  simp only [Block.cells, found, Option.getD_some]

theorem Sound.cells_spec (sound : block.Sound) (nonempty : block.cells ≠ []) :
    block.nb = block.cells.length ∧ 0 < block.nb := by
  cases found : block.tab with
  | none => simp [Block.cells, found] at nonempty
  | some cells =>
      have := sound.storage cells found
      rw [cells_of_some found]
      omega

/-- A request moved into a block with elements starts at one of them. -/
theorem clamp_bounds (start : ℤ) (sound : block.Sound) (nonempty : block.cells ≠ []) :
    0 ≤ block.clamp start - block.start ∧
      block.clamp start - block.start < block.cells.length := by
  have := sound.cells_spec nonempty
  simp only [clamp]
  split <;> omega

theorem elementAt_of_lt (block : Block α) (offset : ℤ) (lower : 0 ≤ offset)
    (upper : offset < block.cells.length) :
    ∃ value, block.elementAt offset = .ok value ∧ block.cells[offset.toNat]? = some value := by
  rcases Storage.read_of_lt lower upper with ⟨value, found⟩
  refine ⟨value, ?_, (Storage.read_eq_some_iff.mp found).2⟩
  simp only [elementAt, found, checked_some]

theorem elementAt_of_empty (empty : block.cells = []) (offset : ℤ) :
    block.elementAt offset = .error .outOfBounds := by
  have outside : Storage.read block.cells offset = none := by
    rw [Storage.read_eq_none_iff, empty, List.length_nil]
    omega
  simp only [elementAt, outside, checked_none]

end Block

namespace Station

/-- The transfers that the device has sent. -/
def sent (st : Station) : List Sent :=
  match st.device with
  | some dev => dev.ctx.sent
  | none => []

/-- The answer of the device to a transfer to the slave. -/
def answer (st : Station) (transfer : Transfer) : Option Payload :=
  match st.device with
  | some dev => dev.ctx.answer dev.ctx.sent ⟨st.slave.id, transfer⟩
  | none => none

/-- The number of the slave is accepted on the link of its device. -/
def accepted (st : Station) : Bool :=
  match st.device with
  | some dev => dev.ctx.accepts st.slave.id
  | none => false

/-- The mapping after the answer to a read has been stored at the offset of the request. -/
def stored (st : Station) (t : Table) (start : ℤ) (nb : ℕ) (answer : Option Payload) : Mapping :=
  match answer with
  | none => st.slave.map
  | some payload =>
      Function.update st.slave.map t { st.slave.map t with
        tab := some (Storage.overwrite (st.slave.map t).cells (start - (st.slave.map t).start).toNat
          ((List.range nb).map (payload.cells t))) }

/-- The station after a transfer of its slave. -/
def transferred (st : Station) (transfer : Transfer) : Station :=
  { st with device := st.device.map fun dev => Slave.afterTransfer dev st.slave.id transfer }

variable {st : Station} {dev : Device} {t : Table}

theorem sent_transferred (st : Station) (transfer : Transfer) (open_ : st.isOpen = true) :
    (st.transferred transfer).sent = st.sent ++ [⟨st.slave.id, transfer⟩] := by
  rcases Slave.isOpen_iff.mp open_ with ⟨dev, found, _, _⟩
  simp only [sent, transferred, found, Option.map_some, Slave.afterTransfer]

theorem exchange_eq (open_ : st.isOpen = true) (transfer : Transfer) :
    st.slave.toSlave.exchange st.device transfer =
      if st.accepted then
        (.ok (transfer.result (st.answer transfer), st.answer transfer),
          (st.transferred transfer).device)
      else (.ok (-1, none), st.device) := by
  rcases Slave.isOpen_iff.mp open_ with ⟨dev, found, valid, _⟩
  rw [found] at valid
  simp only [accepted, answer, transferred, found, Option.map_some]
  split
  · next accepts => exact Slave.exchange_accepted transfer valid accepts
  · next refused => exact Slave.exchange_refused transfer valid (by simpa using refused)

section Spec

variable (t) (open_ : st.isOpen = true) (sound : (st.slave.map t).Sound)
  (nonempty : (st.slave.map t).cells ≠ []) (start nb : ℤ)

include open_ sound nonempty

theorem relayRead_spec :
    ∃ clamped quantity transfer,
      (st.slave.map t).clamp start = clamped ∧ (st.slave.map t).remaining clamped nb = quantity ∧
      .read t (st.slave.pduAddress (st.relayAddress clamped)) quantity = transfer ∧
      (st.relayRead t start nb fun addr nb =>
          st.slave.toSlave.exchange st.device (.read t (st.slave.pduAddress addr) nb)) =
        if st.accepted then
          (.ok (transfer.result (st.answer transfer)),
            { slave := { st.slave with map := st.stored t clamped quantity.toNat (st.answer transfer) }
              device := (st.transferred transfer).device })
        else (.ok (-1), st) := by
  refine ⟨_, _, _, rfl, rfl, rfl, ?_⟩
  have bounds := Block.clamp_bounds start sound nonempty
  have count := sound.cells_spec nonempty
  rcases Block.elementAt_of_lt _ _ bounds.1 bounds.2 with ⟨value, element, _⟩
  simp only [relayRead, element, exchange_eq open_, Block.remaining]
  generalize (st.slave.map t).clamp start = clamped at bounds
  generalize quantity_eq :
    min nb ((st.slave.map t).nb - (clamped - (st.slave.map t).start)) = quantity
  cases st.accepted with
  | false => rfl
  | true =>
      simp only [if_true]
      cases st.answer (.read t (st.slave.pduAddress (st.relayAddress clamped)) quantity) with
      | none => rfl
      | some payload =>
          have blitted := Storage.blit_eq_some (st.slave.map t).cells
            (clamped - (st.slave.map t).start)
            ((List.range quantity.toNat).map (payload.cells t)) bounds.1
            (by rw [List.length_map, List.length_range]; omega)
          simp only [Block.store, blitted]
          rfl

theorem relayWriteOne_spec :
    ∃ clamped value transfer, (st.slave.map t).clamp start = clamped ∧
      (st.slave.map t).cells[(clamped - (st.slave.map t).start).toNat]? = some value ∧
      .writeOne t (st.slave.pduAddress (st.relayAddress clamped)) value = transfer ∧
      (st.relayWriteOne t start fun addr value =>
          st.slave.toSlave.exchange st.device (.writeOne t (st.slave.pduAddress addr) value)) =
        if st.accepted then (.ok (transfer.result (st.answer transfer)), st.transferred transfer)
        else (.ok (-1), st) := by
  have bounds := Block.clamp_bounds start sound nonempty
  rcases Block.elementAt_of_lt _ _ bounds.1 bounds.2 with ⟨value, element, cell⟩
  refine ⟨_, value, _, rfl, cell, rfl, ?_⟩
  simp only [relayWriteOne, element, exchange_eq open_]
  cases st.accepted <;> rfl

theorem relayWrite_spec :
    ∃ clamped quantity transfer,
      (st.slave.map t).clamp start = clamped ∧ (st.slave.map t).remaining clamped nb = quantity ∧
      .write t (st.slave.pduAddress (st.relayAddress clamped))
        (((st.slave.map t).cells.drop (clamped - (st.slave.map t).start).toNat).take
          quantity.toNat) = transfer ∧
      (st.relayWrite t start nb fun addr src =>
          st.slave.toSlave.exchange st.device (.write t (st.slave.pduAddress addr) src)) =
        if st.accepted then (.ok (transfer.result (st.answer transfer)), st.transferred transfer)
        else (.ok (-1), st) := by
  refine ⟨_, _, _, rfl, rfl, rfl, ?_⟩
  have bounds := Block.clamp_bounds start sound nonempty
  have count := sound.cells_spec nonempty
  rcases Block.elementAt_of_lt _ _ bounds.1 bounds.2 with ⟨value, element, _⟩
  simp only [relayWrite, element, ok_bind, Block.remaining]
  generalize (st.slave.map t).clamp start = clamped at bounds
  generalize quantity_eq :
    min nb ((st.slave.map t).nb - (clamped - (st.slave.map t).start)) = quantity
  have taken := Storage.slice_eq_some (st.slave.map t).cells (clamped - (st.slave.map t).start)
    quantity.toNat bounds.1 (by omega)
  simp only [Block.slice, taken, checked_some, exchange_eq open_]
  cases st.accepted <;> rfl

end Spec

theorem withBlock_self (st : Station) : st.withBlock t (st.slave.map t) = st := by
  simp only [withBlock, Function.update_eq_self]

/-- A read that begins in the block, behind an open device. -/
theorem readBlock_spec (open_ : st.isOpen = true)
    (length : (st.slave.map t).nb = (st.slave.map t).cells.length) {addr nb : ℤ}
    (contains : (st.slave.map t).Contains (st.slave.pduAddress addr)) (nonneg : 0 ≤ nb) :
    ∃ quantity transfer, (st.slave.map t).remaining (st.slave.pduAddress addr) nb = quantity ∧
      .read t (st.slave.pduAddress addr) quantity = transfer ∧
      (st.readBlock t addr nb fun addr nb =>
          st.slave.toSlave.exchange st.device (.read t (st.slave.pduAddress addr) nb)) =
        if st.accepted then
          (.ok (transfer.result (st.answer transfer), (st.answer transfer).map fun payload =>
              (List.range quantity.toNat).map (payload.cells t)),
            { slave := { st.slave with
                map := st.stored t (st.slave.pduAddress addr) quantity.toNat (st.answer transfer) }
              device := (st.transferred transfer).device })
        else (.ok (-1, none), st) := by
  refine ⟨_, _, rfl, rfl, ?_⟩
  simp only [readBlock, if_pos contains, Block.remaining]
  generalize st.slave.pduAddress addr = address at contains
  have lower := contains.1
  have upper := contains.lt_end
  rcases Block.elementAt_of_lt (st.slave.map t) (address - (st.slave.map t).start) (by omega) (by omega)
    with ⟨value, element, _⟩
  generalize quantity_eq : min nb ((st.slave.map t).nb - (address - (st.slave.map t).start)) = quantity
  simp only [element, open_, if_true, exchange_eq open_]
  cases st.accepted with
  | false => exact congrArg (Prod.mk _) st.withBlock_self
  | true =>
      simp only [if_true]
      cases st.answer (.read t address quantity) with
      | none => exact congrArg (Prod.mk _) (withBlock_self _)
      | some payload =>
          generalize values_eq : (List.range quantity.toNat).map (payload.cells t) = values
          have count : values.length = quantity.toNat := by
            rw [← values_eq, List.length_map, List.length_range]
          have place : ((address - (st.slave.map t).start).toNat : ℤ) =
            address - (st.slave.map t).start := by omega
          have positive : ¬quantity < 0 := by omega
          have blitted := Storage.blit_eq_some (st.slave.map t).cells
            (address - (st.slave.map t).start) values (by omega) (by omega)
          have taken := Storage.slice_overwrite (by omega :
            (address - (st.slave.map t).start).toNat + values.length ≤ (st.slave.map t).cells.length)
          rw [place, count] at taken
          generalize overwritten : Storage.overwrite (st.slave.map t).cells
            (address - (st.slave.map t).start).toNat values = cells at blitted taken
          have held : Block.cells { st.slave.map t with tab := some cells } = cells := rfl
          simp only [Block.received, Block.store, values_eq, blitted, Transfer.result, if_neg positive,
            Block.copyOut, Block.slice, held, taken, checked_some]
          simp only [stored, Option.map_some, values_eq, overwritten]
          rfl

end Station

end Modbuspp
