import Mathlib.Data.List.Induction
import Modbuspp.BufferedSlave.Coherence

/-!
# Updates of whole blocks

The update of a block is one transfer, whatever the size of the block. A block of more cells than one
transfer can carry is therefore refused as a whole, in both directions. A smaller block is updated from
a device that answers, or the device from the block.
-/

namespace Modbuspp

/-- `MODBUS_MAX_READ_BITS` and `MODBUS_MAX_READ_REGISTERS`. -/
def Table.readLimit : Table → ℕ
  | .discreteInput => 2000
  | .coil => 2000
  | .inputRegister => 125
  | .holdingRegister => 125

/-- `MODBUS_MAX_WRITE_BITS` and `MODBUS_MAX_WRITE_REGISTERS`. -/
def Table.writeLimit : Table → ℕ
  | .discreteInput => 1968
  | .coil => 1968
  | .inputRegister => 123
  | .holdingRegister => 123

/-- The number of cells is one that a single transfer can carry. -/
def Transfer.WithinLimits : Transfer → Prop
  | .read t _ nb => nb ≤ t.readLimit
  | .write t _ src => src.length ≤ t.writeLimit
  | .writeAndRead _ src _ readNb => src.length ≤ 121 ∧ readNb ≤ 125
  | .writeOne _ _ _ => True
  | .reportSlaveId _ => True

instance (transfer : Transfer) : Decidable transfer.WithinLimits := by
  cases transfer <;> simp only [Transfer.WithinLimits] <;> infer_instance

/-- The cells from an address on are cells that a Modbus address can name. -/
def Addressable (address nb : ℤ) : Prop := 0 ≤ address ∧ 1 ≤ nb ∧ address + nb ≤ 65536

instance (address nb : ℤ) : Decidable (Addressable address nb) := inferInstanceAs (Decidable (_ ∧ _))

/-- The transfer names existing cells only. -/
def Transfer.Addressed : Transfer → Prop
  | .read _ addr nb => Addressable addr nb
  | .write _ addr src => Addressable addr src.length
  | .writeAndRead writeAddr src readAddr readNb =>
      Addressable writeAddr src.length ∧ Addressable readAddr readNb
  | .writeOne _ addr _ => Addressable addr 1
  | .reportSlaveId _ => True

instance (transfer : Transfer) : Decidable transfer.Addressed := by
  cases transfer <;> simp only [Transfer.Addressed] <;> infer_instance

theorem Transfer.spoil_self (transfer : Transfer) (cells : Cells) :
    transfer.spoil cells cells = cells := by
  rw [Transfer.spoil]
  split
  · rfl
  · funext t place
    exact ite_self _

/-- Equipment that has all cells and answers every transfer within the limits. A transfer above them is
refused before it is sent, so it leaves the cells as they are. -/
structure Equipment.Obliging (equipment : Equipment) : Prop where
  answers : ∀ history transfer, transfer.WithinLimits → transfer.Addressed →
    equipment.succeeds history transfer = true
  refuses : ∀ history transfer, ¬transfer.WithinLimits → equipment.succeeds history transfer = false
  unsent : ∀ history transfer, ¬transfer.WithinLimits →
    equipment.residue history transfer = equipment.cells history

namespace Station

/-- The update of a block succeeds, and the whole block has the cells of the equipment, which stay. -/
def PullsBlock (st : Station) (equipment : Equipment) (t : Table) : Prop :=
  ∃ after, st.updateBlockFromSlave t = (.ok (st.slave.map t).nb, after) ∧
    equipment.cells after.sent = equipment.cells st.sent ∧
    ∀ place, (st.slave.map t).start ≤ place → place < (st.slave.map t).start + (st.slave.map t).nb →
      (after.slave.map t).valueAt place = some (equipment.cells after.sent t place)

/-- The update of the equipment succeeds, and it has all the cells of the block, which stay. -/
def PushesBlock (st : Station) (equipment : Equipment) (t : Table) : Prop :=
  ∃ after, st.updateSlaveFromBlock t = (.ok (st.slave.map t).nb, after) ∧
    after.slave = st.slave ∧
    ∀ place, (st.slave.map t).start ≤ place → place < (st.slave.map t).start + (st.slave.map t).nb →
      (st.slave.map t).valueAt place = some (equipment.cells after.sent t place)

/-- An update fails and changes neither the blocks nor the equipment. -/
def Refuses (st : Station) (equipment : Equipment) (run : Except Fault ℤ × Station) : Prop :=
  ∃ after, run = (.ok (-1), after) ∧ after.slave = st.slave ∧
    equipment.cells after.sent = equipment.cells st.sent

end Station

namespace Block

variable {α : Type} {block : Block α} {values : List α}

/-- The block with all of its cells replaced. -/
def filled (block : Block α) (values : List α) : Block α := { block with tab := some values }

theorem store_all (same : values.length = block.cells.length) :
    block.store 0 values = .ok (block.filled values) := by
  have stored := Storage.blit_eq_some block.cells 0 values (Int.le_refl 0) (by omega)
  rw [Int.toNat_zero, Storage.overwrite_all same.symm] at stored
  simp only [store, stored, filled]

theorem slice_all (length : block.nb = block.cells.length) :
    block.slice 0 block.nb = .ok block.cells := by
  have taken := Storage.slice_eq_some block.cells 0 block.nb.toNat (Int.le_refl 0) (by omega)
  rw [Int.toNat_zero, List.drop_zero, List.take_of_length_le (by omega)] at taken
  simp only [slice, taken, checked_some]

theorem elementAt_of_only {value : α} (only : block.cells = [value]) :
    block.elementAt 0 = .ok value := by
  rw [elementAt, only]
  rfl

theorem LaidOut.filled_cells (laid : block.LaidOut) (some_nb : 1 ≤ block.nb) :
    block.filled block.cells = block := by
  rcases laid with ⟨_, none_left⟩ | ⟨cells, storage, _⟩
  · omega
  · rcases block with ⟨start, nb, tab⟩
    subst storage
    rfl

theorem copyIn_all (laid : block.LaidOut) (some_nb : 1 ≤ block.nb) :
    block.copyIn 0 block.nb block.cells = .ok block := by
  have length := laid.nb_eq
  have nonneg : ¬block.nb < 0 := by omega
  have taken := slice_all length
  have stored : block.store 0 block.cells = .ok (block.filled block.cells) := store_all rfl
  rw [slice, checked_eq_ok_iff] at taken
  rw [laid.filled_cells some_nb] at stored
  simp only [copyIn, if_neg nonneg, ok_bind, taken, checked_some, stored]

end Block

namespace Station

variable {st : Station} {t : Table} {payload : Payload}

/-- The read of the whole block. -/
def pull (st : Station) (t : Table) : Transfer :=
  .read t (st.slave.map t).start (st.slave.map t).nb

/-- The write of the whole block, for which there is another function when it has one cell. -/
def push (st : Station) (t : Table) : Transfer :=
  match (st.slave.map t).cells with
  | [value] => .writeOne t (st.slave.map t).start value
  | cells => .write t (st.slave.map t).start cells

theorem contains_start (addressed : Addressable (st.slave.map t).start (st.slave.map t).nb) :
    (st.slave.map t).Contains (st.slave.map t).start := by
  rcases addressed with ⟨_, some_nb, last⟩
  exact Block.contains_of_near (by omega) (Int.le_refl _) (by omega)

/-- The cells of an answer, as many as the block has. -/
def pulled (st : Station) (t : Table) (payload : Payload) : List t.Cell :=
  (List.range (st.slave.map t).nb.toNat).map (payload.cells t)

theorem length_pulled (laid : (st.slave.map t).LaidOut) (payload : Payload) :
    (st.pulled t payload).length = (st.slave.map t).cells.length := by
  have length := laid.nb_eq
  rw [pulled, List.length_map, List.length_range]
  omega

/-- The station after an answer, which is in the block. -/
def afterPull (st : Station) (t : Table) (payload : Payload) : Station :=
  (st.transferred (st.pull t)).withBlock t ((st.slave.map t).filled (st.pulled t payload))

theorem readBlock_whole (opened : st.isOpen = true) (accepted : st.accepted = true)
    (laid : (st.slave.map t).LaidOut)
    (addressed : Addressable (st.slave.map t).start (st.slave.map t).nb) :
    st.readBlock t (st.slave.dataAddress (st.slave.map t).start) (st.slave.map t).nb (fun addr nb =>
        st.slave.toSlave.exchange st.device (.read t (st.slave.pduAddress addr) nb)) =
      match st.answer (st.pull t) with
      | none => (.ok (-1, none), st.transferred (st.pull t))
      | some payload =>
          (.ok ((st.slave.map t).nb, some (st.pulled t payload)), st.afterPull t payload) := by
  have contains : (st.slave.map t).Contains
      (st.slave.pduAddress (st.slave.dataAddress (st.slave.map t).start)) := by
    rw [Slave.pduAddress_dataAddress]
    exact contains_start addressed
  have some_nb := addressed.2.1
  rcases readBlock_spec opened laid.nb_eq contains (by omega : 0 ≤ (st.slave.map t).nb) with
    ⟨quantity, transfer, remaining_eq, transfer_eq, run⟩
  rw [Slave.pduAddress_dataAddress] at remaining_eq transfer_eq run
  have whole : quantity = (st.slave.map t).nb := by
    rw [← remaining_eq, Block.remaining]
    omega
  subst whole
  subst transfer_eq
  rw [run, if_pos accepted]
  cases answered : st.answer (st.pull t) with
  | none =>
      rw [pull] at answered
      rw [answered]
      rfl
  | some payload =>
      have overwritten := Storage.overwrite_all (st.length_pulled laid payload).symm
      rw [pulled] at overwritten
      rw [pull] at answered
      simp only [answered, stored, Int.sub_self, Int.toNat_zero, overwritten]
      rfl

theorem updateFromSlave_eq (opened : st.isOpen = true) (accepted : st.accepted = true)
    (laid : (st.slave.map t).LaidOut)
    (addressed : Addressable (st.slave.map t).start (st.slave.map t).nb) :
    st.updateFromSlave t (fun addr nb =>
        st.slave.toSlave.exchange st.device (.read t (st.slave.pduAddress addr) nb)) =
      match st.answer (st.pull t) with
      | none => (.ok (-1), st.transferred (st.pull t))
      | some payload => (.ok (st.slave.map t).nb, st.afterPull t payload) := by
  have positive : 0 < (st.slave.map t).nb := addressed.2.1
  simp only [updateFromSlave, opened, positive, and_self, if_true,
    readBlock_whole opened accepted laid addressed]
  cases st.answer (st.pull t) with
  | none => rfl
  | some payload =>
      have here : (st.afterPull t payload).slave.map t =
          (st.slave.map t).filled (st.pulled t payload) := Function.update_self ..
      have stored : ((st.slave.map t).filled (st.pulled t payload)).store 0 (st.pulled t payload) =
          .ok ((st.slave.map t).filled (st.pulled t payload)) := Block.store_all rfl
      simp only [here, stored]
      rw [← here, withBlock_self]

/-- The write of the whole block, whichever of the two it is. -/
theorem push_cases (laid : (st.slave.map t).LaidOut) :
    (∃ value, (st.slave.map t).cells = [value] ∧ (st.slave.map t).nb = 1 ∧
        st.push t = .writeOne t (st.slave.map t).start value) ∨
      (st.slave.map t).nb ≠ 1 ∧
        st.push t = .write t (st.slave.map t).start (st.slave.map t).cells := by
  have length := laid.nb_eq
  by_cases one : (st.slave.map t).nb = 1
  · rcases List.length_eq_one_iff.mp (by omega : (st.slave.map t).cells.length = 1) with ⟨value, only⟩
    exact Or.inl ⟨value, only, one, by simp only [push, only]⟩
  · refine Or.inr ⟨one, ?_⟩
    rw [push]
    split
    · next value only =>
      rw [only, List.length_singleton] at length
      exact absurd length one
    · rfl

/-- The transfer of the whole block. -/
theorem transferBlock_whole (opened : st.isOpen = true) (accepted : st.accepted = true)
    (laid : (st.slave.map t).LaidOut) :
    st.transferBlock t (st.slave.dataAddress (st.slave.map t).start) (st.slave.map t) 0
        (st.slave.map t).nb
        (fun addr value =>
          st.slave.toSlave.exchange st.device (.writeOne t (st.slave.pduAddress addr) value))
        (fun addr src =>
          st.slave.toSlave.exchange st.device (.write t (st.slave.pduAddress addr) src)) =
      (.ok ((st.push t).result (st.answer (st.push t))), st.transferred (st.push t)) := by
  rcases push_cases laid with ⟨value, only, one, transfer⟩ | ⟨several, transfer⟩
  · simp only [transferBlock, opened, if_true, if_pos one, Block.elementAt_of_only only,
      Slave.pduAddress_dataAddress, exchange_eq opened, accepted, transfer]
    rfl
  · simp only [transferBlock, opened, if_true, if_neg several, Block.slice_all laid.nb_eq,
      Slave.pduAddress_dataAddress, exchange_eq opened, accepted, transfer]
    rfl

/-- The write of the whole block stores the cells of the block in the block itself. -/
theorem storeBlock_whole (laid : (st.slave.map t).LaidOut)
    (addressed : Addressable (st.slave.map t).start (st.slave.map t).nb)
    (transfer : Station → Block t.Cell → ℤ → ℤ → Except Fault ℤ × Station) :
    st.storeBlock t (st.slave.dataAddress (st.slave.map t).start) (st.slave.map t).cells
        (st.slave.map t).nb transfer =
      transfer st (st.slave.map t) 0 (st.slave.map t).nb := by
  have whole : min (st.slave.map t).nb ((st.slave.map t).nb - 0) = (st.slave.map t).nb := by omega
  simp only [storeBlock, Slave.pduAddress_dataAddress, if_pos (contains_start addressed), Int.sub_self,
    whole, Block.copyIn_all laid addressed.2.1, withBlock_self]

theorem updateSlave_eq (opened : st.isOpen = true) (accepted : st.accepted = true)
    (laid : (st.slave.map t).LaidOut)
    (addressed : Addressable (st.slave.map t).start (st.slave.map t).nb)
    {writeOne : ℤ → t.Cell → Except Fault ℤ × Station}
    {write : ℤ → List t.Cell → ℤ → Except Fault ℤ × Station}
    (single : ∀ addr value, writeOne addr value = write addr [value] 1)
    (several : ∀ addr src nb, write addr src nb =
      st.storeBlock t addr src nb fun st block offset nb =>
        st.transferBlock t addr block offset nb
          (fun addr value =>
            st.slave.toSlave.exchange st.device (.writeOne t (st.slave.pduAddress addr) value))
          (fun addr src =>
            st.slave.toSlave.exchange st.device (.write t (st.slave.pduAddress addr) src))) :
    st.updateSlave t writeOne write =
      (.ok ((st.push t).result (st.answer (st.push t))), st.transferred (st.push t)) := by
  have positive : 0 < (st.slave.map t).nb := addressed.2.1
  have written : write (st.slave.dataAddress (st.slave.map t).start) (st.slave.map t).cells
      (st.slave.map t).nb =
        (.ok ((st.push t).result (st.answer (st.push t))), st.transferred (st.push t)) := by
    rw [several, storeBlock_whole laid addressed]
    exact transferBlock_whole opened accepted laid
  simp only [updateSlave, opened, positive, and_self, if_true]
  rcases push_cases laid with ⟨value, only, one, _⟩ | ⟨more, _⟩
  · rw [only, one] at written
    simp only [if_pos one, Block.elementAt_of_only only, single, written]
  · rw [if_neg more]
    exact written

theorem updateSlaveFromBlock_eq (opened : st.isOpen = true) (accepted : st.accepted = true)
    (laid : (st.slave.map t).LaidOut)
    (addressed : Addressable (st.slave.map t).start (st.slave.map t).nb)
    (writable : t = .coil ∨ t = .holdingRegister) :
    st.updateSlaveFromBlock t =
      (.ok ((st.push t).result (st.answer (st.push t))), st.transferred (st.push t)) := by
  rcases writable with rfl | rfl
  · exact updateSlave_eq opened accepted laid addressed (fun _ _ => rfl) fun _ _ _ => rfl
  · exact updateSlave_eq opened accepted laid addressed (fun _ _ => rfl) fun _ _ _ => rfl

theorem updateBlockFromSlave_eq (st : Station) (t : Table) :
    st.updateBlockFromSlave t = st.updateFromSlave t (fun addr nb =>
      st.slave.toSlave.exchange st.device (.read t (st.slave.pduAddress addr) nb)) := by
  cases t <;> rfl

/-- The cells that came with the answer are at their addresses. -/
theorem valueAt_afterPull (payload : Payload) {place : ℤ} (lower : (st.slave.map t).start ≤ place)
    (upper : place < (st.slave.map t).start + (st.slave.map t).nb) :
    ((st.afterPull t payload).slave.map t).valueAt place =
      some (payload.cells t (place - (st.slave.map t).start).toNat) := by
  have here : (st.afterPull t payload).slave.map t =
      (st.slave.map t).filled (st.pulled t payload) := Function.update_self ..
  rw [here, Block.valueAt, Storage.read_eq_some_iff]
  refine ⟨Int.sub_nonneg.mpr lower, ?_⟩
  change (st.pulled t payload)[(place - (st.slave.map t).start).toNat]? = _
  rw [pulled, List.getElem?_map, List.getElem?_range (by omega), Option.map_some]

section Obliging

variable {equipment : Equipment} (obliging : equipment.Obliging) (opened : st.isOpen = true)
  (behind : st.Behind equipment) (laid : ∀ t, (st.slave.map t).LaidOut)

include obliging opened behind laid

/-- A transfer that the equipment answers. -/
theorem answered {transfer : Transfer} (within : transfer.WithinLimits)
    (addressed : transfer.Addressed) :
    ∃ payload, st.answer transfer = some payload ∧
      (∀ t (i : ℕ), payload.cells t i =
        transfer.apply (equipment.cells st.sent) t (transfer.source + i)) ∧
      equipment.cells (st.transferred transfer).sent = transfer.apply (equipment.cells st.sent) := by
  have caches := caches_of_open opened behind laid
  have succeeds := obliging.answers st.sent transfer within addressed
  have after := (caches.transferred transfer).actual_eq
  rw [Equipment.after, if_pos rfl, if_pos succeeds] at after
  have found := caches.answer_eq transfer
  rw [Equipment.answer, if_pos succeeds] at found
  exact ⟨_, found, fun _ _ => rfl, after⟩

/-- A transfer that is refused. -/
theorem refused {transfer : Transfer} (above : ¬transfer.WithinLimits) :
    st.answer transfer = none ∧
      equipment.cells (st.transferred transfer).sent = equipment.cells st.sent := by
  have caches := caches_of_open opened behind laid
  have fails : ¬equipment.succeeds st.sent transfer = true := by
    rw [obliging.refuses st.sent transfer above]
    exact Bool.false_ne_true
  have after := (caches.transferred transfer).actual_eq
  rw [Equipment.after, if_pos rfl, if_neg fails, obliging.unsent st.sent transfer above] at after
  rw [Transfer.spoil_self] at after
  exact ⟨by rw [caches.answer_eq, Equipment.answer, if_neg fails], after⟩

theorem pullsBlock (accepted : st.accepted = true)
    (addressed : Addressable (st.slave.map t).start (st.slave.map t).nb)
    (within : (st.slave.map t).nb ≤ t.readLimit) : st.PullsBlock equipment t := by
  have fits : (st.pull t).WithinLimits := within
  have exist : (st.pull t).Addressed := addressed
  rcases answered obliging opened behind laid fits exist with ⟨payload, answer_eq, delivered, after⟩
  have run := updateFromSlave_eq opened accepted (laid t) addressed
  rw [answer_eq] at run
  refine ⟨st.afterPull t payload, (st.updateBlockFromSlave_eq t).trans run, after, ?_⟩
  intro place lower upper
  have address : (st.slave.map t).start + ((place - (st.slave.map t).start).toNat : ℤ) = place := by
    omega
  have same : equipment.cells (st.afterPull t payload).sent = equipment.cells st.sent := after
  rw [valueAt_afterPull payload lower upper, delivered, same]
  simp only [pull, Transfer.source, address]
  rfl

theorem pull_refused (accepted : st.accepted = true)
    (addressed : Addressable (st.slave.map t).start (st.slave.map t).nb)
    (above : t.readLimit < (st.slave.map t).nb) :
    st.Refuses equipment (st.updateBlockFromSlave t) := by
  have beyond : ¬(st.pull t).WithinLimits := by
    simp only [pull, Transfer.WithinLimits]
    omega
  rcases refused obliging opened behind laid beyond with ⟨answer_eq, after⟩
  have run := updateFromSlave_eq opened accepted (laid t) addressed
  rw [answer_eq] at run
  exact ⟨_, (st.updateBlockFromSlave_eq t).trans run, rfl, after⟩

theorem pushesBlock (accepted : st.accepted = true)
    (addressed : Addressable (st.slave.map t).start (st.slave.map t).nb)
    (writable : t = .coil ∨ t = .holdingRegister)
    (within : (st.slave.map t).nb ≤ t.writeLimit) : st.PushesBlock equipment t := by
  have length := (laid t).nb_eq
  -- Both functions store the cells of the block and count them.
  have spec : (st.push t).WithinLimits ∧ (st.push t).Addressed ∧
      (∀ payload, (st.push t).result (some payload) = (st.slave.map t).nb) ∧
      (st.push t).stored = some ⟨t, (st.slave.map t).start, (st.slave.map t).cells⟩ := by
    rcases push_cases (laid t) with ⟨value, only, one, transfer⟩ | ⟨_, transfer⟩
    · rw [transfer, only]
      rw [one] at addressed ⊢
      exact ⟨trivial, addressed, fun _ => rfl, rfl⟩
    · rw [transfer]
      rw [length] at addressed within ⊢
      exact ⟨by exact_mod_cast within, addressed, fun _ => rfl, rfl⟩
  rcases spec with ⟨fits, exist, counted, stored⟩
  rcases answered obliging opened behind laid fits exist with ⟨payload, answer_eq, _, after⟩
  have run := updateSlaveFromBlock_eq opened accepted (laid t) addressed writable
  rw [answer_eq, counted] at run
  refine ⟨_, run, rfl, ?_⟩
  intro place lower upper
  have found := List.getElem?_eq_getElem
    (by omega : (place - (st.slave.map t).start).toNat < (st.slave.map t).cells.length)
  rw [after, Transfer.apply, stored]
  simp only [Cells.store, Function.update_self]
  rw [Memory.store_inside lower found, Block.valueAt, Storage.read_eq_some_iff]
  exact ⟨Int.sub_nonneg.mpr lower, found⟩

theorem push_refused (accepted : st.accepted = true)
    (addressed : Addressable (st.slave.map t).start (st.slave.map t).nb)
    (writable : t = .coil ∨ t = .holdingRegister) (above : t.writeLimit < (st.slave.map t).nb) :
    st.Refuses equipment (st.updateSlaveFromBlock t) := by
  have length := (laid t).nb_eq
  have positive : 1 ≤ t.writeLimit := by cases t <;> decide
  have beyond : ¬(st.push t).WithinLimits := by
    rcases push_cases (laid t) with ⟨_, _, one, _⟩ | ⟨_, transfer⟩
    · omega
    · simp only [transfer, Transfer.WithinLimits]
      omega
  rcases refused obliging opened behind laid beyond with ⟨answer_eq, after⟩
  have run := updateSlaveFromBlock_eq opened accepted (laid t) addressed writable
  rw [answer_eq] at run
  exact ⟨_, run, rfl, after⟩

end Obliging

/-- The updates of a block that one transfer can carry succeed and make the block and the equipment agree
on all of it; those of a larger block are refused and change nothing. -/
theorem wholeBlock_updates {equipment : Equipment} (obliging : equipment.Obliging) (opened : st.isOpen = true)
    (behind : st.Behind equipment) (accepted : st.accepted = true)
    (laid : ∀ t, (st.slave.map t).LaidOut) (t : Table)
    (addressed : Addressable (st.slave.map t).start (st.slave.map t).nb) :
    ((st.slave.map t).nb ≤ t.readLimit → st.PullsBlock equipment t) ∧
    (t.readLimit < (st.slave.map t).nb → st.Refuses equipment (st.updateBlockFromSlave t)) ∧
    (t = .coil ∨ t = .holdingRegister →
      ((st.slave.map t).nb ≤ t.writeLimit → st.PushesBlock equipment t) ∧
      (t.writeLimit < (st.slave.map t).nb → st.Refuses equipment (st.updateSlaveFromBlock t))) := by
  refine ⟨?_, ?_, ?_⟩
  · exact pullsBlock obliging opened behind laid accepted addressed
  · exact pull_refused obliging opened behind laid accepted addressed
  · intro writable
    exact ⟨pushesBlock obliging opened behind laid accepted addressed writable,
      push_refused obliging opened behind laid accepted addressed writable⟩

end Station

namespace Equipment

/-- The cells that the answered transfers leave of cells that are all zero. -/
def regularCells (history : List Sent) : Cells :=
  history.foldl (fun cells sent =>
    if sent.slave = 1 ∧ sent.transfer.WithinLimits ∧ sent.transfer.Addressed then
      sent.transfer.apply cells
    else cells) fun t _ => t.zero

/-- The slave 1, which answers the transfers within the limits that name existing cells. -/
def regular : Equipment where
  id := 1
  initial := fun t _ => t.zero
  succeeds := fun _ transfer => decide (transfer.WithinLimits ∧ transfer.Addressed)
  residue := fun history _ => regularCells history
  report := []

theorem regularCells_append (history : List Sent) (sent : Sent) :
    regularCells (history ++ [sent]) =
      if sent.slave = 1 ∧ sent.transfer.WithinLimits ∧ sent.transfer.Addressed then
        sent.transfer.apply (regularCells history)
      else regularCells history := by
  rw [regularCells, List.foldl_append]
  rfl

theorem cells_regular (history : List Sent) : regular.cells history = regularCells history := by
  induction history using List.reverseRecOn with
  | nil => rfl
  | append_singleton history sent ih =>
      rw [cells_append, ih, regularCells_append]
      by_cases own : sent.slave = 1
      · by_cases answers : sent.transfer.WithinLimits ∧ sent.transfer.Addressed
        · simp only [after, regular, own, answers, and_self, decide_true, if_true]
        · simp only [after, regular, own, answers, and_false, decide_false, Bool.false_eq_true,
            if_true, if_false, Transfer.spoil_self]
      · simp only [after, regular, own, false_and, if_false]

theorem regular_obliging : regular.Obliging where
  answers := by
    intro history transfer within addressed
    exact decide_eq_true ⟨within, addressed⟩
  refuses := by
    intro history transfer above
    exact decide_eq_false fun both => above both.1
  unsent := by
    intro history transfer above
    exact (cells_regular history).symm

end Equipment

namespace Station

/-- A slave with a block of holding registers at the first addresses, behind an open device on the link
of this equipment. -/
def attached (registers : List UInt16) : Station :=
  { holding 0 registers with
    device := some
      { Device.create .rtu { Context.silent with
          answer := fun history sent => Equipment.regular.answer history sent.transfer } with
        isOpen := true } }

theorem attached_laidOut {registers : List UInt16} (nonempty : 0 < registers.length) (t : Table) :
    ((attached registers).slave.map t).LaidOut := by
  cases t with
  | holdingRegister => exact Or.inr ⟨registers, rfl, rfl, nonempty⟩
  | coil => exact Or.inl ⟨rfl, rfl⟩
  | discreteInput => exact Or.inl ⟨rfl, rfl⟩
  | inputRegister => exact Or.inl ⟨rfl, rfl⟩

theorem attached_block (registers : List UInt16) :
    (attached registers).slave.map .holdingRegister =
      { start := 0, nb := registers.length, tab := some registers } := rfl

theorem attached_behind (registers : List UInt16) : (attached registers).Behind Equipment.regular :=
  ⟨rfl, _, rfl, fun _ _ => rfl⟩

theorem wholeBlock_updates_of_two :
    (attached [7, 8]).PullsBlock Equipment.regular .holdingRegister ∧
      (attached [7, 8]).PushesBlock Equipment.regular .holdingRegister := by
  have updates := wholeBlock_updates Equipment.regular_obliging rfl (attached_behind [7, 8]) rfl
    (attached_laidOut (by decide)) .holdingRegister (by decide)
  exact ⟨updates.1 (by decide), (updates.2.2 (Or.inr rfl)).1 (by decide)⟩

/-- A block of 126 holding registers is too large for a single transfer. -/
theorem large_block_refused : ¬ ∀ (st : Station) (equipment : Equipment) (t : Table),
    equipment.Obliging → st.isOpen = true → st.Behind equipment → st.accepted = true →
      (∀ t, (st.slave.map t).LaidOut) →
        Addressable (st.slave.map t).start (st.slave.map t).nb →
          st.PullsBlock equipment t ∧
            (t = .coil ∨ t = .holdingRegister → st.PushesBlock equipment t) := by
  intro updates
  have count : (List.replicate 126 (0 : UInt16)).length = 126 := List.length_replicate
  have laid := attached_laidOut (by omega : 0 < (List.replicate 126 (0 : UInt16)).length)
  have behind := attached_behind (List.replicate 126 0)
  have block := attached_block (List.replicate 126 0)
  generalize List.replicate 126 (0 : UInt16) = registers at count laid behind block
  have nb_eq : ((attached registers).slave.map .holdingRegister).nb = 126 := by
    rw [block]
    exact congrArg Nat.cast count
  have start_eq : ((attached registers).slave.map .holdingRegister).start = 0 := by rw [block]
  have addressed : Addressable ((attached registers).slave.map .holdingRegister).start
      ((attached registers).slave.map .holdingRegister).nb := by
    rw [start_eq, nb_eq]
    decide
  have above : Table.holdingRegister.readLimit <
      ((attached registers).slave.map .holdingRegister).nb := by
    rw [nb_eq]
    decide
  rcases (updates (attached registers) _ .holdingRegister Equipment.regular_obliging rfl behind rfl
    laid addressed).1 with ⟨after, run, _⟩
  rcases pull_refused Equipment.regular_obliging rfl behind laid rfl addressed above with ⟨_, failed, _⟩
  have same := Except.ok.inj (congrArg Prod.fst (run.symm.trans failed))
  omega

end Station

end Modbuspp
