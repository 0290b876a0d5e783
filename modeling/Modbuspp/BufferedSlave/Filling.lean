import Modbuspp.BufferedSlave.Address
import Modbuspp.BufferedSlave.Typed

/-!
# Filling of blocks

A write copies as many values as there is room for into the block that contains its first address, and it
changes nothing else of the slave. This holds behind an open device as well, whatever the device answers.
-/

namespace Modbuspp

namespace Block

variable {α : Type} {block : Block α}

/-- The cells after values have been written from an address on, as many as there is room for. -/
def written (block : Block α) (address : ℤ) (values : List α) : List α :=
  if block.Contains address then
    Storage.overwrite block.cells (address - block.start).toNat
      (values.take (block.nb - (address - block.start)).toNat)
  else block.cells

/-- The block as it is after values have been written to it. -/
structure Filled (block : Block α) (address : ℤ) (values : List α) (after : Block α) : Prop where
  start_eq : after.start = block.start
  nb_eq : after.nb = block.nb
  cells_eq : after.cells = block.written address values

theorem filled_nil (block : Block α) (address : ℤ) : block.Filled address [] block := by
  refine ⟨rfl, rfl, ?_⟩
  simp only [written, List.take_nil, Storage.overwrite, List.append_nil, List.length_nil,
    Nat.add_zero, List.take_append_drop, ite_self]

theorem copyIn_filled (laid : block.LaidOut) {address : ℤ} (contains : block.Contains address)
    (values : List α) :
    ∃ after, block.copyIn (address - block.start)
        (min values.length (block.nb - (address - block.start))) values = .ok after ∧
      block.Filled address values after ∧ after.cells.length = block.cells.length := by
  have count := laid.nb_eq
  have lower := contains.1
  have upper := contains.lt_end
  let part := values.take (block.nb - (address - block.start)).toNat
  have length : part.length ≤ (block.nb - (address - block.start)).toNat := by
    rw [List.length_take]
    exact Nat.min_le_left _ _
  have taken : Storage.slice values 0
      (min (values.length : ℤ) (block.nb - (address - block.start))).toNat = some part :=
    Storage.slice_min values (by omega)
  have stored : Storage.blit block.cells (address - block.start) part =
      some (Storage.overwrite block.cells (address - block.start).toNat part) :=
    Storage.blit_eq_some _ _ _ (by omega) (by omega)
  have nonneg : ¬min (values.length : ℤ) (block.nb - (address - block.start)) < 0 := by omega
  refine ⟨{ block with
    tab := some (Storage.overwrite block.cells (address - block.start).toNat part) }, ?_,
    ⟨rfl, rfl, ?_⟩, ?_⟩
  · simp only [copyIn, if_neg nonneg, taken, checked_some, ok_bind, store, stored]
  · simp only [written, if_pos contains]
    rfl
  · exact Storage.length_overwrite (by omega)

/-- Setting a block without elements makes new storage, or leaves none. -/
theorem set_empty (zero : α) (scale : ℕ) (start nmemb : ℤ)
    (fresh : Option (ℕ → α)) :
    ∃ rc block, (empty : Block α).set zero scale start nmemb fresh = (.ok rc, block) ∧
      block.LaidOut ∧
        (0 < nmemb ∧ fresh.isSome ∧ block =
            { start, nb := nmemb, tab := some (List.replicate nmemb.toNat zero) } ∨
          ¬(0 < nmemb ∧ fresh.isSome) ∧ block.nb = 0) := by
  by_cases none_asked : nmemb = 0
  · refine ⟨nmemb, { start, nb := nmemb, tab := none }, ?_, Or.inl ⟨rfl, none_asked⟩, Or.inr ?_⟩
    · rw [set, if_pos none_asked]
    · exact ⟨fun granted => by omega, none_asked⟩
  · have resized : (empty : Block α).nb ≠ nmemb := Ne.symm none_asked
    by_cases granted : 0 < nmemb ∧ fresh.isSome
    · rcases Option.isSome_iff_exists.mp granted.2 with ⟨contents, found⟩
      refine ⟨nmemb, { start, nb := nmemb, tab := some (List.replicate nmemb.toNat zero) }, ?_,
        Or.inr ⟨_, rfl, ?_, ?_⟩, Or.inl ⟨granted.1, granted.2, rfl⟩⟩
      · simp only [set, if_neg none_asked, if_pos resized, allocate, found,
          if_pos (Int.le_of_lt granted.1)]
        rfl
      · simp only [List.length_replicate]
        omega
      · rw [List.length_replicate]
        omega
    · have refused : allocate nmemb fresh = none := by
        simp only [allocate]
        split
        · rw [← Option.not_isSome_iff_eq_none]
          intro given
          exact granted ⟨by omega, given⟩
        · rfl
      refine ⟨-1, empty, ?_, empty_laidOut, Or.inr ⟨granted, rfl⟩⟩
      simp only [set, if_neg none_asked, if_pos resized, refused]
      rfl

end Block

namespace Station

variable {st : Station} {t : Table} {k : ℕ} {address : ℤ}

/-- The station after values have been written to one table. -/
def FilledIn (st : Station) (t : Table) (address : ℤ) (values : List t.Cell) (after : Station) : Prop :=
  ∃ block device, (st.slave.map t).Filled address values block ∧
    after = { slave := { st.slave with map := Function.update st.slave.map t block }, device }

theorem filledIn_nil (st : Station) (t : Table) (address : ℤ) : st.FilledIn t address [] st := by
  refine ⟨st.slave.map t, st.device, Block.filled_nil _ _, ?_⟩
  rw [Function.update_eq_self]

theorem storeBlock_filledIn (laid : (st.slave.map t).LaidOut) (addr : ℤ) (values : List t.Cell)
    {transfer : Station → Block t.Cell → ℤ → ℤ → Except Fault ℤ × Station}
    (quiet : ∀ after (block : Block t.Cell) (offset nb : ℤ), 0 ≤ offset → 0 ≤ nb →
      offset + nb ≤ block.cells.length →
        ∃ rc device, transfer after block offset nb = (.ok rc, { after with device })) :
    ∃ rc after, st.storeBlock t addr values values.length transfer = (.ok rc, after) ∧
      st.FilledIn t (st.slave.pduAddress addr) values after := by
  have count := laid.nb_eq
  simp only [storeBlock]
  split
  · next contains =>
    have lower := contains.1
    have upper := contains.lt_end
    rcases Block.copyIn_filled laid contains values with ⟨block, copied, filled, length⟩
    rcases quiet (st.withBlock t block) block (st.slave.pduAddress addr - (st.slave.map t).start)
        (min values.length
          ((st.slave.map t).nb - (st.slave.pduAddress addr - (st.slave.map t).start)))
        (by omega) (by omega) (by omega) with ⟨rc, device, moved⟩
    simp only [copied, moved]
    exact ⟨rc, _, rfl, block, device, filled, rfl⟩
  · next outside =>
    refine ⟨-1, st, rfl, st.slave.map t, st.device, ⟨rfl, rfl, ?_⟩, ?_⟩
    · simp only [Block.written, if_neg outside]
    · rw [Function.update_eq_self]

/-- What follows a write behind an open device leaves the slave alone and returns. -/
theorem transferBlock_quiet (addr : ℤ) (block : Block t.Cell) {offset nb : ℤ} (lower : 0 ≤ offset)
    (some_nb : 0 ≤ nb) (upper : offset + nb ≤ block.cells.length)
    (one : ℤ → t.Cell → Transfer) (several : ℤ → List t.Cell → Transfer) :
    ∃ rc device, st.transferBlock t addr block offset nb
        (fun addr value => st.slave.toSlave.exchange st.device (one addr value))
        (fun addr src => st.slave.toSlave.exchange st.device (several addr src)) =
      (.ok rc, { st with device }) := by
  have returns : st.isOpen = true → ∀ transfer, ∃ rc payload device,
      st.slave.toSlave.exchange st.device transfer = (.ok (rc, payload), device) := by
    intro opened transfer
    rw [exchange_eq opened]
    split
    · exact ⟨_, _, _, rfl⟩
    · exact ⟨_, _, _, rfl⟩
  simp only [transferBlock]
  split
  · next opened =>
    split
    · next single =>
      rcases Block.elementAt_of_lt block offset lower (by omega) with ⟨value, element, _⟩
      rcases returns opened (one addr value) with ⟨rc, payload, device, moved⟩
      simp only [element, moved]
      exact ⟨rc, device, rfl⟩
    · have taken := Storage.slice_eq_some block.cells offset nb.toNat lower (by omega)
      rcases returns opened (several addr ((block.cells.drop offset.toNat).take nb.toNat)) with
        ⟨rc, payload, device, moved⟩
      simp only [Block.slice, taken, checked_some, moved]
      exact ⟨rc, device, rfl⟩
  · exact ⟨nb, st.device, rfl⟩

theorem writeCoils_filledIn (laid : (st.slave.map .coil).LaidOut) (addr : ℤ) (values : List Bool) :
    ∃ rc after, st.writeCoils addr values values.length = (.ok rc, after) ∧
      st.FilledIn .coil (st.slave.pduAddress addr) values after := by
  apply storeBlock_filledIn laid addr
  intro after block offset nb lower some_nb upper
  exact transferBlock_quiet (t := .coil) addr block lower some_nb upper
    (fun addr value => .writeOne .coil (after.slave.pduAddress addr) value)
    (fun addr src => .write .coil (after.slave.pduAddress addr) src)

theorem writeRegisters_filledIn (laid : (st.slave.map .holdingRegister).LaidOut) (addr : ℤ)
    (values : List UInt16) :
    ∃ rc after, st.writeRegisters addr values values.length = (.ok rc, after) ∧
      st.FilledIn .holdingRegister (st.slave.pduAddress addr) values after := by
  apply storeBlock_filledIn laid addr
  intro after block offset nb lower some_nb upper
  exact transferBlock_quiet (t := .holdingRegister) addr block lower some_nb upper
    (fun addr value => .writeOne .holdingRegister (after.slave.pduAddress addr) value)
    (fun addr src => .write .holdingRegister (after.slave.pduAddress addr) src)

theorem writeDiscreteInputs_filledIn (laid : (st.slave.map .discreteInput).LaidOut) (addr : ℤ)
    (values : List Bool) :
    ∃ rc after, st.writeDiscreteInputs addr values values.length = (.ok rc, after) ∧
      st.FilledIn .discreteInput (st.slave.pduAddress addr) values after := by
  apply storeBlock_filledIn laid addr
  intro after block offset nb _ _ _
  exact ⟨nb, after.device, rfl⟩

theorem writeInputRegisters_filledIn (laid : (st.slave.map .inputRegister).LaidOut) (addr : ℤ)
    (values : List UInt16) :
    ∃ rc after, st.writeInputRegisters addr values values.length = (.ok rc, after) ∧
      st.FilledIn .inputRegister (st.slave.pduAddress addr) values after := by
  apply storeBlock_filledIn laid addr
  intro after block offset nb _ _ _
  exact ⟨nb, after.device, rfl⟩

/-- The typed writes pass on the registers of their elements. -/
theorem writeData_filledIn (host : Host) {write : List UInt16 → ℤ → Except Fault ℤ × Station}
    {words : List t.Cell} (data : List (Data k)) {buf : List UInt16} (encodes : encoded host data = buf)
    (run : ∃ rc after, write buf buf.length = (.ok rc, after) ∧ st.FilledIn t address words after) :
    ∃ rc updated after, st.writeData host write data data.length = (.ok (rc, updated), after) ∧
      st.FilledIn t address words after := by
  rcases flatten_eq host (Nat.le_refl data.length) with ⟨updated, flattened, _⟩
  rw [List.take_length, encodes] at flattened
  rcases run with ⟨rc, after, done, filled⟩
  refine ⟨rc, updated, after, ?_, filled⟩
  simp only [writeData, flattened, done]
  rfl

end Station

end Modbuspp
