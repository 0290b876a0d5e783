import Modbuspp.BufferedSlave.Filling
import Modbuspp.BufferedSlave.Values

/-!
# Initial values of blocks

The initial values of a block are written from the first address of the mode on, wherever the block starts.
A block that starts there gets them at its beginning. One that starts above it does not contain the address,
and the values are dropped; one that starts below it has them behind its first element. The values that are
written are those that the machine makes of the numbers.
-/

namespace Modbuspp

namespace Json

variable {st : Station} {block : BlockDescription}

/-- What the writes of initial values do: they return, and the table is filled from its first address on
with the given values. -/
def Fills (run : Except Fault ℤ × Station) (st : Station) (t : Table) (values : List t.Cell) : Prop :=
  ∃ rc after, run = (.ok rc, after) ∧
    st.FilledIn t (st.slave.pduAddress (st.slave.dataAddress 0)) values after

theorem fills_nil (st : Station) (t : Table) : Fills (.ok 0, st) st t [] :=
  ⟨0, st, rfl, st.filledIn_nil t _⟩

/-- The bits are written by the function of the table, no more of them than the quantity says. -/
theorem writeBits_fills (st : Station) (block : BlockDescription) (t : Table) {nmemb : ℤ}
    {values : List BitValue} (vect : List Bool) (cells : List t.Cell) (table : block.table = .ok t)
    (quantity : block.quantity = .ok nmemb) (items : block.items = values.map BitValue.json)
    (valuesAddress : block.valuesAddress = .ok none)
    (taken : vect = (values.flatMap BitValue.bits).take nmemb.toNat)
    (coil : t = .coil → Fills (st.writeCoils (st.slave.dataAddress 0) vect vect.length) st t cells)
    (input : t ≠ .coil → Fills (st.writeDiscreteInputs (st.slave.dataAddress 0) vect vect.length)
      st t cells)
    (empty : vect = [] → cells = []) : Fills (writeBits st block) st t cells := by
  simp only [writeBits, quantity, items]
  split
  · next given =>
    rw [getBitValues_json values [] given.2, List.nil_append, ← taken, table, valuesAddress]
    simp only [ok_bind, pure_eq_ok, Option.getD_none]
    split
    · split
      · next is_coil => exact coil is_coil
      · next is_input => exact input is_input
    · next none_taken =>
      rw [empty (List.length_eq_zero_iff.mp (by omega))]
      exact fills_nil st t
  · next missing =>
    have none_taken : vect = [] := by
      rw [not_and_or, not_not, List.map_eq_nil_iff, Int.not_lt] at missing
      rcases missing with rfl | negative
      · rw [taken, List.flatMap_nil, List.take_nil]
      · rw [taken, Int.toNat_of_nonpos negative, List.take_zero]
    rw [empty none_taken]
    exact fills_nil st t

theorem writeRegisters_eq (m : Machine) (st : Station) {t : Table} {nmemb : ℤ} {values : RegisterValues}
    (positive : 0 < nmemb) (table : block.table = .ok t) (quantity : block.quantity = .ok nmemb)
    (dataType : block.dataType = .ok (values.dataType.map IntType.dataEnum))
    (endian : block.endian = .ok values.endian) (items : block.items = values.json)
    (valuesAddress : block.valuesAddress = .ok none) :
    ∃ data : List (Data values.width), encoded m.host data = values.written m.host ∧
      writeRegisters m st block =
        if data = [] then (.ok 0, st)
        else
          let (result, after) :=
            if t = .holdingRegister then
              st.writeRegistersData m.host (st.slave.dataAddress 0) data data.length
            else st.writeInputRegistersData m.host (st.slave.dataAddress 0) data data.length
          (result.map Prod.fst, after) := by
  have type_eq : (values.dataType.map IntType.dataEnum).getD .uint16 = values.type.dataEnum := by
    rw [RegisterValues.type]
    cases values.dataType <;> rfl
  have dispatched :
      writeRegisters m st block = writeRegistersAs m values.type.dataEnum st block := by
    simp only [writeRegisters, dataType]
    rw [type_eq]
  rcases getDataValues_json m.host values.width (values.endian.getD .bigBig)
    values.representable with ⟨data, converted, words⟩
  have found : getDataValues m.host (m.conversion values.type.dataEnum)
      (values.endian.getD .bigBig) block.items = .ok data := by
    rw [conversion_eq, items]
    exact converted
  refine ⟨data, words, ?_⟩
  rw [dispatched]
  simp only [writeRegistersAs, quantity, found, endian, table, valuesAddress, ok_bind, pure_eq_ok,
    Option.getD_none, List.length_pos_iff, ite_not]
  split
  · rfl
  · next missing =>
    have none_given : data = [] := by
      have no_items : block.items = [] := by
        by_contra given
        exact missing ⟨given, positive⟩
      rw [no_items] at found
      cases found
      rfl
    rw [if_pos none_given]

/-- The registers are written by the function of the table, if the quantity is positive. -/
theorem writeRegisters_fills (m : Machine) (st : Station) (block : BlockDescription) (t : Table)
    {nmemb : ℤ} {values : RegisterValues} (cells : List t.Cell) (table : block.table = .ok t)
    (quantity : block.quantity = .ok nmemb)
    (dataType : block.dataType = .ok (values.dataType.map IntType.dataEnum))
    (endian : block.endian = .ok values.endian) (items : block.items = values.json)
    (valuesAddress : block.valuesAddress = .ok none)
    (holding : t = .holdingRegister → Fills (st.writeRegisters (st.slave.dataAddress 0)
      (values.written m.host) (values.written m.host).length) st t cells)
    (input : t ≠ .holdingRegister → Fills (st.writeInputRegisters (st.slave.dataAddress 0)
      (values.written m.host) (values.written m.host).length) st t cells)
    (empty : values.written m.host = [] → cells = []) :
    ∃ vect, (0 < nmemb → vect = cells) ∧ Fills (writeRegisters m st block) st t vect := by
  by_cases positive : 0 < nmemb
  · refine ⟨cells, fun _ => rfl, ?_⟩
    rcases writeRegisters_eq m st positive table quantity dataType endian items
      valuesAddress with ⟨data, words, run⟩
    rw [run]
    split
    · next none_given =>
      have no_cells : cells = [] := by
        apply empty
        rw [← words, none_given, encoded_nil]
      rw [no_cells]
      exact fills_nil st t
    · by_cases is_holding : t = .holdingRegister
      · rcases Station.writeData_filledIn m.host data words (holding is_holding) with
          ⟨rc, updated, after, done, filled⟩
        simp only [if_pos is_holding, Station.writeRegistersData, done]
        exact ⟨rc, after, rfl, filled⟩
      · rcases Station.writeData_filledIn m.host data words (input is_holding) with
          ⟨rc, updated, after, done, filled⟩
        simp only [if_neg is_holding, Station.writeInputRegistersData, done]
        exact ⟨rc, after, rfl, filled⟩
  · have skipped : ¬(block.items ≠ [] ∧ 0 < nmemb) := fun both => positive both.2
    refine ⟨[], fun given => absurd given positive, ?_⟩
    simp only [writeRegisters, writeRegistersAs, dataType, quantity, if_neg skipped]
    exact fills_nil st t

end Json

namespace InitialBlock

variable (b : InitialBlock)

/-- The address the block is set at. -/
def start (slv : BufferedSlave) : ℤ :=
  slv.pduAddress (slv.blockAddress
    ((b.startingAddress.map IntType.int32.cast).getD (slv.dataAddress 0)))

/-- The block before its values are written. -/
def blank (slv : BufferedSlave) : Block b.table.Cell where
  start := b.start slv
  nb := IntType.int32.cast b.nb
  tab := some (List.replicate (IntType.int32.cast b.nb).toNat b.table.zero)

/-- What setting the block leaves in its table: there is no storage for it, or the values that the machine
makes of the given ones have been written to new storage from the first address on. -/
inductive Outcome (host : Host) (slv : BufferedSlave) (memory : (t : Table) → Option (ℕ → t.Cell))
    (after : Block b.table.Cell) : Prop where
  | refused (missing : ¬(0 < IntType.int32.cast b.nb ∧ (memory b.table).isSome))
      (empty : after.nb = 0)
  | filled (positive : 0 < IntType.int32.cast b.nb) (granted : (memory b.table).isSome)
      (vect : List b.table.Cell)
      (given : b.nb < 2 ^ 31 → vect.take b.nb = (b.values.written host).take b.nb)
      (filled : (b.blank slv).Filled 0 vect after)

theorem width_pos {t : Table} (values : InitialValues t) : 0 < values.width := by
  have registers : ∀ T : IntType, 0 < T.dataEnum.registers := by
    intro T
    cases T <;> decide
  cases t with
  | discreteInput => exact Nat.one_pos
  | coil => exact Nat.one_pos
  | inputRegister => exact registers (RegisterValues.type values)
  | holdingRegister => exact registers (RegisterValues.type values)

theorem quantity_le_nb : b.quantity ≤ b.nb := Nat.le_mul_of_pos_right _ (width_pos b.values)

theorem cast_of_small {n : ℕ} (small : n < 2 ^ 31) : IntType.int32.cast n = n := by
  have lowest : IntType.int32.lowest = -2 ^ 31 := rfl
  have highest : IntType.int32.max = 2 ^ 31 - 1 := rfl
  apply IntType.int32.cast_of_representable <;> omega

/-- The values of the description are written, unless there are more elements than an `int` counts. -/
theorem values_fill (m : Machine) (st : Station) (laid : (st.slave.map b.table).LaidOut) :
    ∃ vect, (b.nb < 2 ^ 31 → vect.take b.nb = (b.values.written m.host).take b.nb) ∧
      Json.Fills (if b.table = .inputRegister ∨ b.table = .holdingRegister then
          Json.writeRegisters m st b.description
        else Json.writeBits st b.description) st b.table vect := by
  have counted : b.nb < 2 ^ 31 → IntType.int32.cast b.quantity = b.quantity := by
    intro small
    exact cast_of_small (Nat.lt_of_le_of_lt b.quantity_le_nb small)
  have some_elements := b.positive
  have taken : b.nb < 2 ^ 31 → ∀ bits : List b.table.Cell, b.nb = b.quantity →
      (bits.take (IntType.int32.cast b.quantity).toNat).take b.nb = bits.take b.nb := by
    intro small bits same
    rw [counted small, Int.toNat_natCast, same, List.take_take, Nat.min_self]
  have counts : b.nb < 2 ^ 31 → 0 < IntType.int32.cast b.quantity := by
    intro small
    rw [counted small]
    omega
  rcases b with ⟨table, quantity, positive, startingAddress, values⟩
  cases table with
  | coil =>
      refine ⟨_, fun small => taken small (List.flatMap BitValue.bits values) (Nat.mul_one quantity), ?_⟩
      simp only [reduceCtorEq, or_self, if_false]
      apply Json.writeBits_fills st _ .coil _ _ rfl rfl rfl rfl rfl
      · intro _
        exact Station.writeCoils_filledIn laid _ _
      · exact fun other => absurd rfl other
      · exact id
  | discreteInput =>
      refine ⟨_, fun small => taken small (List.flatMap BitValue.bits values) (Nat.mul_one quantity), ?_⟩
      simp only [reduceCtorEq, or_self, if_false]
      apply Json.writeBits_fills st _ .discreteInput _ _ rfl rfl rfl rfl rfl
      · exact nofun
      · intro _
        exact Station.writeDiscreteInputs_filledIn laid _ _
      · exact id
  | inputRegister =>
      rcases Json.writeRegisters_fills m st
        (description ⟨.inputRegister, quantity, positive, startingAddress, values⟩)
        .inputRegister (RegisterValues.written values m.host) rfl rfl rfl rfl rfl rfl nofun
        (fun _ => Station.writeInputRegisters_filledIn laid _ _) id with ⟨vect, all, fills⟩
      refine ⟨vect, fun small => congrArg _ (all (counts small)), ?_⟩
      simp only [true_or, if_true]
      exact fills
  | holdingRegister =>
      rcases Json.writeRegisters_fills m st
        (description ⟨.holdingRegister, quantity, positive, startingAddress, values⟩)
        .holdingRegister (RegisterValues.written values m.host) rfl rfl rfl rfl rfl rfl
        (fun _ => Station.writeRegisters_filledIn laid _ _)
        (fun other => absurd rfl other) id with ⟨vect, all, fills⟩
      refine ⟨vect, fun small => congrArg _ (all (counts small)), ?_⟩
      simp only [or_true, if_true]
      exact fills

theorem elements_eq :
    Json.elements (IntType.int32.cast b.quantity) b.values.dataType = IntType.int32.cast b.nb := by
  have bits : b.values.dataType = none → b.values.width = 1 →
      Json.elements (IntType.int32.cast b.quantity) b.values.dataType = IntType.int32.cast b.nb := by
    intro none_given single
    rw [none_given, Json.elements, nb, single, Nat.mul_one]
  have registers : ∀ values : RegisterValues,
      b.values.dataType = values.dataType.map IntType.dataEnum → b.values.width = values.width →
      Json.elements (IntType.int32.cast b.quantity) b.values.dataType = IntType.int32.cast b.nb := by
    intro values given width
    cases type : values.dataType with
    | none =>
        apply bits
        · rw [given, type]
          rfl
        · rw [width, RegisterValues.width, RegisterValues.type, type]
          rfl
    | some T =>
        have same : b.values.width = T.dataEnum.registers := by
          rw [width, RegisterValues.width, RegisterValues.type, type]
          rfl
        rw [given, type, Option.map_some, Json.elements, IntType.cast_mul, nb, same, Int.natCast_mul]
  rcases b with ⟨table, quantity, positive, startingAddress, values⟩
  cases table with
  | coil => exact bits rfl rfl
  | discreteInput => exact bits rfl rfl
  | inputRegister => exact registers values rfl rfl
  | holdingRegister => exact registers values rfl rfl

theorem setBlock_eq (m : Machine) {memory : (t : Table) → Option (ℕ → t.Cell)} {st : Station}
    {rc : ℤ} {slave : BufferedSlave} (resized : st.slave.setBlock b.table (IntType.int32.cast b.nb)
      ((b.startingAddress.map IntType.int32.cast).getD (st.slave.dataAddress 0)) (memory b.table) =
        (.ok rc, slave))
    {written : ℤ} {last : Station} (run : (if b.table = .inputRegister ∨ b.table = .holdingRegister then
        Json.writeRegisters m { st with slave } b.description
      else Json.writeBits { st with slave } b.description) = (.ok written, last)) :
    Json.setBlock m memory st b.description = (.ok (), last) := by
  have table : b.description.table = .ok b.table := rfl
  have quantity : b.description.quantity = .ok (IntType.int32.cast b.quantity) := rfl
  have startingAddress : b.description.startingAddress =
      .ok (b.startingAddress.map IntType.int32.cast) := rfl
  have dataType : b.description.dataType = .ok b.values.dataType := rfl
  have given : b.description.values.isSome = true := rfl
  simp only [Json.setBlock, table, quantity, startingAddress, dataType, ok_bind, pure_eq_ok,
    elements_eq, resized, given, if_true, run]
  rfl

/-- One pass of the loop sets the table of the block, and nothing else. -/
theorem setBlock_outcome (m : Machine) (memory : (t : Table) → Option (ℕ → t.Cell)) {st : Station}
    (empty : st.slave.map b.table = Block.empty) :
    ∃ block device, Json.setBlock m memory st b.description =
        (.ok (), { slave := { st.slave with map := Function.update st.slave.map b.table block },
                   device }) ∧
      b.Outcome m.host st.slave memory block := by
  rcases Block.set_empty b.table.zero (BufferedSlave.clearScale b.table) (b.start st.slave)
    (IntType.int32.cast b.nb) (memory b.table) with ⟨rc, blank, set, laid, outcome⟩
  have resized : st.slave.setBlock b.table (IntType.int32.cast b.nb)
      ((b.startingAddress.map IntType.int32.cast).getD (st.slave.dataAddress 0)) (memory b.table) =
      (.ok rc, { st.slave with map := Function.update st.slave.map b.table blank }) := by
    rw [start] at set
    rw [BufferedSlave.setBlock_eq, BufferedSlave.setTableBlock, empty, set]
  have updated : Function.update st.slave.map b.table blank b.table = blank :=
    Function.update_self ..
  have laid_after : (Function.update st.slave.map b.table blank b.table).LaidOut := by
    rw [updated]
    exact laid
  rcases b.values_fill m
      { st with slave := { st.slave with map := Function.update st.slave.map b.table blank } }
      laid_after with
    ⟨vect, given, written, last, run, block, device, filled, last_eq⟩
  have address : st.slave.pduAddress (st.slave.dataAddress 0) = 0 := Slave.pduAddress_dataAddress 0
  simp only [updated] at filled
  refine ⟨block, device, ?_, ?_⟩
  · rw [b.setBlock_eq m resized run, last_eq]
    simp only [Function.update_idem]
  · change blank.Filled (st.slave.pduAddress (st.slave.dataAddress 0)) vect block at filled
    rw [address] at filled
    rcases outcome with ⟨positive, granted, rfl⟩ | ⟨missing, none_left⟩
    · exact .filled positive granted vect given filled
    · exact .refused missing (filled.nb_eq.trans none_left)

variable {b} {slv : BufferedSlave}

theorem blank_contains_zero_iff (small : b.nb < 2 ^ 31) :
    (b.blank slv).Contains 0 ↔ b.start slv ≤ 0 ∧ 0 < b.start slv + b.nb := by
  have count : (b.blank slv).nb = b.nb := cast_of_small small
  have start : (b.blank slv).start = b.start slv := rfl
  constructor
  · intro contains
    have upper := contains.lt_end
    rw [start, count] at upper
    exact ⟨contains.1, upper⟩
  · rintro ⟨lower, upper⟩
    exact Block.contains_of_near (by omega) lower (by omega)

theorem cells_blank (small : b.nb < 2 ^ 31) :
    (b.blank slv).cells = List.replicate b.nb b.table.zero := by
  simp only [blank, Block.cells, cast_of_small small, Int.toNat_natCast, Option.getD_some]

/-- Values written from the first address on are at the beginning of a block that starts there. Anywhere
else that can only be told from zero. -/
theorem written_blank_iff (small : b.nb < 2 ^ 31) (some_cells : 0 < b.nb) (vect : List b.table.Cell) :
    (b.blank slv).written 0 vect = Storage.resize vect b.nb b.table.zero ↔
      b.start slv = 0 ∨ ∀ cell ∈ vect.take b.nb, cell = b.table.zero := by
  have count : (b.blank slv).nb = b.nb := cast_of_small small
  have start : (b.blank slv).start = b.start slv := rfl
  simp only [Block.written, blank_contains_zero_iff small, cells_blank small, count, start]
  split
  · next contains =>
    by_cases here : b.start slv = 0
    · simp only [here, Int.sub_zero, Int.toNat_zero, Int.toNat_natCast, Storage.overwrite_replicate,
        true_or]
    · have left : (b.nb - (0 - b.start slv)).toNat = b.nb - (0 - b.start slv).toNat := by omega
      rw [left, Storage.overwrite_replicate_eq_resize_iff (by omega) (by omega)]
      simp only [here, false_or]
  · next outside =>
    have elsewhere : b.start slv ≠ 0 := by omega
    rw [eq_comm, Storage.resize_eq_replicate_iff]
    simp only [elsewhere, false_or]

theorem dataAddress_zero (slave : Slave) : slave.dataAddress 0 = firstAddress slave.pduAddressing := by
  simp only [Slave.dataAddress, firstAddress, Int.zero_add]

theorem pduAddress_eq_zero_iff (slave : Slave) (addr : ℤ) :
    slave.pduAddress addr = 0 ↔ addr = firstAddress slave.pduAddressing := by
  simp only [Slave.pduAddress, firstAddress]
  omega

theorem start_of_none (slv : BufferedSlave) (missing : b.startingAddress = none) : b.start slv = 0 := by
  have nonneg : ¬slv.dataAddress 0 < 0 := by
    rw [dataAddress_zero, firstAddress]
    split <;> omega
  simp only [start, missing, Option.map_none, Option.getD_none, BufferedSlave.blockAddress,
    if_neg nonneg]
  exact Slave.pduAddress_dataAddress 0

/-- A starting address is that of the block if it is an `int` that is not negative. -/
theorem start_eq_iff (slv : BufferedSlave) {addr : ℤ} (given : b.startingAddress = some addr) :
    b.start slv = slv.pduAddress addr ↔ 0 ≤ addr ∧ addr < 2 ^ 31 := by
  have upper := IntType.int32_cast_lt addr
  have converted : b.start slv = slv.pduAddress (slv.blockAddress (IntType.int32.cast addr)) := by
    rw [start, given]
    rfl
  rw [converted]
  constructor
  · intro same
    have equal : slv.blockAddress (IntType.int32.cast addr) = addr := by
      simp only [Slave.pduAddress] at same
      omega
    rw [← equal, BufferedSlave.blockAddress]
    split
    · split <;> omega
    · omega
  · rintro ⟨lower, below⟩
    have kept : IntType.int32.cast addr = addr := by
      have small : addr.toNat < 2 ^ 31 := by omega
      have natural := cast_of_small small
      rw [Int.toNat_of_nonneg lower] at natural
      exact natural
    rw [kept, BufferedSlave.blockAddress, if_neg (Int.not_lt.mpr lower)]

/-- A block is set at its address, and that is the first one or makes no difference. -/
theorem start_iff (slv : BufferedSlave) (indifferent : Prop) :
    b.start slv = slv.pduAddress (b.startingAddress.getD (firstAddress slv.pduAddressing)) ∧
        (b.start slv = 0 ∨ indifferent) ↔
      ∀ addr, b.startingAddress = some addr → addr = firstAddress slv.pduAddressing ∨
        (0 ≤ addr ∧ addr < 2 ^ 31 ∧ indifferent) := by
  cases given : b.startingAddress with
  | none =>
      have first := start_of_none slv given
      refine iff_of_true ⟨?_, Or.inl first⟩ nofun
      rw [first, Option.getD_none]
      exact ((pduAddress_eq_zero_iff slv.toSlave _).mpr rfl).symm
  | some addr =>
      simp only [Option.getD_some, start_eq_iff slv given, Option.some.injEq, forall_eq']
      constructor
      · rintro ⟨range, here | indifferent⟩
        · left
          rw [(start_eq_iff slv given).mpr range] at here
          exact (pduAddress_eq_zero_iff slv.toSlave addr).mp here
        · exact Or.inr ⟨range.1, range.2, indifferent⟩
      · rintro (first | ⟨lower, below, indifferent⟩)
        · have range : 0 ≤ addr ∧ addr < 2 ^ 31 := by
            rw [first, firstAddress]
            split <;> omega
          refine ⟨range, Or.inl ?_⟩
          rw [(start_eq_iff slv given).mpr range]
          exact (pduAddress_eq_zero_iff slv.toSlave addr).mpr first
        · exact ⟨⟨lower, below⟩, Or.inr indifferent⟩

/-- The first value that is written to a block that starts at the first address or below it. -/
theorem head_written_blank (slv : BufferedSlave) (small : b.nb < 2 ^ 31) (low : b.start slv ≤ 0)
    (high : 0 < b.start slv + b.nb) {vect : List b.table.Cell} {first : b.table.Cell}
    (found : vect.head? = some first) :
    ((b.blank slv).written 0 vect)[(-b.start slv).toNat]? = some first := by
  have contains := (blank_contains_zero_iff small).mpr ⟨low, high⟩
  have count : (b.blank slv).nb = b.nb := cast_of_small small
  have start : (b.blank slv).start = b.start slv := rfl
  rw [Block.written, if_pos contains, cells_blank small, count, start, Int.zero_sub]
  have here : ((vect.take (b.nb - -b.start slv).toNat))[0]? = some first := by
    rw [List.getElem?_take_of_lt (by omega), ← List.head?_eq_getElem?, found]
  have length : (List.take (-b.start slv).toNat (List.replicate b.nb b.table.zero)).length =
      (-b.start slv).toNat := by
    rw [List.length_take, List.length_replicate]
    omega
  have inside := (List.getElem?_eq_some_iff.mp here).1
  rw [Storage.overwrite, List.append_assoc, List.getElem?_append_right (by omega), length, Nat.sub_self,
    List.getElem?_append_left inside]
  exact here

/-- A block in which the machine has written the values is initialised exactly when its storage was granted,
its cells can be counted, and it starts at the first address of the mode or all the values are zero. -/
theorem initialised_iff_of_filled (small : b.nb < 2 ^ 31) {vect : List b.table.Cell}
    (given : vect.take b.nb = b.values.cells.take b.nb)
    (filled : (b.blank slv).Filled 0 vect (slv.map b.table)) :
    b.Initialised slv ↔
      ∀ addr, b.startingAddress = some addr → addr = firstAddress slv.pduAddressing ∨
        (0 ≤ addr ∧ addr < 2 ^ 31 ∧ ∀ cell ∈ b.values.cells.take b.nb, cell = b.table.zero) := by
  have some_cells : 0 < b.nb := Nat.lt_of_lt_of_le b.positive b.quantity_le_nb
  have place : (slv.map b.table).start = b.start slv := filled.start_eq
  have count : (slv.map b.table).nb = b.nb := filled.nb_eq.trans (cast_of_small small)
  have image : (slv.map b.table).cells = Storage.resize b.values.cells b.nb b.table.zero ↔
      b.start slv = 0 ∨ ∀ cell ∈ b.values.cells.take b.nb, cell = b.table.zero := by
    rw [filled.cells_eq, ← Storage.resize_congr given, ← given]
    exact written_blank_iff small some_cells vect
  constructor
  · intro initialised
    apply (start_iff slv _).mp
    exact ⟨place.symm.trans initialised.start_eq, image.mp initialised.cells_eq⟩
  · intro address
    rcases (start_iff slv _).mpr address with ⟨here, there⟩
    exact ⟨place.trans here, count, image.mpr there⟩

/-- An initialised block has storage for all its cells. -/
theorem stored_of_initialised {host : Host} {memory : (t : Table) → Option (ℕ → t.Cell)}
    (outcome : b.Outcome host slv memory (slv.map b.table)) (initialised : b.Initialised slv) :
    (memory b.table).isSome ∧ b.nb < 2 ^ 31 ∧
      ∃ vect, vect.take b.nb = (b.values.written host).take b.nb ∧
        (b.blank slv).Filled 0 vect (slv.map b.table) := by
  have some_cells : 0 < b.nb := Nat.lt_of_lt_of_le b.positive b.quantity_le_nb
  have count := initialised.nb_eq
  cases outcome with
  | refused missing empty => omega
  | filled positive granted vect given filled =>
      have cast_eq : (slv.map b.table).nb = IntType.int32.cast b.nb := filled.nb_eq
      have bound := IntType.int32_cast_lt b.nb
      have small : b.nb < 2 ^ 31 := by omega
      exact ⟨granted, small, vect, given small, filled⟩

theorem start_pos_iff (slv : BufferedSlave)
    (right : b.start slv = slv.pduAddress (b.startingAddress.getD (firstAddress slv.pduAddressing))) :
    0 < b.start slv ↔
      ∃ addr, b.startingAddress = some addr ∧ firstAddress slv.pduAddressing < addr := by
  cases given : b.startingAddress with
  | none =>
      rw [start_of_none slv given]
      simp
  | some addr =>
      rw [given, Option.getD_some] at right
      simp only [right, Option.some.injEq, exists_eq_left', Slave.pduAddress, firstAddress]
      omega

/-- The values are where they belong when the block is placeable. -/
theorem initialised_of_placeable {host : Host} {memory : (t : Table) → Option (ℕ → t.Cell)}
    (outcome : b.Outcome host slv memory (slv.map b.table))
    (placeable : b.Placeable slv.pduAddressing memory) : b.Initialised slv := by
  have some_cells : 0 < b.nb := Nat.lt_of_lt_of_le b.positive b.quantity_le_nb
  have small := placeable.small
  cases outcome with
  | refused missing empty =>
      rw [cast_of_small small] at missing
      exact absurd ⟨by omega, placeable.granted⟩ missing
  | filled positive granted vect given filled =>
      rcases placeable.swaps with above | defined
      · -- Nothing is written to a block above the first address, whatever the machine makes of the values.
        have right := ((start_iff slv _).mpr placeable.address).1
        have outside : ¬(b.blank slv).Contains 0 := by
          rw [blank_contains_zero_iff small]
          have positive := (start_pos_iff slv right).mpr above
          omega
        have same : (b.blank slv).Filled 0 b.values.cells (slv.map b.table) := by
          refine ⟨filled.start_eq, filled.nb_eq, ?_⟩
          rw [filled.cells_eq, Block.written, Block.written, if_neg outside, if_neg outside]
        exact (initialised_iff_of_filled small rfl same).mpr placeable.address
      · have written := given small
        rw [InitialValues.written_of_swapsDefined defined] at written
        exact (initialised_iff_of_filled small written filled).mpr placeable.address

theorem neg_one_le_start (slv : BufferedSlave) : -1 ≤ b.start slv := by
  simp only [start, Slave.pduAddress, BufferedSlave.blockAddress]
  split <;> split <;> omega

/-- A block that is initialised by a machine that does what is written, and by one that spoils what it may,
is placeable. -/
theorem placeable_of_initialised {order : ByteOrder} {memory : (t : Table) → Option (ℕ → t.Cell)}
    {other : BufferedSlave} (mode : b.start other = b.start slv)
    (outcome : b.Outcome (.asWritten order) slv memory (slv.map b.table))
    (initialised : b.Initialised slv)
    (outcome' : b.Outcome (.spoiling order) other memory (other.map b.table))
    (initialised' : b.Initialised other) : b.Placeable slv.pduAddressing memory := by
  rcases stored_of_initialised outcome initialised with ⟨granted, small, vect, given, filled⟩
  rcases stored_of_initialised outcome' initialised' with ⟨_, _, spoiled, given', filled'⟩
  rw [InitialValues.written_asWritten] at given
  have address := (initialised_iff_of_filled small given filled).mp initialised
  refine ⟨granted, small, address, ?_⟩
  by_contra unplaceable
  rw [not_or, ← start_pos_iff slv ((start_iff slv _).mpr address).1] at unplaceable
  rcases unplaceable with ⟨low, undefined⟩
  have wide := InitialValues.width_of_not_defined undefined
  have count : 2 ≤ b.nb := Nat.le_trans wide (Nat.le_mul_of_pos_left _ b.positive)
  have above := b.neg_one_le_start slv
  rcases InitialValues.head_written_spoiling undefined order with ⟨first, wrong, head, head', different⟩
  -- Both machines have left the same cells, but the first values that they have written differ.
  have head_of : ∀ {written cells : List b.table.Cell}, written.take b.nb = cells.take b.nb →
      written.head? = cells.head? := by
    intro written cells same
    rw [List.head?_eq_getElem?, List.head?_eq_getElem?, ← List.getElem?_take_of_lt (by omega : 0 < b.nb),
      same, List.getElem?_take_of_lt (by omega)]
  have one := head_written_blank slv small (by omega) (by omega) ((head_of given).trans head)
  have two := head_written_blank other small (by omega) (by omega) ((head_of given').trans head')
  rw [← filled.cells_eq, initialised.cells_eq] at one
  rw [← filled'.cells_eq, initialised'.cells_eq, mode] at two
  exact different (Option.some.inj (one.symm.trans two))

/-- What setting a block leaves does not depend on the other tables. -/
theorem outcome_iff_of_map {host : Host} {memory : (t : Table) → Option (ℕ → t.Cell)}
    {after : Block b.table.Cell} (map : Mapping) :
    b.Outcome host { slv with map } memory after ↔ b.Outcome host slv memory after := by
  constructor
  · intro outcome
    cases outcome with
    | refused missing empty => exact .refused missing empty
    | filled positive granted vect given filled => exact .filled positive granted vect given filled
  · intro outcome
    cases outcome with
    | refused missing empty => exact .refused missing empty
    | filled positive granted vect given filled => exact .filled positive granted vect given filled

/-- Blocks of different tables are set one after the other, each as if it were alone. -/
theorem setBlocks_outcome (m : Machine) (memory : (t : Table) → Option (ℕ → t.Cell)) (st : Station)
    {blocks : List InitialBlock} (distinct : (blocks.map InitialBlock.table).Nodup)
    (empty : ∀ b ∈ blocks, st.slave.map b.table = Block.empty) :
    ∃ map device, Json.setBlocks m memory st (blocks.map InitialBlock.description) =
        (.ok (), { slave := { st.slave with map }, device }) ∧
      (∀ t, t ∉ blocks.map InitialBlock.table → map t = st.slave.map t) ∧
      ∀ b ∈ blocks, b.Outcome m.host st.slave memory (map b.table) := by
  induction blocks generalizing st with
  | nil => exact ⟨st.slave.map, st.device, rfl, fun _ _ => rfl, nofun⟩
  | cons b blocks ih =>
      rw [List.map_cons, List.nodup_cons] at distinct
      rcases distinct with ⟨new, distinct⟩
      rcases b.setBlock_outcome m memory (empty b List.mem_cons_self) with
        ⟨block, device, run, outcome⟩
      let next : Station :=
        { slave := { st.slave with map := Function.update st.slave.map b.table block }, device }
      have still_empty : ∀ other ∈ blocks, next.slave.map other.table = Block.empty := by
        intro other mem
        have different : other.table ≠ b.table := by
          intro same
          apply new
          rw [← same]
          exact List.mem_map_of_mem mem
        change Function.update st.slave.map b.table block other.table = Block.empty
        rw [Function.update_of_ne different]
        exact empty other (List.mem_cons_of_mem b mem)
      rcases ih next distinct still_empty with ⟨map, last, rest, frame, outcomes⟩
      refine ⟨map, last, ?_, ?_, ?_⟩
      · simp only [List.map_cons, Json.setBlocks, run]
        exact rest
      · intro t other
        rw [List.map_cons, List.mem_cons, not_or] at other
        rw [frame t other.2]
        exact Function.update_of_ne other.1 ..
      · intro other mem
        rcases List.mem_cons.mp mem with rfl | later
        · have here : map other.table = block := by
            rw [frame other.table new]
            exact Function.update_self ..
          rw [here]
          exact outcome
        · exact (outcome_iff_of_map _).mp (outcomes other later)

end InitialBlock

namespace Json

/-- A machine that makes no numbers of its floating-point types. -/
def integral (host : Host) : Machine where
  host
  float := { get := fun _ => .error .typeError, parse := fun _ => none }
  double := { get := fun _ => .error .typeError, parse := fun _ => none }
  longDouble := { get := fun _ => .error .typeError, parse := fun _ => none }

/-- A new slave gets the initial values of its blocks, each of another table, on every machine of a byte
order, exactly when there is storage for the block, its values are written where it starts or are all zero,
and no swap of values that are written is undefined. -/
theorem setConfig_initialises_iff (order : ByteOrder) (memory : (t : Table) → Option (ℕ → t.Cell))
    {st : Station} (fresh : ∀ t, st.slave.map t = Block.empty) (id : ℤ) (addressing : Option Bool)
    {blocks : List InitialBlock} (distinct : (blocks.map InitialBlock.table).Nodup) :
    let config : BufferedSlaveDescription :=
      ⟨.ok id, .ok addressing, blocks.map InitialBlock.description⟩
    (∀ m : Machine, (setConfig m memory st config).1 = .ok ()) ∧
      ∀ b ∈ blocks,
        (∀ m : Machine, m.host.order = order → b.Initialised (setConfig m memory st config).2.slave) ↔
          b.Placeable (addressing.getD st.slave.pduAddressing) memory := by
  intro config
  let configured : Station :=
    { st with slave := { st.slave with
        id, pduAddressing := addressing.getD st.slave.pduAddressing } }
  have set : ∀ m : Machine, ∃ map device, setConfig m memory st config =
      (.ok (), { slave := { configured.slave with map }, device }) ∧
        ∀ b ∈ blocks, b.Outcome m.host { configured.slave with map } memory (map b.table) := by
    intro m
    rcases InitialBlock.setBlocks_outcome m memory configured distinct
      (fun b _ => fresh b.table) with ⟨map, device, run, _, outcomes⟩
    exact ⟨map, device, run, fun b mem => (InitialBlock.outcome_iff_of_map map).mpr (outcomes b mem)⟩
  constructor
  · intro m
    rcases set m with ⟨map, device, run, _⟩
    rw [run]
  · intro b mem
    constructor
    · intro initialised
      have first := initialised (integral (.asWritten order)) rfl
      have second := initialised (integral (.spoiling order)) rfl
      rcases set (integral (.asWritten order)) with ⟨map, device, run, outcomes⟩
      rcases set (integral (.spoiling order)) with ⟨map', device', run', outcomes'⟩
      rw [run] at first
      rw [run'] at second
      have place : b.start { configured.slave with map := map' } =
        b.start { configured.slave with map } := rfl
      exact InitialBlock.placeable_of_initialised place (outcomes b mem) first (outcomes' b mem) second
    · intro placeable m _
      rcases set m with ⟨map, device, run, outcomes⟩
      rw [run]
      exact InitialBlock.initialised_of_placeable (outcomes b mem) placeable

/-- A new slave after it has been configured with blocks. Every allocation succeeds. -/
def configured (blocks : List InitialBlock) : Except Fault Unit × Station :=
  setConfig (integral (.asWritten .littleEndian)) (fun t => some fun _ => t.zero)
    ⟨BufferedSlave.create 10 none, none⟩ ⟨.ok 10, .ok none, blocks.map InitialBlock.description⟩

theorem representable_words : ∀ n ∈ [0x12, 0x34], IntType.uint16.lowest ≤ n ∧ n ≤ IntType.uint16.max := by
  decide

theorem denotes_byte : Denotes ['0', 'x', '5', 'A'] (0x5A : ℕ) :=
  ⟨⟨false, 0x5A, []⟩, by decide, rfl, rfl⟩

/-- Two holding registers from the address 4 on. -/
def words : InitialBlock where
  table := .holdingRegister
  quantity := 2
  positive := Nat.succ_pos 1
  startingAddress := some 4
  values := { dataType := none, endian := none, numbers := [0x12, 0x34], representable := representable_words }

/-- Twelve coils from an address on. -/
def flags (startingAddress : Option ℤ) : InitialBlock where
  table := .coil
  quantity := 12
  positive := Nat.succ_pos 11
  startingAddress
  values := [.byte ['0', 'x', '5', 'A'] 0x5A denotes_byte (Nat.le_of_ble_eq_true rfl), .boolean true,
    .binary true, .boolean false, .binary false]

example : ((configured [flags none]).2.slave.map .coil).cells =
    [false, true, false, true, true, false, true, false, true, true, false, false] := by
  rfl

/-- One block whose values are dropped, and one that has them. -/
theorem setConfig_initialises_iff_of_new :
    let set := fun m : Machine => setConfig m (fun t => some fun _ => t.zero)
      ⟨BufferedSlave.create 10 none, none⟩ ⟨.ok 10, .ok none, [words, flags none].map InitialBlock.description⟩
    (∀ m, (set m).1 = .ok ()) ∧
      ∀ b ∈ [words, flags none],
        (∀ m : Machine, m.host.order = .littleEndian → b.Initialised (set m).2.slave) ↔
          b.Placeable ((none : Option Bool).getD false) fun t => some fun _ => t.zero := by
  apply setConfig_initialises_iff .littleEndian (fun t => some fun _ => t.zero)
  · intro t
    rfl
  · decide

/-- Above the first address the values are dropped, below it they are written one cell too far. -/
theorem values_misplaced :
    (configured [words]).2.slave.map .holdingRegister =
        { start := 3, nb := 2, tab := some [0, 0] } ∧
      (configured [flags (some 0)]).2.slave.map .coil =
        { start := -1, nb := 12, tab := some [false, false, true, false, true, true, false, true,
          false, true, true, false] } ∧
      ¬words.Initialised (configured [words]).2.slave ∧
      ¬(flags (some 0)).Initialised (configured [flags (some 0)]).2.slave := by
  refine ⟨by decide, by decide, ?_, ?_⟩
  · intro initialised
    exact absurd initialised.cells_eq (by decide)
  · intro initialised
    exact absurd initialised.cells_eq (by decide)

end Json

end Modbuspp
