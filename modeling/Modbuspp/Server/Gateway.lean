import Modbuspp.BufferedSlave.Coherence
import Modbuspp.Server.Dispatch
import Modbuspp.Server.Rejected

/-!
# The router as a gateway

Slaves that point to a device stand in for equipment on the other side of it. A request for the first
cells of a table gets through: a read is answered from the cells that the equipment has, a write leaves
the equipment with the cells that libmodbus answered for, and nothing else touches the equipment, however
the requests to the slaves follow each other.
-/

namespace Modbuspp

/-- The station is behind an open link to the equipment. -/
structure Station.Fronts (st : Station) (equipment : Equipment) : Prop where
  opened : st.isOpen = true
  behind : st.Behind equipment
  laid : ∀ t, (st.slave.map t).LaidOut

/-- The cells of a request that is for the first cells of a table. -/
structure Message.Covers (req : Message) (func : Function) (t : Table) (place : ℤ) : Prop where
  relay : func.relayed = some t
  lower : 0 ≤ place
  requests : ∃ nb, req.Requests func 0 nb ∧ place < Station.addressed func nb

/-- The request reads this cell. -/
def Message.ReadsCell (req : Message) (t : Table) (place : ℤ) : Prop :=
  ∃ func, func.reads = some t ∧ req.Covers func t place

/-- The request writes this cell. -/
def Message.WritesCell (req : Message) (t : Table) (place : ℤ) : Prop :=
  ∃ func, func.written = some t ∧ req.Covers func t place

/-- A request that a relay passes on is for the first cells of a block. -/
def BufferedSlave.Straight (slv : BufferedSlave) (req : Message) : Prop :=
  ∀ func start nb t, req.Requests func start nb → func.relayed = some t →
    start = 0 ∧ (slv.map t).Within 0 (Station.addressed func nb)

/-- The first cells of a block after values were laid over them. -/
theorem Block.valueAt_overwrite {α : Type} {block : Block α} {values : List α} {place : ℤ}
    (first : block.start ≤ 0) (room : (values.length : ℤ) ≤ block.start + block.cells.length)
    (lower : 0 ≤ place) (upper : place < values.length) :
    ({ block with tab := some (Storage.overwrite block.cells (0 - block.start).toNat values) } :
      Block α).valueAt place = values[place.toNat]? := by
  have inside : (place - block.start).toNat - (0 - block.start).toNat = place.toNat := by omega
  have cell : (Storage.overwrite block.cells (0 - block.start).toNat values)[
      (place - block.start).toNat]? = values[place.toNat]? := by
    rw [Storage.getElem?_overwrite (by omega), if_pos (by omega), inside]
  rw [valueAt, cells_of_some rfl, List.getElem?_eq_getElem (by omega), Storage.read_eq_some_iff]
  refine ⟨by simp only; omega, ?_⟩
  rw [cell, List.getElem?_eq_getElem]

theorem Block.SameLayout.trans {α : Type} {block middle other : Block α}
    (first : block.SameLayout middle) (second : middle.SameLayout other) : block.SameLayout other :=
  ⟨second.start_eq.trans first.start_eq, second.nb_eq.trans first.nb_eq,
    second.length_eq.trans first.length_eq⟩

theorem Function.relayed_of_written {func : Function} {t : Table} (write : func.written = some t) :
    func.relayed = some t := by
  rcases written_cases write with one | several
  · exact relayed_of_writesOne one
  · exact relayed_of_writes several

namespace Station

variable {st after : Station} {equipment : Equipment} {req : Message} {func : Function} {t : Table}
  {nb : ℕ} {transfer : Transfer}

theorem Fronts.caches (fronts : st.Fronts equipment) :
    st.layout.Caches equipment (fun t place => ((st.slave.map t).valueAt place).getD t.zero)
      (equipment.cells st.sent) st :=
  caches_of_open fronts.opened fronts.behind fronts.laid

theorem Fronts.transferred (fronts : st.Fronts equipment) (transfer : Transfer) :
    (st.transferred transfer).Fronts equipment ∧
      equipment.cells (st.transferred transfer).sent =
        equipment.after st.sent (equipment.cells st.sent) ⟨equipment.id, transfer⟩ := by
  have caches := fronts.caches.transferred transfer
  exact ⟨⟨caches.opened, caches.behind, caches.laid⟩, caches.actual_eq⟩

/-- A transfer that stores nothing leaves the equipment as it is. -/
theorem Fronts.quiet (fronts : st.Fronts equipment) (quiet : transfer.stored = none) :
    equipment.cells (st.transferred transfer).sent = equipment.cells st.sent := by
  rw [(fronts.transferred transfer).2]
  simp only [Equipment.after, Transfer.apply, Transfer.spoil, quiet, ite_self]

theorem Fronts.relaid {map : Mapping} (fronts : st.Fronts equipment) (idReport : List UInt8)
    (same : ∀ t, (st.slave.map t).SameLayout (map t)) :
    ({ st with slave := { st.slave with map, idReport } } : Station).Fronts equipment where
  opened := fronts.opened
  behind := fronts.behind
  laid := by
    intro t
    exact (fronts.laid t).of_sameLayout (same t)

/-- The relay of reads makes no transfer, or one that stores nothing. -/
theorem readFromDevice_quiet (fronts : st.Fronts equipment) (req : Message) :
    (st.readFromDevice (some req)).2.device = st.device ∨ ∃ transfer, transfer.stored = none ∧
      (st.readFromDevice (some req)).2.device = (st.transferred transfer).device := by
  rcases st.readFromDevice_cases (some req) with ⟨result, run⟩ | ⟨t, start, nb, run⟩ | run
  · rw [run]
    exact Or.inl rfl
  · rw [run]
    by_cases empty : (st.slave.map t).cells = []
    · rw [relayRead_of_empty t empty]
      exact Or.inl rfl
    · rcases relayRead_spec t fronts.opened (fronts.laid t).sound empty start nb with
        ⟨_, _, transfer, _, _, transfer_eq, relayed⟩
      rw [relayed]
      cases st.accepted with
      | false => exact Or.inl rfl
      | true => exact Or.inr ⟨transfer, by rw [← transfer_eq]; rfl, rfl⟩
  · rw [run]
    simp only [relayReportServerId, Slave.reportSlaveId, exchange_eq fronts.opened]
    cases st.accepted with
    | false =>
        left
        simp only [Bool.false_eq_true, if_false]
        split <;> rfl
    | true =>
        refine Or.inr ⟨.reportSlaveId (Storage.resize st.slave.idReport maxPduLength 0).length, rfl, ?_⟩
        simp only [if_true]
        split <;> rfl

theorem readFromDevice_fronts (fronts : st.Fronts equipment) (req : Message) :
    (st.readFromDevice (some req)).2.Fronts equipment ∧
      equipment.cells (st.readFromDevice (some req)).2.sent = equipment.cells st.sent := by
  have refreshed := readFromDevice_refreshed st (some req)
  have device := readFromDevice_quiet fronts req
  generalize (st.readFromDevice (some req)).2 = after at refreshed device
  rcases refreshed.slave_eq with ⟨map, idReport, slave_eq, same⟩
  rcases after with ⟨slave, link⟩
  simp only at slave_eq device
  subst slave_eq
  rcases device with rfl | ⟨transfer, quiet, rfl⟩
  · exact ⟨fronts.relaid idReport same, rfl⟩
  · exact ⟨(fronts.transferred transfer).1.relaid idReport same, fronts.quiet quiet⟩

theorem pduAddress_relayAddress_zero (st : Station) :
    st.slave.pduAddress (st.relayAddress 0) = 0 := by
  have right := (pduAddress_relayAddress_eq_iff st).mpr (rfl : (0 : ℕ) = 0)
  rwa [Int.natCast_zero] at right

/-- The cells that a read has brought are those of the equipment. -/
theorem readFromDevice_fresh (fronts : st.Fronts equipment) (requests : req.Requests func 0 nb)
    (read : func.reads = some t) (within : (st.slave.map t).Within 0 nb) {ret : ℤ}
    (run : st.readFromDevice (some req) = (.ok ret, after)) (nonneg : 0 ≤ ret) {place : ℤ}
    (lower : 0 ≤ place) (upper : place < nb) :
    (after.slave.map t).valueAt place = some (equipment.cells st.sent t place) := by
  have laid := fronts.laid t
  have first := within.lower
  have extent := within.extent
  have length := laid.nb_eq
  rcases relayRead_spec t fronts.opened laid.sound (laid.nonempty_of_within within) 0 nb with
    ⟨clamped, quantity, transfer, start_eq, nb_eq, transfer_eq, relayed⟩
  rw [Block.clamp_zero within] at start_eq
  subst start_eq
  rw [Block.remaining_of_within within] at nb_eq
  subst nb_eq
  rw [pduAddress_relayAddress_zero] at transfer_eq
  rw [readFromDevice_eq fronts.opened requests read, Int.natCast_zero, relayed] at run
  cases accepts : st.accepted with
  | false =>
      rw [accepts] at run
      cases run
      omega
  | true =>
      rw [accepts, if_pos rfl] at run
      have answered := fronts.caches.answer_eq transfer
      rw [Equipment.answer] at answered
      split at answered
      · rw [answered, ← transfer_eq] at run
        cases run
        have length_eq : ((List.range (nb : ℤ).toNat).map fun i : ℕ =>
            (Transfer.read t 0 nb).apply (equipment.cells st.sent) t
              ((Transfer.read t 0 nb).source + i)).length = nb := by
          rw [List.length_map, List.length_range, Int.toNat_natCast]
        simp only [stored, Function.update_self]
        rw [Block.valueAt_overwrite first (by omega) lower (by omega), List.getElem?_map,
          List.getElem?_range (by omega), Option.map_some]
        simp only [Transfer.apply, Transfer.stored, Transfer.source, Option.some.injEq]
        congr 1
        omega
      · rw [answered] at run
        cases run
        simp only [Transfer.result] at nonneg
        omega

/-- A transfer that stores a segment, by the result of the relay that has made it. -/
theorem Fronts.settled (fronts : st.Fronts equipment) {segment : Segment}
    (stores : transfer.stored = some segment) {run : Except Fault ℤ × Station}
    (run_eq : run =
      if st.accepted then (.ok (transfer.result (st.answer transfer)), st.transferred transfer)
      else (.ok (-1), st)) :
    ∃ ret after, run = (.ok ret, after) ∧ after.Fronts equipment ∧
      (0 ≤ ret → equipment.cells after.sent = (equipment.cells st.sent).store segment) ∧
      ∀ t place, ¬segment.Contains t place →
        equipment.cells after.sent t place = equipment.cells st.sent t place := by
  cases accepts : st.accepted with
  | false =>
      rw [accepts] at run_eq
      refine ⟨-1, st, run_eq, fronts, ?_, fun _ _ _ => rfl⟩
      intro nonneg
      omega
  | true =>
      rw [accepts, if_pos rfl] at run_eq
      have answered := fronts.caches.answer_eq transfer
      rcases fronts.transferred transfer with ⟨fronting, cells_eq⟩
      rw [Equipment.answer] at answered
      rw [Equipment.after, if_pos rfl] at cells_eq
      refine ⟨_, _, run_eq, fronting, ?_, ?_⟩
      · intro nonneg
        split at answered
        · next succeeds =>
          rw [cells_eq, if_pos succeeds]
          simp only [Transfer.apply, stores]
        · rw [answered] at nonneg
          simp only [Transfer.result] at nonneg
          omega
      · intro t place outside
        rw [cells_eq]
        split
        · simp only [Transfer.apply, stores]
          exact Cells.store_of_not_contains outside
        · apply Transfer.spoil_of_not_stores
          rintro ⟨other, same, contains⟩
          rw [stores] at same
          cases same
          exact outside contains

/-- The first cells of a block, as a write passes them on. -/
structure PassesOn (st : Station) (t : Table) (count : ℕ) (segment : Segment) : Prop where
  contains : ∀ other place, segment.Contains other place ↔ other = t ∧ 0 ≤ place ∧ place < count
  values : ∀ (cells : Cells) (place : ℤ), 0 ≤ place → place < count →
    (st.slave.map t).valueAt place = some (cells.store segment t place)

theorem passesOn_of_block {count : ℕ} (within : (st.slave.map t).Within 0 count)
    {values : List t.Cell} (length : values.length = count)
    (taken : ∀ i : ℕ, i < count →
      values[i]? = (st.slave.map t).cells[(i - (st.slave.map t).start).toNat]?) :
    st.PassesOn t count ⟨t, 0, values⟩ := by
  have first := within.lower
  constructor
  · intro other place
    simp only [Segment.Contains, length, Int.zero_add]
  · intro cells place lower upper
    have inside := taken place.toNat (by omega)
    rw [List.getElem?_eq_getElem (by omega)] at inside
    simp only [Cells.store, Function.update_self]
    rw [Memory.store_inside lower (by rw [Int.sub_zero]; exact List.getElem?_eq_getElem (by omega)),
      Block.valueAt, Storage.read_eq_some_iff]
    refine ⟨by omega, ?_⟩
    rw [inside, Int.toNat_of_nonneg lower]

/-- The relay of a write for the first cells passes them on. -/
theorem writeToDevice_spec (fronts : st.Fronts equipment) (requests : req.Requests func 0 nb)
    (write : func.written = some t) (within : (st.slave.map t).Within 0 (addressed func nb)) :
    ∃ transfer segment, transfer.stored = some segment ∧ st.PassesOn t (addressed func nb) segment ∧
      st.writeToDevice (some req) =
        if st.accepted then (.ok (transfer.result (st.answer transfer)), st.transferred transfer)
        else (.ok (-1), st) := by
  have laid := fronts.laid t
  have first := within.lower
  have extent := within.extent
  have length := laid.nb_eq
  rcases Function.written_cases write with one | several
  · have count : addressed func nb = 1 := by simp only [addressed, one, Option.isSome_some, if_true]
    rw [count] at within extent ⊢
    rcases relayWriteOne_spec t fronts.opened laid.sound (laid.nonempty_of_within within) 0 with
      ⟨clamped, value, transfer, start_eq, cell, transfer_eq, run⟩
    rw [Block.clamp_zero within] at start_eq
    subst start_eq
    rw [pduAddress_relayAddress_zero] at transfer_eq
    subst transfer_eq
    refine ⟨.writeOne t 0 value, ⟨t, 0, [value]⟩, rfl, ?_, ?_⟩
    · apply passesOn_of_block within rfl
      intro i inside
      have only : i = 0 := by omega
      subst only
      exact cell.symm
    · rw [writeToDevice_eq_of_writesOne fronts.opened requests one]
      exact run
  · have single : func.writesOne = none := by
      cases func <;> first | rfl | cases several
    have count : addressed func nb = nb := by
      simp only [addressed, single, Option.isSome_none, Bool.false_eq_true, if_false]
    rw [count] at within extent ⊢
    rcases relayWrite_spec t fronts.opened laid.sound (laid.nonempty_of_within within) 0 nb with
      ⟨clamped, quantity, transfer, start_eq, nb_eq, transfer_eq, run⟩
    rw [Block.clamp_zero within] at start_eq
    subst start_eq
    rw [Block.remaining_of_within within] at nb_eq
    subst nb_eq
    rw [pduAddress_relayAddress_zero] at transfer_eq
    generalize src_eq : ((st.slave.map t).cells.drop (0 - (st.slave.map t).start).toNat).take
      (nb : ℤ).toNat = src at transfer_eq
    subst transfer_eq
    refine ⟨.write t 0 src, ⟨t, 0, src⟩, rfl, ?_, ?_⟩
    · apply passesOn_of_block within
      · rw [← src_eq, List.length_take, List.length_drop]
        omega
      · intro i inside
        rw [← src_eq, List.getElem?_take_of_lt (by omega), List.getElem?_drop]
        congr 1
        omega
    · rw [writeToDevice_eq_of_writes fronts.opened requests several]
      exact run

/-- What the relay of writes leaves, for a request that gets through. -/
structure Relayed (st : Station) (equipment : Equipment) (req : Message) (result : Except Fault ℤ)
    (after : Station) : Prop where
  fronts : after.Fronts equipment
  through : ∀ ret t place, result = .ok ret → 0 ≤ ret → req.WritesCell t place →
    (st.slave.map t).valueAt place = some (equipment.cells after.sent t place)
  frame : ∀ t place, ¬req.WritesCell t place →
    equipment.cells after.sent t place = equipment.cells st.sent t place

theorem relayed_of_unwritten (fronts : st.Fronts equipment)
    (unwritten : ∀ t place, ¬req.WritesCell t place) (result : Except Fault ℤ) :
    st.Relayed equipment req result st :=
  ⟨fronts, fun _ t place _ _ writes => absurd writes (unwritten t place), fun _ _ _ => rfl⟩

theorem writeToDevice_relayed (fronts : st.Fronts equipment) (straight : st.slave.Straight req) :
    st.Relayed equipment req (st.writeToDevice (some req)).1 (st.writeToDevice (some req)).2 := by
  rcases req.relayFields_cases with ⟨fault, fields⟩ | ⟨func, start, nb, requests⟩
  · have run : st.writeToDevice (some req) = (.error fault, st) := by
      simp only [writeToDevice, if_pos fronts.opened, fields]
    rw [run]
    apply relayed_of_unwritten fronts
    rintro t place ⟨func, _, _, _, nb, requests, _⟩
    rw [requests.fields] at fields
    cases fields
  · cases write : func.written with
    | none =>
        rcases Function.written_eq_none write with ⟨one, several⟩
        rw [writeToDevice_eq_of_not_writes fronts.opened requests one several]
        apply relayed_of_unwritten fronts
        rintro t place ⟨other, writes, _, _, quantity, same, _⟩
        rw [(requests.unique same).1, write] at writes
        cases writes
    | some t =>
        rcases straight func start nb t requests (Function.relayed_of_written write) with
          ⟨rfl, within⟩
        rcases writeToDevice_spec fronts requests write within with
          ⟨transfer, segment, stores, passesOn, run_eq⟩
        rcases fronts.settled stores run_eq with ⟨ret, after, run, fronting, done, frame⟩
        have named : ∀ other place, req.WritesCell other place ↔ segment.Contains other place := by
          intro other place
          rw [passesOn.contains]
          constructor
          · rintro ⟨_, writes, _, lower, quantity, same, upper⟩
            rcases requests.unique same with ⟨rfl, _, rfl⟩
            rw [write] at writes
            exact ⟨(Option.some.inj writes).symm, lower, upper⟩
          · rintro ⟨rfl, lower, upper⟩
            exact ⟨func, write, Function.relayed_of_written write, lower, nb, requests, upper⟩
        rw [run]
        refine ⟨fronting, ?_, ?_⟩
        · rintro _ other place ⟨⟩ nonneg writes
          rcases (passesOn.contains other place).mp ((named other place).mp writes) with
            ⟨rfl, lower, upper⟩
          rw [done nonneg]
          exact passesOn.values _ place lower upper
        · intro other place unwritten
          exact frame other place fun contains => unwritten ((named other place).mpr contains)

/-- How a slave without callbacks serves a request: it stops after the relay of reads, or libmodbus
replies, or the relay of writes follows. -/
theorem serve_plain {reply : ModbusReply} {rc : ℤ} (noBefore : st.slave.beforeReplyCB = none)
    (noAfter : st.slave.afterReplyCB = none) :
    ((st.serve reply req rc).station = (st.readFromDevice (some req)).2 ∧
        ∀ passed before answer, .reply passed before answer ∉ (st.serve reply req rc).stages) ∨
      ∃ ret read answer, st.readFromDevice (some req) = (.ok ret, read) ∧ 0 ≤ ret ∧
        (∀ t, (read.slave.map t).SameLayout (answer.map t)) ∧
        (∀ passed before other, .reply passed before other ∈ (st.serve reply req rc).stages →
          before = read.slave.map ∧ other = answer) ∧
        ((st.serve reply req rc).station = read.withMap answer.map ∧
            (∀ written, .writeToDevice written ∉ (st.serve reply req rc).stages) ∨
          (st.serve reply req rc).station =
              ((read.withMap answer.map).writeToDevice (some req)).2 ∧
            ∀ written, .writeToDevice written ∈ (st.serve reply req rc).stages →
              ((read.withMap answer.map).writeToDevice (some req)).1 = .ok written) := by
  have refreshed := readFromDevice_refreshed st (some req)
  simp only [serve]
  generalize st.readFromDevice (some req) = run at refreshed
  rcases run with ⟨fault | ret, read⟩
  · exact Or.inl ⟨rfl, by simp⟩
  · rcases refreshed.slave_eq with ⟨map, idReport, slave_eq, _⟩
    have beforeCB : read.slave.beforeReplyCB = none := by rw [slave_eq, noBefore]
    have afterCB : read.slave.afterReplyCB = none := by rw [slave_eq, noAfter]
    have same : read.withMap read.slave.map = read := rfl
    by_cases failed : ret < 0
    · simp only [if_pos failed]
      exact Or.inl ⟨trivial, by simp⟩
    · simp only [if_neg failed, beforeCB, Callback.outcome, ne_eq, not_true_eq_false, if_false]
      refine Or.inr ⟨ret, read, reply.run req rc read.slave.map, rfl, by omega,
        reply.sameLayout req rc read.slave.map, ?_⟩
      split
      · exact ⟨by simp, Or.inl ⟨rfl, by simp⟩⟩
      · have outcome_eq : Callback.outcome
            ((read.withMap read.slave.map).withMap
              (reply.run req rc read.slave.map).map).slave.afterReplyCB req
            (reply.run req rc read.slave.map).map =
              (0, req, (reply.run req rc read.slave.map).map) := by
          rw [same]
          simp only [withMap, afterCB, Callback.outcome]
        rw [afterReply_of_passed _ _ outcome_eq]
        have again : ((read.withMap read.slave.map).withMap
            (reply.run req rc read.slave.map).map).withMap (reply.run req rc read.slave.map).map =
              read.withMap (reply.run req rc read.slave.map).map := rfl
        rw [again]
        rcases (read.withMap (reply.run req rc read.slave.map).map).writeToDevice (some req) with
          ⟨fault | written, after⟩
        · exact ⟨by simp, Or.inr ⟨rfl, by simp⟩⟩
        · exact ⟨by simp, Or.inr ⟨rfl, by simp⟩⟩

/-- The slave is transparent for a request that it has served. -/
structure ServesThrough (st : Station) (equipment : Equipment) (req : Message) (served : Served) :
    Prop where
  fronts : served.station.Fronts equipment
  fresh : ∀ t place passed before answer, req.ReadsCell t place →
    .reply passed before answer ∈ served.stages →
      (before t).valueAt place = some (equipment.cells st.sent t place)
  through : ∀ t place passed before answer ret, req.WritesCell t place →
    .reply passed before answer ∈ served.stages → .writeToDevice ret ∈ served.stages → 0 ≤ ret →
      (answer.map t).valueAt place = some (equipment.cells served.station.sent t place)
  frame : ∀ t place, ¬req.WritesCell t place →
    equipment.cells served.station.sent t place = equipment.cells st.sent t place

theorem straight_of_sameLayout {slv other : BufferedSlave} (straight : slv.Straight req)
    (same : ∀ t, (slv.map t).SameLayout (other.map t)) : other.Straight req := by
  intro func start nb t requests relay
  rcases straight func start nb t requests relay with ⟨first, within⟩
  have start_eq := (same t).start_eq
  have nb_eq := (same t).nb_eq
  exact ⟨first, ⟨by have := within.lower; omega, by have := within.upper; omega,
    by have := within.extent; omega⟩⟩

/-- A request is served through to the equipment. -/
theorem serve_through (fronts : st.Fronts equipment) (noBefore : st.slave.beforeReplyCB = none)
    (noAfter : st.slave.afterReplyCB = none) (straight : st.slave.Straight req) (reply : ModbusReply)
    (rc : ℤ) : st.ServesThrough equipment req (st.serve reply req rc) := by
  have refreshed := readFromDevice_refreshed st (some req)
  have reading := readFromDevice_fronts fronts req
  rcases serve_plain noBefore noAfter with
    ⟨station_eq, unanswered⟩ | ⟨ret, read, answer, run, nonneg, kept, replied, ending⟩
  · rw [← station_eq] at reading
    refine ⟨reading.1, ?_, ?_, ?_⟩
    · intro t place passed before answer _ replied
      exact absurd replied (unanswered passed before answer)
    · intro t place passed before answer ret _ replied
      exact absurd replied (unanswered passed before answer)
    · intro t place _
      rw [reading.2]
  · rw [run] at reading refreshed
    rcases refreshed.slave_eq with ⟨map, idReport, slave_eq, same⟩
    have read_same : ∀ t, (st.slave.map t).SameLayout (read.slave.map t) := by
      intro t
      rw [slave_eq]
      exact same t
    have fresh : ∀ t place passed before other, req.ReadsCell t place →
        .reply passed before other ∈ (st.serve reply req rc).stages →
          (before t).valueAt place = some (equipment.cells st.sent t place) := by
      rintro t place passed before other ⟨func, reads, relay, lower, nb, requests, upper⟩ stage
      have several : addressed func nb = nb := by
        rcases func.relayed_cases relay with ⟨_, one, _⟩ | ⟨none_read, _, _⟩ | ⟨none_read, _, _⟩
        · simp only [addressed, one, Option.isSome_none, Bool.false_eq_true, if_false]
        · rw [reads] at none_read
          cases none_read
        · rw [reads] at none_read
          cases none_read
      rcases straight func 0 nb t requests relay with ⟨_, within⟩
      rw [several] at within upper
      rw [(replied passed before other stage).1]
      exact readFromDevice_fresh fronts requests reads within run nonneg lower upper
    have answered_fronts : (read.withMap answer.map).Fronts equipment :=
      reading.1.relaid read.slave.idReport kept
    have answered_straight : (read.withMap answer.map).slave.Straight req := by
      apply straight_of_sameLayout straight
      intro t
      exact (read_same t).trans (kept t)
    have cells_eq : equipment.cells (read.withMap answer.map).sent = equipment.cells st.sent :=
      reading.2
    rcases ending with ⟨station_eq, unwritten⟩ | ⟨station_eq, written⟩
    · rw [← station_eq] at answered_fronts cells_eq
      refine ⟨answered_fronts, fresh, ?_, ?_⟩
      · intro t place passed before other ret _ _ stage
        exact absurd stage (unwritten ret)
      · intro t place _
        rw [cells_eq]
    · have relayed := writeToDevice_relayed answered_fronts answered_straight
      rw [← station_eq] at relayed
      refine ⟨relayed.fronts, fresh, ?_, ?_⟩
      · intro t place passed before other ret writes stage passing success
        rw [(replied passed before other stage).2]
        exact relayed.through ret t place (written ret passing) success writes
      · intro t place unwritten
        rw [relayed.frame t place unwritten, cells_eq]

section Kept

variable (property : Option Device → Prop)

theorem Exchanged.keeps {device : Option Device} (exchanged : st.Exchanged device)
    (kept : ∀ device transfer, property device →
      property (device.map fun dev => Slave.afterTransfer dev st.slave.id transfer))
    (initially : property st.device) : property device := by
  rcases exchanged with rfl | ⟨transfer, rfl⟩
  · exact initially
  · exact kept st.device transfer initially

theorem afterReply_device (st : Station) (req : Message) (stages : List Stage)
    (kept : ∀ device transfer, property device →
      property (device.map fun dev => Slave.afterTransfer dev st.slave.id transfer))
    (initially : property st.device) : property (st.afterReply req stages).station.device := by
  simp only [afterReply]
  generalize Callback.outcome st.slave.afterReplyCB req st.slave.map = outcome
  rcases outcome with ⟨stop, left, map⟩
  have written : property ((st.withMap map).writeToDevice (some left)).2.device :=
    (writeToDevice_exchanged (st.withMap map) (some left)).keeps property kept initially
  split
  · exact initially
  · split
    · next run =>
      rw [run] at written
      exact written
    · next run =>
      rw [run] at written
      exact written

/-- Serving a request makes transfers to the slave, so it keeps what each of them keeps. -/
theorem serve_device (st : Station) (reply : ModbusReply) (req : Message) (rc : ℤ)
    (kept : ∀ device transfer, property device →
      property (device.map fun dev => Slave.afterTransfer dev st.slave.id transfer))
    (initially : property st.device) : property (st.serve reply req rc).station.device := by
  have read := (readFromDevice_exchanged st (some req)).keeps property kept initially
  have touched := readFromDevice_touched st (some req)
  simp only [serve]
  generalize st.readFromDevice (some req) = run at read touched
  rcases run with ⟨fault | ret, after⟩
  · exact read
  · rcases touched.slave_eq with ⟨map, idReport, slave_eq⟩
    have id_eq : after.slave.id = st.slave.id := by rw [slave_eq]
    rw [← id_eq] at kept
    simp only at read ⊢
    split
    · exact read
    · split
      · exact read
      · split
        · exact read
        · exact afterReply_device property _ _ _ kept read

end Kept

/-- A transfer to another slave of the device is nothing to the equipment. -/
theorem Fronts.beside {slave : BufferedSlave} {device : Option Device}
    (fronts : (⟨slave, device⟩ : Station).Fronts equipment) {id : ℤ} (other : id ≠ equipment.id)
    (transfer : Transfer) :
    (⟨slave, device.map fun dev => Slave.afterTransfer dev id transfer⟩ : Station).Fronts equipment ∧
      equipment.cells (⟨slave, device.map fun dev => Slave.afterTransfer dev id transfer⟩ :
        Station).sent = equipment.cells (⟨slave, device⟩ : Station).sent := by
  have opened := fronts.opened
  rcases fronts.behind with ⟨id_eq, dev, found, answers⟩
  simp only at found
  subst found
  refine ⟨⟨?_, ⟨id_eq, _, rfl, answers⟩, fronts.laid⟩, ?_⟩
  · simp only [isOpen, Option.map_some] at opened ⊢
    exact opened
  · simp only [sent, Option.map_some, Slave.afterTransfer, Equipment.cells_append, Equipment.after,
      if_neg other]

end Station

/-- The message is one to this slave that reads the cell. -/
def Delivery.ReadsCell (d : Delivery) (id : ℤ) (t : Table) (place : ℤ) : Prop :=
  0 < d.rc ∧ d.req.slave = .ok id ∧ d.req.ReadsCell t place

/-- The message is one to this slave that writes the cell. -/
def Delivery.WritesCell (d : Delivery) (id : ℤ) (t : Table) (place : ℤ) : Prop :=
  0 < d.rc ∧ d.req.slave = .ok id ∧ d.req.WritesCell t place

namespace Server

/-- A slave of the server that points to a device. -/
structure Routes (srv : Server) (id : ℤ) (slv : BufferedSlave) (i : ℕ) : Prop where
  registered : srv.slave id = some slv
  pointer : slv.dev = some i

/-- The slaves that point to devices are behind open links to equipment of their numbers, and no callback
comes between. -/
structure Gateway (srv : Server) (equipment : ℤ → Equipment) : Prop where
  fronts : ∀ {id slv i}, srv.Routes id slv i → (srv.station slv).Fronts (equipment id)
  numbered : ∀ {id slv i}, srv.Routes id slv i → slv.id = id
  plain : ∀ {id slv i}, srv.Routes id slv i → slv.beforeReplyCB = none ∧ slv.afterReplyCB = none

/-- The cells of the equipment behind a slave. -/
def behind (srv : Server) (equipment : ℤ → Equipment) (id : ℤ) : Cells :=
  match srv.slave id with
  | some slv => (equipment id).cells (srv.station slv).sent
  | none => (equipment id).initial

/-- A request that is relayed is for the first cells, and the link of the server is left alone. -/
structure Straight (srv : Server) (d : Delivery) : Prop where
  slaves : ∀ {id slv i}, srv.Routes id slv i → 0 < d.rc → d.req.slave = .ok id → slv.Straight d.req
  link : d.rc = -1 → d.errno = .badCrc ∨ srv.device.recoveryLink = false

/-- What a message does to the equipment behind the slaves: a read is answered from the cells of the
equipment, a write that succeeds leaves it with the cells of the answer, and no other cell changes. -/
structure Transparent (equipment : ℤ → Equipment) (srv : Server) (d : Delivery) : Prop where
  fresh : ∀ {id slv i t place passed before answer}, srv.Routes id slv i → d.ReadsCell id t place →
    .reply passed before answer ∈ (srv.deliver d).stages →
      (before t).valueAt place = some (srv.behind equipment id t place)
  through : ∀ {id slv i t place passed before answer ret}, srv.Routes id slv i →
    d.WritesCell id t place → .reply passed before answer ∈ (srv.deliver d).stages →
      .writeToDevice ret ∈ (srv.deliver d).stages → 0 ≤ ret →
        (answer.map t).valueAt place = some ((srv.next d).behind equipment id t place)
  frame : ∀ {id slv i t place}, srv.Routes id slv i → ¬d.WritesCell id t place →
    (srv.next d).behind equipment id t place = srv.behind equipment id t place

variable {srv : Server} {equipment : ℤ → Equipment} {d : Delivery} {id : ℤ} {slv : BufferedSlave}
  {i : ℕ}

theorem behind_eq (registered : srv.slave id = some slv) :
    srv.behind equipment id = (equipment id).cells (srv.station slv).sent := by
  simp only [behind, registered]

/-- A message touches no slave and no device, or a slave serves it. -/
theorem deliver_cases (srv : Server)
    (link : d.rc = -1 → d.errno = .badCrc ∨ srv.device.recoveryLink = false) :
    ((srv.next d).slave = srv.slave ∧ (srv.next d).devices = srv.devices ∧
        (srv.deliver d).stages = []) ∨
      ∃ id slv dev, 0 < d.rc ∧ d.req.slave = .ok id ∧ srv.slave id = some slv ∧ srv.deliver d =
        { result := ((srv.station slv).serve d.reply d.req d.rc).result.map (·.getD 0)
          server := { srv.received d with device := dev }.store id
            ((srv.station slv).serve d.reply d.req d.rc)
          stages := ((srv.station slv).serve d.reply d.req d.rc).stages } := by
  by_cases positive : 0 < d.rc
  · cases addressee : d.req.slave with
    | error fault =>
        have noFailure : ¬(d.rc = -1 ∧ (srv.received d).errno ≠ .badCrc) := by omega
        left
        simp only [next, deliver, task, if_neg noFailure, gt_iff_lt, if_pos positive]
        simp only [received, addressee, and_self]
    | ok id =>
        cases registered : srv.slave id with
        | none =>
            left
            rw [next, deliver_of_unregistered positive addressee registered]
            cases srv.messageCB <;> exact ⟨rfl, rfl, rfl⟩
        | some slv =>
            cases accepts : srv.device.ctx.accepts id with
            | false =>
                left
                rw [next, deliver, task_of_refused (srv.received d) d.links d.reply positive rfl
                  addressee registered accepts]
                exact ⟨rfl, rfl, rfl⟩
            | true =>
                rcases task_of_registered (srv.received d) d.links d.reply positive rfl addressee
                  registered accepts with ⟨dev, run⟩
                exact Or.inr ⟨id, slv, dev, positive, rfl, registered, run⟩
  · left
    simp only [next, deliver, task, gt_iff_lt, if_neg positive]
    split
    · next failed =>
      rcases link failed.1 with badCrc | noRecovery
      · exact absurd badCrc failed.2
      · have closed : ¬(srv.received d).device.recoveryLink = true := by
          rw [Bool.not_eq_true]
          exact noRecovery
        rw [if_neg closed]
        exact ⟨rfl, rfl, rfl⟩
    · exact ⟨rfl, rfl, rfl⟩

theorem station_congr {other : Server} (devices_eq : other.devices = srv.devices) (slv : BufferedSlave) :
    other.station slv = srv.station slv := by
  simp only [station, devices_eq]

/-- A message that touches no slave and no device. -/
theorem transparent_of_idle (gateway : srv.Gateway equipment) (slave_eq : (srv.next d).slave = srv.slave)
    (devices_eq : (srv.next d).devices = srv.devices) (stages_eq : (srv.deliver d).stages = []) :
    (srv.next d).Gateway equipment ∧ srv.Transparent equipment d := by
  have before : ∀ {id slv i}, (srv.next d).Routes id slv i → srv.Routes id slv i := by
    intro id slv i routes
    have registered := routes.registered
    rw [slave_eq] at registered
    exact ⟨registered, routes.pointer⟩
  refine ⟨⟨?_, ?_, ?_⟩, ⟨?_, ?_, ?_⟩⟩
  · intro id slv i routes
    rw [station_congr devices_eq]
    exact gateway.fronts (before routes)
  · intro id slv i routes
    exact gateway.numbered (before routes)
  · intro id slv i routes
    exact gateway.plain (before routes)
  · intro _ _ _ _ _ _ _ _ _ _ replied
    rw [stages_eq] at replied
    cases replied
  · intro _ _ _ _ _ _ _ _ _ _ _ replied
    rw [stages_eq] at replied
    cases replied
  · intro id slv i t place routes _
    have registered := routes.registered
    rw [behind_eq registered, behind_eq (slave_eq ▸ registered), station_congr devices_eq]

/-- The slaves that a message is not for keep their equipment, also those that share the device. -/
theorem fronts_of_other (gateway : srv.Gateway equipment) {base : Server}
    (devices_eq : base.devices = srv.devices) (registered : srv.slave id = some slv) {other : ℤ}
    {second : BufferedSlave} {j : ℕ} (routes : srv.Routes other second j) (ne : other ≠ id)
    (reply : ModbusReply) (req : Message) (rc : ℤ) :
    ((base.store id ((srv.station slv).serve reply req rc)).station second).Fronts (equipment other) ∧
      (equipment other).cells
          ((base.store id ((srv.station slv).serve reply req rc)).station second).sent =
        (equipment other).cells (srv.station second).sent := by
  have fronts := gateway.fronts routes
  have pointer := (srv.station slv).serve_dev reply req rc
  by_cases shared : slv.dev = some j
  · have numbers : (srv.station slv).slave.id ≠ (equipment other).id := by
      have number := gateway.numbered ⟨registered, shared⟩
      have second_number := gateway.numbered routes
      have id_eq := fronts.behind.1
      simp only [station] at id_eq ⊢
      omega
    have same_device : (srv.station slv).device = (srv.station second).device := by
      simp only [station, shared, routes.pointer]
    have kept := Station.serve_device
      (fun device => (⟨second, device⟩ : Station).Fronts (equipment other) ∧
        (equipment other).cells (⟨second, device⟩ : Station).sent =
          (equipment other).cells (srv.station second).sent) (srv.station slv) reply req rc
      (by
        rintro device transfer ⟨held, cells_eq⟩
        rcases held.beside numbers transfer with ⟨fronting, same⟩
        exact ⟨fronting, same.trans cells_eq⟩)
      (by
        rw [same_device]
        exact ⟨fronts, rfl⟩)
    have station_eq : (base.store id ((srv.station slv).serve reply req rc)).station second =
        ⟨second, ((srv.station slv).serve reply req rc).station.device⟩ := by
      rcases ((srv.station slv).serve_touched reply req rc).device_eq with ⟨ctx, device_eq⟩
      have found : (srv.station slv).device = some (srv.devices j) := by
        simp only [station, shared, Option.map_some]
      have points : ((srv.station slv).serve reply req rc).station.slave.dev = some j :=
        pointer.trans shared
      rw [found] at device_eq
      generalize (srv.station slv).serve reply req rc = served at device_eq points
      simp only [station, store, routes.pointer, Option.map_some, points, device_eq,
        Function.update_self]
    rw [station_eq]
    exact kept
  · have apart : ((srv.station slv).serve reply req rc).station.slave.dev ≠ some j := by
      rw [pointer]
      exact shared
    generalize (srv.station slv).serve reply req rc = served at apart
    have station_eq : (base.store id served).station second = srv.station second := by
      simp only [station, routes.pointer, Option.map_some, store_devices_of_ne apart, devices_eq]
    rw [station_eq]
    exact ⟨fronts, rfl⟩

/-- The slave that a message is for, afterwards. -/
theorem station_of_served (base : Server) (routes : srv.Routes id slv i) (reply : ModbusReply)
    (req : Message) (rc : ℤ) :
    (base.store id ((srv.station slv).serve reply req rc)).station
        ((srv.station slv).serve reply req rc).station.slave =
      ((srv.station slv).serve reply req rc).station := by
  rcases ((srv.station slv).serve_touched reply req rc).device_eq with ⟨ctx, device_eq⟩
  have found : (srv.station slv).device = some (srv.devices i) := by
    simp only [station, routes.pointer, Option.map_some]
  rw [found] at device_eq
  exact station_store base id (((srv.station slv).serve_dev reply req rc).trans routes.pointer) device_eq

/-- What a message for a slave of the gateway leaves of its slaves. -/
structure Leaves (srv : Server) (equipment : ℤ → Equipment) (d : Delivery) (id : ℤ) (slv : BufferedSlave)
    (served : Served) : Prop where
  stages : (srv.deliver d).stages = served.stages
  here : (srv.next d).slave id = some served.station.slave
  elsewhere : ∀ other, other ≠ id → (srv.next d).slave other = srv.slave other
  slave_eq : ∃ map idReport, served.station.slave = { slv with map, idReport }
  own : ∀ {i}, srv.Routes id slv i →
    (srv.station slv).ServesThrough (equipment id) d.req served ∧
      (srv.next d).station served.station.slave = served.station
  others : ∀ {other second i}, srv.Routes other second i → other ≠ id →
    ((srv.next d).station second).Fronts (equipment other) ∧
      (equipment other).cells ((srv.next d).station second).sent =
        (equipment other).cells (srv.station second).sent

theorem leaves_of_served (gateway : srv.Gateway equipment) (straight : srv.Straight d)
    (positive : 0 < d.rc) (addressee : d.req.slave = .ok id) (registered : srv.slave id = some slv)
    {base : Server}
    (run : srv.deliver d =
      { result := ((srv.station slv).serve d.reply d.req d.rc).result.map (·.getD 0)
        server := base.store id ((srv.station slv).serve d.reply d.req d.rc)
        stages := ((srv.station slv).serve d.reply d.req d.rc).stages })
    (base_slave : base.slave = srv.slave) (base_devices : base.devices = srv.devices) :
    srv.Leaves equipment d id slv ((srv.station slv).serve d.reply d.req d.rc) := by
  have next_eq : srv.next d = base.store id ((srv.station slv).serve d.reply d.req d.rc) := by
    rw [next, run]
  refine ⟨by rw [run], ?_, ?_, ((srv.station slv).serve_touched d.reply d.req d.rc).slave_eq, ?_, ?_⟩
  · rw [next_eq]
    exact Function.update_self ..
  · intro other ne
    rw [next_eq, ← base_slave]
    exact Function.update_of_ne ne ..
  · intro i routes
    have plain := gateway.plain routes
    refine ⟨Station.serve_through (gateway.fronts routes) plain.1 plain.2
      (straight.slaves routes positive addressee) d.reply d.rc, ?_⟩
    rw [next_eq]
    exact station_of_served base routes d.reply d.req d.rc
  · intro other second i routes ne
    rw [next_eq]
    exact fronts_of_other gateway base_devices registered routes ne d.reply d.req d.rc

section Leaves

variable {served : Served} (gateway : srv.Gateway equipment) (registered : srv.slave id = some slv)
  (leaves : srv.Leaves equipment d id slv served)

include leaves

theorem Leaves.routes_of_ne {other : ℤ} {second : BufferedSlave} (ne : other ≠ id)
    (routes : (srv.next d).Routes other second i) : srv.Routes other second i :=
  ⟨(leaves.elsewhere other ne).symm.trans routes.registered, routes.pointer⟩

include registered

theorem Leaves.routes_self {second : BufferedSlave} (routes : (srv.next d).Routes id second i) :
    srv.Routes id slv i ∧ second = served.station.slave := by
  have same := Option.some.inj (leaves.here.symm.trans routes.registered)
  rcases leaves.slave_eq with ⟨map, idReport, slave_eq⟩
  have pointer := routes.pointer
  rw [← same, slave_eq] at pointer
  exact ⟨⟨registered, pointer⟩, same.symm⟩

include gateway

theorem Leaves.keeps_gateway : (srv.next d).Gateway equipment := by
  rcases leaves.slave_eq with ⟨map, idReport, slave_eq⟩
  refine ⟨?_, ?_, ?_⟩ <;> intro other second j routes <;> by_cases same : other = id
  · subst same
    rcases leaves.routes_self registered routes with ⟨own, rfl⟩
    rcases leaves.own own with ⟨through, station_eq⟩
    rw [station_eq]
    exact through.fronts
  · exact (leaves.others (leaves.routes_of_ne same routes) same).1
  · subst same
    rcases leaves.routes_self registered routes with ⟨own, rfl⟩
    have number := gateway.numbered own
    rw [slave_eq]
    exact number
  · exact gateway.numbered (leaves.routes_of_ne same routes)
  · subst same
    rcases leaves.routes_self registered routes with ⟨own, rfl⟩
    have plain := gateway.plain own
    rw [slave_eq]
    exact plain
  · exact gateway.plain (leaves.routes_of_ne same routes)

omit gateway

theorem Leaves.transparent (positive : 0 < d.rc) (addressee : d.req.slave = .ok id) :
    srv.Transparent equipment d := by
  have alone : ∀ {other}, d.req.slave = .ok other → other = id := by
    intro other named
    exact Except.ok.inj (named.symm.trans addressee)
  refine ⟨?_, ?_, ?_⟩
  · intro other second j t place passed before answer routes reads replied
    rw [leaves.stages] at replied
    have same := alone reads.2.1
    subst same
    have slv_eq := Option.some.inj (registered.symm.trans routes.registered)
    subst slv_eq
    rw [behind_eq registered]
    exact (leaves.own routes).1.fresh t place passed before answer reads.2.2 replied
  · intro other second j t place passed before answer ret routes writes replied written nonneg
    rw [leaves.stages] at replied written
    have same := alone writes.2.1
    subst same
    have slv_eq := Option.some.inj (registered.symm.trans routes.registered)
    subst slv_eq
    rcases leaves.own routes with ⟨through, station_eq⟩
    rw [behind_eq leaves.here, station_eq]
    exact through.through t place passed before answer ret writes.2.2 replied written nonneg
  · intro other second j t place routes unwritten
    by_cases same : other = id
    · subst same
      have slv_eq := Option.some.inj (registered.symm.trans routes.registered)
      subst slv_eq
      rcases leaves.own routes with ⟨through, station_eq⟩
      rw [behind_eq leaves.here, behind_eq registered, station_eq]
      exact through.frame t place fun writes => unwritten ⟨positive, addressee, writes⟩
    · have after := (leaves.elsewhere other same).trans routes.registered
      rw [behind_eq after, behind_eq routes.registered, (leaves.others routes same).2]

end Leaves

/-- A step: a message that is straight keeps the gateway and is transparent. -/
theorem next_gateway (gateway : srv.Gateway equipment) (straight : srv.Straight d) :
    (srv.next d).Gateway equipment ∧ srv.Transparent equipment d := by
  rcases srv.deliver_cases straight.link with
    ⟨slave_eq, devices_eq, stages_eq⟩ | ⟨id, slv, dev, positive, addressee, registered, run⟩
  · exact transparent_of_idle gateway slave_eq devices_eq stages_eq
  · have leaves := leaves_of_served gateway straight positive addressee registered run rfl rfl
    exact ⟨leaves.keeps_gateway gateway registered, leaves.transparent registered positive addressee⟩

/-- However the messages follow each other, those that are straight are transparent. -/
theorem transparent_of_run (gateway : srv.Gateway equipment) {run : List Delivery}
    (straight : Process.Along next Straight srv run) :
    Process.Along next (Transparent equipment) srv run := by
  apply Process.Along.of_invariant (fun srv => srv.Gateway equipment)
  · intro srv d gateway straight
    exact (next_gateway gateway straight).1
  · intro srv d gateway straight
    exact (next_gateway gateway straight).2
  · exact gateway
  · exact straight

/-- A router with two registers in front of registers that all hold 5. -/
def fronting : Server :=
  { routing 0 with
    slave := Function.update (fun _ => none) 1 (some Station.remote.slave)
    devices := fun _ =>
      { Device.create .rtu { Context.silent with
          answer := fun history sent => Equipment.fives.answer history sent.transfer } with
        isOpen := true } }

theorem fronting_slave (routes : fronting.Routes id slv i) :
    id = 1 ∧ slv = Station.remote.slave := by
  have registered := routes.registered
  simp only [fronting, Function.update_apply] at registered
  split at registered
  · next same => exact ⟨same, (Option.some.inj registered).symm⟩
  · cases registered

theorem fronting_gateway : fronting.Gateway fun _ => Equipment.fives := by
  refine ⟨?_, ?_, ?_⟩
  · intro id slv i routes
    rcases fronting_slave routes with ⟨rfl, rfl⟩
    refine ⟨rfl, ⟨rfl, _, rfl, fun _ _ => rfl⟩, ?_⟩
    intro t
    cases t with
    | holdingRegister => exact Or.inr ⟨[0, 0], rfl, rfl, by decide⟩
    | coil => exact Or.inl ⟨rfl, rfl⟩
    | discreteInput => exact Or.inl ⟨rfl, rfl⟩
    | inputRegister => exact Or.inl ⟨rfl, rfl⟩
  · intro id slv i routes
    rcases fronting_slave routes with ⟨rfl, rfl⟩
    rfl
  · intro id slv i routes
    rcases fronting_slave routes with ⟨rfl, rfl⟩
    exact ⟨rfl, rfl⟩

/-- A request for the first registers is straight where the blocks have two of them. -/
theorem straight_of_two {req : Message} {func : Function} {nb : ℕ} {rc : ℤ} (received : 0 < rc)
    (blocks : ∀ {id slv i}, srv.Routes id slv i →
      (slv.map .holdingRegister).start = 0 ∧ (slv.map .holdingRegister).nb = 2)
    (requests : req.Requests func 0 nb) (relay : func.relayed = some .holdingRegister)
    (few : Station.addressed func nb ≤ 2) : srv.Straight (.frame req rc) := by
  constructor
  · intro id slv i routes _ _ other start quantity t same relayed
    rcases blocks routes with ⟨start_eq, nb_eq⟩
    rcases requests.unique same with ⟨rfl, rfl, rfl⟩
    rw [relay] at relayed
    cases relayed
    exact ⟨rfl, by omega, by omega, by omega⟩
  · intro failed
    change rc = -1 at failed
    omega

/-- A request that sets the first register to 9, and one that reads it. -/
theorem fronting_requests : ∃ write read,
    Message.create (.net .rtu) (.adu [1, 6, 0, 0, 0, 9, 0x49, 0xCC]) = .ok write ∧
      Message.create (.net .rtu) (.adu [1, 3, 0, 0, 0, 1, 0x84, 0x0A]) = .ok read ∧
      Process.Along next Straight fronting [.frame write 8, .frame read 8] ∧
      (Delivery.frame write 8).WritesCell 1 .holdingRegister 0 ∧
      (Delivery.frame read 8).ReadsCell 1 .holdingRegister 0 := by
  refine ⟨_, _, rfl, rfl, ⟨?_, ?_, trivial⟩, ⟨by decide, rfl, ?_⟩, ⟨by decide, rfl, ?_⟩⟩
  · apply straight_of_two (by decide) _ ⟨rfl⟩ rfl (by decide)
    intro id slv i routes
    rw [(fronting_slave routes).2]
    exact ⟨rfl, rfl⟩
  · apply straight_of_two (by decide) _ ⟨rfl⟩ rfl (by decide)
    intro id slv i routes
    have registered := routes.registered
    change Function.update (Function.update (fun _ => none) 1 _) 1 (some _) id = some slv at registered
    rw [Function.update_idem, Function.update_apply] at registered
    split at registered
    · cases registered
      exact ⟨rfl, rfl⟩
    · cases registered
  · exact ⟨.writeSingleRegister, rfl, rfl, by decide, _, ⟨rfl⟩, by decide⟩
  · exact ⟨.readHoldingRegisters, rfl, rfl, by decide, _, ⟨rfl⟩, by decide⟩

/-- Both requests are transparent. -/
theorem transparent_of_run_fronting : ∃ write read,
    Message.create (.net .rtu) (.adu [1, 6, 0, 0, 0, 9, 0x49, 0xCC]) = .ok write ∧
      Message.create (.net .rtu) (.adu [1, 3, 0, 0, 0, 1, 0x84, 0x0A]) = .ok read ∧
      Process.Along next (Transparent fun _ => Equipment.fives) fronting
        [.frame write 8, .frame read 8] := by
  rcases fronting_requests with ⟨write, read, write_eq, read_eq, straight, _, _⟩
  exact ⟨write, read, write_eq, read_eq, transparent_of_run fronting_gateway straight⟩

end Server

end Modbuspp
