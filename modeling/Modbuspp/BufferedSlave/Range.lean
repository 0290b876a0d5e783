import Modbuspp.BufferedSlave.Address

/-!
# Cells touched by the relays

The clamping keeps every request inside a block that has storage. For a block without elements it
gives the position before the first one. Blocks without storage are met in practice: those that were
never set, those set to zero elements, and those whose storage could not be reallocated, which still
announce their old number of elements.
-/

namespace Modbuspp

namespace Block

variable {α : Type} {block : Block α}

theorem empty_sound : (empty : Block α).Sound where
  nb_nonneg := Int.le_refl 0
  storage := by
    intro cells found
    cases found

/-- Whatever is asked for, and whether or not memory is granted, setting a block leaves it sound when
the call returns. -/
theorem Sound.set {zero : α} {scale : ℕ} {start nmemb rc : ℤ} {fresh : Option (ℕ → α)}
    {after : Block α} (sound : block.Sound)
    (returned : block.set zero scale start nmemb fresh = (.ok rc, after)) : after.Sound := by
  rw [Block.set] at returned
  split at returned
  · next free =>
    cases returned
    exact ⟨by change 0 ≤ nmemb; omega, by intro cells found; cases found⟩
  · next some_nmemb =>
    split at returned
    · next different =>
      split at returned
      · -- No memory.
        cases returned
        exact ⟨sound.nb_nonneg, by intro cells found; cases found⟩
      · next noStorage granted =>
        have nonneg : 0 ≤ nmemb := by
          by_contra negative
          simp [allocate, negative] at granted
        cases returned
        refine ⟨nonneg, ?_⟩
        intro cells found
        cases found
        rw [List.length_replicate]
        change nmemb = _ ∧ _
        omega
      · next cells contents storage granted =>
        have nonneg : 0 ≤ nmemb := by
          by_contra negative
          simp [allocate, negative] at granted
        have length := length_moved cells nmemb.toNat contents
        simp only [moved] at length
        dsimp only at returned
        split at returned
        · split at returned
          · cases returned
          · next cleared stored =>
            have clearedLength := (Storage.length_of_blit stored).trans length
            cases returned
            refine ⟨nonneg, ?_⟩
            intro found same
            cases same
            change nmemb = _ ∧ _
            omega
        · cases returned
          refine ⟨nonneg, ?_⟩
          intro found same
          cases same
          change nmemb = _ ∧ _
          omega
    · next same =>
      cases returned
      have nb_eq : block.nb = nmemb := by omega
      exact ⟨nb_eq ▸ sound.nb_nonneg, fun cells found => nb_eq ▸ sound.storage cells found⟩

theorem SameLayout.refl (block : Block α) : block.SameLayout block := ⟨rfl, rfl, rfl⟩

/-- A block without storage has no cell that could be stored to. -/
theorem sameLayout_store {after : Block α} {offset : ℤ} {values : List α}
    (nonempty : block.cells ≠ []) (stored : block.store offset values = .ok after) :
    block.SameLayout after := by
  simp only [Block.store] at stored
  split at stored
  · cases stored
  · next cells blitted =>
    have length_eq := Storage.length_of_blit blitted
    cases stored
    refine ⟨rfl, rfl, ?_⟩
    cases storage : block.tab with
    | none => simp [Block.cells, storage] at nonempty
    | some before =>
        rw [cells_of_some storage] at length_eq
        exact congrArg some length_eq

end Block

theorem Mapping.Sound.update {map : Mapping} {t : Table} {block : Block t.Cell} (sound : map.Sound)
    (block_sound : block.Sound) : Mapping.Sound (Function.update map t block) := by
  intro other
  by_cases same : other = t
  · subst same
    rw [Function.update_self]
    exact block_sound
  · rw [Function.update_of_ne same]
    exact sound other

/-- The mappings that a buffered slave can have: blocks are set in any way, and the values of cells
change in any way. -/
inductive Mapping.Reachable : Mapping → Prop where
  | new : Reachable fun _ => Block.empty
  | setBlock {slv after : BufferedSlave} {t : Table} {nmemb startAddr rc : ℤ}
      {fresh : Option (ℕ → t.Cell)} (before : Reachable slv.map)
      (returned : slv.setBlock t nmemb startAddr fresh = (.ok rc, after)) : Reachable after.map
  | stored {map other : Mapping} (before : Reachable map)
      (same : ∀ t, (map t).SameLayout (other t)) : Reachable other

theorem Mapping.Reachable.sound {map : Mapping} (reachable : map.Reachable) : map.Sound := by
  intro t
  induction reachable generalizing t with
  | new => exact Block.empty_sound
  | @setBlock slv after table nmemb startAddr rc fresh before returned ih =>
      rw [BufferedSlave.setBlock_eq, BufferedSlave.setTableBlock] at returned
      cases result : (slv.map table).set table.zero (BufferedSlave.clearScale table)
        (slv.pduAddress (slv.blockAddress startAddr)) nmemb fresh with
      | mk returnCode block =>
          rw [result] at returned
          cases returned
          exact Mapping.Sound.update ih ((ih table).set result) t
  | stored before same ih => exact (ih t).of_sameLayout (same t)

namespace Station

variable {st : Station} {req : Message} {func : Function} {t : Table}

/-- What the relay of reads can do to a station: the cells of the slave and its report get other
values, and transfers are sent over the link of the device. -/
structure Refreshed (st after : Station) : Prop where
  slave_eq : ∃ (map : Mapping) (idReport : List UInt8),
    after.slave = { st.slave with map, idReport } ∧ ∀ t, (st.slave.map t).SameLayout (map t)
  isOpen_eq : after.isOpen = st.isOpen
  sent_eq : ∃ transfers, after.sent = st.sent ++ transfers

/-- The device of a station, before or after one transfer. -/
def Exchanged (st : Station) (device : Option Device) : Prop :=
  device = st.device ∨ ∃ transfer, device = (st.transferred transfer).device

theorem exchange_exchanged (st : Station) (transfer : Transfer) :
    st.Exchanged (st.slave.toSlave.exchange st.device transfer).2 := by
  cases found : st.device with
  | none => exact Or.inl found.symm
  | some dev =>
      cases valid : st.slave.toSlave.isValid (some dev) with
      | false =>
          left
          simp only [Slave.exchange, valid, found, Bool.false_eq_true, if_false]
      | true =>
          cases accepts : dev.ctx.accepts st.slave.id with
          | false =>
              rw [Slave.exchange_refused transfer valid accepts]
              exact Or.inl found.symm
          | true =>
              rw [Slave.exchange_accepted transfer valid accepts]
              refine Or.inr ⟨transfer, ?_⟩
              simp only [transferred, found, Option.map_some]

theorem refreshed_of_exchanged {device : Option Device} {map : Mapping} (idReport : List UInt8)
    (exchanged : st.Exchanged device) (same : ∀ t, (st.slave.map t).SameLayout (map t)) :
    st.Refreshed { slave := { st.slave with map, idReport }, device } := by
  refine ⟨⟨map, idReport, rfl, same⟩, ?_, ?_⟩ <;> rcases exchanged with rfl | ⟨transfer, rfl⟩
  · rfl
  · simp only [isOpen, transferred]
    cases st.device <;> rfl
  · exact ⟨[], (List.append_nil _).symm⟩
  · simp only [sent, transferred]
    cases st.device with
    | none => exact ⟨[], rfl⟩
    | some dev => exact ⟨[⟨st.slave.id, transfer⟩], rfl⟩

theorem refreshed_device {device : Option Device} (exchanged : st.Exchanged device) :
    st.Refreshed { st with device } :=
  refreshed_of_exchanged st.slave.idReport exchanged fun _ => Block.SameLayout.refl _

theorem refreshed_refl (st : Station) : st.Refreshed st := refreshed_device (Or.inl rfl)

theorem relayRead_refreshed (t : Table) (start nb : ℤ)
    (read : ℤ → ℤ → Except Fault (ℤ × Option Payload) × Option Device)
    (exchanged : ∀ addr nb, st.Exchanged (read addr nb).2) :
    st.Refreshed (st.relayRead t start nb read).2 := by
  by_cases empty : (st.slave.map t).cells = []
  · simp only [relayRead, Block.elementAt_of_empty empty]
    exact refreshed_refl st
  · have moved := exchanged (st.relayAddress ((st.slave.map t).clamp start))
      (min nb ((st.slave.map t).nb - ((st.slave.map t).clamp start - (st.slave.map t).start)))
    simp only [relayRead]
    split
    · exact refreshed_refl st
    · split
      · next failed =>
        rw [failed] at moved
        exact refreshed_device moved
      · next nothing =>
        rw [nothing] at moved
        exact refreshed_device moved
      · next answered =>
        rw [answered] at moved
        split
        · exact refreshed_device moved
        · next stored =>
          apply refreshed_of_exchanged st.slave.idReport moved
          intro other
          by_cases same : other = t
          · subst same
            rw [Function.update_self]
            exact Block.sameLayout_store empty stored
          · rw [Function.update_of_ne same]
            exact Block.SameLayout.refl _

/-- The relay of an identification changes the cached report only. -/
theorem relayReportServerId_eq (st : Station) :
    ∃ result idReport device, st.relayReportServerId =
      (result, { slave := { st.slave with idReport }, device }) ∧ st.Exchanged device := by
  have moved := exchange_exchanged st
    (.reportSlaveId (Storage.resize st.slave.idReport maxPduLength 0).length)
  simp only [relayReportServerId, Slave.reportSlaveId]
  split
  · next failed =>
    rw [failed] at moved
    exact ⟨_, _, _, rfl, moved⟩
  · next answered =>
    rw [answered] at moved
    split
    · exact ⟨_, _, _, rfl, moved⟩
    · exact ⟨_, _, _, rfl, moved⟩

theorem readFromDevice_refreshed (st : Station) (req : Option Message) :
    st.Refreshed (st.readFromDevice req).2 := by
  rcases st.readFromDevice_cases req with ⟨result, run⟩ | ⟨t, start, nb, run⟩ | run
  · rw [run]
    exact refreshed_refl st
  · rw [run]
    apply relayRead_refreshed
    intro addr nb
    exact exchange_exchanged st _
  · rcases st.relayReportServerId_eq with ⟨result, idReport, device, reported, exchanged⟩
    rw [run, reported]
    apply refreshed_of_exchanged idReport exchanged
    intro t
    exact Block.SameLayout.refl _

theorem Refreshed.sound {after : Station} (refreshed : st.Refreshed after)
    (sound : st.slave.map.Sound) : after.slave.map.Sound := by
  rcases refreshed.slave_eq with ⟨map, idReport, slave_eq, same⟩
  rw [slave_eq]
  exact fun t => (sound t).of_sameLayout (same t)

/-- The end of a relay that writes, given what the write ends with. -/
theorem exchanged_answer {run : Except Fault (ℤ × Option Payload) × Option Device}
    (moved : st.Exchanged run.2) :
    ∃ result device,
      (match run with
        | (.error fault, device) => (.error fault, { st with device })
        | (.ok (rc, _), device) => (.ok rc, { st with device }) : Except Fault ℤ × Station) =
          (result, { st with device }) ∧ st.Exchanged device := by
  rcases run with ⟨fault | ⟨rc, payload⟩, device⟩
  · exact ⟨_, _, rfl, moved⟩
  · exact ⟨_, _, rfl, moved⟩

theorem relayWriteOne_eq (t : Table) (start : ℤ)
    (write : ℤ → t.Cell → Except Fault (ℤ × Option Payload) × Option Device)
    (exchanged : ∀ addr value, st.Exchanged (write addr value).2) :
    ∃ result device, st.relayWriteOne t start write = (result, { st with device }) ∧
      st.Exchanged device := by
  simp only [relayWriteOne]
  split
  · exact ⟨_, st.device, rfl, Or.inl rfl⟩
  · next value _ =>
    exact exchanged_answer (exchanged (st.relayAddress ((st.slave.map t).clamp start)) value)

theorem relayWrite_eq (t : Table) (start nb : ℤ)
    (write : ℤ → List t.Cell → Except Fault (ℤ × Option Payload) × Option Device)
    (exchanged : ∀ addr src, st.Exchanged (write addr src).2) :
    ∃ result device, st.relayWrite t start nb write = (result, { st with device }) ∧
      st.Exchanged device := by
  simp only [relayWrite]
  split
  · exact ⟨_, st.device, rfl, Or.inl rfl⟩
  · next src _ =>
    exact exchanged_answer (exchanged (st.relayAddress ((st.slave.map t).clamp start)) src)

/-- The relay of writes changes the device only. -/
theorem writeToDevice_eq (st : Station) (req : Option Message) :
    ∃ result device, st.writeToDevice req = (result, { st with device }) ∧ st.Exchanged device := by
  rcases st.writeToDevice_cases req with ⟨result, run⟩ | ⟨t, start, run⟩ | ⟨t, start, nb, run⟩
  · exact ⟨result, st.device, run, Or.inl rfl⟩
  · rw [run]
    apply relayWriteOne_eq
    intro addr value
    exact exchange_exchanged st _
  · rw [run]
    apply relayWrite_eq
    intro addr src
    exact exchange_exchanged st _

theorem writeToDevice_slave (st : Station) (req : Option Message) :
    (st.writeToDevice req).2.slave = st.slave := by
  rcases st.writeToDevice_eq req with ⟨result, device, run, _⟩
  rw [run]

theorem relayRead_exchanged (t : Table) (start nb : ℤ)
    (read : ℤ → ℤ → Except Fault (ℤ × Option Payload) × Option Device)
    (exchanged : ∀ addr nb, st.Exchanged (read addr nb).2) :
    st.Exchanged (st.relayRead t start nb read).2.device := by
  have moved := exchanged (st.relayAddress ((st.slave.map t).clamp start))
    (min nb ((st.slave.map t).nb - ((st.slave.map t).clamp start - (st.slave.map t).start)))
  simp only [relayRead]
  split
  · exact Or.inl rfl
  · split
    · next failed =>
      rw [failed] at moved
      exact moved
    · next nothing =>
      rw [nothing] at moved
      exact moved
    · next answered =>
      rw [answered] at moved
      split <;> exact moved

theorem readFromDevice_exchanged (st : Station) (req : Option Message) :
    st.Exchanged (st.readFromDevice req).2.device := by
  rcases st.readFromDevice_cases req with ⟨result, run⟩ | ⟨t, start, nb, run⟩ | run
  · rw [run]
    exact Or.inl rfl
  · rw [run]
    apply relayRead_exchanged
    intro addr nb
    exact exchange_exchanged st _
  · rcases st.relayReportServerId_eq with ⟨result, idReport, device, reported, exchanged⟩
    rw [run, reported]
    exact exchanged

theorem writeToDevice_exchanged (st : Station) (req : Option Message) :
    st.Exchanged (st.writeToDevice req).2.device := by
  rcases st.writeToDevice_eq req with ⟨result, device, run, exchanged⟩
  rw [run]
  exact exchanged

/-- A transfer changes nothing of a device but its context. -/
theorem Exchanged.device_eq {device : Option Device} (exchanged : st.Exchanged device) :
    ∃ ctx, device = st.device.map fun dev => { dev with ctx } := by
  rcases exchanged with rfl | ⟨transfer, rfl⟩
  · cases st.device with
    | none => exact ⟨Context.silent, rfl⟩
    | some dev => exact ⟨dev.ctx, rfl⟩
  · simp only [transferred]
    cases st.device with
    | none => exact ⟨Context.silent, rfl⟩
    | some dev => exact ⟨_, rfl⟩

section Empty

variable (t) (empty : (st.slave.map t).cells = []) (start nb : ℤ)

include empty

theorem relayRead_of_empty
    (read : ℤ → ℤ → Except Fault (ℤ × Option Payload) × Option Device) :
    st.relayRead t start nb read = (.error .outOfBounds, st) := by
  simp only [relayRead, Block.elementAt_of_empty empty]

theorem relayWriteOne_of_empty
    (write : ℤ → t.Cell → Except Fault (ℤ × Option Payload) × Option Device) :
    st.relayWriteOne t start write = (.error .outOfBounds, st) := by
  simp only [relayWriteOne, Block.elementAt_of_empty empty]

theorem relayWrite_of_empty
    (write : ℤ → List t.Cell → Except Fault (ℤ × Option Payload) × Option Device) :
    st.relayWrite t start nb write = (.error .outOfBounds, st) := by
  simp only [relayWrite, Block.elementAt_of_empty empty, error_bind]

end Empty

theorem relayReportServerId_inBounds (open_ : st.isOpen = true) :
    st.relayReportServerId.1 ≠ .error .outOfBounds := by
  simp only [relayReportServerId, Slave.reportSlaveId, exchange_eq open_]
  cases st.accepted with
  | false => simp
  | true =>
      simp only [if_true]
      split <;> simp

/-- Neither direction of the relay leaves the table that it addresses, and a table without elements is
not transferred. -/
def RelaySafe (st : Station) (req : Message) (func : Function) : Prop :=
  (st.readFromDevice (some req)).1 ≠ .error .outOfBounds ∧
    (st.writeToDevice (some req)).1 ≠ .error .outOfBounds ∧
      ∀ t, func.relayed = some t → (st.slave.map t).cells = [] →
        (st.readFromDevice (some req)).2.sent = st.sent ∧
          (st.writeToDevice (some req)).2.sent = st.sent

/-- The table that the relay addresses, if there is a relay, has elements. -/
def AddressesElements (st : Station) (func : Function) : Prop :=
  ∀ t, func.relayed = some t → (st.slave.map t).cells ≠ []

theorem returned_ne_fault {accepted : Bool} {rc refused : ℤ} {after before : Station}
    {run : Except Fault ℤ × Station}
    (run_eq : run = if accepted then (.ok rc, after) else (.ok refused, before)) :
    run.1 ≠ .error .outOfBounds := by
  rw [run_eq]
  cases accepted <;> simp

theorem relaySafe_of_elements {start nb : ℕ} (open_ : st.isOpen = true)
    (sound : st.slave.map.Sound) (requests : req.Requests func start nb)
    (elements : st.AddressesElements func) : st.RelaySafe req func := by
  refine ⟨?_, ?_, fun t relay empty => absurd empty (elements t relay)⟩
  · cases read : func.reads with
    | some t =>
        have relay := Function.relayed_of_reads read
        rcases relayRead_spec t open_ (sound t) (elements t relay) start nb with
          ⟨_, _, _, _, _, _, run⟩
        rw [readFromDevice_eq open_ requests read]
        exact returned_ne_fault run
    | none =>
        rw [readFromDevice_eq_of_not_reads open_ requests read]
        split
        · exact relayReportServerId_inBounds open_
        · simp
  · cases one : func.writesOne with
    | some t =>
        have relay := Function.relayed_of_writesOne one
        rcases relayWriteOne_spec t open_ (sound t) (elements t relay) start with
          ⟨_, _, _, _, _, _, run⟩
        rw [writeToDevice_eq_of_writesOne open_ requests one]
        exact returned_ne_fault run
    | none =>
        cases several : func.writes with
        | some t =>
            have relay := Function.relayed_of_writes several
            rcases relayWrite_spec t open_ (sound t) (elements t relay) start nb with
              ⟨_, _, _, _, _, _, run⟩
            rw [writeToDevice_eq_of_writes open_ requests several]
            exact returned_ne_fault run
        | none =>
            rw [writeToDevice_eq_of_not_writes open_ requests one several]
            simp

/-- The relays stay inside the table they address exactly when the device is closed or the table has
elements. -/
theorem relaySafe_iff {start nb : ℕ} (reachable : st.slave.map.Reachable)
    (requests : req.Requests func start nb) :
    st.RelaySafe req func ↔ st.isOpen = false ∨ st.AddressesElements func := by
  cases open_ : st.isOpen with
  | false =>
      have read := readFromDevice_of_closed req open_
      have write := writeToDevice_of_closed req open_
      refine iff_of_true ⟨?_, ?_, ?_⟩ (Or.inl rfl)
      · rw [read]
        simp
      · rw [write]
        simp
      · intro t _ _
        rw [read, write]
        exact ⟨rfl, rfl⟩
  | true =>
      simp only [Bool.true_eq_false, false_or]
      constructor
      · rintro ⟨readSafe, writeSafe, _⟩ t relay empty
        rcases func.relayed_cases relay with ⟨read, _, _⟩ | ⟨_, one, _⟩ | ⟨_, _, several⟩
        · rw [readFromDevice_eq open_ requests read, relayRead_of_empty t empty] at readSafe
          exact readSafe rfl
        · rw [writeToDevice_eq_of_writesOne open_ requests one,
            relayWriteOne_of_empty t empty] at writeSafe
          exact writeSafe rfl
        · rw [writeToDevice_eq_of_writes open_ requests several,
            relayWrite_of_empty t empty] at writeSafe
          exact writeSafe rfl
      · exact relaySafe_of_elements open_ reachable.sound requests

theorem relaySafe_iff_of_fresh :
    ∃ req, Message.create (.net .rtu) (.adu [1, 5, 0, 0, 0xFF, 0]) = .ok req ∧
      (fresh.RelaySafe req .writeSingleCoil ↔
        fresh.isOpen = false ∨ fresh.AddressesElements .writeSingleCoil) := by
  refine ⟨_, rfl, ?_⟩
  apply relaySafe_iff
  · exact .new
  · exact ⟨rfl⟩

/-- A register of a slave that never had a block is requested. -/
theorem missing_block_indexed :
    ∃ req, Message.create (.net .rtu) (.adu [1, 3, 0, 0, 0, 1]) = .ok req ∧
      fresh.slave.map.Reachable ∧ fresh.isOpen = true ∧
      (fresh.readFromDevice (some req)).1 = .error .outOfBounds ∧
      ¬fresh.RelaySafe req .readHoldingRegisters := by
  refine ⟨_, rfl, .new, rfl, rfl, ?_⟩
  rintro ⟨readSafe, _⟩
  exact readSafe rfl

end Station

end Modbuspp
