import Modbuspp.BufferedSlave.Address
import Modbuspp.Server.Task

/-!
# Acknowledged writes

A client that gets a normal answer to a write should find the written cells in the equipment. The relay
of writes knows four of the six functions by which libmodbus writes to a mapping, and the addresses that
it passes on are right for the first address only.
-/

namespace Modbuspp

/-- The cells that a request writes: the table, the first address and the number of cells. -/
inductive Message.Writes (req : Message) : Function → Table → ℕ → ℕ → Prop where
  | one {func : Function} {t : Table} {start nb : ℕ} (requests : req.Requests func start nb)
      (code : func.writesOne = some t) : Writes req func t start 1
  | several {func : Function} {t : Table} {start nb : ℕ} (requests : req.Requests func start nb)
      (code : func.writes = some t) : Writes req func t start nb
  | mask {start nb : ℕ} (requests : req.Requests .maskWriteRegister start nb) :
      Writes req .maskWriteRegister .holdingRegister start 1
  /-- The part of the request that is written follows the part that is read. -/
  | writeAndRead {readStart readNb : ℕ} {start nb : UInt16}
      (requests : req.Requests .readWriteMultipleRegisters readStart readNb)
      (start_eq : req.word 5 = .ok start) (nb_eq : req.word 7 = .ok nb) :
      Writes req .readWriteMultipleRegisters .holdingRegister start.toNat nb.toNat

/-- A request executed as a write on a mapping and acknowledged by a normal answer. -/
structure Reply.Acknowledges (answer : Reply) (req : Message) (before : Mapping) (func : Function)
    (t : Table) (start count : ℕ) : Prop where
  writes : req.Writes func t start count
  normal : answer.exception = false
  sent : 0 ≤ answer.rc
  some_cells : 0 < count
  inRange : ∀ address : ℤ, start ≤ address → address < start + count →
    ∃ value, (before t).valueAt address = some value

/-- A transfer brings a value to an address of a table. -/
inductive Transfer.Carries : Transfer → (t : Table) → ℤ → t.Cell → Prop where
  | one (t : Table) (address : ℤ) (value : t.Cell) : Carries (.writeOne t address value) t address value
  | several {t : Table} {addr address : ℤ} {src : List t.Cell} {value : t.Cell}
      (found : Storage.read src (address - addr) = some value) :
      Carries (.write t addr src) t address value

/-- No relay of the message has failed. -/
def Handled.DeviceSucceeded (handled : Handled) : Prop :=
  ∀ ret, .readFromDevice ret ∈ handled.stages ∨ .writeToDevice ret ∈ handled.stages → 0 ≤ ret

/-- The task has returned, and every cell of a write has since been sent to the device of the slave with
the value it has in the mapping. -/
def Handled.Relayed (handled : Handled) (srv : Server) (id : ℤ) (slv : BufferedSlave) (t : Table)
    (start count : ℕ) : Prop :=
  (∃ rc, handled.result = .ok rc) ∧
    ∃ after transfers, handled.server.slave id = some after ∧
      (handled.server.station after).sent = (srv.station slv).sent ++ transfers ∧
      ∀ address : ℤ, start ≤ address → address < start + count →
        ∃ value transfer, (after.map t).valueAt address = some value ∧
          ⟨slv.id, transfer⟩ ∈ transfers ∧ transfer.Carries t address value

/-- No acknowledged write is lost. -/
def Server.AcknowledgedRelayed (srv : Server) (d : Delivery) : Prop :=
  ∀ id slv, d.req.slave = .ok id → srv.slave id = some slv → (srv.station slv).isOpen = true →
    ∀ req before answer func t start count,
      .reply req before answer ∈ (srv.deliver d).stages →
      answer.Acknowledges req before func t start count →
      (srv.deliver d).DeviceSucceeded → (srv.deliver d).Relayed srv id slv t start count

/-- The callback after a reply lets the request pass: it leaves it as it is, does not declare it
processed and moves no block. -/
def BufferedSlave.LetsPass (slv : BufferedSlave) (req : Message) (map : Mapping) : Prop :=
  ∃ left, Callback.outcome slv.afterReplyCB req map = (0, req, left) ∧
    ∀ t, (map t).SameLayout (left t)

/-- The request that the first callback leaves is one that the relay of writes gets right, if it is
acknowledged at all: its function is relayed, it starts at the first address, and the second callback
lets it pass. The cells may have any values, since the relay of reads comes first. -/
def BufferedSlave.Relayable (slv : BufferedSlave) (reply : ModbusReply) (req : Message) (rc : ℤ) :
    Prop :=
  ∀ map passed before, (∀ t, (slv.map t).SameLayout (map t)) →
    Callback.outcome slv.beforeReplyCB req map = (0, passed, before) →
    ∀ func t start count,
      (reply.run passed rc before).Acknowledges passed before func t start count →
      func.relayed = some t ∧ start = 0 ∧ slv.LetsPass passed (reply.run passed rc before).map

/-- If the message is for a slave with an open device, the relay of writes gets it right. -/
def Server.Relayable (srv : Server) (d : Delivery) : Prop :=
  ∀ id slv, d.req.slave = .ok id → srv.slave id = some slv → (srv.station slv).isOpen = true →
    slv.Relayable d.reply d.req d.rc

namespace Block

variable {α : Type} {block : Block α} {start count : ℤ}

theorem cells_of_inRange (some_cells : 0 < count)
    (inRange : ∀ address, start ≤ address → address < start + count →
      ∃ value, block.valueAt address = some value) :
    block.start ≤ start ∧ start + count ≤ block.start + block.cells.length := by
  have first := exists_valueAt_iff.mp (inRange start (by omega) (by omega))
  have last := exists_valueAt_iff.mp (inRange (start + count - 1) (by omega) (by omega))
  omega

theorem within_of_cells (start count : ℤ) (sound : block.Sound) (some_cells : 0 < count)
    (inRange : block.start ≤ start ∧ start + count ≤ block.start + block.cells.length) :
    block.cells ≠ [] ∧ block.Within start count := by
  have nonempty : block.cells ≠ [] := by
    apply List.ne_nil_of_length_pos
    omega
  have spec := sound.cells_spec nonempty
  exact ⟨nonempty, ⟨by omega, by omega, by omega⟩⟩

end Block

namespace Station

variable {st : Station} {reply : ModbusReply} {req passed : Message} {rc : ℤ} {before : Mapping}
  {answer : Reply} {func : Function} {t : Table} {start count : ℕ}

/-- The write that a relay makes of a request at the first address. -/
theorem writeToDevice_carries (st : Station) (open_ : st.isOpen = true) (sound : (st.slave.map t).Sound)
    (writes : req.Writes func t start count) (relay : func.relayed = some t) (first : start = 0)
    (some_cells : 0 < count)
    (inRange : (st.slave.map t).start ≤ 0 ∧
      (count : ℤ) ≤ (st.slave.map t).start + (st.slave.map t).cells.length) :
    ∃ transfer rc,
      (st.writeToDevice (some req) =
        if st.accepted then (.ok rc, st.transferred transfer) else (.ok (-1), st)) ∧
      ∀ address : ℤ, 0 ≤ address → address < count →
        ∃ value, (st.slave.map t).valueAt address = some value ∧
          transfer.Carries t address value := by
  have right := (pduAddress_relayAddress_eq_iff st).mpr first
  rcases Block.within_of_cells start count sound (by omega) (by omega) with
    ⟨nonempty, within⟩
  have clamped : (st.slave.map t).clamp start = start := by
    rcases Block.clamp_of_within within with same | ⟨positive, _⟩
    · exact same
    · omega
  have whole := Block.remaining_of_within within
  cases writes with
  | one requests code =>
      rcases relayWriteOne_spec t open_ sound nonempty start with
        ⟨_, value, transfer, rfl, cell, rfl, run⟩
      rw [clamped] at cell run
      rw [right, ← writeToDevice_eq_of_writesOne open_ requests code] at run
      refine ⟨_, _, run, ?_⟩
      intro address lower upper
      have only : address = start := by omega
      subst only
      exact ⟨value, Storage.read_eq_some_iff.mpr ⟨by omega, cell⟩, .one t start value⟩
  | several requests code =>
      rcases relayWrite_spec t open_ sound nonempty start count with
        ⟨_, _, transfer, rfl, rfl, rfl, run⟩
      rw [clamped, whole] at run
      rw [right, ← writeToDevice_eq_of_writes open_ requests code] at run
      refine ⟨_, _, run, ?_⟩
      intro address lower upper
      rcases Block.exists_valueAt_iff.mpr (⟨by omega, by omega⟩ :
        (st.slave.map t).start ≤ address ∧
          address < (st.slave.map t).start + (st.slave.map t).cells.length) with ⟨value, found⟩
      refine ⟨value, found, .several (Storage.read_eq_some_iff.mpr ⟨by omega, ?_⟩)⟩
      have cell := (Storage.read_eq_some_iff.mp found).2
      rw [List.getElem?_take_of_lt (by omega), List.getElem?_drop, ← cell]
      congr 1
      omega
  | mask requests => cases relay
  | writeAndRead code start_eq nb_eq => cases relay

/-- An acknowledged write that the relay gets right is the last transfer to the device. -/
theorem serve_carries (open_ : st.isOpen = true) (sound : st.slave.map.Sound)
    (replied : .reply passed before answer ∈ (st.serve reply req rc).stages)
    (acknowledged : answer.Acknowledges passed before func t start count)
    (relayable : st.slave.Relayable reply req rc)
    (succeeded : ∀ ret, .writeToDevice ret ∈ (st.serve reply req rc).stages → 0 ≤ ret) :
    ∃ read after transfer, st.Refreshed read ∧ (st.serve reply req rc).result = .ok none ∧
      (st.serve reply req rc).station = (read.withMap after).transferred transfer ∧
      ∀ address : ℤ, start ≤ address → address < start + count →
        ∃ value, (after t).valueAt address = some value ∧ transfer.Carries t address value := by
  rcases serve_of_replied replied with ⟨ret, read, run, outcome_eq, answer_eq, continues⟩
  have refreshed := readFromDevice_refreshed st (some req)
  rw [run] at refreshed
  have read_open := refreshed.isOpen_eq.trans open_
  have before_sound :=
    Callback.outcome_sound read.slave.beforeReplyCB req (refreshed.sound sound)
  rw [outcome_eq] at before_sound
  rcases refreshed.slave_eq with ⟨map, idReport, slave_eq, same⟩
  have beforeCB : read.slave.beforeReplyCB = st.slave.beforeReplyCB := by rw [slave_eq]
  have afterCB : read.slave.afterReplyCB = st.slave.afterReplyCB := by rw [slave_eq]
  have map_eq : read.slave.map = map := by rw [slave_eq]
  rw [beforeCB, map_eq] at outcome_eq
  have passes := relayable map passed before same outcome_eq func t start count
  rw [← answer_eq] at passes
  rcases passes acknowledged with ⟨relay, first, left, left_eq, kept⟩
  rw [← afterCB] at left_eq
  have replied_same := reply.sameLayout passed rc before t
  have replied_sound := reply.run_sound passed rc before_sound t
  rw [← answer_eq] at replied_same replied_sound
  have cells := Block.cells_of_inRange (Int.ofNat_lt.mpr acknowledged.some_cells)
    acknowledged.inRange
  have start_eq := (kept t).start_eq.trans replied_same.start_eq
  have length_eq := (kept t).length_cells.trans replied_same.length_cells
  have inRange : (left t).start ≤ 0 ∧ (count : ℤ) ≤ (left t).start + (left t).cells.length := by
    omega
  rcases writeToDevice_carries (read.withMap left) read_open
    (replied_sound.of_sameLayout (kept t)) acknowledged.writes relay first acknowledged.some_cells
    inRange with ⟨transfer, returned, written, carried⟩
  have finished := (continues acknowledged.sent).trans
    (afterReply_of_passed (read.withMap answer.map) _ left_eq)
  have withMap_eq : (read.withMap answer.map).withMap left = read.withMap left := rfl
  rw [withMap_eq, written] at finished
  cases accepts : (read.withMap left).accepted with
  | false =>
      rw [accepts] at finished
      simp only [Bool.false_eq_true, if_false] at finished
      rw [finished] at succeeded
      have := succeeded (-1) (by simp)
      omega
  | true =>
      rw [accepts] at finished
      simp only [if_true] at finished
      rw [finished]
      subst first
      refine ⟨read, left, transfer, refreshed, rfl, rfl, ?_⟩
      intro address lower upper
      exact carried address (by omega) (by omega)

end Station

namespace Server

variable {srv : Server} {d : Delivery}

/-- A step: an acknowledged write that the relay gets right is not lost. -/
theorem acknowledgedRelayed_of_relayable (sound : srv.Sound) (relayable : srv.Relayable d) :
    srv.AcknowledgedRelayed d := by
  intro id slv addressee registered open_ req before answer func t start count replied acknowledged
    succeeded
  have positive : 0 < d.rc := by
    by_contra negative
    rw [deliver, task_stages_of_not_positive negative] at replied
    cases replied
  cases accepts : srv.device.ctx.accepts id with
  | false =>
      rw [deliver, task_of_refused (srv.received d) d.links d.reply positive rfl addressee registered
        accepts] at replied
      cases replied
  | true =>
      rcases task_of_registered (srv.received d) d.links d.reply positive rfl addressee registered
        accepts with ⟨dev, run⟩
      have station_eq : (srv.received d).station slv = srv.station slv := rfl
      rw [station_eq] at run
      rw [deliver, run] at replied succeeded ⊢
      rcases Station.serve_carries open_ (sound id slv registered) replied acknowledged
        (relayable id slv addressee registered open_)
        (fun ret written => succeeded ret (Or.inr written)) with
        ⟨read, left, transfer, refreshed, returned, served_eq, carried⟩
      have read_open := refreshed.isOpen_eq.trans open_
      rcases Slave.isOpen_iff.mp open_ with ⟨client, found, _, _⟩
      rcases Option.map_eq_some_iff.mp found with ⟨i, pointer, _⟩
      rcases Slave.isOpen_iff.mp read_open with ⟨dev', device_eq, _, _⟩
      rcases refreshed.slave_eq with ⟨map, idReport, slave_eq, _⟩
      rcases refreshed.sent_eq with ⟨transfers, sent_eq⟩
      have dev_eq : ((srv.station slv).serve d.reply d.req d.rc).station.slave.dev = some i := by
        rw [served_eq]
        exact (congrArg (fun slv : BufferedSlave => slv.dev) slave_eq).trans pointer
      have served_device : ((srv.station slv).serve d.reply d.req d.rc).station.device =
          some (Slave.afterTransfer dev' read.slave.id transfer) := by
        rw [served_eq]
        exact congrArg (Option.map _) device_eq
      have stored := station_store { srv.received d with device := dev } id dev_eq served_device
      have appended := Station.sent_transferred (read.withMap left) transfer read_open
      have id_eq : (read.withMap left).slave.id = slv.id := by
        change read.slave.id = slv.id
        rw [slave_eq]
        rfl
      refine ⟨⟨0, by rw [returned]; rfl⟩,
        ((srv.station slv).serve d.reply d.req d.rc).station.slave,
        transfers ++ [⟨slv.id, transfer⟩], ?_, ?_, ?_⟩
      · exact Function.update_self _ _ _
      · refine (congrArg Station.sent stored).trans ?_
        rw [served_eq, appended, id_eq, ← List.append_assoc, ← sent_eq]
        rfl
      · intro address lower upper
        rcases carried address lower upper with ⟨value, cell, carries⟩
        refine ⟨value, transfer, ?_, ?_, carries⟩
        · rw [served_eq]
          exact cell
        · exact List.mem_append_right _ (List.mem_singleton_self _)

theorem relayable_frame {req : Message} {value : UInt16} {rc : ℤ} {func : Function} {t : Table}
    {nb : ℕ} (requests : req.Requests func 0 nb) (relay : func.relayed = some t) :
    (routing value).Relayable (.frame req rc) := by
  intro id slv _ registered _
  have slave_eq := routing_slave registered
  subst slave_eq
  intro map passed before _ outcome_eq other table start count acknowledged
  cases outcome_eq
  have passes : (Station.holding 0 [value]).slave.LetsPass req
      (ModbusReply.singleRegister.run req rc map).map :=
    ⟨_, rfl, fun t => ⟨rfl, rfl, rfl⟩⟩
  cases acknowledged.writes with
  | one requested code =>
      rcases requests.unique requested with ⟨_, first, _⟩
      exact ⟨Function.relayed_of_writesOne code, first, passes⟩
  | several requested code =>
      rcases requests.unique requested with ⟨_, first, _⟩
      exact ⟨Function.relayed_of_writes code, first, passes⟩
  | mask requested =>
      rcases requests.unique requested with ⟨rfl, _, _⟩
      cases relay
  | writeAndRead requested _ _ =>
      rcases requests.unique requested with ⟨rfl, _, _⟩
      cases relay

/-- Along every run in which acknowledged writes are such that the relay gets them right, none of them
is lost. -/
theorem acknowledged_writes_relayed (reachable : ∀ id slv, srv.slave id = some slv → slv.map.Reachable)
    {run : List Delivery} (relayable : Process.Along next Relayable srv run) :
    Process.Along next AcknowledgedRelayed srv run := by
  apply Process.Along.of_invariant Sound
  · intro srv d sound _
    exact next_sound sound
  · intro srv d sound relayable
    exact acknowledgedRelayed_of_relayable sound relayable
  · intro id slv registered
    exact (reachable id slv registered).sound
  · exact relayable

theorem acknowledged_writes_relayed_of_singleRegister :
    ∃ req, Message.create (.net .rtu) (.adu [1, 6, 0, 0, 0, 9, 0x49, 0xCC]) = .ok req ∧
      Process.Along next AcknowledgedRelayed (routing 7) [.frame req 8] ∧
      (((routing 7).next (.frame req 8)).devices 0).ctx.sent =
        [⟨1, .writeOne .holdingRegister 0 9⟩] := by
  refine ⟨_, rfl, ?_, rfl⟩
  apply acknowledged_writes_relayed
  · exact routing_reachable
  · refine ⟨?_, trivial⟩
    apply relayable_frame
    · exact ⟨rfl⟩
    · rfl

/-- An acknowledged write of the bits of a register stays in the mapping. -/
theorem acknowledged_mask_write_lost :
    ∃ req, Message.create (.net .rtu) (.adu [1, 22, 0, 0, 0, 0, 0, 9, 0x36, 0]) = .ok req ∧
      ((routing 7).deliver (.frame req 10)).result = .ok 0 ∧
      (((routing 7).next (.frame req 10)).slave 1).map (fun slv => (slv.map .holdingRegister).tab) =
        some (some [9]) ∧
      (((routing 7).next (.frame req 10)).devices 0).ctx.sent = [] ∧
      ¬Process.Along next AcknowledgedRelayed (routing 7) [.frame req 10] := by
  refine ⟨_, rfl, rfl, rfl, rfl, ?_⟩
  rintro ⟨relayed, _⟩
  have delivered := relayed 1 _ rfl rfl rfl _ _ _ .maskWriteRegister .holdingRegister 0 1
    (List.mem_cons_of_mem _ (List.mem_cons_self ..)) ⟨.mask ⟨rfl⟩, rfl, by decide, by decide, ?_⟩ ?_
  · rcases delivered with ⟨_, after, transfers, registered, sent_eq, carried⟩
    cases registered
    rcases carried 0 (by omega) (by omega) with ⟨value, transfer, _, member, _⟩
    have nothing : [] ++ transfers = [] := sent_eq.symm
    rw [List.nil_append] at nothing
    rw [nothing] at member
    cases member
  · intro address lower upper
    have only : address = 0 := by omega
    subst only
    exact ⟨7, rfl⟩
  · intro ret stage
    change .readFromDevice ret ∈ [Stage.readFromDevice 0, _, .writeToDevice 0] ∨
      .writeToDevice ret ∈ [Stage.readFromDevice 0, _, .writeToDevice 0] at stage
    simp only [List.mem_cons, Stage.readFromDevice.injEq, Stage.writeToDevice.injEq, reduceCtorEq,
      List.not_mem_nil, or_false, false_or, or_self] at stage
    omega

end Server

end Modbuspp
