import Modbuspp.BufferedSlave.Layout
import Modbuspp.BufferedSlave.Transfers
import Modbuspp.Device.Equipment
import Modbuspp.Library.Process

/-!
# The blocks as a cache of the device

Behind an open device a block is the buffer of the transfers and a cache of the cells of the equipment.
Each direct access fetches cells into the block or passes cells of the block on, so that the cells it
names agree with those of the equipment when it succeeds. The updates of whole blocks are accesses with
the block itself as the array.
-/

namespace Modbuspp

/-- The answers to the transfers for the slave come from the equipment. -/
def Station.Behind (st : Station) (equipment : Equipment) : Prop :=
  st.slave.id = equipment.id ∧ ∃ dev, st.device = some dev ∧
    ∀ history transfer, dev.ctx.answer history ⟨equipment.id, transfer⟩ =
      equipment.answer history transfer

/-- A station with an open device. Its blocks hold `cached`, and the equipment has the cells `actual`. -/
structure Layout.Caches (layout : Layout) (equipment : Equipment) (cached actual : Cells)
    (st : Station) : Prop extends layout.Represents cached st where
  opened : st.isOpen = true
  behind : st.Behind equipment
  actual_eq : equipment.cells st.sent = actual

/-- What becomes of a transfer: what libmodbus returns for it, and the device afterwards. -/
inductive Layout.Moved (layout : Layout) (equipment : Equipment) (cached actual : Cells)
    (st : Station) (transfer : Transfer) : Except Fault (ℤ × Option Payload) × Option Device → Prop
  | succeeded {payload : Payload} {device : Option Device}
      (delivered : ∀ t (i : ℕ),
        payload.cells t i = transfer.apply actual t (transfer.source + i))
      (caches : layout.Caches equipment cached (transfer.apply actual) { st with device }) :
      Moved layout equipment cached actual st transfer
        (.ok (transfer.result (some payload), some payload), device)
  | failed {left : Cells} {device : Option Device}
      (frame : ∀ t place, ¬transfer.Stores t place → left t place = actual t place)
      (caches : layout.Caches equipment cached left { st with device }) :
      Moved layout equipment cached actual st transfer (.ok (-1, none), device)

namespace Layout.Caches

variable {layout : Layout} {equipment : Equipment} {cached actual : Cells} {st : Station}
  (caches : layout.Caches equipment cached actual st)

include caches

theorem answer_eq (transfer : Transfer) :
    st.answer transfer = equipment.answer st.sent transfer := by
  rcases caches.behind with ⟨id_eq, dev, found, answers⟩
  simp only [Station.answer, Station.sent, found, id_eq, answers]

theorem transferred (transfer : Transfer) :
    layout.Caches equipment cached
      (equipment.after st.sent actual ⟨equipment.id, transfer⟩) (st.transferred transfer) := by
  have sent_eq := Station.sent_transferred st transfer caches.opened
  have opened := caches.opened
  rcases caches.behind with ⟨id_eq, dev, found, answers⟩
  refine ⟨⟨caches.addressing, caches.start_eq, caches.nb_eq, caches.laid, caches.holds⟩, ?_,
    ⟨id_eq, Slave.afterTransfer dev st.slave.id transfer, ?_, answers⟩, ?_⟩
  · simp only [Station.isOpen, Station.transferred, found] at opened ⊢
    exact opened
  · simp only [Station.transferred, found, Option.map_some]
  · rw [sent_eq, equipment.cells_append, caches.actual_eq, id_eq]

theorem exchange (transfer : Transfer) :
    layout.Moved equipment cached actual st transfer
      (st.slave.toSlave.exchange st.device transfer) := by
  have answer_eq := caches.answer_eq transfer
  have after := caches.transferred transfer
  rw [Station.exchange_eq caches.opened]
  cases st.accepted with
  | false => exact .failed (fun _ _ _ => rfl) caches
  | true =>
      simp only [Equipment.after, Equipment.answer, if_true] at answer_eq after ⊢
      split at answer_eq
      · next succeeds =>
        rw [if_pos succeeds] at after
        rw [answer_eq]
        apply Moved.succeeded _ after
        intro t i
        rw [caches.actual_eq]
      · next fails =>
        rw [if_neg fails] at after
        rw [answer_eq]
        apply Moved.failed _ after
        intro t place outside
        exact Transfer.spoil_of_not_stores _ _ outside

end Layout.Caches

/-- Cells of the equipment are stored in the block at their own addresses. -/
def Cells.fetch (cached actual : Cells) (t : Table) (address : ℤ) (count : ℕ) : Cells :=
  cached.store ⟨t, address, Memory.load (actual t) address count⟩

/-- The cells of the equipment after a write, by what was returned for it. -/
def Cells.Settled (actual : Cells) (segment : Segment) (rc : ℤ) (left : Cells) : Prop :=
  (rc = segment.values.length ∧ left = actual.store segment) ∨
    rc = -1 ∧ ∀ t place, ¬segment.Contains t place → left t place = actual t place

/-- The values that a write stores in the block. -/
def Layout.taken (layout : Layout) (t : Table) (addr : ℤ) (src : List t.Cell) (nb : ℕ) :
    List t.Cell :=
  src.take (layout.count t (layout.address addr) nb)

/-- The cells that a write takes from its array, at their place. -/
abbrev Layout.segment (layout : Layout) (t : Table) (addr : ℤ) (src : List t.Cell) (nb : ℕ) :
    Segment :=
  ⟨t, layout.address addr, layout.taken t addr src nb⟩

theorem Layout.length_taken (layout : Layout) (t : Table) (addr : ℤ) {src : List t.Cell} {nb : ℕ}
    (long : nb ≤ src.length) :
    (layout.taken t addr src nb).length = layout.count t (layout.address addr) nb := by
  simp only [taken, List.length_take, count]
  omega

theorem Cells.load_store (cells : Cells) (t : Table) (address : ℤ) (values : List t.Cell) :
    Memory.load (cells.store ⟨t, address, values⟩ t) address values.length = values := by
  simp only [store, Function.update_self]
  exact Memory.load_store (cells t) address values

theorem Cells.load_fetch {cached actual : Cells} {t : Table} {address : ℤ} {count : ℕ} :
    Memory.load (cached.fetch actual t address count t) address count =
      Memory.load (actual t) address count := by
  have loaded := cached.load_store t address (Memory.load (actual t) address count)
  rwa [Memory.length_load] at loaded

theorem Cells.store_load (cells : Cells) (t : Table) (address : ℤ) (count : ℕ) :
    cells.store ⟨t, address, Memory.load (cells t) address count⟩ = cells := by
  simp only [store, Memory.store_load, Function.update_eq_self]

namespace Layout.Caches

variable {layout : Layout} {equipment : Equipment} {cached actual : Cells} {st : Station}
  (caches : layout.Caches equipment cached actual st)

include caches

theorem exchange_read (t : Table) (address : ℤ) (nb : ℕ) :
    (∃ payload device, st.slave.toSlave.exchange st.device (.read t address nb) =
        (.ok (nb, some payload), device) ∧
      (∀ i : ℕ, payload.cells t i = actual t (address + i)) ∧
      layout.Caches equipment cached actual { st with device }) ∨
    ∃ device, st.slave.toSlave.exchange st.device (.read t address nb) = (.ok (-1, none), device) ∧
      layout.Caches equipment cached actual { st with device } := by
  have moved := caches.exchange (.read t address nb)
  generalize st.slave.toSlave.exchange st.device (.read t address nb) = run at moved
  cases moved with
  | succeeded delivered after => exact Or.inl ⟨_, _, rfl, delivered t, after⟩
  | @failed left device frame after =>
      have same : left = actual := by
        funext t place
        apply frame t place
        rintro ⟨segment, stored, _⟩
        cases stored
      exact Or.inr ⟨_, rfl, same ▸ after⟩

theorem withBlock {t : Table} {block : Block t.Cell} {memory : ℤ → t.Cell}
    (same : (st.slave.map t).SameLayout block) (holds : block.Holds memory) :
    layout.Caches equipment (Function.update cached t memory) actual (st.withBlock t block) :=
  ⟨caches.toRepresents.withBlock same holds, caches.opened, caches.behind, caches.actual_eq⟩

/-- Storing in the block what a transfer delivered. -/
theorem received {t : Table} {address : ℤ} {payload : Payload}
    (delivered : ∀ i : ℕ, payload.cells t i = actual t (address + i))
    (contains : layout.Contains t address) (nb : ℕ) :
    ∃ block, (st.slave.map t).received (address - (st.slave.map t).start)
        (layout.count t address nb) (some payload) = .ok block ∧
      (st.slave.map t).SameLayout block ∧
      layout.Caches equipment (cached.fetch actual t address (layout.count t address nb)) actual
        (st.withBlock t block) := by
  have covers := caches.covers contains nb
  generalize layout.count t address nb = count at covers
  have loaded : (List.range count).map (payload.cells t) = Memory.load (actual t) address count := by
    apply List.map_congr_left
    intro i _
    exact delivered i
  have length : (Memory.load (actual t) address count).length = count := Memory.length_load _ _ _
  rcases Block.store_of_covers (caches.holds t) (length.symm ▸ covers) with
    ⟨block, stored, same, holds⟩
  refine ⟨block, ?_, same, caches.withBlock same holds⟩
  simp only [Block.received, Int.toNat_natCast, loaded]
  exact stored

/-- A read inside the block: the cells come from the equipment, or nothing has changed. -/
theorem readBlock {t : Table} {addr : ℤ} (found : (st.slave.map t).Contains (layout.address addr))
    (nb : ℕ) :
    (∃ after, st.readBlock t addr nb (fun addr nb =>
          st.slave.toSlave.exchange st.device (.read t (st.slave.pduAddress addr) nb)) =
        (.ok (layout.count t (layout.address addr) nb, some (layout.load actual t addr nb)), after) ∧
      layout.Caches equipment (cached.fetch actual t (layout.address addr)
        (layout.count t (layout.address addr) nb)) actual after) ∨
    ∃ after, st.readBlock t addr nb (fun addr nb =>
          st.slave.toSlave.exchange st.device (.read t (st.slave.pduAddress addr) nb)) =
        (.ok (-1, none), after) ∧
      after.slave = st.slave ∧ layout.Caches equipment cached actual after := by
  have contains := caches.contains found
  have covers := caches.covers contains nb
  have element := Block.elementAt_of_covers (caches.holds t) covers
  simp only [Station.readBlock, caches.pduAddress, if_pos found, caches.opened, if_true, element,
    caches.count_eq contains]
  rcases caches.exchange_read t (layout.address addr) (layout.count t (layout.address addr) nb) with
    ⟨payload, device, moved, delivered, after⟩ | ⟨device, failed, after⟩
  · left
    rcases after.received delivered contains nb with ⟨block, received, same, fetched⟩
    have copied := Block.copyOut_of_covers (fetched.holds t) (fetched.covers contains nb)
    have start_eq := same.start_eq
    have nonneg : ¬(layout.count t (layout.address addr) nb : ℤ) < 0 := by omega
    simp only [Station.withBlock, Function.update_self, start_eq, Cells.load_fetch] at copied
    refine ⟨_, ?_, fetched⟩
    simp only [moved, received, if_neg nonneg, copied, load]
    rfl
  · right
    refine ⟨{ st with device }, ?_, rfl, after⟩
    have negative : (-1 : ℤ) < 0 := by decide
    simp only [failed, Block.received, if_pos negative, Station.withBlock, Function.update_eq_self]

/-- Passing cells of the block on: the equipment stores them, or it fails. -/
theorem exchange_stored (transfer : Transfer) {segment : Segment}
    (stored : transfer.stored = some segment) :
    (∃ payload device, st.slave.toSlave.exchange st.device transfer =
        (.ok (transfer.result (some payload), some payload), device) ∧
      (∀ t (i : ℕ), payload.cells t i = actual.store segment t (transfer.source + i)) ∧
      layout.Caches equipment cached (actual.store segment) { st with device }) ∨
    ∃ left device, st.slave.toSlave.exchange st.device transfer = (.ok (-1, none), device) ∧
      (∀ t place, ¬segment.Contains t place → left t place = actual t place) ∧
      layout.Caches equipment cached left { st with device } := by
  have applied : transfer.apply actual = actual.store segment := by
    simp only [Transfer.apply, stored]
  have moved := caches.exchange transfer
  generalize st.slave.toSlave.exchange st.device transfer = run at moved
  cases moved with
  | succeeded delivered after =>
      rw [applied] at delivered after
      exact Or.inl ⟨_, _, rfl, delivered, after⟩
  | failed frame after =>
      refine Or.inr ⟨_, _, rfl, ?_, after⟩
      intro t place outside
      apply frame t place
      rintro ⟨other, same, contains⟩
      rw [stored] at same
      cases same
      exact outside contains

/-- A write that reports as many cells as it carries, or fails. -/
theorem exchange_written (transfer : Transfer) (segment : Segment)
    (stored : transfer.stored = some segment)
    (reported : ∀ payload, transfer.result (some payload) = segment.values.length) :
    ∃ rc payload left device, st.slave.toSlave.exchange st.device transfer =
        (.ok (rc, payload), device) ∧
      layout.Caches equipment cached left { st with device } ∧
      actual.Settled segment rc left := by
  rcases caches.exchange_stored transfer stored with
    ⟨payload, device, moved, _, after⟩ | ⟨left, device, failed, frame, after⟩
  · exact ⟨_, _, _, _, moved, after, Or.inl ⟨reported payload, rfl⟩⟩
  · exact ⟨_, _, _, _, failed, after, Or.inr ⟨rfl, frame⟩⟩

/-- The cells a write has put into the block are those that it passes on. -/
theorem transferBlock {t : Table} {block : Block t.Cell} {addr : ℤ} {values : List t.Cell}
    (here : st.slave.map t = block)
    (covers : block.Covers (layout.address addr) values.length)
    (loaded : Memory.load (cached t) (layout.address addr) values.length = values) :
    ∃ rc left after, st.transferBlock t addr block (layout.address addr - block.start) values.length
        (fun addr value =>
          st.slave.toSlave.exchange st.device (.writeOne t (st.slave.pduAddress addr) value))
        (fun addr src =>
          st.slave.toSlave.exchange st.device (.write t (st.slave.pduAddress addr) src)) =
        (.ok rc, after) ∧
      layout.Caches equipment cached left after ∧
      actual.Settled ⟨t, layout.address addr, values⟩ rc left := by
  have holds := caches.holds t
  rw [here] at holds
  simp only [Station.transferBlock, caches.opened, if_true, caches.pduAddress]
  split
  · next single =>
    have element := Block.elementAt_of_covers holds covers
    have one : values.length = 1 := by omega
    have only : values = [cached t (layout.address addr)] := by
      rw [← loaded, one]
      simp [Memory.load]
    rcases caches.exchange_written (.writeOne t (layout.address addr) (cached t (layout.address addr)))
        ⟨t, layout.address addr, values⟩ (by rw [only]; rfl) (fun _ => single.symm) with
      ⟨rc, payload, left, device, moved, after, outcome⟩
    exact ⟨rc, left, _, by simp only [element, moved], after, outcome⟩
  · have sliced := Block.slice_of_covers holds covers
    rw [loaded] at sliced
    rcases caches.exchange_written (.write t (layout.address addr) values)
        ⟨t, layout.address addr, values⟩ rfl (fun _ => rfl) with
      ⟨rc, payload, left, device, moved, after, outcome⟩
    exact ⟨rc, left, _, by simp only [sliced, moved], after, outcome⟩

/-- The copy of the cells of the caller into the block. -/
theorem copied {t : Table} {addr : ℤ} {src : List t.Cell} {nb : ℕ}
    (contains : layout.Contains t (layout.address addr)) (long : nb ≤ src.length) :
    ∃ block, (st.slave.map t).copyIn (layout.address addr - (st.slave.map t).start)
        (layout.count t (layout.address addr) nb) src = .ok block ∧
      (st.slave.map t).SameLayout block ∧
      (layout.taken t addr src nb).length = layout.count t (layout.address addr) nb ∧
      layout.Caches equipment (cached.store (layout.segment t addr src nb)) actual
        (st.withBlock t block) := by
  have covers := caches.covers contains nb
  have enough : layout.count t (layout.address addr) nb ≤ src.length := by
    simp only [count]
    omega
  rcases Block.copyIn_of_covers (caches.holds t) covers enough with ⟨block, copied, same, holds⟩
  exact ⟨block, copied, same, layout.length_taken t addr long, caches.withBlock same holds⟩

/-- A write inside the block: it reaches the equipment, or fails there. -/
theorem storeBlock {t : Table} {addr : ℤ} {src : List t.Cell} {nb : ℕ}
    (found : (st.slave.map t).Contains (layout.address addr)) (long : nb ≤ src.length) :
    ∃ rc left after, (st.storeBlock t addr src nb fun st block offset nb =>
        st.transferBlock t addr block offset nb
          (fun addr value =>
            st.slave.toSlave.exchange st.device (.writeOne t (st.slave.pduAddress addr) value))
          (fun addr src =>
            st.slave.toSlave.exchange st.device (.write t (st.slave.pduAddress addr) src))) =
        (.ok rc, after) ∧
      layout.Caches equipment (cached.store (layout.segment t addr src nb)) left after ∧
      actual.Settled (layout.segment t addr src nb) rc left := by
  have contains := caches.contains found
  rcases caches.copied contains long with ⟨block, copied, same, length, stored⟩
  have start_eq := same.start_eq
  have here : (st.withBlock t block).slave.map t = block := Function.update_self ..
  have covers := same.covers (caches.covers contains nb)
  rw [← length] at covers
  rcases stored.transferBlock here covers (Cells.load_store ..) with ⟨rc, left, after, run, outcome⟩
  refine ⟨rc, left, after, ?_, outcome⟩
  simp only [Station.storeBlock, caches.pduAddress, if_pos found, caches.count_eq contains, copied]
  rw [length, start_eq] at run
  exact run

/-- The transaction with the equipment, which stores the written cells before it reads. -/
theorem exchangeBlock {readAddr : ℤ}
    (contains : layout.Contains .holdingRegister (layout.address readAddr)) (writeAddr : ℤ)
    (values : List UInt16) (nb : ℕ) :
    let written := actual.store ⟨.holdingRegister, layout.address writeAddr, values⟩
    let count := layout.count .holdingRegister (layout.address readAddr) nb
    let offset := layout.address readAddr - (st.slave.map .holdingRegister).start
    (∃ after, st.exchangeBlock writeAddr values readAddr count offset = (.ok count, after) ∧
      layout.Caches equipment
        (cached.fetch written .holdingRegister (layout.address readAddr) count) written after) ∨
    ∃ left after, st.exchangeBlock writeAddr values readAddr count offset = (.ok (-1), after) ∧
      layout.Caches equipment cached left after ∧
      ∀ t place, ¬(Segment.mk .holdingRegister (layout.address writeAddr) values).Contains t place →
        left t place = actual t place := by
  intro written count offset
  simp only [Station.exchangeBlock, caches.opened, if_true, Slave.writeReadRegisters,
    caches.pduAddress]
  rcases caches.exchange_stored
      (.writeAndRead (layout.address writeAddr) values (layout.address readAddr) count) rfl with
    ⟨payload, device, moved, delivered, after⟩ | ⟨left, device, failed, frame, after⟩
  · left
    rcases after.received (delivered .holdingRegister) contains nb with ⟨block, received, _, fetched⟩
    refine ⟨_, ?_, fetched⟩
    have stored : (st.slave.map .holdingRegister).received offset count (some payload) =
      .ok block := received
    simp only [moved, stored]
    rfl
  · right
    refine ⟨left, { st with device }, ?_, after, frame⟩
    simp only [failed, Block.received, Station.withBlock, Function.update_eq_self]

/-- A transaction inside the block: the write is stored in the block and reaches the equipment before
the cells are read from it, or it fails. -/
theorem writeReadRegisters {writeAddr readAddr : ℤ} {writeSrc readDest : List UInt16}
    {writeNb readNb : ℕ}
    (found : (st.slave.map .holdingRegister).Contains (layout.address readAddr) ∧
      (st.slave.map .holdingRegister).Contains (layout.address writeAddr))
    (long : writeNb ≤ writeSrc.length) (room : readNb ≤ readDest.length) :
    let segment := layout.segment .holdingRegister writeAddr writeSrc writeNb
    let count := layout.count .holdingRegister (layout.address readAddr) readNb
    (∃ after, st.writeReadRegisters writeAddr writeSrc writeNb readAddr readDest readNb =
        (.ok (count, Storage.overwrite readDest 0
          (layout.load (actual.store segment) .holdingRegister readAddr readNb)), after) ∧
      layout.Caches equipment ((cached.store segment).fetch (actual.store segment) .holdingRegister
        (layout.address readAddr) count) (actual.store segment) after) ∨
    ∃ left after, st.writeReadRegisters writeAddr writeSrc writeNb readAddr readDest readNb =
        (.ok (-1, readDest), after) ∧
      layout.Caches equipment (cached.store segment) left after ∧
      ∀ t place, ¬segment.Contains t place → left t place = actual t place := by
  intro segment count
  have reads := caches.contains found.1
  have writes := caches.contains found.2
  rcases caches.copied writes long with ⟨block, copied, same, length, stored⟩
  have start_eq := same.start_eq
  have here : (st.withBlock .holdingRegister block).slave.map .holdingRegister = block := by
    simp only [Station.withBlock, Function.update_self]
  have holds := stored.holds .holdingRegister
  rw [here] at holds
  have sliced := Block.slice_of_covers holds (same.covers (caches.covers writes writeNb))
  rw [start_eq, ← length, Cells.load_store] at sliced
  have exchanged := stored.exchangeBlock reads writeAddr
    (layout.taken .holdingRegister writeAddr writeSrc writeNb) readNb
  simp only [here, start_eq] at exchanged
  simp only [Station.writeReadRegisters, caches.pduAddress, if_pos found, caches.count_eq reads,
    caches.count_eq writes, copied]
  rw [← length]
  simp only [sliced]
  rcases exchanged with ⟨after, run, fetched⟩ | ⟨left, after, run, caching, frame⟩
  · left
    have out := Block.copyOut_of_covers (fetched.holds .holdingRegister) (fetched.covers reads readNb)
    rw [Cells.load_fetch, (fetched.start_eq _).trans (caches.start_eq _).symm] at out
    refine ⟨after, ?_, fetched⟩
    simp only [run]
    rw [if_pos (Int.natCast_nonneg _), out]
    apply Station.deliver_some
    simp only [Memory.length_load, Layout.count]
    omega
  · right
    refine ⟨left, after, ?_, caching, frame⟩
    have negative : ¬(0 : ℤ) ≤ -1 := by decide
    simp only [run, if_neg negative]

theorem whole {t : Table} (some_nb : 0 < layout.nb t) :
    layout.address (st.slave.dataAddress (layout.start t)) = layout.start t ∧
      layout.Contains t (layout.start t) ∧
      layout.count t (layout.start t) (layout.nb t) = layout.nb t := by
  have address_eq := caches.pduAddress (st.slave.dataAddress (layout.start t))
  rw [Slave.pduAddress_dataAddress] at address_eq
  refine ⟨address_eq.symm, ⟨by omega, by omega⟩, ?_⟩
  simp only [count]
  omega

/-- Copying the cells of a block onto themselves. -/
theorem restored {t : Table} (some_nb : 0 < layout.nb t) :
    ∃ block, (st.slave.map t).store 0
        (Memory.load (cached t) (layout.start t) (layout.nb t)) = .ok block ∧
      layout.Caches equipment cached actual (st.withBlock t block) := by
  rcases caches.whole some_nb with ⟨_, contains, count_eq⟩
  have covers := caches.covers contains (layout.nb t)
  have length : (Memory.load (cached t) (layout.start t) (layout.nb t)).length =
    layout.count t (layout.start t) (layout.nb t) := by rw [Memory.length_load, count_eq]
  rcases Block.store_of_covers (caches.holds t) (length.symm ▸ covers) with
    ⟨block, stored, same, holds⟩
  rw [Memory.store_load] at holds
  have kept := caches.withBlock same holds
  rw [Function.update_eq_self] at kept
  refine ⟨block, ?_, kept⟩
  rw [caches.start_eq, Int.sub_self] at stored
  exact stored

/-- The update of a block fetches all of it, or leaves it alone. -/
theorem updateFromSlave (t : Table) :
    (∃ after, st.updateFromSlave t (fun addr nb =>
          st.slave.toSlave.exchange st.device (.read t (st.slave.pduAddress addr) nb)) =
        (.ok (layout.nb t), after) ∧
      layout.Caches equipment (cached.fetch actual t (layout.start t) (layout.nb t)) actual after) ∨
    ∃ after, st.updateFromSlave t (fun addr nb =>
          st.slave.toSlave.exchange st.device (.read t (st.slave.pduAddress addr) nb)) =
        (.ok (-1), after) ∧
      after.slave = st.slave ∧ layout.Caches equipment cached actual after := by
  simp only [Station.updateFromSlave, caches.opened, caches.nb_eq, caches.start_eq, true_and]
  by_cases some_nb : 0 < layout.nb t
  · rcases caches.whole some_nb with ⟨address_eq, contains, count_eq⟩
    have positive : (0 : ℤ) < layout.nb t := by omega
    rw [if_pos positive]
    by_cases found : (st.slave.map t).Contains (layout.address (st.slave.dataAddress (layout.start t)))
    · have read := caches.readBlock found (layout.nb t)
      simp only [load, address_eq, count_eq] at read
      rcases read with ⟨after, run, fetched⟩ | ⟨after, run, same, kept⟩
      · left
        rcases fetched.restored some_nb with ⟨block, stored, restored⟩
        rw [Cells.load_fetch] at stored
        refine ⟨_, ?_, restored⟩
        simp only [run, stored]
      · right
        refine ⟨after, ?_, same, kept⟩
        simp only [run]
    · right
      refine ⟨st, ?_, rfl, caches⟩
      simp only [Station.readBlock, caches.pduAddress, if_neg found]
  · left
    have none_left : layout.nb t = 0 := by omega
    refine ⟨st, ?_, ?_⟩
    · simp [none_left]
    · have nothing : cached.fetch actual t (layout.start t) (layout.nb t) = cached := by
        rw [none_left]
        exact cached.store_nil t (layout.start t)
      rw [nothing]
      exact caches

theorem cells_eq (t : Table) :
    (st.slave.map t).cells = Memory.load (cached t) (layout.start t) (layout.nb t) := by
  have length := (caches.laid t).nb_eq
  rw [caches.nb_eq] at length
  have sliced := Memory.Holds.slice (caches.holds t)
    (by omega : 0 + layout.nb t ≤ (st.slave.map t).cells.length)
  rw [List.drop_zero, List.take_of_length_le (by omega), caches.start_eq] at sliced
  simpa using sliced

/-- The update of the slave writes the cells of the block, one or several. -/
theorem updateSlave_eq {t : Table} (some_nb : 0 < layout.nb t)
    {writeOne : ℤ → t.Cell → Except Fault ℤ × Station}
    {write : ℤ → List t.Cell → ℤ → Except Fault ℤ × Station}
    (single : ∀ addr value, writeOne addr value = write addr [value] 1) :
    st.updateSlave t writeOne write = write (st.slave.dataAddress (layout.start t))
      (Memory.load (cached t) (layout.start t) (layout.nb t)) (layout.nb t) := by
  have positive : (0 : ℤ) < layout.nb t := by omega
  simp only [Station.updateSlave, caches.opened, caches.nb_eq, caches.start_eq, true_and,
    if_pos positive]
  split
  · next one =>
    rcases caches.whole some_nb with ⟨_, contains, _⟩
    have element := Block.elementAt_of_covers (caches.holds t) (caches.covers contains 1)
    have only : Memory.load (cached t) (layout.start t) 1 = [cached t (layout.start t)] := by
      simp [Memory.load]
    rw [caches.start_eq, Int.sub_self] at element
    rw [show layout.nb t = 1 by omega, only]
    simp only [element, single]
    rfl
  · rw [caches.cells_eq]

/-- The update of the slave passes on all of the block. -/
theorem updateSlave (t : Table) {writeOne : ℤ → t.Cell → Except Fault ℤ × Station}
    {write : ℤ → List t.Cell → ℤ → Except Fault ℤ × Station}
    (single : ∀ addr value, writeOne addr value = write addr [value] 1)
    (several : ∀ addr src nb, write addr src nb =
      st.storeBlock t addr src nb fun st block offset nb =>
        st.transferBlock t addr block offset nb
          (fun addr value =>
            st.slave.toSlave.exchange st.device (.writeOne t (st.slave.pduAddress addr) value))
          (fun addr src =>
            st.slave.toSlave.exchange st.device (.write t (st.slave.pduAddress addr) src))) :
    ∃ rc left after, st.updateSlave t writeOne write = (.ok rc, after) ∧
      layout.Caches equipment cached left after ∧
      actual.Settled ⟨t, layout.start t,
        Memory.load (cached t) (layout.start t) (layout.nb t)⟩ rc left := by
  by_cases some_nb : 0 < layout.nb t
  · rcases caches.whole some_nb with ⟨address_eq, _, count_eq⟩
    have length := Memory.length_load (cached t) (layout.start t) (layout.nb t)
    rw [caches.updateSlave_eq some_nb single, several]
    by_cases found : (st.slave.map t).Contains (layout.address (st.slave.dataAddress (layout.start t)))
    · rcases caches.storeBlock found (Nat.le_of_eq length.symm) with
        ⟨rc, left, after, run, kept, settled⟩
      have all : layout.taken t (st.slave.dataAddress (layout.start t))
          (Memory.load (cached t) (layout.start t) (layout.nb t)) (layout.nb t) =
            Memory.load (cached t) (layout.start t) (layout.nb t) := by
        simp only [taken, address_eq, count_eq]
        exact List.take_of_length_le (Nat.le_of_eq length)
      simp only [segment, address_eq, all, Cells.store_load] at kept settled
      exact ⟨rc, left, after, run, kept, settled⟩
    · refine ⟨-1, actual, st, ?_, caches, Or.inr ⟨rfl, fun _ _ _ => rfl⟩⟩
      simp only [Station.storeBlock, caches.pduAddress, if_neg found]
  · have none_left : layout.nb t = 0 := by omega
    refine ⟨0, actual, st, ?_, caches, Or.inl ⟨?_, ?_⟩⟩
    · simp [Station.updateSlave, caches.nb_eq, none_left]
    · rw [none_left]
      rfl
    · rw [none_left]
      exact (actual.store_nil t (layout.start t)).symm

end Layout.Caches

end Modbuspp
