import Modbuspp.BufferedSlave.Caching

/-!
# Coherence of the direct accesses

An operation that succeeds leaves the block and the equipment in agreement on the cells it names, and
delivers those to the caller. One that fails has read nothing. Neither changes any other cell.
-/

namespace Modbuspp

/-- A direct access or the update of a whole block. -/
inductive Operation where
  | access (access : Access)
  | updateBlockFromSlave (t : Table)
  | updateSlaveFromBlock (t : Table)

/-- The station after an operation, with its answer. -/
def Station.operate (st : Station) : Operation → Except Fault Answer × Station
  | .access access => st.access access
  | .updateBlockFromSlave t => returning (st.updateBlockFromSlave t)
  | .updateSlaveFromBlock t => returning (st.updateSlaveFromBlock t)

/-- The number that a call returns. -/
def Answer.rc : Answer → ℤ
  | .returned rc => rc
  | .delivered _ rc _ => rc

/-- Consecutive cells of a table. -/
structure Range where
  table : Table
  address : ℤ
  count : ℕ

/-- The cell lies in the range. -/
def Range.Contains (range : Range) (t : Table) (place : ℤ) : Prop :=
  t = range.table ∧ range.address ≤ place ∧ place < range.address + range.count

/-- The cells of an access that are left in the block, if it starts there. -/
def Layout.clamped (layout : Layout) (t : Table) (addr : ℤ) (nb : ℕ) : List Range :=
  if layout.Contains t (layout.address addr) then
    [⟨t, layout.address addr, layout.count t (layout.address addr) nb⟩]
  else []

namespace Operation

/-- The arrays are long enough, and what is written can be passed on. -/
def Permitted : Operation → Prop
  | access (.write t _ src nb) => nb ≤ src.length ∧ (t = .coil ∨ t = .holdingRegister)
  | access (.writeOne t _ _) => t = .coil ∨ t = .holdingRegister
  | access other => other.HasRoom
  | updateBlockFromSlave _ => True
  | updateSlaveFromBlock _ => True

/-- The cells that an operation names. -/
def ranges (layout : Layout) : Operation → List Range
  | access (.read t addr _ nb) => layout.clamped t addr nb
  | access (.write t addr _ nb) => layout.clamped t addr nb
  | access (.writeOne t addr _) => layout.clamped t addr 1
  | access (.writeRead writeAddr _ writeNb readAddr _ readNb) =>
      if layout.Contains .holdingRegister (layout.address readAddr) ∧
          layout.Contains .holdingRegister (layout.address writeAddr) then
        layout.clamped .holdingRegister writeAddr writeNb ++
          layout.clamped .holdingRegister readAddr readNb
      else []
  | updateBlockFromSlave t => [⟨t, layout.start t, layout.nb t⟩]
  | updateSlaveFromBlock .coil => [⟨.coil, layout.start .coil, layout.nb .coil⟩]
  | updateSlaveFromBlock .holdingRegister =>
      [⟨.holdingRegister, layout.start .holdingRegister, layout.nb .holdingRegister⟩]
  | updateSlaveFromBlock _ => []

/-- What an operation answers when it succeeds and the equipment has the cells `actual`. -/
def success (layout : Layout) (actual : Cells) : Operation → Answer
  | access (.read t addr dest nb) =>
      .delivered t (layout.count t (layout.address addr) nb)
        (Storage.overwrite dest 0 (layout.load actual t addr nb))
  | access (.write t addr _ nb) => .returned (layout.count t (layout.address addr) nb)
  | access (.writeOne _ _ _) => .returned 1
  | access (.writeRead _ _ _ readAddr readDest readNb) =>
      .delivered .holdingRegister (layout.count .holdingRegister (layout.address readAddr) readNb)
        (Storage.overwrite readDest 0 (layout.load actual .holdingRegister readAddr readNb))
  | updateBlockFromSlave t => .returned (layout.nb t)
  | updateSlaveFromBlock t => .returned (layout.nb t)

/-- What it answers when it fails: the array of the caller is as it was. -/
def failure : Operation → Answer
  | access (.read t _ dest _) => .delivered t (-1) dest
  | access (.writeRead _ _ _ _ readDest _) => .delivered .holdingRegister (-1) readDest
  | _ => .returned (-1)

/-- The operations that only read. -/
def OnlyReads : Operation → Prop
  | access (.read _ _ _ _) => True
  | updateBlockFromSlave _ => True
  | _ => False

/-- The result of an operation is coherent. -/
structure Coherent (op : Operation) (equipment : Equipment) (before : Station) (answer : Answer)
    (after : Station) : Prop where
  agree : 0 ≤ answer.rc → ∀ range ∈ op.ranges before.layout, ∀ t place, range.Contains t place →
    (after.slave.map t).valueAt place = some (equipment.cells after.sent t place)
  received : 0 ≤ answer.rc → answer = op.success before.layout (equipment.cells after.sent)
  failed : answer.rc < 0 → answer = op.failure
  unread : answer.rc < 0 → op.OnlyReads → after.slave = before.slave
  block_frame : ∀ t place, (∀ range ∈ op.ranges before.layout, ¬range.Contains t place) →
    (after.slave.map t).valueAt place = (before.slave.map t).valueAt place
  device_frame : ∀ t place, (∀ range ∈ op.ranges before.layout, ¬range.Contains t place) →
    equipment.cells after.sent t place = equipment.cells before.sent t place

end Operation

theorem Layout.mem_clamped {layout : Layout} {t : Table} {addr : ℤ} {nb : ℕ} {range : Range} :
    range ∈ layout.clamped t addr nb ↔ layout.Contains t (layout.address addr) ∧
      range = ⟨t, layout.address addr, layout.count t (layout.address addr) nb⟩ := by
  simp only [clamped]
  split
  · next contains => simp only [List.mem_singleton, contains, true_and]
  · next outside => simp only [List.not_mem_nil, outside, false_and]

theorem Layout.contains_of_clamped {layout : Layout} {t other : Table} {addr place : ℤ} {nb : ℕ}
    {range : Range} (mem : range ∈ layout.clamped t addr nb) (inside : range.Contains other place) :
    layout.Contains other place := by
  rcases mem_clamped.mp mem with ⟨⟨lower, upper⟩, rfl⟩
  rcases inside with ⟨rfl, first, last⟩
  simp only [count] at last
  exact ⟨by simp only at first; omega, by omega⟩

theorem Operation.contains_of_ranges {op : Operation} {layout : Layout} {t : Table} {place : ℤ}
    {range : Range} (mem : range ∈ op.ranges layout) (inside : range.Contains t place) :
    layout.Contains t place := by
  have whole : ∀ other, range ∈ [Range.mk other (layout.start other) (layout.nb other)] →
      layout.Contains t place := by
    intro other mem
    rw [List.mem_singleton.mp mem] at inside
    rcases inside with ⟨rfl, lower, upper⟩
    exact ⟨lower, upper⟩
  cases op with
  | access access =>
      cases access with
      | read other addr dest nb => exact Layout.contains_of_clamped mem inside
      | write other addr src nb => exact Layout.contains_of_clamped mem inside
      | writeOne other addr value => exact Layout.contains_of_clamped mem inside
      | writeRead writeAddr writeSrc writeNb readAddr readDest readNb =>
          simp only [ranges] at mem
          split at mem
          · rcases List.mem_append.mp mem with written | read
            · exact Layout.contains_of_clamped written inside
            · exact Layout.contains_of_clamped read inside
          · cases mem
  | updateBlockFromSlave other => exact whole other mem
  | updateSlaveFromBlock other =>
      cases other with
      | coil => exact whole .coil mem
      | holdingRegister => exact whole .holdingRegister mem
      | discreteInput => cases mem
      | inputRegister => cases mem

theorem Cells.fetch_inside {cached actual : Cells} {t : Table} {address place : ℤ} {count : ℕ}
    (lower : address ≤ place) (upper : place < address + count) :
    cached.fetch actual t address count t place = actual t place := by
  have inside : (Segment.mk t address (Memory.load (actual t) address count)).Contains t place := by
    refine ⟨rfl, lower, ?_⟩
    rw [Memory.length_load]
    exact upper
  calc cached.fetch actual t address count t place
    _ = actual.store ⟨t, address, Memory.load (actual t) address count⟩ t place :=
        Cells.store_of_contains inside cached actual
    _ = actual t place := by rw [Cells.store_load]

theorem Cells.fetch_outside {cached actual : Cells} {t other : Table} {address place : ℤ} {count : ℕ}
    (outside : ¬(Range.mk t address count).Contains other place) :
    cached.fetch actual t address count other place = cached other place := by
  apply Cells.store_of_not_contains
  simp only [Segment.Contains, Memory.length_load]
  exact outside

namespace Operation

variable {op : Operation} {layout : Layout} {equipment : Equipment} {cached actual : Cells}
  {st : Station}

theorem failure_rc (op : Operation) : op.failure.rc = -1 := by
  cases op with
  | access access => cases access <;> rfl
  | updateBlockFromSlave t => rfl
  | updateSlaveFromBlock t => rfl

/-- Coherence by the cells that the blocks and the equipment have afterwards. -/
theorem Coherent.of_cells {after : Station} {answer : Answer} {held left : Cells}
    (caches : layout.Caches equipment cached actual st)
    (caching : layout.Caches equipment held left after)
    (agree : 0 ≤ answer.rc → ∀ range ∈ op.ranges layout, ∀ t place, range.Contains t place →
      held t place = left t place)
    (received : 0 ≤ answer.rc → answer = op.success layout left)
    (failed : answer.rc < 0 → answer = op.failure)
    (unread : answer.rc < 0 → op.OnlyReads → after.slave = st.slave)
    (held_frame : ∀ t place, (∀ range ∈ op.ranges layout, ¬range.Contains t place) →
      held t place = cached t place)
    (left_frame : ∀ t place, (∀ range ∈ op.ranges layout, ¬range.Contains t place) →
      left t place = actual t place) : op.Coherent equipment st answer after := by
  have layout_eq := caches.layout_eq
  refine ⟨?_, ?_, failed, unread, ?_, ?_⟩ <;> rw [layout_eq]
  · intro success range mem t place inside
    rw [caching.valueAt, if_pos (contains_of_ranges mem inside), caching.actual_eq,
      agree success range mem t place inside]
  · rw [caching.actual_eq]
    exact received
  · intro t place outside
    rw [caching.valueAt, caches.valueAt, held_frame t place outside]
  · intro t place outside
    rw [caching.actual_eq, caches.actual_eq]
    exact left_frame t place outside

/-- A failure that leaves the blocks alone. -/
theorem Coherent.of_failure {after : Station} (caches : layout.Caches equipment cached actual st)
    (kept : layout.Caches equipment cached actual after) (same : after.slave = st.slave) :
    op.Coherent equipment st op.failure after := by
  have failed : ¬0 ≤ op.failure.rc := by
    rw [op.failure_rc]
    decide
  apply Coherent.of_cells caches kept
  · intro success
    exact absurd success failed
  · intro success
    exact absurd success failed
  · intro _
    rfl
  · intro _ _
    exact same
  · intro _ _ _
    rfl
  · intro _ _ _
    rfl

/-- A read that succeeds. -/
theorem Coherent.of_fetched {after : Station} {t : Table} {address : ℤ} {count : ℕ}
    (caches : layout.Caches equipment cached actual st)
    (fetched : layout.Caches equipment (cached.fetch actual t address count) actual after)
    (named : op.ranges layout = [⟨t, address, count⟩]) (success : 0 ≤ (op.success layout actual).rc) :
    op.Coherent equipment st (op.success layout actual) after := by
  apply Coherent.of_cells caches fetched
  · intro _ range mem other place inside
    rw [named, List.mem_singleton] at mem
    subst mem
    rcases inside with ⟨rfl, lower, upper⟩
    exact Cells.fetch_inside lower upper
  · intro _
    rfl
  · intro negative
    omega
  · intro negative
    omega
  · intro other place outside
    apply Cells.fetch_outside
    apply outside
    rw [named]
    exact List.mem_singleton_self _
  · intro _ _ _
    rfl

/-- The segment of an operation that writes. -/
abbrev Writes (op : Operation) (layout : Layout) (segment : Segment) : Prop :=
  ⟨segment.table, segment.address, segment.values.length⟩ ∈ op.ranges layout

theorem Writes.not_contains {segment : Segment} (writes : op.Writes layout segment) {t : Table}
    {place : ℤ} (outside : ∀ range ∈ op.ranges layout, ¬range.Contains t place) :
    ¬segment.Contains t place :=
  outside _ writes

/-- A write that fails is in the block, and the equipment may have executed it in part. -/
theorem Coherent.of_stored {after : Station} {segment : Segment} {left : Cells}
    (caches : layout.Caches equipment cached actual st)
    (stored : layout.Caches equipment (cached.store segment) left after)
    (frame : ∀ t place, ¬segment.Contains t place → left t place = actual t place)
    (named : op.Writes layout segment) (writes : ¬op.OnlyReads) :
    op.Coherent equipment st op.failure after := by
  have failed : ¬0 ≤ op.failure.rc := by
    rw [op.failure_rc]
    decide
  apply Coherent.of_cells caches stored
  · intro success
    exact absurd success failed
  · intro success
    exact absurd success failed
  · intro _
    rfl
  · intro _ reads
    exact absurd reads writes
  · intro t place outside
    exact Cells.store_of_not_contains (named.not_contains outside)
  · intro t place outside
    exact frame t place (named.not_contains outside)

/-- A write, whether the equipment has executed it or not. -/
theorem Coherent.of_settled {after : Station} {segment : Segment} {rc : ℤ} {left : Cells}
    (caches : layout.Caches equipment cached actual st)
    (stored : layout.Caches equipment (cached.store segment) left after)
    (settled : actual.Settled segment rc left)
    (named : op.ranges layout = [⟨segment.table, segment.address, segment.values.length⟩])
    (success : op.success layout left = .returned segment.values.length)
    (failure : op.failure = .returned (-1)) (writes : ¬op.OnlyReads) :
    op.Coherent equipment st (.returned rc) after := by
  have member : op.Writes layout segment := by
    rw [Writes, named]
    exact List.mem_singleton_self _
  rcases settled with ⟨rfl, rfl⟩ | ⟨rfl, frame⟩
  · apply Coherent.of_cells caches stored
    · intro _ range mem t place inside
      rw [named, List.mem_singleton] at mem
      subst mem
      exact Cells.store_of_contains inside cached actual
    · intro _
      exact success.symm
    · intro negative
      simp only [Answer.rc] at negative
      omega
    · intro _ reads
      exact absurd reads writes
    · intro t place outside
      exact Cells.store_of_not_contains (member.not_contains outside)
    · intro t place outside
      exact Cells.store_of_not_contains (member.not_contains outside)
  · rw [← failure]
    exact .of_stored caches stored frame member writes

/-- A write and then a read, which both succeed. -/
theorem Coherent.of_exchanged {after : Station} {segment : Segment} {t : Table} {address : ℤ}
    {count : ℕ} (caches : layout.Caches equipment cached actual st)
    (exchanged : layout.Caches equipment
      ((cached.store segment).fetch (actual.store segment) t address count) (actual.store segment) after)
    (named : op.ranges layout =
      [⟨segment.table, segment.address, segment.values.length⟩, ⟨t, address, count⟩])
    (success : 0 ≤ (op.success layout (actual.store segment)).rc) :
    op.Coherent equipment st (op.success layout (actual.store segment)) after := by
  have member : op.Writes layout segment := by
    rw [Writes, named]
    exact List.mem_cons_self
  apply Coherent.of_cells caches exchanged
  · intro _ range mem other place inside
    by_cases read : (Range.mk t address count).Contains other place
    · rcases read with ⟨rfl, lower, upper⟩
      exact Cells.fetch_inside lower upper
    · rw [Cells.fetch_outside read]
      apply Cells.store_of_contains
      rw [named] at mem
      rcases List.mem_pair.mp mem with rfl | rfl
      · exact inside
      · exact absurd inside read
  · intro _
    rfl
  · intro negative
    omega
  · intro negative
    omega
  · intro other place outside
    have unread := outside ⟨t, address, count⟩ (by rw [named]; exact List.mem_pair.mpr (Or.inr rfl))
    rw [Cells.fetch_outside unread]
    exact Cells.store_of_not_contains (member.not_contains outside)
  · intro other place outside
    exact Cells.store_of_not_contains (member.not_contains outside)

end Operation

/-- What a step has to show: the operation returns, coherently, and the blocks remain a cache. -/
def Operation.Keeps (op : Operation) (layout : Layout) (equipment : Equipment) (st : Station) :
    Prop :=
  ∃ answer after held left, st.operate op = (.ok answer, after) ∧
    layout.Caches equipment held left after ∧ op.Coherent equipment st answer after

namespace Layout.Caches

variable {layout : Layout} {equipment : Equipment} {cached actual : Cells} {st : Station}
  (caches : layout.Caches equipment cached actual st)

include caches

theorem keeps_of_failure {op : Operation} (run : st.operate op = (.ok op.failure, st)) :
    op.Keeps layout equipment st :=
  ⟨_, st, _, _, run, caches, .of_failure caches caches rfl⟩

theorem read_keeps (t : Table) (addr : ℤ) {dest : List t.Cell} {nb : ℕ}
    (room : nb ≤ dest.length) :
    (Operation.access (.read t addr dest nb)).Keeps layout equipment st := by
  have operate_eq : st.operate (.access (.read t addr dest nb)) =
      Station.delivering t (Station.deliver dest (st.readBlock t addr nb fun addr nb =>
        st.slave.toSlave.exchange st.device (.read t (st.slave.pduAddress addr) nb))) := by
    cases t <;> rfl
  by_cases found : (st.slave.map t).Contains (layout.address addr)
  · have contains := caches.contains found
    rcases caches.readBlock found nb with ⟨after, run, fetched⟩ | ⟨after, run, same, kept⟩
    · have fits : (layout.load actual t addr nb).length ≤ dest.length := by
        simp only [load, Memory.length_load, count]
        omega
      rw [run, Station.deliver_some fits] at operate_eq
      refine ⟨_, after, _, _, operate_eq, fetched, .of_fetched caches fetched ?_ ?_⟩
      · simp only [Operation.ranges, clamped, if_pos contains]
      · exact Int.natCast_nonneg _
    · rw [run] at operate_eq
      exact ⟨_, after, _, _, operate_eq, kept, .of_failure caches kept same⟩
  · apply caches.keeps_of_failure
    rw [operate_eq]
    simp only [Station.readBlock, caches.pduAddress, if_neg found]
    rfl

theorem updateBlockFromSlave_keeps (t : Table) :
    (Operation.updateBlockFromSlave t).Keeps layout equipment st := by
  have operate_eq : st.operate (.updateBlockFromSlave t) =
      Station.returning (st.updateFromSlave t fun addr nb =>
        st.slave.toSlave.exchange st.device (.read t (st.slave.pduAddress addr) nb)) := by
    cases t <;> rfl
  rcases caches.updateFromSlave t with ⟨after, run, fetched⟩ | ⟨after, run, same, kept⟩
  · rw [run] at operate_eq
    refine ⟨_, after, _, _, operate_eq, fetched, .of_fetched caches fetched rfl ?_⟩
    exact Int.natCast_nonneg _
  · rw [run] at operate_eq
    exact ⟨_, after, _, _, operate_eq, kept, .of_failure caches kept same⟩

/-- The operations that store an array in the block. -/
theorem storeBlock_keeps {op : Operation} {t : Table} {addr : ℤ} {src : List t.Cell} {nb : ℕ}
    (long : nb ≤ src.length)
    (operate_eq : st.operate op =
      Station.returning (st.storeBlock t addr src nb fun st block offset nb =>
        st.transferBlock t addr block offset nb
          (fun addr value =>
            st.slave.toSlave.exchange st.device (.writeOne t (st.slave.pduAddress addr) value))
          (fun addr src =>
            st.slave.toSlave.exchange st.device (.write t (st.slave.pduAddress addr) src))))
    (named : op.ranges layout = layout.clamped t addr nb)
    (success : layout.Contains t (layout.address addr) → ∀ left,
      op.success layout left = .returned (layout.count t (layout.address addr) nb))
    (failure : op.failure = .returned (-1)) (writes : ¬op.OnlyReads) :
    op.Keeps layout equipment st := by
  by_cases found : (st.slave.map t).Contains (layout.address addr)
  · have contains := caches.contains found
    rcases caches.storeBlock found long with ⟨rc, left, after, run, stored, settled⟩
    rw [run] at operate_eq
    have length := layout.length_taken t addr long
    refine ⟨_, after, _, _, operate_eq, stored,
      .of_settled caches stored settled ?_ ?_ failure writes⟩
    · simp only [named, clamped, if_pos contains, length]
    · simp only [success contains, length]
  · apply caches.keeps_of_failure
    rw [operate_eq, failure]
    simp only [Station.storeBlock, caches.pduAddress, if_neg found]
    rfl

theorem write_keeps {t : Table} (writable : t = .coil ∨ t = .holdingRegister) (addr : ℤ)
    {src : List t.Cell} {nb : ℕ} (long : nb ≤ src.length) :
    (Operation.access (.write t addr src nb)).Keeps layout equipment st := by
  apply caches.storeBlock_keeps long
  · rcases writable with rfl | rfl <;> rfl
  · rfl
  · intro _ _
    rfl
  · rfl
  · exact id

theorem writeOne_keeps {t : Table} (writable : t = .coil ∨ t = .holdingRegister) (addr : ℤ)
    (value : t.Cell) : (Operation.access (.writeOne t addr value)).Keeps layout equipment st := by
  apply caches.storeBlock_keeps (Nat.le_refl [value].length)
  · rcases writable with rfl | rfl <;> rfl
  · rfl
  · intro contains _
    have one : layout.count t (layout.address addr) [value].length = 1 := by
      rcases contains with ⟨lower, upper⟩
      simp only [count, List.length_singleton]
      omega
    rw [one]
    rfl
  · rfl
  · exact id

theorem updateSlaveFromBlock_keeps (t : Table) :
    (Operation.updateSlaveFromBlock t).Keeps layout equipment st := by
  have passed : ∀ {rc left after}, st.updateSlaveFromBlock t = (.ok rc, after) →
      layout.Caches equipment cached left after →
      actual.Settled ⟨t, layout.start t, Memory.load (cached t) (layout.start t) (layout.nb t)⟩ rc
        left → (t = .coil ∨ t = .holdingRegister) →
      (Operation.updateSlaveFromBlock t).Keeps layout equipment st := by
    intro rc left after run kept settled writable
    have operate_eq : st.operate (.updateSlaveFromBlock t) = (.ok (.returned rc), after) := by
      rw [Station.operate, run]
      rfl
    have stored := kept
    rw [← cached.store_load t (layout.start t) (layout.nb t)] at stored
    refine ⟨_, after, _, _, operate_eq, kept, .of_settled caches stored settled ?_ ?_ rfl id⟩
    · simp only [Memory.length_load]
      rcases writable with rfl | rfl <;> rfl
    · simp only [Memory.length_load]
      rfl
  cases t with
  | coil =>
      rcases caches.updateSlave .coil (fun _ _ => rfl) (fun _ _ _ => rfl) with
        ⟨rc, left, after, run, kept, settled⟩
      exact passed run kept settled (Or.inl rfl)
  | holdingRegister =>
      rcases caches.updateSlave .holdingRegister (fun _ _ => rfl) (fun _ _ _ => rfl) with
        ⟨rc, left, after, run, kept, settled⟩
      exact passed run kept settled (Or.inr rfl)
  | discreteInput => exact caches.keeps_of_failure rfl
  | inputRegister => exact caches.keeps_of_failure rfl

theorem writeRead_keeps (writeAddr readAddr : ℤ) {writeSrc readDest : List UInt16}
    {writeNb readNb : ℕ} (long : writeNb ≤ writeSrc.length) (room : readNb ≤ readDest.length) :
    (Operation.access (.writeRead writeAddr writeSrc writeNb readAddr readDest readNb)).Keeps layout
      equipment st := by
  have operate_eq :
      st.operate (.access (.writeRead writeAddr writeSrc writeNb readAddr readDest readNb)) =
        Station.delivering .holdingRegister
          (st.writeReadRegisters writeAddr writeSrc writeNb readAddr readDest readNb) := rfl
  by_cases found : (st.slave.map .holdingRegister).Contains (layout.address readAddr) ∧
      (st.slave.map .holdingRegister).Contains (layout.address writeAddr)
  · have reads := caches.contains found.1
    have writes := caches.contains found.2
    have length := layout.length_taken .holdingRegister writeAddr long
    have named : (Operation.access
        (.writeRead writeAddr writeSrc writeNb readAddr readDest readNb)).ranges layout =
          [⟨.holdingRegister, layout.address writeAddr,
              (layout.taken .holdingRegister writeAddr writeSrc writeNb).length⟩,
            ⟨.holdingRegister, layout.address readAddr,
              layout.count .holdingRegister (layout.address readAddr) readNb⟩] := by
      simp only [Operation.ranges, clamped, reads, writes, and_self, if_true, List.singleton_append,
        length]
    rcases caches.writeReadRegisters found long room with
      ⟨after, run, fetched⟩ | ⟨left, after, run, stored, frame⟩
    · rw [run] at operate_eq
      refine ⟨_, after, _, _, operate_eq, fetched, .of_exchanged caches fetched named ?_⟩
      exact Int.natCast_nonneg _
    · rw [run] at operate_eq
      refine ⟨_, after, _, _, operate_eq, stored, .of_stored caches stored frame ?_ id⟩
      rw [Operation.Writes, named]
      exact List.mem_cons_self
  · apply caches.keeps_of_failure
    rw [operate_eq]
    simp only [Station.writeReadRegisters, caches.pduAddress, if_neg found]
    rfl

/-- A step: every operation is coherent. -/
theorem operate_keeps {op : Operation} (permitted : op.Permitted) :
    op.Keeps layout equipment st := by
  cases op with
  | access access =>
      cases access with
      | read t addr dest nb => exact caches.read_keeps t addr permitted
      | write t addr src nb => exact caches.write_keeps permitted.2 addr permitted.1
      | writeOne t addr value => exact caches.writeOne_keeps permitted addr value
      | writeRead writeAddr writeSrc writeNb readAddr readDest readNb =>
          exact caches.writeRead_keeps writeAddr readAddr permitted.1 permitted.2
  | updateBlockFromSlave t => exact caches.updateBlockFromSlave_keeps t
  | updateSlaveFromBlock t => exact caches.updateSlaveFromBlock_keeps t

end Layout.Caches

/-- The operation returns, and its result is coherent. -/
def Station.OperatesCoherently (equipment : Equipment) (st : Station) (op : Operation) : Prop :=
  ∃ answer after, st.operate op = (.ok answer, after) ∧ op.Coherent equipment st answer after

theorem Station.caches_of_open {st : Station} {equipment : Equipment} (open_ : st.isOpen = true)
    (behind : st.Behind equipment) (laid : ∀ t, (st.slave.map t).LaidOut) :
    st.layout.Caches equipment (fun t place => ((st.slave.map t).valueAt place).getD t.zero)
      (equipment.cells st.sent) st :=
  ⟨represents_layout laid fun t => (st.slave.map t).holds_valueAt t.zero, open_, behind, rfl⟩

/-- In every run of operations on a slave with an open device each of them is coherent. -/
theorem Station.operations_coherent {st : Station} {equipment : Equipment} (open_ : st.isOpen = true)
    (behind : st.Behind equipment) (laid : ∀ t, (st.slave.map t).LaidOut) {ops : List Operation}
    (permitted : ∀ op ∈ ops, op.Permitted) :
    Process.Along (fun st op => (st.operate op).2) (Station.OperatesCoherently equipment) st ops := by
  have guarded : Process.Along (fun (st : Station) op => (st.operate op).2)
      (fun _ op => op.Permitted) st ops := Process.along_iff_forall_mem.mpr permitted
  apply Process.Along.of_invariant
    (fun now => ∃ cached actual, st.layout.Caches equipment cached actual now) _ _ _ guarded
  · rintro now op ⟨cached, actual, caches⟩ allowed
    rcases caches.operate_keeps allowed with ⟨answer, after, held, left, run, kept, _⟩
    rw [run]
    exact ⟨held, left, kept⟩
  · rintro now op ⟨cached, actual, caches⟩ allowed
    rcases caches.operate_keeps allowed with ⟨answer, after, _, _, run, _, coherent⟩
    exact ⟨answer, after, run, coherent⟩
  · exact ⟨_, _, caches_of_open open_ behind laid⟩

/-- Registers that all hold 5, on a link where writes of several registers fail. -/
def Equipment.fives : Equipment where
  id := 1
  initial := fun t _ =>
    match t with
    | .holdingRegister => 5
    | other => other.zero
  succeeds := fun _ transfer =>
    match transfer with
    | .write _ _ _ => false
    | _ => true
  residue := fun _ _ t _ => t.zero
  report := []

/-- A slave with two registers behind a device on the link of this equipment. -/
def Station.remote : Station :=
  { holding 0 [0, 0] with
    device := some
      { Device.create .rtu { Context.silent with
          answer := fun history sent => Equipment.fives.answer history sent.transfer } with
        isOpen := true } }

theorem Station.operations_coherent_of_remote :
    Process.Along (fun st op => (st.operate op).2)
      (Station.OperatesCoherently Equipment.fives) Station.remote
      [.updateBlockFromSlave .holdingRegister, .access (.write .holdingRegister 1 [7, 8] 2),
        .access (.writeRead 2 [9] 1 1 [0, 0] 2)] := by
  apply operations_coherent
  · rfl
  · exact ⟨rfl, _, rfl, fun _ _ => rfl⟩
  · intro t
    cases t with
    | holdingRegister => exact Or.inr ⟨[0, 0], rfl, rfl, by decide⟩
    | coil => exact Or.inl ⟨rfl, rfl⟩
    | discreteInput => exact Or.inl ⟨rfl, rfl⟩
    | inputRegister => exact Or.inl ⟨rfl, rfl⟩
  · intro op mem
    simp only [List.mem_cons, List.not_mem_nil, or_false] at mem
    rcases mem with rfl | rfl | rfl <;> simp [Operation.Permitted, Access.HasRoom]

end Modbuspp
