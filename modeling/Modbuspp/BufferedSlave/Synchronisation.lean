import Modbuspp.BufferedSlave.Coherence
import Modbuspp.BufferedSlave.WholeBlocks

/-!
# Synchronising all the tables

Without a table the updates go through the tables of the slave, and the first that fails ends them. The
blocks then hold the cells of the equipment up to there, and once they hold them all only a write that
fails can set them apart again.
-/

namespace Modbuspp

namespace Station

/-- One operand of the conjunctions: an update that does not return a negative result. -/
def atLeastZero (run : Except Fault ℤ × Station) : Except Fault Bool × Station :=
  (run.1.map fun rc => decide (0 ≤ rc), run.2)

/-- The tables of `updateBlockFromSlave`, in the order of the source. -/
def pulledTables : List Table := [.coil, .holdingRegister, .discreteInput, .inputRegister]

/-- The tables of `updateSlaveFromBlock`, in the order of the source. -/
def pushedTables : List Table := [.coil, .holdingRegister]

/-- `updateBlockFromSlave` without a table. -/
def updateBlocksFromSlave (st : Station) : Except Fault Bool × Station :=
  Process.conjunction (fun st t => atLeastZero (st.updateBlockFromSlave t)) st pulledTables

/-- `updateSlaveFromBlock` without a table. -/
def updateSlaveFromBlocks (st : Station) : Except Fault Bool × Station :=
  Process.conjunction (fun st t => atLeastZero (st.updateSlaveFromBlock t)) st pushedTables

/-- The block of a table holds the cells of the equipment. -/
def Mirrors (st : Station) (equipment : Equipment) (t : Table) : Prop :=
  ∀ place, st.layout.Contains t place →
    (st.slave.map t).valueAt place = some (equipment.cells st.sent t place)

/-- The blocks of some tables were refreshed, and nothing else has changed. -/
structure Fetched (before : Station) (equipment : Equipment) (tables : List Table) (after : Station) :
    Prop where
  mirrors : ∀ t ∈ tables, after.Mirrors equipment t
  rest : ∀ t, t ∉ tables → ∀ place, (after.slave.map t).valueAt place =
    (before.slave.map t).valueAt place
  spared : equipment.cells after.sent = equipment.cells before.sent

/-- The blocks of some tables were passed on. No others were touched, and the blocks are as they were. -/
structure PassedOn (before : Station) (equipment : Equipment) (tables touched : List Table)
    (after : Station) : Prop where
  mirrors : ∀ t ∈ tables, after.Mirrors equipment t
  kept : ∀ t place, (after.slave.map t).valueAt place = (before.slave.map t).valueAt place
  frame : ∀ t place, ¬(t ∈ touched ∧ before.layout.Contains t place) →
    equipment.cells after.sent t place = equipment.cells before.sent t place

/-- All the blocks are refreshed, or those before the first that cannot be. -/
def Pulls (st : Station) (equipment : Equipment) : Prop :=
  (∃ after, st.updateBlocksFromSlave = (.ok true, after) ∧ st.Fetched equipment pulledTables after) ∨
    ∃ done t after, done ++ [t] <+: pulledTables ∧ st.updateBlocksFromSlave = (.ok false, after) ∧
      st.Fetched equipment done after

/-- Both blocks are passed on, or the one before the first that cannot be. -/
def Pushes (st : Station) (equipment : Equipment) : Prop :=
  (∃ after, st.updateSlaveFromBlocks = (.ok true, after) ∧
      st.PassedOn equipment pushedTables pushedTables after) ∨
    ∃ done t after, done ++ [t] <+: pushedTables ∧ st.updateSlaveFromBlocks = (.ok false, after) ∧
      st.PassedOn equipment done (done ++ [t]) after

end Station

/-- The blocks of some tables hold the cells of the equipment, and the others what they held before. -/
def Layout.Pulled (layout : Layout) (equipment : Equipment) (cached actual : Cells) (done : List Table)
    (now : Station) : Prop :=
  ∃ held, layout.Caches equipment held actual now ∧
    (∀ t ∈ done, ∀ place, layout.Contains t place → held t place = actual t place) ∧
    ∀ t, t ∉ done → held t = cached t

/-- The equipment holds the cells of some blocks, and has its own outside of those that were touched. -/
def Layout.Pushed (layout : Layout) (equipment : Equipment) (cached actual : Cells)
    (done touched : List Table) (now : Station) : Prop :=
  ∃ left, layout.Caches equipment cached left now ∧
    (∀ t ∈ done, ∀ place, layout.Contains t place → left t place = cached t place) ∧
    ∀ t place, ¬(t ∈ touched ∧ layout.Contains t place) → left t place = actual t place

namespace Layout.Caches

variable {layout : Layout} {equipment : Equipment} {cached actual : Cells} {st : Station}
  (caches : layout.Caches equipment cached actual st)

include caches

theorem mirrors_iff (t : Table) :
    st.Mirrors equipment t ↔ ∀ place, layout.Contains t place → cached t place = actual t place := by
  have held : ∀ place, layout.Contains t place →
      (st.slave.map t).valueAt place = some (cached t place) := by
    intro place inside
    rw [caches.valueAt, if_pos inside]
  simp only [Station.Mirrors, caches.layout_eq, caches.actual_eq]
  constructor
  · intro mirrors place inside
    exact Option.some.inj ((held place inside).symm.trans (mirrors place inside))
  · intro same place inside
    rw [held place inside, same place inside]

/-- One more block is refreshed, or it is not. -/
theorem pulls_next {before : Cells} {done : List Table} {t : Table}
    (fetched : ∀ t ∈ done, ∀ place, layout.Contains t place → cached t place = actual t place)
    (rest : ∀ t, t ∉ done → cached t = before t) :
    (∃ after, Station.atLeastZero (st.updateBlockFromSlave t) = (.ok true, after) ∧
        layout.Pulled equipment before actual (done ++ [t]) after) ∨
      ∃ after, Station.atLeastZero (st.updateBlockFromSlave t) = (.ok false, after) ∧
        layout.Pulled equipment before actual done after := by
  rw [Station.updateBlockFromSlave_eq]
  rcases caches.updateFromSlave t with ⟨after, run, kept⟩ | ⟨after, run, _, kept⟩
  · left
    refine ⟨after, ?_, _, kept, ?_, ?_⟩
    · simp [Station.atLeastZero, run, Except.map]
    · intro other mem place inside
      by_cases here : other = t
      · subst here
        exact Cells.fetch_inside inside.1 inside.2
      · have earlier : other ∈ done := by simpa [here] using mem
        rw [Cells.fetch_outside fun range => here range.1]
        exact fetched other earlier place inside
    · intro other absent
      have apart : other ∉ done ∧ other ≠ t := by simpa using absent
      rw [← rest other apart.1]
      funext place
      exact Cells.fetch_outside fun range => apart.2 range.1
  · right
    refine ⟨after, ?_, _, kept, fetched, rest⟩
    simp [Station.atLeastZero, run, Except.map]

theorem pull : (∃ after, st.updateBlocksFromSlave = (.ok true, after) ∧
      layout.Pulled equipment cached actual Station.pulledTables after) ∨
    ∃ done t after, done ++ [t] <+: Station.pulledTables ∧
      st.updateBlocksFromSlave = (.ok false, after) ∧
      layout.Pulled equipment cached actual done after := by
  apply Process.conjunction_cases (layout.Pulled equipment cached actual)
    fun done _ => layout.Pulled equipment cached actual done
  · intro done t now _ pulled
    rcases pulled with ⟨held, kept, fetched, rest⟩
    exact kept.pulls_next fetched rest
  · exact ⟨cached, caches, by simp, by simp⟩

/-- One more block is passed on, or the equipment may have taken a part of it. -/
theorem pushes_next {before : Cells} {done : List Table} {t : Table} (fresh : t ∉ done)
    (writable : t ∈ Station.pushedTables)
    (stored : ∀ t ∈ done, ∀ place, layout.Contains t place → actual t place = cached t place)
    (frame : ∀ t place, ¬(t ∈ done ∧ layout.Contains t place) → actual t place = before t place) :
    (∃ after, Station.atLeastZero (st.updateSlaveFromBlock t) = (.ok true, after) ∧
        layout.Pushed equipment cached before (done ++ [t]) (done ++ [t]) after) ∨
      ∃ after, Station.atLeastZero (st.updateSlaveFromBlock t) = (.ok false, after) ∧
        layout.Pushed equipment cached before done (done ++ [t]) after := by
  have update : ∃ rc left after, st.updateSlaveFromBlock t = (.ok rc, after) ∧
      layout.Caches equipment cached left after ∧
      actual.Settled ⟨t, layout.start t,
        Memory.load (cached t) (layout.start t) (layout.nb t)⟩ rc left := by
    rcases List.mem_pair.mp writable with rfl | rfl
    · exact caches.updateSlave .coil (fun _ _ => rfl) fun _ _ _ => rfl
    · exact caches.updateSlave .holdingRegister (fun _ _ => rfl) fun _ _ _ => rfl
  rcases update with ⟨rc, left, after, run, kept, settled⟩
  have contains_iff : ∀ other place, (Segment.mk t (layout.start t)
      (Memory.load (cached t) (layout.start t) (layout.nb t))).Contains other place ↔
        other = t ∧ layout.Contains other place := by
    intro other place
    simp only [Segment.Contains, Memory.length_load, Layout.Contains]
    constructor
    · rintro ⟨rfl, inside⟩
      exact ⟨rfl, inside⟩
    · rintro ⟨rfl, inside⟩
      exact ⟨rfl, inside⟩
  have outside : ∀ other place, ¬(other = t ∧ layout.Contains other place) →
      left other place = actual other place := by
    intro other place apart
    rw [← contains_iff] at apart
    rcases settled with ⟨_, rfl⟩ | ⟨_, same⟩
    · exact Cells.store_of_not_contains apart
    · exact same other place apart
  have earlier : ∀ other ∈ done, ∀ place, layout.Contains other place →
      left other place = cached other place := by
    intro other mem place inside
    have apart : ¬(other = t ∧ layout.Contains other place) := by
      rintro ⟨rfl, _⟩
      exact fresh mem
    rw [outside other place apart, stored other mem place inside]
  have untouched : ∀ other place, ¬(other ∈ done ++ [t] ∧ layout.Contains other place) →
      left other place = before other place := by
    intro other place apart
    rw [List.mem_append, List.mem_singleton] at apart
    rw [outside other place fun both => apart ⟨Or.inr both.1, both.2⟩]
    exact frame other place fun both => apart ⟨Or.inl both.1, both.2⟩
  rcases settled with ⟨counted, rfl⟩ | ⟨failed, _⟩
  · left
    refine ⟨after, ?_, _, kept, ?_, untouched⟩
    · simp [Station.atLeastZero, run, counted, Except.map]
    · intro other mem place inside
      by_cases here : other = t
      · subst here
        have own := (contains_iff other place).mpr ⟨rfl, inside⟩
        rw [Cells.store_of_contains own actual cached, Cells.store_load]
      · exact earlier other (by simpa [here] using mem) place inside
  · right
    refine ⟨after, ?_, _, kept, earlier, untouched⟩
    simp [Station.atLeastZero, run, failed, Except.map]

theorem push : (∃ after, st.updateSlaveFromBlocks = (.ok true, after) ∧
      layout.Pushed equipment cached actual Station.pushedTables Station.pushedTables after) ∨
    ∃ done t after, done ++ [t] <+: Station.pushedTables ∧
      st.updateSlaveFromBlocks = (.ok false, after) ∧
      layout.Pushed equipment cached actual done (done ++ [t]) after := by
  apply Process.conjunction_cases (fun done => layout.Pushed equipment cached actual done done)
    fun done t => layout.Pushed equipment cached actual done (done ++ [t])
  · rintro done t now next ⟨left, kept, stored, frame⟩
    have distinct : (done ++ [t]).Nodup := next.sublist.nodup (by decide)
    have fresh : t ∉ done := by
      intro mem
      exact (List.nodup_append.mp distinct).2.2 t mem t (List.mem_singleton_self t) rfl
    exact kept.pushes_next fresh (next.subset (by simp)) stored frame
  · exact ⟨actual, caches, by simp, by simp⟩

theorem fetched {done : List Table} {now : Station}
    (pulled : layout.Pulled equipment cached actual done now) : st.Fetched equipment done now := by
  rcases pulled with ⟨held, kept, fetched, rest⟩
  refine ⟨?_, ?_, ?_⟩
  · intro t mem
    exact (kept.mirrors_iff t).mpr (fetched t mem)
  · intro t absent place
    rw [kept.valueAt, caches.valueAt, rest t absent]
  · rw [kept.actual_eq, caches.actual_eq]

theorem passedOn {done touched : List Table} {now : Station}
    (pushed : layout.Pushed equipment cached actual done touched now) :
    st.PassedOn equipment done touched now := by
  rcases pushed with ⟨left, kept, stored, frame⟩
  refine ⟨?_, ?_, ?_⟩
  · intro t mem
    apply (kept.mirrors_iff t).mpr
    intro place inside
    exact (stored t mem place inside).symm
  · intro t place
    rw [kept.valueAt, caches.valueAt]
  · intro t place outside
    rw [caches.layout_eq] at outside
    rw [kept.actual_eq, caches.actual_eq, frame t place outside]

theorem pulls : st.Pulls equipment := by
  rcases caches.pull with ⟨after, run, pulled⟩ | ⟨done, t, after, next, run, pulled⟩
  · exact Or.inl ⟨after, run, caches.fetched pulled⟩
  · exact Or.inr ⟨done, t, after, next, run, caches.fetched pulled⟩

theorem pushes : st.Pushes equipment := by
  rcases caches.push with ⟨after, run, pushed⟩ | ⟨done, t, after, next, run, pushed⟩
  · exact Or.inl ⟨after, run, caches.passedOn pushed⟩
  · exact Or.inr ⟨done, t, after, next, run, caches.passedOn pushed⟩

end Layout.Caches

/-- An operation on a table, or the update of all of them. -/
inductive SyncCall where
  | operate (op : Operation)
  | updateBlocksFromSlave
  | updateSlaveFromBlocks

namespace SyncCall

/-- An operation that is called is one of the permitted. -/
def Permitted : SyncCall → Prop
  | operate op => op.Permitted
  | _ => True

/-- The calls that leave the equipment alone. -/
def OnlyReads : SyncCall → Prop
  | operate op => op.OnlyReads
  | updateBlocksFromSlave => True
  | updateSlaveFromBlocks => False

end SyncCall

namespace Station

/-- A call, with the answer whether it has succeeded. -/
def synchronise (st : Station) : SyncCall → Except Fault Bool × Station
  | .operate op =>
      ((st.operate op).1.map fun answer => decide (0 ≤ answer.rc), (st.operate op).2)
  | .updateBlocksFromSlave => st.updateBlocksFromSlave
  | .updateSlaveFromBlocks => st.updateSlaveFromBlocks

/-- The station after a call. -/
def afterSync (st : Station) (call : SyncCall) : Station := (st.synchronise call).2

/-- What a call does to the blocks and to the equipment. -/
def Synchronises (equipment : Equipment) (st : Station) : SyncCall → Prop
  | .operate op => st.OperatesCoherently equipment op
  | .updateBlocksFromSlave => st.Pulls equipment
  | .updateSlaveFromBlocks => st.Pushes equipment

/-- No write fails. -/
def Settles (st : Station) (call : SyncCall) : Prop :=
  call.OnlyReads ∨ (st.synchronise call).1 = .ok true

/-- Every block holds the cells of the equipment. -/
def MirrorsAll (equipment : Equipment) (st : Station) : Prop := ∀ t, st.Mirrors equipment t

end Station

namespace Layout.Caches

variable {layout : Layout} {equipment : Equipment} {cached actual : Cells} {st : Station}
  (caches : layout.Caches equipment cached actual st)

include caches

/-- A step: the call does what it should, and the blocks remain a cache. -/
theorem synchronises {call : SyncCall} (permitted : call.Permitted) :
    st.Synchronises equipment call ∧
      ∃ held left, layout.Caches equipment held left (st.afterSync call) := by
  cases call with
  | operate op =>
      rcases caches.operate_keeps permitted with ⟨answer, after, held, left, run, kept, coherent⟩
      refine ⟨⟨answer, after, run, coherent⟩, held, left, ?_⟩
      simp only [Station.afterSync, Station.synchronise, run]
      exact kept
  | updateBlocksFromSlave =>
      refine ⟨caches.pulls, ?_⟩
      simp only [Station.afterSync, Station.synchronise]
      rcases caches.pull with ⟨after, run, held, kept, _⟩ | ⟨_, _, after, _, run, held, kept, _⟩
      · exact ⟨held, actual, by rw [run]; exact kept⟩
      · exact ⟨held, actual, by rw [run]; exact kept⟩
  | updateSlaveFromBlocks =>
      refine ⟨caches.pushes, ?_⟩
      simp only [Station.afterSync, Station.synchronise]
      rcases caches.push with ⟨after, run, left, kept, _⟩ | ⟨_, _, after, _, run, left, kept, _⟩
      · exact ⟨cached, left, by rw [run]; exact kept⟩
      · exact ⟨cached, left, by rw [run]; exact kept⟩

/-- An operation that only reads does not change the equipment. -/
theorem reads_spare {op : Operation} (reads : op.OnlyReads) (permitted : op.Permitted) :
    equipment.cells (st.operate op).2.sent = actual := by
  cases op with
  | access access =>
      cases access with
      | read t addr dest nb =>
          have operate_eq : st.operate (.access (.read t addr dest nb)) =
              Station.delivering t (Station.deliver dest (st.readBlock t addr nb fun addr nb =>
                st.slave.toSlave.exchange st.device (.read t (st.slave.pduAddress addr) nb))) := by
            cases t <;> rfl
          by_cases found : (st.slave.map t).Contains (layout.address addr)
          · rcases caches.readBlock found nb with ⟨after, run, fetched⟩ | ⟨after, run, _, kept⟩
            · have fits : (layout.load actual t addr nb).length ≤ dest.length := by
                have room : nb ≤ dest.length := permitted
                simp only [load, Memory.length_load, count]
                omega
              rw [run, Station.deliver_some fits] at operate_eq
              rw [operate_eq]
              exact fetched.actual_eq
            · rw [run] at operate_eq
              rw [operate_eq]
              exact kept.actual_eq
          · rw [operate_eq]
            simp only [Station.readBlock, caches.pduAddress, if_neg found]
            exact caches.actual_eq
      | write t addr src nb => exact absurd reads id
      | writeOne t addr value => exact absurd reads id
      | writeRead writeAddr writeSrc writeNb readAddr readDest readNb => exact absurd reads id
  | updateBlockFromSlave t =>
      have operate_eq : st.operate (.updateBlockFromSlave t) =
          Station.returning (st.updateFromSlave t fun addr nb =>
            st.slave.toSlave.exchange st.device (.read t (st.slave.pduAddress addr) nb)) := by
        cases t <;> rfl
      rcases caches.updateFromSlave t with ⟨after, run, fetched⟩ | ⟨after, run, _, kept⟩
      · rw [operate_eq, run]
        exact fetched.actual_eq
      · rw [operate_eq, run]
        exact kept.actual_eq
  | updateSlaveFromBlock t => exact absurd reads id

/-- A cell that is the same in the block and in the equipment as before. -/
theorem mirrors_of_same {now : Station} {held left : Cells} (kept : layout.Caches equipment held left now)
    {t : Table} (mirrors : st.Mirrors equipment t) {place : ℤ} (inside : now.layout.Contains t place)
    (block : (now.slave.map t).valueAt place = (st.slave.map t).valueAt place)
    (device : equipment.cells now.sent t place = equipment.cells st.sent t place) :
    (now.slave.map t).valueAt place = some (equipment.cells now.sent t place) := by
  rw [kept.layout_eq, ← caches.layout_eq] at inside
  rw [block, device]
  exact mirrors place inside

theorem operate_mirrors {op : Operation} (permitted : op.Permitted)
    (settles : op.OnlyReads ∨ ∀ answer, (st.operate op).1 = .ok answer → 0 ≤ answer.rc)
    (mirrored : st.MirrorsAll equipment) : (st.operate op).2.MirrorsAll equipment := by
  rcases caches.operate_keeps permitted with ⟨answer, after, held, left, run, kept, coherent⟩
  rw [run]
  rw [run] at settles
  intro t place inside
  by_cases success : 0 ≤ answer.rc
  · by_cases named : ∃ range ∈ op.ranges st.layout, range.Contains t place
    · rcases named with ⟨range, mem, contains⟩
      exact coherent.agree success range mem t place contains
    · have apart : ∀ range ∈ op.ranges st.layout, ¬range.Contains t place := by
        intro range mem contains
        exact named ⟨range, mem, contains⟩
      exact caches.mirrors_of_same kept (mirrored t) inside (coherent.block_frame t place apart)
        (coherent.device_frame t place apart)
  · have reads : op.OnlyReads := by
      rcases settles with reads | succeeds
      · exact reads
      · exact absurd (succeeds answer rfl) success
    have same : after.slave = st.slave := coherent.unread (by omega) reads
    have spared := caches.reads_spare reads permitted
    rw [run] at spared
    apply caches.mirrors_of_same kept (mirrored t) inside
    · rw [same]
    · rw [spared, caches.actual_eq]

/-- Blocks that hold the cells of the equipment still do after a call that does not fail to write. -/
theorem afterSync_mirrors {call : SyncCall} (permitted : call.Permitted) (settles : st.Settles call)
    (mirrored : st.MirrorsAll equipment) : (st.afterSync call).MirrorsAll equipment := by
  rcases (caches.synchronises permitted).2 with ⟨held, left, kept⟩
  cases call with
  | operate op =>
      apply caches.operate_mirrors permitted _ mirrored
      rcases settles with reads | succeeds
      · exact Or.inl reads
      · right
        intro answer answered
        simpa [Station.synchronise, answered, Except.map] using succeeds
  | updateBlocksFromSlave =>
      have fetched : ∃ done, st.Fetched equipment done (st.afterSync .updateBlocksFromSlave) := by
        simp only [Station.afterSync, Station.synchronise]
        rcases caches.pulls with ⟨after, run, fetched⟩ | ⟨done, _, after, _, run, fetched⟩
        · exact ⟨_, by rw [run]; exact fetched⟩
        · exact ⟨done, by rw [run]; exact fetched⟩
      rcases fetched with ⟨done, fetched⟩
      intro t
      by_cases here : t ∈ done
      · exact fetched.mirrors t here
      · intro place inside
        apply caches.mirrors_of_same kept (mirrored t) inside (fetched.rest t here place)
        rw [fetched.spared]
  | updateSlaveFromBlocks =>
      have succeeds : st.updateSlaveFromBlocks.1 = .ok true := settles.resolve_left id
      have passed : st.PassedOn equipment Station.pushedTables Station.pushedTables
          (st.afterSync .updateSlaveFromBlocks) := by
        simp only [Station.afterSync, Station.synchronise]
        rcases caches.pushes with ⟨after, run, passed⟩ | ⟨_, _, after, _, run, _⟩
        · rw [run]
          exact passed
        · rw [run] at succeeds
          cases succeeds
      intro t
      by_cases here : t ∈ Station.pushedTables
      · exact passed.mirrors t here
      · intro place inside
        exact caches.mirrors_of_same kept (mirrored t) inside (passed.kept t place)
          (passed.frame t place fun both => here both.1)

/-- A complete update of the blocks. -/
theorem mirrorsAll_of_pull (complete : st.updateBlocksFromSlave.1 = .ok true) :
    st.updateBlocksFromSlave.2.MirrorsAll equipment := by
  rcases caches.pulls with ⟨after, run, fetched⟩ | ⟨_, _, after, _, run, _⟩
  · rw [run]
    intro t
    exact fetched.mirrors t (by cases t <;> decide)
  · rw [run] at complete
    cases complete

end Layout.Caches

namespace Station

variable {st : Station} {equipment : Equipment} {calls later : List SyncCall}

theorem mirrors_along {layout : Layout} {cached actual : Cells}
    (caches : layout.Caches equipment cached actual st) (permitted : ∀ call ∈ calls, call.Permitted)
    (settled : Process.Along afterSync Settles st calls) (mirrored : st.MirrorsAll equipment) :
    (calls.foldl afterSync st).MirrorsAll equipment := by
  induction calls generalizing st cached actual with
  | nil => exact mirrored
  | cons call calls ih =>
      have allowed := permitted call List.mem_cons_self
      rcases (caches.synchronises allowed).2 with ⟨held, left, kept⟩
      apply ih kept
      · intro other mem
        exact permitted other (List.mem_cons_of_mem _ mem)
      · exact settled.2
      · exact caches.afterSync_mirrors allowed settled.1 mirrored

/-- After a complete update the blocks hold the cells of the equipment, as long as no write fails. -/
theorem mirrored_of_run (opened : st.isOpen = true) (behind : st.Behind equipment)
    (laid : ∀ t, (st.slave.map t).LaidOut) (permitted : ∀ call ∈ calls ++ later, call.Permitted)
    (complete : (calls.foldl afterSync st).updateBlocksFromSlave.1 = .ok true)
    (settled : Process.Along afterSync Settles (calls.foldl afterSync st).updateBlocksFromSlave.2 later) :
    (later.foldl afterSync (calls.foldl afterSync st).updateBlocksFromSlave.2).MirrorsAll equipment := by
  have before : ∀ call ∈ calls, call.Permitted := by
    intro call mem
    exact permitted call (List.mem_append_left later mem)
  have after : ∀ call ∈ later, call.Permitted := by
    intro call mem
    exact permitted call (List.mem_append_right calls mem)
  have caching : ∃ cached actual, st.layout.Caches equipment cached actual (calls.foldl afterSync st) := by
    apply Process.Along.foldl_invariant
      (fun now => ∃ cached actual, st.layout.Caches equipment cached actual now) _ _
      (Process.along_iff_forall_mem.mpr before)
    · rintro now call ⟨cached, actual, caches⟩ allowed
      exact (caches.synchronises allowed).2
    · exact ⟨_, _, caches_of_open opened behind laid⟩
  rcases caching with ⟨cached, actual, caches⟩
  have allowed : SyncCall.updateBlocksFromSlave.Permitted := trivial
  rcases (caches.synchronises allowed).2 with ⟨held, left, kept⟩
  exact mirrors_along kept after settled (caches.mirrorsAll_of_pull complete)

theorem remote_behind : remote.Behind Equipment.fives := ⟨rfl, _, rfl, fun _ _ => rfl⟩

theorem remote_laidOut (t : Table) : (remote.slave.map t).LaidOut := by
  cases t with
  | holdingRegister => exact Or.inr ⟨[0, 0], rfl, rfl, by decide⟩
  | coil => exact Or.inl ⟨rfl, rfl⟩
  | discreteInput => exact Or.inl ⟨rfl, rfl⟩
  | inputRegister => exact Or.inl ⟨rfl, rfl⟩

theorem mirrored_of_run_remote :
    ([SyncCall.operate (.access (.writeOne .holdingRegister 1 9))].foldl afterSync
      ([SyncCall.updateSlaveFromBlocks].foldl afterSync remote).updateBlocksFromSlave.2).MirrorsAll
        Equipment.fives := by
  apply mirrored_of_run rfl remote_behind remote_laidOut
  · intro call mem
    simp only [List.singleton_append, List.mem_cons, List.not_mem_nil, or_false] at mem
    rcases mem with rfl | rfl <;> simp [SyncCall.Permitted, Operation.Permitted]
  · rfl
  · exact ⟨Or.inr rfl, trivial⟩

end Station

end Modbuspp
