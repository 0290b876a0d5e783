import Mathlib.Algebra.Group.Nat.Defs
import Modbuspp.BufferedSlave.Layout
import Modbuspp.Library.Process

/-!
# The offline slave as an addressed memory

Without an open device a buffered slave is nothing but memory, and all of it is zero at first. Each
function for direct access loads from this memory or stores to it, as long as the block it finds there ends
at an `int`; in a block that ends above, it finds nothing.
-/

namespace Modbuspp

namespace Layout

variable (layout : Layout) (cells : Cells)

/-- The answer to a read: the cells go to the front of the array of the caller. -/
def answerRead (t : Table) (addr : ℤ) (dest : List t.Cell) (nb : ℕ) : Answer :=
  if layout.Contains t (layout.address addr) then
    .delivered t (layout.count t (layout.address addr) nb)
      (Storage.overwrite dest 0 (layout.load cells t addr nb))
  else .delivered t (-1) dest

/-- The answer to a write. -/
def answerWrite (t : Table) (addr : ℤ) (nb : ℕ) : Answer :=
  if layout.Contains t (layout.address addr) then .returned (layout.count t (layout.address addr) nb)
  else .returned (-1)

/-- The memory after a write to any address. -/
def written (t : Table) (addr : ℤ) (src : List t.Cell) (nb : ℕ) : Cells :=
  if layout.Contains t (layout.address addr) then layout.store cells t addr src nb else cells

/-- The addresses of both parts of the transaction lie in the block. -/
def ContainsBoth (writeAddr readAddr : ℤ) : Prop :=
  layout.Contains .holdingRegister (layout.address readAddr) ∧
    layout.Contains .holdingRegister (layout.address writeAddr)

instance (writeAddr readAddr : ℤ) : Decidable (layout.ContainsBoth writeAddr readAddr) :=
  inferInstanceAs (Decidable (_ ∧ _))

/-- What an access answers. The read of a transaction follows its write. -/
def answer : Access → Answer
  | .read t addr dest nb => layout.answerRead cells t addr dest nb
  | .write t addr _ nb => layout.answerWrite t addr nb
  | .writeOne t addr _ => layout.answerWrite t addr 1
  | .writeRead writeAddr writeSrc writeNb readAddr readDest readNb =>
      if layout.ContainsBoth writeAddr readAddr then
        layout.answerRead (layout.written cells .holdingRegister writeAddr writeSrc writeNb)
          .holdingRegister readAddr readDest readNb
      else .delivered .holdingRegister (-1) readDest

/-- The memory after an access. -/
def after : Access → Cells
  | .read _ _ _ _ => cells
  | .write t addr src nb => layout.written cells t addr src nb
  | .writeOne t addr value => layout.written cells t addr [value] 1
  | .writeRead writeAddr writeSrc writeNb readAddr _ _ =>
      if layout.ContainsBoth writeAddr readAddr then
        layout.written cells .holdingRegister writeAddr writeSrc writeNb
      else cells

/-- A step of the memory. -/
def access (access : Access) : Except Fault Answer × Cells :=
  (.ok (layout.answer cells access), layout.after cells access)

/-- An access inside a block finds one that ends at an `int`. -/
def EndsNear : Access → Prop
  | .read t addr _ _ => layout.Contains t (layout.address addr) → layout.Near t
  | .write t addr _ _ => layout.Contains t (layout.address addr) → layout.Near t
  | .writeOne t addr _ => layout.Contains t (layout.address addr) → layout.Near t
  | .writeRead writeAddr _ _ readAddr _ _ =>
      layout.ContainsBoth writeAddr readAddr → layout.Near .holdingRegister

end Layout

/-- Without an open device nothing follows a write. -/
theorem Station.transferBlock_of_closed {st : Station} {t : Table} {addr offset nb : ℤ}
    {block : Block t.Cell}
    {writeOne : ℤ → t.Cell → Except Fault (ℤ × Option Payload) × Option Device}
    {write : ℤ → List t.Cell → Except Fault (ℤ × Option Payload) × Option Device}
    (closed : st.isOpen = false) :
    st.transferBlock t addr block offset nb writeOne write = (.ok nb, st) := by
  simp only [transferBlock, closed, Bool.false_eq_true, if_false]

/-- Writing one cell is writing an array of one. -/
theorem Station.access_writeOne (st : Station) (t : Table) (addr : ℤ) (value : t.Cell) :
    st.access (.writeOne t addr value) = st.access (.write t addr [value] 1) := by
  cases t <;> rfl

/-- A station without an open device whose blocks hold the cells of the memory. -/
structure Layout.Offline (layout : Layout) (cells : Cells) (st : Station) : Prop
    extends layout.Represents cells st where
  closed : st.isOpen = false

namespace Layout.Offline

variable {layout : Layout} {cells : Cells} {st : Station} (offline : layout.Offline cells st)

include offline

theorem readBlock {t : Table} {addr : ℤ} (near : layout.Contains t (layout.address addr) → layout.Near t)
    (nb : ℕ) (read : ℤ → ℤ → Except Fault (ℤ × Option Payload) × Option Device) :
    st.readBlock t addr nb read =
      if layout.Contains t (layout.address addr) then
        (.ok (layout.count t (layout.address addr) nb, some (layout.load cells t addr nb)), st)
      else (.ok (-1, none), st) := by
  simp only [Station.readBlock, offline.pduAddress, offline.contains_iff near]
  split
  · next contains =>
    have covers := offline.covers contains nb
    have element := Block.elementAt_of_covers (offline.holds t) covers
    have copied := Block.copyOut_of_covers (offline.holds t) covers
    simp only [element, offline.closed, Bool.false_eq_true, if_false,
      offline.count_eq contains, copied, load]
    rfl
  · rfl

theorem delivering_readBlock {t : Table} {dest : List t.Cell} {nb : ℕ} (room : nb ≤ dest.length)
    {addr : ℤ} (near : layout.Contains t (layout.address addr) → layout.Near t)
    (read : ℤ → ℤ → Except Fault (ℤ × Option Payload) × Option Device) :
    Station.delivering t (Station.deliver dest (st.readBlock t addr nb read)) =
      (.ok (layout.answerRead cells t addr dest nb), st) := by
  simp only [offline.readBlock near, answerRead]
  split
  · have fits : (layout.load cells t addr nb).length ≤ dest.length := by
      simp only [load, Memory.length_load, count]
      omega
    rw [Station.deliver_some fits]
    rfl
  · rfl

theorem storeBlock {t : Table} {src : List t.Cell} {nb : ℕ} (long : nb ≤ src.length) {addr : ℤ}
    (near : layout.Contains t (layout.address addr) → layout.Near t)
    {transfer : Station → Block t.Cell → ℤ → ℤ → Except Fault ℤ × Station}
    (skipped : ∀ after block offset count, after.isOpen = false →
      transfer after block offset count = (.ok count, after)) :
    ∃ after, Station.returning (st.storeBlock t addr src nb transfer) =
        (.ok (layout.answerWrite t addr nb), after) ∧
      layout.Offline (layout.written cells t addr src nb) after := by
  simp only [Station.storeBlock, offline.pduAddress, offline.contains_iff near, answerWrite, written]
  split
  · next contains =>
    have covers := offline.covers contains nb
    have enough : layout.count t (layout.address addr) nb ≤ src.length := by
      simp only [count]
      omega
    rcases Block.copyIn_of_covers (offline.holds t) covers enough with
      ⟨block, copied, same, holds⟩
    simp only [offline.count_eq contains, copied]
    rw [skipped (st.withBlock t block) block _ _ offline.closed]
    exact ⟨_, rfl, offline.withBlock same holds, offline.closed⟩
  · exact ⟨st, rfl, offline⟩

theorem writeReadRegisters {writeSrc readDest : List UInt16} {writeNb readNb : ℕ}
    (long : writeNb ≤ writeSrc.length) (room : readNb ≤ readDest.length) {writeAddr readAddr : ℤ}
    (near : layout.ContainsBoth writeAddr readAddr → layout.Near .holdingRegister) :
    ∃ after, Station.delivering .holdingRegister
        (st.writeReadRegisters writeAddr writeSrc writeNb readAddr readDest readNb) =
          (.ok (layout.answer cells
            (.writeRead writeAddr writeSrc writeNb readAddr readDest readNb)), after) ∧
      layout.Offline (layout.after cells
        (.writeRead writeAddr writeSrc writeNb readAddr readDest readNb)) after := by
  simp only [Station.writeReadRegisters, offline.pduAddress, answer, after]
  by_cases contains : layout.ContainsBoth writeAddr readAddr
  · have both := contains
    have ends := near contains
    rcases contains with ⟨readContains, writeContains⟩
    have found := And.intro ((offline.contains_iff fun _ => ends).mpr readContains)
      ((offline.contains_iff fun _ => ends).mpr writeContains)
    simp only [if_pos both, if_pos found, answerRead, written, if_pos readContains, if_pos writeContains]
    have writeCovers := offline.covers writeContains writeNb
    have readCovers := offline.covers readContains readNb
    have enough : layout.count .holdingRegister (layout.address writeAddr) writeNb ≤
        writeSrc.length := by
      simp only [count]
      omega
    have fits : layout.count .holdingRegister (layout.address readAddr) readNb ≤
        readDest.length := by
      simp only [count]
      omega
    rcases Block.copyIn_of_covers (offline.holds .holdingRegister) writeCovers enough with
      ⟨block, copied, same, holds⟩
    have start_eq := same.start_eq
    have sliced := Block.slice_of_covers holds (same.covers writeCovers)
    have loaded := Block.copyOut_of_covers holds (same.covers readCovers)
    rw [start_eq] at sliced loaded
    have closed : (st.withBlock .holdingRegister block).isOpen = false := offline.closed
    refine ⟨st.withBlock .holdingRegister block, ?_, offline.withBlock same holds, offline.closed⟩
    simp only [offline.count_eq readContains, offline.count_eq writeContains, copied, sliced,
      Station.exchangeBlock, closed, Bool.false_eq_true, if_false, Int.natCast_nonneg, if_true]
    simp only [Station.withBlock, Function.update_self, loaded, Except.map]
    rw [Station.deliver_some (by rw [Memory.length_load]; omega)]
    simp only [Station.delivering, Except.map, load, store, Function.update_self]
  · have outside : ¬((st.slave.map .holdingRegister).Contains (layout.address readAddr) ∧
        (st.slave.map .holdingRegister).Contains (layout.address writeAddr)) := by
      rintro ⟨first, second⟩
      exact contains ⟨offline.contains first, offline.contains second⟩
    simp only [if_neg contains, if_neg outside]
    exact ⟨st, rfl, offline⟩

theorem read {t : Table} {dest : List t.Cell} {nb : ℕ} (room : nb ≤ dest.length) {addr : ℤ}
    (near : layout.Contains t (layout.address addr) → layout.Near t) :
    st.access (.read t addr dest nb) = (.ok (layout.answerRead cells t addr dest nb), st) := by
  cases t <;> exact offline.delivering_readBlock room near _

theorem write {t : Table} {src : List t.Cell} {nb : ℕ} (long : nb ≤ src.length) {addr : ℤ}
    (near : layout.Contains t (layout.address addr) → layout.Near t) :
    ∃ after, st.access (.write t addr src nb) = (.ok (layout.answerWrite t addr nb), after) ∧
      layout.Offline (layout.written cells t addr src nb) after := by
  cases t with
  | coil =>
      apply offline.storeBlock long near
      intro after block offset count closed
      exact Station.transferBlock_of_closed closed
  | holdingRegister =>
      apply offline.storeBlock long near
      intro after block offset count closed
      exact Station.transferBlock_of_closed closed
  | discreteInput => exact offline.storeBlock long near (fun _ _ _ _ _ => rfl)
  | inputRegister => exact offline.storeBlock long near (fun _ _ _ _ _ => rfl)

/-- A step: an access to the station is one to the memory. -/
theorem access {access : Access} (room : access.HasRoom) (near : layout.EndsNear access) :
    (st.access access).1 = (layout.access cells access).1 ∧
      layout.Offline (layout.access cells access).2 (st.access access).2 := by
  cases access with
  | read t addr dest nb =>
      rw [offline.read room near]
      exact ⟨rfl, offline⟩
  | write t addr src nb =>
      rcases offline.write room near with ⟨after, answered, represented⟩
      rw [answered]
      exact ⟨rfl, represented⟩
  | writeOne t addr value =>
      have room : 1 ≤ [value].length := Nat.le_refl 1
      rcases offline.write room near with ⟨after, answered, represented⟩
      rw [st.access_writeOne, answered]
      exact ⟨rfl, represented⟩
  | writeRead writeAddr writeSrc writeNb readAddr readDest readNb =>
      rcases offline.writeReadRegisters room.1 room.2 near with
        ⟨after, answered, represented⟩
      have run : st.access (.writeRead writeAddr writeSrc writeNb readAddr readDest readNb) =
          (_, after) := answered
      rw [run]
      exact ⟨rfl, represented⟩

/-- In a block that ends above the greatest `int` nothing is found. -/
theorem not_contains {t : Table} (short : layout.nb t < 2 ^ 31) (far : ¬layout.Near t) (address : ℤ) :
    ¬(st.slave.map t).Contains address := by
  simp only [Near] at far
  rw [← offline.start_eq, ← offline.nb_eq] at far
  have nb_eq := offline.nb_eq t
  exact Block.not_contains_of_far (by omega) (by omega) address

/-- A write that the memory would take is refused. -/
theorem write_far {t : Table} (short : layout.nb t < 2 ^ 31) {addr : ℤ} {src : List t.Cell} {nb : ℕ}
    (far : ¬(layout.Contains t (layout.address addr) → layout.Near t)) :
    (st.access (.write t addr src nb)).1 ≠ .ok (layout.answerWrite t addr nb) := by
  rw [Classical.not_imp] at far
  have missed := offline.not_contains short far.2
  have refused : (st.access (.write t addr src nb)).1 = .ok (.returned (-1)) := by
    cases t <;> simp only [Station.access, Station.writeCoils, Station.writeDiscreteInputs,
      Station.writeRegisters, Station.writeInputRegisters, Station.storeBlock, if_neg (missed _)] <;> rfl
  rw [refused]
  simp only [answerWrite, if_pos far.1, ne_eq, Except.ok.injEq, Answer.returned.injEq]
  omega

theorem access_far {access : Access} (short : ∀ t, layout.nb t < 2 ^ 31)
    (far : ¬layout.EndsNear access) :
    (st.access access).1 ≠ (layout.access cells access).1 := by
  cases access with
  | read t addr dest nb =>
      simp only [EndsNear, Classical.not_imp] at far
      have missed := offline.not_contains (short t) far.2
      have refused : (st.access (.read t addr dest nb)).1 = .ok (.delivered t (-1) dest) := by
        cases t <;> simp only [Station.access, Station.readCoils, Station.readDiscreteInputs,
          Station.readRegisters, Station.readInputRegisters, Station.readBlock, if_neg (missed _)] <;> rfl
      rw [refused]
      simp only [Layout.access, answer, answerRead, if_pos far.1, ne_eq, Except.ok.injEq,
        Answer.delivered.injEq]
      omega
  | write t addr src nb => exact offline.write_far (short t) far
  | writeOne t addr value =>
      rw [st.access_writeOne]
      exact offline.write_far (short t) far
  | writeRead writeAddr writeSrc writeNb readAddr readDest readNb =>
      simp only [EndsNear, Classical.not_imp] at far
      have missed := offline.not_contains (short .holdingRegister) far.2
      have outside : ¬((st.slave.map .holdingRegister).Contains (st.slave.pduAddress readAddr) ∧
          (st.slave.map .holdingRegister).Contains (st.slave.pduAddress writeAddr)) :=
        fun found => missed _ found.1
      have refused : (st.access (.writeRead writeAddr writeSrc writeNb readAddr readDest readNb)).1 =
          .ok (.delivered .holdingRegister (-1) readDest) := by
        simp only [Station.access, Station.writeReadRegisters, if_neg outside]
        rfl
      rw [refused]
      simp only [Layout.access, answer, if_pos far.1, answerRead, if_pos far.1.1, ne_eq, Except.ok.injEq,
        Answer.delivered.injEq]
      omega

/-- A run of accesses is one of accesses to the memory exactly when each of them finds its block. -/
theorem alike_iff {accesses : List Access} (short : ∀ t, layout.nb t < 2 ^ 31)
    (room : ∀ access ∈ accesses, access.HasRoom) :
    Process.Alike (fun after cells => layout.Offline cells after) Station.access layout.access st cells
      accesses ↔ ∀ access ∈ accesses, layout.EndsNear access := by
  constructor
  · intro alike
    induction accesses generalizing st cells with
    | nil => simp
    | cons access accesses ih =>
        rcases alike with ⟨answers, related, rest⟩
        rw [List.forall_mem_cons]
        refine ⟨?_, ih related (fun other mem => room other (List.mem_cons_of_mem _ mem)) rest⟩
        by_contra far
        exact offline.access_far short far answers
  · intro near
    apply Process.alike_of_simulation fun access => access.HasRoom ∧ layout.EndsNear access
    · intro after cells access offline permitted
      exact offline.access permitted.1 permitted.2
    · exact offline
    · intro access mem
      exact ⟨room access mem, near access mem⟩

end Layout.Offline

namespace Station

/-- A slave without an open device whose blocks have not been written yet. -/
structure Blank (st : Station) : Prop where
  closed : st.isOpen = false
  laid : ∀ t, (st.slave.map t).LaidOut
  zero : ∀ t, ∀ cell ∈ (st.slave.map t).cells, cell = t.zero

theorem Blank.offline {st : Station} (blank : st.Blank) :
    st.layout.Offline (fun t _ => t.zero) st := by
  refine ⟨represents_layout blank.laid ?_, blank.closed⟩
  intro t i inside
  rw [List.getElem?_eq_getElem inside]
  exact congrArg some (blank.zero t _ (List.getElem_mem inside))

/-- Every run of accesses to an offline slave is one of accesses to a memory that is zero at first, exactly
when the blocks it meets end at an `int`. -/
theorem offline_alike_iff {st : Station} (blank : st.Blank) (short : ∀ t, st.layout.nb t < 2 ^ 31)
    {accesses : List Access} (room : ∀ access ∈ accesses, access.HasRoom) :
    Process.Alike (fun after cells => st.layout.Offline cells after) Station.access
      st.layout.access st (fun t _ => t.zero) accesses ↔
        ∀ access ∈ accesses, st.layout.EndsNear access :=
  blank.offline.alike_iff short room

/-- A slave without a device, with four holding registers. -/
def idle : Station where
  slave := ((BufferedSlave.create 1 none).setBlock .holdingRegister 4 1 (some fun _ => 7)).2
  device := none

theorem idle_blank : idle.Blank := by
  refine ⟨rfl, ?_, ?_⟩
  · intro t
    cases t with
    | holdingRegister => exact Or.inr ⟨[0, 0, 0, 0], rfl, rfl, by decide⟩
    | coil => exact Or.inl ⟨rfl, rfl⟩
    | discreteInput => exact Or.inl ⟨rfl, rfl⟩
    | inputRegister => exact Or.inl ⟨rfl, rfl⟩
  · intro t cell mem
    cases t with
    | holdingRegister =>
        have cells_eq : (idle.slave.map .holdingRegister).cells = List.replicate 4 0 := rfl
        rw [cells_eq] at mem
        exact List.eq_of_mem_replicate mem
    | coil => cases mem
    | discreteInput => cases mem
    | inputRegister => cases mem

/-- A write beyond the end of the block, and a transaction whose ranges overlap. -/
theorem offline_alike_of_idle :
    Process.Alike (fun after cells => idle.layout.Offline cells after) Station.access
      idle.layout.access idle (fun t _ => t.zero)
      [.write .holdingRegister 3 [7, 8, 9] 3, .writeRead 1 [1, 2] 2 2 [0, 0, 0] 3] := by
  refine (offline_alike_iff idle_blank ?_ ?_).mpr ?_
  · intro t
    cases t <;> decide
  · intro access mem
    simp only [List.mem_cons, List.not_mem_nil, or_false] at mem
    rcases mem with rfl | rfl <;> simp [Access.HasRoom]
  · intro access mem
    simp only [List.mem_cons, List.not_mem_nil, or_false] at mem
    rcases mem with rfl | rfl <;> exact fun _ => by decide

/-- A slave without a device, with ten coils that end above the greatest `int`. -/
def distant : Station where
  slave := ((BufferedSlave.create 1 none).setBlock .coil 10 2147483647 (some fun _ => false)).2
  device := none

/-- The first coil of the block is not found. -/
theorem distant_coil_missed :
    (distant.writeCoil 2147483647 true).1 = .ok (-1) ∧
      distant.layout.Contains .coil (distant.layout.address 2147483647) ∧
        ¬Process.Alike (fun after cells => distant.layout.Offline cells after) Station.access
          distant.layout.access distant (fun t _ => t.zero) [.writeOne .coil 2147483647 true] := by
  have missed : (distant.writeCoil 2147483647 true).1 = .ok (-1) := by decide
  refine ⟨missed, by decide, ?_⟩
  rintro ⟨answers, _⟩
  have refused : (distant.access (.writeOne .coil 2147483647 true)).1 = .ok (.returned (-1)) :=
    congrArg (Except.map Answer.returned) missed
  have acted : (distant.layout.access (fun t _ => t.zero) (.writeOne .coil 2147483647 true)).1 =
      .ok (.returned 1) := rfl
  rw [refused, acted] at answers
  cases answers

end Station

end Modbuspp
