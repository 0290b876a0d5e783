import Modbuspp.BufferedSlave.Basic
import Modbuspp.Library.Process

/-!
# Resizing of blocks

Setting a block allocates, frees, shrinks or extends the storage of its table. Where nonempty storage
of registers is extended, the new elements are cleared from twice the old number of elements on, as
many as there are new ones, so the clearing leaves the storage. Everything else is as it should be.
-/

namespace Modbuspp

namespace Block

variable {α : Type}

/-- The storage has as many elements as the block says; it is null when there are none. -/
def LaidOut (block : Block α) : Prop :=
  (block.tab = none ∧ block.nb = 0) ∨
    ∃ cells, block.tab = some cells ∧ block.nb = cells.length ∧ 0 < cells.length

theorem empty_laidOut : (empty : Block α).LaidOut := Or.inl ⟨rfl, rfl⟩

theorem LaidOut.nb_eq {block : Block α} (laid : block.LaidOut) :
    block.nb = block.cells.length := by
  rcases laid with ⟨noStorage, none⟩ | ⟨cells, storage, count, _⟩
  · simp [cells, noStorage, none]
  · simp [Block.cells, storage, count]

/-- What a block should be once it has been set. -/
structure Resized (zero : α) (old : Block α) (start : ℤ) (nmemb : ℕ) (new : Block α) : Prop where
  nb_eq : new.nb = nmemb
  length_eq : new.cells.length = nmemb
  start_eq : new.start = start
  kept : ∀ i : ℕ, i < old.nb → i < nmemb → new.cells[i]? = old.cells[i]?
  cleared : ∀ i : ℕ, old.nb ≤ i → i < nmemb → new.cells[i]? = some zero

/-- The storage after it has been moved and before it is cleared. -/
def moved (cells : List α) (nmemb : ℕ) (contents : ℕ → α) : List α :=
  cells.take nmemb ++ (List.range (nmemb - cells.length)).map contents

theorem length_moved (cells : List α) (nmemb : ℕ) (contents : ℕ → α) :
    (moved cells nmemb contents).length = nmemb := by
  simp only [moved, List.length_append, List.length_take, List.length_map, List.length_range]
  omega

theorem getElem?_moved {cells : List α} {nmemb i : ℕ} (contents : ℕ → α)
    (old : i < cells.length) (inside : i < nmemb) :
    (moved cells nmemb contents)[i]? = cells[i]? := by
  have taken : i < (cells.take nmemb).length := by
    rw [List.length_take]
    omega
  rw [moved, List.getElem?_append_left taken, List.getElem?_take_of_lt inside]

variable {zero : α} {block : Block α} {start : ℤ} {nmemb : ℕ}

theorem set_none (contents : ℕ → α) (scale : ℕ) (free : nmemb = 0) :
    ∃ new, block.set zero scale start nmemb (some contents) = (.ok (nmemb : ℤ), new) ∧
      Resized zero block start nmemb new ∧ new.LaidOut := by
  subst free
  refine ⟨{ start, nb := 0, tab := none }, by simp [set], ⟨rfl, rfl, rfl, ?_, ?_⟩, Or.inl ⟨rfl, rfl⟩⟩
  · intro i _ inside
    omega
  · intro i _ inside
    omega

theorem set_fresh (contents : ℕ → α) (scale : ℕ) (some_nmemb : 0 < nmemb)
    (noStorage : block.tab = none) (none_before : block.nb = 0) :
    ∃ new, block.set zero scale start nmemb (some contents) = (.ok (nmemb : ℤ), new) ∧
      Resized zero block start nmemb new ∧ new.LaidOut := by
  refine ⟨{ start, nb := nmemb, tab := some (List.replicate nmemb zero) }, ?_, ⟨rfl, ?_, rfl, ?_, ?_⟩,
    ?_⟩
  · rw [set, if_neg (by omega), if_pos (by omega), noStorage]
    simp only [allocate, if_pos (Int.natCast_nonneg nmemb), Int.toNat_natCast]
  · exact List.length_replicate
  · intro i old _
    omega
  · intro i _ inside
    exact List.getElem?_replicate_of_lt inside
  · exact Or.inr ⟨_, rfl, by rw [List.length_replicate], by rw [List.length_replicate]; omega⟩

theorem set_same (contents : ℕ → α) (scale : ℕ) (laid : block.LaidOut) (some_nmemb : 0 < nmemb)
    (same : block.nb = nmemb) :
    ∃ new, block.set zero scale start nmemb (some contents) = (.ok (nmemb : ℤ), new) ∧
      Resized zero block start nmemb new ∧ new.LaidOut := by
  have count := laid.nb_eq
  refine ⟨{ start, nb := nmemb, tab := block.tab }, ?_, ⟨rfl, ?_, rfl, ?_, ?_⟩, ?_⟩
  · rw [set, if_neg (by omega), if_neg (by omega)]
  · change block.cells.length = nmemb
    omega
  · intro i _ _
    rfl
  · intro i new inside
    omega
  · rcases laid with ⟨_, none_before⟩ | ⟨cells, storage, length, nonempty⟩
    · omega
    · exact Or.inr ⟨cells, storage, by change (nmemb : ℤ) = _; omega, nonempty⟩

theorem set_shrunk (contents : ℕ → α) (scale : ℕ) (laid : block.LaidOut) (some_nmemb : 0 < nmemb)
    (fewer : nmemb < block.nb) :
    ∃ new, block.set zero scale start nmemb (some contents) = (.ok (nmemb : ℤ), new) ∧
      Resized zero block start nmemb new ∧ new.LaidOut := by
  rcases laid with ⟨_, none_before⟩ | ⟨cells, storage, count, _⟩
  · omega
  · refine ⟨{ start, nb := nmemb, tab := some (moved cells nmemb contents) }, ?_,
      ⟨rfl, length_moved cells nmemb contents, rfl, ?_, ?_⟩, ?_⟩
    · rw [set, if_neg (by omega), if_pos (by omega), storage]
      simp only [allocate, if_pos (Int.natCast_nonneg nmemb), Int.toNat_natCast]
      rw [if_neg (by omega)]
      rfl
    · intro i old inside
      simp only [Block.cells, storage, Option.getD_some]
      exact getElem?_moved contents (by omega) inside
    · intro i new inside
      omega
    · exact Or.inr ⟨_, rfl, by rw [length_moved], by rw [length_moved]; exact some_nmemb⟩

/-- What extending nonempty storage does before the new elements are cleared. -/
theorem set_extended (contents : ℕ → α) (scale : ℕ) {cells : List α}
    (storage : block.tab = some cells) (more : block.nb < nmemb) (some_nmemb : 0 < nmemb) :
    block.set zero scale start nmemb (some contents) =
      match Storage.blit (moved cells nmemb contents) (block.nb * scale)
          (List.replicate (nmemb - block.nb).toNat zero) with
      | none => (.error .outOfBounds, { block with tab := some (moved cells nmemb contents) })
      | some cleared => (.ok (nmemb : ℤ), { start, nb := nmemb, tab := some cleared }) := by
  rw [set, if_neg (by omega), if_pos (by omega), storage]
  simp only [allocate, if_pos (Int.natCast_nonneg nmemb), Int.toNat_natCast]
  rw [if_pos (by omega)]
  rfl

theorem set_grown (contents : ℕ → α) (laid : block.LaidOut) (nonempty : 0 < block.nb)
    (more : block.nb < nmemb) :
    ∃ new, block.set zero 1 start nmemb (some contents) = (.ok (nmemb : ℤ), new) ∧
      Resized zero block start nmemb new ∧ new.LaidOut := by
  rcases laid with ⟨_, none_before⟩ | ⟨cells, storage, count, _⟩
  · omega
  · have room : block.nb * (1 : ℕ) + (List.replicate (nmemb - block.nb).toNat zero).length ≤
        (moved cells nmemb contents).length := by
      rw [List.length_replicate, length_moved]
      omega
    have stored := Storage.blit_eq_some _ _ _ (by omega) room
    have place : (block.nb * (1 : ℕ)).toNat = cells.length := by omega
    rw [place] at stored
    let cleared := Storage.overwrite (moved cells nmemb contents) cells.length
      (List.replicate (nmemb - block.nb).toNat zero)
    have inside : cells.length + (List.replicate (nmemb - block.nb).toNat zero).length ≤
        (moved cells nmemb contents).length := by omega
    have length : cleared.length = nmemb :=
      (Storage.length_overwrite inside).trans (length_moved cells nmemb contents)
    refine ⟨{ start, nb := nmemb, tab := some cleared }, ?_, ⟨rfl, length, rfl, ?_, ?_⟩, ?_⟩
    · rw [set_extended contents 1 storage more (by omega), stored]
    · intro i old _
      simp only [Block.cells, storage, Option.getD_some]
      rw [Storage.getElem?_overwrite inside, if_neg (by omega)]
      exact getElem?_moved contents (by omega) (by omega)
    · intro i new _
      simp only [Block.cells, Option.getD_some]
      rw [Storage.getElem?_overwrite inside, List.length_replicate, if_pos (by omega)]
      exact List.getElem?_replicate_of_lt (by omega)
    · exact Or.inr ⟨cleared, rfl, by change (nmemb : ℤ) = _; omega, by omega⟩

/-- Clearing from twice the old number of elements on leaves the extended storage. -/
theorem set_overrun (contents : ℕ → α) (laid : block.LaidOut) (nonempty : 0 < block.nb)
    (more : block.nb < nmemb) :
    (block.set zero 2 start nmemb (some contents)).1 = .error .outOfBounds := by
  rcases laid with ⟨_, none_before⟩ | ⟨cells, storage, count, _⟩
  · omega
  · have outside : Storage.blit (moved cells nmemb contents) (block.nb * (2 : ℕ))
        (List.replicate (nmemb - block.nb).toNat zero) = none := by
      apply Storage.blit_eq_none
      · apply List.ne_nil_of_length_pos
        rw [List.length_replicate]
        omega
      · right
        rw [List.length_replicate, length_moved]
        omega
    rw [set_extended contents 2 storage more (by omega), outside]

/-- Every way of setting a block is right, but for the extension of nonempty storage of elements of
two bytes. -/
theorem set_resized (contents : ℕ → α) {scale : ℕ} (laid : block.LaidOut)
    (right_place : scale = 1 ∨ block.nb = 0 ∨ nmemb ≤ block.nb) :
    ∃ new, block.set zero scale start nmemb (some contents) = (.ok (nmemb : ℤ), new) ∧
      Resized zero block start nmemb new ∧ new.LaidOut := by
  have count := laid.nb_eq
  rcases Nat.eq_zero_or_pos nmemb with free | some_nmemb
  · exact set_none contents scale free
  · by_cases none_before : block.nb = 0
    · have noStorage : block.tab = none := by
        rcases laid with ⟨noStorage, _⟩ | ⟨cells, _, length, nonempty⟩
        · exact noStorage
        · omega
      exact set_fresh contents scale some_nmemb noStorage none_before
    · rcases Int.lt_trichotomy block.nb nmemb with more | same | fewer
      · have single : scale = 1 := by
          rcases right_place with single | empty | notMore <;> omega
        subst single
        exact set_grown contents laid (by omega) more
      · exact set_same contents scale laid some_nmemb same
      · exact set_shrunk contents scale laid some_nmemb fewer

end Block

namespace BufferedSlave

/-- A call of `setBlock` with a quantity that is not negative and an allocation that succeeds; the
contents are those of memory that `realloc` adds. -/
structure BlockCall where
  table : Table
  nmemb : ℕ
  startAddr : ℤ
  contents : ℕ → table.Cell

/-- The slave after a call of `setBlock`. -/
def BlockCall.apply (slv : BufferedSlave) (call : BlockCall) : BufferedSlave :=
  (slv.setBlock call.table call.nmemb call.startAddr (some call.contents)).2

/-- The law of one call of `setBlock`. -/
def BlockCall.Lawful (slv : BufferedSlave) (call : BlockCall) : Prop :=
  (slv.setBlock call.table call.nmemb call.startAddr (some call.contents)).1 =
      .ok (call.nmemb : ℤ) ∧
    Block.Resized call.table.zero (slv.map call.table)
      (slv.pduAddress (slv.blockAddress call.startAddr)) call.nmemb
      ((call.apply slv).map call.table) ∧
    ∀ other, other ≠ call.table → (call.apply slv).map other = slv.map other

/-- The call extends a block of registers that has elements already. -/
def BlockCall.ExtendsRegisters (slv : BufferedSlave) (call : BlockCall) : Prop :=
  (call.table = .holdingRegister ∨ call.table = .inputRegister) ∧
    0 < (slv.map call.table).nb ∧ (slv.map call.table).nb < call.nmemb

/-- The blocks of all tables are laid out. -/
def LaidOut (slv : BufferedSlave) : Prop := ∀ t, (slv.map t).LaidOut

theorem create_laidOut (slaveAddr : ℤ) (dev : Option ℕ) : (create slaveAddr dev).LaidOut :=
  fun _ => Block.empty_laidOut

theorem apply_map (slv : BufferedSlave) (call : BlockCall) :
    (call.apply slv).map = Function.update slv.map call.table
      ((slv.map call.table).set call.table.zero (clearScale call.table)
        (slv.pduAddress (slv.blockAddress call.startAddr)) call.nmemb (some call.contents)).2 := by
  rw [BlockCall.apply, setBlock_eq]
  rfl

theorem clearScale_eq_one_iff {t : Table} :
    clearScale t = 1 ↔ ¬(t = .holdingRegister ∨ t = .inputRegister) := by
  cases t <;> decide

theorem BlockCall.lawful_of_not_extends {slv : BufferedSlave} {call : BlockCall}
    (laid : slv.LaidOut) (harmless : ¬call.ExtendsRegisters slv) :
    call.Lawful slv ∧ (call.apply slv).LaidOut := by
  have right_place : clearScale call.table = 1 ∨ (slv.map call.table).nb = 0 ∨
      call.nmemb ≤ (slv.map call.table).nb := by
    have count := (laid call.table).nb_eq
    by_cases bits : clearScale call.table = 1
    · exact Or.inl bits
    · have registers : call.table = .holdingRegister ∨ call.table = .inputRegister := by
        by_contra neither
        exact bits (clearScale_eq_one_iff.mpr neither)
      right
      by_contra both
      exact harmless ⟨registers, by omega, by omega⟩
  rcases Block.set_resized call.contents (laid call.table) right_place with
    ⟨new, done, resized, newLaid⟩
  have map_eq := apply_map slv call
  rw [done] at map_eq
  have updated : (call.apply slv).map call.table = new := by
    rw [map_eq, Function.update_self]
  have others : ∀ other, other ≠ call.table → (call.apply slv).map other = slv.map other := by
    intro other different
    rw [map_eq, Function.update_of_ne different]
  refine ⟨⟨?_, ?_, others⟩, ?_⟩
  · rw [setBlock_eq]
    simp only [setTableBlock, done]
  · rw [updated]
    exact resized
  · intro t
    by_cases same : t = call.table
    · subst same
      rw [updated]
      exact newLaid
    · rw [others t same]
      exact laid t

theorem BlockCall.overrun_of_extends {slv : BufferedSlave} {call : BlockCall}
    (laid : slv.LaidOut) (extending : call.ExtendsRegisters slv) :
    (slv.setBlock call.table call.nmemb call.startAddr (some call.contents)).1 =
      .error .outOfBounds := by
  rcases extending with ⟨registers, nonempty, more⟩
  have twice : clearScale call.table = 2 := by
    rcases registers with holding | input
    · rw [holding]
      rfl
    · rw [input]
      rfl
  rw [setBlock_eq]
  simp only [setTableBlock, twice]
  exact Block.set_overrun call.contents (laid call.table) nonempty more

/-- The resizing law holds along a sequence of calls exactly when none of them extends a block of
registers that has elements already. -/
theorem resizing_iff_not_extends {slv : BufferedSlave} (laid : slv.LaidOut)
    (calls : List BlockCall) :
    Process.Along (fun slv call => call.apply slv) (fun slv call => call.Lawful slv) slv calls ↔
      Process.Along (fun slv call => call.apply slv) (fun slv call => ¬call.ExtendsRegisters slv)
        slv calls := by
  apply Process.along_iff_of_invariant LaidOut
  · intro slv call laid harmless
    exact (BlockCall.lawful_of_not_extends laid harmless).2
  · intro slv call laid
    constructor
    · rintro ⟨returned, _⟩ extending
      rw [BlockCall.overrun_of_extends laid extending] at returned
      cases returned
    · intro harmless
      exact (BlockCall.lawful_of_not_extends laid harmless).1
  · exact laid

theorem resizing_iff_not_extends_of_new :
    Process.Along (fun slv call => BlockCall.apply slv call) (fun slv call => call.Lawful slv)
        (create 1 none) [⟨.coil, 3, 5, fun _ => true⟩, ⟨.coil, 8, -1, fun _ => true⟩] ↔
      Process.Along (fun slv call => BlockCall.apply slv call)
        (fun slv call => ¬call.ExtendsRegisters slv)
        (create 1 none) [⟨.coil, 3, 5, fun _ => true⟩, ⟨.coil, 8, -1, fun _ => true⟩] :=
  resizing_iff_not_extends (create_laidOut 1 none) _

/-- A block of one register is set to two: the clearing leaves the storage. -/
theorem extended_registers_overrun :
    ¬Process.Along (fun slv call => BlockCall.apply slv call) (fun slv call => call.Lawful slv)
      (create 1 none)
      [⟨.holdingRegister, 1, 1, fun _ => 7⟩, ⟨.holdingRegister, 2, 1, fun _ => 7⟩] := by
  rintro ⟨_, ⟨returned, _⟩, _⟩
  cases returned

end BufferedSlave

end Modbuspp
