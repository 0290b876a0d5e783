import Modbuspp.BufferedSlave.Basic
import Modbuspp.Library.Process

/-!
# Blocks that cannot be set

Setting a block stores what the allocator returns over the pointer to the storage before it looks
whether that is null, and changes the number of elements only afterwards. When existing storage
cannot be reallocated the call returns -1 and the block still announces its elements, but its storage
is gone. When there was no storage before, nothing is lost.
-/

namespace Modbuspp

namespace Block

variable {α : Type} {block : Block α}

/-- Every element that the block announces exists. -/
structure Backed (block : Block α) : Prop where
  nb_nonneg : 0 ≤ block.nb
  nb_le : block.nb ≤ block.cells.length

/-- The number of elements has to change, and existing storage cannot be reallocated. -/
def ReallocFails (block : Block α) (nmemb : ℤ) (fresh : Option (ℕ → α)) : Prop :=
  block.tab ≠ none ∧ nmemb ≠ 0 ∧ block.nb ≠ nmemb ∧ allocate nmemb fresh = none

theorem set_of_reallocFails {zero : α} {scale : ℕ} {start nmemb : ℤ} {fresh : Option (ℕ → α)}
    (fails : block.ReallocFails nmemb fresh) :
    block.set zero scale start nmemb fresh = (.ok (-1), { block with tab := none }) := by
  rcases fails with ⟨_, some_nmemb, different, refused⟩
  simp only [set, if_neg some_nmemb, ne_eq, different, not_false_iff, if_true, refused]

theorem ne_minus_one {nmemb : ℤ} (nonneg : 0 ≤ nmemb) :
    Except.ok nmemb ≠ (.ok (-1) : Except Fault ℤ) := by
  intro returned
  have negative : nmemb = -1 := Except.ok.inj returned
  omega

/-- With new or moved storage the block is backed, also when the clearing leaves the storage. -/
theorem set_of_allocate {zero : α} {scale : ℕ} {start nmemb : ℤ} {fresh : Option (ℕ → α)}
    {contents : ℕ → α} (backed : block.Backed) (some_nmemb : nmemb ≠ 0) (different : block.nb ≠ nmemb)
    (granted : allocate nmemb fresh = some contents) :
    (block.set zero scale start nmemb fresh).2.Backed ∧
      (block.set zero scale start nmemb fresh).1 ≠ .ok (-1) := by
  have nonneg : 0 ≤ nmemb := by
    by_contra negative
    simp only [allocate, if_neg negative, reduceCtorEq] at granted
  cases storage : block.tab with
  | none =>
      simp only [set, if_neg some_nmemb, ne_eq, different, not_false_iff, if_true, storage, granted]
      refine ⟨⟨nonneg, ?_⟩, ne_minus_one nonneg⟩
      change nmemb ≤ (List.replicate nmemb.toNat zero).length
      rw [List.length_replicate]
      omega
  | some cells =>
      have moved : nmemb ≤ (cells.take nmemb.toNat ++
          (List.range (nmemb.toNat - cells.length)).map contents).length := by
        rw [List.length_append, List.length_take, List.length_map, List.length_range]
        omega
      simp only [set, if_neg some_nmemb, ne_eq, different, not_false_iff, if_true, storage, granted]
      split
      · next more =>
          split
          · refine ⟨⟨backed.nb_nonneg, ?_⟩, by rintro ⟨⟩⟩
            change block.nb ≤ _
            exact Int.le_trans (Int.le_of_lt more) moved
          · next cleared stored =>
              refine ⟨⟨nonneg, ?_⟩, ne_minus_one nonneg⟩
              change nmemb ≤ cleared.length
              rw [Storage.length_of_blit stored]
              exact moved
      · exact ⟨⟨nonneg, moved⟩, ne_minus_one nonneg⟩

/-- Without a failing reallocation a block is backed after it has been set, and it did not change if
the call returned -1. -/
theorem set_of_not_reallocFails {zero : α} {scale : ℕ} {start nmemb : ℤ}
    {fresh : Option (ℕ → α)} (backed : block.Backed) (fine : ¬block.ReallocFails nmemb fresh) :
    (block.set zero scale start nmemb fresh).2.Backed ∧
      ((block.set zero scale start nmemb fresh).1 = .ok (-1) →
        (block.set zero scale start nmemb fresh).2 = block) := by
  have nb_nonneg := backed.nb_nonneg
  have nb_le := backed.nb_le
  by_cases free : nmemb = 0
  · simp only [set, if_pos free]
    refine ⟨⟨by change 0 ≤ nmemb; omega, by change nmemb ≤ _; omega⟩, ?_⟩
    intro returned
    exact absurd returned (ne_minus_one (by omega))
  by_cases same : block.nb = nmemb
  · simp only [set, if_neg free, ne_eq, same, not_true, if_false]
    refine ⟨⟨by change 0 ≤ nmemb; omega, by change nmemb ≤ block.cells.length; omega⟩, ?_⟩
    intro returned
    exact absurd returned (ne_minus_one (by omega))
  cases granted : allocate nmemb fresh with
  | none =>
      -- Nothing is lost, because there was no storage.
      have noStorage : block.tab = none := by
        by_contra storage
        exact fine ⟨storage, free, same, granted⟩
      have unchanged : block.set zero scale start nmemb fresh = (.ok (-1), block) := by
        simp only [set, if_neg free, ne_eq, same, not_false_iff, if_true, granted, ← noStorage]
      rw [unchanged]
      exact ⟨backed, fun _ => rfl⟩
  | some contents =>
      rcases set_of_allocate backed free same granted with ⟨new_backed, returns⟩
      exact ⟨new_backed, fun returned => absurd returned returns⟩

end Block

namespace Allocation

/-- What happens to a slave: a block is set, with the outcome of the allocator, the values of cells
change, or the slave is given another number, addressing or device. -/
inductive Change where
  | setBlock (t : Table) (nmemb startAddr : ℤ) (fresh : Option (ℕ → t.Cell))
  | configure (other : Slave)
  | store (value : (t : Table) → ℕ → t.Cell → t.Cell)

/-- The slave after a change. -/
def next (slv : BufferedSlave) : Change → BufferedSlave
  | .setBlock t nmemb startAddr fresh => (slv.setBlock t nmemb startAddr fresh).2
  | .configure other => { slv with toSlave := other }
  | .store value =>
      { slv with map := fun t => { slv.map t with tab := (slv.map t).tab.map (·.mapIdx (value t)) } }

/-- A call that returns -1 leaves the four tables as they were, and every element that a block
announces exists. -/
def Atomic (slv : BufferedSlave) : Change → Prop
  | .setBlock t nmemb startAddr fresh =>
      ∀ after, slv.setBlock t nmemb startAddr fresh = (.ok (-1), after) →
        after.map = slv.map ∧
          ∀ other address, (after.map other).start ≤ address →
            address < (after.map other).start + (after.map other).nb →
            ∃ value, (after.map other).valueAt address = some value
  | .configure _ => True
  | .store _ => True

/-- No existing storage has to be reallocated in vain. -/
def Granted (slv : BufferedSlave) : Change → Prop
  | .setBlock t nmemb _ fresh => ¬(slv.map t).ReallocFails nmemb fresh
  | .configure _ => True
  | .store _ => True

theorem setTableBlock_eq {slv : BufferedSlave} {t : Table} {scale : ℕ} {addr nmemb : ℤ}
    {fresh : Option (ℕ → t.Cell)} :
    slv.setTableBlock t scale addr nmemb fresh =
      (((slv.map t).set t.zero scale (slv.pduAddress addr) nmemb fresh).1,
        { slv with
          map := Function.update slv.map t
            ((slv.map t).set t.zero scale (slv.pduAddress addr) nmemb fresh).2 }) :=
  rfl

/-- One change, in a slave whose blocks are backed. -/
theorem atomic_iff {slv : BufferedSlave} {change : Change}
    (backed : ∀ t, (slv.map t).Backed) : Atomic slv change ↔ Granted slv change := by
  cases change with
  | configure other => exact Iff.rfl
  | store value => exact Iff.rfl
  | setBlock t nmemb startAddr fresh =>
      simp only [Atomic, Granted, BufferedSlave.setBlock_eq, setTableBlock_eq]
      constructor
      · intro atomic fails
        rw [Block.set_of_reallocFails fails] at atomic
        have lost : (Function.update slv.map t { slv.map t with tab := none } t).tab =
            (slv.map t).tab :=
          congrArg (fun map : Mapping => (map t).tab) (atomic _ rfl).1
        rw [Function.update_self] at lost
        exact fails.1 lost.symm
      · rintro fine after returned
        rcases Block.set_of_not_reallocFails (backed t) fine with ⟨_, unchanged⟩
        rw [Prod.mk.injEq] at returned
        rcases returned with ⟨code, rfl⟩
        have stays : Function.update slv.map t ((slv.map t).set t.zero (BufferedSlave.clearScale t)
            (slv.pduAddress (slv.blockAddress startAddr)) nmemb fresh).2 = slv.map := by
          rw [unchanged code]
          exact Function.update_eq_self t slv.map
        refine ⟨stays, ?_⟩
        simp only [stays]
        intro other address lower upper
        have nb_le := (backed other).nb_le
        exact Block.exists_valueAt_iff.mpr ⟨lower, by omega⟩

theorem next_backed {slv : BufferedSlave} {change : Change} (backed : ∀ t, (slv.map t).Backed)
    (granted : Granted slv change) (other : Table) : ((next slv change).map other).Backed := by
  cases change with
  | configure settings => exact backed other
  | store value =>
      have before := backed other
      refine ⟨before.nb_nonneg, ?_⟩
      have length : ((next slv (.store value)).map other).cells.length =
          (slv.map other).cells.length := by
        simp only [next, Block.cells]
        cases (slv.map other).tab with
        | none => rfl
        | some cells => exact List.length_mapIdx
      rw [length]
      exact before.nb_le
  | setBlock t nmemb startAddr fresh =>
      simp only [next, BufferedSlave.setBlock_eq, setTableBlock_eq]
      by_cases same : other = t
      · subst same
        rw [Function.update_self]
        exact (Block.set_of_not_reallocFails (backed other) granted).1
      · rw [Function.update_of_ne same]
        exact backed other

/-- In every run from backed blocks on, all calls fail atomically exactly when no existing storage
has to be reallocated in vain. -/
theorem atomic_along_iff {slv : BufferedSlave} {changes : List Change}
    (backed : ∀ t, (slv.map t).Backed) :
    Process.Along next Atomic slv changes ↔ Process.Along next Granted slv changes := by
  apply Process.along_iff_of_invariant fun slv => ∀ t, (slv.map t).Backed
  · intro slv change backed granted
    exact next_backed backed granted
  · intro slv change backed
    exact atomic_iff backed
  · exact backed

/-- A block of coils, a request for holding registers that cannot be granted, and a smaller block. -/
theorem atomic_along_iff_of_new :
    Process.Along next Atomic (BufferedSlave.create 1 none)
      [.setBlock .coil 2 1 (some fun _ => true), .setBlock .holdingRegister (-5) 1 none,
        .setBlock .coil 1 1 (some fun _ => true)] := by
  have backed : ∀ t, ((BufferedSlave.create 1 none).map t).Backed := by
    intro t
    exact ⟨Int.le_refl 0, Int.le_refl 0⟩
  refine (atomic_along_iff backed).mpr ⟨?_, ?_, ?_, trivial⟩
  · rintro ⟨storage, _⟩
    exact storage rfl
  · rintro ⟨storage, _⟩
    exact storage rfl
  · rintro ⟨_, _, _, ⟨⟩⟩

/-- A block of one coil cannot be extended to two: the call returns -1, the block still announces the
coil, and reading it accesses no cell. -/
theorem failed_extension_loses_storage :
    let first := next (BufferedSlave.create 1 none) (.setBlock .coil 1 1 (some fun _ => true))
    let second := next first (.setBlock .coil 2 1 none)
    (first.setBlock .coil 2 1 none).1 = .ok (-1) ∧ (first.map .coil).tab = some [false] ∧
      (second.map .coil).nb = 1 ∧ (second.map .coil).tab = none ∧
      (second.map .coil).elementAt 0 = .error .outOfBounds ∧
      ¬Process.Along next Atomic (BufferedSlave.create 1 none)
        [.setBlock .coil 1 1 (some fun _ => true), .setBlock .coil 2 1 none] := by
  intro first second
  refine ⟨rfl, rfl, rfl, rfl, rfl, ?_⟩
  rintro ⟨_, atomic, _⟩
  have lost := congrArg (fun map : Mapping => (map .coil).tab) (atomic second rfl).1
  cases lost

end Allocation

end Modbuspp
