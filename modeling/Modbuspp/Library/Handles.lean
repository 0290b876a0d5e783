import Mathlib.Data.Nat.Notation
import Mathlib.Logic.Equiv.Basic
import Mathlib.Logic.Function.Basic
import Mathlib.Tactic.Common

/-!
# Owning handles

A handle owns an object on a heap, or nothing. An object can be put into a handle, moved to another one,
exchanged with that of another one and changed in place; what a handle owns is freed when it gets
something else. No two handles ever own one object, so a change through a handle is not seen through any
other.
-/

namespace Handles

universe u v

/-- The addresses that the handles own, the heap, and the first address that was never used. -/
structure Store (ι : Type u) (α : Type v) where
  owns : ι → Option ℕ
  heap : ℕ → Option α
  next : ℕ

variable {ι : Type u} {α : Type v}

/-- A store without handles. -/
def Store.empty : Store ι α := { owns := fun _ => none, heap := fun _ => none, next := 0 }

namespace Store

variable (store : Store ι α)

/-- The object that a handle owns. -/
def get (x : ι) : Option α := (store.owns x).bind store.heap

/-- A change of the object that a handle owns. -/
def modify (x : ι) (f : α → α) : Store ι α :=
  { store with
    heap := fun address =>
      if store.owns x = some address then (store.heap address).map f else store.heap address }

/-- What a handle refers to exists, no two refer to one object, and `next` is fresh. -/
structure Sound : Prop where
  sole : ∀ x y address, store.owns x = some address → store.owns y = some address → x = y
  live : ∀ x address, store.owns x = some address → ∃ value, store.heap address = some value
  fresh : ∀ x address, store.owns x = some address → address < store.next

variable {store} {x y z : ι} {value : α} {f : α → α}

theorem sound_empty : (empty : Store ι α).Sound where
  sole := by
    intro x y address owned
    cases owned
  live := by
    intro x address owned
    cases owned
  fresh := by
    intro x address owned
    cases owned

theorem Sound.modify (sound : store.Sound) (x : ι) (f : α → α) : (store.modify x f).Sound where
  sole := sound.sole
  live := by
    intro y address owned
    rcases sound.live y address owned with ⟨value, found⟩
    simp only [Store.modify, found, Option.map_some]
    split
    · exact ⟨_, rfl⟩
    · exact ⟨_, rfl⟩
  fresh := sound.fresh

theorem get_modify_of_ne (sound : store.Sound) (other : y ≠ x) :
    (store.modify x f).get y = store.get y := by
  cases owned : store.owns y with
  | none => simp only [get, modify, owned, Option.bind_none]
  | some address =>
      have apart : ¬store.owns x = some address := by
        intro shared
        exact other (sound.sole y x address owned shared)
      simp only [get, modify, owned, Option.bind_some, if_neg apart]

variable [DecidableEq ι]

/-- The end of what a handle owns. -/
def release (store : Store ι α) (x : ι) : Store ι α :=
  { store with
    owns := Function.update store.owns x none
    heap := fun address => if store.owns x = some address then none else store.heap address }

/-- A new object in a handle. -/
def emplace (store : Store ι α) (x : ι) (value : α) : Store ι α :=
  let store := store.release x
  { owns := Function.update store.owns x (some store.next)
    heap := Function.update store.heap store.next (some value)
    next := store.next + 1 }

/-- Two handles exchange what they refer to. -/
def swap (store : Store ι α) (x y : ι) : Store ι α :=
  { store with owns := store.owns ∘ Equiv.swap x y }

/-- A handle takes what another one owns. -/
def move (store : Store ι α) (x y : ι) : Store ι α :=
  if x = y then store else (store.release x).swap x y

theorem owns_release_eq_some {address : ℕ} :
    (store.release x).owns y = some address ↔ y ≠ x ∧ store.owns y = some address := by
  by_cases same : y = x
  · subst same
    simp [release]
  · simp [release, same]

theorem Sound.heap_release (sound : store.Sound) (other : y ≠ x) {address : ℕ}
    (owned : store.owns y = some address) : (store.release x).heap address = store.heap address := by
  have apart : ¬store.owns x = some address := by
    intro shared
    exact other (sound.sole y x address owned shared)
  simp only [release, if_neg apart]

theorem Sound.release (sound : store.Sound) (x : ι) : (store.release x).Sound where
  sole := by
    intro y z address first second
    rw [owns_release_eq_some] at first second
    exact sound.sole y z address first.2 second.2
  live := by
    intro y address owned
    rw [owns_release_eq_some] at owned
    rw [sound.heap_release owned.1 owned.2]
    exact sound.live y address owned.2
  fresh := by
    intro y address owned
    exact sound.fresh y address (owns_release_eq_some.mp owned).2

theorem owns_emplace_eq_some {address : ℕ} :
    (store.emplace x value).owns y = some address ↔
      (y = x ∧ address = store.next) ∨ (y ≠ x ∧ store.owns y = some address) := by
  by_cases same : y = x
  · subst same
    simp [emplace, release, eq_comm]
  · simp [emplace, release, same]

theorem Sound.emplace (sound : store.Sound) (x : ι) (value : α) : (store.emplace x value).Sound where
  sole := by
    intro y z address first second
    rw [owns_emplace_eq_some] at first second
    rcases first with ⟨rfl, rfl⟩ | ⟨_, first⟩ <;> rcases second with ⟨rfl, new⟩ | ⟨_, second⟩
    · rfl
    · exact absurd (sound.fresh z _ second) (Nat.lt_irrefl _)
    · exact absurd (new ▸ sound.fresh y address first) (Nat.lt_irrefl _)
    · exact sound.sole y z address first second
  live := by
    intro y address owned
    rw [owns_emplace_eq_some] at owned
    rcases owned with ⟨rfl, rfl⟩ | ⟨other, owned⟩
    · exact ⟨value, Function.update_self ..⟩
    · have before := sound.fresh y address owned
      have kept : (store.emplace x value).heap address = store.heap address := by
        rw [← sound.heap_release other owned]
        exact Function.update_of_ne (Nat.ne_of_lt before) _ _
      rw [kept]
      exact sound.live y address owned
  fresh := by
    intro y address owned
    rw [owns_emplace_eq_some] at owned
    rcases owned with ⟨rfl, rfl⟩ | ⟨_, owned⟩
    · exact Nat.lt_succ_self _
    · exact Nat.lt_succ_of_lt (sound.fresh y address owned)

theorem Sound.swap (sound : store.Sound) (x y : ι) : (store.swap x y).Sound where
  sole := by
    intro first second address owned shared
    exact (Equiv.swap x y).injective (sound.sole _ _ address owned shared)
  live := fun first address owned => sound.live _ address owned
  fresh := fun first address owned => sound.fresh _ address owned

theorem Sound.move (sound : store.Sound) (x y : ι) : (store.move x y).Sound := by
  rw [Store.move]
  split
  · exact sound
  · exact (sound.release x).swap x y

theorem get_release_of_ne (sound : store.Sound) (other : y ≠ x) :
    (store.release x).get y = store.get y := by
  have owner : (store.release x).owns y = store.owns y := Function.update_of_ne other _ _
  rw [get, get, owner]
  cases owned : store.owns y with
  | none => rfl
  | some address => exact sound.heap_release other owned

theorem get_emplace_self : (store.emplace x value).get x = some value := by
  simp only [get, emplace, Function.update_self, Option.bind_some]

theorem get_emplace_of_ne (sound : store.Sound) (other : y ≠ x) :
    (store.emplace x value).get y = store.get y := by
  rw [← get_release_of_ne sound other]
  have owner : (store.emplace x value).owns y = (store.release x).owns y :=
    Function.update_of_ne other _ _
  rw [get, get, owner]
  cases owned : (store.release x).owns y with
  | none => rfl
  | some address =>
      have before : address < store.next := (sound.release x).fresh y address owned
      exact Function.update_of_ne (Nat.ne_of_lt before) _ _

theorem get_swap : (store.swap x y).get z = store.get (Equiv.swap x y z) := rfl

theorem get_move_of_ne (sound : store.Sound) (target : z ≠ x) (source : z ≠ y) :
    (store.move x y).get z = store.get z := by
  rw [move]
  split
  · rfl
  · rw [get_swap, Equiv.swap_apply_of_ne_of_ne target source, get_release_of_ne sound target]

end Store

end Handles
