import Mathlib.Logic.Function.Basic
import Modbuspp.Device.Basic
import Modbuspp.Library.Memory

/-!
# Equipment with cells of its own

The equipment behind a device has tables too. A transfer that succeeds moves exactly the cells it names:
it stores those it carries, and the answer carries those that are read afterwards. One that fails may
have been executed in part, so it leaves anything in the cells it would have stored.
-/

namespace Modbuspp

/-- Consecutive cells of a table with new values. -/
structure Segment where
  table : Table
  address : ℤ
  values : List table.Cell

/-- The cell lies in the segment. -/
def Segment.Contains (segment : Segment) (t : Table) (place : ℤ) : Prop :=
  t = segment.table ∧ segment.address ≤ place ∧ place < segment.address + segment.values.length

instance (segment : Segment) (t : Table) (place : ℤ) : Decidable (segment.Contains t place) :=
  inferInstanceAs (Decidable (_ ∧ _))

/-- The cells after a segment was stored. -/
def Cells.store (cells : Cells) (segment : Segment) : Cells :=
  Function.update cells segment.table
    (Memory.store (cells segment.table) segment.address segment.values)

theorem Cells.store_of_not_contains {cells : Cells} {segment : Segment} {t : Table} {place : ℤ}
    (outside : ¬segment.Contains t place) : cells.store segment t place = cells t place := by
  simp only [store]
  by_cases here : t = segment.table
  · subst here
    rw [Function.update_self]
    apply Memory.store_outside
    simp only [Segment.Contains, true_and] at outside
    omega
  · rw [Function.update_of_ne here]

/-- What is stored does not depend on what was there. -/
theorem Cells.store_of_contains {segment : Segment} {t : Table} {place : ℤ}
    (inside : segment.Contains t place) (cells other : Cells) :
    cells.store segment t place = other.store segment t place := by
  rcases inside with ⟨rfl, lower, upper⟩
  have found := List.getElem?_eq_getElem (l := segment.values)
    (by omega : (place - segment.address).toNat < segment.values.length)
  simp only [store, Function.update_self]
  rw [Memory.store_inside lower found, Memory.store_inside lower found]

theorem Cells.store_nil (cells : Cells) (t : Table) (address : ℤ) :
    cells.store ⟨t, address, []⟩ = cells := by
  funext other place
  apply store_of_not_contains
  simp only [Segment.Contains, List.length_nil]
  omega

namespace Transfer

/-- The cells that a transfer stores. -/
def stored : Transfer → Option Segment
  | read _ _ _ => none
  | writeOne t addr value => some ⟨t, addr, [value]⟩
  | write t addr src => some ⟨t, addr, src⟩
  | writeAndRead writeAddr src _ _ => some ⟨.holdingRegister, writeAddr, src⟩
  | reportSlaveId _ => none

/-- The address of the first cell that is read. -/
def source : Transfer → ℤ
  | read _ addr _ => addr
  | writeAndRead _ _ readAddr _ => readAddr
  | _ => 0

/-- The transfer writes this cell. -/
def Stores (transfer : Transfer) (t : Table) (place : ℤ) : Prop :=
  ∃ segment, transfer.stored = some segment ∧ segment.Contains t place

/-- The cells after a transfer that succeeds. -/
def apply (transfer : Transfer) (cells : Cells) : Cells :=
  match transfer.stored with
  | none => cells
  | some segment => cells.store segment

/-- The cells after a transfer that failed, of which those that it would have stored are `residue`. -/
def spoil (transfer : Transfer) (residue cells : Cells) : Cells :=
  match transfer.stored with
  | none => cells
  | some segment => fun t place =>
      if segment.Contains t place then residue t place else cells t place

theorem spoil_of_not_stores {transfer : Transfer} {t : Table} {place : ℤ} (residue cells : Cells)
    (outside : ¬transfer.Stores t place) :
    transfer.spoil residue cells t place = cells t place := by
  cases stored : transfer.stored with
  | none => simp only [spoil, stored]
  | some segment =>
      have elsewhere : ¬segment.Contains t place := by
        intro contains
        exact outside ⟨segment, stored, contains⟩
      simp only [spoil, stored, if_neg elsewhere]

end Transfer

/-- A slave on the other end of a link. Which transfers succeed, and what is left of those that fail, may
depend on all that was sent before. -/
structure Equipment where
  id : ℤ
  initial : Cells
  succeeds : List Sent → Transfer → Bool
  residue : List Sent → Transfer → Cells
  report : List UInt8

namespace Equipment

variable (equipment : Equipment)

/-- The cells after one more message on the link. -/
def after (history : List Sent) (cells : Cells) (sent : Sent) : Cells :=
  if sent.slave = equipment.id then
    if equipment.succeeds history sent.transfer then sent.transfer.apply cells
    else sent.transfer.spoil (equipment.residue history sent.transfer) cells
  else cells

/-- The cells after all the messages of a history. -/
def cells (history : List Sent) : Cells :=
  (history.foldl (fun (before, cells) sent => (before ++ [sent], equipment.after before cells sent))
    ([], equipment.initial)).2

/-- The answer of the equipment to a transfer that follows others. -/
def answer (history : List Sent) (transfer : Transfer) : Option Payload :=
  if equipment.succeeds history transfer then
    some
      { cells := fun t i => transfer.apply (equipment.cells history) t (transfer.source + i)
        report := equipment.report }
  else none

theorem cells_append (history : List Sent) (sent : Sent) :
    equipment.cells (history ++ [sent]) =
      equipment.after history (equipment.cells history) sent := by
  have prefixes : ∀ (history before : List Sent) (cells : Cells),
      (history.foldl (fun (before, cells) sent =>
        (before ++ [sent], equipment.after before cells sent)) (before, cells)).1 =
          before ++ history := by
    intro history
    induction history with
    | nil => simp
    | cons sent history ih =>
        intro before cells
        rw [List.foldl_cons, ih, List.append_assoc, List.singleton_append]
  simp only [cells, List.foldl_append, List.foldl_cons, List.foldl_nil, prefixes, List.nil_append]

end Equipment

end Modbuspp
