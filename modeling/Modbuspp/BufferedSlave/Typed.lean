import Mathlib.Data.List.Forall2
import Modbuspp.BufferedSlave.Offline
import Modbuspp.Data.Codec

/-!
# Values of several registers

The functions that take arrays of `Data` flatten them to registers before they write, and fill them from
registers after they have read. Without an open device what has been written is read again, as a whole or
one element at a time.
-/

namespace Modbuspp

variable {k : ℕ} (host : Host)

/-- The loop of the writes: every element is updated, and its registers are appended to a buffer. -/
def flatten (src : List (Data k)) (nb : ℕ) : Except Fault (List (Data k) × List UInt16) := do
  let elements ← checked (Storage.slice src 0 nb)
  let elements := elements.map fun data => data.updateRegisters host
  pure (Storage.overwrite src 0 elements, elements.flatMap fun data => data.registers.toList)

namespace Station

/-- The common form of the writes. -/
def writeData (st : Station) (write : List UInt16 → ℤ → Except Fault ℤ × Station)
    (src : List (Data k)) (nb : ℕ) : Except Fault (ℤ × List (Data k)) × Station :=
  match flatten host src nb with
  | .error fault => (.error fault, st)
  | .ok (src, buf) =>
      let (run, st) := write buf buf.length
      (run.map fun rc => (rc, src), st)

variable (st : Station) (addr : ℤ)

/-- `writeRegisters` with an array of `Data`. -/
def writeRegistersData (src : List (Data k)) (nb : ℕ) :
    Except Fault (ℤ × List (Data k)) × Station :=
  st.writeData host (st.writeRegisters addr) src nb

/-- `writeInputRegisters` with an array of `Data`. -/
def writeInputRegistersData (src : List (Data k)) (nb : ℕ) :
    Except Fault (ℤ × List (Data k)) × Station :=
  st.writeData host (st.writeInputRegisters addr) src nb

end Station

/-- The registers of elements that are written. -/
def encoded (src : List (Data k)) : List UInt16 :=
  src.flatMap fun data => (data.updateRegisters host).registers.toList

@[simp]
theorem encoded_nil : encoded host ([] : List (Data k)) = [] := rfl

@[simp]
theorem encoded_cons (data : Data k) (src : List (Data k)) :
    encoded host (data :: src) =
      (data.updateRegisters host).registers.toList ++ encoded host src := rfl

/-- The value that is read from the registers of a datum. -/
def Data.restored (data : Data k) : Vector UInt8 (2 * k) :=
  ((data.updateRegisters host).updateValue host).value

namespace Station

variable {st : Station} {read : ℤ → List UInt16 → ℤ → Except Fault (ℤ × List UInt16) × Station}
  {addr : ℤ} {src : List (Data k)}

end Station

theorem flatten_eq {src : List (Data k)} {nb : ℕ} (room : nb ≤ src.length) :
    ∃ updated, flatten host src nb = .ok (updated, encoded host (src.take nb)) ∧
      updated.map Data.value = src.map Data.value := by
  have elements := Storage.slice_eq_some src 0 nb (by omega) (by omega)
  refine ⟨Storage.overwrite src 0 ((src.take nb).map fun data => data.updateRegisters host), ?_, ?_⟩
  · simp only [flatten, elements, checked_some, ok_bind, Int.toNat_zero, List.drop_zero,
      List.flatMap_map]
    rfl
  · have same : (Data.value ∘ fun data : Data k => data.updateRegisters host) = Data.value := rfl
    simp only [Storage.overwrite, List.take_zero, List.nil_append, Nat.zero_add, List.length_map,
      List.map_append, List.map_map, same, List.length_take, Nat.min_eq_left room]
    rw [← List.map_append, List.take_append_drop]

namespace Station

end Station

namespace Station

/-- The registers from an address on lie inside the block of the table. -/
def Fits (st : Station) (t : Table) (addr : ℤ) (count : ℕ) : Prop :=
  (st.slave.map t).start ≤ st.slave.pduAddress addr ∧
    st.slave.pduAddress addr + count ≤ (st.slave.map t).start + (st.slave.map t).nb

/-- The end of the block of the table is an `int`. -/
def EndsNear (st : Station) (t : Table) : Prop :=
  (st.slave.map t).start + (st.slave.map t).nb < 2 ^ 31

instance (st : Station) (t : Table) : Decidable (st.EndsNear t) := inferInstanceAs (Decidable (_ < _))

/-- Writing the first elements of an array and reading them again, all together or one at a time. -/
def RoundTrips (st : Station) (t : Table) (addr : ℤ) (src : List (Data k)) (nb : ℕ)
    (write read : Station → ℤ → List (Data k) → ℕ → Except Fault (ℤ × List (Data k)) × Station)
    (readOne : Station → ℤ → Data k → Except Fault (ℤ × Data k) × Station) : Prop :=
  ∃ updated after, write st addr src nb = (.ok ((nb * k : ℕ), updated), after) ∧
    updated.map Data.value = src.map Data.value ∧
    (∀ dest : List (Data k), nb ≤ dest.length →
      List.Forall₂ (fun d s => d.endianness = s.endianness) (dest.take nb) (src.take nb) →
        ∃ loaded, read after addr dest nb =
            (.ok ((nb * k : ℕ), Storage.overwrite dest 0 loaded), after) ∧
          List.Forall₂ (fun d s => d.value = s.value) loaded (src.take nb)) ∧
    (∀ (i : ℕ) (data dest : Data k), i < nb → src[i]? = some data →
      dest.endianness = data.endianness →
        ∃ loaded, readOne after (addr + (i * k : ℕ)) dest = (.ok (k, loaded), after) ∧
          loaded.value = data.value) ∧
    ∀ other place, ¬(other = t ∧ st.slave.pduAddress addr ≤ place ∧
      place < st.slave.pduAddress addr + (nb * k : ℕ)) →
        (after.slave.map other).valueAt place = (st.slave.map other).valueAt place

end Station

end Modbuspp
