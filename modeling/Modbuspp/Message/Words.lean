import Modbuspp.Data.Coherence
import Modbuspp.Message.Layer

/-!
# Words of a message

What `byte` and `word` read, in terms of the cells of the buffer. All words of a message are stored
high byte first, those of the header and those of the PDU.
-/

namespace Modbuspp.Message

theorem byte_of_cell {msg : Message} {i : ℤ} {index : ℕ} {value : UInt8}
    (place : msg.pduBegin + i = index) (found : msg.adu[index]? = some value) :
    msg.byte i = .ok value := by
  simp only [byte, place, Storage.read, Int.natCast_nonneg, if_true, Int.toNat_natCast, found,
    checked_some]

theorem word_eq {msg : Message} {i : ℤ} {index : ℕ} (place : msg.pduBegin + i = index) :
    msg.word i = (do
      let high ← checked msg.adu[index]?
      let low ← checked msg.adu[index + 1]?
      pure (wordOf high low)) := by
  have next : ((index : ℤ) + 1).toNat = index + 1 := by omega
  have lower : (0 : ℤ) ≤ (index : ℤ) + 1 := by omega
  simp only [word, place, Storage.read, Int.natCast_nonneg, if_true, if_pos lower, Int.toNat_natCast,
    next]
  rfl

/-- A word depends on its two cells only. -/
theorem word_congr {left right : Message} {i : ℤ} {index : ℕ}
    (leftPlace : left.pduBegin + i = index) (rightPlace : right.pduBegin + i = index)
    (high : left.adu[index]? = right.adu[index]?)
    (low : left.adu[index + 1]? = right.adu[index + 1]?) : left.word i = right.word i := by
  rw [word_eq leftPlace, word_eq rightPlace, high, low]

/-- Two cells that hold the bytes of a word are read as that word. -/
theorem word_of_bytes {msg : Message} {i : ℤ} {index : ℕ} {value : UInt16}
    (place : msg.pduBegin + i = index) (high : msg.adu[index]? = some (value >>> 8).toUInt8)
    (low : msg.adu[index + 1]? = some value.toUInt8) : msg.word i = .ok value := by
  rw [word_eq place, high, low]
  simp only [checked_some, ok_bind, pure_eq_ok, wordOf_bytes]

theorem byte_setByte {msg edited : Message} {i : ℤ} {value : UInt8}
    (written : msg.setByte i value = .ok edited) : edited.byte i = .ok value := by
  simp only [setByte, bind_eq_ok_iff, checked_eq_ok_iff, Storage.write_eq_some_iff] at written
  rcases written with ⟨_, ⟨⟨lower, inside⟩, rfl⟩, done⟩
  have place : edited.pduBegin + i = ((msg.pduBegin + i).toNat : ℤ) := by
    cases done
    exact (Int.toNat_of_nonneg lower).symm
  apply byte_of_cell place
  cases done
  exact List.getElem?_set_self (by omega)

/-- A word is read back after it has been written. -/
theorem word_setWord {msg edited : Message} {i : ℤ} {value : UInt16}
    (written : msg.setWord i value = .ok edited) : edited.word i = .ok value := by
  simp only [setWord, bind_eq_ok_iff, checked_eq_ok_iff, Storage.write_eq_some_iff] at written
  rcases written with ⟨first, ⟨⟨lower, _⟩, rfl⟩, second, ⟨⟨_, inside⟩, rfl⟩, done⟩
  rw [List.length_set] at inside
  have next : (msg.pduBegin + i + 1).toNat = (msg.pduBegin + i).toNat + 1 := by omega
  have place : edited.pduBegin + i = ((msg.pduBegin + i).toNat : ℤ) := by
    cases done
    change msg.pduBegin + i = _
    omega
  apply word_of_bytes place
  · cases done
    rw [next, List.getElem?_set_ne (by omega), List.getElem?_set_self (by omega)]
  · cases done
    rw [next, List.getElem?_set_self (by rw [List.length_set]; omega)]

theorem cells_of_word {msg : Message} {i : ℤ} {index : ℕ} {value : UInt16}
    (place : msg.pduBegin + i = index) (found : msg.word i = .ok value) :
    index + 1 < msg.adu.length := by
  by_contra outside
  have none : Storage.read msg.adu (msg.pduBegin + i + 1) = none := by
    rw [Storage.read_eq_none_iff]
    omega
  simp only [word, none, checked_none, error_bind, bind_eq_ok_iff] at found
  rcases found with ⟨_, _, impossible⟩
  cases impossible

end Modbuspp.Message
