import Mathlib.Data.Nat.Notation
import Mathlib.Tactic.Common

/-!
# Bits of a list of bytes

A list of bytes read as a sequence of bits: bit `b` is bit `b % 8` of byte `b / 8`, the least
significant one first. A bit that lies behind the last byte is `none`.
-/

namespace BitField

/-- Bit `b` of a list of bytes. -/
def bitAt (bytes : List UInt8) (b : ℕ) : Option Bool :=
  bytes[b / 8]?.map fun byte => byte.toBitVec.getLsbD (b % 8)

/-- A byte with one of its bits replaced, by masks. -/
def assign (byte bit : UInt8) (value : Bool) : UInt8 :=
  (byte &&& ~~~((1 : UInt8) <<< bit)) ||| ((if value then 1 else 0) <<< bit)

/-- The test of one bit of a byte, by a mask. -/
def test (byte bit : UInt8) : Bool := (byte &&& ((1 : UInt8) <<< bit)) != 0

theorem toBitVec_mask {bit : UInt8} (small : bit.toNat < 8) :
    ((1 : UInt8) <<< bit).toBitVec = BitVec.twoPow 8 bit.toNat := by
  have same : bit.toNat % 8 = bit.toNat := Nat.mod_eq_of_lt small
  apply BitVec.eq_of_toNat_eq
  simp [same, Nat.shiftLeft_eq]

theorem getLsbD_assign {byte bit : UInt8} {value : Bool} (small : bit.toNat < 8) {k : ℕ}
    (inside : k < 8) :
    (assign byte bit value).toBitVec.getLsbD k =
      if k = bit.toNat then value else byte.toBitVec.getLsbD k := by
  by_cases same : k = bit.toNat
  · cases value <;> simp [assign, toBitVec_mask small, ← same, inside]
  · cases value <;> simp [assign, toBitVec_mask small, same, inside]

theorem test_eq {byte bit : UInt8} (small : bit.toNat < 8) :
    test byte bit = byte.toBitVec.getLsbD bit.toNat := by
  have masked : (byte &&& ((1 : UInt8) <<< bit)).toBitVec =
      if byte.toBitVec.getLsbD bit.toNat then BitVec.twoPow 8 bit.toNat else 0#8 := by
    rw [UInt8.toBitVec_and, toBitVec_mask small, BitVec.and_twoPow]
  have nonzero : BitVec.twoPow 8 bit.toNat ≠ 0#8 := by
    intro zero
    have selected := congrArg (fun bits => bits.getLsbD bit.toNat) zero
    simp [small] at selected
  cases set : byte.toBitVec.getLsbD bit.toNat with
  | false =>
      rw [set] at masked
      simpa [test] using UInt8.toBitVec_inj.mp masked
  | true =>
      rw [set] at masked
      simp only [test, bne_iff_ne]
      intro zero
      exact nonzero (masked.symm.trans (congrArg UInt8.toBitVec zero))

/-- Replacing one bit in its byte changes that bit of the sequence and no other. -/
theorem bitAt_set {bytes : List UInt8} {b : ℕ} {byte bit : UInt8} {value : Bool}
    (found : bytes[b / 8]? = some byte) (place : bit.toNat = b % 8) (c : ℕ) :
    bitAt (bytes.set (b / 8) (assign byte bit value)) c =
      if c = b then some value else bitAt bytes c := by
  have small : bit.toNat < 8 := by omega
  by_cases sameByte : c / 8 = b / 8
  · have inside := (List.getElem?_eq_some_iff.mp found).1
    have stored : (bytes.set (b / 8) (assign byte bit value))[b / 8]? =
        some (assign byte bit value) := List.getElem?_set_self inside
    simp only [bitAt, sameByte, found, stored, Option.map_some,
      getLsbD_assign small (Nat.mod_lt c (by decide : 0 < 8))]
    by_cases same : c = b
    · rw [if_pos (by omega), if_pos same]
    · rw [if_neg (by omega), if_neg same]
  · have other : c ≠ b := by
      intro same
      exact sameByte (congrArg (· / 8) same)
    simp only [bitAt, if_neg other]
    rw [List.getElem?_set_ne (Ne.symm sameByte)]

/-- Bytes at the same place agree exactly when their eight bits do. -/
theorem getElem?_eq_iff {left right : List UInt8} {k : ℕ} :
    left[k]? = right[k]? ↔ ∀ b, b / 8 = k → bitAt left b = bitAt right b := by
  constructor
  · intro same b place
    simp only [bitAt, place, same]
  · intro bits
    cases leftFound : left[k]? with
    | none =>
        have first := bits (8 * k) (by omega)
        simp only [bitAt, show 8 * k / 8 = k by omega, leftFound, Option.map_none] at first
        exact (Option.map_eq_none_iff.mp first.symm).symm
    | some byte =>
        cases rightFound : right[k]? with
        | none =>
            have first := bits (8 * k) (by omega)
            simp [bitAt, show 8 * k / 8 = k by omega, leftFound, rightFound] at first
        | some other =>
            apply congrArg some
            apply UInt8.toBitVec_inj.mp
            apply BitVec.eq_of_getLsbD_eq
            intro i inside
            have bit := bits (8 * k + i) (by omega)
            simpa only [bitAt, show (8 * k + i) / 8 = k by omega,
              show (8 * k + i) % 8 = i by omega, leftFound, rightFound, Option.map_some,
              Option.some.injEq] using bit

end BitField
