import Mathlib.Data.List.Basic
import Mathlib.Logic.Function.Iterate

/-!
# Shift registers with feedback

The register of a reflected cyclic redundancy check: bits leave it at the low end, and a bit that is set
feeds the polynomial back. Shifting is linear in exclusive or, and a register whose low bits are clear
only moves down. Hence a table of the shifted octets does the work of eight shifts, and bytes that fit in
the register act on it as one word. When the polynomial has its highest bit set, shifting loses nothing,
so two inputs that differ within the width of the register never end alike.
-/

namespace ShiftRegister

variable {w : ℕ} (poly : BitVec w)

/-- One step of the register, without an input. -/
def shift (r : BitVec w) : BitVec w :=
  if r.getLsbD 0 then (r >>> 1) ^^^ poly else r >>> 1

/-- `n` shifts. -/
def shifts (n : ℕ) : BitVec w → BitVec w := (shift poly)^[n]

/-- One byte enters the register at the low end, and is shifted out bit by bit. -/
def feed (r : BitVec w) (byte : BitVec 8) : BitVec w := shifts poly 8 (r ^^^ byte.setWidth w)

/-- Bytes as one word, the first one in the lowest place. -/
def pack (w : ℕ) : List (BitVec 8) → BitVec w
  | [] => 0#w
  | byte :: bytes => byte.setWidth w ^^^ pack w bytes <<< 8

theorem xor_xor_xor_comm (a b c d : BitVec w) : (a ^^^ b) ^^^ (c ^^^ d) = (a ^^^ c) ^^^ (b ^^^ d) := by
  rw [BitVec.xor_assoc, BitVec.xor_assoc, ← BitVec.xor_assoc b, ← BitVec.xor_assoc c,
    BitVec.xor_comm b c]

theorem shift_xor (r s : BitVec w) : shift poly (r ^^^ s) = shift poly r ^^^ shift poly s := by
  simp only [shift, BitVec.getLsbD_xor, BitVec.ushiftRight_xor_distrib]
  cases r.getLsbD 0 <;> cases s.getLsbD 0 <;> simp only [Bool.false_xor, Bool.true_xor, Bool.not_true,
    Bool.not_false, Bool.false_eq_true, if_true, if_false]
  · rw [BitVec.xor_assoc]
  · rw [BitVec.xor_assoc, BitVec.xor_assoc, BitVec.xor_comm poly]
  · rw [xor_xor_xor_comm, BitVec.xor_self, BitVec.xor_zero]

theorem shifts_xor (n : ℕ) (r s : BitVec w) :
    shifts poly n (r ^^^ s) = shifts poly n r ^^^ shifts poly n s :=
  Function.Semiconj₂.iterate (shift_xor poly) n r s

theorem shifts_add (m n : ℕ) (r : BitVec w) : shifts poly (m + n) r = shifts poly m (shifts poly n r) :=
  Function.iterate_add_apply _ m n r

/-- A register whose low bits are clear only moves down. -/
theorem shifts_of_clear {n : ℕ} {r : BitVec w} (clear : ∀ i < n, r.getLsbD i = false) :
    shifts poly n r = r >>> n := by
  induction n generalizing r with
  | zero => exact (BitVec.ushiftRight_zero r).symm
  | succ n ih =>
      have first : shift poly r = r >>> 1 := by
        simp only [shift, clear 0 (Nat.succ_pos n), Bool.false_eq_true, if_false]
      have rest : ∀ i < n, (r >>> 1).getLsbD i = false := by
        intro i inside
        rw [BitVec.getLsbD_ushiftRight]
        exact clear (1 + i) (by omega)
      have one : shifts poly 1 r = shift poly r := rfl
      rw [shifts_add, one, first, ih rest, ← BitVec.shiftRight_add, Nat.add_comm]

theorem shifts_shiftLeft {n : ℕ} {r : BitVec w} (room : ∀ i, w ≤ i + n → r.getLsbD i = false) :
    shifts poly n (r <<< n) = r := by
  have clear : ∀ i < n, (r <<< n).getLsbD i = false := by
    intro i inside
    simp only [BitVec.getLsbD_shiftLeft, decide_eq_true inside, Bool.not_true, Bool.and_false,
      Bool.false_and]
  rw [shifts_of_clear poly clear]
  apply BitVec.eq_of_getLsbD_eq
  intro i inside
  rw [BitVec.getLsbD_ushiftRight, BitVec.getLsbD_shiftLeft]
  by_cases within : n + i < w
  · have above : ¬n + i < n := by omega
    have back : n + i - n = i := by omega
    simp only [decide_eq_true within, decide_eq_false above, Bool.not_false, Bool.and_self,
      Bool.true_and, back]
  · rw [room i (by omega), decide_eq_false within]
    rfl

/-- Eight shifts by a table of the shifted octets. -/
theorem feed_eq_table (r : BitVec w) (byte : BitVec 8) :
    feed poly r byte = (r >>> 8) ^^^ shifts poly 8 ((r.setWidth 8 ^^^ byte).setWidth w) := by
  have parts : r ^^^ byte.setWidth w =
      (r >>> 8) <<< 8 ^^^ (r.setWidth 8 ^^^ byte).setWidth w := by
    apply BitVec.eq_of_getLsbD_eq
    intro i inside
    by_cases low : i < 8
    · simp [inside, low]
    · simp [inside, low, BitVec.getLsbD_of_ge byte i (by omega)]
      congr 1
      omega
  have high : shifts poly 8 ((r >>> 8) <<< 8) = r >>> 8 := by
    apply shifts_shiftLeft
    intro i outside
    rw [BitVec.getLsbD_ushiftRight]
    exact BitVec.getLsbD_of_ge r (8 + i) (by omega)
  rw [feed, parts, shifts_xor, high]

theorem pack_getLsbD_of_le {bytes : List (BitVec 8)} {i : ℕ} (outside : 8 * bytes.length ≤ i) :
    (pack w bytes).getLsbD i = false := by
  induction bytes generalizing i with
  | nil => exact BitVec.getLsbD_zero
  | cons byte bytes ih =>
      rw [List.length_cons] at outside
      simp only [pack, BitVec.getLsbD_xor, BitVec.getLsbD_setWidth, BitVec.getLsbD_shiftLeft,
        BitVec.getLsbD_of_ge byte i (by omega), ih (by omega : 8 * bytes.length ≤ i - 8), Bool.and_false,
        Bool.xor_false]

/-- Bytes that fit in the register act on it as one word. -/
theorem foldl_feed_eq_pack {bytes : List (BitVec 8)} (fits : 8 * bytes.length ≤ w) (r : BitVec w) :
    bytes.foldl (feed poly) r = shifts poly (8 * bytes.length) (r ^^^ pack w bytes) := by
  induction bytes generalizing r with
  | nil => exact (BitVec.xor_zero).symm
  | cons byte bytes ih =>
      rw [List.length_cons] at fits
      have later : shifts poly 8 (pack w bytes <<< 8) = pack w bytes := by
        apply shifts_shiftLeft
        intro i outside
        exact pack_getLsbD_of_le (by omega)
      rw [List.foldl_cons, ih (by omega), List.length_cons, Nat.mul_succ, shifts_add, pack,
        ← BitVec.xor_assoc, shifts_xor poly 8, later, feed]

/-- A register into which its own bytes enter becomes clear. -/
theorem foldl_feed_own {bytes : List (BitVec 8)} (fits : 8 * bytes.length ≤ w) :
    bytes.foldl (feed poly) (pack w bytes) = 0#w := by
  have clear : ∀ i < 8 * bytes.length, (0#w).getLsbD i = false := fun _ _ => BitVec.getLsbD_zero
  rw [foldl_feed_eq_pack poly fits, BitVec.xor_self, shifts_of_clear poly clear,
    BitVec.zero_ushiftRight]

theorem pack_getLsbD_of_lt (byte : BitVec 8) (bytes : List (BitVec 8)) {i : ℕ} (low : i < 8)
    (inside : i < w) : (pack w (byte :: bytes)).getLsbD i = byte.getLsbD i := by
  simp only [pack, BitVec.getLsbD_xor, BitVec.getLsbD_setWidth, BitVec.getLsbD_shiftLeft,
    decide_eq_true low, decide_eq_true inside, Bool.not_true, Bool.and_false, Bool.false_and,
    Bool.xor_false, Bool.true_and]

theorem pack_getLsbD_add (byte : BitVec 8) (bytes : List (BitVec 8)) {i : ℕ} (inside : i + 8 < w) :
    (pack w (byte :: bytes)).getLsbD (i + 8) = (pack w bytes).getLsbD i := by
  have above : ¬i + 8 < 8 := by omega
  simp only [pack, BitVec.getLsbD_xor, BitVec.getLsbD_setWidth, BitVec.getLsbD_shiftLeft,
    decide_eq_true inside, decide_eq_false above, BitVec.getLsbD_of_ge byte (i + 8) (by omega),
    Bool.and_false, Bool.false_xor, Bool.not_false, Bool.and_self, Bool.true_and, Nat.add_sub_cancel]

theorem pack_injective {bytes other : List (BitVec 8)} (length : bytes.length = other.length)
    (fits : 8 * bytes.length ≤ w) (same : pack w bytes = pack w other) : bytes = other := by
  induction bytes generalizing other with
  | nil => exact (List.length_eq_zero_iff.mp length.symm).symm
  | cons byte bytes ih =>
      cases other with
      | nil => cases length
      | cons first rest =>
          rw [List.length_cons] at fits
          simp only [List.length_cons, Nat.add_right_cancel_iff] at length
          have bit : ∀ i, (pack w (byte :: bytes)).getLsbD i = (pack w (first :: rest)).getLsbD i := by
            intro i
            rw [same]
          have head : byte = first := by
            apply BitVec.eq_of_getLsbD_eq
            intro i low
            have inside : i < w := by omega
            rw [← pack_getLsbD_of_lt byte bytes low inside, bit, pack_getLsbD_of_lt first rest low inside]
          have tail : pack w bytes = pack w rest := by
            apply BitVec.eq_of_getLsbD_eq
            intro i _
            by_cases inside : i + 8 < w
            · rw [← pack_getLsbD_add byte bytes inside, bit, pack_getLsbD_add first rest inside]
            · rw [pack_getLsbD_of_le (by omega), pack_getLsbD_of_le (by omega)]
          rw [head, ih length (by omega) tail]

variable {poly}

theorem shift_injective (top : poly.getLsbD (w - 1) = true) : Function.Injective (shift poly) := by
  have kernel : ∀ r, shift poly r = 0#w → r = 0#w := by
    intro r zero
    have moved : (r >>> 1).getLsbD (w - 1) = false := by
      rw [BitVec.getLsbD_ushiftRight]
      exact BitVec.getLsbD_of_ge r _ (by omega)
    simp only [shift] at zero
    cases low : r.getLsbD 0 with
    | true =>
        -- The polynomial would leave its highest bit in the register.
        rw [low, if_pos rfl] at zero
        have highest := congrArg (fun r : BitVec w => r.getLsbD (w - 1)) zero
        simp only [BitVec.getLsbD_xor, moved, top, Bool.false_xor] at highest
        cases highest.trans BitVec.getLsbD_zero
    | false =>
        simp only [low, Bool.false_eq_true, if_false] at zero
        apply BitVec.eq_of_getLsbD_eq
        intro i inside
        rw [BitVec.getLsbD_zero]
        cases i with
        | zero => exact low
        | succ i =>
            have bit := congrArg (fun r : BitVec w => r.getLsbD i) zero
            simp only [BitVec.getLsbD_ushiftRight, Nat.add_comm 1] at bit
            exact bit.trans BitVec.getLsbD_zero
  intro r s same
  apply BitVec.xor_eq_zero_iff.mp
  apply kernel
  rw [shift_xor, same, BitVec.xor_self]

theorem shifts_injective (top : poly.getLsbD (w - 1) = true) (n : ℕ) :
    Function.Injective (shifts poly n) :=
  (shift_injective top).iterate n

theorem feed_injective (top : poly.getLsbD (w - 1) = true) (byte : BitVec 8) :
    Function.Injective fun r => feed poly r byte := by
  intro r s same
  exact (BitVec.xor_left_inj _).mp (shifts_injective top 8 same)

theorem foldl_feed_injective (top : poly.getLsbD (w - 1) = true) (bytes : List (BitVec 8)) :
    Function.Injective fun r => bytes.foldl (feed poly) r := by
  induction bytes with
  | nil => exact Function.injective_id
  | cons byte bytes ih => exact ih.comp (feed_injective top byte)

/-- Inputs that differ within the width of the register do not end alike. -/
theorem foldl_feed_ne (top : poly.getLsbD (w - 1) = true) {bytes other : List (BitVec 8)}
    (length : bytes.length = other.length) (fits : 8 * bytes.length ≤ w) (differ : bytes ≠ other)
    (before after : List (BitVec 8)) (r : BitVec w) :
    (before ++ bytes ++ after).foldl (feed poly) r ≠ (before ++ other ++ after).foldl (feed poly) r := by
  intro same
  simp only [List.foldl_append] at same
  generalize before.foldl (feed poly) r = start at same
  have window := foldl_feed_injective top after same
  have fits_other : 8 * other.length ≤ w := by
    rw [← length]
    exact fits
  rw [foldl_feed_eq_pack poly fits, foldl_feed_eq_pack poly fits_other, length] at window
  have words := (BitVec.xor_right_inj _).mp (shifts_injective top _ window)
  exact differ (pack_injective length fits words)

end ShiftRegister
