import Mathlib.Data.Nat.Count
import Mathlib.Data.Nat.Prime.Basic
import Mathlib.Dynamics.PeriodicPts.Defs
import Modbuspp.Library.ShiftRegister

/-!
# Error patterns of a shift register

Two sequences of bytes differ at some of their bits. Shifting keeps the parity of the bits of a register
when the polynomial has an odd number of them, so the registers of two sequences that differ at an odd number
of bits differ. A single bit acts on the final register by as many shifts as follow it: two errors cancel
exactly when the shifts between them return the register to where it was.
-/

namespace ShiftRegister

variable {w : ℕ}

/-- How many of the first `n` bits are set. -/
def ones (bits : ℕ → Bool) (n : ℕ) : ℕ := Nat.count (fun k => bits k = true) n

/-- The number of ones. -/
def weight (r : BitVec w) : ℕ := ones r.getLsbD w

/-- Bit `k` of a sequence of bytes, the lowest bit of a byte first. -/
def bitOf (bytes : List (BitVec 8)) (k : ℕ) : Bool := (bytes.getD (k / 8) 0#8).getLsbD (k % 8)

/-- The number of places at which two sequences differ. -/
def errors (bytes other : List (BitVec 8)) : ℕ :=
  ones (fun k => bitOf bytes k ^^ bitOf other k) (8 * bytes.length)

theorem ones_add (bits : ℕ → Bool) (m n : ℕ) :
    ones bits (m + n) = ones bits m + ones (fun k => bits (m + k)) n :=
  Nat.count_add _ m n

theorem ones_succ (bits : ℕ → Bool) (n : ℕ) :
    ones bits (n + 1) = ones bits n + if bits n then 1 else 0 :=
  Nat.count_succ _ n

theorem ones_congr {bits other : ℕ → Bool} {n : ℕ} (same : ∀ k < n, bits k = other k) :
    ones bits n = ones other n := by
  induction n with
  | zero => rfl
  | succ n ih =>
      rw [ones_succ, ones_succ, same n (Nat.lt_succ_self n),
        ih fun k inside => same k (Nat.lt_succ_of_lt inside)]

theorem ones_eq_zero {bits : ℕ → Bool} {n : ℕ} (clear : ∀ k < n, bits k = false) : ones bits n = 0 := by
  rw [ones, Nat.count_iff_forall_not]
  intro k inside
  rw [clear k inside]
  exact Bool.false_ne_true

theorem ones_xor (bits other : ℕ → Bool) (n : ℕ) :
    ones (fun k => bits k ^^ other k) n % 2 = (ones bits n + ones other n) % 2 := by
  induction n with
  | zero => rfl
  | succ n ih =>
      simp only [ones_succ]
      generalize ones (fun k => bits k ^^ other k) n = differing at ih ⊢
      cases bits n <;> cases other n <;> simp only [Bool.xor_self, Bool.false_xor, Bool.xor_false,
        Bool.false_eq_true, if_true, if_false] <;> omega

theorem weight_xor (r s : BitVec w) : weight (r ^^^ s) % 2 = (weight r + weight s) % 2 := by
  have bits : ones (r ^^^ s).getLsbD w = ones (fun k => r.getLsbD k ^^ s.getLsbD k) w :=
    ones_congr fun _ _ => BitVec.getLsbD_xor
  rw [weight, bits, ones_xor]
  rfl

theorem weight_ushiftRight (r : BitVec w) :
    weight r = (if r.getLsbD 0 then 1 else 0) + weight (r >>> 1) := by
  have above : r.getLsbD w = false := BitVec.getLsbD_of_ge r w (Nat.le_refl w)
  have longer : ones r.getLsbD (1 + w) = weight r := by
    rw [Nat.add_comm, ones_succ, above, if_neg Bool.false_ne_true]
    rfl
  have first : ones r.getLsbD 1 = if r.getLsbD 0 then 1 else 0 := by
    rw [ones_succ]
    exact Nat.zero_add _
  rw [← longer, ones_add, first, weight]
  exact congrArg _ (ones_congr fun k _ => (BitVec.getLsbD_ushiftRight r 1 k).symm)

variable {poly : BitVec w}

theorem weight_shift (odd : weight poly % 2 = 1) (r : BitVec w) :
    weight (shift poly r) % 2 = weight r % 2 := by
  have moved := weight_ushiftRight r
  simp only [shift]
  cases low : r.getLsbD 0 with
  | true =>
      rw [low, if_pos rfl] at moved
      rw [if_pos rfl, weight_xor]
      omega
  | false =>
      simp only [low, Bool.false_eq_true, if_false] at moved ⊢
      omega

theorem weight_shifts (odd : weight poly % 2 = 1) (n : ℕ) (r : BitVec w) :
    weight (shifts poly n r) % 2 = weight r % 2 := by
  induction n generalizing r with
  | zero => rfl
  | succ n ih =>
      rw [shifts_add poly n 1 r, ih]
      exact weight_shift odd r

theorem weight_setWidth (byte : BitVec 8) (wide : 8 ≤ w) : weight (byte.setWidth w) = weight byte := by
  have parts : w = 8 + (w - 8) := by omega
  have low : ones (byte.setWidth w).getLsbD 8 = weight byte := by
    apply ones_congr
    intro k inside
    rw [BitVec.getLsbD_setWidth, decide_eq_true (by omega), Bool.true_and]
  have high : ones (fun k => (byte.setWidth w).getLsbD (8 + k)) (w - 8) = 0 := by
    apply ones_eq_zero
    intro k _
    rw [BitVec.getLsbD_setWidth, BitVec.getLsbD_of_ge byte (8 + k) (by omega), Bool.and_false]
  have total := ones_add (byte.setWidth w).getLsbD 8 (w - 8)
  rw [← parts, low, high] at total
  exact total

theorem bitOf_cons_add (byte : BitVec 8) (bytes : List (BitVec 8)) (k : ℕ) :
    bitOf (byte :: bytes) (8 + k) = bitOf bytes k := by
  have place : (8 + k) / 8 = k / 8 + 1 := by omega
  have bit : (8 + k) % 8 = k % 8 := by omega
  rw [bitOf, place, bit, List.getD_cons_succ, bitOf]

theorem bitOf_cons_lt (byte : BitVec 8) (bytes : List (BitVec 8)) {k : ℕ} (low : k < 8) :
    bitOf (byte :: bytes) k = byte.getLsbD k := by
  have place : k / 8 = 0 := by omega
  rw [bitOf, place, Nat.mod_eq_of_lt low, List.getD_cons_zero]

theorem errors_cons (byte first : BitVec 8) (bytes rest : List (BitVec 8)) :
    errors (byte :: bytes) (first :: rest) = weight (byte ^^^ first) + errors bytes rest := by
  have total : 8 * (byte :: bytes).length = 8 + 8 * bytes.length := by
    rw [List.length_cons]
    omega
  rw [errors, total, ones_add]
  apply congrArg₂
  · apply ones_congr
    intro k low
    rw [bitOf_cons_lt byte bytes low, bitOf_cons_lt first rest low, BitVec.getLsbD_xor]
  · apply ones_congr
    intro k _
    rw [bitOf_cons_add, bitOf_cons_add]

/-- Bytes that differ at an odd number of bits change the parity of the register. -/
theorem weight_foldl_feed (wide : 8 ≤ w) (odd : weight poly % 2 = 1) {bytes other : List (BitVec 8)}
    (length : bytes.length = other.length) (r s : BitVec w) :
    weight (bytes.foldl (feed poly) r ^^^ other.foldl (feed poly) s) % 2 =
      (weight (r ^^^ s) + errors bytes other) % 2 := by
  induction bytes generalizing other r s with
  | nil =>
      cases other with
      | nil => rfl
      | cons first rest => cases length
  | cons byte bytes ih =>
      cases other with
      | nil => cases length
      | cons first rest =>
          have entered : feed poly r byte ^^^ feed poly s first =
              shifts poly 8 ((r ^^^ s) ^^^ (byte ^^^ first).setWidth w) := by
            rw [feed, feed, ← shifts_xor, xor_xor_xor_comm, BitVec.setWidth_xor]
          have parity := weight_xor (r ^^^ s) ((byte ^^^ first).setWidth w)
          rw [weight_setWidth _ wide] at parity
          rw [List.foldl_cons, List.foldl_cons, ih (Nat.succ.inj length), entered, errors_cons,
            Nat.add_mod, weight_shifts odd, parity]
          omega

/-- An odd number of errors is always noticed. -/
theorem foldl_feed_ne_of_odd (wide : 8 ≤ w) (odd : weight poly % 2 = 1) {bytes other : List (BitVec 8)}
    (length : bytes.length = other.length) (differ : errors bytes other % 2 = 1) (r : BitVec w) :
    bytes.foldl (feed poly) r ≠ other.foldl (feed poly) r := by
  intro same
  have parity := weight_foldl_feed wide odd length r r
  have clear : weight (0#w) = 0 := ones_eq_zero fun _ _ => BitVec.getLsbD_zero
  rw [same, BitVec.xor_self, BitVec.xor_self, clear] at parity
  omega

/-- A sequence with one of its bits changed. -/
def flip (bytes : List (BitVec 8)) (k : ℕ) : List (BitVec 8) :=
  bytes.modify (k / 8) fun byte => byte ^^^ BitVec.twoPow 8 (k % 8)

theorem flip_cons_lt (byte : BitVec 8) (bytes : List (BitVec 8)) {k : ℕ} (low : k < 8) :
    flip (byte :: bytes) k = (byte ^^^ BitVec.twoPow 8 k) :: bytes := by
  have place : k / 8 = 0 := by omega
  rw [flip, place, Nat.mod_eq_of_lt low, List.modify_zero_cons]

theorem flip_cons_add (byte : BitVec 8) (bytes : List (BitVec 8)) (k : ℕ) :
    flip (byte :: bytes) (8 + k) = byte :: flip bytes k := by
  have place : (8 + k) / 8 = k / 8 + 1 := by omega
  have bit : (8 + k) % 8 = k % 8 := by omega
  rw [flip, place, bit, List.modify_succ_cons, flip]

@[simp]
theorem length_flip (bytes : List (BitVec 8)) (k : ℕ) : (flip bytes k).length = bytes.length :=
  List.length_modify ..

theorem bitOf_flip {bytes : List (BitVec 8)} {k : ℕ} (inside : k < 8 * bytes.length) (j : ℕ) :
    bitOf (flip bytes k) j = (bitOf bytes j ^^ decide (j = k)) := by
  induction bytes generalizing j k with
  | nil => exact absurd inside (by simp)
  | cons byte bytes ih =>
      rw [List.length_cons] at inside
      by_cases low : k < 8
      · rw [flip_cons_lt byte bytes low]
        by_cases here : j < 8
        · rw [bitOf_cons_lt _ _ here, bitOf_cons_lt _ _ here, BitVec.getLsbD_xor,
            BitVec.getLsbD_twoPow, decide_eq_true low, Bool.true_and]
          simp only [eq_comm]
        · obtain ⟨later, rfl⟩ : ∃ later, j = 8 + later := ⟨j - 8, by omega⟩
          rw [bitOf_cons_add, bitOf_cons_add, decide_eq_false (by omega), Bool.xor_false]
      · obtain ⟨place, rfl⟩ : ∃ place, k = 8 + place := ⟨k - 8, by omega⟩
        rw [flip_cons_add]
        by_cases here : j < 8
        · rw [bitOf_cons_lt _ _ here, bitOf_cons_lt _ _ here, decide_eq_false (by omega), Bool.xor_false]
        · obtain ⟨later, rfl⟩ : ∃ later, j = 8 + later := ⟨j - 8, by omega⟩
          rw [bitOf_cons_add, bitOf_cons_add, ih (by omega)]
          simp only [Nat.add_left_cancel_iff]

theorem bitOf_of_le {bytes : List (BitVec 8)} {k : ℕ} (outside : 8 * bytes.length ≤ k) :
    bitOf bytes k = false := by
  have beyond : bytes[k / 8]? = none := List.getElem?_eq_none (by omega)
  rw [bitOf, List.getD_eq_getElem?_getD, beyond]
  exact BitVec.getLsbD_zero

theorem ext_bitOf {bytes other : List (BitVec 8)} (length : bytes.length = other.length)
    (same : ∀ k, bitOf bytes k = bitOf other k) : bytes = other := by
  induction bytes generalizing other with
  | nil => exact (List.length_eq_zero_iff.mp length.symm).symm
  | cons byte bytes ih =>
      cases other with
      | nil => cases length
      | cons first rest =>
          have head : byte = first := by
            apply BitVec.eq_of_getLsbD_eq
            intro k low
            rw [← bitOf_cons_lt byte bytes low, same, bitOf_cons_lt first rest low]
          have tail : bytes = rest := by
            apply ih (Nat.succ.inj length)
            intro k
            rw [← bitOf_cons_add byte bytes, same, bitOf_cons_add]
          rw [head, tail]

/-- What enters the register later does not depend on what is in it. -/
theorem foldl_feed_xor (r d : BitVec w) (bytes : List (BitVec 8)) :
    bytes.foldl (feed poly) (r ^^^ d) =
      bytes.foldl (feed poly) r ^^^ shifts poly (8 * bytes.length) d := by
  induction bytes generalizing r d with
  | nil => rfl
  | cons byte bytes ih =>
      have entered : feed poly (r ^^^ d) byte = feed poly r byte ^^^ shifts poly 8 d := by
        rw [feed, feed, ← shifts_xor, BitVec.xor_assoc, BitVec.xor_assoc, BitVec.xor_comm d]
      rw [List.foldl_cons, List.foldl_cons, entered, ih, List.length_cons, Nat.mul_succ, shifts_add]

theorem shifts_twoPow (wide : 8 ≤ w) {k : ℕ} (low : k < 8) :
    shifts poly 8 ((BitVec.twoPow 8 k).setWidth w) = shifts poly (8 - k) 1#w := by
  have moved : (BitVec.twoPow 8 k).setWidth w = 1#w <<< k := by
    apply BitVec.eq_of_getLsbD_eq
    intro i inside
    simp only [BitVec.getLsbD_setWidth, BitVec.getLsbD_twoPow, BitVec.getLsbD_shiftLeft,
      BitVec.getLsbD_one]
    by_cases same : i = k
    · subst same
      simp [inside, low]
      omega
    · have other : ¬k = i := fun equal => same equal.symm
      simp [other]
      omega
  have back : shifts poly k (1#w <<< k) = 1#w := by
    apply shifts_shiftLeft
    intro i outside
    rw [BitVec.getLsbD_one, decide_eq_false (by omega : ¬i = 0), Bool.and_false]
  have split : 8 = 8 - k + k := by omega
  rw [moved, split, shifts_add, back, Nat.add_sub_cancel]

/-- A changed bit changes the register by as many shifts as follow it. -/
theorem foldl_feed_flip (wide : 8 ≤ w) {bytes : List (BitVec 8)} {k : ℕ}
    (inside : k < 8 * bytes.length) (r : BitVec w) :
    (flip bytes k).foldl (feed poly) r =
      bytes.foldl (feed poly) r ^^^ shifts poly (8 * bytes.length - k) 1#w := by
  induction bytes generalizing k r with
  | nil => exact absurd inside (by simp)
  | cons byte bytes ih =>
      rw [List.length_cons] at inside ⊢
      by_cases low : k < 8
      · have entered : feed poly r (byte ^^^ BitVec.twoPow 8 k) =
            feed poly r byte ^^^ shifts poly (8 - k) 1#w := by
          rw [feed, BitVec.setWidth_xor, ← BitVec.xor_assoc, shifts_xor, shifts_twoPow wide low, feed]
        have left : 8 * (bytes.length + 1) - k = 8 * bytes.length + (8 - k) := by omega
        rw [flip_cons_lt byte bytes low, List.foldl_cons, entered, foldl_feed_xor, List.foldl_cons, left,
          shifts_add]
      · obtain ⟨place, rfl⟩ : ∃ place, k = 8 + place := ⟨k - 8, by omega⟩
        have left : 8 * (bytes.length + 1) - (8 + place) = 8 * bytes.length - place := by omega
        rw [flip_cons_add, List.foldl_cons, List.foldl_cons, ih (by omega), left]

/-- The sequences differ at two places and at no other. -/
structure DifferAt (bytes other : List (BitVec 8)) (p q : ℕ) : Prop where
  length_eq : bytes.length = other.length
  lt : p < q
  iff : ∀ k, bitOf bytes k ≠ bitOf other k ↔ k = p ∨ k = q

theorem DifferAt.lt_length {bytes other : List (BitVec 8)} {p q : ℕ} (differ : DifferAt bytes other p q) :
    q < 8 * bytes.length := by
  by_contra outside
  have length := differ.length_eq
  apply (differ.iff q).mpr (.inr rfl)
  rw [bitOf_of_le (by omega), bitOf_of_le (by omega)]

theorem DifferAt.eq_flip {bytes other : List (BitVec 8)} {p q : ℕ} (differ : DifferAt bytes other p q) :
    other = flip (flip bytes p) q := by
  have inside := differ.lt_length
  have lt := differ.lt
  apply ext_bitOf
  · rw [length_flip, length_flip, differ.length_eq]
  · intro k
    have places := differ.iff k
    rw [bitOf_flip (by rw [length_flip]; exact inside), bitOf_flip (by omega)]
    by_cases first : k = p
    · have second : ¬k = q := by omega
      have ne := places.mpr (.inl first)
      rw [decide_eq_true first, decide_eq_false second, Bool.xor_true, Bool.xor_false]
      revert ne
      cases bitOf bytes k <;> cases bitOf other k <;> simp
    · by_cases second : k = q
      · have ne := places.mpr (.inr second)
        rw [decide_eq_false first, decide_eq_true second, Bool.xor_true, Bool.xor_false]
        revert ne
        cases bitOf bytes k <;> cases bitOf other k <;> simp
      · rw [decide_eq_false first, decide_eq_false second, Bool.xor_false, Bool.xor_false]
        by_contra ne
        rcases places.mp (Ne.symm ne) with equal | equal
        · exact first equal
        · exact second equal

/-- Two errors go unnoticed exactly when their distance is a multiple of the period of the register. -/
theorem foldl_feed_eq_iff_of_two (wide : 8 ≤ w) (top : poly.getLsbD (w - 1) = true)
    {bytes other : List (BitVec 8)} {p q : ℕ} (differ : DifferAt bytes other p q) (r : BitVec w) :
    bytes.foldl (feed poly) r = other.foldl (feed poly) r ↔
      Function.minimalPeriod (shift poly) 1#w ∣ q - p := by
  have inside := differ.lt_length
  have lt := differ.lt
  have between : 8 * bytes.length - p = 8 * bytes.length - q + (q - p) := by omega
  have cancel : ∀ a b c : BitVec w, a = (a ^^^ b) ^^^ c ↔ b = c := by
    intro a b c
    rw [BitVec.xor_assoc]
    constructor
    · intro same
      apply BitVec.xor_eq_zero_iff.mp
      apply (BitVec.xor_right_inj a).mp
      rw [← same, BitVec.xor_zero]
    · rintro rfl
      rw [BitVec.xor_self, BitVec.xor_zero]
  rw [differ.eq_flip, foldl_feed_flip wide (by rw [length_flip]; exact inside), length_flip,
    foldl_feed_flip wide (by omega), cancel, between, shifts_add,
    (shifts_injective top (8 * bytes.length - q)).eq_iff]
  exact Function.isPeriodicPt_iff_minimalPeriod_dvd

theorem exists_of_ones_eq_two {bits : ℕ → Bool} {n : ℕ} (two : ones bits n = 2) :
    ∃ p q, p < q ∧ q < n ∧ ∀ k < n, bits k = true ↔ k = p ∨ k = q := by
  rw [ones, Nat.count_eq_card_filter_range] at two
  rcases Finset.card_eq_two.mp two with ⟨p, q, ne, places⟩
  have member : ∀ k, k < n ∧ bits k = true ↔ k = p ∨ k = q := by
    intro k
    have same := Finset.ext_iff.mp places k
    simpa only [Finset.mem_filter, Finset.mem_range, Finset.mem_insert, Finset.mem_singleton] using same
  have first := (member p).mpr (.inl rfl)
  have second := (member q).mpr (.inr rfl)
  rcases Nat.lt_or_gt_of_ne ne with lt | lt
  · exact ⟨p, q, lt, second.1, fun k inside => by rw [← member, and_iff_right inside]⟩
  · exact ⟨q, p, lt, first.1, fun k inside => by rw [or_comm, ← member, and_iff_right inside]⟩

theorem exists_differAt {bytes other : List (BitVec 8)} (length : bytes.length = other.length)
    (two : errors bytes other = 2) : ∃ p q, DifferAt bytes other p q := by
  rcases exists_of_ones_eq_two two with ⟨p, q, lt, inside, places⟩
  refine ⟨p, q, length, lt, ?_⟩
  intro k
  by_cases within : k < 8 * bytes.length
  · rw [← places k within, bne_iff_ne.symm]
  · refine iff_of_false ?_ (by omega)
    rw [bitOf_of_le (by omega), bitOf_of_le (by omega)]
    exact fun ne => ne rfl

theorem eq_of_errors_eq_zero {bytes other : List (BitVec 8)} (length : bytes.length = other.length)
    (none : errors bytes other = 0) : bytes = other := by
  rw [errors, ones, Nat.count_iff_forall_not] at none
  apply ext_bitOf length
  intro k
  by_cases inside : k < 8 * bytes.length
  · have same := none k inside
    revert same
    cases bitOf bytes k <;> cases bitOf other k <;> simp
  · rw [bitOf_of_le (by omega), bitOf_of_le (by omega)]

/-- Sequences that are shorter than the period and end alike differ at four bits or more. -/
theorem four_le_errors (wide : 8 ≤ w) (odd : weight poly % 2 = 1)
    (top : poly.getLsbD (w - 1) = true) {bytes other : List (BitVec 8)}
    (length : bytes.length = other.length)
    (short : 8 * bytes.length ≤ Function.minimalPeriod (shift poly) 1#w) (differ : bytes ≠ other)
    {r : BitVec w} (same : bytes.foldl (feed poly) r = other.foldl (feed poly) r) :
    4 ≤ errors bytes other := by
  have even : errors bytes other % 2 = 0 := by
    by_contra odd_errors
    exact foldl_feed_ne_of_odd wide odd length (by omega) r same
  have some_ : errors bytes other ≠ 0 := fun none => differ (eq_of_errors_eq_zero length none)
  have notTwo : errors bytes other ≠ 2 := by
    intro two
    rcases exists_differAt length two with ⟨p, q, places⟩
    have inside := places.lt_length
    have lt := places.lt
    have divides := (foldl_feed_eq_iff_of_two wide top places r).mp same
    have := Nat.le_of_dvd (by omega) divides
    omega
  omega

/-- A period from which no prime factor can be taken is the least one. -/
theorem minimalPeriod_eq {α : Type*} {f : α → α} {x : α} {n : ℕ}
    (periodic : Function.IsPeriodicPt f n x)
    (least : ∀ p, p.Prime → p ∣ n → ¬Function.IsPeriodicPt f (n / p) x) :
    Function.minimalPeriod f x = n := by
  rcases periodic.minimalPeriod_dvd with ⟨c, n_eq⟩
  by_contra ne
  have more : c ≠ 1 := by
    rintro rfl
    rw [Nat.mul_one] at n_eq
    exact ne n_eq.symm
  rcases Nat.exists_prime_and_dvd more with ⟨p, prime, d, rfl⟩
  have reordered : n = p * (Function.minimalPeriod f x * d) := by
    rw [n_eq, Nat.mul_left_comm]
  apply least p prime ⟨_, reordered⟩
  rw [reordered, Nat.mul_div_cancel_left _ prime.pos]
  exact (Function.isPeriodicPt_minimalPeriod f x).trans_dvd ⟨d, rfl⟩

/-- One shift of a register that is given as a number. -/
def shiftNat (poly r : ℕ) : ℕ := (r / 2) ^^^ (poly * (r % 2))

/-- `2 ^ k` shifts. The match has the first half evaluated before the second one starts. -/
def doubled (poly : ℕ) : ℕ → ℕ → ℕ
  | 0, r => shiftNat poly r
  | k + 1, r =>
      match doubled poly k r with
      | 0 => 0
      | n + 1 => doubled poly k (n + 1)

theorem toNat_shift (poly r : BitVec w) : (shift poly r).toNat = shiftNat poly.toNat r.toNat := by
  have low : r.getLsbD 0 = r.toNat.testBit 0 := rfl
  simp only [shift, shiftNat, low, Nat.testBit_zero]
  rcases Nat.mod_two_eq_zero_or_one r.toNat with even | odd
  · simp [even, Nat.shiftRight_one]
  · simp [odd, Nat.shiftRight_one]

theorem doubled_zero (poly k : ℕ) : doubled poly k 0 = 0 := by
  induction k with
  | zero => simp [doubled, shiftNat]
  | succ k ih => rw [doubled, ih]

theorem toNat_shifts_two_pow (poly : BitVec w) (k : ℕ) (r : BitVec w) :
    (shifts poly (2 ^ k) r).toNat = doubled poly.toNat k r.toNat := by
  induction k generalizing r with
  | zero => exact toNat_shift poly r
  | succ k ih =>
      have twice : 2 ^ (k + 1) = 2 ^ k + 2 ^ k := by omega
      rw [twice, shifts_add, ih, ih, doubled]
      split
      · next zero => rw [zero, doubled_zero]
      · next rest => rw [rest]

/-- As many shifts as the powers of two make together, the last one first. -/
theorem toNat_shifts_sum (poly : BitVec w) (exponents : List ℕ) (r : BitVec w) :
    (shifts poly (exponents.foldr (fun k n => 2 ^ k + n) 0) r).toNat =
      exponents.foldr (doubled poly.toNat) r.toNat := by
  induction exponents with
  | nil => rfl
  | cons k exponents ih => rw [List.foldr_cons, shifts_add, toNat_shifts_two_pow, ih, List.foldr_cons]

end ShiftRegister
