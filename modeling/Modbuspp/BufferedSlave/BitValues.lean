import Mathlib.Data.List.Forall2
import Modbuspp.BufferedSlave.Description

/-!
# Bits in a JSON text

The values of a table of bits are booleans, zeros and ones, and texts of bytes. The loop over them reads
a sequence of bits and takes as many as it was asked for, even if it ends inside of a byte. It never
looks behind the value in which it ends, and a value before this one that is none of these is rejected.
-/

namespace Modbuspp

/-- The end of a call by a C++ exception. -/
def Fault.Thrown (fault : Fault) : Prop := fault ≠ .outOfBounds ∧ fault ≠ .indeterminate

/-- The run throws an exception, rather than doing something undefined. -/
def Throws {α : Type} (run : Except Fault α) : Prop := ∃ fault, run = .error fault ∧ fault.Thrown

theorem stoull_thrown {name : String} {str : List Char} {fault : Fault}
    (failed : stoull name str = .error fault) : fault.Thrown := by
  simp only [stoull] at failed
  split at failed
  · cases failed
    exact ⟨by simp, by simp⟩
  · split at failed
    · cases failed
      exact ⟨by simp, by simp⟩
    · cases failed

namespace Json

/-- The values that are read as bits. A byte stands for its eight bits from the least significant one. -/
inductive StandsFor : Json → List Bool → Prop where
  | boolean (value : Bool) : StandsFor (.boolean value) [value]
  | binary (value : Bool) : StandsFor (.number (Rat.ofInt (if value then 1 else 0))) [value]
  | byte {str : List Char} {value : ℕ} (converted : stoull "stoul" str = .ok (value, []))
      (small : value ≤ 0xFF) :
      StandsFor (.text str) ((List.range 8).map fun i => value.testBit i)

/-- The values that are rejected: a text that is not the numeral of a byte as a whole, and an `int`
other than 0 and 1. -/
inductive Rejected : Json → Prop where
  | unconverted {str : List Char} {fault : Fault} (failed : stoull "stoul" str = .error fault) :
      Rejected (.text str)
  | unfinished {str rest : List Char} {value : ℕ}
      (converted : stoull "stoul" str = .ok (value, rest)) (more : rest ≠ []) : Rejected (.text str)
  | large {str rest : List Char} {value : ℕ}
      (converted : stoull "stoul" str = .ok (value, rest)) (above : 0xFF < value) :
      Rejected (.text str)
  | number (n : ℤ) (lower : IntType.int32.lowest ≤ n) (upper : n ≤ IntType.int32.max)
      (notZero : n ≠ 0) (notOne : n ≠ 1) : Rejected (.number (Rat.ofInt n))

/-- The bits that a value takes. -/
def width : Json → ℕ
  | .text _ => 8
  | _ => 1

/-- The bits that the values of an array take up. -/
def widths : List Json → ℕ
  | [] => 0
  | value :: values => value.width + widths values

theorem getBits_of_standsFor {value : Json} {bits : List Bool} (stands : value.StandsFor bits)
    {nmemb : ℤ} (positive : 0 < nmemb) : value.getBits nmemb = .ok (bits.take nmemb.toNat) := by
  have one : ∀ bit : Bool, [bit].take nmemb.toNat = [bit] := by
    intro bit
    apply List.take_of_length_le
    rw [List.length_singleton]
    omega
  cases stands with
  | boolean value => exact congrArg _ (one value).symm
  | binary value =>
      rw [one]
      cases value <;> rfl
  | @byte str value converted small =>
      have fits : ¬(([] : List Char) ≠ [] ∨ 0xFF < value) := by
        rintro (rest | large)
        · exact rest rfl
        · omega
      have shorter : (min nmemb 8).toNat = min nmemb.toNat 8 := by omega
      simp only [getBits, converted, ok_bind, if_neg fits, shorter, ← List.map_take, List.take_range]

theorem get_of_representable {T : IntType} {n : ℤ} (lower : T.lowest ≤ n) (upper : n ≤ T.max) :
    (Json.number (Rat.ofInt n)).get T = .ok n := by
  have whole : (Rat.ofInt n).num.tdiv (Rat.ofInt n).den = n := Int.tdiv_one n
  simp only [get, whole, T.cast_of_representable lower upper]

theorem getBits_of_rejected {bad : Json} (rejected : bad.Rejected) (nmemb : ℤ) (bits : List Bool) :
    bad.getBits nmemb ≠ .ok bits := by
  intro found
  cases rejected with
  | unconverted failed =>
      simp only [getBits, failed, error_bind] at found
      cases found
  | unfinished converted more =>
      simp only [getBits, converted, ok_bind, if_pos (Or.inl more)] at found
      cases found
  | large converted above =>
      simp only [getBits, converted, ok_bind, if_pos (Or.inr above)] at found
      cases found
  | number n lower upper notZero notOne =>
      simp only [getBits, get_of_representable lower upper, ok_bind,
        if_pos (And.intro notZero notOne)] at found
      cases found

/-- One value ends by an exception, or it gives no more bits than it takes and than were asked for. -/
theorem getBits_cases (value : Json) {nmemb : ℤ} (positive : 0 < nmemb) :
    Throws (value.getBits nmemb) ∨
      ∃ bits, value.getBits nmemb = .ok bits ∧ bits.length ≤ value.width ∧
        (bits.length : ℤ) ≤ nmemb := by
  have single : ∀ (got : Except Fault ℤ), (∀ fault, got = .error fault → fault.Thrown) →
      let run := got >>= fun i =>
        if i ≠ 0 ∧ i ≠ 1 then
          .error (.invalidArgument (toString i ++ " not a binary value (must be 0/1 or true/false)"))
        else .ok [decide (i ≠ 0)]
      Throws run ∨ ∃ bits, run = .ok bits ∧ bits.length ≤ 1 ∧ (bits.length : ℤ) ≤ nmemb := by
    intro got thrown
    cases got with
    | error fault => exact Or.inl ⟨fault, rfl, thrown fault rfl⟩
    | ok i =>
        simp only [ok_bind]
        split
        · exact Or.inl ⟨_, rfl, by simp [Fault.Thrown]⟩
        · refine Or.inr ⟨_, rfl, Nat.le_refl 1, ?_⟩
          rw [List.length_singleton]
          omega
  cases value with
  | text str =>
      cases converted : stoull "stoul" str with
      | error fault =>
          left
          refine ⟨fault, ?_, stoull_thrown converted⟩
          simp only [getBits, converted, error_bind]
      | ok result =>
          rcases result with ⟨ul, rest⟩
          simp only [getBits, converted, ok_bind]
          split
          · exact Or.inl ⟨_, rfl, by simp [Fault.Thrown]⟩
          · refine Or.inr ⟨_, rfl, ?_, ?_⟩
            · simp only [List.length_map, List.length_range, width]
              omega
            · simp only [List.length_map, List.length_range]
              omega
  | boolean b =>
      refine Or.inr ⟨_, rfl, Nat.le_refl 1, ?_⟩
      rw [List.length_singleton]
      omega
  | number value =>
      apply single
      intro fault failed
      cases failed
  | array values =>
      apply single
      intro fault failed
      cases failed
      exact ⟨by simp, by simp⟩
  | other =>
      apply single
      intro fault failed
      cases failed
      exact ⟨by simp, by simp⟩

/-- The loop takes as many bits as it was asked for. -/
theorem getBitValues_of_standsFor {values : List Json} {bits : List (List Bool)}
    (stand : List.Forall₂ StandsFor values bits) (data : List Bool) {nmemb : ℤ}
    (positive : 0 < nmemb) :
    getBitValues data nmemb values = .ok (data ++ bits.flatten.take nmemb.toNat) := by
  induction stand generalizing data nmemb with
  | nil => simp only [getBitValues, List.flatten_nil, List.take_nil, List.append_nil]
  | @cons value first values rest stands _ ih =>
      simp only [getBitValues, getBits_of_standsFor stands positive, List.flatten_cons,
        List.length_take]
      split
      · next enough => rw [List.take_append_of_le_length (by omega)]
      · next more =>
        have left : (nmemb - (min nmemb.toNat first.length : ℕ)).toNat =
            nmemb.toNat - first.length := by omega
        rw [ih _ (by omega), List.take_of_length_le (by omega), List.append_assoc, List.take_append,
          List.take_of_length_le (by omega : first.length ≤ nmemb.toNat), left]

theorem getBitValues_length {values : List Json} {data result : List Bool} {nmemb : ℤ}
    (positive : 0 < nmemb) (run : getBitValues data nmemb values = .ok result) :
    (result.length : ℤ) ≤ data.length + nmemb := by
  induction values generalizing data nmemb with
  | nil =>
      cases run
      omega
  | cons value values ih =>
      rcases value.getBits_cases positive with ⟨fault, thrown, _⟩ | ⟨bits, found, _, few⟩
      · simp only [getBitValues, thrown] at run
        cases run
      · simp only [getBitValues, found] at run
        split at run
        · cases run
          rw [List.length_append]
          omega
        · have rest := ih (by omega) run
          rw [List.length_append] at rest
          omega

/-- A rejected value is reached when the values before it take less than the bits asked for. -/
theorem getBitValues_throws {before after : List Json} {bad : Json} (rejected : bad.Rejected)
    {data : List Bool} {nmemb : ℤ} (short : (widths before : ℤ) < nmemb) :
    Throws (getBitValues data nmemb (before ++ bad :: after)) := by
  induction before generalizing data nmemb with
  | nil =>
      have positive : 0 < nmemb := short
      rcases bad.getBits_cases positive with ⟨fault, thrown, exception⟩ | ⟨bits, found, _⟩
      · refine ⟨fault, ?_, exception⟩
        simp only [List.nil_append, getBitValues, thrown]
      · exact absurd found (getBits_of_rejected rejected nmemb bits)
  | cons value before ih =>
      simp only [widths, Int.natCast_add] at short
      have positive : 0 < nmemb := by omega
      rcases value.getBits_cases positive with ⟨fault, thrown, exception⟩ | ⟨bits, found, narrow, _⟩
      · refine ⟨fault, ?_, exception⟩
        simp only [List.cons_append, getBitValues, thrown]
      · have more : ¬nmemb - bits.length ≤ 0 := by omega
        simp only [List.cons_append, getBitValues, found, if_neg more]
        exact ih (by omega)

/-- The loop reads the first bits that the values stand for, no more than it is asked for, and rejects
an array with a bad value that it reaches. -/
theorem getBitValues_spec {q : ℕ} (positive : 0 < q) :
    (∀ values bits, List.Forall₂ StandsFor values bits →
      getBitValues [] q values = .ok (bits.flatten.take q)) ∧
    (∀ values data, getBitValues [] q values = .ok data → data.length ≤ q) ∧
    ∀ before bad after, bad.Rejected → widths before < q →
      Throws (getBitValues [] q (before ++ bad :: after)) := by
  have positive_int : (0 : ℤ) < q := by omega
  refine ⟨?_, ?_, ?_⟩
  · intro values bits stand
    have run := getBitValues_of_standsFor stand [] positive_int
    rw [List.nil_append, Int.toNat_natCast] at run
    exact run
  · intro values data run
    have length := getBitValues_length positive_int run
    rw [List.length_nil] at length
    omega
  · intro before bad after rejected short
    exact getBitValues_throws rejected (by omega)

/-- Three bits of a boolean and a byte, and a text that is not a byte. -/
theorem getBitValues_spec_of_three :
    getBitValues [] (3 : ℕ) [.boolean true, .text ['0', 'x', '5', 'A']] =
        .ok [true, false, true] ∧
      Throws (getBitValues [] (3 : ℕ) [.boolean true, .text ['2', '5', '6'], .boolean false]) := by
  have spec := getBitValues_spec (q := 3) (by decide)
  refine ⟨?_, ?_⟩
  · have byte : StandsFor (.text ['0', 'x', '5', 'A']) _ :=
      @StandsFor.byte _ 0x5A rfl (by decide)
    exact spec.1 _ _ (.cons (.boolean true) (.cons byte .nil))
  · exact spec.2.2 [.boolean true] (.text ['2', '5', '6']) [.boolean false]
      (@Rejected.large _ [] 256 rfl (by decide)) (by decide)

end Json

end Modbuspp
