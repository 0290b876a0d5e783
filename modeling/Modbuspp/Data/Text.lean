import Mathlib.Algebra.Group.Nat.Defs
import Mathlib.Algebra.Group.Int.Defs
import Modbuspp.Global

/-!
# Numbers in texts

`strToT` converts a text with `std::stoull` or `std::stoll`, in the base that the text shows. The
result is kept in an unsigned variable in both cases, so for the signed types every value is below the
converted lower limit, and for the unsigned ones a negative numeral passes as the number it is
congruent to. That the text has been used up is checked after the assignment.
-/

namespace Modbuspp

/-- `isspace` in the locale of C. -/
def isSpace (c : Char) : Bool :=
  c = ' ' || c = '\t' || c = '\n' || c = '\x0b' || c = '\x0c' || c = '\r'

/-- The value of a character as a digit of some base up to 36. -/
def digitValue (c : Char) : Option ℕ :=
  if '0' ≤ c ∧ c ≤ '9' then some (c.toNat - '0'.toNat)
  else if 'a' ≤ c ∧ c ≤ 'z' then some (c.toNat - 'a'.toNat + 10)
  else if 'A' ≤ c ∧ c ≤ 'Z' then some (c.toNat - 'A'.toNat + 10)
  else none

/-- The value of a character as a digit of the base. -/
def digitIn (base : ℕ) (c : Char) : Option ℕ := (digitValue c).filter (· < base)

/-- The number that the leading digits stand for, and what follows them. -/
def digits (base acc : ℕ) : List Char → ℕ × List Char
  | [] => (acc, [])
  | c :: cs =>
      match digitIn base c with
      | some digit => digits base (acc * base + digit) cs
      | none => (acc, c :: cs)

/-- The digits of a numeral whose base is given by its prefix: `0x` for 16, `0` for 8, else 10. A
prefix `0x` without a digit behind it is the number 0. -/
def magnitude : List Char → Option (ℕ × List Char)
  | [] => none
  | '0' :: x :: c :: cs =>
      if (x = 'x' ∨ x = 'X') ∧ (digitIn 16 c).isSome then some (digits 16 0 (c :: cs))
      else some (digits 8 0 ('0' :: x :: c :: cs))
  | '0' :: cs => some (digits 8 0 ('0' :: cs))
  | c :: cs => if (digitIn 10 c).isSome then some (digits 10 0 (c :: cs)) else none

/-- What a text begins with, after spaces: a numeral with an optional sign. -/
structure Numeral where
  negative : Bool
  magnitude : ℕ
  rest : List Char
deriving DecidableEq

/-- The number with its sign. -/
def Numeral.value (n : Numeral) : ℤ := if n.negative then -(n.magnitude : ℤ) else n.magnitude

/-- The number that a text begins with, as `strtoll` reads it. -/
def numeral (str : List Char) : Option Numeral :=
  let (negative, unsigned) :=
    match str.dropWhile isSpace with
    | '-' :: cs => (true, cs)
    | '+' :: cs => (false, cs)
    | cs => (false, cs)
  (magnitude unsigned).map fun (value, rest) => { negative, magnitude := value, rest }

example : numeral [' ', '-', '0', 'x', '1', 'F', ' '] = some ⟨true, 31, [' ']⟩ := by decide

/-- `std::stoull` and `std::stoul`, with the rest of the text. A negative numeral is negated in the
unsigned type. -/
def stoull (name : String) (str : List Char) : Except Fault (ℕ × List Char) :=
  match numeral str with
  | none => .error (.invalidArgument name)
  | some n =>
      if 2 ^ 64 ≤ n.magnitude then .error (.outOfRange name)
      else .ok ((n.value % 2 ^ 64).toNat, n.rest)

/-- `std::stoll`. -/
def stoll (str : List Char) : Except Fault (ℤ × List Char) :=
  match numeral str with
  | none => .error (.invalidArgument "stoll")
  | some n =>
      if n.value < -2 ^ 63 ∨ 2 ^ 63 ≤ n.value then .error (.outOfRange "stoll")
      else .ok (n.value, n.rest)

/-- The integer types that texts and JSON numbers are converted to. -/
inductive IntType where
  | uint16
  | uint32
  | uint64
  | int16
  | int32
  | int64
deriving DecidableEq, Repr

namespace IntType

/-- The size of the type in bits. -/
def bits : IntType → ℕ
  | uint16 => 16
  | uint32 => 32
  | uint64 => 64
  | int16 => 16
  | int32 => 32
  | int64 => 64

/-- Whether the type has negative values. -/
def signed : IntType → Bool
  | uint16 => false
  | uint32 => false
  | uint64 => false
  | int16 => true
  | int32 => true
  | int64 => true

/-- `std::numeric_limits<T>::lowest()`. -/
def lowest (T : IntType) : ℤ := if T.signed then -2 ^ (T.bits - 1) else 0

/-- `std::numeric_limits<T>::max()`. -/
def max (T : IntType) : ℤ := if T.signed then 2 ^ (T.bits - 1) - 1 else 2 ^ T.bits - 1

/-- The conversion of an integer to the type, `static_cast<T>`. -/
def cast (T : IntType) (n : ℤ) : ℤ := (n - T.lowest) % 2 ^ T.bits + T.lowest

variable (T : IntType)

theorem cast_of_representable {n : ℤ} (lower : T.lowest ≤ n) (upper : n ≤ T.max) :
    T.cast n = n := by
  cases T <;> simp only [IntType.cast, IntType.lowest, IntType.max, IntType.signed,
    IntType.bits, Bool.false_eq_true, if_false, if_true] at lower upper ⊢ <;> omega

theorem cast_eq_add (n : ℤ) : ∃ j, T.cast n = n + 2 ^ T.bits * j := by
  refine ⟨-((n - T.lowest) / 2 ^ T.bits), ?_⟩
  rw [cast, Int.emod_def, Int.mul_neg]
  omega

theorem cast_add_mul (n j : ℤ) : T.cast (n + 2 ^ T.bits * j) = T.cast n := by
  have moved : n + 2 ^ T.bits * j - T.lowest = n - T.lowest + 2 ^ T.bits * j := by omega
  rw [cast, cast, moved, Int.add_mul_emod_self_left]

theorem int32_cast_lt (n : ℤ) : int32.cast n < 2 ^ 31 := by
  have lowest : int32.lowest = -2 ^ 31 := rfl
  have bits : (2 : ℤ) ^ int32.bits = 2 ^ 32 := rfl
  rw [cast, lowest, bits]
  omega

/-- A product may be converted at once. -/
theorem cast_mul (q w : ℤ) : T.cast (T.cast q * w) = T.cast (q * w) := by
  rcases T.cast_eq_add q with ⟨j, same⟩
  rw [same, Int.add_mul, Int.mul_assoc, cast_add_mul]

end IntType

/-- The conversion to `unsigned long long`. -/
def toUnsigned (n : ℤ) : ℤ := n % 2 ^ 64

/-- The end of `strToT`: the text has to be used up. The destination has its new value already. -/
def finish (str rest : List Char) (v : ℤ) : Except Fault Unit × ℤ :=
  if rest ≠ [] then
    (.error (.invalidArgument
      ("Unable to convert " ++ String.ofList str ++ " to arithmetic value")), v)
  else (.ok (), v)

/-- `strToT` for the types of integers: how it ends, and the value of the destination `v`
afterwards. -/
def strToT (T : IntType) (v : ℤ) (str : List Char) : Except Fault Unit × ℤ :=
  if T.signed then
    match stoll str with
    | .error fault => (.error fault, v)
    | .ok (value, rest) =>
        let ll := toUnsigned value
        if ll > toUnsigned T.max ∨ ll < toUnsigned T.lowest then
          (.error (.outOfRange (String.ofList str)), v)
        else finish str rest (T.cast ll)
  else
    match stoull "stoull" str with
    | .error fault => (.error fault, v)
    | .ok (ull, rest) =>
        if (ull : ℤ) > T.max then (.error (.outOfRange (String.ofList str)), v)
        else finish str rest (T.cast ull)

/-- The whole text is a numeral for the integer. -/
def Denotes (str : List Char) (value : ℤ) : Prop :=
  ∃ n, numeral str = some n ∧ n.rest = [] ∧ n.value = value

/-- The text is for an integer of the type. -/
def DenotesIn (T : IntType) (str : List Char) (value : ℤ) : Prop :=
  Denotes str value ∧ T.lowest ≤ value ∧ value ≤ T.max

/-- An integer of the type is assigned, and anything else is rejected without an assignment. -/
def Converts (T : IntType) (v : ℤ) (str : List Char) : Prop :=
  (∀ value, DenotesIn T str value → strToT T v str = (.ok (), value)) ∧
    ((¬∃ value, DenotesIn T str value) → ∃ fault, strToT T v str = (.error fault, v))

/-- The texts that are converted as they should be. For a signed type there are none with an integer
of the type. For an unsigned one the negative numerals fail that pass as an integer of the type, and
those with a rest that would have changed the destination. -/
def Convertible (T : IntType) (v : ℤ) (str : List Char) : Prop :=
  match numeral str with
  | none => True
  | some n =>
      if T.signed then ¬(n.rest = [] ∧ T.lowest ≤ n.value ∧ n.value ≤ T.max)
      else if n.rest = [] then ¬(n.value < 0 ∧ -2 ^ 64 < n.value ∧ 2 ^ 64 + n.value ≤ T.max)
      else ¬(n.magnitude < 2 ^ 64 ∧ n.value % 2 ^ 64 ≤ T.max ∧ n.value % 2 ^ 64 ≠ v)

theorem limits_of_signed {T : IntType} (signed : T.signed = true) :
    toUnsigned T.max < toUnsigned T.lowest := by
  cases T with
  | int16 => decide
  | int32 => decide
  | int64 => decide
  | uint16 => cases signed
  | uint32 => cases signed
  | uint64 => cases signed

/-- Whatever the text, nothing is assigned to a variable of a signed type. -/
theorem strToT_of_signed {T : IntType} (signed : T.signed = true) (v : ℤ) (str : List Char) :
    ∃ fault, strToT T v str = (.error fault, v) := by
  have limits := limits_of_signed signed
  simp only [strToT, if_pos signed]
  cases stoll str with
  | error fault => exact ⟨fault, rfl⟩
  | ok result =>
      have outside : toUnsigned result.1 > toUnsigned T.max ∨
          toUnsigned result.1 < toUnsigned T.lowest := by omega
      simp only [if_pos outside]
      exact ⟨_, rfl⟩

theorem limits_of_unsigned {T : IntType} (unsigned : T.signed = false) :
    T.lowest = 0 ∧ 0 ≤ T.max ∧ T.max < 2 ^ 64 := by
  cases T with
  | uint16 => decide
  | uint32 => decide
  | uint64 => decide
  | int16 => cases unsigned
  | int32 => cases unsigned
  | int64 => cases unsigned

theorem cast_of_unsigned {T : IntType} (unsigned : T.signed = false) {n : ℤ} (lower : 0 ≤ n)
    (upper : n ≤ T.max) : T.cast n = n := by
  apply T.cast_of_representable
  · rw [(limits_of_unsigned unsigned).1]
    exact lower
  · exact upper

/-- The numeral passes the checks that `strToT` makes before the assignment. -/
def Passes (T : IntType) (n : Numeral) : Prop := n.magnitude < 2 ^ 64 ∧ n.value % 2 ^ 64 ≤ T.max

theorem strToT_of_passes {T : IntType} (unsigned : T.signed = false) (v : ℤ) {str : List Char}
    {n : Numeral} (found : numeral str = some n) (passes : Passes T n) :
    strToT T v str = finish str n.rest (n.value % 2 ^ 64) := by
  rcases passes with ⟨small, below⟩
  have nonneg : 0 ≤ n.value % 2 ^ 64 := Int.emod_nonneg _ (by decide)
  have same : ((n.value % 2 ^ 64).toNat : ℤ) = n.value % 2 ^ 64 := Int.toNat_of_nonneg nonneg
  have converted : stoull "stoull" str = .ok ((n.value % 2 ^ 64).toNat, n.rest) := by
    simp only [stoull, found, if_neg (Nat.not_le.mpr small)]
  simp only [strToT, unsigned, Bool.false_eq_true, if_false, converted, same,
    if_neg (Int.not_lt.mpr below), cast_of_unsigned unsigned nonneg below]

theorem strToT_of_not_passes {T : IntType} (unsigned : T.signed = false) (v : ℤ)
    (str : List Char) (rejected : ∀ n, numeral str = some n → ¬Passes T n) :
    ∃ fault, strToT T v str = (.error fault, v) := by
  simp only [strToT, unsigned, Bool.false_eq_true, if_false, stoull]
  cases found : numeral str with
  | none => exact ⟨_, rfl⟩
  | some n =>
      by_cases big : 2 ^ 64 ≤ n.magnitude
      · simp only [if_pos big]
        exact ⟨_, rfl⟩
      · have above : ((n.value % 2 ^ 64).toNat : ℤ) > T.max := by
          by_contra below
          have nonneg : 0 ≤ n.value % 2 ^ 64 := Int.emod_nonneg _ (by decide)
          exact rejected n found ⟨Nat.lt_of_not_le big, by omega⟩
        simp only [if_neg big, if_pos above]
        exact ⟨_, rfl⟩

theorem magnitude_eq (n : Numeral) : (n.magnitude : ℤ) = n.value ∨ (n.magnitude : ℤ) = -n.value := by
  simp only [Numeral.value]
  split <;> omega

theorem denotesIn_iff {T : IntType} {str : List Char} {n : Numeral} (found : numeral str = some n)
    {value : ℤ} : DenotesIn T str value ↔
      n.rest = [] ∧ n.value = value ∧ T.lowest ≤ value ∧ value ≤ T.max := by
  simp only [DenotesIn, Denotes, found, Option.some.injEq, exists_eq_left', and_assoc]

/-- Among whole numerals for an unsigned type only the negative ones that pass go wrong. -/
theorem converts_iff_of_whole {T : IntType} (unsigned : T.signed = false) (v : ℤ)
    {str : List Char} {n : Numeral} (found : numeral str = some n) (whole : n.rest = []) :
    Converts T v str ↔ ¬(n.value < 0 ∧ -2 ^ 64 < n.value ∧ 2 ^ 64 + n.value ≤ T.max) := by
  rcases limits_of_unsigned unsigned with ⟨lowest, _, below⟩
  have sign := magnitude_eq n
  constructor
  · rintro ⟨_, rejects⟩ ⟨negative, small, passes⟩
    have unfit : ¬∃ value, DenotesIn T str value := by
      rintro ⟨value, denotes⟩
      rw [denotesIn_iff found] at denotes
      omega
    have assigned := strToT_of_passes unsigned v found ⟨by omega, by omega⟩
    rcases rejects unfit with ⟨fault, thrown⟩
    rw [assigned, finish, if_neg (not_not.mpr whole)] at thrown
    cases thrown
  · intro fine
    constructor
    · intro value denotes
      rw [denotesIn_iff found] at denotes
      rcases denotes with ⟨_, rfl, lower, upper⟩
      have residue : n.value % 2 ^ 64 = n.value := by omega
      rw [strToT_of_passes unsigned v found ⟨by omega, by omega⟩, finish,
        if_neg (not_not.mpr whole), residue]
    · intro unfit
      apply strToT_of_not_passes unsigned v
      intro other same passes
      rw [found] at same
      cases same
      apply unfit
      rcases passes with ⟨small, residue⟩
      refine ⟨n.value, (denotesIn_iff found).mpr ⟨whole, rfl, ?_, ?_⟩⟩ <;> omega

/-- A text that goes on behind its numeral is rejected, but too late if the numeral passes. -/
theorem converts_iff_of_rest {T : IntType} (unsigned : T.signed = false) (v : ℤ)
    {str : List Char} {n : Numeral} (found : numeral str = some n) (more : n.rest ≠ []) :
    Converts T v str ↔
      ¬(n.magnitude < 2 ^ 64 ∧ n.value % 2 ^ 64 ≤ T.max ∧ n.value % 2 ^ 64 ≠ v) := by
  have unfit : ¬∃ value, DenotesIn T str value := by
    rintro ⟨value, denotes⟩
    rw [denotesIn_iff found] at denotes
    exact more denotes.1
  have onlyRejects : Converts T v str ↔ ∃ fault, strToT T v str = (.error fault, v) := by
    constructor
    · rintro ⟨_, rejects⟩
      exact rejects unfit
    · intro thrown
      exact ⟨fun value denotes => absurd ⟨value, denotes⟩ unfit, fun _ => thrown⟩
  rw [onlyRejects]
  by_cases passes : Passes T n
  · rw [strToT_of_passes unsigned v found passes, finish, if_pos more]
    constructor
    · rintro ⟨fault, thrown⟩ ⟨_, _, changed⟩
      cases thrown
      exact changed rfl
    · intro fine
      have kept : n.value % 2 ^ 64 = v := by
        by_contra changed
        exact fine ⟨passes.1, passes.2, changed⟩
      exact ⟨_, by rw [kept]⟩
  · have thrown := strToT_of_not_passes unsigned v str (by
      intro other same
      rw [found] at same
      cases same
      exact passes)
    constructor
    · rintro _ ⟨small, below, _⟩
      exact passes ⟨small, below⟩
    · intro _
      exact thrown

/-- A text is converted as it should be exactly when it is convertible. -/
theorem converts_iff {T : IntType} {v : ℤ} {str : List Char} :
    Converts T v str ↔ Convertible T v str := by
  cases found : numeral str with
  | none =>
      simp only [Convertible, found, iff_true]
      have undenoted : ∀ value, ¬DenotesIn T str value := by
        rintro value ⟨⟨n, other, _⟩, _⟩
        rw [found] at other
        cases other
      refine ⟨fun value denotes => absurd denotes (undenoted value), fun _ => ?_⟩
      cases signed : T.signed with
      | true => exact strToT_of_signed signed v str
      | false =>
          apply strToT_of_not_passes signed v
          intro n other
          rw [found] at other
          cases other
  | some n =>
      simp only [Convertible, found]
      cases signed : T.signed with
      | true =>
          simp only [if_true]
          rcases strToT_of_signed signed v str with ⟨fault, thrown⟩
          constructor
          · rintro ⟨assigns, _⟩ ⟨whole, lower, upper⟩
            have assigned := assigns n.value
              ((denotesIn_iff found).mpr ⟨whole, rfl, lower, upper⟩)
            rw [thrown] at assigned
            cases assigned
          · intro unfit
            refine ⟨?_, fun _ => ⟨fault, thrown⟩⟩
            intro value denotes
            rcases (denotesIn_iff found).mp denotes with ⟨whole, rfl, lower, upper⟩
            exact absurd ⟨whole, lower, upper⟩ unfit
      | false =>
          simp only [Bool.false_eq_true, if_false]
          split
          · next whole => exact converts_iff_of_whole signed v found whole
          · next more => exact converts_iff_of_rest signed v found more

/-- No text is converted to a signed integer, a negative numeral becomes an unsigned one, and a text
with a rest is assigned before it is rejected. -/
theorem texts_misconverted :
    strToT .int16 7 ['-', '5'] = (.error (.outOfRange (String.ofList ['-', '5'])), 7) ∧
      strToT .uint64 7 ['-', '1'] = (.ok (), 18446744073709551615) ∧
      strToT .uint16 7 ['4', '2', 'x'] = (.error (.invalidArgument
        ("Unable to convert " ++ String.ofList ['4', '2', 'x'] ++ " to arithmetic value")), 42) ∧
      ¬Converts .int16 7 ['-', '5'] ∧ ¬Converts .uint64 7 ['-', '1'] ∧
      ¬Converts .uint16 7 ['4', '2', 'x'] := by
  have signed : strToT .int16 7 ['-', '5'] =
      (.error (.outOfRange (String.ofList ['-', '5'])), 7) := rfl
  have wrapped : strToT .uint64 7 ['-', '1'] = (.ok (), 18446744073709551615) := rfl
  have late : strToT .uint16 7 ['4', '2', 'x'] = (.error (.invalidArgument
      ("Unable to convert " ++ String.ofList ['4', '2', 'x'] ++ " to arithmetic value")), 42) := rfl
  refine ⟨signed, wrapped, late, ?_, ?_, ?_⟩
  · rintro ⟨assigns, _⟩
    have assigned := assigns (-5) ⟨⟨⟨true, 5, []⟩, by decide, rfl, rfl⟩, by decide, by decide⟩
    rw [signed] at assigned
    cases assigned
  · rintro ⟨_, rejects⟩
    have unfit : ¬∃ value, DenotesIn .uint64 ['-', '1'] value := by
      rintro ⟨value, ⟨n, found, _, rfl⟩, lower, _⟩
      cases found
      exact absurd lower (by decide)
    rcases rejects unfit with ⟨fault, thrown⟩
    rw [wrapped] at thrown
    cases thrown
  · rintro ⟨_, rejects⟩
    have unfit : ¬∃ value, DenotesIn .uint16 ['4', '2', 'x'] value := by
      rintro ⟨value, ⟨n, found, whole, _⟩, _⟩
      cases found
      cases whole
    rcases rejects unfit with ⟨fault, thrown⟩
    rw [late] at thrown
    cases thrown

end Modbuspp
