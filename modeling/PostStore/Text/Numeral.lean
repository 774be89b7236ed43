/-!
# Decimal numerals

Writing a number with a fixed count of digits, and reading an unsigned number that must not exceed a
bound, with the reason when it cannot be read.
-/

namespace PostStore.Text

/-! ## Digits -/

/-- The decimal digit of a number below ten. -/
def digit (n : Nat) : Char := Char.ofNat (48 + n)

/-- The value of a decimal digit. -/
def digitValue? (c : Char) : Option Nat :=
  if '0' ≤ c && c ≤ '9' then some (c.toNat - 48) else none

/-- The last `count` decimal digits of a number, most significant first. -/
def fixedDigits : (count : Nat) → Nat → List Char
  | 0, _ => []
  | count + 1, n => fixedDigits count (n / 10) ++ [digit (n % 10)]

/-- As many digits as asked for are written. -/
theorem length_fixedDigits (count n : Nat) : (fixedDigits count n).length = count := by
  induction count generalizing n with
  | zero => rfl
  | succ count ih => simp [fixedDigits, ih]

/-! ## Unsigned numerals with a bound -/

/-- Why a text is not an unsigned number within a bound. -/
inductive NumeralError where
  | empty
  | invalidDigit
  | tooLarge
  deriving DecidableEq, Repr

/-- The wording of a `NumeralError`. -/
def NumeralError.message : NumeralError → String
  | .empty => "cannot parse integer from empty string"
  | .invalidDigit => "invalid digit found in string"
  | .tooLarge => "number too large to fit in target type"

/-- Reads the remaining digits of a number of which `value` has been read; the first character that
is not a digit, or the first digit that passes the bound, decides the error. -/
def readDigits (bound : Nat) (value : Nat) : List Char → Except NumeralError Nat
  | [] => .ok value
  | c :: rest =>
    match digitValue? c with
    | none => .error .invalidDigit
    | some d =>
      if value * 10 + d ≤ bound then readDigits bound (value * 10 + d) rest else .error .tooLarge

/-- Reads an unsigned number of at most `bound`; one leading plus sign is allowed. -/
def readUnsigned (bound : Nat) : List Char → Except NumeralError Nat
  | [] => .error .empty
  | ['+'] => .error .invalidDigit
  | '+' :: rest => readDigits bound 0 rest
  | text => readDigits bound 0 text

/-- Reads a number of at most `bound`, or of at least the number below its opposite, after one
leading sign. -/
def readSigned? (bound : Nat) : List Char → Option Int
  | ['-'] => none
  | '-' :: rest => (readDigits (bound + 1) 0 rest).toOption.map fun n => -(n : Int)
  | text => (readUnsigned bound text).toOption.map Int.ofNat

end PostStore.Text
