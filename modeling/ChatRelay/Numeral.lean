/-!
# Decimal numerals

Unsigned decimal numerals with a bound: an optional plus sign, then at least one digit, leading
zeros allowed. Digits are read from the left, and the first fault is the one reported.
-/

namespace ChatRelay.Numeral

/-- Why a text is no numeral within its bound. -/
inductive Error where
  | empty
  | invalidDigit
  | tooLarge
  deriving DecidableEq, Repr

/-- The report of a fault. -/
def Error.message : Error → String
  | .empty => "cannot parse integer from empty string"
  | .invalidDigit => "invalid digit found in string"
  | .tooLarge => "number too large to fit in target type"

/-- The value of a decimal digit. -/
def digit? (c : Char) : Option Nat :=
  if '0' ≤ c ∧ c ≤ '9' then some (c.toNat - '0'.toNat) else none

/-- Reads digits behind the number `value`. A digit is judged before the bound. -/
def readDigits (bound value : Nat) : List Char → Except Error Nat
  | [] => .ok value
  | c :: rest =>
    match digit? c with
    | none => .error .invalidDigit
    | some d =>
      let value := 10 * value + d
      if value ≤ bound then readDigits bound value rest else .error .tooLarge

/-- Reads a numeral of value at most `bound`. A sign alone is an invalid digit. -/
def read (bound : Nat) : List Char → Except Error Nat
  | [] => .error .empty
  | ['+'] => .error .invalidDigit
  | '+' :: digits => readDigits bound 0 digits
  | digits => readDigits bound 0 digits

end ChatRelay.Numeral
