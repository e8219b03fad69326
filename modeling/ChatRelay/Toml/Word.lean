import ChatRelay.Toml
import ChatRelay.Bytes.Hex

/-!
# Words of TOML

A word is a value without quotes or brackets: a truth value, a number, a date or a time. Digits may
be grouped by single underscores between them.
-/

namespace ChatRelay.Toml

/-- What a word consists of. -/
def isWordChar (c : Char) : Bool :=
  c.isAlphanum || c = '+' || c = '-' || c = '_' || c = '.' || c = ':'

/-- The value of a digit in a base of at most sixteen. -/
def digit? (base : Nat) (c : Char) : Option Nat :=
  if c.toNat < 128 then
    match Hex.value? (UInt8.ofNat c.toNat) with
    | some d => if d < base then some d else none
    | none => none
  else none

/-- The digits of a base in grouped writing. Behind an underscore there is a digit. -/
def digits? (base : Nat) : List Char → Option (List Nat)
  | [] => none
  | [c] => (digit? base c).map fun d => [d]
  | c :: '_' :: rest => do return (← digit? base c) :: (← digits? base rest)
  | c :: rest => do return (← digit? base c) :: (← digits? base rest)

/-- The number that digits of a base stand for. -/
def ofDigits (base : Nat) (digits : List Nat) : Nat := digits.foldl (fun n d => base * n + d) 0

/-- A sign, if a word starts with one, as whether it is a minus. -/
def splitSign : List Char → Bool × List Char
  | '+' :: rest => (false, rest)
  | '-' :: rest => (true, rest)
  | word => (false, word)

/-- The digits of a whole decimal number. A leading zero stands alone. -/
def wholeDigits? : List Char → Option (List Nat)
  | ['0'] => some [0]
  | '0' :: _ => none
  | word => digits? 10 word

/-- The integer that a word is. Other bases have no sign. -/
def integer? (word : List Char) : Option Int := do
  let n : Int ←
    match word with
    | '0' :: 'x' :: rest => (digits? 16 rest).map fun ds => (ofDigits 16 ds : Int)
    | '0' :: 'o' :: rest => (digits? 8 rest).map fun ds => (ofDigits 8 ds : Int)
    | '0' :: 'b' :: rest => (digits? 2 rest).map fun ds => (ofDigits 2 ds : Int)
    | word =>
      let (negative, word) := splitSign word
      (wholeDigits? word).map fun ds =>
        if negative then -(ofDigits 10 ds : Int) else (ofDigits 10 ds : Int)
  if integerBounds.1 ≤ n ∧ n ≤ integerBounds.2 then return n else none

/-- Whether a decimal number is closest to a finite double. Beyond the last double, half a step
rounds up. -/
def isFinite (digits : List Nat) (exponent : Int) : Bool :=
  let digits := digits.dropWhile (· = 0)
  let places : Int := digits.length + exponent
  if digits.isEmpty ∨ places ≤ 308 then true
  else if 309 < places then false
  else
    let bound := Nat.pow 2 1024 - Nat.pow 2 970
    ofDigits 10 digits * Nat.pow 10 exponent.toNat < bound * Nat.pow 10 (-exponent).toNat

/-- Whether a word is a number with a fraction or an exponent. Above zero it is finite. -/
def isFloat (word : List Char) : Bool :=
  let (negative, unsigned) := splitSign word
  if unsigned = "inf".toList ∨ unsigned = "nan".toList then true
  else
    let isMark (c : Char) : Bool := c = 'e' || c = 'E'
    let mantissa := unsigned.takeWhile (!isMark ·)
    let whole := mantissa.takeWhile (· ≠ '.')
    let fraction : Option (List Nat) :=
      match mantissa.dropWhile (· ≠ '.') with
      | [] => some []
      | _ :: rest => digits? 10 rest
    let exponent : Option Int :=
      match unsigned.dropWhile (!isMark ·) with
      | [] => some 0
      | _ :: rest =>
        let (negative, rest) := splitSign rest
        (digits? 10 rest).map fun ds =>
          if negative then -(ofDigits 10 ds : Int) else (ofDigits 10 ds : Int)
    match wholeDigits? whole, fraction, exponent with
    | some whole, some fraction, some exponent =>
      unsigned.any (fun c => c = '.' || isMark c) &&
        (negative || isFinite (whole ++ fraction) (exponent - fraction.length))
    | _, _, _ => false

/-- The value of two decimal digits. -/
def pair? (a b : Char) : Option Nat := do return 10 * (← digit? 10 a) + (← digit? 10 b)

/-- The number of days of a month. -/
def daysOf (year month : Nat) : Nat :=
  if month = 2 then if year % 4 = 0 ∧ (year % 100 ≠ 0 ∨ year % 400 = 0) then 29 else 28
  else if month = 4 ∨ month = 6 ∨ month = 9 ∨ month = 11 then 30
  else 31

/-- Whether a word is a day of the calendar. -/
def isDate : List Char → Bool
  | [y₁, y₂, y₃, y₄, '-', m₁, m₂, '-', d₁, d₂] =>
    match pair? y₁ y₂, pair? y₃ y₄, pair? m₁ m₂, pair? d₁ d₂ with
    | some century, some year, some month, some day =>
      1 ≤ month && month ≤ 12 && 1 ≤ day && day ≤ daysOf (100 * century + year) month
    | _, _, _, _ => false
  | _ => false

/-- Whether two characters are a number of at most `bound`. -/
def isPairWithin (bound : Nat) (a b : Char) : Bool :=
  match pair? a b with
  | some n => n ≤ bound
  | none => false

/-- Whether a word is a time of day, a leap second included. -/
def isTime : List Char → Bool
  | h₁ :: h₂ :: ':' :: m₁ :: m₂ :: ':' :: s₁ :: s₂ :: rest =>
    isPairWithin 23 h₁ h₂ && isPairWithin 59 m₁ m₂ && isPairWithin 60 s₁ s₂ &&
      match rest with
      | [] => true
      | '.' :: fraction => !fraction.isEmpty && fraction.all (·.isDigit)
      | _ => false
  | _ => false

/-- Whether a word is a difference from universal time. -/
def isOffset : List Char → Bool
  | [] => true
  | [c] => c = 'Z' || c = 'z'
  | [sign, h₁, h₂, ':', m₁, m₂] =>
    (sign = '+' || sign = '-') && isPairWithin 23 h₁ h₂ && isPairWithin 59 m₁ m₂
  | _ => false

/-- Whether a word is a time of day with or without a difference from universal time. -/
def isZonedTime (word : List Char) : Bool :=
  let isTimeChar (c : Char) : Bool := c.isDigit || c = ':' || c = '.'
  isTime (word.takeWhile isTimeChar) && isOffset (word.dropWhile isTimeChar)

/-- Whether a word is a date, a time of day, or both. -/
def isMoment (word : List Char) : Bool :=
  isTime word || isDate (word.take 10) &&
    match word.drop 10 with
    | [] => true
    | mark :: time => (mark = 'T' || mark = 't') && isZonedTime time

/-- The value that a word is. -/
def ofWord? (word : List Char) : Option Toml :=
  if word = "true".toList then some (.boolean true)
  else if word = "false".toList then some (.boolean false)
  else if isMoment word then some (.moment (String.ofList word))
  else if isFloat word then some (.float (String.ofList word))
  else (integer? word).map .integer

end ChatRelay.Toml
