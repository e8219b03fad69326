import ChatRelay.Decimal.Shortest
import ChatRelay.Bytes.Hex

/-!
# JSON values

Numbers are naturals, negative integers or doubles; an object is a list of fields in the order in
which they are written. Values are printed on one line or indented by two spaces a level.
-/

namespace ChatRelay

namespace Json

/-- A JSON number. A double is held by its bits. -/
inductive Number where
  | natural (n : Nat)
  /-- The integer `-(n + 1)`. -/
  | negative (n : Nat)
  | double (bits : UInt64)
  deriving DecidableEq, Repr

end Json

/-- A JSON value. -/
inductive Json where
  | null
  | bool (b : Bool)
  | number (n : Json.Number)
  | string (text : String)
  | array (items : List Json)
  | object (fields : List (String × Json))
  deriving Repr, Inhabited

namespace Json

/-- A natural number as a value. -/
def ofNat (n : Nat) : Json := .number (.natural n)

/-- A text or null. -/
def ofText? : Option String → Json
  | none => .null
  | some text => .string text

/-- The value of the field with a given name. -/
def field? (name : String) : Json → Option Json
  | .object fields => fields.lookup name
  | _ => none

/-- The text that a value is. -/
def text? : Json → Option String
  | .string text => some text
  | _ => none

/-- The natural number that a value is. -/
def nat? : Json → Option Nat
  | .number (.natural n) => some n
  | _ => none

/-- Digits with an exponent, as text. The point stands inside or beside at most sixteen digits or
behind at most five zeros; other numbers have one digit before the point and an exponent. -/
def decimalText (decimal : Decimal.Scaled) : String :=
  let digits := Nat.toDigits 10 decimal.digits
  let count := digits.length
  let point : Int := count + decimal.exponent
  let zeros (n : Nat) : List Char := List.replicate n '0'
  let body : List Char :=
    if 0 ≤ decimal.exponent ∧ point ≤ 16 then
      digits ++ zeros decimal.exponent.toNat ++ ['.', '0']
    else if 0 < point ∧ point ≤ 16 then
      digits.take point.toNat ++ '.' :: digits.drop point.toNat
    else if -5 < point ∧ point ≤ 0 then
      '0' :: '.' :: zeros (-point).toNat ++ digits
    else
      let mantissa := if count = 1 then digits else digits.take 1 ++ '.' :: digits.drop 1
      mantissa ++ 'e' :: (toString (point - 1)).toList
  String.ofList body

/-- The text of the double with the given bits. What is not finite has no number and is null. -/
def doubleText (bits : UInt64) : String :=
  let sign := if 0x8000000000000000 ≤ bits.toNat then "-" else ""
  let magnitude := bits.toNat % 0x8000000000000000
  if magnitude = 0 then sign ++ "0.0"
  else if 0x7ff0000000000000 ≤ magnitude then "null"
  else sign ++ decimalText (Decimal.shortest (.ofBits bits))

/-- The text of a number. -/
def Number.text : Number → String
  | .natural n => toString n
  | .negative n => "-" ++ toString (n + 1)
  | .double bits => doubleText bits

/-- A character inside quotes. Only quotes, backslashes and control characters are escaped. -/
def escape (c : Char) : List Char :=
  if c = '"' then ['\\', '"']
  else if c = '\\' then ['\\', '\\']
  else if c = '\n' then ['\\', 'n']
  else if c = '\r' then ['\\', 'r']
  else if c = '\t' then ['\\', 't']
  else if c = '\x08' then ['\\', 'b']
  else if c = '\x0c' then ['\\', 'f']
  else if c.toNat < 32 then
    '\\' :: 'u' :: '0' :: '0' :: [Hex.digit (c.toNat / 16), Hex.digit (c.toNat % 16)]
  else [c]

/-- A text in quotes. -/
def quote (text : String) : String :=
  "\"" ++ String.ofList (text.toList.flatMap escape) ++ "\""

mutual

/-- A value on one line. -/
def compact : Json → String
  | .null => "null"
  | .bool true => "true"
  | .bool false => "false"
  | .number n => n.text
  | .string text => quote text
  | .array items => "[" ++ compactItems "" items ++ "]"
  | .object fields => "\x7b" ++ compactFields "" fields ++ "\x7d"

/-- Items on one line, the first behind `separator`. -/
def compactItems (separator : String) : List Json → String
  | [] => ""
  | item :: rest => separator ++ compact item ++ compactItems "," rest

/-- Fields on one line, the first behind `separator`. -/
def compactFields (separator : String) : List (String × Json) → String
  | [] => ""
  | (name, value) :: rest =>
    separator ++ quote name ++ ":" ++ compact value ++ compactFields "," rest

end

/-- A new line at a level. -/
def indent (level : Nat) : String := "\n" ++ String.ofList (List.replicate (2 * level) ' ')

mutual

/-- A value over several lines, its parts at `level` and deeper. -/
def prettyAt (level : Nat) : Json → String
  | .array [] => "[]"
  | .object [] => "\x7b\x7d"
  | .array items => "[" ++ prettyItems (level + 1) "" items ++ indent level ++ "]"
  | .object fields => "\x7b" ++ prettyFields (level + 1) "" fields ++ indent level ++ "\x7d"
  | value => compact value

/-- Items on lines of their own, the first behind `separator`. -/
def prettyItems (level : Nat) (separator : String) : List Json → String
  | [] => ""
  | item :: rest =>
    separator ++ indent level ++ prettyAt level item ++ prettyItems level "," rest

/-- Fields on lines of their own, the first behind `separator`. -/
def prettyFields (level : Nat) (separator : String) : List (String × Json) → String
  | [] => ""
  | (name, value) :: rest =>
    separator ++ indent level ++ quote name ++ ": " ++ prettyAt level value ++
      prettyFields level "," rest

end

/-- A value over several lines, indented by two spaces a level. -/
def pretty (value : Json) : String := prettyAt 0 value

end Json

end ChatRelay
