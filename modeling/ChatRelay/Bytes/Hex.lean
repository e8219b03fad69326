import ChatRelay.Bytes

/-!
# Hexadecimal

Byte strings are written as two lower-case digits an octet and read in either case. The readers work
on the UTF-8 octets of a text and report the first fault: an odd number of digits, a length that
does not fit, then the first octet that is no digit with its position.
-/

namespace ChatRelay.Hex

/-- Why a text is not the hexadecimal form of a byte string. -/
inductive Error where
  | oddLength
  | wrongLength
  | invalidDigit (octet : UInt8) (position : Nat)
  deriving DecidableEq, Repr

/-- The digit for a number below sixteen. -/
def digit (n : Nat) : Char := "0123456789abcdef".toList.getD n '0'

/-- Two lower-case digits for each octet. -/
def encode (bytes : Bytes) : String :=
  String.ofList (bytes.flatMap fun b => [digit (b.toNat / 16), digit (b.toNat % 16)])

/-- The value of a digit of either case. -/
def value? (octet : UInt8) : Option Nat :=
  let c := octet.toNat
  if 48 ≤ c ∧ c ≤ 57 then some (c - 48)
  else if 97 ≤ c ∧ c ≤ 102 then some (c - 87)
  else if 65 ≤ c ∧ c ≤ 70 then some (c - 55)
  else none

/-- Reads pairs of digits; `position` counts the octets before them and `read` holds, newest first,
what has been read. A digit without a partner is reported as an odd length. -/
def decodePairs (position : Nat) (read : Bytes) : Bytes → Except Error Bytes
  | [] => .ok read.reverse
  | [_] => .error .oddLength
  | a :: b :: rest =>
    match value? a, value? b with
    | none, _ => .error (.invalidDigit a position)
    | some _, none => .error (.invalidDigit b (position + 1))
    | some x, some y => decodePairs (position + 2) (UInt8.ofNat (16 * x + y) :: read) rest

/-- Reads the octets written by a text of digits. -/
def decode (text : String) : Except Error Bytes :=
  let octets := Bytes.ofText text
  if octets.length % 2 = 1 then .error .oddLength else decodePairs 0 [] octets

/-- Reads exactly `n` octets. The length is judged before any digit. -/
def decodeFixed (n : Nat) (text : String) : Except Error (FixedBytes n) :=
  let octets := Bytes.ofText text
  if octets.length % 2 = 1 then .error .oddLength
  else if octets.length / 2 ≠ n then .error .wrongLength
  else do
    let bytes ← decodePairs 0 [] octets
    match FixedBytes.ofList? n bytes with
    | some bytes => .ok bytes
    | none => .error .wrongLength

/-- The least number of lower-case digits for a number. -/
def ofNat (n : Nat) : String := String.ofList (Nat.toDigits 16 n)

/-- A character of the first Unicode block as a quoted literal: the usual short escapes, a code
point in braces for what cannot be shown, and all else as it is. -/
def quoteOctet (octet : UInt8) : String :=
  let code := octet.toNat
  let inner :=
    if code = 0 then "\\0"
    else if code = 9 then "\\t"
    else if code = 10 then "\\n"
    else if code = 13 then "\\r"
    else if code = 39 then "\\'"
    else if code = 92 then "\\\\"
    else if code < 32 ∨ (127 ≤ code ∧ code ≤ 160) ∨ code = 173 then
      "\\u\x7b" ++ ofNat code ++ "\x7d"
    else String.singleton (Char.ofNat code)
  "'" ++ inner ++ "'"

/-- The report of a fault. -/
def Error.message : Error → String
  | .oddLength => "Odd number of digits"
  | .wrongLength => "Invalid string length"
  | .invalidDigit octet position =>
    "Invalid character " ++ quoteOctet octet ++ " at position " ++ toString position

end ChatRelay.Hex
