import ChatRelay.Json

/-!
# Reading JSON

A text is read in two steps. The first recognizes the grammar and keeps numbers as they are written,
fields that are given twice, and which strings hold half of a surrogate pair. The second makes a
value of such a tree: of equal field names the last counts, numbers must be finite, strings must be
texts and nesting is bounded. A reader that skips a part of a tree asks nothing beyond the grammar
of it.
-/

namespace ChatRelay.Json

/-- A number as it is written. -/
structure Numeral where
  negative : Bool
  whole : List Nat
  fraction : Option (List Nat)
  exponent : Option Int
  deriving DecidableEq, Repr

/-- A text read by the grammar alone. A string without a text has half of a surrogate pair in it. -/
inductive Tree where
  | null
  | bool (b : Bool)
  | number (n : Numeral)
  | string (text : Option String)
  | array (items : List Tree)
  | object (fields : List (Option String × Tree))
  deriving Repr, Inhabited

/-- What may stand between tokens. -/
def isBlank (c : Char) : Bool := c = ' ' || c = '\n' || c = '\t' || c = '\r'

/-- A text behind its leading blanks. -/
def skipBlanks (text : List Char) : List Char := text.dropWhile isBlank

/-- The value of four hexadecimal digits. -/
def unit? (a b c d : Char) : Option Nat := do
  let digit (c : Char) : Option Nat := if c.toNat < 128 then Hex.value? (UInt8.ofNat c.toNat) else none
  return 4096 * (← digit a) + 256 * (← digit b) + 16 * (← digit c) + (← digit d)

/-- What has been read of a string: its characters, newest first, the first half of a surrogate pair
when one has just been read, and whether some half has no partner. -/
structure Partial where
  read : List Char
  half : Option Nat
  lone : Bool

namespace Partial

/-- Adds a character. -/
def push (p : Partial) (c : Char) : Partial := ⟨c :: p.read, none, p.lone || p.half.isSome⟩

/-- Adds a code unit: half of a pair waits for the other half. -/
def pushUnit (p : Partial) (u : Nat) : Partial :=
  if 0xd800 ≤ u ∧ u < 0xdc00 then ⟨p.read, some u, p.lone || p.half.isSome⟩
  else if 0xdc00 ≤ u ∧ u < 0xe000 then
    match p.half with
    | some high =>
      ⟨Char.ofNat (0x10000 + 1024 * (high - 0xd800) + (u - 0xdc00)) :: p.read, none, p.lone⟩
    | none => ⟨p.read, none, true⟩
  else p.push (Char.ofNat u)

/-- The finished string. -/
def text? (p : Partial) : Option String :=
  if p.lone || p.half.isSome then none else some (String.ofList p.read.reverse)

end Partial

/-- The character that a backslash and a letter stand for. -/
def unescape? : Char → Option Char
  | '"' => some '"'
  | '\\' => some '\\'
  | '/' => some '/'
  | 'b' => some '\x08'
  | 'f' => some '\x0c'
  | 'n' => some '\n'
  | 'r' => some '\r'
  | 't' => some '\t'
  | _ => none

/-- Reads the rest of a string behind its opening quote. -/
def readString (p : Partial) : List Char → Option (Option String × List Char)
  | [] => none
  | '"' :: rest => some (p.text?, rest)
  | '\\' :: 'u' :: a :: b :: c :: d :: rest =>
    match unit? a b c d with
    | some u => readString (p.pushUnit u) rest
    | none => none
  | '\\' :: c :: rest =>
    match unescape? c with
    | some c => readString (p.push c) rest
    | none => none
  | c :: rest => if c.toNat < 32 || c = '\\' then none else readString (p.push c) rest

/-- The digits that start a text, and what follows them. -/
def readDigits (text : List Char) : List Nat × List Char :=
  ((text.takeWhile (·.isDigit)).map (fun c => c.toNat - '0'.toNat), text.dropWhile (·.isDigit))

/-- The number that digits stand for. -/
def numberOf (digits : List Nat) : Nat := digits.foldl (fun n d => 10 * n + d) 0

/-- Reads the fraction of a number, if one follows. A point without digits is refused. -/
def readFraction : List Char → Option (Option (List Nat) × List Char)
  | '.' :: rest =>
    match readDigits rest with
    | ([], _) => none
    | (digits, rest) => some (some digits, rest)
  | rest => some (none, rest)

/-- Reads the exponent of a number, if one follows. -/
def readExponent (text : List Char) : Option (Option Int × List Char) :=
  let digits (sign : Int) (rest : List Char) : Option (Option Int × List Char) :=
    match readDigits rest with
    | ([], _) => none
    | (digits, rest) => some (some (sign * numberOf digits), rest)
  match text with
  | c :: rest =>
    if c = 'e' ∨ c = 'E' then
      match rest with
      | '+' :: rest => digits 1 rest
      | '-' :: rest => digits (-1) rest
      | rest => digits 1 rest
    else some (none, text)
  | [] => some (none, text)

/-- Reads a number. A leading zero stands alone. -/
def readNumber (text : List Char) : Option (Numeral × List Char) :=
  let (negative, text) :=
    match text with
    | '-' :: rest => (true, rest)
    | text => (false, text)
  match readDigits text with
  | ([], _) => none
  | (0 :: _ :: _, _) => none
  | (whole, rest) => do
    let (fraction, rest) ← readFraction rest
    let (exponent, rest) ← readExponent rest
    return (⟨negative, whole, fraction, exponent⟩, rest)

mutual

/-- Reads a value. Every call uses up a part of the text, whose length bounds the calls. -/
def readValue : Nat → List Char → Option (Tree × List Char)
  | 0, _ => none
  | fuel + 1, text =>
    match skipBlanks text with
    | 'n' :: 'u' :: 'l' :: 'l' :: rest => some (.null, rest)
    | 't' :: 'r' :: 'u' :: 'e' :: rest => some (.bool true, rest)
    | 'f' :: 'a' :: 'l' :: 's' :: 'e' :: rest => some (.bool false, rest)
    | '"' :: rest =>
      match readString ⟨[], none, false⟩ rest with
      | some (text, rest) => some (.string text, rest)
      | none => none
    | '[' :: rest =>
      match skipBlanks rest with
      | ']' :: rest => some (.array [], rest)
      | rest => readItems fuel [] rest
    | '\x7b' :: rest =>
      match skipBlanks rest with
      | '\x7d' :: rest => some (.object [], rest)
      | rest => readFields fuel [] rest
    | rest =>
      match readNumber rest with
      | some (n, rest) => some (.number n, rest)
      | none => none

/-- Reads the items that are left of an array; `read` holds the others, newest first. -/
def readItems : Nat → List Tree → List Char → Option (Tree × List Char)
  | 0, _, _ => none
  | fuel + 1, read, text =>
    match readValue fuel text with
    | none => none
    | some (item, rest) =>
      match skipBlanks rest with
      | ',' :: rest => readItems fuel (item :: read) rest
      | ']' :: rest => some (.array (item :: read).reverse, rest)
      | _ => none

/-- Reads the fields that are left of an object; `read` holds the others, newest first. -/
def readFields : Nat → List (Option String × Tree) → List Char → Option (Tree × List Char)
  | 0, _, _ => none
  | fuel + 1, read, text =>
    match skipBlanks text with
    | '"' :: rest =>
      match readString ⟨[], none, false⟩ rest with
      | none => none
      | some (name, rest) =>
        match skipBlanks rest with
        | ':' :: rest =>
          match readValue fuel rest with
          | none => none
          | some (value, rest) =>
            match skipBlanks rest with
            | ',' :: rest => readFields fuel ((name, value) :: read) rest
            | '\x7d' :: rest => some (.object ((name, value) :: read).reverse, rest)
            | _ => none
        | _ => none
    | _ => none

end

/-- Reads a text that holds one value and blanks. -/
def readTree (text : String) : Option Tree :=
  let characters := text.toList
  match readValue (2 * characters.length + 2) characters with
  | some (tree, rest) => if (skipBlanks rest).isEmpty then some tree else none
  | none => none

/-- The largest natural that a number keeps exactly. -/
def maxNatural : Nat := UInt64.size - 1

/-- Digits taken into a significand while it stays within its bound, and the number of digits left
over. -/
def significand (start : Nat) : List Nat → Nat × Nat
  | [] => (start, 0)
  | d :: rest =>
    if 10 * start + d ≤ maxNatural then significand (10 * start + d) rest
    else (start, rest.length + 1)

/-- A significand times a power of ten, as a double. A factor of ten to the power 308 is taken out
as long as the exponent is below the range of doubles. Nothing if the product is not finite. -/
def scale : Nat → Float → Int → Option Float
  | 0, f, _ => some f
  | fuel + 1, f, e =>
    let power (n : Nat) : Float := Float.ofScientific 1 false n
    if 0 ≤ e then
      if e ≤ 308 then
        let f := f * power e.toNat
        if f.isInf then none else some f
      else if f == 0.0 then some f
      else none
    else if -308 ≤ e then some (f / power (-e).toNat)
    else if f == 0.0 then some f
    else scale fuel (f / power 308) (e + 308)

/-- The number that a numeral stands for. Integers beyond 64 bits and minus zero are doubles. -/
def Numeral.value? (n : Numeral) : Option Number :=
  let (whole, beyond) := significand 0 n.whole
  if n.fraction.isNone ∧ n.exponent.isNone ∧ beyond = 0 ∧ ¬ n.negative then some (.natural whole)
  else if n.fraction.isNone ∧ n.exponent.isNone ∧ beyond = 0 ∧ 0 < whole ∧ whole ≤ 0x8000000000000000 then
    some (.negative (whole - 1))
  else
    let fraction := n.fraction.getD []
    let (digits, dropped) := significand whole fraction
    let exponent : Int := beyond - (fraction.length - dropped : Nat) + n.exponent.getD 0
    match scale 4 (UInt64.ofNat digits).toFloat exponent with
    | some f => some (.double (if n.negative then -f else f).toBits)
    | none => none

/-- Sets a field among fields that are sorted by name. -/
def setField (name : String) (value : Json) : List (String × Json) → List (String × Json)
  | [] => [(name, value)]
  | (other, old) :: rest =>
    if name = other then (name, value) :: rest
    else if name < other then (name, value) :: (other, old) :: rest
    else (other, old) :: setField name value rest

mutual

/-- The value of a tree, with fewer than `depth` levels of arrays and objects and its fields sorted
by name; of equal names the last counts. -/
def Tree.value? (depth : Nat) : Tree → Option Json
  | .null => some .null
  | .bool b => some (.bool b)
  | .number n => n.value?.map .number
  | .string text => text.map .string
  | .array items => if depth ≤ 1 then none else (Tree.values? (depth - 1) items).map .array
  | .object fields =>
    if depth ≤ 1 then none else (Tree.fields? (depth - 1) [] fields).map .object

/-- The values of items. -/
def Tree.values? (depth : Nat) : List Tree → Option (List Json)
  | [] => some []
  | item :: rest =>
    match Tree.value? depth item, Tree.values? depth rest with
    | some item, some rest => some (item :: rest)
    | _, _ => none

/-- The fields behind those that are `read`. -/
def Tree.fields? (depth : Nat) (read : List (String × Json)) :
    List (Option String × Tree) → Option (List (String × Json))
  | [] => some read
  | (name, value) :: rest =>
    match name, Tree.value? depth value with
    | some name, some value => Tree.fields? depth (setField name value read) rest
    | _, _ => none

end

/-- Reads a text as a value. -/
def read? (text : String) : Option Json :=
  match readTree text with
  | some tree => tree.value? 128
  | none => none

end ChatRelay.Json
