import ChatRelay.Bytes.Hex

/-!
# Texts in TOML

A text is written between quotation marks or apostrophes, on one line between single marks or over
several lines between triple ones. Between quotation marks a backslash escapes. Control characters
other than the tab are never written as they are.
-/

namespace ChatRelay.Toml

/-- A blank inside a line. -/
def isBlank (c : Char) : Bool := c = ' ' || c = '\t'

/-- A character that may stand in a text or a comment as it is. -/
def isPlain (c : Char) : Bool := c = '\t' || (32 ≤ c.toNat && c.toNat ≠ 127)

/-- A character of a key without quotes. -/
def isKeyChar (c : Char) : Bool := c.isAlphanum || c = '-' || c = '_'

/-- A text behind its leading blanks. -/
def skipBlanks (text : List Char) : List Char := text.dropWhile isBlank

/-- How a text is written. -/
structure TextStyle where
  mark : Char
  /-- Whether a backslash escapes. -/
  escapes : Bool
  /-- Whether it runs over several lines, between triple marks. -/
  multiline : Bool
  deriving DecidableEq, Repr

/-- Where a reader is in a text of several lines. A backslash at the end of a line removes the line
end and the blanks and line ends behind it. -/
inductive Fold where
  | plain
  /-- Between the backslash and the end of its line. -/
  | pending
  | removing
  deriving DecidableEq, Repr

/-- The character with a number given by hexadecimal digits. Half of a surrogate pair is none. -/
def charOfHex? (digits : List Char) : Option Char := do
  let values ← digits.mapM fun c => if c.toNat < 128 then Hex.value? (UInt8.ofNat c.toNat) else none
  let n := values.foldl (fun n d => 16 * n + d) 0
  if n < 0xd800 ∨ 0xe000 ≤ n ∧ n < 0x110000 then some (Char.ofNat n) else none

/-- The character that a backslash and a letter stand for. -/
def unescape? : Char → Option Char
  | 'b' => some '\x08'
  | 't' => some '\t'
  | 'n' => some '\n'
  | 'f' => some '\x0c'
  | 'r' => some '\r'
  | '"' => some '"'
  | '\\' => some '\\'
  | _ => none

/-- Reads a text behind its opening marks, with what has been read of it, newest first. Up to two
marks may stand directly before closing triple marks. -/
def readText (style : TextStyle) (fold : Fold) (read : List Char) :
    List Char → Option (String × List Char)
  | [] => none
  | c :: rest =>
    if fold = .pending then
      if isBlank c then readText style .pending read rest
      else if c = '\n' then readText style .removing read rest
      else none
    else if fold = .removing ∧ (isBlank c ∨ c = '\n') then readText style .removing read rest
    else if c = style.mark then
      if style.multiline then
        if rest.take 2 = [style.mark, style.mark] then
          let extra := ((rest.drop 2).take 2).takeWhile (· = style.mark)
          some (String.ofList (extra ++ read).reverse, (rest.drop 2).drop extra.length)
        else readText style .plain (c :: read) rest
      else some (String.ofList read.reverse, rest)
    else if c = '\\' ∧ style.escapes then
      match rest with
      | 'u' :: a :: b :: c :: d :: rest =>
        match charOfHex? [a, b, c, d] with
        | some c => readText style .plain (c :: read) rest
        | none => none
      | 'U' :: a :: b :: c :: d :: e :: f :: g :: h :: rest =>
        match charOfHex? [a, b, c, d, e, f, g, h] with
        | some c => readText style .plain (c :: read) rest
        | none => none
      | c :: rest =>
        if style.multiline ∧ isBlank c then readText style .pending read rest
        else if style.multiline ∧ c = '\n' then readText style .removing read rest
        else
          match unescape? c with
          | some c => readText style .plain (c :: read) rest
          | none => none
      | [] => none
    else if isPlain c ∨ style.multiline ∧ c = '\n' then readText style .plain (c :: read) rest
    else none

/-- Reads a text that starts with its opening marks. A line end directly behind triple marks is left
out. -/
def readQuoted (mark : Char) (multilineAllowed : Bool) (text : List Char) :
    Option (String × List Char) :=
  let escapes : Bool := mark = '"'
  if multilineAllowed ∧ text.take 3 = [mark, mark, mark] then
    let body :=
      match text.drop 3 with
      | '\n' :: rest => rest
      | rest => rest
    readText ⟨mark, escapes, true⟩ .plain [] body
  else readText ⟨mark, escapes, false⟩ .plain [] (text.drop 1)

end ChatRelay.Toml
