import ChatRelay.Toml.Draft
import ChatRelay.Toml.Text
import ChatRelay.Toml.Word

/-!
# Reading TOML

A document is a sequence of lines: pairs of a key and a value, headers of tables, and headers of
tables that are listed. The lines are read one by one and put together to one table. Values and keys
nest to fewer than eighty levels.
-/

namespace ChatRelay.Toml

/-- A line of a document. -/
inductive Line where
  | pair (path : List String) (key : String) (value : Toml)
  | header (path : List String) (key : String)
  | element (path : List String) (key : String)
  deriving Repr

/-- How many levels a value or a key has at most. -/
def maxLevels : Nat := 79

/-- Skips blanks, line ends and comments, with whether a comment has begun. -/
def skipLines (comment : Bool) : List Char → Option (List Char)
  | [] => some []
  | c :: rest =>
    if c = '\n' then skipLines false rest
    else if comment then if isPlain c then skipLines true rest else none
    else if isBlank c then skipLines false rest
    else if c = '#' then skipLines true rest
    else some (c :: rest)

/-- What follows the end of a line, which has only blanks and a comment left. -/
def endLine (text : List Char) : Option (List Char) :=
  match skipBlanks text with
  | [] => some []
  | '\n' :: rest => some rest
  | '#' :: rest => some ('#' :: rest)
  | _ => none

/-- Reads one part of a key. -/
def readKeyPart (text : List Char) : Option (String × List Char) :=
  match text with
  | '"' :: _ => readQuoted '"' false text
  | '\'' :: _ => readQuoted '\'' false text
  | _ =>
    let part := text.takeWhile isKeyChar
    if part.isEmpty then none else some (String.ofList part, text.dropWhile isKeyChar)

/-- Reads a key of at most as many parts as told: its path and its last part. -/
def readKey : Nat → List Char → Option ((List String × String) × List Char)
  | 0, _ => none
  | limit + 1, text =>
    match readKeyPart (skipBlanks text) with
    | none => none
    | some (part, rest) =>
      match skipBlanks rest with
      | '.' :: rest => (readKey limit rest).map fun ((path, key), rest) => ((part :: path, key), rest)
      | rest => some (([], part), rest)

/-- Reads a word. A date and a time of day may stand apart by one blank. -/
def readWord (text : List Char) : Option (Toml × List Char) :=
  let word := text.takeWhile isWordChar
  let rest := text.dropWhile isWordChar
  let whole : Option (Toml × List Char) := (ofWord? word).map fun value => (value, rest)
  match rest with
  | ' ' :: next =>
    let time := next.takeWhile isWordChar
    if isDate word ∧ isZonedTime time then
      some (.moment (String.ofList (word ++ ' ' :: time)), next.dropWhile isWordChar)
    else whole
  | _ => whole

mutual

/-- Reads a value of at most `levels` further levels. Every call uses up a part of the text, whose
length bounds the calls. -/
def readValue : Nat → Nat → List Char → Option (Toml × List Char)
  | 0, _, _ => none
  | fuel + 1, levels, text =>
    match text, levels with
    | '"' :: _, _ => (readQuoted '"' true text).map fun (s, rest) => (.string s, rest)
    | '\'' :: _, _ => (readQuoted '\'' true text).map fun (s, rest) => (.string s, rest)
    | '[' :: rest, levels + 1 => readItems fuel levels [] rest
    | '\x7b' :: rest, levels + 1 =>
      match skipBlanks rest with
      | '\x7d' :: rest => some (.table [], rest)
      | rest => readPairs fuel levels [] rest
    | _, _ => readWord text

/-- Reads the items that are left of an array; `read` holds the others, newest first. A comma may
follow the last one. -/
def readItems : Nat → Nat → List Toml → List Char → Option (Toml × List Char)
  | 0, _, _, _ => none
  | fuel + 1, levels, read, text =>
    match skipLines false text with
    | some (']' :: rest) => some (.array read.reverse, rest)
    | some text =>
      match readValue fuel levels text with
      | none => none
      | some (item, rest) =>
        match skipLines false rest with
        | some (',' :: rest) => readItems fuel levels (item :: read) rest
        | some (']' :: rest) => some (.array (item :: read).reverse, rest)
        | _ => none
    | none => none

/-- Reads the pairs that are left of a table on one line; `read` holds what the others have made. -/
def readPairs : Nat → Nat → Draft.Entries → List Char → Option (Toml × List Char)
  | 0, _, _, _ => none
  | fuel + 1, levels, read, text =>
    match readKey maxLevels text with
    | some ((path, key), '=' :: rest) =>
      match readValue fuel levels (skipBlanks rest) with
      | none => none
      | some (value, rest) =>
        match Draft.addPair path key value read with
        | none => none
        | some read =>
          match skipBlanks rest with
          | ',' :: rest => readPairs fuel levels read rest
          | '\x7d' :: rest => some (.table (Draft.finishEntries read), rest)
          | _ => none
    | _ => none

end

/-- Reads a header up to its closing brackets. -/
def readHeader (closing : List Char) (text : List Char) :
    Option ((List String × String) × List Char) :=
  match readKey maxLevels text with
  | some (key, rest) =>
    if rest.take closing.length = closing then some (key, rest.drop closing.length) else none
  | none => none

/-- Reads a line without the end of the line. -/
def readLine (text : List Char) : Option (Line × List Char) :=
  match text with
  | '[' :: '[' :: rest =>
    (readHeader [']', ']'] rest).map fun ((path, key), rest) => (.element path key, rest)
  | '[' :: rest => (readHeader [']'] rest).map fun ((path, key), rest) => (.header path key, rest)
  | _ =>
    match readKey maxLevels text with
    | some ((path, key), '=' :: rest) =>
      (readValue (2 * rest.length + 2) maxLevels (skipBlanks rest)).map fun (value, rest) =>
        (.pair path key value, rest)
    | _ => none

/-- Reads lines; `read` holds the others, newest first. -/
def readLines : Nat → List Line → List Char → Option (List Line)
  | 0, _, _ => none
  | fuel + 1, read, text =>
    match skipLines false text with
    | none => none
    | some [] => some read.reverse
    | some text =>
      match readLine text with
      | none => none
      | some (line, rest) =>
        match endLine rest with
        | none => none
        | some rest => readLines fuel (line :: read) rest

/-- Puts lines together behind the last header. -/
def assemble (header : List String) (entries : Draft.Entries) : List Line → Option Draft.Entries
  | [] => some entries
  | .pair path key value :: rest =>
    match Draft.addPairBelow header path key value entries with
    | some entries => assemble header entries rest
    | none => none
  | .header path key :: rest =>
    match Draft.addHeader path key entries with
    | some entries => assemble (path ++ [key]) entries rest
    | none => none
  | .element path key :: rest =>
    match Draft.addElement path key entries with
    | some entries => assemble (path ++ [key]) entries rest
    | none => none

/-- Both kinds of line ends as one, the newline. -/
def unifyLineEnds : List Char → List Char
  | [] => []
  | '\r' :: '\n' :: rest => '\n' :: unifyLineEnds rest
  | c :: rest => c :: unifyLineEnds rest

/-- Reads a document. A byte-order mark at its start is skipped. -/
def read? (text : String) : Option (List (String × Toml)) :=
  let characters :=
    match text.toList with
    | '\ufeff' :: rest => rest
    | characters => characters
  let characters := unifyLineEnds characters
  match readLines (characters.length + 1) [] characters with
  | none => none
  | some lines => (assemble [] [] lines).map Draft.finishEntries

end ChatRelay.Toml
