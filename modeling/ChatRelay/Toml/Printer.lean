import ChatRelay.Toml
import ChatRelay.Toml.Text

/-!
# Writing TOML

A document of sections is written with an empty line between sections and one pair a line. A text is
quoted in the plainest style that needs no escapes: between quotation marks, else between
apostrophes, else between triple marks; only a text that none of them takes is escaped. A list of
more than one item has an item a line.
-/

namespace ChatRelay.Toml

/-- The length of the longest run of a character. -/
def longestRun (mark : Char) (text : List Char) : Nat :=
  (text.foldl
    (fun (current, longest) c =>
      let current := if c = mark then current + 1 else 0
      (current, max longest current))
    (0, 0)).2

/-- Whether a text has control characters other than tabs and newlines. -/
def hasControls (text : List Char) : Bool :=
  text.any fun c => c ≠ '\t' && c ≠ '\n' && (c.toNat < 32 || c.toNat = 127)

/-- The style in which a text is written. -/
def styleOf (text : List Char) : TextStyle :=
  let newline := text.contains '\n'
  let backslash := text.contains '\\'
  let quotes := longestRun '"' text
  let apostrophes := longestRun '\'' text
  if hasControls text then ⟨'"', true, newline⟩
  else if ¬ backslash ∧ quotes = 0 ∧ ¬ newline then ⟨'"', true, false⟩
  else if apostrophes = 0 ∧ ¬ newline then ⟨'\'', false, false⟩
  else if ¬ backslash ∧ quotes ≤ 2 then ⟨'"', true, true⟩
  else if apostrophes ≤ 2 then ⟨'\'', false, true⟩
  else ⟨'"', true, newline⟩

/-- A character between quotation marks. Newlines stay inside triple marks. -/
def escape (multiline : Bool) (c : Char) : List Char :=
  if c = '\x08' then ['\\', 'b']
  else if c = '\t' then ['\\', 't']
  else if c = '\n' then if multiline then [c] else ['\\', 'n']
  else if c = '\x0c' then ['\\', 'f']
  else if c = '\r' then ['\\', 'r']
  else if c = '\\' then ['\\', '\\']
  else if c.toNat < 32 ∨ c.toNat = 127 then
    '\\' :: 'u' :: '0' :: '0' ::
      [(Hex.digit (c.toNat / 16)).toUpper, (Hex.digit (c.toNat % 16)).toUpper]
  else [c]

/-- Characters between quotation marks, behind a run of `quotes` of them. A run never closes the
text. -/
def escapeAll (multiline : Bool) (quotes : Nat) : List Char → List Char
  | [] => []
  | c :: rest =>
    if c = '"' then
      if quotes < (if multiline then 2 else 0) then c :: escapeAll multiline (quotes + 1) rest
      else '\\' :: c :: escapeAll multiline 0 rest
    else escape multiline c ++ escapeAll multiline 0 rest

/-- A text in quotes. -/
def quote (text : String) : String :=
  let characters := text.toList
  let style := styleOf characters
  let marks := String.ofList (List.replicate (if style.multiline then 3 else 1) style.mark)
  let start := if style.multiline ∧ characters.contains '\n' then "\n" else ""
  let body := if style.escapes then escapeAll style.multiline 0 characters else characters
  marks ++ start ++ String.ofList body ++ marks

/-- A key, in quotes if it has other characters than letters, digits, dashes and underscores. -/
def keyText (key : String) : String :=
  let characters := key.toList
  if characters ≠ [] ∧ characters.all isKeyChar then key else quote key

mutual

/-- Whether a document can hold all integers of a value. -/
def isWritable : Toml → Bool
  | .integer n => integerBounds.1 ≤ n ∧ n ≤ integerBounds.2
  | .array items => areWritable items
  | .table entries => haveWritable entries
  | _ => true

/-- Whether a document can hold all integers of the items. -/
def areWritable : List Toml → Bool
  | [] => true
  | item :: rest => isWritable item && areWritable rest

/-- Whether a document can hold all integers of the entries. -/
def haveWritable : List (String × Toml) → Bool
  | [] => true
  | (_, value) :: rest => isWritable value && haveWritable rest

end

mutual

/-- A value on one line. -/
def inlineText : Toml → String
  | .string text => quote text
  | .integer n => toString n
  | .float text => text
  | .boolean true => "true"
  | .boolean false => "false"
  | .moment text => text
  | .array items => "[" ++ inlineItems "" items ++ "]"
  | .table [] => "\x7b\x7d"
  | .table entries => "\x7b" ++ inlineEntries " " entries ++ " \x7d"

/-- Items on one line, the first behind `separator`. -/
def inlineItems (separator : String) : List Toml → String
  | [] => ""
  | item :: rest => separator ++ inlineText item ++ inlineItems ", " rest

/-- Entries on one line, the first behind `separator`. -/
def inlineEntries (separator : String) : List (String × Toml) → String
  | [] => ""
  | (key, value) :: rest =>
    separator ++ keyText key ++ " = " ++ inlineText value ++ inlineEntries ", " rest

end

/-- A value behind its key, over several lines if it lists more than one item. -/
def valueText : Toml → String
  | .array (first :: second :: rest) =>
    let line (item : Toml) : String := "    " ++ inlineText item ++ ",\n"
    "[\n" ++ String.join ((first :: second :: rest).map line) ++ "]"
  | value => inlineText value

/-- A section: its header and a line for each pair. -/
def sectionText (name : String) (entries : List (String × Toml)) : String :=
  let line (entry : String × Toml) : String := keyText entry.1 ++ " = " ++ valueText entry.2 ++ "\n"
  "[" ++ keyText name ++ "]\n" ++ String.join (entries.map line)

/-- A document of sections, unless some integer is beyond its bounds. -/
def render? (sections : List (String × List (String × Toml))) : Option String :=
  if sections.all fun entry => haveWritable entry.2 then
    some (String.intercalate "\n" (sections.map fun entry => sectionText entry.1 entry.2))
  else none

end ChatRelay.Toml
