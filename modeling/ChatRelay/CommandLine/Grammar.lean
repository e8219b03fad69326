/-!
# The words of a command line

The words of a command line are options and others. An option is a flag or has one value, which
follows it or is written behind an equals sign; short flags may be written together, and a short
option's value directly behind it. Two dashes end the options. An option is given at most once, and
a word that names a command leaves the rest of the line to that command. Words are judged in their
order, so a request for help counts unless a fault comes before it.
-/

namespace ChatRelay.CommandLine

/-- Why a command line is not acted on. -/
inductive Halt where
  | help
  | usage
  deriving DecidableEq, Repr

/-- The exit code of a program that is not acted on. -/
def Halt.exitCode : Halt → Nat
  | .help => 0
  | .usage => 2

/-- An option. -/
structure Rule where
  short : Option Char
  long : String
  /-- Which values it may have. A flag has none. -/
  accepts : Option (String → Bool)

namespace Rule

/-- A flag. -/
def flag (short : Option Char) (long : String) : Rule := ⟨short, long, none⟩

/-- An option with any value. -/
def text (short : Option Char) (long : String) : Rule := ⟨short, long, some fun _ => true⟩

end Rule

/-- What a command line may consist of. -/
structure Grammar where
  rules : List Rule
  /-- The greatest number of other words. -/
  words : Nat
  commands : List String

/-- What has been read of a command line. -/
structure Reading where
  /-- The options by their long names, newest first. -/
  options : List (String × String)
  words : List String
  /-- A command and the words behind it. -/
  command : Option (String × List String)
  deriving DecidableEq, Repr

namespace Reading

/-- Nothing has been read. -/
def empty : Reading := ⟨[], [], none⟩

/-- Whether an option has been given. -/
def has (r : Reading) (long : String) : Bool := (r.options.lookup long).isSome

/-- The value of an option. -/
def value? (r : Reading) (long : String) : Option String := r.options.lookup long

/-- Takes an option with its value. -/
def give (r : Reading) (rule : Rule) (value : String) : Except Halt Reading :=
  if r.has rule.long then .error .usage
  else if rule.accepts.all (· value) then .ok { r with options := (rule.long, value) :: r.options }
  else .error .usage

end Reading

namespace Grammar

/-- Takes a word that is no option. -/
def addWord (g : Grammar) (r : Reading) (word : String) : Except Halt Reading :=
  if r.words.length < g.words then .ok { r with words := r.words ++ [word] } else .error .usage

/-- Reads a long option behind its dashes: whether it still needs a value. -/
def readLong (g : Grammar) (r : Reading) (text : List Char) : Except Halt (Reading × Option Rule) :=
  let name := String.ofList (text.takeWhile (· ≠ '='))
  let value : Option String :=
    match text.dropWhile (· ≠ '=') with
    | [] => none
    | _ :: value => some (String.ofList value)
  if name = "help" then .error (if value.isSome then .usage else .help)
  else
    match g.rules.find? (·.long = name) with
    | none => .error .usage
    | some rule =>
      match rule.accepts, value with
      | none, none => (r.give rule "").map fun r => (r, none)
      | none, some _ => .error .usage
      | some _, some value => (r.give rule value).map fun r => (r, none)
      | some _, none => .ok (r, some rule)

/-- Reads short options behind their dash: the one among them that still needs a value. -/
def readShort (g : Grammar) (r : Reading) : List Char → Except Halt (Reading × Option Rule)
  | [] => .ok (r, none)
  | c :: rest =>
    if c = 'h' then .error .help
    else
      match g.rules.find? (·.short = some c) with
      | none => .error .usage
      | some rule =>
        match rule.accepts, rest with
        | none, rest =>
          match r.give rule "" with
          | .error halt => .error halt
          | .ok r => readShort g r rest
        | some _, [] => .ok (r, some rule)
        | some _, '=' :: value => (r.give rule (String.ofList value)).map fun r => (r, none)
        | some _, value => (r.give rule (String.ofList value)).map fun r => (r, none)

/-- What a word begins with: two dashes, one dash, or neither. A dash alone is a word like any
other. -/
inductive Shape where
  | long (text : List Char)
  | short (text : List Char)
  | plain

/-- The shape of a word. -/
def shapeOf (word : String) : Shape :=
  match word.toList with
  | '-' :: '-' :: text => .long text
  | '-' :: c :: text => .short (c :: text)
  | _ => .plain

/-- Reads a word that is an option: whether it still needs a value. -/
def readOption (g : Grammar) (r : Reading) : Shape → Except Halt (Reading × Option Rule)
  | .long text => g.readLong r text
  | .short text => g.readShort r text
  | .plain => .ok (r, none)

/-- Reads the words of a command line. An option's value is never a word that looks like an
option. -/
def read (g : Grammar) (r : Reading) : List String → Except Halt Reading
  | [] => .ok r
  | word :: rest =>
    match shapeOf word with
    | .plain =>
      if word ∈ g.commands then .ok { r with command := some (word, rest) }
      else
        match g.addWord r word with
        | .error halt => .error halt
        | .ok r => g.read r rest
    | .long [] => rest.foldlM g.addWord r
    | shape =>
      match g.readOption r shape with
      | .error halt => .error halt
      | .ok (r, none) => g.read r rest
      | .ok (r, some rule) =>
        match rest with
        | [] => .error .usage
        | value :: rest =>
          match shapeOf value, r.give rule value with
          | .plain, .ok r => g.read r rest
          | _, _ => .error .usage

end Grammar

end ChatRelay.CommandLine
