import ChatRelay.Bytes
import ChatRelay.Ledger
import ChatRelay.Store

/-!
# Files

A routine that works on files asks for them by path. A path is a text whose parts are separated by
slashes; one that begins with a slash stands for itself, any other is taken from where the program
runs.
-/

namespace ChatRelay

/-- Why the system refuses an operation on a file. -/
inductive FileError where
  | notFound
  | alreadyExists
  | notDirectory
  | isDirectory
  | other (report : String)
  deriving DecidableEq, Repr

/-- The report of a refusal. -/
def FileError.message : FileError → String
  | .notFound => "No such file or directory (os error 2)"
  | .alreadyExists => "File exists (os error 17)"
  | .notDirectory => "Not a directory (os error 20)"
  | .isDirectory => "Is a directory (os error 21)"
  | .other report => report

namespace FilePath

/-- Whether a path stands for itself. -/
def isAbsolute (path : String) : Bool := path.toList.head? = some '/'

/-- A path as seen from a directory. One slash separates the two; nothing else is changed. -/
def join (directory path : String) : String :=
  if isAbsolute path ∨ directory.isEmpty then path
  else if directory.toList.getLast? = some '/' then directory ++ path
  else directory ++ "/" ++ path

/-- The parts between the slashes of a path. -/
def parts (path : String) : List String := path.splitOn "/"

/-- Whether a part of a path changes nothing. -/
def isIdle (part : String) : Bool := part = "" || part = "."

/-- The path of the directory that holds a file. The path without parts has none. -/
def parent? (path : String) : Option String :=
  let named := (parts path).filter (!isIdle ·)
  if named.isEmpty then none
  else
    let directory := "/".intercalate named.dropLast
    some (if isAbsolute path then "/" ++ directory else directory)

end FilePath

/-- An operation on files, or on what else the system keeps for a program. -/
inductive FileCall where
  /-- Whether there is something at a path. -/
  | present (path : String)
  | read (path : String)
  /-- Puts a file in the place of what was there. -/
  | write (path : String) (contents : Bytes)
  /-- Makes a directory and those above it, as far as they are missing. -/
  | createDirectories (path : String)
  /-- Opens the store that is kept at a path, or makes one, and counts what it records. -/
  | openStore (path : String)
  /-- Makes a client for the ledger's node that waits so many seconds for an answer. -/
  | makeClient (timeout : UInt64)
  deriving DecidableEq, Repr

/-- What an operation on files answers. -/
abbrev FileCall.Answer : FileCall → Type
  | .present _ => Bool
  | .read _ => Except FileError Bytes
  | .write _ _ => Except FileError Unit
  | .createDirectories _ => Except FileError Unit
  | .openStore _ => Except StoreError Unit
  | .makeClient _ => Except LedgerError Unit

/-- Asks for an operation on files. -/
def askFiles (call : FileCall) : Routine FileCall.Answer call.Answer := .ask call .done

end ChatRelay
