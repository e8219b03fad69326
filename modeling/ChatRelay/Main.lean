import ChatRelay.CommandLine.Client
import ChatRelay.CommandLine.Daemon

/-!
# The program

One program for both command lines: the word `daemon` in front of the others selects the daemon,
anything else is the client's. Files are those of the system; there are no sockets here, so a
delivery fails and a daemon ends where it would serve.
-/

namespace ChatRelay

open CommandLine

/-- What is said of a socket. -/
def noSockets : String := "Function not implemented (os error 38)"

/-- The refusal that an error of the system is. -/
def FileError.ofSystem : IO.Error → FileError
  | .noFileOrDirectory .. => .notFound
  | .alreadyExists .. => .alreadyExists
  | .inappropriateType .. => .isDirectory
  | cause => .other (toString cause)

/-- Tries an operation on files. -/
def attempt {α : Type} (action : IO α) : IO (Except FileError α) := do
  try
    return .ok (← action)
  catch cause => return .error (.ofSystem cause)

/-- Answers an operation on files. -/
def serveFiles : (call : FileCall) → IO call.Answer
  | .present path => do
    let opened ← attempt (discard (IO.FS.Handle.mk path .read))
    return opened.isOk
  | .read path => attempt do return (← IO.FS.readBinFile path).data.toList
  | .write path contents => attempt (IO.FS.writeBinFile path ⟨contents.toArray⟩)
  | .createDirectories path => attempt (IO.FS.createDirAll path)
  | .openStore path => do
    let made ← attempt (IO.FS.createDirAll path)
    return made.mapError fun cause => .databaseOpen "outpoints" cause.message
  | .makeClient _ => return .ok ()

/-- A secret key from the system's random octets, which are almost never out of range. -/
def drawSecret : Nat → IO SecretKey
  | 0 => throw (IO.userError SecretKey.malformedMessage)
  | tries + 1 => do
    match SecretKey.ofBytes? (← IO.getRandomBytes 32).data.toList with
    | some secret => return secret
    | none => drawSecret tries

/-- Answers the client. -/
def serveClient : (call : ClientCall) → IO call.Answer
  | .freshSecret => drawSecret 64
  | .connect _ _ => return .error (.other noSockets)
  | .exchangeGreetings _ => return .error .endedInBody
  | .write _ => return .error (.other noSockets)
  | .finish => return .error (.other noSockets)

/-- Runs the client. -/
def runClient (words : List String) : IO Nat := do
  match ClientOrder.read words with
  | .error halt => return halt.exitCode
  | .ok order =>
    match ← order.command.perform.runM serveClient with
    | .error cause =>
      IO.eprintln ("Error: " ++ cause.message)
      return 1
    | .ok report =>
      IO.print (order.print report)
      return 0

/-- Runs the daemon. -/
def runDaemon (words : List String) : IO Nat := do
  match DaemonOrder.read words with
  | .error halt =>
    if halt = .help then IO.println daemonTitle
    return halt.exitCode
  | .ok order =>
    let home := (← IO.getEnv "HOME").getD "."
    let result ← (order.perform (.defaults home)).runM serveFiles
    if let some line := result.firstLine? then IO.println line
    if let some line := result.complaint? then IO.eprintln line
    match result with
    | .served _ _ =>
      IO.eprintln noSockets
      return 1
    | _ => return result.exitCode

end ChatRelay

/-- Runs the program. -/
def main (words : List String) : IO UInt32 := do
  let code ←
    match words with
    | "daemon" :: rest => ChatRelay.runDaemon rest
    | words => ChatRelay.runClient words
  return UInt32.ofNat code
