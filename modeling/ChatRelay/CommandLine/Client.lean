import ChatRelay.Authoring
import ChatRelay.CommandLine.Grammar
import ChatRelay.Json
import ChatRelay.Node.Address
import ChatRelay.Routine
import ChatRelay.Wire.Frame

/-!
# The client

The client makes keys, signs messages, and delivers a signed message to a node: it connects,
exchanges greetings, and sends one frame. What it did is printed as JSON with sorted keys.
-/

namespace ChatRelay.CommandLine

/-- What the client is asked to do. -/
inductive ClientCommand where
  | makeKey
  | sign (authoring : Authoring)
  | send (node : Address) (seconds : UInt64) (authoring : Authoring)
  deriving DecidableEq, Repr

/-- A command and the form of its report. -/
structure ClientOrder where
  compact : Bool
  command : ClientCommand
  deriving DecidableEq, Repr

namespace ClientOrder

/-- The names of the schemes. -/
def schemeOf? : String → Option Scheme
  | "p2pkh" => some .keyHash
  | "taproot" => some .taproot
  | _ => none

/-- The number that a word is. -/
def secondsOf? (word : String) : Option UInt64 :=
  match Numeral.read (UInt64.size - 1) word.toList with
  | .ok n => some (UInt64.ofNat n)
  | .error _ => none

/-- The option that every command has. -/
def compactRule : Rule := .flag none "compact"

/-- The options that make a message. -/
def authoringRules : List Rule :=
  [.text (some 'o') "outpoint", .text (some 's') "secret",
    ⟨none, "scheme", some fun word => (schemeOf? word).isSome⟩]

/-- The names of the commands. -/
def commandNames : List String := ["keygen", "sign", "send", "help"]

/-- The words of a command. -/
def grammarOf (command : String) : Grammar :=
  match command with
  | "keygen" => ⟨[compactRule], 0, []⟩
  | "sign" => ⟨compactRule :: authoringRules, 1, []⟩
  | _ =>
    ⟨compactRule :: .text (some 'n') "node" ::
      ⟨none, "timeoutsecs", some fun word => (secondsOf? word).isSome⟩ :: authoringRules, 1, []⟩

/-- The message that options ask for. -/
def authoringOf (r : Reading) : Except Halt Authoring :=
  match r.value? "outpoint", r.value? "secret", r.words with
  | some outpoint, some secret, [text] =>
    .ok ⟨outpoint, secret, ((r.value? "scheme").bind schemeOf?).getD .keyHash, text⟩
  | _, _, _ => .error .usage

/-- The command that options ask for. -/
def commandOf (command : String) (r : Reading) : Except Halt ClientCommand :=
  match command with
  | "keygen" => .ok .makeKey
  | "sign" => (authoringOf r).map .sign
  | _ =>
    let node := (r.value? "node").getD "127.0.0.1:8335"
    let seconds := ((r.value? "timeoutsecs").bind secondsOf?).getD 10
    (authoringOf r).map (.send node seconds)

/-- Reads the words of the client's command line. -/
def read (words : List String) : Except Halt ClientOrder := do
  let top ← Grammar.read ⟨[compactRule], 0, commandNames⟩ .empty words
  match top.command with
  | none => .error .usage
  | some ("help", topics) =>
    if topics = [] ∨ topics ∈ commandNames.map fun name => [name] then .error .help
    else .error .usage
  | some (name, rest) =>
    let r ← (grammarOf name).read .empty rest
    let command ← commandOf name r
    return ⟨top.has "compact" || r.has "compact", command⟩

end ClientOrder

/-- Why nothing can be sent. -/
inductive TransportError where
  | badAddress (cause : AddressError)
  | refused
  | timedOut (address : Address)
  | other (report : String)
  deriving DecidableEq, Repr

/-- The report of a failure. -/
def TransportError.message : TransportError → String
  | .badAddress cause => cause.message
  | .refused => "Connection refused (os error 111)"
  | .timedOut address => "connecting to " ++ address ++ " timed out"
  | .other report => report

/-- What the client asks of its surroundings. -/
inductive ClientCall where
  /-- A secret key that nobody knows. -/
  | freshSecret
  | connect (address : Address) (seconds : UInt64)
  | exchangeGreetings (seconds : UInt64)
  | write (bytes : Bytes)
  /-- Nothing more will be written. -/
  | finish
  deriving DecidableEq, Repr

/-- What the client's questions are answered by. -/
abbrev ClientCall.Answer : ClientCall → Type
  | .freshSecret => SecretKey
  | .connect _ _ => Except TransportError Unit
  | .exchangeGreetings _ => Except WireError Unit
  | .write _ => Except TransportError Unit
  | .finish => Except TransportError Unit

/-- Asks the client's surroundings. -/
def askClient (call : ClientCall) : Routine ClientCall.Answer call.Answer := .ask call .done

/-- Why the client fails. -/
inductive ClientError where
  | authoring (cause : AuthoringError)
  | transport (cause : TransportError)
  | wire (cause : WireError)
  deriving DecidableEq, Repr

/-- The report of a failure. -/
def ClientError.message : ClientError → String
  | .authoring cause => cause.report
  | .transport cause => cause.message
  | .wire cause => cause.message

namespace ClientCommand

/-- A secret key and what follows from it. -/
def keyReport (secret : SecretKey) : Json :=
  let octets (bytes : Bytes) : Json := .string (Hex.encode bytes)
  .object
    [("p2pkh_script", octets (OwnerKey.keyHashScript secret.publicKey)),
      ("public_key", octets secret.publicKey.compressed),
      ("secret_key", octets secret.toBytes),
      ("taproot_script", octets (OwnerKey.taprootScript secret.xOnlyKey)),
      ("xonly_public_key", octets secret.xOnlyKey.toBytes)]

/-- A signed message with its encoded form. -/
def signReport (message : Message) : Json :=
  .object
    [("hex", .string (Hex.encode message.encode)), ("outpoint", .string message.outpoint.display),
      ("size", .ofNat message.encodedLength)]

/-- A message that has been delivered to a node. -/
def sendReport (node : Address) (message : Message) : Json :=
  .object
    [("delivered", .bool true), ("node", .string node), ("outpoint", .string message.outpoint.display),
      ("size", .ofNat message.encodedLength)]

/-- Delivers a message to a node. -/
def deliver (node : Address) (seconds : UInt64) (message : Message) :
    Routine ClientCall.Answer (Except ClientError Unit) := do
  match ← askClient (.connect node seconds) with
  | .error cause => return .error (.transport cause)
  | .ok () =>
    match ← askClient (.exchangeGreetings seconds) with
    | .error cause => return .error (.wire cause)
    | .ok () =>
      match (Frame.data message.encode).serialize with
      | .error cause => return .error (.wire cause)
      | .ok bytes =>
        match ← askClient (.write bytes) with
        | .error cause => return .error (.transport cause)
        | .ok () => return (← askClient .finish).mapError .transport

/-- Does what is asked and reports it. -/
def perform : ClientCommand → Routine ClientCall.Answer (Except ClientError Json)
  | .makeKey => do return .ok (keyReport (← askClient .freshSecret))
  | .sign authoring => .done ((authoring.compose.mapError .authoring).map signReport)
  | .send node seconds authoring =>
    match authoring.compose with
    | .error cause => .done (.error (.authoring cause))
    | .ok message => do return (← deliver node seconds message).map fun () => sendReport node message

end ClientCommand

/-- What the client prints when it has done what was asked. -/
def ClientOrder.print (order : ClientOrder) (report : Json) : String :=
  (if order.compact then report.compact else report.pretty) ++ "\n"

end ChatRelay.CommandLine
