import ChatRelay.Message
import ChatRelay.OwnerKey

/-!
# Authoring

An author names an outpoint and gives the secret key of its owner, both as text, and a text to say.
The outpoint is judged before the key, and the message's length last.
-/

namespace ChatRelay

/-- What a message is made of. -/
structure Authoring where
  outpoint : String
  secret : String
  scheme : Scheme
  text : String
  deriving DecidableEq, Repr

/-- Why no message can be made. -/
inductive AuthoringError where
  | outpoint (cause : Outpoint.ParseError)
  | secretText (cause : Hex.Error)
  | secret
  | message (cause : Message.Error)
  deriving DecidableEq, Repr

/-- The report of a fault. -/
def AuthoringError.report : AuthoringError → String
  | .outpoint cause => cause.message
  | .secretText cause => cause.message
  | .secret => SecretKey.malformedMessage
  | .message cause => cause.message

namespace Authoring

/-- The secret key of an author. -/
def secretKey (a : Authoring) : Except AuthoringError SecretKey :=
  match Hex.decode a.secret with
  | .error cause => .error (.secretText cause)
  | .ok octets =>
    match SecretKey.ofBytes? octets with
    | none => .error .secret
    | some secret => .ok secret

/-- The signed message of an author. -/
def compose (a : Authoring) : Except AuthoringError Message := do
  let outpoint ← (Outpoint.parse a.outpoint).mapError .outpoint
  let secret ← a.secretKey
  let (payload, signature) := secret.signBody a.scheme (Bytes.ofText a.text)
  (Message.ofParts outpoint signature payload).mapError .message

end Authoring

end ChatRelay
