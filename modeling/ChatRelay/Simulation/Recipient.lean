import ChatRelay.CommandLine.Client
import ChatRelay.Wire.Handshake

/-!
# A node to deliver to

A listening node that sends what it is told to and keeps what it receives. At every other address
nobody listens.
-/

namespace ChatRelay.Simulation

open CommandLine

/-- A listening node, and the key that the client gets when it asks for a fresh one. -/
structure Recipient where
  address : Address
  /-- What the node sends to whoever connects. A node that sends less than a greeting then ends its
  stream. -/
  greeting : Bytes
  secret : SecretKey
  /-- What has arrived, newest first. -/
  received : List Bytes

namespace Recipient

/-- Answers the client. -/
def serve : (call : ClientCall) → Recipient → call.Answer × Recipient
  | .freshSecret, r => (r.secret, r)
  | .connect address _, r =>
    if address = r.address then (.ok (), r)
    else
      match Address.parts address with
      | .error cause => (.error (.badAddress cause), r)
      | .ok _ => (.error .refused, r)
  | .exchangeGreetings _, r =>
    ((Handshake.conclude r.greeting (r.greeting.length < Handshake.greeting.length)).map fun _ => (),
      { r with received := Handshake.greeting :: r.received })
  | .write bytes, r => (.ok (), { r with received := bytes :: r.received })
  | .finish, r => (.ok (), r)

end Recipient

end ChatRelay.Simulation
