import ChatRelay.Wire

/-!
# The greeting

Both ends of a connection begin by sending the same five octets: four of magic and a version. An end
goes on when it has read the other's greeting and found nothing wrong with it.
-/

namespace ChatRelay.Handshake

/-- The magic octets. -/
def magic : Bytes := [0x55, 0x54, 0x58, 0x43]

/-- The version of the protocol. -/
def version : UInt8 := 1

/-- What either end sends. -/
def greeting : Bytes := magic ++ [version]

/-- Reads the other end's greeting. Nothing is judged before all of it is there, and the magic is
judged before the version. -/
def read (received : Bytes) : Progress Unit :=
  match received with
  | a :: b :: c :: d :: v :: rest =>
    if [a, b, c, d] ≠ magic then .refused (.badMagic [a, b, c, d])
    else if v ≠ version then .refused (.unsupportedVersion v)
    else .complete () rest
  | _ => .incomplete .body

/-- How an exchange ends that receives nothing more: at the end of the stream if it has `ended`,
else when its time is up. On success what follows the greeting is left. -/
def conclude (received : Bytes) (ended : Bool) : Except WireError Bytes :=
  match read received with
  | .complete () rest => .ok rest
  | .refused cause => .error cause
  | .incomplete _ => .error (if ended then .endedInBody else .handshakeTimeout)

end ChatRelay.Handshake
