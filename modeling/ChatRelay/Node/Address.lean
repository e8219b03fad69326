import ChatRelay.Outpoint

/-!
# Addresses

The address of a socket is a host and a port behind the last colon.
-/

namespace ChatRelay

/-- The address of one end of a connection. -/
abbrev Address := String

/-- Why a text is no address. -/
inductive AddressError where
  | noPort
  | badPort
  deriving DecidableEq, Repr

/-- The report of a fault. -/
def AddressError.message : AddressError → String
  | .noPort => "invalid socket address"
  | .badPort => "invalid port value"

/-- The host and the port of an address. -/
def Address.parts (address : Address) : Except AddressError (String × UInt16) :=
  match Outpoint.splitAtLast ':' address.toList with
  | none => .error .noPort
  | some (host, port) =>
    match Numeral.read (UInt16.size - 1) port with
    | .ok port => .ok (String.ofList host, UInt16.ofNat port)
    | .error _ => .error .badPort

end ChatRelay
