import ChatRelay.Bytes.Hex

/-!
# Reading from a stream

What a peer sends arrives in pieces. A reader looks at the octets received so far: they begin with a
complete item, or more are needed, or no continuation can make an item of them. What is needed tells
which failure it is when the stream ends there.
-/

namespace ChatRelay

/-- Why the octets of a connection cannot be read or written. Each is fatal to the connection. -/
inductive WireError where
  /-- The stream ended inside a count or a length. -/
  | endedInLength
  /-- The stream ended inside a greeting, an outpoint or a body. -/
  | endedInBody
  | unknownTag (tag : UInt8)
  | invalidDataLength (length bound : Nat)
  | badMagic (magic : Bytes)
  | unsupportedVersion (version : UInt8)
  | handshakeTimeout
  | frameTooLarge (count : Nat)
  deriving DecidableEq, Repr

/-- The report of a failure. -/
def WireError.message : WireError → String
  | .endedInLength => "I/O error: unexpected end of file"
  | .endedInBody => "I/O error: early eof"
  | .unknownTag tag => "unknown frame tag 0x" ++ Hex.encode [tag]
  | .invalidDataLength length bound =>
    "invalid data length " ++ toString length ++ " (max " ++ toString bound ++ ")"
  | .badMagic magic =>
    "bad handshake magic [" ++ ", ".intercalate (magic.map fun b => Hex.encode [b]) ++ "]"
  | .unsupportedVersion version => "unsupported protocol version " ++ toString version.toNat
  | .handshakeTimeout => "handshake timed out"
  | .frameTooLarge count =>
    "frame body of " ++ toString count ++ " items does not fit its length field"

/-- What is still needed of an item. -/
inductive Shortage where
  /-- All of it: the octets end between items. -/
  | item
  | length
  | body
  deriving DecidableEq, Repr

/-- The failure when a stream ends at a shortage; between items there is none. -/
def Shortage.failure? : Shortage → Option WireError
  | .item => none
  | .length => some .endedInLength
  | .body => some .endedInBody

/-- What the octets received so far begin with. -/
inductive Progress (α : Type) where
  | complete (item : α) (rest : Bytes)
  | incomplete (shortage : Shortage)
  | refused (cause : WireError)
  deriving DecidableEq, Repr

end ChatRelay
