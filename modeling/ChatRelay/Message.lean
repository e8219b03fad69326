import ChatRelay.Outpoint

/-!
# Chat messages

A chat message is authored by an outpoint and carries a signature and a payload. Encoded it is the
outpoint, the signature, the payload's length in two octets, least significant first, and the
payload. The bound on payloads is what lets the length be written in two octets and the whole
message fit in 65,536.
-/

namespace ChatRelay

/-- A message authored by an outpoint. -/
structure Message where
  outpoint : Outpoint
  signature : FixedBytes 64
  payload : Bytes
  length_payload_le : payload.length ≤ 65434
  deriving DecidableEq, Repr

namespace Message

/-- The length of what precedes the payload in an encoded message. -/
def headerLength : Nat := 102

/-- The length of the longest payload. -/
def maxPayloadLength : Nat := 65434

/-- The length of the longest encoded message. -/
def maxEncodedLength : Nat := headerLength + maxPayloadLength

/-- Why octets or parts make no message. -/
inductive Error where
  /-- Fewer octets than a header has. -/
  | invalidHeader (length : Nat)
  /-- A payload over the bound, or of which not all octets are there. -/
  | tooLarge (declared available : Nat)
  deriving DecidableEq, Repr

/-- The report of a fault. -/
def Error.message : Error → String
  | .invalidHeader length =>
    "invalid message header: need " ++ toString headerLength ++ " bytes, got " ++ toString length
  | .tooLarge declared available =>
    "message exceeds maximum size: payload of " ++ toString declared ++ " bytes, " ++
      toString available ++ " available (max " ++ toString maxPayloadLength ++ ")"

/-- The message with the given parts, unless its payload is too long. -/
def ofParts (outpoint : Outpoint) (signature : FixedBytes 64) (payload : Bytes) :
    Except Error Message :=
  if h : payload.length ≤ 65434 then .ok ⟨outpoint, signature, payload, h⟩
  else .error (.tooLarge payload.length payload.length)

/-- The length of the encoded message. -/
def encodedLength (message : Message) : Nat := headerLength + message.payload.length

/-- The encoded message. -/
def encode (message : Message) : Bytes :=
  message.outpoint.toBytes ++ message.signature.toList ++
    Bytes.ofNatLittle 2 message.payload.length ++ message.payload

/-- Reads the message that starts the octets; what follows it is not looked at. -/
def decode (bytes : Bytes) : Except Error Message :=
  let total := bytes.length
  if total < headerLength then .error (.invalidHeader total)
  else
    let declared := Bytes.toNatLittle ((bytes.drop 100).take 2)
    let available := total - headerLength
    if maxPayloadLength < declared ∨ available < declared then
      .error (.tooLarge declared available)
    else
      match Outpoint.ofBytes? (bytes.take 36), FixedBytes.ofList? 64 ((bytes.drop 36).take 64) with
      | some outpoint, some signature =>
        ofParts outpoint signature ((bytes.drop headerLength).take declared)
      | _, _ => .error (.invalidHeader total)

/-- The text that shows a message without its payload. -/
def describe (message : Message) : String :=
  "Message \x7b outpoint: " ++ message.outpoint.describe ++ ", signature: \"" ++
    Hex.encode message.signature.toList ++ "\", length: " ++ toString message.payload.length ++ " \x7d"

end Message

end ChatRelay
