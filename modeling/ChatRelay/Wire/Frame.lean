import ChatRelay.Wire
import ChatRelay.Outpoint

/-!
# Gossip frames

After the greeting a connection carries frames: a tag and a body. An announcement lists outpoints
whose messages its sender holds, a request names one outpoint, and a delivery holds one encoded
message. Counts and lengths are written with their least significant octet first.
-/

namespace ChatRelay

/-- A frame of the gossip protocol. -/
inductive Frame where
  /-- Announces outpoints whose messages the sender can serve. -/
  | inv (outpoints : List Outpoint)
  /-- Requests the message of an outpoint. -/
  | getData (outpoint : Outpoint)
  /-- Delivers an encoded message. -/
  | data (body : Bytes)
  deriving DecidableEq, Repr

namespace Frame

/-- The kinds of frames, for limits. -/
inductive Kind where
  | inv
  | getData
  | data
  deriving DecidableEq, Repr

/-- The octet that begins a frame of a kind. -/
def Kind.tag : Kind → UInt8
  | .inv => 1
  | .getData => 2
  | .data => 3

/-- The name of a kind. -/
def Kind.name : Kind → String
  | .inv => "inv"
  | .getData => "getdata"
  | .data => "data"

/-- The kind of a frame. -/
def kind : Frame → Kind
  | .inv _ => .inv
  | .getData _ => .getData
  | .data _ => .data

/-- The octets of a frame, unless its count or length does not fit its field. -/
def serialize (frame : Frame) : Except WireError Bytes :=
  match frame with
  | .inv outpoints =>
    if outpoints.length < UInt16.size then
      .ok (frame.kind.tag :: Bytes.ofNatLittle 2 outpoints.length ++
        outpoints.flatMap Outpoint.toBytes)
    else .error (.frameTooLarge outpoints.length)
  | .getData outpoint => .ok (frame.kind.tag :: outpoint.toBytes)
  | .data body =>
    if body.length < UInt32.size then
      .ok (frame.kind.tag :: Bytes.ofNatLittle 4 body.length ++ body)
    else .error (.frameTooLarge body.length)

/-- Reads `count` outpoints; `read` holds those before them, newest first. -/
def readOutpoints : Nat → List Outpoint → Bytes → Progress Frame
  | 0, read, rest => .complete (.inv read.reverse) rest
  | count + 1, read, bytes =>
    match Outpoint.ofBytes? (bytes.take 36) with
    | none => .incomplete .body
    | some outpoint => readOutpoints count (outpoint :: read) (bytes.drop 36)

/-- Reads a body of the given length. -/
def readBody (length : Nat) (bytes : Bytes) : Progress Frame :=
  let body := bytes.take length
  if body.length < length then .incomplete .body else .complete (.data body) (bytes.drop length)

/-- Reads the frame that begins the octets. A delivery's length is judged before its body is there:
it may be neither zero nor above `bound`. -/
def read (bound : Nat) : Bytes → Progress Frame
  | [] => .incomplete .item
  | tag :: bytes =>
    if tag = Kind.inv.tag then
      match bytes with
      | a :: b :: rest => readOutpoints (Bytes.toNatLittle [a, b]) [] rest
      | _ => .incomplete .length
    else if tag = Kind.getData.tag then
      match Outpoint.ofBytes? (bytes.take 36) with
      | none => .incomplete .body
      | some outpoint => .complete (.getData outpoint) (bytes.drop 36)
    else if tag = Kind.data.tag then
      match bytes with
      | a :: b :: c :: d :: rest =>
        let length := Bytes.toNatLittle [a, b, c, d]
        if length = 0 ∨ bound < length then .refused (.invalidDataLength length bound)
        else readBody length rest
      | _ => .incomplete .length
    else .refused (.unknownTag tag)

/-- Reads at most `fuel` frames of a stream that ends behind the octets: the frames and the failure
it ends with, if it does not end between frames. -/
def readMany (bound : Nat) : Nat → Bytes → List Frame × Option WireError
  | 0, _ => ([], none)
  | fuel + 1, bytes =>
    match read bound bytes with
    | .complete frame rest =>
      let (frames, failure) := readMany bound fuel rest
      (frame :: frames, failure)
    | .incomplete shortage => ([], shortage.failure?)
    | .refused cause => ([], some cause)

/-- Reads a whole stream. Every frame takes up at least one octet. -/
def readAll (bound : Nat) (bytes : Bytes) : List Frame × Option WireError :=
  readMany bound (bytes.length + 1) bytes

end Frame

end ChatRelay
