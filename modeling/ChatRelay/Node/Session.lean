import ChatRelay.Admission
import ChatRelay.Node.Lifecycle
import ChatRelay.Wire.Frame

/-!
# Sessions

A session handles the frames of one peer, one after the other. Announcements are answered by
requests for what is not recorded, requests by the cached message, and delivered messages are
decided and, once admitted, cached and announced to everyone else. Handling a frame is a routine
over what the node provides.
-/

namespace ChatRelay

/-- What a session asks of its node. -/
inductive SessionRequest where
  | store (call : StoreCall)
  /-- The decision on a message, through its outpoint's slot. -/
  | decide (message : Message)
  /-- Sends a frame to the session's own peer. -/
  | reply (frame : Frame)
  /-- Lets every registered peer but the source be sent an announcement. -/
  | announce (source : Option PeerId) (outpoint : Outpoint)

/-- What a request of a session is answered by. A reply tells whether it was sent. -/
abbrev SessionRequest.Answer : SessionRequest → Type
  | .store call => call.Answer
  | .decide _ => Except Rejection Admission
  | .reply _ => Bool
  | .announce _ _ => Unit

/-- Why a session ends. -/
inductive CloseReason where
  | endOfStream
  | shutdown
  /-- The stream cannot be read on. -/
  | unreadable (cause : WireError)
  /-- A frame could not be sent. -/
  | unwritable
  /-- A delivered message does not decode. -/
  | undecodable (cause : Message.Error)
  deriving DecidableEq, Repr

namespace Session

/-- A request as a routine. -/
def ask (request : SessionRequest) : Routine SessionRequest.Answer request.Answer :=
  .ask request .done

/-- Asks the peer for every outpoint that is not recorded, in order. An outpoint that cannot be
looked up is passed over. -/
def requestMissing : List Outpoint → Routine SessionRequest.Answer (Option CloseReason)
  | [] => return none
  | outpoint :: rest => do
    match ← ask (.store (.has outpoint)) with
    | .ok false =>
      if ← ask (.reply (.getData outpoint)) then requestMissing rest
      else return some .unwritable
    | _ => requestMissing rest

/-- Sends the cached message of an outpoint, if there is one. -/
def serveMessage (outpoint : Outpoint) : Routine SessionRequest.Answer (Option CloseReason) := do
  match ← ask (.store (.payload outpoint)) with
  | .ok (some body) => if ← ask (.reply (.data body)) then return none else return some .unwritable
  | _ => return none

/-- Caches a message and announces it to everyone but its source. Nothing is announced if the
outpoint is not recorded any more or the message cannot be cached. -/
def broadcast (source : Option PeerId) (outpoint : Outpoint) (payload : Bytes) :
    Routine SessionRequest.Answer Unit := do
  match ← ask (.store (.putPayload outpoint payload)) with
  | .ok true => ask (.announce source outpoint)
  | _ => return ()

/-- Decides a delivered message and passes it on when it is admitted, without what follows it in the
body. A rejection has no consequence for the peer. -/
def receiveMessage (self : PeerId) (body : Bytes) :
    Routine SessionRequest.Answer (Option CloseReason) := do
  match Message.decode body with
  | .error cause => return some (.undecodable cause)
  | .ok message =>
    match ← ask (.decide message) with
    | .error _ => return none
    | .ok _ => do
      broadcast (some self) message.outpoint (body.take message.encodedLength)
      return none

/-- Handles a frame of the peer `self`. Returns why the session ends, if it does. -/
def handle (self : PeerId) : Frame → Routine SessionRequest.Answer (Option CloseReason)
  | .inv outpoints => requestMissing outpoints
  | .getData outpoint => serveMessage outpoint
  | .data body => receiveMessage self body

/-- Decides a message that was made here, and passes it on when it is admitted. -/
def submit (message : Message) : Routine SessionRequest.Answer (Except Rejection Admission) := do
  match ← ask (.decide message) with
  | .error rejection => return .error rejection
  | .ok admission => do
    broadcast none admission.outpoint message.encode
    return .ok admission

end Session

end ChatRelay
