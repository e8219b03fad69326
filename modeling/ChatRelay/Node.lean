import ChatRelay.Admission.Slots
import ChatRelay.Node.Session
import ChatRelay.Wire.Handshake
import ChatRelay.Wire.Limits

/-!
# Nodes

A node has sockets with what has arrived on them and what has been sent, the registry, the
surroundings that serve store and ledger, and announcements that wait to be sent. It moves by turns:
a socket exchanges greetings, a session takes one frame and handles it, an announcement is sent, a
disconnection goes on. Turns may come in any order.
-/

namespace ChatRelay

/-- The two directions of a socket's stream. -/
structure Channel where
  /-- What has arrived and has not been read. -/
  inbox : Bytes
  /-- Whether the other end sends no more. -/
  ended : Bool
  /-- What has been sent, newest first. -/
  outbox : List Bytes
  limiter : RateLimiter Frame.Kind

/-- A channel on which only the greeting has been sent. -/
def Channel.fresh : Channel := ⟨[], false, [Handshake.greeting], Frame.limiter⟩

/-- An announcement on its way to a peer. -/
structure Announcement where
  peer : PeerId
  socket : Nat
  outpoint : Outpoint
  deriving DecidableEq, Repr

/-- A node in surroundings of type `σ`. -/
structure Node (σ : Type) where
  /-- The longest message that is read. -/
  maxMessage : Nat
  lifecycle : Lifecycle
  /-- The channels of the sockets, in their order. -/
  channels : List Channel
  slots : Slots
  world : σ
  announcements : List Announcement

/-- Why a connection could not be made. -/
inductive ConnectError where
  | alreadyConnected (address : Address)
  | handshakeFailed (address : Address) (cause : WireError)
  deriving DecidableEq, Repr

/-- The report of a failure. -/
def ConnectError.message : ConnectError → String
  | .alreadyConnected address => "Network error: already connected to " ++ address
  | .handshakeFailed address cause =>
    "Network error: handshake with " ++ address ++ " failed: " ++ cause.message

namespace Node

variable {σ : Type} (serve : (request : Request) → σ → request.Answer × σ)

/-- A node without connections, unless it asks for too many permits. -/
def start? (permits maxMessage : Nat) (world : σ) : Option (Node σ) :=
  (Lifecycle.start? permits).map fun lifecycle => ⟨maxMessage, lifecycle, [], .empty, world, []⟩

/-- Changes a channel. -/
def mapChannel (node : Node σ) (socket : Nat) (change : Channel → Channel) : Node σ :=
  { node with channels := node.channels.modify socket change }

/-- Changes the life of the connections by a step, if it can be taken. -/
def advance (node : Node σ) (step : Lifecycle → Option Lifecycle) : Node σ :=
  match step node.lifecycle with
  | some lifecycle => { node with lifecycle }
  | none => node

/-- Sends a frame on a socket, unless its peer is dead or the node shuts down. Tells whether it was
sent. -/
def send (node : Node σ) (socket : Nat) (frame : Frame) : Bool × Node σ :=
  if node.lifecycle.isCancelled socket then (false, node)
  else
    match frame.serialize with
    | .error _ => (false, node)
    | .ok bytes => (true, node.mapChannel socket fun c => { c with outbox := bytes :: c.outbox })

/-- Serves a request of the session on a socket, or of nobody's session. -/
def serveSession (socket : Option Nat) (request : SessionRequest) (node : Node σ) :
    request.Answer × Node σ :=
  match request with
  | .store call =>
    let (answer, world) := serve (.store call) node.world
    (answer, { node with world })
  | .decide message =>
    let (decision, slots, world) :=
      Admission.decideAlone serve message none node.slots node.world
    (decision, { node with slots, world })
  | .reply frame =>
    match socket with
    | some socket => node.send socket frame
    | none => (false, node)
  | .announce source outpoint =>
    let targets := node.lifecycle.registry.entries.filter fun entry => some entry.1 ≠ source
    ((),
      { node with
        announcements :=
          node.announcements ++ targets.map fun entry => ⟨entry.1, entry.2, outpoint⟩ })

/-- Runs a routine of the session on a socket, or of nobody's session, to its end. -/
def perform {α : Type} (socket : Option Nat) (routine : Routine SessionRequest.Answer α)
    (node : Node σ) : α × Node σ :=
  routine.run (serveSession serve socket) node

/-- A socket opens: a channel on which the greeting is sent at once. -/
def openChannel (node : Node σ) : Node σ := { node with channels := node.channels ++ [.fresh] }

/-- An inbound connection arrives. Returns its socket, or nothing if it is turned away. -/
def accept (node : Node σ) (address : Address) : Option Nat × Node σ :=
  match node.lifecycle.accept? address with
  | none => (none, node)
  | some lifecycle =>
    let before := node.lifecycle.sockets.length
    if lifecycle.sockets.length = before then (none, { node with lifecycle })
    else (some before, { node with lifecycle }.openChannel)

/-- Octets arrive on a socket. -/
def receive (node : Node σ) (socket : Nat) (bytes : Bytes) : Node σ :=
  node.mapChannel socket fun c => { c with inbox := c.inbox ++ bytes }

/-- The other end of a socket sends no more. -/
def endStream (node : Node σ) (socket : Nat) : Node σ :=
  node.mapChannel socket fun c => { c with ended := true }

/-- The other end's greeting fails, and the socket is closed. -/
def failGreeting (node : Node σ) (socket : Nat) : Node σ := node.advance (·.failed? socket)

/-- A greeting socket reads what has arrived. Returns the peer or the failure once there is one;
`late` says that the time for it is up. -/
def greet (node : Node σ) (socket : Nat) (late : Bool) :
    Option (Except WireError PeerId) × Node σ :=
  match node.channels[socket]? with
  | none => (none, node)
  | some channel =>
    match Handshake.read channel.inbox with
    | .incomplete _ =>
      if channel.ended then (some (.error .endedInBody), node.failGreeting socket)
      else if late then (some (.error .handshakeTimeout), node.failGreeting socket)
      else (none, node)
    | .refused cause => (some (.error cause), node.failGreeting socket)
    | .complete () rest =>
      match node.lifecycle.greeted? socket with
      | none => (none, node)
      | some (peer, lifecycle) =>
        (some (.ok peer),
          { node with lifecycle }.mapChannel socket fun c => { c with inbox := rest })

/-- The session of a peer takes a turn at time `now`: it notices that it is to end, or reads a frame
and handles it, if its kind's budget allows. Returns why it ends, if it does, or that there is
nothing to do. -/
def turn (now : Nat) (socket : Nat) (peer : PeerId) (node : Node σ) :
    Option (Option CloseReason) × Node σ :=
  if node.lifecycle.isCancelled socket then (some (some .shutdown), node)
  else
    match node.channels[socket]? with
    | none => (none, node)
    | some channel =>
      match Frame.read node.maxMessage channel.inbox with
      | .incomplete shortage =>
        if channel.ended then
          match shortage.failure? with
          | none => (some (some .endOfStream), node)
          | some cause => (some (some (.unreadable cause)), node)
        else (none, node)
      | .refused cause => (some (some (.unreadable cause)), node)
      | .complete frame rest =>
        let (accepted, limiter) := channel.limiter.check now frame.kind
        let node := node.mapChannel socket fun c => { c with inbox := rest, limiter }
        if accepted then
          let (reason, node) := node.perform serve (some socket) (Session.handle peer frame)
          (some reason, node)
        else (some none, node)

/-- A session ends: it disconnects its own peer, and its socket is closed. -/
def leave (node : Node σ) (socket : Nat) : Node σ := node.advance (·.ended? socket)

/-- Sends an announcement. A peer that cannot be sent to is disconnected. -/
def announce (node : Node σ) (announcement : Announcement) : Node σ :=
  let (sent, node) := node.send announcement.socket (.inv [announcement.outpoint])
  if sent then node else { node with lifecycle := node.lifecycle.depart announcement.peer }

/-- Takes the first announcement that waits and sends it. -/
def announceNext (node : Node σ) : Option (Node σ) :=
  match node.announcements with
  | [] => none
  | announcement :: rest => some ({ node with announcements := rest }.announce announcement)

end Node

end ChatRelay
