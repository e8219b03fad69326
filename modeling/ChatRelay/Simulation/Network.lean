import ChatRelay.Node
import ChatRelay.Simulation.Scenario

/-!
# A node among scripted peers

A node in a scripted world, with peers that send what they are told to. After every step the node
takes turns until there is nothing left to do; what its peers have received and which connections it
has ended can then be read off.
-/

namespace ChatRelay

namespace Node

variable {σ : Type} (serve : (request : Request) → σ → request.Answer × σ)

/-- A turn that some socket, announcement or departure can take, with all frames read at time zero.
What is under way is brought to its end before a session goes on. -/
def nextTurn (node : Node σ) : Option (Node σ) :=
  let sockets := node.lifecycle.sockets.zipIdx
  let listener := if node.lifecycle.listening then node.lifecycle.closeListener? else none
  let departure := (List.range node.lifecycle.departures.length).findSome? node.lifecycle.departed?
  let finished := sockets.findSome? fun (_, i) => node.lifecycle.finished? i
  match listener <|> departure <|> finished with
  | some lifecycle => some { node with lifecycle }
  | none =>
    match node.announceNext with
    | some node => some node
    | none =>
      sockets.findSome? fun (socket, i) =>
        match socket.stage with
        | .greeting =>
          match node.greet i false with
          | (some _, node) => some node
          | (none, _) => none
        | .active peer =>
          match node.turn serve 0 i peer with
          | (none, _) => none
          | (some none, node) => some node
          | (some (some _), node) => some (node.leave i)
        | _ => none

/-- Takes at most `fuel` turns. -/
def settleWithin : Nat → Node σ → Node σ
  | 0, node => node
  | fuel + 1, node =>
    match node.nextTurn serve with
    | some node => settleWithin fuel node
    | none => node

/-- Takes turns until there is nothing left to do. A session's turn uses up an octet of what has
arrived and causes at most one announcement for each peer; everything else happens a few times for
each socket, announcement and departure. -/
def settle (node : Node σ) : Node σ :=
  let waiting := node.channels.foldl (fun n channel => n + channel.inbox.length) 0
  let sockets := node.lifecycle.sockets.length
  node.settleWithin serve
    (16 + waiting * (4 + 4 * sockets) + 8 * sockets + 4 * node.announcements.length
      + 2 * node.lifecycle.departures.length)

end Node

namespace Simulation

/-- A peer that is played. -/
structure Contact where
  /-- The node's socket for its newest connection; none if it was turned away. -/
  socket : Option Nat
  /-- Whether the end of the connection has been reported. -/
  reported : Bool
  /-- Whether the peer has left for good. -/
  gone : Bool

/-- A node, the peers and the watcher beside it. -/
structure Network where
  settings : ScenarioSettings
  listenAddress : Address
  node : Node World
  watcher : Option Watcher
  contacts : Table String Contact
  /-- The peers that listen, with what they send to whoever connects. -/
  listeners : Table String Bytes

/-- A step in the life of a network. -/
inductive NetworkStep where
  | scenario (step : Step)
  | start (known : List String)
  /-- A peer connects to the node and sends octets. -/
  | dial (peer : String) (bytes : Bytes)
  /-- A peer listens and sends octets to whoever connects. -/
  | listen (peer : String) (bytes : Bytes)
  /-- The node connects to a listening peer or an address. -/
  | connect (target : String)
  | send (peer : String) (bytes : Bytes)
  /-- A peer sends no more. -/
  | halfClose (peer : String)
  | hangUp (peer : String)
  | submit (message : Message)
  | broadcast (source : Option PeerId) (outpoint : Outpoint) (payload : Bytes)
  | stop
  | cancel

/-- Why a step of a network failed. -/
inductive NetworkError where
  | bind (address : Address) (cause : AddressError)
  | badAddress (cause : AddressError)
  /-- Nobody answers at an address. -/
  | unreachable
  /-- The node does not listen. -/
  | refused
  | connect (cause : ConnectError)

/-- What came of a step. -/
inductive NetworkOutcome where
  | scenario (outcome : Outcome)
  | started
  | connected (peer : PeerId)
  | failed (cause : NetworkError)

/-- What the system says of an address at which nobody listens. -/
def connectionRefused : String := "Connection refused (os error 111)"

/-- The report of a failure. -/
def NetworkError.message : NetworkError → String
  | .bind address cause => "Failed to bind " ++ address ++ ": " ++ cause.message
  | .badAddress cause => "IO error: " ++ cause.message
  | .unreachable => "IO error: " ++ connectionRefused
  | .refused => connectionRefused
  | .connect cause => cause.message

namespace Network

/-- A network without connections, unless the node cannot be made. -/
def start? (settings : ScenarioSettings) (listenAddress : Address) (maxPeers maxMessage : Nat)
    (backend : Backend) (listeners : Table String Bytes) : Option Network :=
  (Node.start? maxPeers maxMessage (.ofBackend backend)).map fun node =>
    ⟨settings, listenAddress, node, none, .empty, listeners⟩

/-- The socket of a peer's newest connection. -/
def socketOf? (n : Network) (peer : String) : Option Nat := (n.contacts.get? peer).bind (·.socket)

/-- Changes the node. -/
def mapNode (n : Network) (change : Node World → Node World) : Network :=
  { n with node := change n.node }

/-- A peer sends no more. -/
def endStream (n : Network) (peer : String) : Network :=
  match n.socketOf? peer with
  | none => n
  | some socket => n.mapNode (·.endStream socket)

/-- A peer comes by a new connection, or is turned away. It holds one connection at a time, so that
it gives up the one it had. -/
def meet (n : Network) (peer : String) (socket : Option Nat) : Network :=
  let n := n.endStream peer
  { n with contacts := n.contacts.insert peer ⟨socket, false, false⟩ }

/-- The address of a listening peer. -/
def addressOf (peer : String) : Address := "<" ++ peer ++ ">"

/-- The node looks for a target before it dials it: a listening peer's greeting, or why it is not
dialled. -/
def checkTarget (n : Network) (target : String) : Except NetworkError Bytes × Network :=
  match n.listeners.get? target with
  | none =>
    match Address.parts target with
    | .error cause => (.error (.badAddress cause), n)
    | .ok _ => (.error .unreachable, n)
  | some bytes =>
    match n.node.lifecycle.check? (addressOf target) with
    | none => (.error (.connect (.alreadyConnected (addressOf target))), n)
    | some lifecycle => (.ok bytes, n.mapNode fun node => { node with lifecycle })

/-- The first dial under way is answered by a listening peer, and greetings are exchanged. -/
def dialTarget (n : Network) (target : String) (bytes : Bytes) : NetworkOutcome × Network :=
  let socket := n.node.lifecycle.sockets.length
  let node := ((n.node.advance (·.opened? 0)).openChannel).receive socket bytes
  let (result, node) := node.greet socket true
  let n := { n with node }.meet target (some socket)
  match result with
  | some (.ok peer) => (.connected peer, n)
  | some (.error cause) => (.failed (.connect (.handshakeFailed (addressOf target) cause)), n)
  | none => (.failed .unreachable, n)

/-- The node connects to a target. -/
def connect (n : Network) (target : String) : NetworkOutcome × Network :=
  match n.checkTarget target with
  | (.error cause, n) => (.failed cause, n)
  | (.ok bytes, n) => n.dialTarget target bytes

/-- The node connects to all targets at once: all are looked for before the first is dialled. -/
def connectAll (n : Network) (targets : List String) : Network :=
  let (found, n) := targets.foldl
    (fun (found, n) target =>
      match n.checkTarget target with
      | (.error _, n) => (found, n)
      | (.ok bytes, n) => (found ++ [(target, bytes)], n))
    (([] : List (String × Bytes)), n)
  found.foldl (fun n (target, bytes) => (n.dialTarget target bytes).2) n

/-- Lets the octets of a peer arrive, if its connection is open in that direction. -/
def deliver (n : Network) (peer : String) (bytes : Bytes) : Network :=
  match n.socketOf? peer with
  | none => n
  | some socket =>
    if n.node.channels[socket]?.any (·.ended) then n else n.mapNode (·.receive socket bytes)

/-- The exchanges of greetings that are under way run out of time. -/
def expireGreetings (node : Node World) : Node World :=
  (List.range node.lifecycle.sockets.length).foldl
    (fun node i => if node.lifecycle.isGreeting i then (node.greet i true).2 else node)
    node

/-- Takes a step, before the node comes to rest. -/
def act (n : Network) : NetworkStep → NetworkOutcome × Network
  | .scenario step =>
    let s : Scenario :=
      { settings := n.settings, world := n.node.world, slots := n.node.slots, watcher := n.watcher }
    let (outcome, s) := s.step step
    (.scenario outcome,
      { n with node := { n.node with world := s.world, slots := s.slots }, watcher := s.watcher })
  | .start known =>
    match Address.parts n.listenAddress with
    | .error cause => (.failed (.bind n.listenAddress cause), n)
    | .ok _ =>
      let n := n.mapNode (·.advance fun l => some { l with listening := true })
      (.started, n.connectAll known)
  | .dial peer bytes =>
    if n.node.lifecycle.listening then
      let (socket, node) := n.node.accept ("inbound " ++ peer)
      (.scenario .nothing, ({ n with node }.meet peer socket).deliver peer bytes)
    else (.failed .refused, n)
  | .listen peer bytes =>
    (.scenario .nothing, { n with listeners := n.listeners.insert peer bytes })
  | .connect target => n.connect target
  | .send peer bytes => (.scenario .nothing, n.deliver peer bytes)
  | .halfClose peer => (.scenario .nothing, n.endStream peer)
  | .hangUp peer =>
    let n := n.endStream peer
    let contacts :=
      match n.contacts.get? peer with
      | some contact => n.contacts.insert peer { contact with gone := true }
      | none => n.contacts
    (.scenario .nothing, { n with contacts })
  | .submit message =>
    let (decision, node) := n.node.perform World.serve none (Session.submit message)
    (.scenario (.decided decision), { n with node })
  | .broadcast source outpoint payload =>
    let ((), node) := n.node.perform World.serve none (Session.broadcast source outpoint payload)
    (.scenario .nothing, { n with node })
  | .stop =>
    (.scenario .nothing,
      n.mapNode fun node =>
        expireGreetings ((node.advance fun l => some l.cancel.sweep).settle World.serve))
  | .cancel => (.scenario .nothing, n.mapNode (·.advance fun l => some l.cancel))

/-- Takes a step and lets the node come to rest. -/
def step (n : Network) (step : NetworkStep) : NetworkOutcome × Network :=
  let (outcome, n) := n.act step
  (outcome, n.mapNode (·.settle World.serve))

/-- What can be seen of a network. -/
structure View where
  slots : Nat
  watched : Option UInt64
  contents : Contents
  /-- The registered peers by their numbers. -/
  peers : List (PeerId × Direction)
  /-- What has arrived at each peer since the last look. -/
  received : List (String × Bytes)
  /-- The peers whose connection the node has ended since the last look. -/
  closed : List String

/-- Whether the node has ended a peer's connection. -/
def isClosed (n : Network) (contact : Contact) : Bool :=
  match contact.socket with
  | none => true
  | some socket => n.node.lifecycle.sockets[socket]?.any (·.stage == .closed)

/-- The registered peers by their numbers. -/
def peers (n : Network) : List (PeerId × Direction) :=
  let peers := n.node.lifecycle.registry.entries.filterMap fun (peer, socket) =>
    n.node.lifecycle.sockets[socket]?.map fun s => (peer, s.direction)
  peers.mergeSort fun a b => a.1.number ≤ b.1.number

/-- Looks at a network. -/
def observe (n : Network) : View × Network :=
  let present := n.contacts.entries.filter fun (_, contact) => !contact.gone
  let received := present.filterMap fun (name, contact) => do
    let channel ← n.node.channels[← contact.socket]?
    let bytes := channel.outbox.reverse.flatten
    if bytes.isEmpty then none else some (name, bytes)
  let closed := present.filterMap fun (name, contact) =>
    if n.isClosed contact && !contact.reported then some name else none
  let contacts : Table String Contact :=
    ⟨n.contacts.entries.map fun (name, contact) =>
      (name, { contact with reported := contact.reported || closed.contains name })⟩
  let channels := n.node.channels.map fun channel => { channel with outbox := [] }
  ({ slots := n.node.slots.active
     watched := n.watcher.bind (·.lastHeight)
     contents := n.node.world.backend.contents
     peers := n.peers
     received
     closed := closed.mergeSort },
    { n with contacts, node := { n.node with channels } })

end Network

end Simulation

end ChatRelay
