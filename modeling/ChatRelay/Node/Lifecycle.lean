import ChatRelay.Table
import ChatRelay.Node.Address

/-!
# The life of connections

A node's sockets are greeting, active, leaving or closed. A socket that has exchanged greetings gets
the next peer number and is registered; a peer is taken out of the registry by whoever disconnects
it first. Inbound sockets hold one of a fixed number of permits from the moment they are accepted
until they are closed. Every transition here is one atomic step, and those of different sockets may
alternate in any way.
-/

namespace ChatRelay

/-- The number of a peer, in the order in which greetings were completed. -/
structure PeerId where
  number : UInt64
  deriving DecidableEq, Repr

/-- The text of a peer's number. -/
def PeerId.display (peer : PeerId) : String := "peer#" ++ toString peer.number.toNat

/-- Which end opened a connection. -/
inductive Direction where
  | inbound
  | outbound
  deriving DecidableEq, Repr

/-- The name of a direction. -/
def Direction.name : Direction → String
  | .inbound => "inbound"
  | .outbound => "outbound"

/-- The stage of a socket. -/
inductive SocketStage where
  | greeting
  | active (peer : PeerId)
  /-- Its session is over and disconnects its own peer, as the departure of the given number. -/
  | leaving (peer : PeerId) (departure : Nat)
  | closed
  deriving DecidableEq, Repr

/-- A socket of the node. -/
structure Socket where
  address : Address
  direction : Direction
  stage : SocketStage
  /-- Whether its peer has not been marked dead. -/
  alive : Bool
  deriving DecidableEq, Repr

/-- How far a caller that disconnects a peer has come. -/
inductive DepartureStage where
  | calling
  /-- It has taken the peer out of the registry and will mark it dead. -/
  | removed (socket : Nat)
  | over
  deriving DecidableEq, Repr

/-- A caller that disconnects a peer. -/
structure Departure where
  peer : PeerId
  stage : DepartureStage
  deriving DecidableEq, Repr

/-- The sockets of a node and what they share. -/
structure Lifecycle where
  /-- The permits for inbound sockets that are left. -/
  permits : Nat
  listening : Bool
  cancelled : Bool
  nextId : UInt64
  sockets : List Socket
  /-- The registered peers with their sockets. -/
  registry : Table PeerId Nat
  departures : List Departure
  /-- The addresses that are being dialled, after they were not found in the registry. -/
  dials : List Address
  deriving Repr

namespace Lifecycle

/-- The largest number of permits that can be asked for. -/
def maxPermits : Nat := 0x1fffffffffffffff

/-- A node without sockets, unless it asks for too many permits. -/
def start? (permits : Nat) : Option Lifecycle :=
  if permits ≤ maxPermits then some ⟨permits, false, false, 1, [], .empty, [], []⟩ else none

/-- The socket of a registered peer. -/
def socketOf? (l : Lifecycle) (peer : PeerId) : Option Nat := l.registry.get? peer

/-- Moves a socket to a stage. -/
def setStage (l : Lifecycle) (socket : Nat) (stage : SocketStage) : Lifecycle :=
  { l with sockets := l.sockets.modify socket fun s => { s with stage } }

/-- Gives back what a closing socket of a direction holds. -/
def giveBack (l : Lifecycle) : Direction → Lifecycle
  | .inbound => { l with permits := l.permits + 1 }
  | .outbound => l

/-- Whether the session of a socket is told to end. -/
def isCancelled (l : Lifecycle) (socket : Nat) : Bool :=
  l.cancelled || !(l.sockets[socket]?.any (·.alive))

/-- Whether a socket is exchanging greetings. -/
def isGreeting (l : Lifecycle) (socket : Nat) : Bool :=
  l.sockets[socket]?.any (·.stage == .greeting)

/-- An inbound socket arrives at a listening node: it takes a permit, or is turned away if none is
left. -/
def accept? (l : Lifecycle) (address : Address) : Option Lifecycle :=
  if l.listening then
    match l.permits with
    | 0 => some l
    | permits + 1 =>
      some { l with permits, sockets := l.sockets ++ [⟨address, .inbound, .greeting, true⟩] }
  else none

/-- Whether some registered peer has an address. -/
def isConnected (l : Lifecycle) (address : Address) : Bool :=
  l.registry.entries.any fun entry => l.sockets[entry.2]?.any (·.address == address)

/-- Someone wants to connect to an address: it is dialled unless a registered peer has it. -/
def check? (l : Lifecycle) (address : Address) : Option Lifecycle :=
  if l.isConnected address then none else some { l with dials := l.dials ++ [address] }

/-- A dialled address has answered, and a socket to it is open. -/
def opened? (l : Lifecycle) (dial : Nat) : Option Lifecycle :=
  l.dials[dial]?.map fun address =>
    { l with
      dials := l.dials.eraseIdx dial
      sockets := l.sockets ++ [⟨address, .outbound, .greeting, true⟩] }

/-- A dialled address cannot be reached. -/
def unreachable? (l : Lifecycle) (dial : Nat) : Option Lifecycle :=
  l.dials[dial]?.map fun _ => { l with dials := l.dials.eraseIdx dial }

/-- A socket has exchanged greetings: its peer gets the next number and is registered. -/
def greeted? (l : Lifecycle) (socket : Nat) : Option (PeerId × Lifecycle) :=
  match l.sockets[socket]? with
  | some ⟨_, _, .greeting, _⟩ =>
    let peer : PeerId := ⟨l.nextId⟩
    some (peer,
      { l with
        nextId := l.nextId + 1
        registry := l.registry.insert peer socket }.setStage socket (.active peer))
  | _ => none

/-- The exchange of greetings has failed, and the socket is closed. -/
def failed? (l : Lifecycle) (socket : Nat) : Option Lifecycle :=
  match l.sockets[socket]? with
  | some ⟨_, direction, .greeting, _⟩ => some ((l.setStage socket .closed).giveBack direction)
  | _ => none

/-- Someone begins to disconnect a peer. -/
def depart (l : Lifecycle) (peer : PeerId) : Lifecycle :=
  { l with departures := l.departures ++ [⟨peer, .calling⟩] }

/-- The session of a socket is over and begins to disconnect its own peer. -/
def ended? (l : Lifecycle) (socket : Nat) : Option Lifecycle :=
  match l.sockets[socket]? with
  | some ⟨_, _, .active peer, _⟩ =>
    some ((l.depart peer).setStage socket (.leaving peer l.departures.length))
  | _ => none

/-- Moves a departure to a stage. -/
def setDeparture (l : Lifecycle) (departure : Nat) (stage : DepartureStage) : Lifecycle :=
  { l with departures := l.departures.modify departure fun d => { d with stage } }

/-- A departure takes its next step: it takes the peer out of the registry if it is still there, and
then marks it dead. -/
def departed? (l : Lifecycle) (departure : Nat) : Option Lifecycle :=
  match l.departures[departure]? with
  | some ⟨peer, .calling⟩ =>
    match l.registry.get? peer with
    | none => some (l.setDeparture departure .over)
    | some socket =>
      some ({ l with registry := l.registry.erase peer }.setDeparture departure (.removed socket))
  | some ⟨_, .removed socket⟩ =>
    some ({ l with sockets := l.sockets.modify socket fun s => { s with alive := false } }.setDeparture
      departure .over)
  | _ => none

/-- The task of a socket ends behind its departure, and the socket is closed. -/
def finished? (l : Lifecycle) (socket : Nat) : Option Lifecycle :=
  match l.sockets[socket]? with
  | some ⟨_, direction, .leaving _ departure, _⟩ =>
    if l.departures[departure]?.any (·.stage == .over) then
      some ((l.setStage socket .closed).giveBack direction)
    else none
  | _ => none

/-- The signal to shut down is given. -/
def cancel (l : Lifecycle) : Lifecycle := { l with cancelled := true }

/-- The listener notices the signal. -/
def closeListener? (l : Lifecycle) : Option Lifecycle :=
  if l.cancelled then some { l with listening := false } else none

/-- Begins to disconnect every peer that is registered at this moment. -/
def sweep (l : Lifecycle) : Lifecycle := l.registry.keys.foldl depart l

/-- A step of the life of a node's connections. -/
inductive Event where
  | listen
  | accept (address : Address)
  | check (address : Address)
  | opened (dial : Nat)
  | unreachable (dial : Nat)
  | greeted (socket : Nat)
  | failed (socket : Nat)
  | ended (socket : Nat)
  | depart (peer : PeerId)
  | departed (departure : Nat)
  | finished (socket : Nat)
  | cancel
  | closeListener
  | sweep
  deriving DecidableEq, Repr

/-- Takes a step, if it can be taken. -/
def step? (l : Lifecycle) : Event → Option Lifecycle
  | .listen => some { l with listening := true }
  | .accept address => l.accept? address
  | .check address => l.check? address
  | .opened dial => l.opened? dial
  | .unreachable dial => l.unreachable? dial
  | .greeted socket => (l.greeted? socket).map (·.2)
  | .failed socket => l.failed? socket
  | .ended socket => l.ended? socket
  | .depart peer => some (l.depart peer)
  | .departed departure => l.departed? departure
  | .finished socket => l.finished? socket
  | .cancel => some l.cancel
  | .closeListener => l.closeListener?
  | .sweep => some l.sweep

/-- Takes steps one after another, if each can be taken. -/
def run? (l : Lifecycle) (events : List Event) : Option Lifecycle := events.foldlM step? l

end Lifecycle

end ChatRelay
