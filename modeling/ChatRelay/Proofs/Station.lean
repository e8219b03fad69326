import ChatRelay.Node
import ChatRelay.Proofs.Admission.Verdict

/-!
# A node at work

Around a node there are tasks: sessions that handle the frames of their peers, callers that submit
messages, announcements that wait to be sent, and the watcher. Each handler works off a routine
question by question. Between any two steps of one task the others may act, peers may come and go
and send anything, every call on store or ledger may fail, and so may every sending. What was said
and sent is kept beside the node; no step looks at it.
-/

namespace ChatRelay

inductive Ending where
  | session (reason : Option CloseReason)
  | submission (decision : Except Rejection Admission)

/-- What a handler works on: a frame that came from a peer, or a message that was made here. -/
inductive Errand where
  | session (socket : Nat) (peer : PeerId) (frame : Frame)
  | submission (message : Message)
  deriving DecidableEq

namespace Errand

def routine : Errand → Routine SessionRequest.Answer Ending
  | .session _ peer frame => Ending.session <$> Session.handle peer frame
  | .submission message => Ending.submission <$> Session.submit message

def socket? : Errand → Option Nat
  | .session socket _ _ => some socket
  | .submission _ => none

def source : Errand → Option PeerId
  | .session _ peer _ => some peer
  | .submission _ => none

end Errand

/-- A decision that a handler waited for, with what was asked for it. -/
structure Decision where
  message : Message
  exchanges : List Exchange
  result : Except Rejection Admission

inductive HandlerStage where
  | running (rest : Routine SessionRequest.Answer Ending)
  /-- A message of the handler is on its way to a decision. -/
  | deciding (run : AdmissionRun) (exchanges : List Exchange)
      (next : Except Rejection Admission → Routine SessionRequest.Answer Ending)

/-- A task that works on an errand. -/
structure Handler where
  errand : Errand
  stage : HandlerStage
  /-- What it has asked so far. -/
  transcript : List (Answered SessionRequest.Answer)
  decisions : List Decision
  /-- The peers that were registered when it last announced something, with their sockets. -/
  audience : List (PeerId × Nat)

namespace Handler

def begin (errand : Errand) : Handler := ⟨errand, .running errand.routine, [], [], []⟩

def hear (handler : Handler) (said : Answered SessionRequest.Answer)
    (rest : Routine SessionRequest.Answer Ending) : Handler :=
  { handler with stage := .running rest, transcript := handler.transcript ++ [said] }

def conclude (handler : Handler) (decision : Decision)
    (rest : Routine SessionRequest.Answer Ending) : Handler :=
  { handler with
    stage := .running rest
    transcript := handler.transcript ++ [⟨.decide decision.message, decision.result⟩]
    decisions := handler.decisions ++ [decision] }

/-- The handler after it has announced something to an audience. -/
def announce (handler : Handler) (source : Option PeerId) (outpoint : Outpoint)
    (audience : List (PeerId × Nat)) (rest : Routine SessionRequest.Answer Ending) : Handler :=
  { handler with
    stage := .running rest
    transcript := handler.transcript ++ [⟨.announce source outpoint, ()⟩]
    audience }

/-- Whether nothing is left to do. -/
def Over (handler : Handler) : Prop := ∃ ending, handler.stage = .running (.done ending)

end Handler

inductive Fate where
  | waiting
  | sent
  | failed
  deriving DecidableEq, Repr

/-- An announcement that a handler left to a task of its own. -/
structure Dispatch where
  handler : Nat
  announcement : Announcement
  fate : Fate
  deriving DecidableEq

inductive Cause where
  | reply (handler : Nat)
  | dispatch (index : Nat)
  deriving DecidableEq

structure Sending where
  socket : Nat
  frame : Frame
  cause : Cause
  deriving DecidableEq

/-- A node with its tasks, and the frames it has sent. -/
structure Station (B : OutpointStore) where
  node : Node B.State
  handlers : List Handler
  dispatches : List Dispatch
  task : WatcherTask
  sent : List Sending

/-- Whether a step is one that a network of sound nodes takes by itself. -/
inductive Move where
  | work
  | receive (socket : Nat) (bytes : Bytes)
  | submit (message : Message)
  /-- Connections change, a sending fails, a limit is hit or the watcher acts. -/
  | disturb

/-- A node whose connections have changed. A new socket comes with a new channel. -/
def Node.follow {σ : Type} (node : Node σ) (lifecycle : Lifecycle) : Node σ :=
  { node with
    lifecycle
    channels := node.channels ++
      List.replicate (lifecycle.sockets.length - node.channels.length) .fresh }

/-- What a run asks in its next step. -/
def AdmissionRun.exchanged {B : OutpointStore} (run : AdmissionRun)
    (serve : (request : Request) → B.State → request.Answer × B.State) (world : B.State) :
    List Exchange :=
  match run.phase with
  | .inside _ (.ask request _) =>
    [⟨⟨request, (serve request world).1⟩, B.holdings world, B.holdings (serve request world).2⟩]
  | _ => []

namespace Station

variable {B : OutpointStore}

/-- A node at rest, whose watcher has not begun a poll. -/
def idle (node : Node B.State) (w : Watcher) : Station B := ⟨node, [], [], .resting w, []⟩

def held (s : Station B) : Holdings := B.holdings s.node.world

/-- The session on a socket has handled every frame it has read, and goes on. -/
def Ready (s : Station B) (socket : Nat) : Prop :=
  ∀ handler ∈ s.handlers, handler.errand.socket? = some socket →
    handler.stage = .running (.done (.session none))

/-- The session of a peer reads a frame from its socket, and its kind's limit allows it or not. -/
inductive Reads (s : Station B) (socket : Nat) (peer : PeerId) (frame : Frame) (allowed : Bool) :
    Node B.State → Prop
  | intro (now : Nat) (channel : Channel) (rest : Bytes) (limiter : RateLimiter Frame.Kind)
      (hactive : ∃ sock ∈ s.node.lifecycle.sockets[socket]?, sock.stage = .active peer)
      (halive : ¬ s.node.lifecycle.isCancelled socket) (hready : s.Ready socket)
      (hchannel : s.node.channels[socket]? = some channel)
      (hread : Frame.read s.node.maxMessage channel.inbox = .complete frame rest)
      (hlimit : channel.limiter.check now frame.kind = (allowed, limiter)) :
      Reads s socket peer frame allowed
        (s.node.mapChannel socket fun c => { c with inbox := rest, limiter })

variable (fails : StoreCall → Prop) (answers : (call : LedgerCall) → call.Answer → Prop)

inductive Step : Station B → Move → Station B → Prop
  | connect (s : Station B) (event : Lifecycle.Event) (lifecycle : Lifecycle)
      (hevent : ∀ socket, event ≠ .greeted socket)
      (hstep : s.node.lifecycle.step? event = some lifecycle) :
      Step s .disturb { s with node := s.node.follow lifecycle }
  | greet (s : Station B) (socket : Nat) (late : Bool) :
      Step s .disturb { s with node := (s.node.greet socket late).2 }
  | receive (s : Station B) (socket : Nat) (bytes : Bytes) :
      Step s (.receive socket bytes) { s with node := s.node.receive socket bytes }
  | endStream (s : Station B) (socket : Nat) :
      Step s .disturb { s with node := s.node.endStream socket }
  | take (s : Station B) (socket : Nat) (peer : PeerId) (frame : Frame) (node : Node B.State)
      (hreads : s.Reads socket peer frame true node) :
      Step s .work
        { s with node, handlers := s.handlers ++ [.begin (.session socket peer frame)] }
  /-- A frame over the limit of its kind is dropped. -/
  | drop (s : Station B) (socket : Nat) (peer : PeerId) (frame : Frame) (node : Node B.State)
      (hreads : s.Reads socket peer frame false node) :
      Step s .disturb { s with node }
  | submit (s : Station B) (message : Message) :
      Step s (.submit message) { s with handlers := s.handlers ++ [.begin (.submission message)] }
  | store (s : Station B) (k : Nat) (handler : Handler) (call : StoreCall)
      (next : call.Answer → Routine SessionRequest.Answer Ending) (answer : call.Answer)
      (world : B.State) (hhandler : s.handlers[k]? = some handler)
      (hstage : handler.stage = .running (.ask (.store call) next))
      (hserved : Request.Served B.Performs fails answers (.store call) s.node.world answer world) :
      Step s .work
        { s with
          node := { s.node with world }
          handlers := s.handlers.set k (handler.hear ⟨.store call, answer⟩ (next answer)) }
  | decide (s : Station B) (k : Nat) (handler : Handler) (message : Message)
      (next : Except Rejection Admission → Routine SessionRequest.Answer Ending)
      (hhandler : s.handlers[k]? = some handler)
      (hstage : handler.stage = .running (.ask (.decide message) next)) :
      Step s .work
        { s with
          handlers := s.handlers.set k
            { handler with stage := .deciding ⟨message, none, .arriving⟩ [] next } }
  /-- The run of a message takes a step through its outpoint's slot. -/
  | proceed (s : Station B) (k : Nat) (handler : Handler) (run after : AdmissionRun)
      (exchanges : List Exchange)
      (next : Except Rejection Admission → Routine SessionRequest.Answer Ending) (slots : Slots)
      (world : B.State) (serve : (request : Request) → B.State → request.Answer × B.State)
      (hserve : ∀ request : Request, request.Served B.Performs fails answers s.node.world
        (serve request s.node.world).1 (serve request s.node.world).2)
      (hhandler : s.handlers[k]? = some handler)
      (hstage : handler.stage = .deciding run exchanges next)
      (hstep : (⟨s.node.slots, s.node.world, [run]⟩ : Admissions B.State).step serve 0 =
        ⟨slots, world, [after]⟩) :
      Step s .work
        { s with
          node := { s.node with slots, world }
          handlers := s.handlers.set k
            { handler with
              stage := .deciding after (exchanges ++ run.exchanged serve s.node.world) next } }
  | decided (s : Station B) (k : Nat) (handler : Handler) (run : AdmissionRun)
      (exchanges : List Exchange)
      (next : Except Rejection Admission → Routine SessionRequest.Answer Ending)
      (result : Except Rejection Admission) (hhandler : s.handlers[k]? = some handler)
      (hstage : handler.stage = .deciding run exchanges next)
      (hphase : run.phase = .finished result) :
      Step s .work
        { s with
          handlers := s.handlers.set k
            (handler.conclude ⟨run.message, exchanges, result⟩ (next result)) }
  | reply (s : Station B) (k : Nat) (handler : Handler) (frame : Frame)
      (next : Bool → Routine SessionRequest.Answer Ending) (socket : Nat) (node : Node B.State)
      (hhandler : s.handlers[k]? = some handler)
      (hstage : handler.stage = .running (.ask (.reply frame) next))
      (hsocket : handler.errand.socket? = some socket)
      (hsent : s.node.send socket frame = (true, node)) :
      Step s .work
        { s with
          node
          handlers := s.handlers.set k (handler.hear ⟨.reply frame, true⟩ (next true))
          sent := s.sent ++ [⟨socket, frame, .reply k⟩] }
  | unanswered (s : Station B) (k : Nat) (handler : Handler) (frame : Frame)
      (next : Bool → Routine SessionRequest.Answer Ending)
      (hhandler : s.handlers[k]? = some handler)
      (hstage : handler.stage = .running (.ask (.reply frame) next)) :
      Step s .disturb
        { s with handlers := s.handlers.set k (handler.hear ⟨.reply frame, false⟩ (next false)) }
  /-- A handler leaves an announcement to tasks of its own, one for each registered peer other than
  the source. -/
  | announce (s : Station B) (k : Nat) (handler : Handler) (source : Option PeerId)
      (outpoint : Outpoint) (next : Unit → Routine SessionRequest.Answer Ending)
      (hhandler : s.handlers[k]? = some handler)
      (hstage : handler.stage = .running (.ask (.announce source outpoint) next)) :
      Step s .work
        { s with
          handlers := s.handlers.set k
            (handler.announce source outpoint s.node.lifecycle.registry.entries (next ()))
          dispatches := s.dispatches ++
            (s.node.lifecycle.registry.entries.filter fun entry => some entry.1 ≠ source).map
              fun entry => ⟨k, ⟨entry.1, entry.2, outpoint⟩, .waiting⟩ }
  | dispatch (s : Station B) (j : Nat) (dispatch : Dispatch) (node : Node B.State)
      (hdispatch : s.dispatches[j]? = some dispatch) (hfate : dispatch.fate = .waiting)
      (hsent : s.node.send dispatch.announcement.socket (.inv [dispatch.announcement.outpoint]) =
        (true, node)) :
      Step s .work
        { s with
          node
          dispatches := s.dispatches.set j { dispatch with fate := .sent }
          sent := s.sent ++ [⟨dispatch.announcement.socket, .inv [dispatch.announcement.outpoint],
            .dispatch j⟩] }
  /-- A peer that cannot be sent an announcement is disconnected. -/
  | undelivered (s : Station B) (j : Nat) (dispatch : Dispatch)
      (hdispatch : s.dispatches[j]? = some dispatch) (hfate : dispatch.fate = .waiting) :
      Step s .disturb
        { s with
          node := { s.node with
            lifecycle := s.node.lifecycle.depart dispatch.announcement.peer }
          dispatches := s.dispatches.set j { dispatch with fate := .failed } }
  | poll (s : Station B) (w : Watcher) (htask : s.task = .resting w) :
      Step s .disturb { s with task := .polling w.poll }
  | watch (s : Station B) (request : Request)
      (next : request.Answer → Routine Request.Answer (Watcher.Outcome PollSummary))
      (answer : request.Answer) (world : B.State) (htask : s.task = .polling (.ask request next))
      (hserved : request.Served B.Performs fails answers s.node.world answer world) :
      Step s .disturb { s with node := { s.node with world }, task := .polling (next answer) }
  | rest (s : Station B) (outcome : Watcher.Outcome PollSummary)
      (htask : s.task = .polling (.done outcome)) :
      Step s .disturb { s with task := .resting outcome.2 }

abbrev Reaches : Station B → Station B → Prop :=
  Relation.ReflTransGen fun s t => ∃ move, Step fails answers s move t

end Station

end ChatRelay
