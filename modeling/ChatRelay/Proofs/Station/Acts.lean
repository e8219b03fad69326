import ChatRelay.Proofs.Station

/-!
# Acts of a node

Steps that a node takes when nothing fails and the ledger tells the truth about a chain, chosen one
after the other. An act that is not possible changes nothing.
-/

namespace ChatRelay

/-- What happens next. -/
inductive Act where
  | connect (event : Lifecycle.Event)
  | greet (socket : Nat)
  | receive (socket : Nat) (bytes : Bytes)
  | take (socket : Nat) (peer : PeerId)
  | submit (message : Message)
  | work (handler : Nat)
  | send (dispatch : Nat)
  | watch
  deriving DecidableEq

def Act.move : Act → Move
  | .take _ _ | .work _ | .send _ => .work
  | .receive socket bytes => .receive socket bytes
  | .submit message => .submit message
  | .connect _ | .greet _ | .watch => .disturb

/-- Whether a greeting is complete. A socket gets there by reading it. -/
def Lifecycle.Event.greets : Lifecycle.Event → Bool
  | .greeted _ => true
  | _ => false

/-- Whether a handler of a session has nothing left to do and its session goes on. -/
def Handler.rests (handler : Handler) : Bool :=
  match handler.stage with
  | .running (.done (.session none)) => true
  | _ => false

theorem Handler.stage_of_rests {handler : Handler} (h : handler.rests) :
    handler.stage = .running (.done (.session none)) := by
  unfold rests at h
  split at h
  next hstage => exact hstage
  next => cases h

namespace Station

variable {B : OutpointStore} (chain : Chain) (s : Station B)

/-- A handler is moved on. -/
def work (k : Nat) (handler : Handler) : Station B :=
  match handler.stage with
  | .running (.done _) => s
  | .running (.ask (.store call) next) =>
    { s with
      node := { s.node with world := (B.perform call s.node.world).2 }
      handlers := s.handlers.set k (handler.hear ⟨.store call, (B.perform call s.node.world).1⟩
        (next (B.perform call s.node.world).1)) }
  | .running (.ask (.decide message) next) =>
    { s with
      handlers := s.handlers.set k
        { handler with stage := .deciding ⟨message, none, .arriving⟩ [] next } }
  | .running (.ask (.reply frame) next) =>
    match handler.errand.socket? with
    | none => s
    | some socket =>
      match s.node.send socket frame with
      | (false, _) => s
      | (true, node) =>
        { s with
          node
          handlers := s.handlers.set k (handler.hear ⟨.reply frame, true⟩ (next true))
          sent := s.sent ++ [⟨socket, frame, .reply k⟩] }
  | .running (.ask (.announce source outpoint) next) =>
    { s with
      handlers := s.handlers.set k
        (handler.announce source outpoint s.node.lifecycle.registry.entries (next ()))
      dispatches := s.dispatches ++
        (s.node.lifecycle.registry.entries.filter fun entry => some entry.1 ≠ source).map
          fun entry => ⟨k, ⟨entry.1, entry.2, outpoint⟩, .waiting⟩ }
  | .deciding run exchanges next =>
    match run.phase with
    | .finished result =>
      { s with
        handlers := s.handlers.set k
          (handler.conclude ⟨run.message, exchanges, result⟩ (next result)) }
    | _ =>
      match (⟨s.node.slots, s.node.world, [run]⟩ : Admissions B.State).step (B.serve chain) 0 with
      | ⟨slots, world, [after]⟩ =>
        { s with
          node := { s.node with slots, world }
          handlers := s.handlers.set k
            { handler with
              stage := .deciding after (exchanges ++ run.exchanged (B.serve chain) s.node.world)
                next } }
      | _ => s

/-- The session of a peer takes the next frame, at time zero. -/
def take (socket : Nat) (peer : PeerId) (channel : Channel) : Station B :=
  if s.node.lifecycle.sockets[socket]?.any (·.stage = .active peer) ∧
      ¬ s.node.lifecycle.isCancelled socket ∧
      ∀ handler ∈ s.handlers, handler.errand.socket? = some socket → handler.rests then
    match Frame.read s.node.maxMessage channel.inbox with
    | .complete frame rest =>
      match channel.limiter.check 0 frame.kind with
      | (true, limiter) =>
        { s with
          node := s.node.mapChannel socket fun c => { c with inbox := rest, limiter }
          handlers := s.handlers ++ [.begin (.session socket peer frame)] }
      | (false, _) => s
    | _ => s
  else s

/-- An announcement that waits is sent. -/
def sendDispatch (j : Nat) (d : Dispatch) : Station B :=
  if d.fate = .waiting then
    match s.node.send d.announcement.socket (.inv [d.announcement.outpoint]) with
    | (false, _) => s
    | (true, node) =>
      { s with
        node
        dispatches := s.dispatches.set j { d with fate := .sent }
        sent := s.sent ++
          [⟨d.announcement.socket, .inv [d.announcement.outpoint], .dispatch j⟩] }
  else s

def act : Act → Station B
  | .connect event =>
    if event.greets then s
    else
      match s.node.lifecycle.step? event with
      | none => s
      | some lifecycle => { s with node := s.node.follow lifecycle }
  | .greet socket => { s with node := (s.node.greet socket false).2 }
  | .receive socket bytes => { s with node := s.node.receive socket bytes }
  | .take socket peer => s.node.channels[socket]?.elim s (s.take socket peer)
  | .submit message => { s with handlers := s.handlers ++ [.begin (.submission message)] }
  | .work k => s.handlers[k]?.elim s (s.work chain k)
  | .send j => s.dispatches[j]?.elim s (s.sendDispatch j)
  | .watch =>
    match s.task with
    | .resting w => { s with task := .polling w.poll }
    | .polling (.ask request next) =>
      { s with
        node := { s.node with world := (B.serve chain request s.node.world).2 }
        task := .polling (next (B.serve chain request s.node.world).1) }
    | .polling (.done outcome) => { s with task := .resting outcome.2 }

def acts (sequence : List Act) : Station B := sequence.foldl (act chain) s

variable {fails : StoreCall → Prop} {answers : (call : LedgerCall) → call.Answer → Prop}

theorem served_serve (hanswers : ∀ call, answers call (chain.answer call)) (request : Request)
    (world : B.State) : request.Served B.Performs fails answers world
      (B.serve chain request world).1 (B.serve chain request world).2 := by
  cases request with
  | store call => exact .inl rfl
  | ledger call => exact ⟨hanswers call, rfl⟩

variable {chain} {s}

theorem step_work (hanswers : ∀ call, answers call (chain.answer call)) {k : Nat}
    {handler : Handler} (hhandler : s.handlers[k]? = some handler) :
    s.work chain k handler = s ∨ Step fails answers s .work (s.work chain k handler) := by
  unfold work
  split
  next => exact .inl rfl
  next call next hstage =>
    exact .inr (.store s k handler call next _ _ hhandler hstage (.inl rfl))
  next message next hstage => exact .inr (.decide s k handler message next hhandler hstage)
  next frame next hstage =>
    split
    next => exact .inl rfl
    next socket hsocket =>
      split
      next => exact .inl rfl
      next node hsent =>
        exact .inr (.reply s k handler frame next socket node hhandler hstage hsocket hsent)
  next source outpoint next hstage =>
    exact .inr (.announce s k handler source outpoint next hhandler hstage)
  next run exchanges next hstage =>
    split
    next result hphase =>
      exact .inr (.decided s k handler run exchanges next result hhandler hstage hphase)
    next =>
      split
      next slots world after hstep =>
        exact .inr (.proceed s k handler run after exchanges next slots world (B.serve chain)
          (fun request => served_serve chain hanswers request _) hhandler hstage hstep)
      next => exact .inl rfl

theorem step_take {socket : Nat} {peer : PeerId} {channel : Channel}
    (hchannel : s.node.channels[socket]? = some channel) :
    s.take socket peer channel = s ∨ Step fails answers s .work (s.take socket peer channel) := by
  unfold take
  split
  next hopen =>
    obtain ⟨hactive, halive, hrests⟩ := hopen
    split
    next frame rest hread =>
      split
      next limiter hlimit =>
        refine .inr (.take s socket peer frame _ (.intro 0 channel rest limiter ?_ halive
          (fun handler hhandler hsocket => Handler.stage_of_rests (hrests handler hhandler hsocket))
          hchannel hread hlimit))
        obtain ⟨sock, hsock, hstage⟩ := (Option.any_eq_true ..).mp hactive
        exact ⟨sock, hsock, of_decide_eq_true hstage⟩
      next => exact .inl rfl
    next => exact .inl rfl
  next => exact .inl rfl

theorem step_sendDispatch {j : Nat} {d : Dispatch} (hd : s.dispatches[j]? = some d) :
    s.sendDispatch j d = s ∨ Step fails answers s .work (s.sendDispatch j d) := by
  unfold sendDispatch
  split
  next hfate =>
    split
    next => exact .inl rfl
    next node hsent => exact .inr (.dispatch s j d node hd hfate hsent)
  next => exact .inl rfl

/-- Acts are steps, or change nothing. -/
theorem step_act (hanswers : ∀ call, answers call (chain.answer call)) (a : Act) :
    s.act chain a = s ∨ Step fails answers s a.move (s.act chain a) := by
  cases a with
  | connect event =>
      simp only [act]
      split
      next => exact .inl rfl
      next hgreets =>
        split
        next => exact .inl rfl
        next lifecycle hstep =>
          refine .inr (.connect s event lifecycle ?_ hstep)
          rintro socket rfl
          exact hgreets rfl
  | greet socket => exact .inr (.greet s socket false)
  | receive socket bytes => exact .inr (.receive s socket bytes)
  | take socket peer =>
      simp only [act]
      cases hchannel : s.node.channels[socket]? with
      | none => exact .inl rfl
      | some channel => exact step_take hchannel
  | submit message => exact .inr (.submit s message)
  | work k =>
      simp only [act]
      cases hhandler : s.handlers[k]? with
      | none => exact .inl rfl
      | some handler => exact step_work hanswers hhandler
  | send j =>
      simp only [act]
      cases hd : s.dispatches[j]? with
      | none => exact .inl rfl
      | some d => exact step_sendDispatch hd
  | watch =>
      simp only [act]
      split
      next w htask => exact .inr (.poll s w htask)
      next request next htask =>
        exact .inr (.watch s request next _ _ htask (served_serve chain hanswers request _))
      next outcome htask => exact .inr (.rest s outcome htask)

theorem reaches_acts (hanswers : ∀ call, answers call (chain.answer call)) (sequence : List Act) :
    Reaches fails answers s (s.acts chain sequence) := by
  induction sequence generalizing s with
  | nil => exact .refl
  | cons a rest ih =>
      have hact : s.act chain a = s ∨ Step fails answers s a.move (s.act chain a) :=
        step_act hanswers a
      rcases hact with hsame | hstep
      · exact (congrArg (fun t => Reaches fails answers s (acts chain t rest)) hsame).mpr ih
      · exact .head ⟨_, hstep⟩ ih

/-! ## A node with two peers -/

/-- A node without connections and with an empty store. -/
def sampleNode : Node MemoryStore.backend.State :=
  ⟨65536, ⟨2, false, false, 1, [], .empty, [], []⟩, [], .empty,
    ⟨MemoryStore.empty, MemoryStore.sound_empty⟩, []⟩

def sample : Station MemoryStore.backend := idle sampleNode (Watcher.start ⟨6, true⟩)

/-- Two peers connect. -/
def sampleMeeting : List Act :=
  [.connect .listen, .connect (.accept "first"), .connect (.accept "second"),
    .receive 0 Handshake.greeting, .greet 0, .receive 1 Handshake.greeting, .greet 1]

/-- The octets of the sample message's delivery. -/
def sampleDelivery : Bytes :=
  Frame.Kind.data.tag :: Bytes.ofNatLittle 4 sampleMessage.encodedLength ++ sampleMessage.encode

/-- The first peer delivers the sample message, which is admitted, cached and announced. The watcher
begins a poll in between. -/
def sampleRelay : List Act :=
  [.receive 0 sampleDelivery, .take 0 ⟨1⟩, .work 0, .watch] ++ List.replicate 10 (.work 0) ++
    [.send 0]

/-- The second peer requests the message and is sent it, and then delivers it again. -/
def sampleReturn : List Act :=
  [.receive 1 (Frame.Kind.getData.tag :: sampleOutpoint.toBytes ++ sampleDelivery), .take 1 ⟨2⟩,
    .work 1, .work 1, .take 1 ⟨2⟩] ++ List.replicate 7 (.work 2)

def relayed : Station MemoryStore.backend :=
  sample.acts sampleChain (sampleMeeting ++ sampleRelay ++ sampleReturn)

end Station

end ChatRelay
