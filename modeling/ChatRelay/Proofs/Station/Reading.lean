import ChatRelay.Proofs.Station.Turns
import ChatRelay.Proofs.Wire.Streams

/-!
# What a node reads

A node reads from each of its sockets as the reader of a stream does. A socket that greets attempts
to read the greeting, a session's turn attempts to read a frame, and whatever else a node does
leaves alone what has arrived.
-/

namespace ChatRelay

namespace Reception

/-- What a greeting socket reports when its reader has come to a stage. -/
def Stage.greeted (peer : PeerId) : Stage → Option (Except WireError PeerId)
  | .greeting => none
  | .framing => some (.ok peer)
  | .stopped failure => failure.map .error

/-- What a session's turn reports that has read no frame, when its reader has come to a stage. -/
def Stage.closed : Stage → Option (Option CloseReason)
  | .stopped none => some (some .endOfStream)
  | .stopped (some cause) => some (some (.unreadable cause))
  | _ => none

/-- A session that has read no frame does not go on to the next. -/
theorem Stage.closed_ne (stage : Stage) : stage.closed ≠ some none := by
  rcases stage with _ | _ | _ | cause <;> exact nofun

/-- What may happen at the reading end of a connection. -/
inductive Moves (bound : Nat) (r : Reception) : Reception → Prop
  | event (event : Event) : Moves bound r (r.step bound event)
  | ending : Moves bound r { r with ended := true }

end Reception

open Reception (Moves)
open Relation (ReflTransGen)

namespace Lifecycle

/-- Greetings that are exchanged on one socket begin no session on another. -/
theorem active_of_greeted {l after : Lifecycle} {target socket : Nat} {peer other : PeerId}
    (h : l.greeted? target = some (peer, after)) (hne : target ≠ socket)
    (hactive : after.Active socket other) : l.Active socket other := by
  unfold greeted? at h
  split at h
  · cases h
    obtain ⟨sock, hsock, hstage⟩ := hactive
    simp only [setStage, List.getElem?_modify, hne, if_false] at hsock
    exact ⟨sock, by simpa using hsock, hstage⟩
  · cases h

theorem not_settled_of_greeted {l after : Lifecycle} {socket : Nat} {peer : PeerId}
    (h : l.greeted? socket = some (peer, after)) : ¬ l.Settled socket := by
  rintro ⟨sock, hsock, hstage⟩
  unfold greeted? at h
  split at h
  next hsocket =>
    obtain rfl := Option.some.inj (hsocket.symm.trans hsock)
    exact hstage rfl
  next => cases h

theorem settled_of_active {l : Lifecycle} {socket : Nat} {peer : PeerId}
    (h : l.Active socket peer) : l.Settled socket := by
  obtain ⟨sock, hsock, hstage⟩ := h
  exact ⟨sock, hsock, by simp [hstage]⟩

theorem settled_greeted {l after : Lifecycle} {socket : Nat} {peer : PeerId}
    (h : l.greeted? socket = some (peer, after)) : after.Settled socket := by
  unfold greeted? at h
  split at h
  next hsocket =>
    cases h
    exact ⟨_, by simp only [setStage, List.getElem?_modify, hsocket]; rfl, by simp⟩
  next => cases h

end Lifecycle

namespace Node

variable {σ : Type} {serve : (request : Request) → σ → request.Answer × σ} {node after : Node σ}
  {bound socket target : Nat} {r next : Reception}

/-! ## What has arrived -/

/-- What has arrived on a socket of a node is as the reader of its stream has it. -/
structure Shows (node : Node σ) (bound socket : Nat) (r : Reception) : Prop where
  bound : node.maxMessage = bound
  channel : ∃ channel, node.channels[socket]? = some channel ∧ channel.inbox = r.inbox ∧
    channel.ended = r.ended

theorem Shows.mapChannel (h : node.Shows bound socket r) {change : Channel → Channel}
    (hinbox : ∀ c, c.inbox = r.inbox → (change c).inbox = next.inbox)
    (hended : ∀ c, c.ended = r.ended → (change c).ended = next.ended) :
    (node.mapChannel socket change).Shows bound socket next := by
  obtain ⟨channel, hchannel, hsame, hsame'⟩ := h.channel
  refine ⟨h.bound, change channel, ?_, hinbox channel hsame, hended channel hsame'⟩
  simp [Node.mapChannel, hchannel]

theorem Shows.mapChannel_ne (h : node.Shows bound socket r) (hne : target ≠ socket)
    (change : Channel → Channel) : (node.mapChannel target change).Shows bound socket r := by
  obtain ⟨channel, hchannel, hsame⟩ := h.channel
  refine ⟨h.bound, channel, ?_, hsame⟩
  simp [Node.mapChannel, hne, hchannel]

theorem Shows.advance (h : node.Shows bound socket r) (step : Lifecycle → Option Lifecycle) :
    (node.advance step).Shows bound socket r := by
  unfold Node.advance
  split <;> exact ⟨h.bound, h.channel⟩

theorem Shows.follow (h : node.Shows bound socket r) (lifecycle : Lifecycle) :
    (node.follow lifecycle).Shows bound socket r := by
  obtain ⟨channel, hchannel, hsame⟩ := h.channel
  refine ⟨h.bound, channel, ?_, hsame⟩
  obtain ⟨hlt, -⟩ := List.getElem?_eq_some_iff.mp hchannel
  rw [Node.follow, List.getElem?_append_left hlt, hchannel]

/-- Sending leaves alone what has arrived. -/
theorem Shows.send (h : node.Shows bound socket r) (target : Nat) (frame : Frame) :
    (node.send target frame).2.Shows bound socket r := by
  unfold Node.send
  split
  · exact h
  · split
    · exact h
    · by_cases hsocket : target = socket
      · rw [hsocket]
        exact h.mapChannel (fun _ hc => hc) fun _ hc => hc
      · exact h.mapChannel_ne hsocket _

variable (serve) in
/-- Handling a frame or a submitted message leaves alone what has arrived. -/
theorem Shows.perform {α : Type} (h : node.Shows bound socket r)
    (routine : Routine SessionRequest.Answer α) (source : Option Nat) :
    (node.perform serve source routine).2.Shows bound socket r := by
  induction routine generalizing node with
  | done result => exact h
  | ask request next ih =>
      refine ih _ ?_
      cases request with
      | reply frame =>
          cases source with
          | none => exact h
          | some target => exact h.send target frame
      | _ => exact ⟨h.bound, h.channel⟩

theorem Shows.announceNext (h : node.Shows bound socket r)
    (hnext : node.announceNext = some after) : after.Shows bound socket r := by
  unfold Node.announceNext at hnext
  split at hnext
  next => cases hnext
  next announcement rest hannouncements =>
    obtain rfl := Option.some.inj hnext
    have hshown : Shows { node with announcements := rest } bound socket r := ⟨h.bound, h.channel⟩
    have hsent := hshown.send announcement.socket (.inv [announcement.outpoint])
    unfold announce
    dsimp only
    split
    · exact hsent
    · exact ⟨hsent.bound, hsent.channel⟩

/-! ## Attempts to read -/

/-- A socket that can go on when it is greeted reads as the reader of its stream does. -/
theorem Shows.greet (h : node.Shows bound socket r) (hstage : r.stage = .greeting) {peer : PeerId}
    {lifecycle : Lifecycle} (hgreeted : node.lifecycle.greeted? socket = some (peer, lifecycle)) :
    (node.greet socket false).1 = (r.attempt bound).stage.greeted peer ∧
      (node.greet socket false).2.Shows bound socket (r.attempt bound) := by
  obtain ⟨channel, hchannel, hinbox, hended⟩ := h.channel
  simp only [Node.greet, Reception.attempt, hstage, hchannel, hinbox, hended, hgreeted]
  cases Handshake.read r.inbox with
  | complete done rest =>
      have hnext : Shows { node with lifecycle } bound socket r := ⟨h.bound, h.channel⟩
      exact ⟨rfl, hnext.mapChannel (fun _ _ => rfl) fun _ hc => hc⟩
  | refused cause => exact ⟨rfl, (h.advance _).bound, (h.advance _).channel⟩
  | incomplete shortage =>
      by_cases hover : r.ended
      · simp only [if_pos hover]
        exact ⟨rfl, (h.advance _).bound, (h.advance _).channel⟩
      · simp only [if_neg hover, hstage]
        exact ⟨rfl, h⟩

variable (serve) in
/-- A session's turn reads as the reader of its stream does, and handles the frame that was read if
the budget of its kind allows. -/
theorem Shows.turn (h : node.Shows bound socket r) (hstage : r.stage = .framing)
    (hlive : node.lifecycle.isCancelled socket = false) (now : Nat) (peer : PeerId) :
    let read := r.attempt bound
    let turned := node.turn serve now socket peer
    turned.2.Shows bound socket read ∧
      (turned.1 = read.stage.closed ∧ read.frames = r.frames ∨
        ∃ frame, read.frames = r.frames ++ [frame] ∧ read.stage = .framing ∧
          ∃ before : Node σ, before.Shows bound socket read ∧
            (turned = (some none, before) ∨ turned = Prod.map some id
              (before.perform serve (some socket) (Session.handle peer frame)))) := by
  obtain ⟨channel, hchannel, hinbox, hended⟩ := h.channel
  simp only [Node.turn, Reception.attempt, hstage, hchannel, hinbox, hended, hlive, h.bound]
  rw [if_neg Bool.false_ne_true]
  cases Frame.read bound r.inbox with
  | refused cause => exact ⟨⟨h.bound, h.channel⟩, .inl ⟨rfl, rfl⟩⟩
  | incomplete shortage =>
      by_cases hover : r.ended
      · simp only [if_pos hover]
        cases shortage <;> exact ⟨⟨h.bound, h.channel⟩, .inl ⟨rfl, trivial⟩⟩
      · simp only [if_neg hover, hstage]
        exact ⟨h, .inl ⟨rfl, trivial⟩⟩
  | complete frame rest =>
      dsimp only
      generalize channel.limiter.check now frame.kind = checked
      obtain ⟨accepted, limiter⟩ := checked
      have hbefore : (node.mapChannel socket fun c => { c with inbox := rest, limiter }).Shows
          bound socket ⟨rest, r.ended, .framing, r.frames ++ [frame]⟩ :=
        h.mapChannel (fun _ _ => rfl) fun _ hc => hc
      cases accepted with
      | false => exact ⟨hbefore, .inr ⟨frame, rfl, rfl, _, hbefore, .inl rfl⟩⟩
      | true =>
          have hafter := hbefore.perform serve (Session.handle peer frame) (some socket)
          exact ⟨hafter, .inr ⟨frame, rfl, rfl, _, hbefore, .inr rfl⟩⟩

variable (serve) in
theorem Shows.turn_ne (h : node.Shows bound socket r) (hne : target ≠ socket) (now : Nat)
    (peer : PeerId) : (node.turn serve now target peer).2.Shows bound socket r := by
  unfold Node.turn
  split
  · exact h
  · split
    · exact h
    · split
      · split
        · split <;> exact h
        · exact h
      · exact h
      · dsimp only
        split
        · exact (h.mapChannel_ne hne _).perform serve _ _
        · exact h.mapChannel_ne hne _

/-! ## Turns -/

/-- A socket that has been read as the reader of its stream does: while it greets, so does the
reader, and while a session runs on it, the reader reads frames. -/
structure Reads (node : Node σ) (bound socket : Nat) (r : Reception) : Prop where
  shows : node.Shows bound socket r
  greeting : ¬ node.lifecycle.Settled socket → r.stage = .greeting
  framing : ∀ peer, node.lifecycle.Active socket peer → r.stage = .framing

theorem Reads.keep (h : node.Reads bound socket r) (hshows : after.Shows bound socket next)
    (hstage : next.stage = r.stage)
    (hsettled : node.lifecycle.Settled socket → after.lifecycle.Settled socket)
    (hactive : ∀ peer, after.lifecycle.Active socket peer → node.lifecycle.Active socket peer) :
    after.Reads bound socket next where
  shows := hshows
  greeting hunsettled := hstage.trans (h.greeting (mt hsettled hunsettled))
  framing peer hafter := hstage.trans (h.framing peer (hactive peer hafter))

theorem Reads.calm (h : node.Reads bound socket r) (hshows : after.Shows bound socket r)
    (hcalm : node.lifecycle.Calm after.lifecycle) : after.Reads bound socket r :=
  h.keep hshows rfl (hcalm.settled socket) (hcalm.active socket)

theorem calm_failGreeting (node : Node σ) (target : Nat) :
    node.lifecycle.Calm (node.failGreeting target).lifecycle := by
  unfold failGreeting advance
  split
  next lifecycle hfailed => exact Lifecycle.calm_failed hfailed
  next => exact .refl _

theorem Reads.greet (h : node.Reads bound socket r) (target : Nat) (late : Bool) :
    ∃ next, ReflTransGen (Moves bound) r next ∧
      (node.greet target late).2.Reads bound socket next := by
  have hfailed : (node.failGreeting target).Reads bound socket r :=
    h.calm (h.shows.advance _) (node.calm_failGreeting target)
  unfold Node.greet
  split
  next => exact ⟨r, .refl, h⟩
  next channel hchannel =>
    split
    next =>
      split
      · exact ⟨r, .refl, hfailed⟩
      · split
        · exact ⟨r, .refl, hfailed⟩
        · exact ⟨r, .refl, h⟩
    next => exact ⟨r, .refl, hfailed⟩
    next rest hread =>
      split
      next => exact ⟨r, .refl, h⟩
      next peer lifecycle hgreeted =>
        have hnode : Shows { node with lifecycle } bound socket r :=
          ⟨h.shows.bound, h.shows.channel⟩
        by_cases hsocket : target = socket
        · subst hsocket
          obtain ⟨shown, hshown, hinbox, -⟩ := h.shows.channel
          obtain rfl : channel = shown := Option.some.inj (hchannel.symm.trans hshown)
          have hattempt : r.attempt bound = { r with inbox := rest, stage := .framing } := by
            rw [Reception.attempt, h.greeting (Lifecycle.not_settled_of_greeted hgreeted)]
            dsimp only
            rw [← hinbox, hread]
          refine ⟨r.attempt bound, .single (.event .attempt), ?_, ?_, ?_⟩
          · rw [hattempt]
            exact hnode.mapChannel (fun _ _ => rfl) fun _ hc => hc
          · exact fun hunsettled => absurd (Lifecycle.settled_greeted hgreeted) hunsettled
          · exact fun _ _ => by rw [hattempt]
        · refine ⟨r, .refl, h.keep (hnode.mapChannel_ne hsocket _) rfl ?_ ?_⟩
          · exact (Lifecycle.keeps_greeted hgreeted).settled socket
          · exact fun other => Lifecycle.active_of_greeted hgreeted hsocket

/-- A session's turn attempts to read a frame at most, and reads on if the session goes on. -/
theorem Reads.turn (h : node.Reads bound socket r) {now : Nat} {peer : PeerId}
    {reason : Option (Option CloseReason)} (hactive : node.lifecycle.Active socket peer)
    (hturn : node.turn serve now socket peer = (reason, after)) :
    ∃ next, ReflTransGen (Moves bound) r next ∧ after.Shows bound socket next ∧
      (reason = some none → next.stage = .framing) := by
  have hstage := h.framing peer hactive
  cases hlive : node.lifecycle.isCancelled socket with
  | true =>
      rw [Node.turn, if_pos hlive] at hturn
      obtain ⟨rfl, rfl⟩ := Prod.mk.inj hturn
      exact ⟨r, .refl, h.shows, fun _ => hstage⟩
  | false =>
      obtain ⟨hshows, hread⟩ := h.shows.turn serve hstage hlive now peer
      rw [hturn] at hshows hread
      refine ⟨r.attempt bound, .single (.event .attempt), hshows, fun hon => ?_⟩
      rcases hread with ⟨hclosed, -⟩ | ⟨frame, -, hframing, -⟩
      · exact absurd (hclosed.symm.trans hon) (Reception.Stage.closed_ne _)
      · exact hframing

/-- In every turn of a node, the reader of a socket's stream moves along. -/
theorem Turn.reads (h : node.Turn serve after) (hr : node.Reads bound socket r) :
    ∃ next, ReflTransGen (Moves bound) r next ∧ after.Reads bound socket next := by
  have hsame : ∀ {after : Node σ}, after.Shows bound socket r →
      after.lifecycle.sockets = node.lifecycle.sockets →
      ∃ next, ReflTransGen (Moves bound) r next ∧ after.Reads bound socket next := by
    intro after hshows hsockets
    refine ⟨r, .refl, hr.keep hshows rfl ?_ ?_⟩
    · rw [Lifecycle.Settled, Lifecycle.Settled, hsockets]
      exact id
    · intro peer
      rw [Lifecycle.Active, Lifecycle.Active, hsockets]
      exact id
  cases h with
  | connect event lifecycle hevent hstep =>
      exact ⟨r, .refl, hr.calm (hr.shows.follow lifecycle) (Lifecycle.calm_of_step? hstep hevent)⟩
  | greet target late => exact hr.greet target late
  | receive target bytes =>
      by_cases hsocket : target = socket
      · subst hsocket
        refine ⟨_, .single (.event (.arrival bytes)), hr.keep ?_ rfl id fun _ => id⟩
        refine hr.shows.mapChannel (fun c hc => ?_) fun _ hc => hc
        rw [hc]
        rfl
      · exact hsame (hr.shows.mapChannel_ne hsocket _) rfl
  | endStream target =>
      by_cases hsocket : target = socket
      · subst hsocket
        refine ⟨_, .single .ending, hr.keep ?_ rfl id fun _ => id⟩
        exact hr.shows.mapChannel (fun _ hc => hc) fun _ _ => rfl
      · exact hsame (hr.shows.mapChannel_ne hsocket _) rfl
  | handle now target peer _ hactive hturn =>
      obtain ⟨hlifecycle, -⟩ := turn_sockets hturn
      by_cases hsocket : target = socket
      · subst hsocket
        obtain ⟨next, hmoves, hshows, hstage⟩ := hr.turn hactive hturn
        refine ⟨next, hmoves, hshows, fun hunsettled => absurd ?_ hunsettled,
          fun _ _ => hstage rfl⟩
        rw [hlifecycle]
        exact Lifecycle.settled_of_active hactive
      · have hshows := hr.shows.turn_ne serve hsocket now peer
        rw [hturn] at hshows
        exact hsame hshows (congrArg Lifecycle.sockets hlifecycle)
  | leave now target peer reason left hactive hturn =>
      obtain ⟨hlifecycle, -⟩ := turn_sockets hturn
      obtain ⟨lifecycle, hended, hcalm, -, hnobody⟩ := Lifecycle.ended_of_active hactive
      have hleave : left.leave target = { left with lifecycle } := by
        simp [Node.leave, Node.advance, hlifecycle, hended]
      by_cases hsocket : target = socket
      · subst hsocket
        obtain ⟨next, hmoves, hshows, -⟩ := hr.turn hactive hturn
        refine ⟨next, hmoves, hshows.advance _, fun hunsettled => absurd ?_ hunsettled,
          fun other hother => absurd ?_ (hnobody other)⟩
        · rw [hleave]
          exact hcalm.settled _ (Lifecycle.settled_of_active hactive)
        · rwa [hleave] at hother
      · have hshows := hr.shows.turn_ne serve hsocket now peer
        rw [hturn] at hshows
        refine ⟨r, .refl, hr.calm (hshows.advance _) ?_⟩
        rw [hleave]
        exact hcalm
  | announce _ hnext =>
      exact hsame (hr.shows.announceNext hnext) (announceNext_sockets hnext).1
  | submit message =>
      exact hsame (hr.shows.perform serve _ _)
        (congrArg Lifecycle.sockets (perform_sockets serve (Session.submit message) none node).1)

/-- Through any turns, each socket of a node is read as the reader of its stream does. -/
theorem reads_of_turns (h : ReflTransGen (Turn serve) node after)
    (hr : node.Reads bound socket r) :
    ∃ next, ReflTransGen (Moves bound) r next ∧ after.Reads bound socket next := by
  induction h with
  | refl => exact ⟨r, .refl, hr⟩
  | tail turns last ih =>
      obtain ⟨middle, hmoves, hmiddle⟩ := ih
      obtain ⟨next, hmoves', hnext⟩ := last.reads hmiddle
      exact ⟨next, hmoves.trans hmoves', hnext⟩

/-- A socket that opens is read from its start. -/
theorem reads_of_opened (haligned : node.channels.length = node.lifecycle.sockets.length)
    {event : Lifecycle.Event} {lifecycle : Lifecycle}
    (hevent : ∀ socket, event ≠ .greeted socket)
    (hstep : node.lifecycle.step? event = some lifecycle)
    (hnew : node.channels.length ≤ socket) (hopened : socket < lifecycle.sockets.length) :
    (node.follow lifecycle).Reads node.maxMessage socket .start where
  shows := by
    refine ⟨rfl, .fresh, ?_, rfl, rfl⟩
    rw [Node.follow, List.getElem?_append_right hnew, List.getElem?_replicate]
    exact if_pos (by omega)
  greeting _ := rfl
  framing peer hactive := by
    obtain ⟨sock, hsock, -⟩ :=
      (Lifecycle.calm_of_step? hstep hevent).active socket peer hactive
    obtain ⟨hlt, -⟩ := List.getElem?_eq_some_iff.mp hsock
    omega

/-- An inbound connection that is not turned away is read from its start. -/
theorem reads_of_accept (haligned : node.channels.length = node.lifecycle.sockets.length)
    {address : Address} (h : node.accept address = (some socket, after)) :
    after.Reads node.maxMessage socket .start := by
  cases hstep : node.lifecycle.accept? address with
  | none => simp [accept, hstep] at h
  | some lifecycle =>
      obtain ⟨hfollow, hopened⟩ := accept_eq_follow haligned hstep
      obtain ⟨rfl, hlt⟩ := hopened socket (congrArg Prod.fst h)
      obtain rfl : node.follow lifecycle = after := hfollow.symm.trans (congrArg Prod.snd h)
      have haccept (socket) : Lifecycle.Event.accept address ≠ .greeted socket := by simp
      exact reads_of_opened haligned haccept hstep (Nat.le_refl _) hlt

end Node

end ChatRelay
