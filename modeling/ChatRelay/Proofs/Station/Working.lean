import ChatRelay.Proofs.Station.Refinement
import ChatRelay.Proofs.Station.Sessions

/-!
# Nodes that move by turns

What is known of stations holds of nodes that move by turns, since each turn is a run of the node's
station. What such a node caches and delivers is authentic, each of its sockets is read as the
reader of its stream does, a turn that ends a session ends it as its station may close it, and all
of this goes on until the node comes to rest.
-/

namespace ChatRelay

open Reception (Moves)
open Relation (ReflTransGen)

variable {B : OutpointStore} {fails : StoreCall → Prop}
  {answers : (call : LedgerCall) → call.Answer → Prop}
  {serve : (request : Request) → B.State → request.Answer × B.State}
  {permits maxMessage now socket : Nat} {world : B.State} {start node later after : Node B.State}
  {peer : PeerId} {cause : CloseReason}

/-! ## What is cached and delivered -/

/-- Whether octets are a message of an outpoint, and nothing else, that is signed by the owner of an
output which the ledger has shown as unspent. -/
def Vouched (answers : (call : LedgerCall) → call.Answer → Prop) (outpoint : Outpoint)
    (bytes : Bytes) : Prop :=
  ∃ message script kind owner, Message.decode bytes = .ok message ∧
    message.outpoint = outpoint ∧ message.encode = bytes ∧
    answers (.output outpoint) (.ok (some ⟨script, false⟩)) ∧
    OwnerSigned message script kind owner

theorem Station.Authentic.vouched {s : Station B} {o : Outpoint} {b : Bytes}
    (h : s.Authentic answers o b) : Vouched answers o b := by
  obtain ⟨message, hdecode, rfl, hencode, handler, -, d, -, -, admission, -, e, -, script, -,
    hshown, hsigned⟩ := h
  exact ⟨message, script, admission.script, admission.owner, hdecode, rfl, hencode, hshown, hsigned⟩

namespace Station

section

variable (hserves : ∀ (request : Request) (world : B.State),
  request.Served B.Performs fails answers world (serve request world).1 (serve request world).2)

include hserves

/-- A node that starts with an empty store and moves by turns caches authentic messages of recorded
outpoints only. On each socket it sends the greeting and then frames, of which the deliveries are
authentic. -/
theorem vouched_of_turns (hstart : Node.start? permits maxMessage world = some start)
    (hempty : ∀ o, (B.perform (.has o) world).1 = .ok false)
    (hturns : ReflTransGen (Node.Turn serve) start node) :
    (∀ o b, (B.perform (.payload o) node.world).1 = .ok (some b) →
        (B.perform (.has o) node.world).1 = .ok true ∧ Vouched answers o b) ∧
      ∀ (socket : Nat) (channel : Channel), node.channels[socket]? = some channel →
        ∃ frames : List Frame,
          channel.outbox.reverse.map .ok = (.ok Handshake.greeting : Except WireError Bytes) ::
            frames.map Frame.serialize ∧
          ∀ b, .data b ∈ frames → ∃ o, Vouched answers o b := by
  obtain ⟨s, hreaches, hs⟩ := reaches_of_start hserves hstart (.start ⟨0, true⟩) hturns
  obtain ⟨queue, hnode⟩ := hs.same
  obtain ⟨hclean, hposted, htraced⟩ :=
    clean_of_reaches hstart (entries_of_start? hstart hempty) rfl hreaches
  refine ⟨fun o b hcached => ?_, fun socket channel hchannel => ?_⟩
  · have hworld : s.node.world = node.world := by rw [hnode]
    rw [← hworld] at hcached ⊢
    exact (hclean.payload hcached).imp_right (·.vouched)
  · have hsame : s.node.channels[socket]? = some channel := by rw [hnode, hchannel]
    refine ⟨(s.sentOn socket).map (·.frame), ?_, fun b hb => ?_⟩
    · rw [List.map_map]
      exact hposted.outbox socket channel.outbox (by simp [hsame])
    · obtain ⟨x, hx, hframe⟩ := List.mem_map.mp hb
      obtain ⟨-, -, -, o, -, -, -, hauthentic⟩ :=
        hclean.requested htraced (List.mem_filter.mp hx).1 hframe
      exact ⟨o, hauthentic.vouched⟩

/-! ## How sessions end -/

/-- A turn that ends a session is a closing of a station that the node's station reaches. -/
theorem closes_of_turn {s : Station B} (hs : s.Rests node)
    (hactive : node.lifecycle.Active socket peer)
    (hturn : node.turn serve now socket peer = (some (some cause), after)) :
    ∃ t, Reaches fails answers s t ∧ t.Mirrors after ∧ t.Closes socket peer cause := by
  obtain ⟨t, hreaches, ht, hhandled⟩ := reaches_handled hserves hs hactive hturn
  refine ⟨t, hreaches, ht, ?_⟩
  rcases hhandled.ended cause rfl with ⟨rfl, hidle⟩ | ⟨handler, hhandler, hsocket, hstage⟩
  · exact .turned serve now (fun handler hhandler hsocket =>
      (hs.attended handler hhandler socket hsocket).2 peer hactive) hidle
  · exact .handled handler hhandler hsocket hstage

/-- A node accepts a connection and comes to rest from there as its station does. -/
theorem reaches_settled {s : Station B} {address : Address} {lifecycle : Lifecycle}
    (hs : s.Rests node) (haccept : node.lifecycle.accept? address = some lifecycle) :
    ∃ t, Reaches fails answers s t ∧ t.Rests ((node.accept address).2.settle serve) := by
  have hturn : node.Turn serve (node.accept address).2 :=
    Node.turn_of_accept hs.aligned haccept
  have hsettle : ReflTransGen (Node.Turn serve) (node.accept address).2
      ((node.accept address).2.settle serve) :=
    Node.turns_settle (hturn.aligned hs.aligned)
  exact reaches_of_turns hserves hs (.head hturn hsettle)

end

theorem exists_course {s t : Station B} (h : Reaches fails answers s t) :
    ∃ moves, Course fails answers s moves t := by
  induction h with
  | refl => exact ⟨[], .refl s⟩
  | tail _ hstep ih =>
      obtain ⟨moves, hcourse⟩ := ih
      obtain ⟨move, hstep⟩ := hstep
      exact ⟨moves ++ [move], hcourse.tail hstep⟩

/-- However a node has come to exchange greetings with a peer and goes on from there by turns: the
turn that ends the peer's session ends it where the stream that has arrived by then says, provided
that its store calls and sendings succeed. -/
theorem ends_of_turns {late : Bool}
    (hserves : ∀ (request : Request) (world : B.State), request.Served B.Performs
      (fun _ => False) answers world (serve request world).1 (serve request world).2)
    (hstart : Node.start? permits maxMessage world = some start)
    (hbefore : ReflTransGen (Node.Turn serve) start node)
    (hgreet : (node.greet socket late).1 = some (.ok peer))
    (hlater : ReflTransGen (Node.Turn serve) (node.greet socket late).2 later)
    (hactive : later.lifecycle.Active socket peer)
    (hturn : later.turn serve now socket peer = (some (some cause), after)) :
    ∃ s moves t, Reaches (fun _ => False) answers (idle start (.start ⟨0, true⟩)) s ∧
      s.Rests node ∧ Course (fun _ => False) answers (s.greeted socket late) moves t ∧
      t.Mirrors after ∧ t.Closes socket peer cause ∧
      ((∀ handler ∈ t.handlers, handler.errand.socket? = some socket →
          ∀ said ∈ handler.transcript, ¬ said.lost) →
        ∃ readings, t.Ends socket ((s.greeted socket late).inbox socket ++ arrived socket moves)
          readings cause) := by
  obtain ⟨s, hreaches, hs⟩ := reaches_of_start hserves hstart (.start ⟨0, true⟩) hbefore
  have hgreeted : (s.greeted socket late).Rests (node.greet socket late).2 := hs.greet socket late
  obtain ⟨middle, hmiddle, hrests⟩ := reaches_of_turns hserves hgreeted hlater
  obtain ⟨t, hlast, ht, hcloses⟩ := closes_of_turn hserves hrests hactive hturn
  obtain ⟨moves, hcourse⟩ := exists_course (hmiddle.trans hlast)
  refine ⟨s, moves, t, hreaches, hs, hcourse, ht, hcloses, fun hsent => ?_⟩
  obtain ⟨queue, hnode⟩ := hs.same
  have hok : (s.node.greet socket late).1 = some (.ok peer) := by
    rw [hnode, Node.greet_announcements, hgreet]
  obtain ⟨hunlimited, haccounted, hdictated⟩ := unlimited_of_reaches hstart hreaches
  have hstep : Step (fun _ => False) answers s .disturb (s.greeted socket late) :=
    .greet s socket late
  obtain ⟨hheard, hattended⟩ := heard_greeted answers hunlimited haccounted hok
  obtain ⟨⟨readings, hheard⟩, hattended, -⟩ :=
    hcourse.heard hheard hattended (hdictated.step hstep)
  exact ⟨readings, hheard.ends hattended hsent hcloses⟩

end Station

/-! ## What is read -/

namespace Node

variable {σ : Type} {serve : (request : Request) → σ → request.Answer × σ}
  {node accepted after : Node σ}

/-- After an inbound connection has been accepted, and whatever turns a node takes from there: a
session's turn on the socket is an attempt to read of the reader of its stream, which has read the
greeting. It reports what the reader does, or handles the frame that the reader reads. -/
theorem reads_of_accepted {address : Address}
    (haligned : node.channels.length = node.lifecycle.sockets.length)
    (haccept : node.accept address = (some socket, accepted))
    (hturns : ReflTransGen (Turn serve) accepted after)
    (hactive : after.lifecycle.Active socket peer)
    (hlive : after.lifecycle.isCancelled socket = false) (now : Nat) :
    ∃ r, ReflTransGen (Moves node.maxMessage) .start r ∧ r.stage = .framing ∧
      ((after.turn serve now socket peer).1 = (r.attempt node.maxMessage).stage.closed ∧
          (r.attempt node.maxMessage).frames = r.frames ∨
        ∃ frame, (r.attempt node.maxMessage).frames = r.frames ++ [frame] ∧
          (r.attempt node.maxMessage).stage = .framing) := by
  obtain ⟨r, hmoves, hr⟩ := reads_of_turns hturns (reads_of_accept haligned haccept)
  have hstage := hr.framing peer hactive
  refine ⟨r, hmoves, hstage, ?_⟩
  rcases (hr.shows.turn serve hstage hlive now peer).2 with hclosed | ⟨frame, hread, hframing, -⟩
  · exact .inl hclosed
  · exact .inr ⟨frame, hread, hframing⟩

end Node

end ChatRelay
