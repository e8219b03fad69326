import ChatRelay.Proofs.Station.Hearing

/-!
# A session is the fold of its stream

A session closes where its stream ends or cannot be read on, behind a delivery that does not decode,
or when it is told to. Until then it has handled what its limits let through of the frames that its
stream begins with, and of the store it has changed no more than that asks for.
-/

namespace ChatRelay

namespace Lifecycle

variable {l after : Lifecycle} {socket : Nat} {peer other : PeerId}

theorem Active.unique (h : l.Active socket peer) (hother : l.Active socket other) :
    other = peer := by
  obtain ⟨sock, hsock, hstage⟩ := h
  obtain ⟨sock', hsock', hstage'⟩ := hother
  obtain rfl := Option.some.inj (hsock.symm.trans hsock')
  exact SocketStage.active.inj (hstage'.symm.trans hstage)

/-- When its greetings are exchanged, a peer's session begins. -/
theorem active_self_of_greeted (h : l.greeted? socket = some (peer, after)) :
    after.Active socket peer := by
  unfold greeted? at h
  split at h
  next hsocket =>
    cases h
    exact ⟨_, by simp only [setStage, List.getElem?_modify, hsocket]; rfl, rfl⟩
  next => cases h

end Lifecycle

theorem Node.greet_eq_of_ok {σ : Type} {node : Node σ} {socket : Nat} {late : Bool} {peer : PeerId}
    (h : (node.greet socket late).1 = some (.ok peer)) :
    ∃ channel rest lifecycle, node.channels[socket]? = some channel ∧
      node.lifecycle.greeted? socket = some (peer, lifecycle) ∧ (node.greet socket late).2 =
        { node with lifecycle }.mapChannel socket fun c => { c with inbox := rest } := by
  unfold greet at h ⊢
  split at h
  next => cases h
  next channel hchannel =>
    split at h
    next =>
      split at h
      · cases h
      · split at h <;> cases h
    next => cases h
    next rest hread =>
      split at h
      next => cases h
      next lifecycle hgreeted =>
        cases h
        exact ⟨channel, rest, lifecycle, hchannel, hgreeted, rfl⟩

/-- A turn that ends a session and handles nothing notices that the session is to end, or that no
frame can be read any more. -/
theorem Node.turn_idle_cases {σ : Type} {serve : (request : Request) → σ → request.Answer × σ}
    {now socket : Nat} {peer : PeerId} {node : Node σ} {reason : CloseReason}
    (hturn : node.turn serve now socket peer = (some (some reason), node)) :
    (node.lifecycle.isCancelled socket ∧ reason = .shutdown) ∨
      ∃ channel, node.channels[socket]? = some channel ∧
        (∀ frame rest, Frame.read node.maxMessage channel.inbox ≠ .complete frame rest) ∧
        (channel.ended ∧ (Frame.read node.maxMessage channel.inbox).failure? = none ∧
            reason = .endOfStream ∨
          ∃ cause, (Frame.read node.maxMessage channel.inbox).failure? = some cause ∧
            reason = .unreadable cause ∧ (cause.InputEnded → channel.ended)) := by
  cases hlive : node.lifecycle.isCancelled socket with
  | true =>
      rw [turn, if_pos hlive] at hturn
      cases hturn
      exact .inl ⟨rfl, rfl⟩
  | false =>
      right
      cases hchannel : node.channels[socket]? with
      | none => simp [turn, hlive, hchannel] at hturn
      | some channel =>
          refine ⟨channel, rfl, ?_⟩
          have hshows : node.Shows node.maxMessage socket
              ⟨channel.inbox, channel.ended, .framing, []⟩ := ⟨rfl, channel, hchannel, rfl, rfl⟩
          have hshown := (hshows.turn serve rfl hlive now peer).1
          cases hread : Frame.read node.maxMessage channel.inbox with
          | complete frame rest =>
              -- a frame that is handled is gone from the inbox
              simp only [hturn, Reception.attempt, hread] at hshown
              obtain ⟨_, hsame, hinbox, -⟩ := hshown.channel
              obtain rfl := Option.some.inj (hchannel.symm.trans hsame)
              obtain ⟨hsplit, hfits⟩ := Frame.eq_octets_append_of_read hread
              have hnothing : frame.octets = [] :=
                List.append_left_eq_self.mp (hsplit.symm.trans hinbox)
              exact absurd hnothing (Frame.ne_nil_of_serialize hfits.serialize)
          | incomplete shortage =>
              refine ⟨by simp, ?_⟩
              by_cases hended : channel.ended
              · simp only [turn, hlive, hchannel, hread, hended, if_true] at hturn
                dsimp only [Progress.failure?]
                cases hfailure : shortage.failure? with
                | none =>
                    rw [hfailure] at hturn
                    cases hturn
                    exact .inl ⟨hended, rfl, rfl⟩
                | some cause =>
                    rw [hfailure] at hturn
                    cases hturn
                    exact .inr ⟨cause, rfl, rfl, fun _ => hended⟩
              · simp [turn, hlive, hchannel, hread, hended] at hturn
          | refused cause =>
              obtain rfl : CloseReason.unreadable cause = reason := by
                simpa [turn, hlive, hchannel, hread] using hturn
              refine ⟨by simp, .inr ⟨cause, rfl, rfl, fun hended => ?_⟩⟩
              rcases Frame.refused_cases hread with ⟨tag, rfl⟩ | ⟨length, rfl⟩
              · exact hended.elim
              · exact hended.elim

namespace Station

variable {B : OutpointStore} {fails : StoreCall → Prop}
  {answers : (call : LedgerCall) → call.Answer → Prop} {s t : Station B} {socket : Nat}
  {peer : PeerId} {stream : Bytes} {readings : List Reading}

/-! ## Closing -/

/-- Whether nothing more arrives on a socket. -/
def Ended (s : Station B) (socket : Nat) : Prop :=
  ∃ channel ∈ s.node.channels[socket]?, channel.ended

/-- Why the session of a peer closes: it is ready and a turn reports the reason without handling
anything, or a frame was handled to that end. -/
inductive Closes (s : Station B) (socket : Nat) (peer : PeerId) (reason : CloseReason) : Prop
  | turned (serve : (request : Request) → B.State → request.Answer × B.State) (now : Nat)
      (hready : s.Ready socket)
      (hturn : s.node.turn serve now socket peer = (some (some reason), s.node))
  | handled (handler : Handler) (hhandler : handler ∈ s.handlers)
      (hsocket : handler.errand.socket? = some socket)
      (hstage : handler.stage = .running (.done (.session (some reason))))

/-- The ends of a session, and what it has read by then. -/
inductive Ends (s : Station B) (socket : Nat) (stream : Bytes) (readings : List Reading) :
    CloseReason → Prop
  | shutdown (hcancelled : s.node.lifecycle.isCancelled socket) :
      Ends s socket stream readings .shutdown
  | endOfStream (hended : s.Ended socket)
      (hread : Frame.readAll s.node.maxMessage stream = (readings.map (·.frame), none))
      (hsound : ∀ r ∈ readings, r.allowed → ¬ r.frame.Spoils) :
      Ends s socket stream readings .endOfStream
  | unreadable (cause : WireError)
      (hcause : cause.InputEnded ∧ s.Ended socket ∨ (∃ tag, cause = .unknownTag tag) ∨
        ∃ length highest, cause = .invalidDataLength length highest)
      (hread : Frame.readAll s.node.maxMessage stream = (readings.map (·.frame), some cause))
      (hsound : ∀ r ∈ readings, r.allowed → ¬ r.frame.Spoils) :
      Ends s socket stream readings (.unreadable cause)
  | undecodable (earlier : List Reading) (time : Nat) (body : Bytes) (cause : Message.Error)
      (hlast : readings = earlier ++ [⟨time, .data body, true⟩])
      (hdecode : Message.decode body = .error cause) :
      Ends s socket stream readings (.undecodable cause)

theorem Heard.inbox (hs : s.Heard socket peer stream readings) :
    stream = (readings.map (·.frame)).flatMap Frame.octets ++ s.inbox socket := by
  obtain ⟨channel, hchannel, hstream, -⟩ := hs.channel
  rw [Station.inbox, hchannel]
  exact hstream

/-- What has been read and what is left are together what the stream is read as. -/
theorem Heard.readAll (hs : s.Heard socket peer stream readings) :
    Frame.readAll s.node.maxMessage stream =
      (readings.map (·.frame) ++ (Frame.readAll s.node.maxMessage (s.inbox socket)).1,
        (Frame.readAll s.node.maxMessage (s.inbox socket)).2) := by
  rw [hs.inbox]
  exact Frame.readAll_append (by simpa using hs.fits) _

theorem mem_dropLast_or_eq_append {α : Type} {x : α} {xs : List α} (h : x ∈ xs) :
    x ∈ xs.dropLast ∨ ∃ earlier, xs = earlier ++ [x] := by
  induction xs using List.reverseRecOn with
  | nil => cases h
  | append_singleton earlier last _ =>
      rw [List.dropLast_concat]
      rcases List.mem_append.mp h with hearlier | hlast
      · exact .inl hearlier
      · exact .inr ⟨earlier, by rw [List.mem_singleton.mp hlast]⟩

theorem Heard.ends {reason : CloseReason}
    (hs : s.Heard socket peer stream readings) (hattended : s.Attended answers socket peer)
    (hsent : ∀ handler ∈ s.handlers, handler.errand.socket? = some socket →
      ∀ said ∈ handler.transcript, ¬ said.lost)
    (h : s.Closes socket peer reason) : s.Ends socket stream readings reason := by
  cases h with
  | turned serve now hready hturn =>
      have hsound : ∀ r ∈ readings, r.allowed → ¬ r.frame.Spoils := by
        intro r hr hallowed
        refine hattended.unspoiled hready ?_
        rw [hs.taken]
        exact List.mem_map_of_mem (List.mem_filter.mpr ⟨hr, hallowed⟩)
      have hall := hs.readAll
      rcases Node.turn_idle_cases hturn with ⟨hcancelled, rfl⟩ | ⟨channel, hchannel, hstop, hreason⟩
      · exact .shutdown hcancelled
      have hinbox : s.inbox socket = channel.inbox := by rw [Station.inbox, hchannel]; rfl
      rw [hinbox, Frame.readAll_of_not_complete hstop, List.append_nil] at hall
      rcases hreason with ⟨hended, hnone, rfl⟩ | ⟨cause, hcause, rfl, hended⟩
      · exact .endOfStream ⟨channel, hchannel, hended⟩ (hnone ▸ hall) hsound
      · refine .unreadable cause ?_ (hcause ▸ hall) hsound
        exact (Frame.failure?_cases hcause).imp_left fun h => ⟨h, channel, hchannel, hended h⟩
  | handled handler hhandler hsocket hstage =>
      obtain ⟨frame, herrand⟩ := hattended.peer handler hhandler hsocket
      have hcoherent := hattended.coherent handler hhandler hsocket
      have hhandles := hcoherent.handles herrand hstage
        (hcoherent.succeeds (hattended.performed handler hhandler hsocket)
          (hsent handler hhandler hsocket))
      have htaken : frame ∈ Reading.passed readings :=
        hs.taken ▸ mem_taken.mpr ⟨handler, hhandler, peer, herrand⟩
      obtain ⟨r, hr, rfl⟩ := List.mem_map.mp htaken
      obtain ⟨hr, hallowed⟩ := List.mem_filter.mp hr
      obtain ⟨time, frame, allowed⟩ := r
      generalize handler.replies = replies, handler.transcript = transcript at hhandles
      cases hhandles with
      | @undecodable body cause hdecode =>
          obtain rfl : allowed = true := hallowed
          rcases mem_dropLast_or_eq_append hr with hearlier | ⟨earlier, hlast⟩
          · exact absurd ⟨cause, hdecode⟩ (hs.unspoiled _ hearlier rfl)
          · exact .undecodable earlier time body cause hlast hdecode

/-- A session that is ready and not told to end reads the next frame, closes, or waits for more. -/
theorem Heard.onward (hs : s.Heard socket peer stream readings)
    (hactive : s.node.lifecycle.Active socket peer)
    (hlive : ¬ s.node.lifecycle.isCancelled socket) (hready : s.Ready socket) :
    (∃ frame allowed node, s.Reads socket peer frame allowed node) ∨
      (∃ reason, s.Closes socket peer reason) ∨
      ¬ s.Ended socket ∧ ∃ shortage,
        Frame.read s.node.maxMessage (s.inbox socket) = .incomplete shortage := by
  obtain ⟨channel, hchannel, -⟩ := hs.channel
  have hinbox : s.inbox socket = channel.inbox := by rw [Station.inbox, hchannel]; rfl
  -- where no frame is handled nothing is asked, so that any ledger will do
  have hcloses : ∀ reason, s.node.turn (B.serve sampleChain) 0 socket peer =
      (some (some reason), s.node) → ∃ reason, s.Closes socket peer reason :=
    fun reason hturn => ⟨reason, .turned _ 0 hready hturn⟩
  rw [hinbox]
  cases hread : Frame.read s.node.maxMessage channel.inbox with
  | complete frame rest =>
      generalize hlimit : channel.limiter.check 0 frame.kind = limited
      obtain ⟨allowed, limiter⟩ := limited
      exact .inl ⟨frame, allowed, _,
        .intro 0 channel rest limiter hactive hlive hready hchannel hread hlimit⟩
  | refused cause =>
      exact .inr (.inl (hcloses (.unreadable cause)
        (by simp [Node.turn, hlive, hchannel, hread])))
  | incomplete shortage =>
      right
      by_cases hended : channel.ended
      · left
        cases hfailure : shortage.failure? with
        | none =>
            exact hcloses .endOfStream
              (by simp [Node.turn, hlive, hchannel, hread, hended, hfailure])
        | some cause =>
            exact hcloses (.unreadable cause)
              (by simp [Node.turn, hlive, hchannel, hread, hended, hfailure])
      · refine .inr ⟨?_, shortage, rfl⟩
        rintro ⟨shown, hshown, hover⟩
        obtain rfl := Option.some.inj (hchannel.symm.trans hshown)
        exact hended hover

/-! ## Whole sessions -/

/-- A node after a socket has read its greeting. -/
def greeted (s : Station B) (socket : Nat) (late : Bool) : Station B :=
  { s with node := (s.node.greet socket late).2 }

/-- What a run of a node keeps that a session relies on when it begins. -/
theorem unlimited_of_reaches {permits maxMessage : Nat} {world : B.State} {node : Node B.State}
    {w : Watcher} (hnode : Node.start? permits maxMessage world = some node)
    (h : Reaches fails answers (idle node w) s) :
    s.Unlimited ∧ s.Accounted ∧ s.Dictated := by
  refine ⟨?_, (accounted_of_reaches hnode h).1, ?_⟩
  · induction h with
    | refl =>
        obtain ⟨lifecycle, -, rfl⟩ := Option.map_eq_some_iff.mp hnode
        exact fun socket channel hchannel => nomatch hchannel
    | tail _ hstep ih => exact ih.step hstep.choose_spec
  · induction h with
    | refl => exact dictated_idle node w
    | tail _ hstep ih => exact ih.step hstep.choose_spec

variable (answers) in
/-- When a greeting has been read the session has read nothing yet. -/
theorem heard_greeted {late : Bool} (hunlimited : s.Unlimited) (haccounted : s.Accounted)
    (hgreet : (s.node.greet socket late).1 = some (.ok peer)) :
    (s.greeted socket late).Heard socket peer ((s.greeted socket late).inbox socket) [] ∧
      (s.greeted socket late).Attended answers socket peer := by
  obtain ⟨channel, rest, lifecycle, hchannel, hgreeted, hnode⟩ := Node.greet_eq_of_ok hgreet
  have hunsettled := Lifecycle.not_settled_of_greeted hgreeted
  have hnobody : ∀ handler ∈ s.handlers, handler.errand.socket? ≠ some socket := by
    intro handler hhandler hsocket
    cases herrand : handler.errand with
    | submission message => simp [herrand, Errand.socket?] at hsocket
    | session target other frame =>
        obtain rfl : target = socket := by simpa [herrand, Errand.socket?] using hsocket
        exact hunsettled (haccounted.attributed handler hhandler target other frame herrand).1
  have hlifecycle : (s.greeted socket late).node.lifecycle = lifecycle := by
    rw [greeted, hnode]
    rfl
  have hafter : (s.greeted socket late).node.channels[socket]? =
      some { channel with inbox := rest } := by
    rw [greeted, hnode]
    simp [Node.mapChannel, hchannel]
  refine ⟨⟨?_, ?_, List.forall_mem_nil _, ⟨_, hafter, ?_, ?_⟩, ?_, List.forall_mem_nil _⟩, ?_⟩
  · rw [hlifecycle]
    exact Lifecycle.settled_greeted hgreeted
  · rw [hlifecycle]
    exact fun other hother => (Lifecycle.active_self_of_greeted hgreeted).unique hother
  · rw [inbox, hafter]
    rfl
  · exact congrArg (Prod.mk []) (hunlimited socket channel hchannel hunsettled).symm
  · refine List.eq_nil_iff_forall_not_mem.mpr fun frame hframe => ?_
    obtain ⟨handler, hhandler, other, herrand⟩ := mem_taken.mp hframe
    exact hnobody handler hhandler (by rw [herrand]; rfl)
  · exact ⟨fun handler hhandler hsocket => absurd hsocket (hnobody handler hhandler),
      fun handler hhandler hsocket => absurd hsocket (hnobody handler hhandler),
      fun handler hhandler hsocket => absurd hsocket (hnobody handler hhandler),
      fun i j first second _ hfirst _ hsocket =>
        absurd hsocket (hnobody first (List.mem_of_getElem? hfirst))⟩

/-- What holds of a session after a run from where it began. -/
theorem Course.heard {moves : List Move}
    (h : Course (fun _ => False) answers s moves t) (hs : s.Heard socket peer stream readings)
    (hattended : s.Attended answers socket peer) (hdictated : s.Dictated) :
    (∃ later, t.Heard socket peer (stream ++ arrived socket moves) later) ∧
      t.Attended answers socket peer ∧ t.Dictated := by
  induction h with
  | refl => exact ⟨⟨readings, (List.append_nil stream).symm ▸ hs⟩, hattended, hdictated⟩
  | tail h hstep ih =>
      obtain ⟨⟨later, hheard⟩, hattended, hdictated⟩ := ih
      rw [arrived_append, ← List.append_assoc]
      exact ⟨hheard.step hattended hstep, hattended.step hheard.alone hstep, hdictated.step hstep⟩

end Station

end ChatRelay
