import ChatRelay.Proofs.Station.Connections
import ChatRelay.Simulation.Network

/-!
# Turns of a node

A node moves by turns: what it does in one go is done before another socket goes on. The order in
which it takes them is one of many.
-/

namespace ChatRelay

namespace Node

variable {σ : Type} (serve : (request : Request) → σ → request.Answer × σ)

/-- What a node does in one go. -/
inductive Turn : Node σ → Node σ → Prop
  | connect (node : Node σ) (event : Lifecycle.Event) (lifecycle : Lifecycle)
      (hevent : ∀ socket, event ≠ .greeted socket)
      (hstep : node.lifecycle.step? event = some lifecycle) : Turn node (node.follow lifecycle)
  | greet (node : Node σ) (socket : Nat) (late : Bool) : Turn node (node.greet socket late).2
  | receive (node : Node σ) (socket : Nat) (bytes : Bytes) : Turn node (node.receive socket bytes)
  | endStream (node : Node σ) (socket : Nat) : Turn node (node.endStream socket)
  /-- A session handles a frame and goes on. -/
  | handle (node : Node σ) (now socket : Nat) (peer : PeerId) (after : Node σ)
      (hactive : node.lifecycle.Active socket peer)
      (hturn : node.turn serve now socket peer = (some none, after)) : Turn node after
  /-- A session ends, perhaps behind a frame that it handles. -/
  | leave (node : Node σ) (now socket : Nat) (peer : PeerId) (reason : CloseReason) (after : Node σ)
      (hactive : node.lifecycle.Active socket peer)
      (hturn : node.turn serve now socket peer = (some (some reason), after)) :
      Turn node (after.leave socket)
  | announce (node after : Node σ) (hnext : node.announceNext = some after) : Turn node after
  | submit (node : Node σ) (message : Message) :
      Turn node (node.perform serve none (Session.submit message)).2

variable {serve} {node after : Node σ} {socket : Nat} {frame : Frame}

theorem perform_map {α β : Type} (f : α → β) (routine : Routine SessionRequest.Answer α)
    (socket : Option Nat) (node : Node σ) : node.perform serve socket (f <$> routine) =
      (f (node.perform serve socket routine).1, (node.perform serve socket routine).2) :=
  Routine.run_bind ..

theorem unsent_of_send (h : node.send socket frame = (false, after)) : after = node := by
  unfold send at h
  split at h
  · cases h
    rfl
  · split at h
    · cases h
      rfl
    · cases h

/-- What waits to be announced has no influence on what is sent. -/
theorem send_announcements {sent : Bool} (h : node.send socket frame = (sent, after))
    (queue : List Announcement) :
    { node with announcements := queue }.send socket frame =
      (sent, { after with announcements := queue }) := by
  unfold send at h ⊢
  split
  next hcancelled =>
    rw [if_pos hcancelled] at h
    cases h
    rfl
  next hcancelled =>
    rw [if_neg hcancelled] at h
    split at h
    · cases h
      rfl
    · cases h
      rfl

/-- Exchanging greetings touches sockets and channels only. -/
theorem greet_eq (node : Node σ) (socket : Nat) (late : Bool) : ∃ lifecycle channels,
    ∀ queue, ({ node with announcements := queue }.greet socket late).2 =
      { node with lifecycle, channels, announcements := queue } := by
  obtain ⟨lifecycle, hfailed⟩ : ∃ lifecycle, ∀ queue,
      { node with announcements := queue }.failGreeting socket =
        { node with lifecycle, announcements := queue } := by
    cases hfailed : node.lifecycle.failed? socket with
    | none => exact ⟨node.lifecycle, fun queue => by simp [failGreeting, advance, hfailed]⟩
    | some lifecycle => exact ⟨lifecycle, fun queue => by simp [failGreeting, advance, hfailed]⟩
  cases hchannel : node.channels[socket]? with
  | none => exact ⟨node.lifecycle, node.channels, fun queue => by simp [greet, hchannel]⟩
  | some channel =>
      cases hread : Handshake.read channel.inbox with
      | incomplete shortage =>
          by_cases hover : channel.ended ∨ late
          · refine ⟨lifecycle, node.channels, fun queue => ?_⟩
            rcases hover with hended | hlate
            · simp [greet, hchannel, hread, hended, hfailed]
            · cases hended : channel.ended <;> simp [greet, hchannel, hread, hended, hlate, hfailed]
          · obtain ⟨hended, hlate⟩ := not_or.mp hover
            exact ⟨node.lifecycle, node.channels, fun queue => by
              simp [greet, hchannel, hread, hended, hlate]⟩
      | refused cause =>
          exact ⟨lifecycle, node.channels, fun queue => by simp [greet, hchannel, hread, hfailed]⟩
      | complete done rest =>
          cases hgreeted : node.lifecycle.greeted? socket with
          | none =>
              exact ⟨node.lifecycle, node.channels, fun queue => by
                simp [greet, hchannel, hread, hgreeted]⟩
          | some greeted =>
              refine ⟨greeted.2, node.channels.modify socket fun c => { c with inbox := rest },
                fun queue => ?_⟩
              simp only [greet, hchannel, hread, hgreeted]
              rfl

/-- What waits to be announced has no influence on the exchange of greetings. -/
theorem greet_announcements (node : Node σ) (socket : Nat) (late : Bool)
    (queue : List Announcement) :
    ({ node with announcements := queue }.greet socket late).1 = (node.greet socket late).1 := by
  unfold greet
  dsimp only
  cases node.channels[socket]? with
  | none => rfl
  | some channel =>
      dsimp only
      cases Handshake.read channel.inbox with
      | incomplete shortage =>
          dsimp only
          split
          · rfl
          · split <;> rfl
      | refused cause => rfl
      | complete done rest => cases node.lifecycle.greeted? socket <;> rfl

/-- A step that opens no socket makes no channel. -/
theorem follow_eq {lifecycle : Lifecycle} (h : lifecycle.sockets.length ≤ node.channels.length) :
    node.follow lifecycle = { node with lifecycle } := by
  simp [follow, Nat.sub_eq_zero_of_le h]

variable (serve) in
/-- Serving a session leaves the sockets as they are, and makes no channel. -/
theorem serveSession_sockets (socket : Option Nat) (request : SessionRequest) (node : Node σ) :
    (node.serveSession serve socket request).2.lifecycle = node.lifecycle ∧
      (node.serveSession serve socket request).2.channels.length = node.channels.length := by
  cases request with
  | store call => exact ⟨rfl, rfl⟩
  | decide message => exact ⟨rfl, rfl⟩
  | announce source outpoint => exact ⟨rfl, rfl⟩
  | reply frame =>
      cases socket with
      | none => exact ⟨rfl, rfl⟩
      | some socket =>
          simp only [serveSession, send]
          split
          · exact ⟨rfl, rfl⟩
          · split
            · exact ⟨rfl, rfl⟩
            · exact ⟨rfl, List.length_modify ..⟩

variable (serve) in
theorem perform_sockets {α : Type} (routine : Routine SessionRequest.Answer α)
    (socket : Option Nat) (node : Node σ) :
    (node.perform serve socket routine).2.lifecycle = node.lifecycle ∧
      (node.perform serve socket routine).2.channels.length = node.channels.length := by
  induction routine generalizing node with
  | done result => exact ⟨rfl, rfl⟩
  | ask question next ih =>
      obtain ⟨hlifecycle, hlength⟩ := serveSession_sockets serve socket question node
      obtain ⟨hlifecycle', hlength'⟩ := ih _ _
      exact ⟨hlifecycle'.trans hlifecycle, hlength'.trans hlength⟩

variable {now : Nat} {peer : PeerId} {reason : Option (Option CloseReason)}

/-- A session's turn leaves the sockets as they are, and makes no channel. -/
theorem turn_sockets (h : node.turn serve now socket peer = (reason, after)) :
    after.lifecycle = node.lifecycle ∧ after.channels.length = node.channels.length := by
  unfold turn at h
  split at h
  next =>
    cases h
    exact ⟨rfl, rfl⟩
  next =>
    split at h
    next =>
      cases h
      exact ⟨rfl, rfl⟩
    next channel hchannel =>
      split at h
      next shortage hread =>
        split at h
        next =>
          split at h <;> cases h <;> exact ⟨rfl, rfl⟩
        next =>
          cases h
          exact ⟨rfl, rfl⟩
      next =>
        cases h
        exact ⟨rfl, rfl⟩
      next frame rest hread =>
        generalize channel.limiter.check now frame.kind = checked at h
        obtain ⟨allowed, limiter⟩ := checked
        cases allowed with
        | false =>
            cases h
            exact ⟨rfl, List.length_modify ..⟩
        | true =>
            obtain ⟨-, rfl⟩ := Prod.mk.inj h
            obtain ⟨hlifecycle, hlength⟩ := perform_sockets serve (Session.handle peer frame)
              (some socket) (node.mapChannel socket fun c => { c with inbox := rest, limiter })
            exact ⟨hlifecycle, hlength.trans (List.length_modify ..)⟩

theorem announceNext_sockets (h : node.announceNext = some after) :
    after.lifecycle.sockets = node.lifecycle.sockets ∧
      after.channels.length = node.channels.length := by
  unfold announceNext at h
  split at h
  next => cases h
  next announcement rest hannouncements =>
    obtain rfl := Option.some.inj h
    unfold announce
    generalize hsent : { node with announcements := rest }.send announcement.socket
      (.inv [announcement.outpoint]) = outcome
    obtain ⟨sent, sentNode⟩ := outcome
    cases sent with
    | false =>
        obtain rfl := unsent_of_send hsent
        exact ⟨rfl, rfl⟩
    | true =>
        obtain ⟨-, bytes, -, rfl⟩ := sent_of_send hsent
        exact ⟨rfl, List.length_modify ..⟩

theorem aligned_greet (socket : Nat) (late : Bool)
    (haligned : node.channels.length = node.lifecycle.sockets.length) :
    (node.greet socket late).2.channels.length =
      (node.greet socket late).2.lifecycle.sockets.length := by
  have hattends := attends_greet node socket late
  have hlength := congrArg List.length hattends.outboxes
  rw [List.length_map, List.length_map] at hlength
  rw [hlength, haligned, hattends.sockets]

/-- Behind every turn each socket has its channel. -/
theorem Turn.aligned (h : node.Turn serve after)
    (haligned : node.channels.length = node.lifecycle.sockets.length) :
    after.channels.length = after.lifecycle.sockets.length := by
  cases h with
  | connect event lifecycle hevent hstep =>
      have hle := (Lifecycle.keeps_of_step? hstep).sockets
      simp only [follow, List.length_append, List.length_replicate, haligned]
      omega
  | greet socket late => exact aligned_greet socket late haligned
  | receive socket bytes => exact (List.length_modify ..).trans haligned
  | endStream socket => exact (List.length_modify ..).trans haligned
  | handle now socket peer _ hactive hturn =>
      obtain ⟨hlifecycle, hlength⟩ := turn_sockets hturn
      rw [hlifecycle, hlength, haligned]
  | leave now socket peer reason ended hactive hturn =>
      obtain ⟨hlifecycle, hlength⟩ := turn_sockets hturn
      obtain ⟨lifecycle, hended, -, hsockets, -⟩ := Lifecycle.ended_of_active hactive
      have hleave : ended.leave socket = { ended with lifecycle } := by
        simp [Node.leave, advance, hlifecycle, hended]
      rw [hleave, hlength, haligned, hsockets]
  | announce _ hnext =>
      obtain ⟨hsockets, hlength⟩ := announceNext_sockets hnext
      rw [hsockets, hlength, haligned]
  | submit message =>
      obtain ⟨hlifecycle, hlength⟩ := perform_sockets serve (Session.submit message) none node
      rw [hlifecycle, hlength, haligned]

/-- An inbound connection opens one socket, or none if it is turned away. -/
theorem accept_eq_follow {address : Address} {lifecycle : Lifecycle}
    (haligned : node.channels.length = node.lifecycle.sockets.length)
    (h : node.lifecycle.accept? address = some lifecycle) :
    (node.accept address).2 = node.follow lifecycle ∧
      ∀ opened, (node.accept address).1 = some opened →
        opened = node.channels.length ∧ opened < lifecycle.sockets.length := by
  have hsockets : lifecycle.sockets.length = node.lifecycle.sockets.length ∨
      lifecycle.sockets.length = node.lifecycle.sockets.length + 1 := by
    unfold Lifecycle.accept? at h
    split at h
    · split at h
      · cases h
        exact .inl rfl
      · cases h
        exact .inr (by simp)
    · cases h
  simp only [accept, h]
  split
  next hsame => exact ⟨(follow_eq (by omega)).symm, nofun⟩
  next hnew =>
    have hone := hsockets.resolve_left hnew
    refine ⟨by simp [follow, openChannel, haligned, hone], fun opened hopened => ?_⟩
    obtain rfl := Option.some.inj hopened
    exact ⟨haligned.symm, by omega⟩

/-- An inbound connection arrives in one turn, and is turned away in one. -/
theorem turn_of_accept {address : Address} {lifecycle : Lifecycle}
    (haligned : node.channels.length = node.lifecycle.sockets.length)
    (h : node.lifecycle.accept? address = some lifecycle) :
    node.Turn serve (node.accept address).2 :=
  (accept_eq_follow haligned h).1 ▸ .connect node (.accept address) lifecycle (by simp) h

/-! ## The order in which a node takes its turns -/

/-- What a node does next is one of its turns. -/
theorem turn_of_nextTurn (haligned : node.channels.length = node.lifecycle.sockets.length)
    (h : node.nextTurn serve = some after) : node.Turn serve after := by
  simp only [nextTurn] at h
  split at h
  next lifecycle hchosen =>
    cases h
    have hturn : ∀ event, node.lifecycle.step? event = some lifecycle →
        (∀ socket, event ≠ .greeted socket) → (∀ address, event ≠ .accept address) →
        (∀ dial, event ≠ .opened dial) → node.Turn serve { node with lifecycle } := by
      intro event hstep hgreeted haccept hopened
      have hsockets := Lifecycle.length_sockets_of_step? hstep haccept hopened
      rw [← follow_eq (Nat.le_of_eq (hsockets.trans haligned.symm))]
      exact .connect node event lifecycle hgreeted hstep
    simp only [Option.orElse_eq_orElse, Option.orElse_eq_or, Option.or_eq_some_iff] at hchosen
    rcases hchosen with hlistener | ⟨-, hdeparture | ⟨-, hsocket⟩⟩
    · split at hlistener
      · exact hturn .closeListener hlistener nofun nofun nofun
      · cases hlistener
    · obtain ⟨departure, -, hdeparted⟩ := List.exists_of_findSome?_eq_some hdeparture
      exact hturn (.departed departure) hdeparted nofun nofun nofun
    · obtain ⟨⟨sock, socket⟩, -, hfinished⟩ := List.exists_of_findSome?_eq_some hsocket
      exact hturn (.finished socket) hfinished nofun nofun nofun
  next =>
    split at h
    next hnext =>
      cases h
      exact .announce node after hnext
    next =>
      obtain ⟨⟨sock, socket⟩, hmem, hturn⟩ := List.exists_of_findSome?_eq_some h
      have hsock := List.mem_zipIdx_iff_getElem?.mp hmem
      dsimp only at hturn
      split at hturn
      next =>
        split at hturn
        next hgreet =>
          cases hturn
          have hgreeted : (node.greet socket false).2 = after := by rw [hgreet]
          exact hgreeted ▸ .greet node socket false
        next => cases hturn
      next peer hstage =>
        have hactive : node.lifecycle.Active socket peer := ⟨sock, hsock, hstage⟩
        split at hturn
        next => cases hturn
        next hhandled =>
          cases hturn
          exact .handle node 0 socket peer after hactive hhandled
        next reason handled hhandled =>
          cases hturn
          exact .leave node 0 socket peer reason handled hactive hhandled
      next => cases hturn

theorem turns_settleWithin (fuel : Nat)
    (haligned : node.channels.length = node.lifecycle.sockets.length) :
    Relation.ReflTransGen (Turn serve) node (node.settleWithin serve fuel) := by
  induction fuel generalizing node with
  | zero => exact .refl
  | succ fuel ih =>
      unfold settleWithin
      split
      next moved hnext =>
        have hturn := turn_of_nextTurn haligned hnext
        exact .head hturn (ih (hturn.aligned haligned))
      next => exact .refl

/-- A node comes to rest by turns. -/
theorem turns_settle (haligned : node.channels.length = node.lifecycle.sockets.length) :
    Relation.ReflTransGen (Turn serve) node (node.settle serve) :=
  turns_settleWithin _ haligned

end Node

end ChatRelay
