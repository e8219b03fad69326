import ChatRelay.Proofs.Station

/-!
# Connections of a node at work

Sockets are never given up, departures stay on record, and a peer is registered at most once. The
outbox of a channel holds the greeting and then the frames that were sent on its socket, each once
and in order.
-/

namespace ChatRelay

/-- What shows of a changed element is what showed of it, changed. -/
theorem map_modify {α β : Type} {view : α → β} {change : α → α} {shown : β → β}
    (h : ∀ x, view (change x) = shown (view x)) (xs : List α) (i : Nat) :
    (xs.modify i change).map view = (xs.map view).modify i shown := by
  apply List.ext_getElem?
  intro j
  simp only [List.getElem?_map, List.getElem?_modify]
  by_cases hj : i = j
  · cases xs[j]? <;> simp [hj, h]
  · simp [hj]

/-! ## The life of connections -/

namespace Lifecycle

/-- Whether a socket is done with its greetings. -/
def Settled (l : Lifecycle) (socket : Nat) : Prop :=
  ∃ sock ∈ l.sockets[socket]?, sock.stage ≠ .greeting

/-- Whether the session of a peer runs on a socket. -/
def Active (l : Lifecycle) (socket : Nat) (peer : PeerId) : Prop :=
  ∃ sock ∈ l.sockets[socket]?, sock.stage = .active peer

/-- Each registered peer has a socket of its own that is done with its greetings, and no other
peer's session runs there. -/
structure Wired (l : Lifecycle) : Prop where
  keys : l.registry.keys.Nodup
  sockets : (l.registry.entries.map (·.2)).Nodup
  settled : ∀ entry ∈ l.registry.entries, l.Settled entry.2
  active : ∀ entry ∈ l.registry.entries, ∀ peer, l.Active entry.2 peer → peer = entry.1

/-- What every step of the life of connections keeps. A peer is registered, and its session begins,
only when its socket is done with its greetings. -/
structure Keeps (l after : Lifecycle) : Prop where
  sockets : l.sockets.length ≤ after.sockets.length
  departures : l.departures.map (·.peer) <+: after.departures.map (·.peer)
  settled : ∀ socket, l.Settled socket → after.Settled socket
  entries : ∀ entry ∈ after.registry.entries, entry ∈ l.registry.entries ∨ ¬ l.Settled entry.2
  active : ∀ socket peer, l.Settled socket → after.Active socket peer → l.Active socket peer
  wired : l.Wired → after.Wired

/-- A step that registers nobody and begins no session. -/
structure Calm (l after : Lifecycle) : Prop where
  sockets : l.sockets.length ≤ after.sockets.length
  departures : l.departures.map (·.peer) <+: after.departures.map (·.peer)
  settled : ∀ socket, l.Settled socket → after.Settled socket
  registry : after.registry.entries.Sublist l.registry.entries
  active : ∀ socket peer, after.Active socket peer → l.Active socket peer

variable {l after middle : Lifecycle} {socket : Nat} {peer : PeerId}

theorem Keeps.refl (l : Lifecycle) : l.Keeps l :=
  ⟨le_rfl, List.prefix_refl _, fun _ => id, fun _ => .inl, fun _ _ _ => id, id⟩

theorem Calm.refl (l : Lifecycle) : l.Calm l :=
  ⟨le_rfl, List.prefix_refl _, fun _ => id, .refl _, fun _ _ => id⟩

theorem Calm.trans (h : l.Calm middle) (h' : middle.Calm after) : l.Calm after :=
  ⟨Nat.le_trans h.sockets h'.sockets, h.departures.trans h'.departures,
    fun socket hl => h'.settled socket (h.settled socket hl), h'.registry.trans h.registry,
    fun socket peer hafter => h.active socket peer (h'.active socket peer hafter)⟩

theorem Calm.keeps (h : l.Calm after) : l.Keeps after where
  sockets := h.sockets
  departures := h.departures
  settled := h.settled
  entries _ hentry := .inl (h.registry.subset hentry)
  active socket peer _ := h.active socket peer
  wired hl :=
    ⟨hl.keys.sublist (h.registry.map _), hl.sockets.sublist (h.registry.map _),
      fun entry hentry => h.settled _ (hl.settled entry (h.registry.subset hentry)),
      fun entry hentry peer hactive =>
        hl.active entry (h.registry.subset hentry) peer (h.active _ peer hactive)⟩

theorem calm_depart (l : Lifecycle) (peer : PeerId) : l.Calm (l.depart peer) :=
  ⟨le_rfl, by simp [depart], fun _ => id, .refl _, fun _ _ => id⟩

theorem calm_giveBack (l : Lifecycle) (direction : Direction) : l.Calm (l.giveBack direction) := by
  cases direction <;> exact ⟨le_rfl, List.prefix_refl _, fun _ => id, .refl _, fun _ _ => id⟩

theorem settled_modify {change : Socket → Socket}
    (hsockets : after.sockets = l.sockets.modify socket change)
    (hchange : ∀ sock, sock.stage ≠ .greeting → (change sock).stage ≠ .greeting) {other : Nat}
    (h : l.Settled other) : after.Settled other := by
  obtain ⟨sock, hsock, hstage⟩ := h
  refine ⟨if socket = other then change sock else sock, ?_, ?_⟩
  · rw [hsockets, List.getElem?_modify, hsock]
    rfl
  · split
    · exact hchange sock hstage
    · exact hstage

theorem calm_modify {change : Socket → Socket}
    (hgreeting : ∀ sock, sock.stage ≠ .greeting → (change sock).stage ≠ .greeting)
    (hactive : ∀ sock peer, (change sock).stage = .active peer → sock.stage = .active peer) :
    l.Calm { l with sockets := l.sockets.modify socket change } where
  sockets := by simp
  departures := List.prefix_refl _
  settled _ := settled_modify rfl hgreeting
  registry := .refl _
  active other peer h := by
    obtain ⟨sock, hsock, hstage⟩ := h
    rw [List.getElem?_modify] at hsock
    obtain ⟨before, hbefore, rfl⟩ := Option.map_eq_some_iff.mp hsock
    refine ⟨before, hbefore, ?_⟩
    split at hstage
    · exact hactive before peer hstage
    · exact hstage

/-- A socket that closes, or whose session is over. -/
theorem calm_setStage {stage : SocketStage} (hgreeting : stage ≠ .greeting)
    (hactive : ∀ peer, stage ≠ .active peer) : l.Calm (l.setStage socket stage) :=
  calm_modify (fun _ _ => hgreeting) fun _ peer h => absurd h (hactive peer)

theorem calm_open (l : Lifecycle) {sock : Socket} (hstage : sock.stage = .greeting) :
    l.Calm { l with sockets := l.sockets ++ [sock] } where
  sockets := by simp
  departures := List.prefix_refl _
  settled other h := by
    obtain ⟨old, hold, hsettled⟩ := h
    obtain ⟨hlt, -⟩ := List.getElem?_eq_some_iff.mp hold
    exact ⟨old, by rwa [List.getElem?_append_left hlt], hsettled⟩
  registry := .refl _
  active other peer h := by
    obtain ⟨old, hold, hactive⟩ := h
    rw [List.getElem?_append] at hold
    split at hold
    · exact ⟨old, hold, hactive⟩
    · obtain rfl := List.mem_singleton.mp (List.mem_of_getElem? hold)
      rw [hstage] at hactive
      cases hactive

theorem calm_setDeparture (l : Lifecycle) (departure : Nat) (stage : DepartureStage) :
    l.Calm (l.setDeparture departure stage) := by
  have hsame : (l.setDeparture departure stage).departures.map (·.peer) =
      (l.departures.map (·.peer)).modify departure id := by
    simp only [setDeparture]
    exact map_modify (by simp) _ _
  rw [List.modify_id] at hsame
  exact ⟨le_rfl, hsame ▸ List.prefix_refl _, fun _ => id, .refl _, fun _ _ => id⟩

theorem calm_failed (h : l.failed? socket = some after) : l.Calm after := by
  unfold failed? at h
  split at h
  · cases h
    exact (calm_setStage (by simp) (by simp)).trans (calm_giveBack _ _)
  · cases h

theorem calm_departed {departure : Nat} (h : l.departed? departure = some after) :
    l.Calm after := by
  unfold departed? at h
  split at h
  next peer hdeparture =>
    split at h
    next =>
      cases h
      exact calm_setDeparture l departure _
    next socket hsocket =>
      cases h
      apply Calm.trans _ (calm_setDeparture _ departure _)
      exact ⟨le_rfl, List.prefix_refl _, fun _ => id, List.filter_sublist, fun _ _ => id⟩
  next peer socket hdeparture =>
    cases h
    apply Calm.trans _ (calm_setDeparture _ departure _)
    exact calm_modify (fun _ => id) fun _ _ => id
  next => cases h

/-- A session that ends is on its way out, and nobody else's session runs on its socket. -/
theorem ended_of_active (h : l.Active socket peer) : ∃ after, l.ended? socket = some after ∧
    l.Calm after ∧ after.sockets.length = l.sockets.length ∧
    ∀ other, ¬ after.Active socket other := by
  obtain ⟨⟨address, direction, stage, alive⟩, hsock, rfl⟩ := h
  refine ⟨(l.depart peer).setStage socket (.leaving peer l.departures.length), ?_,
    (calm_depart l peer).trans (calm_setStage (by simp) (by simp)), by simp [setStage, depart], ?_⟩
  · rw [ended?, hsock]
  · rintro other ⟨sock, hsock', hstage⟩
    rw [setStage, depart, List.getElem?_modify, hsock] at hsock'
    obtain rfl := Option.some.inj hsock'
    simp at hstage

theorem calm_sweep (l : Lifecycle) : l.Calm l.sweep := by
  unfold sweep
  generalize l.registry.keys = peers
  induction peers generalizing l with
  | nil => exact .refl l
  | cons peer peers ih => exact (calm_depart l peer).trans (ih (l.depart peer))

theorem calm_of_step? {event : Event} (h : l.step? event = some after)
    (hevent : ∀ socket, event ≠ .greeted socket) : l.Calm after := by
  have hplain : ∀ {after : Lifecycle}, after.sockets = l.sockets → after.registry = l.registry →
      after.departures = l.departures → l.Calm after := by
    intro after hsockets hregistry hdepartures
    refine ⟨by rw [hsockets], hdepartures ▸ List.prefix_refl _, fun socket => ?_, by rw [hregistry],
      fun socket peer => ?_⟩
    · simp [Settled, hsockets]
    · simp [Active, hsockets]
  cases event with
  | listen =>
      cases h
      exact hplain rfl rfl rfl
  | accept address =>
      simp only [step?, accept?] at h
      split at h
      · split at h
        · cases h
          exact .refl l
        next permits _ =>
          cases h
          have hpermit : l.Calm { l with permits } := hplain rfl rfl rfl
          exact hpermit.trans (calm_open _ rfl)
      · cases h
  | check address =>
      simp only [step?, check?] at h
      split at h
      · cases h
      · cases h
        exact hplain rfl rfl rfl
  | opened dial =>
      obtain ⟨address, -, rfl⟩ := Option.map_eq_some_iff.mp h
      have hdialled : l.Calm { l with dials := l.dials.eraseIdx dial } := hplain rfl rfl rfl
      exact hdialled.trans (calm_open _ rfl)
  | unreachable dial =>
      obtain ⟨address, -, rfl⟩ := Option.map_eq_some_iff.mp h
      exact hplain rfl rfl rfl
  | greeted socket => exact absurd rfl (hevent socket)
  | failed socket => exact calm_failed h
  | ended socket =>
      simp only [step?, ended?] at h
      split at h
      · cases h
        exact (calm_depart l _).trans (calm_setStage (by simp) (by simp))
      · cases h
  | depart peer =>
      cases h
      exact calm_depart l peer
  | departed departure => exact calm_departed h
  | finished socket =>
      simp only [step?, finished?] at h
      split at h
      · split at h
        · cases h
          exact (calm_setStage (by simp) (by simp)).trans (calm_giveBack _ _)
        · cases h
      · cases h
  | cancel =>
      cases h
      exact hplain rfl rfl rfl
  | closeListener =>
      simp only [step?, closeListener?] at h
      split at h
      · cases h
        exact hplain rfl rfl rfl
      · cases h
  | sweep =>
      cases h
      exact calm_sweep l

/-! ### Completed greetings -/

theorem mem_setEntry {κ ν : Type} [DecidableEq κ] {key : κ} {value : ν} {entries : List (κ × ν)}
    {entry : κ × ν} (h : entry ∈ Table.setEntry key value entries) :
    entry = (key, value) ∨ entry ∈ entries := by
  induction entries with
  | nil => exact .inl (List.mem_singleton.mp h)
  | cons first rest ih =>
      unfold Table.setEntry at h
      split at h
      · exact (List.mem_cons.mp h).imp_right fun h => List.mem_cons_of_mem _ h
      · rcases List.mem_cons.mp h with rfl | h
        · exact .inr List.mem_cons_self
        · exact (ih h).imp_right fun h => List.mem_cons_of_mem _ h

/-- A new value stays the only one of its kind. -/
theorem nodup_values_setEntry {κ ν : Type} [DecidableEq κ] {key : κ} {value : ν}
    {entries : List (κ × ν)} (h : (entries.map (·.2)).Nodup)
    (hnew : ∀ entry ∈ entries, entry.2 ≠ value) :
    ((Table.setEntry key value entries).map (·.2)).Nodup := by
  induction entries with
  | nil => simp [Table.setEntry]
  | cons first rest ih =>
      rw [List.map_cons, List.nodup_cons] at h
      obtain ⟨hfirst, hrest⟩ := List.forall_mem_cons.mp hnew
      unfold Table.setEntry
      split
      · rw [List.map_cons, List.nodup_cons]
        refine ⟨fun hmem => ?_, h.2⟩
        obtain ⟨entry, hentry, heq⟩ := List.mem_map.mp hmem
        exact hrest entry hentry heq
      · rw [List.map_cons, List.nodup_cons]
        refine ⟨fun hmem => ?_, ih h.2 hrest⟩
        obtain ⟨entry, hentry, heq⟩ := List.mem_map.mp hmem
        rcases mem_setEntry hentry with rfl | hentry
        · exact hfirst heq.symm
        · exact h.1 (List.mem_map.mpr ⟨entry, hentry, heq⟩)

theorem keeps_greeted (h : l.greeted? socket = some (peer, after)) : l.Keeps after := by
  unfold greeted? at h
  split at h
  next address direction alive hsocket =>
    have hgreeting : ¬ l.Settled socket := by
      rintro ⟨sock, hsock, hstage⟩
      obtain rfl := Option.some.inj (hsocket.symm.trans hsock)
      exact hstage rfl
    cases h
    have hsettled : ∀ other, l.Settled other → Settled (setStage
        { l with nextId := l.nextId + 1, registry := l.registry.insert ⟨l.nextId⟩ socket } socket
        (.active ⟨l.nextId⟩)) other :=
      fun other => settled_modify rfl (by simp)
    -- the sessions of the others
    have hold : ∀ other peer, l.Settled other → Active (setStage
        { l with nextId := l.nextId + 1, registry := l.registry.insert ⟨l.nextId⟩ socket } socket
        (.active ⟨l.nextId⟩)) other peer → l.Active other peer := by
      rintro other peer hother ⟨sock, hsock, hstage⟩
      have hne : socket ≠ other := fun heq => hgreeting (heq ▸ hother)
      simp only [setStage, List.getElem?_modify, hne, if_false] at hsock
      exact ⟨sock, by simpa using hsock, hstage⟩
    -- the socket of the new peer
    have hnew : ∀ peer, Active (setStage
        { l with nextId := l.nextId + 1, registry := l.registry.insert ⟨l.nextId⟩ socket } socket
        (.active ⟨l.nextId⟩)) socket peer → peer = ⟨l.nextId⟩ := by
      rintro peer ⟨sock, hsock, hstage⟩
      simp only [setStage, List.getElem?_modify, hsocket, if_true] at hsock
      obtain rfl := Option.some.inj hsock
      exact (SocketStage.active.inj hstage).symm
    refine ⟨by simp [setStage], List.prefix_refl _, hsettled, fun entry hentry => ?_, hold,
      fun hl => ⟨Table.nodup_keys_insert hl.keys _ _, nodup_values_setEntry hl.sockets ?_, ?_, ?_⟩⟩
    · rcases mem_setEntry hentry with rfl | hentry
      · exact .inr hgreeting
      · exact .inl hentry
    · rintro entry hentry rfl
      exact hgreeting (hl.settled entry hentry)
    · intro entry hentry
      rcases mem_setEntry hentry with rfl | hentry
      · exact ⟨⟨address, direction, .active ⟨l.nextId⟩, alive⟩,
          by simp [setStage, hsocket], by simp⟩
      · exact hsettled _ (hl.settled entry hentry)
    · intro entry hentry peer hactive
      rcases mem_setEntry hentry with rfl | hentry
      · exact hnew peer hactive
      · exact hl.active entry hentry peer (hold _ _ (hl.settled entry hentry) hactive)
  next => cases h

/-- What every step of the life of connections keeps. -/
theorem keeps_of_step? {event : Event} (h : l.step? event = some after) : l.Keeps after := by
  by_cases hevent : ∀ socket, event ≠ .greeted socket
  · exact (calm_of_step? h hevent).keeps
  · obtain ⟨socket, hgreeted⟩ := not_forall.mp hevent
    obtain rfl := not_not.mp hgreeted
    obtain ⟨⟨peer, after⟩, hgreeted, rfl⟩ := Option.map_eq_some_iff.mp h
    exact keeps_greeted hgreeted

/-- A socket opens only when a connection is accepted or a dial is answered. -/
theorem length_sockets_of_step? {event : Event} (h : l.step? event = some after)
    (haccept : ∀ address, event ≠ .accept address) (hopened : ∀ dial, event ≠ .opened dial) :
    after.sockets.length = l.sockets.length := by
  have hclosed : ∀ (l : Lifecycle) (socket : Nat) (stage : SocketStage) (direction : Direction),
      ((l.setStage socket stage).giveBack direction).sockets.length = l.sockets.length := by
    intro l socket stage direction
    cases direction <;> exact List.length_modify ..
  cases event with
  | accept address => exact absurd rfl (haccept address)
  | opened dial => exact absurd rfl (hopened dial)
  | check address =>
      simp only [step?, check?] at h
      split at h <;> cases h
      rfl
  | unreachable dial =>
      obtain ⟨address, -, rfl⟩ := Option.map_eq_some_iff.mp h
      rfl
  | greeted socket =>
      obtain ⟨⟨peer, after⟩, hgreeted, rfl⟩ := Option.map_eq_some_iff.mp h
      unfold greeted? at hgreeted
      split at hgreeted <;> cases hgreeted
      exact List.length_modify ..
  | failed socket =>
      simp only [step?, failed?] at h
      split at h <;> cases h
      exact hclosed ..
  | ended socket =>
      simp only [step?, ended?] at h
      split at h <;> cases h
      exact List.length_modify ..
  | departed departure =>
      simp only [step?, departed?] at h
      split at h
      · split at h <;> cases h <;> rfl
      · cases h
        exact List.length_modify ..
      · cases h
  | finished socket =>
      simp only [step?, finished?] at h
      split at h
      · split at h <;> cases h
        exact hclosed ..
      · cases h
  | closeListener =>
      simp only [step?, closeListener?] at h
      split at h <;> cases h
      rfl
  | sweep =>
      cases h
      unfold sweep
      generalize l.registry.keys = peers
      induction peers generalizing l with
      | nil => rfl
      | cons peer peers ih => exact ih
  | _ =>
      cases h
      rfl

theorem wired_of_start? {permits : Nat} (h : start? permits = some l) : l.Wired := by
  unfold start? at h
  split at h
  · cases h
    exact ⟨List.nodup_nil, List.nodup_nil, by simp [Table.empty], by simp [Table.empty]⟩
  · cases h

theorem wired_of_run? {events : List Event} (h : l.run? events = some after) (hl : l.Wired) :
    after.Wired := by
  induction events generalizing l with
  | nil =>
      cases h
      exact hl
  | cons event events ih =>
      obtain ⟨middle, hstep, hrest⟩ := Option.bind_eq_some_iff.mp h
      exact ih hrest ((keeps_of_step? hstep).wired hl)

end Lifecycle

/-! ## Nodes -/

namespace Node

variable {σ : Type} {node after : Node σ} {socket : Nat} {frame : Frame}

/-- What is sent is written to the outbox of its socket, and nothing else changes. -/
theorem sent_of_send (h : node.send socket frame = (true, after)) :
    ¬ node.lifecycle.isCancelled socket ∧ ∃ bytes, frame.serialize = .ok bytes ∧
      after = node.mapChannel socket fun c => { c with outbox := bytes :: c.outbox } := by
  unfold send at h
  split at h
  next => cases h
  next halive =>
    split at h
    next => cases h
    next bytes hbytes =>
      cases h
      exact ⟨halive, bytes, hbytes, rfl⟩

/-- What reading and greeting keep: the sockets, what has been sent, the store and the slots. -/
structure Attends (node after : Node σ) : Prop where
  lifecycle : node.lifecycle.Keeps after.lifecycle
  sockets : after.lifecycle.sockets.length = node.lifecycle.sockets.length
  outboxes : after.channels.map (·.outbox) = node.channels.map (·.outbox)
  world : after.world = node.world

/-- Whether a node's connections came about step by step, and it has sent only greetings. -/
structure Fresh (node : Node σ) : Prop where
  connected : ∃ permits start events, Lifecycle.start? permits = some start ∧
    start.run? events = some node.lifecycle
  aligned : node.lifecycle.sockets.length ≤ node.channels.length
  greeted : ∀ channel ∈ node.channels, channel.outbox = [Handshake.greeting]

theorem fresh_of_start? {permits maxMessage : Nat} {world : σ}
    (h : start? permits maxMessage world = some node) : node.Fresh := by
  obtain ⟨lifecycle, hlifecycle, rfl⟩ := Option.map_eq_some_iff.mp h
  refine ⟨⟨permits, lifecycle, [], hlifecycle, rfl⟩, ?_, by simp⟩
  rw [Lifecycle.start?] at hlifecycle
  split at hlifecycle
  · cases hlifecycle
    exact le_rfl
  · cases hlifecycle

theorem Fresh.wired (h : node.Fresh) : node.lifecycle.Wired := by
  obtain ⟨permits, start, events, hstart, hrun⟩ := h.connected
  exact Lifecycle.wired_of_run? hrun (Lifecycle.wired_of_start? hstart)

theorem Attends.refl (node : Node σ) : node.Attends node := ⟨.refl _, rfl, rfl, rfl⟩

theorem outboxes_modify {change : Channel → Channel} (hchange : ∀ c, (change c).outbox = c.outbox)
    (channels : List Channel) (i : Nat) :
    (channels.modify i change).map (·.outbox) = channels.map (·.outbox) := by
  have hsame : (channels.modify i change).map (·.outbox) =
      (channels.map (·.outbox)).modify i id := map_modify hchange channels i
  rwa [List.modify_id] at hsame

theorem attends_mapChannel {change : Channel → Channel}
    (hchange : ∀ c, (change c).outbox = c.outbox) : node.Attends (node.mapChannel socket change) :=
  ⟨.refl _, rfl, outboxes_modify hchange node.channels socket, rfl⟩

theorem attends_failGreeting (node : Node σ) (socket : Nat) :
    node.Attends (node.failGreeting socket) := by
  unfold failGreeting advance
  split
  next lifecycle hfailed =>
    have hstep : node.lifecycle.step? (.failed socket) = some lifecycle := hfailed
    exact ⟨Lifecycle.keeps_of_step? hstep, Lifecycle.length_sockets_of_step? hstep nofun nofun, rfl,
      rfl⟩
  next => exact .refl node

theorem attends_greet (node : Node σ) (socket : Nat) (late : Bool) :
    node.Attends (node.greet socket late).2 := by
  have hfailed := attends_failGreeting node socket
  unfold greet
  split
  next => exact .refl node
  next channel hchannel =>
    split
    next =>
      split
      · exact hfailed
      · split
        · exact hfailed
        · exact .refl node
    next => exact hfailed
    next rest hread =>
      split
      next => exact .refl node
      next peer lifecycle hgreeted =>
        have hstep : node.lifecycle.step? (.greeted socket) = some lifecycle := by
          rw [Lifecycle.step?, hgreeted]
          rfl
        exact ⟨Lifecycle.keeps_of_step? hstep, Lifecycle.length_sockets_of_step? hstep nofun nofun,
          outboxes_modify (by simp) node.channels socket, rfl⟩

end Node

namespace Station

variable {B : OutpointStore} {fails : StoreCall → Prop}
  {answers : (call : LedgerCall) → call.Answer → Prop} {s t : Station B} {move : Move}

/-- The frames that were sent on a socket, oldest first. -/
def sentOn (s : Station B) (socket : Nat) : List Sending := s.sent.filter (·.socket = socket)

/-- What has been sent is in the outboxes, behind the greetings. -/
structure Posted (s : Station B) : Prop where
  aligned : s.node.lifecycle.sockets.length ≤ s.node.channels.length
  within : ∀ x ∈ s.sent, x.socket < s.node.channels.length
  outbox : ∀ socket outbox, (s.node.channels.map (·.outbox))[socket]? = some outbox →
    outbox.reverse.map .ok = (.ok Handshake.greeting : Except WireError Bytes) ::
      (s.sentOn socket).map (·.frame.serialize)

theorem posted_idle {node : Node B.State} (h : node.Fresh) (w : Watcher) :
    (idle node w).Posted where
  aligned := h.aligned
  within := by simp [idle]
  outbox socket outbox houtbox := by
    obtain ⟨channel, hchannel, rfl⟩ := Option.map_eq_some_iff.mp (List.getElem?_map ▸ houtbox)
    rw [h.greeted channel (List.mem_of_getElem? hchannel)]
    rfl

theorem Posted.attend (hs : s.Posted) (hnode : s.node.Attends t.node) (hsent : t.sent = s.sent) :
    t.Posted := by
  have hlength : t.node.channels.length = s.node.channels.length := by
    simpa using congrArg List.length hnode.outboxes
  refine ⟨by rw [hlength, hnode.sockets]; exact hs.aligned,
    by rw [hsent, hlength]; exact hs.within, fun socket outbox houtbox => ?_⟩
  rw [hnode.outboxes] at houtbox
  rw [show t.sentOn socket = s.sentOn socket by rw [sentOn, hsent, sentOn]]
  exact hs.outbox socket outbox houtbox

/-- New sockets have only been sent the greeting. -/
theorem Posted.follow (hs : s.Posted) {lifecycle : Lifecycle}
    (hnode : t.node = s.node.follow lifecycle) (hsent : t.sent = s.sent) : t.Posted := by
  have hchannels : t.node.channels = s.node.channels ++
      List.replicate (lifecycle.sockets.length - s.node.channels.length) .fresh := by
    rw [hnode]
    rfl
  have hsame : ∀ socket, t.sentOn socket = s.sentOn socket := by
    intro socket
    rw [sentOn, hsent, sentOn]
  refine ⟨?_, fun x hx => ?_, fun socket outbox houtbox => ?_⟩
  · rw [hchannels, hnode, List.length_append, List.length_replicate]
    simp only [Node.follow]
    omega
  · rw [hchannels, List.length_append]
    exact Nat.lt_add_right _ (hs.within x (hsent ▸ hx))
  · rw [hchannels, List.map_append, List.getElem?_append] at houtbox
    rw [hsame]
    split at houtbox
    next => exact hs.outbox socket outbox houtbox
    next hnew =>
      have hfresh : outbox = Channel.fresh.outbox := by
        rw [List.map_replicate] at houtbox
        exact List.eq_of_mem_replicate (List.mem_of_getElem? houtbox)
      have hnone : s.sentOn socket = [] := by
        rw [sentOn, List.filter_eq_nil_iff]
        intro x hx hsocket
        rw [List.length_map] at hnew
        have hlt := hs.within x hx
        simp only [decide_eq_true_eq] at hsocket
        omega
      rw [hfresh, hnone]
      rfl

/-- What is sent comes last in the outbox of its socket. -/
theorem Posted.send (hs : s.Posted) (x : Sending)
    (hsend : s.node.send x.socket x.frame = (true, t.node)) (hsent : t.sent = s.sent ++ [x]) :
    t.Posted := by
  obtain ⟨halive, bytes, hbytes, hnode⟩ := Node.sent_of_send hsend
  have hlength : t.node.channels.length = s.node.channels.length := by
    rw [hnode]
    exact List.length_modify ..
  have hlt : x.socket < s.node.channels.length := by
    apply Nat.lt_of_lt_of_le _ hs.aligned
    by_contra hge
    apply halive
    simp [Lifecycle.isCancelled, List.getElem?_eq_none (Nat.le_of_not_lt hge)]
  refine ⟨?_, ?_, fun socket outbox houtbox => ?_⟩
  · rw [hlength, hnode]
    exact hs.aligned
  · rw [hsent, hlength]
    exact List.forall_mem_append.mpr ⟨hs.within, by simpa using hlt⟩
  · have houtboxes : t.node.channels.map (·.outbox) =
        (s.node.channels.map (·.outbox)).modify x.socket (bytes :: ·) := by
      rw [hnode]
      simp only [Node.mapChannel]
      exact map_modify (by simp) _ _
    rw [houtboxes, List.getElem?_modify] at houtbox
    rw [sentOn, hsent, List.filter_append, List.map_append]
    by_cases hsocket : x.socket = socket
    · obtain ⟨before, hbefore, rfl⟩ := Option.map_eq_some_iff.mp houtbox
      simp only [hsocket, if_true, List.reverse_cons, List.map_append,
        hs.outbox socket before hbefore, List.filter_cons_of_pos, decide_true, List.filter_nil]
      simp [hbytes, sentOn]
    · simp only [hsocket, if_false] at houtbox
      have hfilter : [x].filter (·.socket = socket) = [] := by simp [hsocket]
      rw [hfilter, List.map_nil, List.append_nil]
      apply hs.outbox socket outbox
      simpa using houtbox

theorem Posted.step (hs : s.Posted) (h : Step fails answers s move t) : t.Posted := by
  cases h with
  | connect event lifecycle hevent hstep => exact hs.follow rfl rfl
  | greet socket late => exact hs.attend (Node.attends_greet ..) rfl
  | receive socket bytes => exact hs.attend (Node.attends_mapChannel fun _ => rfl) rfl
  | endStream socket => exact hs.attend (Node.attends_mapChannel fun _ => rfl) rfl
  | take socket peer frame node hreads =>
      cases hreads
      exact hs.attend (Node.attends_mapChannel fun _ => rfl) rfl
  | drop socket peer frame node hreads =>
      cases hreads
      exact hs.attend (Node.attends_mapChannel fun _ => rfl) rfl
  | reply k handler frame next socket node hhandler hstage hsocket hsent =>
      exact hs.send ⟨socket, frame, .reply k⟩ hsent rfl
  | dispatch j dispatch node hdispatch hfate hsent =>
      exact hs.send ⟨_, _, .dispatch j⟩ hsent rfl
  | _ => exact ⟨hs.aligned, hs.within, hs.outbox⟩

/-- What every step keeps of the connections. -/
theorem Step.keeps (h : Step fails answers s move t) :
    s.node.lifecycle.Keeps t.node.lifecycle := by
  cases h with
  | connect event lifecycle hevent hstep => exact Lifecycle.keeps_of_step? hstep
  | greet socket late => exact (Node.attends_greet ..).lifecycle
  | take socket peer frame node hreads =>
      cases hreads
      exact .refl _
  | drop socket peer frame node hreads =>
      cases hreads
      exact .refl _
  | reply k handler frame next socket node hhandler hstage hsocket hsent =>
      obtain ⟨-, bytes, -, rfl⟩ := Node.sent_of_send hsent
      exact .refl _
  | dispatch j dispatch node hdispatch hfate hsent =>
      obtain ⟨-, bytes, -, rfl⟩ := Node.sent_of_send hsent
      exact .refl _
  | undelivered j dispatch hdispatch hfate => exact (Lifecycle.calm_depart _ _).keeps
  | _ => exact .refl _

end Station

end ChatRelay
