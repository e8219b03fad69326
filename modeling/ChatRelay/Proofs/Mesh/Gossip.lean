import ChatRelay.Proofs.Mesh.Delivery

/-!
# Gossip reaches everyone

However submissions, deliveries and the work of the nodes alternate, no node caches anything but the
one message, and no link carries its announcement twice in one direction. Once nobody has anything
left to do, all that are joined by links to a node that recorded the message have it.
-/

namespace ChatRelay

namespace Mesh

variable {ι : Type} {B : ι → OutpointStore} {links : Links ι}
  {answers : ι → (call : LedgerCall) → call.Answer → Prop} {m : Message} {g : Mesh B}
  {script : Bytes}

theorem has_iff (i : ι) : ((B i).perform (.has m.outpoint) (g.stations i).node.world).1 = .ok true ↔
    (g.stations i).held.recorded m.outpoint := by
  rw [((B i).performs (.has m.outpoint) _).1]
  exact ⟨Except.ok.inj, congrArg _⟩

namespace Sound

variable (hg : g.Sound links answers m)

include hg

/-- A node has cached nothing else. -/
theorem payload_cases (i : ι) :
    ((B i).perform (.payload m.outpoint) (g.stations i).node.world).1 = .ok none ∨
      ((B i).perform (.payload m.outpoint) (g.stations i).node.world).1 = .ok (some m.encode) := by
  rw [((B i).performs (.payload m.outpoint) _).1]
  cases hentry : ((B i).holdings (g.stations i).node.world).entries m.outpoint with
  | none => exact .inl rfl
  | some cached =>
      cases cached with
      | none => exact .inl rfl
      | some b =>
          obtain rfl := (hg.gossips i).cached b hentry
          exact .inr rfl

/-- What the other end reads off a link is what was sent, with one announcement at most. -/
theorem announced_once {e e' : ι × Nat} (hlink : links.opposite e = some e') :
    ∃ frames, g.stream e = Handshake.greeting ++ frames.flatMap Frame.octets ∧
      Frame.readAll (g.stations e'.1).node.maxMessage (frames.flatMap Frame.octets) =
        (frames, none) ∧
      frames.countP (·.announces m.outpoint) ≤ 1 :=
  ⟨g.frames e, hg.stream_eq hlink,
    Frame.readAll_flatMap fun _ hframe => hg.lawful hframe e'.1,
    (hg.gossips e.1).announced_once e.2⟩

/-- Whoever delivered the message has it. -/
theorem caches_of_delivery {e e' : ι × Nat} (hlink : links.opposite e = some e')
    (htaken : .data m.encode ∈ g.taken e') : (g.stations e.1).Caches m := by
  rcases (hg.gossips e.1).frame_cases (hg.taken_subset hlink htaken) with
    ⟨heq, -⟩ | ⟨heq, -⟩ | ⟨-, hcaches⟩
  · cases heq
  · cases heq
  · exact hcaches

variable (hquiet : g.Quiet links)

include hquiet

/-- When nothing is on its way, all that was sent has been taken. -/
theorem taken_eq {e e' : ι × Nat} (hlink : links.opposite e = some e') :
    g.taken e' = g.frames e := by
  obtain ⟨unread, hframes, harrives, -⟩ := hg.carries e e' hlink
  rw [hquiet.read e e' hlink, hquiet.arrived e e' hlink] at harrives
  cases unread with
  | nil => rw [hframes, List.append_nil]
  | cons frame unread =>
      obtain ⟨⟨bytes, hbytes⟩, -⟩ := hg.lawful (hframes ▸ by simp : frame ∈ g.frames e) e.1
      rw [List.flatMap_cons, Frame.octets_eq hbytes] at harrives
      exact absurd (List.append_eq_nil_iff.mp harrives.symm).1 (Frame.ne_nil_of_serialize hbytes)

/-- A frame that was sent has been handled at the other end. -/
theorem handler_of_sent {e e' : ι × Nat} (hlink : links.opposite e = some e') {frame : Frame}
    (hsent : frame ∈ g.frames e) : ∃ handler ∈ (g.stations e'.1).handlers, ∃ peer,
      handler.errand = .session e'.2 peer frame :=
  Station.mem_taken.mp (show frame ∈ g.taken e' from hg.taken_eq hquiet hlink ▸ hsent)

/-- Whoever was sent an announcement has the message: it had it, or has requested it and was sent
it. -/
theorem recorded_of_announced (howned : ∀ i, m.Owned (answers i) script) {e e' : ι × Nat}
    (hlink : links.opposite e = some e') (hsent : .inv [m.outpoint] ∈ g.frames e) :
    (g.stations e'.1).held.recorded m.outpoint := by
  have hback := links.symm e e' hlink
  obtain ⟨handler, hhandler, peer, herrand⟩ := hg.handler_of_sent hquiet hlink hsent
  rcases (hg.gossips e'.1).requested (hquiet.stations e'.1) hhandler herrand with
    hrecorded | hrequest
  · exact hrecorded
  obtain ⟨server, hserver, peer, herrand⟩ := hg.handler_of_sent hquiet hback hrequest
  have hdelivery := (hg.gossips e.1).delivered (hquiet.stations e.1) hserver herrand
  obtain ⟨receiver, hreceiver, peer, herrand⟩ := hg.handler_of_sent hquiet hlink hdelivery
  exact (hg.gossips e'.1).recorded_of_delivery (hquiet.stations e'.1) (howned e'.1) hreceiver
    herrand

/-- The message has gone over each link of a node that recorded it, one way or the other. -/
theorem recorded_of_linked (howned : ∀ i, m.Owned (answers i) script) {e e' : ι × Nat}
    (hlink : links.opposite e = some e') (hrecorded : (g.stations e.1).held.recorded m.outpoint) :
    (g.stations e'.1).held.recorded m.outpoint := by
  obtain ⟨-, handler, hhandler, hcarries, hspread⟩ :=
    (hg.gossips e.1).spread (hquiet.stations e.1) hrecorded
  obtain ⟨peer, hpeer⟩ := hg.registered e e' hlink
  by_cases hsource : some peer = handler.errand.source
  · -- the other end is the source, which has delivered the message
    have hproper := (hg.gossips e.1).errands handler hhandler
    cases herrand : handler.errand with
    | submission message =>
        rw [herrand] at hsource
        cases hsource
    | session socket source frame =>
        rw [herrand] at hsource hproper hcarries
        obtain rfl := Option.some.inj hsource
        obtain rfl : socket = e.2 := congrArg Prod.snd
          (List.inj_on_of_nodup_map (hg.gossips e.1).accounted.wired.keys hproper.1 hpeer rfl)
        rcases hproper.2 with rfl | ⟨rfl, -⟩ | rfl
        · exact hcarries.elim
        · exact hcarries.elim
        · have htaken : .data m.encode ∈ g.taken e :=
            Station.mem_taken.mpr ⟨handler, hhandler, peer, herrand⟩
          exact (hg.caches_of_delivery (links.symm e e' hlink) htaken).recorded
  · exact hg.recorded_of_announced hquiet howned hlink (hspread _ hpeer hsource)

end Sound

/-- However submissions, deliveries and the nodes' work alternate: a node caches the message or
nothing for its outpoint, each direction of a link carries one announcement of it at most, and once
nothing is left to do all that are joined to a node that recorded it have recorded and cached it. -/
theorem gossip_reaches_everyone [DecidableEq ι] {start : Mesh B} (hstart : start.Initial links m)
    (howned : ∀ i, m.Owned (answers i) script) (h : Reaches links answers m start g) :
    (∀ i, ((B i).perform (.payload m.outpoint) (g.stations i).node.world).1 = .ok none ∨
        ((B i).perform (.payload m.outpoint) (g.stations i).node.world).1 = .ok (some m.encode)) ∧
      (∀ e e', links.opposite e = some e' → ∃ frames,
        g.stream e = Handshake.greeting ++ frames.flatMap Frame.octets ∧
        Frame.readAll (g.stations e'.1).node.maxMessage (frames.flatMap Frame.octets) =
          (frames, none) ∧
        frames.countP (·.announces m.outpoint) ≤ 1) ∧
      (g.Quiet links → ∀ i j, Relation.ReflTransGen links.Joins i j →
        ((B i).perform (.has m.outpoint) (g.stations i).node.world).1 = .ok true →
        ((B j).perform (.has m.outpoint) (g.stations j).node.world).1 = .ok true ∧
          ((B j).perform (.payload m.outpoint) (g.stations j).node.world).1 =
            .ok (some m.encode)) := by
  have hg : g.Sound links answers m := sound_of_reaches hstart howned h
  refine ⟨hg.payload_cases, fun e e' hlink => hg.announced_once hlink,
    fun hquiet i j hjoined hhas => ?_⟩
  have hrecorded : (g.stations j).held.recorded m.outpoint := by
    induction hjoined with
    | refl => exact (has_iff i).mp hhas
    | tail _ hjoins ih =>
        obtain ⟨k, l, hlink⟩ := hjoins
        exact hg.recorded_of_linked hquiet howned hlink ih
  refine ⟨(has_iff j).mpr hrecorded, ?_⟩
  obtain ⟨hcaches, -⟩ := (hg.gossips j).spread (hquiet.stations j) hrecorded
  rw [((B j).performs (.payload m.outpoint) _).1]
  exact congrArg (fun entry => Except.ok entry.join) hcaches

theorem owned_row (i : Fin 3) : sampleMessage.Owned (rowAnswers i) Admission.sampleScript where
  shown _ h := h.trans rfl
  signed := ⟨_, _, Admission.sampleMessage_signed⟩

theorem fresh_row (i : Fin 3) : (row.stations i).node.Fresh where
  connected := by
    by_cases hi : i = 1
    · subst hi
      exact ⟨2, _, [.listen, .accept "first", .accept "second", .greeted 0, .greeted 1], rfl, rfl⟩
    · simp only [row, if_neg hi]
      exact ⟨2, _, [.listen, .accept "only", .greeted 0], rfl, rfl⟩
  aligned := by decide +revert +kernel
  greeted := by decide +revert +kernel

theorem initial_row : row.Initial rowLinks sampleMessage where
  idle i := ⟨_, _, rfl, fresh_row i⟩
  unrecorded := by decide +kernel
  bound := by decide +kernel
  unread e := by
    have hchannels : ∀ i, ∀ channel ∈ (row.stations i).node.channels, channel.inbox = [] := by
      decide +kernel
    rw [inbox, Station.inbox]
    cases hchannel : (row.stations e.1).node.channels[e.2]? with
    | none => rfl
    | some channel => exact hchannels e.1 channel (List.mem_of_getElem? hchannel)
  delivered _ _ _ := rfl
  registered e e' hlink := by
    have hregistered : ∀ ends ∈ rowEnds, ∃ entry ∈
        (row.stations ends.1.1).node.lifecycle.registry.entries, entry.2 = ends.1.2 := by
      decide +kernel
    obtain ⟨⟨peer, socket⟩, hentry, rfl⟩ := hregistered _ (mem_rowEnds hlink)
    exact ⟨peer, hentry⟩

/-- Nothing is left to do in the row, and its first node has recorded the sample outpoint. -/
theorem informedRow_rests : (∀ i, (informedRow.stations i).Quiet) ∧
    (∀ ends ∈ rowEnds, informedRow.undelivered ends.1 = [] ∧ informedRow.inbox ends.2 = []) ∧
    (MemoryStore.backend.perform (.has sampleOutpoint) (informedRow.stations 0).node.world).1 =
      .ok true := by
  decide +kernel

/-- The message reaches the far end of a row. -/
theorem gossip_reaches_everyone_row :
    row.Initial rowLinks sampleMessage ∧ informedRow.Quiet rowLinks ∧
      Relation.ReflTransGen rowLinks.Joins 0 2 ∧
      (MemoryStore.backend.perform (.payload sampleOutpoint)
        (informedRow.stations 2).node.world).1 = .ok (some sampleMessage.encode) := by
  have hanswers : ∀ i call, rowAnswers i call (sampleChain.answer call) := fun _ _ => rfl
  have hreaches : Reaches rowLinks rowAnswers sampleMessage row informedRow :=
    reaches_turns hanswers sampleRow
  have hjoined : Relation.ReflTransGen rowLinks.Joins 0 2 :=
    .tail (.single ⟨0, 0, rfl⟩ : Relation.ReflTransGen rowLinks.Joins 0 1) ⟨1, 0, rfl⟩
  obtain ⟨hstations, hends, hhas⟩ := informedRow_rests
  have hquiet : informedRow.Quiet rowLinks :=
    ⟨hstations, fun _ _ hlink => (hends _ (mem_rowEnds hlink)).1,
      fun _ _ hlink => (hends _ (mem_rowEnds hlink)).2⟩
  obtain ⟨-, -, hgossip⟩ := gossip_reaches_everyone initial_row owned_row hreaches
  exact ⟨initial_row, hquiet, hjoined, (hgossip hquiet 0 2 hjoined hhas).2⟩

end Mesh

end ChatRelay
