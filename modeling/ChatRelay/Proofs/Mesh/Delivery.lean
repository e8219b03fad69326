import ChatRelay.Proofs.Mesh

/-!
# Delivery over links

What a node reads off a link is what was sent at the other end, in order and from the beginning. The
rest is on its way or unread.
-/

namespace ChatRelay

namespace Mesh

variable {ι : Type} {B : ι → OutpointStore} {links : Links ι}
  {answers : ι → (call : LedgerCall) → call.Answer → Prop} {m : Message} {g g' : Mesh B}

/-- The frames that were sent at an end of a link. -/
def frames (g : Mesh B) (e : ι × Nat) : List Frame := (g.stations e.1).frames e.2

/-- The frames that were taken at an end of a link. -/
def taken (g : Mesh B) (e : ι × Nat) : List Frame := (g.stations e.1).taken e.2

/-- Whether what was sent at one end of a link arrives at the other: what was taken there comes
first, then what is unread or on its way. -/
def Carries (g : Mesh B) (e e' : ι × Nat) : Prop :=
  ∃ unread, g.frames e = g.taken e' ++ unread ∧
    g.inbox e' ++ g.undelivered e = unread.flatMap Frame.octets ∧
    g.delivered e ≤ (g.stream e).length

/-- Nodes that gossip one message and know their neighbours. -/
structure Gossips (links : Links ι) (answers : ι → (call : LedgerCall) → call.Answer → Prop)
    (m : Message) (g : Mesh B) : Prop where
  gossips : ∀ i, (g.stations i).Gossips (answers i) m
  bound : ∀ i, m.encodedLength ≤ (g.stations i).node.maxMessage
  registered : ∀ e e', links.opposite e = some e' →
    ∃ peer, (peer, e.2) ∈ (g.stations e.1).node.lifecycle.registry.entries

/-- Nodes that gossip one message over reliable links. -/
structure Sound (links : Links ι) (answers : ι → (call : LedgerCall) → call.Answer → Prop)
    (m : Message) (g : Mesh B) : Prop extends g.Gossips links answers m where
  carries : ∀ e e', links.opposite e = some e' → g.Carries e e'
  unlinked : ∀ e, links.opposite e = none → g.inbox e = []

namespace Gossips

variable (hg : g.Gossips links answers m)

include hg

/-- Linked sockets have channels. -/
theorem within {e e' : ι × Nat} (hlink : links.opposite e = some e') :
    e.2 < (g.stations e.1).node.channels.length := by
  obtain ⟨peer, hpeer⟩ := hg.registered e e' hlink
  obtain ⟨sock, hsock, -⟩ := (hg.gossips e.1).accounted.wired.settled _ hpeer
  obtain ⟨hlt, -⟩ := List.getElem?_eq_some_iff.mp hsock
  exact Nat.lt_of_lt_of_le hlt (hg.gossips e.1).posted.aligned

theorem stream_eq {e e' : ι × Nat} (hlink : links.opposite e = some e') :
    g.stream e = Handshake.greeting ++ (g.frames e).flatMap Frame.octets :=
  (hg.gossips e.1).posted.stream (hg.within hlink)

/-- What is sent can be written and read by every node. -/
theorem lawful {e : ι × Nat} {frame : Frame} (hframe : frame ∈ g.frames e) (i : ι) :
    (∃ bytes, frame.serialize = .ok bytes) ∧ ∀ body, frame = .data body →
      body ≠ [] ∧ body.length ≤ (g.stations i).node.maxMessage := by
  refine ⟨(hg.gossips e.1).posted.serialized hframe, ?_⟩
  rintro body rfl
  rcases (hg.gossips e.1).frame_cases hframe with ⟨heq, -⟩ | ⟨heq, -⟩ | ⟨heq, -⟩
  · cases heq
  · cases heq
  · obtain rfl := Frame.data.inj heq
    refine ⟨fun hnil => ?_, m.length_encode ▸ hg.bound i⟩
    have hlength := congrArg List.length hnil
    rw [m.length_encode, Message.encodedLength, Message.headerLength] at hlength
    simp at hlength

end Gossips

namespace Sound

variable (hg : g.Sound links answers m)

include hg

/-- A frame that is read is the first one that was sent and not yet taken. -/
theorem read_eq {e e' : ι × Nat} (hlink : links.opposite e = some e') {frame : Frame} {rest : Bytes}
    (hread : Frame.read (g.stations e'.1).node.maxMessage (g.inbox e') = .complete frame rest) :
    ∃ unread, g.frames e = g.taken e' ++ frame :: unread ∧
      rest ++ g.undelivered e = unread.flatMap Frame.octets := by
  obtain ⟨unread, hframes, harrives, -⟩ := hg.carries e e' hlink
  have hmore := Frame.read_append hread (g.undelivered e)
  rw [harrives] at hmore
  cases unread with
  | nil => cases hmore
  | cons first unread =>
      obtain ⟨⟨bytes, hbytes⟩, hbody⟩ := hg.lawful (hframes ▸ by simp : first ∈ g.frames e) e'.1
      rw [List.flatMap_cons, Frame.octets_eq hbytes, Frame.read_serialize hbytes _ hbody] at hmore
      obtain ⟨rfl, hrest⟩ := Progress.complete.inj hmore
      exact ⟨unread, hframes, hrest.symm⟩

/-- A frame that can be read comes from a link. -/
theorem linked_of_read {e : ι × Nat} {bound : Nat} {frame : Frame} {rest : Bytes}
    (hread : Frame.read bound (g.inbox e) = .complete frame rest) :
    ∃ e', links.opposite e' = some e := by
  cases hlink : links.opposite e with
  | none =>
      rw [hg.unlinked e hlink] at hread
      cases hread
  | some e' => exact ⟨e', links.symm e e' hlink⟩

theorem taken_subset {e e' : ι × Nat} (hlink : links.opposite e = some e') {frame : Frame}
    (htaken : frame ∈ g.taken e') : frame ∈ g.frames e := by
  obtain ⟨unread, hframes, -⟩ := hg.carries e e' hlink
  exact hframes ▸ List.mem_append_left _ htaken

/-- The message is requested from a node only when it caches it. -/
theorem caches_of_request {e e' : ι × Nat} (hlink : links.opposite e = some e')
    (hframe : .getData m.outpoint ∈ g.frames e) : (g.stations e'.1).Caches m := by
  rcases (hg.gossips e.1).frame_cases hframe with
    ⟨heq, -⟩ | ⟨-, handler, hhandler, peer, herrand⟩ | ⟨heq, -⟩
  · cases heq
  · -- the request replies to an announcement, which the other end has sent
    have htaken : .inv [m.outpoint] ∈ g.taken e :=
      Station.mem_taken.mpr ⟨handler, hhandler, peer, herrand⟩
    have hsent := hg.taken_subset (links.symm e e' hlink) htaken
    rcases (hg.gossips e'.1).frame_cases hsent with ⟨-, hcaches⟩ | ⟨heq, -⟩ | ⟨heq, -⟩
    · exact hcaches
    · cases heq
    · cases heq
  · cases heq

/-- Whatever a node begins to work on is about the one message, or is not valid. -/
theorem proper {i : ι} {t : Station (B i)} {move : Move}
    (hstep : Station.Step (fun _ => False) (answers i) (g.stations i) move t)
    (hsubmits : ∀ message, move = .submit message → message = m ∨ message.Unsigned (answers i))
    (k : Nat) (errand : Errand) (hnone : (g.stations i).handlers[k]? = none)
    (hnew : t.handlers[k]? = some (.begin errand)) :
    errand.Proper (answers i) m (g.stations i).node.lifecycle.registry.entries
      ((g.stations i).Caches m) := by
  rcases hstep.begun hnone hnew with ⟨message, hmove, rfl⟩ |
    ⟨socket, peer, frame, rest, -, rfl, hactive, hread⟩
  · exact hsubmits message hmove
  obtain ⟨e, hlink⟩ := hg.linked_of_read (e := (i, socket)) hread
  obtain ⟨registered, hregistered⟩ := hg.registered _ _ (links.symm _ _ hlink)
  obtain rfl : peer = registered :=
    (hg.gossips i).accounted.wired.active _ hregistered peer hactive
  obtain ⟨unread, hframes, -⟩ := hg.read_eq hlink hread
  have hsent : frame ∈ g.frames e := hframes ▸ by simp
  refine ⟨hregistered, ?_⟩
  rcases (hg.gossips e.1).frame_cases hsent with ⟨heq, -⟩ | ⟨rfl, -⟩ | ⟨heq, -⟩
  · exact .inl heq
  · exact .inr (.inl ⟨rfl, hg.caches_of_request hlink hsent⟩)
  · exact .inr (.inr heq)

end Sound

/-! ## Steps -/

variable [DecidableEq ι]

section

variable {α : Type} (view : (i : ι) → Station (B i) → Nat → α) {i : ι} {t : Station (B i)}

theorem view_place (h : view i t = view i (g.stations i)) :
    (fun e : ι × Nat => view e.1 ((g.place i t).stations e.1) e.2) =
      fun e => view e.1 (g.stations e.1) e.2 := by
  funext e
  refine congrFun ?_ e.2
  exact (Function.forall_update_iff g.stations fun j s => view j s = view j (g.stations j)).mpr
    ⟨h, fun _ _ => rfl⟩ e.1

theorem view_place_update {socket : Nat} {x : α}
    (h : view i t = Function.update (view i (g.stations i)) socket x) :
    (fun e : ι × Nat => view e.1 ((g.place i t).stations e.1) e.2) =
      Function.update (fun e => view e.1 (g.stations e.1) e.2) (i, socket) x := by
  funext ⟨j, k⟩
  by_cases hj : j = i
  · subst hj
    rw [place]
    dsimp only
    rw [Function.update_self, h]
    by_cases hk : k = socket
    · simp [hk]
    · simp [hk]
  · simp [place, hj]

end

/-- What a step changes at the ends of links. -/
inductive Moves (links : Links ι) (g g' : Mesh B) : Prop
  | quiet (hframes : g'.frames = g.frames) (htaken : g'.taken = g.taken)
      (hinbox : g'.inbox = g.inbox) (hdelivered : g'.delivered = g.delivered)
  | sends (e : ι × Nat) (frame : Frame)
      (hframes : g'.frames = Function.update g.frames e (g.frames e ++ [frame]))
      (htaken : g'.taken = g.taken) (hinbox : g'.inbox = g.inbox)
      (hdelivered : g'.delivered = g.delivered)
  | takes (e : ι × Nat) (frame : Frame) (rest : Bytes)
      (hread : Frame.read (g.stations e.1).node.maxMessage (g.inbox e) = .complete frame rest)
      (hframes : g'.frames = g.frames)
      (htaken : g'.taken = Function.update g.taken e (g.taken e ++ [frame]))
      (hinbox : g'.inbox = Function.update g.inbox e rest) (hdelivered : g'.delivered = g.delivered)
  | delivers (e e' : ι × Nat) (piece rest : Bytes) (hlink : links.opposite e = some e')
      (hnext : g.undelivered e = piece ++ rest) (hframes : g'.frames = g.frames)
      (htaken : g'.taken = g.taken)
      (hinbox : g'.inbox = Function.update g.inbox e' (g.inbox e' ++ piece))
      (hdelivered : g'.delivered =
        Function.update g.delivered e (g.delivered e + piece.length))

/-- A step moves one node on. -/
theorem Step.station (h : Step links answers m g g') :
    ∃ i move t, Station.Step (fun _ => False) (answers i) (g.stations i) move t ∧
      move ≠ .disturb ∧
      (∀ message, move = .submit message → message = m ∨ message.Unsigned (answers i)) ∧
      g'.stations = Function.update g.stations i t := by
  cases h with
  | work i t hstep => exact ⟨i, _, t, hstep, nofun, nofun, rfl⟩
  | submit i message t hmessage hstep =>
      refine ⟨i, _, t, hstep, nofun, fun message' hmove => ?_, rfl⟩
      obtain rfl := Move.submit.inj hmove
      exact hmessage
  | deliver e e' piece rest t hlink hnext hstep => exact ⟨e'.1, _, t, hstep, nofun, nofun, rfl⟩

theorem moves_of_traffic {i : ι} {t : Station (B i)} (h : (g.stations i).Traffic t) :
    Moves links g (g.place i t) := by
  cases h with
  | quiet hframes htaken hinbox =>
      exact .quiet (view_place (fun _ => Station.frames) hframes)
        (view_place (fun _ => Station.taken) htaken) (view_place (fun _ => Station.inbox) hinbox)
        rfl
  | sends socket frame hframes htaken hinbox =>
      exact .sends (i, socket) frame (view_place_update (fun _ => Station.frames) hframes)
        (view_place (fun _ => Station.taken) htaken) (view_place (fun _ => Station.inbox) hinbox)
        rfl
  | takes socket frame rest hread hframes htaken hinbox =>
      exact .takes (i, socket) frame rest hread (view_place (fun _ => Station.frames) hframes)
        (view_place_update (fun _ => Station.taken) htaken)
        (view_place_update (fun _ => Station.inbox) hinbox) rfl

theorem Gossips.moves (hg : g.Gossips links answers m) (h : Step links answers m g g') :
    Moves links g g' := by
  cases h with
  | work i t hstep => exact moves_of_traffic (hstep.traffic nofun nofun)
  | submit i message t hmessage hstep => exact moves_of_traffic (hstep.traffic nofun nofun)
  | deliver e e' piece rest t hlink hnext hstep =>
      obtain ⟨hframes, htaken, hinbox⟩ := hstep.received (hg.within (links.symm e e' hlink))
      exact .delivers e e' piece rest hlink hnext (view_place (fun _ => Station.frames) hframes)
        (view_place (fun _ => Station.taken) htaken)
        (view_place_update (fun _ => Station.inbox) hinbox) rfl

namespace Sound

variable (hg : g.Sound links answers m) (h : Step links answers m g g')
  {script : Bytes} (howned : ∀ i, m.Owned (answers i) script)

include hg h

/-- What a step keeps of the nodes. -/
theorem gossips_step (howned : ∀ i, m.Owned (answers i) script) : g'.Gossips links answers m := by
  obtain ⟨i, move, t, hstep, hmove, hsubmits, hstations⟩ := h.station
  obtain ⟨hlifecycle, hbound, -⟩ := hstep.undisturbed hmove
  have hnode := (hg.gossips i).step hstep hmove (hg.proper hstep hsubmits) (howned i)
  refine ⟨?_, ?_, fun e e' hlink => ?_⟩
  · rw [hstations]
    exact (Function.forall_update_iff g.stations fun j s => s.Gossips (answers j) m).mpr
      ⟨hnode, fun j _ => hg.gossips j⟩
  · rw [hstations]
    exact (Function.forall_update_iff g.stations fun j s => m.encodedLength ≤ s.node.maxMessage).mpr
      ⟨hbound ▸ hg.bound i, fun j _ => hg.bound j⟩
  · rw [hstations]
    have hsame : ∀ j, (Function.update g.stations i t j).node.lifecycle =
        (g.stations j).node.lifecycle :=
      (Function.forall_update_iff g.stations fun j s =>
        s.node.lifecycle = (g.stations j).node.lifecycle).mpr ⟨hlifecycle, fun _ _ => rfl⟩
    rw [hsame]
    exact hg.registered e e' hlink

/-- What a step keeps of the links. -/
theorem carries_step (hafter : g'.Gossips links answers m) {e e' : ι × Nat}
    (hlink : links.opposite e = some e') : g'.Carries e e' := by
  obtain ⟨unread, hsent, harrives, hle⟩ := hg.carries e e' hlink
  have hstream := hg.stream_eq hlink
  have hstream' := hafter.stream_eq hlink
  rw [undelivered, hstream] at harrives
  rw [hstream] at hle
  rw [Carries, undelivered, hstream']
  cases hg.moves h with
  | quiet hframes htaken hinbox hdelivered =>
      rw [hframes, htaken, hinbox, hdelivered]
      exact ⟨unread, hsent, harrives, hle⟩
  | sends e₁ frame hframes htaken hinbox hdelivered =>
      rw [hframes, htaken, hinbox, hdelivered]
      by_cases heq : e = e₁
      · subst heq
        -- one frame more is on its way, behind the others
        refine ⟨unread ++ [frame], ?_, ?_, ?_⟩
        · rw [Function.update_self, hsent, List.append_assoc]
        · rw [Function.update_self, List.flatMap_append, ← List.append_assoc,
            List.drop_append_of_le_length hle, ← List.append_assoc, harrives, List.flatMap_append]
        · rw [Function.update_self, List.flatMap_append, ← List.append_assoc, List.length_append]
          exact Nat.le_add_right_of_le hle
      · rw [Function.update_of_ne heq]
        exact ⟨unread, hsent, harrives, hle⟩
  | takes e₁ frame rest hread hframes htaken hinbox hdelivered =>
      rw [hframes, htaken, hinbox, hdelivered]
      by_cases heq : e' = e₁
      · subst heq
        -- the frame was the first that had not been taken
        obtain ⟨left, hsent, hrest⟩ := hg.read_eq hlink hread
        refine ⟨left, ?_, ?_, hle⟩
        · rw [Function.update_self, hsent, List.append_assoc]
          rfl
        · rw [Function.update_self, ← hrest, undelivered, hstream]
      · rw [Function.update_of_ne heq, Function.update_of_ne heq]
        exact ⟨unread, hsent, harrives, hle⟩
  | delivers e₁ e₂ piece rest hlink₁ hnext hframes htaken hinbox hdelivered =>
      rw [hframes, htaken, hinbox, hdelivered]
      by_cases heq : e = e₁
      · subst heq
        -- octets that were on their way are unread now
        obtain rfl := Option.some.inj (hlink.symm.trans hlink₁)
        rw [undelivered, hstream] at hnext
        refine ⟨unread, hsent, ?_, ?_⟩
        · rw [Function.update_self, Function.update_self, ← List.drop_drop, hnext,
            List.drop_left' rfl, ← harrives, hnext, List.append_assoc]
        · have hlength := congrArg List.length hnext
          rw [Function.update_self]
          simp only [List.length_drop, List.length_append] at hlength hle ⊢
          omega
      · have hne : e' ≠ e₂ := by
          rintro rfl
          exact heq (Option.some.inj ((links.symm _ _ hlink).symm.trans (links.symm _ _ hlink₁)))
        rw [Function.update_of_ne heq, Function.update_of_ne hne]
        exact ⟨unread, hsent, harrives, hle⟩

theorem unlinked_step {e : ι × Nat} (hlink : links.opposite e = none) : g'.inbox e = [] := by
  have hbefore := hg.unlinked e hlink
  cases hg.moves h with
  | quiet hframes htaken hinbox hdelivered => rw [hinbox, hbefore]
  | sends e₁ frame hframes htaken hinbox hdelivered => rw [hinbox, hbefore]
  | takes e₁ frame rest hread hframes htaken hinbox hdelivered =>
      rw [hinbox, Function.update_of_ne, hbefore]
      rintro rfl
      rw [hbefore] at hread
      cases hread
  | delivers e₁ e₂ piece rest hlink₁ hnext hframes htaken hinbox hdelivered =>
      rw [hinbox, Function.update_of_ne, hbefore]
      rintro rfl
      cases hlink.symm.trans (links.symm _ _ hlink₁)

theorem step (howned : ∀ i, m.Owned (answers i) script) : g'.Sound links answers m where
  toGossips := hg.gossips_step h howned
  carries _ _ hlink := hg.carries_step h (hg.gossips_step h howned) hlink
  unlinked _ hlink := hg.unlinked_step h hlink

end Sound

/-! ## Runs -/

omit [DecidableEq ι] in
theorem Initial.gossips (hg : g.Initial links m) : g.Gossips links answers m where
  gossips i := by
    obtain ⟨node, w, hidle, hfresh⟩ := hg.idle i
    have hnew := hg.unrecorded i
    rw [((B i).performs (.has m.outpoint) _).1] at hnew
    rw [hidle] at hnew ⊢
    exact Station.gossips_idle hfresh w (Bool.eq_false_iff.mp (Except.ok.inj hnew))
  bound := hg.bound
  registered := hg.registered

omit [DecidableEq ι] in
theorem Initial.sound (hg : g.Initial links m) : g.Sound links answers m where
  toGossips := hg.gossips
  carries e e' hlink := by
    have hframes : g.frames e = [] := by
      obtain ⟨node, w, hidle, -⟩ := hg.idle e.1
      rw [frames, hidle]
      rfl
    have htaken : g.taken e' = [] := by
      obtain ⟨node, w, hidle, -⟩ := hg.idle e'.1
      rw [taken, hidle]
      rfl
    have hgossips : g.Gossips links answers m := hg.gossips
    have hstream := hgossips.stream_eq hlink
    rw [hframes] at hstream
    refine ⟨[], by rw [hframes, htaken]; rfl, ?_, ?_⟩
    · rw [hg.unread, undelivered, hstream, hg.delivered e e' hlink]
      rfl
    · rw [hstream, hg.delivered e e' hlink]
      rfl
  unlinked e _ := hg.unread e

theorem sound_of_reaches {start : Mesh B} {script : Bytes} (hstart : start.Initial links m)
    (howned : ∀ i, m.Owned (answers i) script) (h : Reaches links answers m start g) :
    g.Sound links answers m := by
  induction h with
  | refl => exact hstart.sound
  | tail _ hstep ih => exact ih.step hstep howned

end Mesh

end ChatRelay
