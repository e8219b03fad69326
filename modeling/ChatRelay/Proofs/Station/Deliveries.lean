import ChatRelay.Proofs.Station.Authenticity
import ChatRelay.Proofs.Station.Turns
import ChatRelay.Proofs.Wire.Canonical
import ChatRelay.Proofs.Wire.Messages
import ChatRelay.Settings

/-!
# Whether deliveries can be read

A session reads no delivery that is longer than its node lets in, so that relayed messages are
within that bound. A submitted message is not held against it: where it is longer, another node with
the same settings refuses its delivery.
-/

namespace ChatRelay

namespace Settings

/-- The node that settings ask for. -/
def start? {σ : Type} (settings : Settings) (world : σ) : Option (Node σ) :=
  Node.start? settings.network.maxPeers.toNat settings.network.maxMessageSize.toNat world

end Settings

namespace Message

/-- An encoded message is neither empty nor too long for its delivery's length. -/
theorem fits_encode (message : Message) : (Frame.data message.encode).Fits maxEncodedLength := by
  have hpayload := message.length_payload_le
  simp only [Frame.Fits, length_encode, encodedLength, maxEncodedLength, headerLength,
    maxPayloadLength]
  omega

end Message

namespace Frame

variable {bound highest : Nat} {body : Bytes}

/-- A delivery is read whole, or its length is refused, by the bound. -/
theorem read_data_iff (h : (data body).Fits highest) (rest : Bytes) :
    (read bound ((data body).octets ++ rest) = .complete (.data body) rest ↔
        body.length ≤ bound) ∧
      (read bound ((data body).octets ++ rest) = .refused (.invalidDataLength body.length bound) ↔
        ¬ body.length ≤ bound) := by
  obtain ⟨hpos, -, hlt⟩ := h
  rcases Nat.lt_or_ge bound body.length with hlong | hshort
  · have hread : read bound ((data body).octets ++ rest) =
        .refused (.invalidDataLength body.length bound) := by
      rw [read_eq_invalidDataLength_iff]
      refine ⟨rfl, .inr hlong, hlt, body ++ rest, ?_⟩
      rw [octets_data hlt, List.append_assoc]
    rw [hread]
    simp [hlong]
  · have hfits : (data body).Fits bound := ⟨hpos, hshort, hlt⟩
    rw [hfits.read rest]
    simp [hshort]

end Frame

namespace Station

variable {B : OutpointStore} {fails : StoreCall → Prop}
  {answers : (call : LedgerCall) → call.Answer → Prop} {s t : Station B} {move : Move}

/-- Whether octets are those of a message that was submitted here and is longer than a bound. -/
def Oversized (s : Station B) (bound : Nat) (bytes : Bytes) : Prop :=
  bound < bytes.length ∧ ∃ handler ∈ s.handlers, ∃ message,
    handler.errand = .submission message ∧ message.encode = bytes

theorem Step.maxMessage (h : Step fails answers s move t) :
    t.node.maxMessage = s.node.maxMessage := by
  cases h with
  | greet socket late =>
      obtain ⟨lifecycle, channels, hgreet⟩ := Node.greet_eq s.node socket late
      have hsame := congrArg Node.maxMessage (hgreet s.node.announcements)
      exact hsame
  | take socket peer frame node hreads =>
      cases hreads
      rfl
  | drop socket peer frame node hreads =>
      cases hreads
      rfl
  | reply k handler frame next socket node hhandler hstage hsocket hsent =>
      obtain ⟨-, bytes, -, rfl⟩ := Node.sent_of_send hsent
      rfl
  | dispatch j dispatch node hdispatch hfate hsent =>
      obtain ⟨-, bytes, -, rfl⟩ := Node.sent_of_send hsent
      rfl
  | _ => rfl

/-- What begins in a step is a frame that was read, or a message that was submitted. -/
theorem Step.fits_of_new (h : Step fails answers s move t) {k socket : Nat} {peer : PeerId}
    {frame : Frame} (hnone : s.handlers[k]? = none)
    (hnew : t.handlers[k]? = some (.begin (.session socket peer frame))) :
    frame.Fits s.node.maxMessage := by
  have hlength : s.handlers.length ≤ k := List.getElem?_eq_none_iff.mp hnone
  have hadded : ∀ {errand : Errand},
      (s.handlers ++ [.begin errand])[k]? = some (.begin (.session socket peer frame)) →
        errand = .session socket peer frame := by
    intro errand hadded
    rw [List.getElem?_append_right hlength] at hadded
    have hmem := List.mem_singleton.mp (List.mem_of_getElem? hadded)
    exact (congrArg Handler.errand hmem).symm
  cases h with
  | take socket peer frame node hreads =>
      cases hreads with
      | intro now channel rest limiter hactive halive hready hchannel hread hlimit =>
          cases hadded hnew
          exact (Frame.eq_octets_append_of_read hread).2
  | submit message => cases hadded hnew
  | _ =>
      rw [List.getElem?_eq_none (by simpa using hlength)] at hnew
      cases hnew

/-- No session has read a frame that is longer than the node lets in. -/
def Limited (s : Station B) : Prop :=
  ∀ handler ∈ s.handlers, ∀ socket peer frame,
    handler.errand = .session socket peer frame → frame.Fits s.node.maxMessage

theorem Limited.step (hs : s.Limited) (h : Step fails answers s move t) : t.Limited := by
  intro after hafter socket peer frame herrand
  rw [h.maxMessage]
  obtain ⟨k, hk⟩ := List.getElem?_of_mem hafter
  cases h.past hk with
  | new errand hnone hbegins =>
      obtain rfl : errand = .session socket peer frame := herrand
      exact h.fits_of_new hnone hk
  | silent handler _ hhandler hsame htranscript haudience =>
      exact hs handler (List.mem_of_getElem? hhandler) socket peer frame (hsame ▸ herrand)
  | said handler _ said hhandler hsame htranscript haudience heffect =>
      exact hs handler (List.mem_of_getElem? hhandler) socket peer frame (hsame ▸ herrand)

theorem limited_of_reaches {node : Node B.State} {w : Watcher}
    (h : Reaches fails answers (idle node w) s) :
    s.Limited ∧ s.node.maxMessage = node.maxMessage := by
  induction h with
  | refl => exact ⟨by simp [Limited, idle], rfl⟩
  | tail _ hstep ih =>
      obtain ⟨hlimited, hsame⟩ := ih
      obtain ⟨move, hstep⟩ := hstep
      exact ⟨hlimited.step hstep, hstep.maxMessage.trans hsame⟩

/-- A message that has passed and is longer than the bound was submitted. -/
theorem Passed.oversized {message : Message} (h : s.Passed answers message)
    (hcoherent : s.Coherent fails answers) (hlimited : s.Limited)
    (hlong : s.node.maxMessage < message.encode.length) :
    s.Oversized s.node.maxMessage message.encode := by
  obtain ⟨handler, hhandler, d, hd, rfl, -⟩ := h
  have hcarries := (hcoherent handler hhandler).carries hd
  cases herrand : handler.errand with
  | submission message =>
      rw [herrand] at hcarries
      obtain rfl : message = d.message := hcarries
      exact ⟨hlong, handler, hhandler, _, herrand, rfl⟩
  | session socket peer frame =>
      rw [herrand] at hcarries
      have hfits := hlimited handler hhandler socket peer frame herrand
      cases frame with
      | data body =>
          -- a session reads the message with the rest of a delivery that is within the bound
          have hprefix := (Message.decode_eq_ok_iff.mp hcarries).length_le
          have hbound := hfits.2.1
          omega
      | inv outpoints => exact hcarries.elim
      | getData outpoint => exact hcarries.elim

/-- What is delivered is a whole message that has passed. -/
theorem Clean.delivered (hs : s.Clean fails answers) (htraced : s.Traced) {x : Sending}
    (hx : x ∈ s.sent) {body : Bytes} (hframe : x.frame = .data body) :
    ∃ message, Message.decode body = .ok message ∧ message.encode = body ∧
      s.Passed answers message := by
  obtain ⟨-, -, -, -, -, -, -, message, hdecode, -, hencode, hpassed⟩ :=
    hs.requested htraced hx hframe
  exact ⟨message, hdecode, hencode, hpassed⟩

/-- A node with a store that is empty at first delivers messages that decode. A node with the same
settings reads each delivery whole, except exactly where the message was submitted to its sender and
is longer than the settings let in: then it refuses the length. -/
theorem delivered_read_iff {settings : Settings} {watcher : WatcherSettings} {world : B.State}
    {node : Node B.State} (hnode : settings.start? world = some node)
    (hempty : ∀ o, (B.perform (.has o) world).1 = .ok false)
    (h : Reaches fails answers (idle node (Watcher.start watcher)) s) {x : Sending}
    (hx : x ∈ s.sent) {body : Bytes} (hframe : x.frame = .data body) :
    (∃ message, Message.decode body = .ok message ∧ message.encode = body) ∧
      x.frame.serialize = .ok x.frame.octets ∧
      ∀ rest,
        (Frame.read settings.network.maxMessageSize.toNat (x.frame.octets ++ rest) =
            .complete x.frame rest ↔
          ¬ s.Oversized settings.network.maxMessageSize.toNat body) ∧
        (Frame.read settings.network.maxMessageSize.toNat (x.frame.octets ++ rest) =
            .refused (.invalidDataLength body.length settings.network.maxMessageSize.toNat) ↔
          s.Oversized settings.network.maxMessageSize.toNat body) := by
  have hbound : node.maxMessage = settings.network.maxMessageSize.toNat := by
    obtain ⟨lifecycle, -, rfl⟩ := Option.map_eq_some_iff.mp hnode
    rfl
  obtain ⟨hclean, -, htraced⟩ :=
    clean_of_reaches hnode (entries_of_start? hnode hempty) rfl h
  obtain ⟨message, hdecode, rfl, hpassed⟩ := hclean.delivered htraced hx hframe
  obtain ⟨hlimited, hsame⟩ := limited_of_reaches h
  have hoversized : settings.network.maxMessageSize.toNat < message.encode.length ↔
      s.Oversized settings.network.maxMessageSize.toNat message.encode := by
    rw [← hbound, ← hsame]
    exact ⟨hpassed.oversized hclean.coherent hlimited, And.left⟩
  rw [hframe]
  refine ⟨⟨message, hdecode, rfl⟩, message.fits_encode.serialize, fun rest => ?_⟩
  rw [← hoversized, ← Nat.not_le, not_not]
  exact Frame.read_data_iff message.fits_encode rest

/-- Settings of a node that keeps its store in memory. -/
def sampleSettings (maxPeers maxMessageSize : UInt64) : Settings :=
  { Settings.defaults "" with
    network := { (Settings.defaults "").network with maxPeers, maxMessageSize }
    storage := ⟨"memory", "outpoints"⟩ }

theorem delivered_read_iff_sample :
    (sampleSettings 2 65536).fault? = none ∧
      (⟨1, .data sampleMessage.encode, .reply 1⟩ : Sending) ∈ relayed.sent ∧
      Frame.read 65536 ((Frame.data sampleMessage.encode).octets ++ [3]) =
        .complete (.data sampleMessage.encode) [3] := by
  have hstart : (sampleSettings 2 65536).start? sampleNode.world = some sampleNode := rfl
  have hreaches : Reaches (fun _ => True) (fun _ _ => True) sample relayed :=
    reaches_acts (fun _ => trivial) (sampleMeeting ++ sampleRelay ++ sampleReturn)
  have hsent : (⟨1, .data sampleMessage.encode, .reply 1⟩ : Sending) ∈ relayed.sent := by
    decide +kernel
  obtain ⟨-, -, hread⟩ := delivered_read_iff hstart (fun _ => rfl) hreaches hsent rfl
  have hshort : ¬ relayed.Oversized 65536 sampleMessage.encode := fun h =>
    absurd h.1 (by simp [Message.encodedLength, Message.headerLength, sampleMessage])
  exact ⟨by decide, hsent, (hread [3]).1.mpr hshort⟩

/-- A message of two octets, signed by the generator's key. -/
def note : Message where
  outpoint := sampleOutpoint
  signature := ⟨Bytes.ofNat 32 0x5396c9fd568de0e695224d0c55748bec377e80e5531e58c6e6a773f4518f3476 ++
    Bytes.ofNat 32 0xc15548590b59ef1d4120d9502f0d38409dc521689a28efd476df527598496a1d, by simp⟩
  payload := [103, 109]
  length_payload_le := by decide

/-- A node that lets in messages without a body only. -/
def narrowNode : Node MemoryStore.backend.State :=
  { sampleNode with
    maxMessage := 102
    lifecycle := ⟨64, false, false, 1, [], .empty, [], []⟩ }

/-- A message is submitted at the node and requested by a peer. -/
def noted : Station MemoryStore.backend :=
  (idle narrowNode (Watcher.start ⟨6, true⟩)).acts sampleChain
    ([.connect .listen, .connect (.accept "first"), .receive 0 Handshake.greeting, .greet 0,
      .submit note] ++ List.replicate 11 (.work 0) ++
      [.receive 0 (Frame.Kind.getData.tag :: sampleOutpoint.toBytes), .take 0 ⟨1⟩, .work 1,
        .work 1])

theorem noted_refused :
    (sampleSettings 64 102).fault? = none ∧
      (sampleSettings 64 102).start? sampleNode.world = some narrowNode ∧
      (∀ o, (MemoryStore.backend.perform (.has o) sampleNode.world).1 = .ok false) ∧
      Reaches (fun _ => False) (fun _ _ => True) (idle narrowNode (Watcher.start ⟨6, true⟩)) noted ∧
      (⟨0, .data note.encode, .reply 1⟩ : Sending) ∈ noted.sent ∧
      Frame.read 102 (Frame.data note.encode).octets = .refused (.invalidDataLength 104 102) :=
  ⟨by decide, rfl, fun _ => rfl, reaches_acts (fun _ => trivial) _, by decide +kernel,
    by decide +kernel⟩

end Station

end ChatRelay
