import ChatRelay.Proofs.Station.Spread

/-!
# What goes in and out at a node

An undisturbed step sends one frame, or takes one off an inbox, or adds to an inbox what arrives, or
does nothing of this. A stream is the greeting and then the frames that were sent.
-/

namespace ChatRelay

/-- The frame of a session on a socket. -/
def Errand.frameOn (socket : Nat) : Errand → Option Frame
  | .session k _ frame => if k = socket then some frame else none
  | .submission _ => none

namespace Station

variable {B : OutpointStore} {fails : StoreCall → Prop}
  {answers : (call : LedgerCall) → call.Answer → Prop} {s t : Station B} {move : Move}

/-- The frames that were taken off a socket, oldest first. -/
def taken (s : Station B) (socket : Nat) : List Frame :=
  s.handlers.filterMap fun handler => handler.errand.frameOn socket

/-- What has arrived on a socket and has not been read. -/
def inbox (s : Station B) (socket : Nat) : Bytes :=
  s.node.channels[socket]?.elim [] Channel.inbox

/-- All that was sent on a socket. -/
def stream (s : Station B) (socket : Nat) : Bytes :=
  s.node.channels[socket]?.elim [] fun channel => channel.outbox.reverse.flatten

theorem mem_taken {socket : Nat} {frame : Frame} : frame ∈ s.taken socket ↔
    ∃ handler ∈ s.handlers, ∃ peer, handler.errand = .session socket peer frame := by
  rw [taken, List.mem_filterMap]
  refine exists_congr fun handler => and_congr_right fun _ => ?_
  cases handler.errand with
  | submission message => simp [Errand.frameOn]
  | session k peer taken =>
      constructor
      · intro h
        simp only [Errand.frameOn] at h
        split at h
        next heq =>
          obtain rfl := Option.some.inj h
          exact ⟨peer, by rw [heq]⟩
        next => cases h
      · rintro ⟨peer', heq⟩
        cases heq
        simp [Errand.frameOn]

/-- What a step changes at the sockets of a node when nothing arrives. -/
inductive Traffic (s t : Station B) : Prop
  | quiet (hframes : t.frames = s.frames) (htaken : t.taken = s.taken) (hinbox : t.inbox = s.inbox)
  | sends (socket : Nat) (frame : Frame)
      (hframes : t.frames = Function.update s.frames socket (s.frames socket ++ [frame]))
      (htaken : t.taken = s.taken) (hinbox : t.inbox = s.inbox)
  | takes (socket : Nat) (frame : Frame) (rest : Bytes)
      (hread : Frame.read s.node.maxMessage (s.inbox socket) = .complete frame rest)
      (hframes : t.frames = s.frames)
      (htaken : t.taken = Function.update s.taken socket (s.taken socket ++ [frame]))
      (hinbox : t.inbox = Function.update s.inbox socket rest)

theorem taken_set {k : Nat} {handler after : Handler} (hhandler : s.handlers[k]? = some handler)
    (hset : t.handlers = s.handlers.set k after) (herrand : after.errand = handler.errand) :
    t.taken = s.taken := by
  obtain ⟨hlt, hhandler⟩ := List.getElem?_eq_some_iff.mp hhandler
  obtain ⟨before, rest, hhandlers, -, hsame⟩ : ∃ before rest,
      s.handlers = before ++ s.handlers[k] :: rest ∧ before.length = k ∧
        s.handlers.set k after = before ++ after :: rest := List.exists_of_set hlt
  rw [hhandler] at hhandlers
  funext socket
  rw [taken, taken, hset, hsame, hhandlers]
  simp [List.filterMap_cons, herrand]

theorem frames_send (x : Sending) (hsent : t.sent = s.sent ++ [x]) :
    t.frames = Function.update s.frames x.socket (s.frames x.socket ++ [x.frame]) := by
  funext socket
  by_cases hsocket : socket = x.socket
  · subst hsocket
    simp [frames, sentOn, hsent]
  · rw [Function.update_of_ne hsocket]
    simp [frames, sentOn, hsent, Ne.symm hsocket]

theorem inbox_mapChannel {node : Node B.State} {socket : Nat} {change : Channel → Channel}
    (hnode : t.node = node.mapChannel socket change) (hbefore : s.node = node)
    {bytes : Bytes} (hchange : ∀ c ∈ node.channels[socket]?, (change c).inbox = bytes)
    (hlt : socket < node.channels.length) : t.inbox = Function.update s.inbox socket bytes := by
  funext k
  by_cases hk : k = socket
  · subst hk
    rw [Function.update_self, inbox, hnode]
    simp only [Node.mapChannel, List.getElem?_modify, if_true]
    rw [List.getElem?_eq_getElem hlt]
    exact hchange _ (List.getElem?_eq_getElem hlt)
  · rw [Function.update_of_ne hk, inbox, inbox, hnode, hbefore]
    simp only [Node.mapChannel, List.getElem?_modify, if_neg (Ne.symm hk)]
    cases node.channels[k]? <;> rfl

/-- Sending leaves the inboxes as they are. -/
theorem inbox_send {node : Node B.State} {socket : Nat} {frame : Frame}
    (hsent : s.node.send socket frame = (true, node)) (hnode : t.node = node) :
    t.inbox = s.inbox := by
  obtain ⟨-, bytes, -, rfl⟩ := Node.sent_of_send hsent
  funext k
  rw [inbox, inbox, hnode]
  simp only [Node.mapChannel, List.getElem?_modify]
  cases s.node.channels[k]? with
  | none => rfl
  | some channel =>
      dsimp only [Option.map_some, Option.elim_some]
      split <;> rfl

theorem Step.traffic (h : Step fails answers s move t) (hmove : move ≠ .disturb)
    (hreceive : ∀ socket bytes, move ≠ .receive socket bytes) : s.Traffic t := by
  cases h with
  | receive socket bytes => exact absurd rfl (hreceive socket bytes)
  | take socket peer frame node hreads =>
      cases hreads with
      | intro now channel rest limiter hactive halive hready hchannel hread hlimit =>
          obtain ⟨hlt, -⟩ := List.getElem?_eq_some_iff.mp hchannel
          refine .takes socket frame rest (by rw [inbox, hchannel]; exact hread) rfl ?_
            (inbox_mapChannel rfl rfl (fun _ _ => rfl) hlt)
          funext k
          by_cases hk : k = socket
          · subst hk
            simp [taken, Handler.begin, Errand.frameOn]
          · rw [Function.update_of_ne hk]
            simp [taken, Handler.begin, Errand.frameOn, Ne.symm hk]
  | submit message =>
      refine .quiet rfl ?_ rfl
      funext k
      simp [taken, Handler.begin, Errand.frameOn]
  | store k handler call next answer world hhandler hstage hserved =>
      exact .quiet rfl (taken_set hhandler rfl rfl) rfl
  | decide k handler message next hhandler hstage =>
      exact .quiet rfl (taken_set hhandler rfl rfl) rfl
  | proceed k handler run after exchanges next slots world serve hserve hhandler hstage hstep =>
      exact .quiet rfl (taken_set hhandler rfl rfl) rfl
  | decided k handler run exchanges next result hhandler hstage hphase =>
      exact .quiet rfl (taken_set hhandler rfl rfl) rfl
  | reply k handler frame next socket node hhandler hstage hsocket hsent =>
      exact .sends socket frame (frames_send ⟨socket, frame, .reply k⟩ rfl)
        (taken_set hhandler rfl rfl) (inbox_send hsent rfl)
  | announce k handler source outpoint next hhandler hstage =>
      exact .quiet rfl (taken_set hhandler rfl rfl) rfl
  | dispatch j dispatch node hdispatch hfate hsent =>
      exact .sends _ _ (frames_send ⟨_, _, .dispatch j⟩ rfl) rfl (inbox_send hsent rfl)
  | _ => exact absurd rfl hmove

/-- What arrives on a socket is added to its inbox. -/
theorem Step.received {socket : Nat} {bytes : Bytes}
    (h : Step fails answers s (.receive socket bytes) t) (hlt : socket < s.node.channels.length) :
    t.frames = s.frames ∧ t.taken = s.taken ∧
      t.inbox = Function.update s.inbox socket (s.inbox socket ++ bytes) := by
  cases h
  refine ⟨rfl, rfl, inbox_mapChannel rfl rfl (fun c hc => ?_) hlt⟩
  rw [inbox, hc]
  rfl

/-- A handler is begun to submit a message, or for a frame that is taken off an inbox. -/
theorem Step.begun (h : Step fails answers s move t) {k : Nat} {errand : Errand}
    (hnone : s.handlers[k]? = none) (hnew : t.handlers[k]? = some (.begin errand)) :
    (∃ message, move = .submit message ∧ errand = .submission message) ∨
      ∃ socket peer frame rest, move = .work ∧ errand = .session socket peer frame ∧
        s.node.lifecycle.Active socket peer ∧
        Frame.read s.node.maxMessage (s.inbox socket) = .complete frame rest := by
  have hge := List.getElem?_eq_none_iff.mp hnone
  obtain ⟨hlt, -⟩ := List.getElem?_eq_some_iff.mp hnew
  have hbegun : ∀ begun, (s.handlers ++ [Handler.begin begun])[k]? = some (.begin errand) →
      errand = begun := by
    intro begun hbegun
    rw [List.getElem?_append_right hge] at hbegun
    exact congrArg Handler.errand (List.mem_singleton.mp (List.mem_of_getElem? hbegun))
  cases h with
  | take socket peer frame node hreads =>
      cases hreads with
      | intro now channel rest limiter hactive halive hready hchannel hread hlimit =>
          refine .inr ⟨socket, peer, frame, rest, rfl, hbegun _ hnew, hactive, ?_⟩
          rw [inbox, hchannel]
          exact hread
  | submit message => exact .inl ⟨message, rfl, hbegun _ hnew⟩
  | _ =>
      simp only [List.length_set] at hlt
      omega

/-! ## Streams -/

/-- What was sent could be written. -/
theorem Posted.serialized (hs : s.Posted) {socket : Nat} {frame : Frame}
    (hframe : frame ∈ s.frames socket) : ∃ bytes, frame.serialize = .ok bytes := by
  obtain ⟨x, hx, rfl, rfl⟩ := mem_frames.mp hframe
  obtain ⟨channel, hchannel⟩ : ∃ channel, s.node.channels[x.socket]? = some channel :=
    ⟨_, List.getElem?_eq_getElem (hs.within x hx)⟩
  have houtbox := hs.outbox x.socket channel.outbox (by simp [hchannel])
  have hmem : x.frame.serialize ∈ channel.outbox.reverse.map Except.ok := by
    rw [houtbox]
    refine List.mem_cons_of_mem _ (List.mem_map.mpr ⟨x, ?_, rfl⟩)
    simp [sentOn, hx]
  obtain ⟨bytes, -, hbytes⟩ := List.mem_map.mp hmem
  exact ⟨bytes, hbytes.symm⟩

/-- A stream is the greeting and then the frames that were sent. -/
theorem Posted.stream (hs : s.Posted) {socket : Nat} (hlt : socket < s.node.channels.length) :
    s.stream socket = Handshake.greeting ++ (s.frames socket).flatMap Frame.octets := by
  have hchannel := List.getElem?_eq_getElem hlt
  have houtbox := hs.outbox socket _ (by rw [List.getElem?_map, hchannel]; rfl)
  have hwritten : s.node.channels[socket].outbox.reverse =
      Handshake.greeting :: (s.frames socket).map Frame.octets := by
    have hread := congrArg (List.map fun written : Except WireError Bytes =>
      written.toOption.getD []) houtbox
    simpa [frames, Function.comp_def, Frame.octets, Except.toOption] using hread
  rw [Station.stream, hchannel, Option.elim_some, hwritten]
  simp [List.flatMap]

end Station

end ChatRelay
