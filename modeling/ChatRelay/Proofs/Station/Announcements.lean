import ChatRelay.Proofs.Station.Acts
import ChatRelay.Proofs.Station.Sendings

/-!
# Announcements are the admissions that were cached

A handler announces an outpoint once, after it had its message admitted and cached, and calls on
every peer that is registered then, apart from its own. Each call is sent at most once, and a peer
for whom it fails is disconnected. Other messages are announced to nobody and leave the store alone.
-/

namespace ChatRelay

variable {B : OutpointStore} {fails : StoreCall → Prop}
  {answers : (call : LedgerCall) → call.Answer → Prop}

/-! ## The calls of a handler -/

/-- What is said on an errand is no announcement, or it is the last that is said. -/
theorem Errand.Begins.announces {errand : Errand}
    {transcript : List (Answered SessionRequest.Answer)} (h : errand.Begins transcript) :
    (∀ said ∈ transcript, ∀ source o, said.question ≠ .announce source o) ∨
      ∃ before o, transcript = before ++ [⟨.announce errand.source o, ()⟩] ∧
        ∀ said ∈ before, ∀ source o, said.question ≠ .announce source o := by
  cases h with
  | requesting hquestion =>
      refine .inl fun said hsaid source o => ?_
      obtain ⟨o', -, hq | hq⟩ := hquestion said hsaid
      · simp [hq]
      · simp [hq]
  | announced hcarries houtpoint => exact .inr ⟨[_, _], _, rfl, by simp⟩
  | _ => exact .inl (by simp)

namespace Handler

/-- The calls for something that was said. -/
def callsFor (handler : Handler) : SessionRequest → List Announcement
  | .announce source outpoint =>
    (handler.audience.filter fun entry => some entry.1 ≠ source).map
      fun entry => ⟨entry.1, entry.2, outpoint⟩
  | _ => []

/-- The calls of a handler so far. -/
def calls (handler : Handler) : List Announcement :=
  handler.transcript.flatMap fun said => handler.callsFor said.question

/-- Whether a handler had a message admitted and cached. -/
def Caches (handler : Handler) (message : Message) : Prop :=
  (∃ d ∈ handler.decisions, d.message = message ∧ ∃ admission, d.result = .ok admission) ∧
    ⟨.store (.putPayload message.outpoint message.encode), .ok true⟩ ∈ handler.transcript

variable {handler : Handler}

theorem callsFor_eq_nil (handler : Handler) {said : List (Answered SessionRequest.Answer)}
    (h : ∀ x ∈ said, ∀ source o, x.question ≠ .announce source o) :
    said.flatMap (fun x => handler.callsFor x.question) = [] := by
  refine List.flatMap_eq_nil_iff.mpr fun x hx => ?_
  unfold callsFor
  split
  next source o hquestion => exact absurd hquestion (h x hx source o)
  next => rfl

theorem mem_calls {call : Announcement} : call ∈ handler.calls ↔
    ∃ source, ⟨.announce source call.outpoint, ()⟩ ∈ handler.transcript ∧
      (call.peer, call.socket) ∈ handler.audience ∧ some call.peer ≠ source := by
  simp only [calls, List.mem_flatMap]
  constructor
  · rintro ⟨⟨question, answer⟩, hsaid, hcall⟩
    unfold callsFor at hcall
    split at hcall
    next source o hquestion =>
      obtain rfl : question = _ := hquestion
      obtain ⟨entry, hentry, rfl⟩ := List.mem_map.mp hcall
      obtain ⟨haudience, hsource⟩ := List.mem_filter.mp hentry
      exact ⟨source, hsaid, haudience, of_decide_eq_true hsource⟩
    next => cases hcall
  · rintro ⟨source, hsaid, haudience, hsource⟩
    refine ⟨_, hsaid, List.mem_map.mpr ⟨_, List.mem_filter.mpr ⟨haudience, ?_⟩, rfl⟩⟩
    exact decide_eq_true hsource

namespace Coherent

variable (h : handler.Coherent fails answers)

include h

/-- Nothing was announced before an announcement. -/
theorem quiet {before : List (Answered SessionRequest.Answer)} {source : Option PeerId}
    {o : Outpoint} (htranscript : handler.transcript = before ++ [⟨.announce source o, ()⟩]) :
    ∀ said ∈ before, ∀ source o, said.question ≠ .announce source o := by
  rcases h.begins.announces with hnone | ⟨before', o', hlast, hbefore⟩
  · exact absurd rfl (hnone ⟨.announce source o, ()⟩ (by simp [htranscript]) source o)
  · obtain ⟨rfl, -⟩ := List.append_inj' (htranscript.symm.trans hlast) rfl
    exact hbefore

/-- Nobody of the audience is called twice. -/
theorem nodup_calls {α : Type} {view : PeerId × Nat → α}
    (haudience : (handler.audience.map view).Nodup) :
    (handler.calls.map fun call => view (call.peer, call.socket)).Nodup := by
  rcases h.begins.announces with hnone | ⟨before, o, hlast, hbefore⟩
  · rw [calls, callsFor_eq_nil _ hnone]
    exact List.nodup_nil
  · have hcalls : handler.calls = handler.callsFor (.announce handler.errand.source o) := by
      rw [calls, hlast, List.flatMap_append, callsFor_eq_nil _ hbefore]
      simp
    rw [hcalls, callsFor, List.map_map]
    exact haudience.sublist (List.filter_sublist.map _)

/-- A handler that is over has announced what it cached. -/
theorem announces_of_over (hover : handler.Over) {o : Outpoint} {b : Bytes}
    (hcached : ⟨.store (.putPayload o b), .ok true⟩ ∈ handler.transcript) :
    ⟨.announce handler.errand.source o, ()⟩ ∈ handler.transcript := by
  obtain ⟨ending, hending⟩ := hover
  have hstage := h.stage
  rw [hending] at hstage
  have hfulfils := Errand.fulfils_of_comes hstage
  generalize handler.errand = errand, handler.transcript = transcript at hcached hfulfils ⊢
  -- of all that is said to the end, only a relayed message is cached
  cases hfulfils with
  | requested hrequests =>
      obtain ⟨o', -, hq | hq⟩ := hrequests.question _ hcached
      · cases hq
      · cases hq
  | unserved => simp at hcached
  | served => simp at hcached
  | undecodable => cases hcached
  | relayed hcarries houtpoint hrelayed =>
      cases hrelayed with
      | rejected rejection => simp at hcached
      | uncached admission answer hanswer =>
          rcases List.mem_cons.mp hcached with heq | hcached
          · cases heq
          · cases List.mem_singleton.mp hcached
            exact absurd rfl hanswer
      | announced admission =>
          rcases List.mem_cons.mp hcached with heq | hcached
          · cases heq
          rcases List.mem_cons.mp hcached with heq | hcached
          · cases heq
            simp
          · cases List.mem_singleton.mp hcached

/-- About a rejected message nothing more is said. -/
theorem rejected {d : Decision} (hd : d ∈ handler.decisions) {rejection : Rejection}
    (hresult : d.result = .error rejection) :
    handler.transcript = [⟨.decide d.message, .error rejection⟩] := by
  have hsaid := (h.decided d.message (.error rejection)).mpr ⟨d, hd, rfl, hresult⟩
  have hbegins := h.begins
  generalize handler.errand = errand, handler.transcript = transcript at hbegins hsaid
  cases hbegins with
  | start => cases hsaid
  | requesting hquestion =>
      obtain ⟨o', -, hq | hq⟩ := hquestion _ hsaid
      · cases hq
      · cases hq
  | decided hcarries => rw [List.mem_singleton.mp hsaid]
  | _ => simp at hsaid

/-- About octets that are no message nothing is said. -/
theorem undecodable {socket : Nat} {peer : PeerId} {body : Bytes} {cause : Message.Error}
    (herrand : handler.errand = .session socket peer (.data body))
    (hdecode : Message.decode body = .error cause) :
    handler.Over ∧ handler.transcript = [] ∧ handler.decisions = [] := by
  have hroutine : handler.errand.routine = .done (.session (some (.undecodable cause))) := by
    rw [herrand]
    simp only [Errand.routine, Session.handle, Session.receiveMessage, hdecode]
    rfl
  have hstage := h.stage
  rw [hroutine] at hstage
  have hnothing : handler.Over ∧ handler.transcript = [] := by
    split at hstage
    next rest hrunning =>
      obtain ⟨htranscript, rfl⟩ := hstage.of_done
      exact ⟨⟨_, hrunning⟩, htranscript⟩
    next => cases hstage.1.of_done.2
  refine ⟨hnothing.1, hnothing.2, List.eq_nil_iff_forall_not_mem.mpr fun d hd => ?_⟩
  have hsaid := (h.decided d.message d.result).mpr ⟨d, hd, rfl, rfl⟩
  rw [hnothing.2] at hsaid
  cases hsaid

end Coherent

end Handler

/-! ## Dispatches -/

namespace Station

variable {s t : Station B} {move : Move}

/-- What handler `k` has called. -/
def calls (s : Station B) (k : Nat) : List Announcement :=
  (s.dispatches.filter (·.handler = k)).map (·.announcement)

/-- Replacing an element by one that looks the same does not show. -/
theorem map_filter_set {α β : Type} {keep : α → Bool} {view : α → β} {xs : List α} {j : Nat}
    {x y : α} (hx : xs[j]? = some x) (hkeep : keep y = keep x) (hview : view y = view x) :
    ((xs.set j y).filter keep).map view = (xs.filter keep).map view := by
  obtain ⟨hlt, hx⟩ := List.getElem?_eq_some_iff.mp hx
  obtain ⟨before, after, hxs, -, hset⟩ : ∃ before after, xs = before ++ xs[j] :: after ∧
      before.length = j ∧ xs.set j y = before ++ y :: after := List.exists_of_set hlt
  rw [hx] at hxs
  rw [hset, hxs]
  by_cases hkept : keep x
  · simp [hkeep, hkept, hview]
  · simp [hkeep, hkept]

/-- A step adds calls of a handler that announces something. -/
theorem Step.calls (h : Step fails answers s move t) (k : Nat) :
    t.calls k = s.calls k ∨ ∃ handler after source o, s.handlers[k]? = some handler ∧
      t.handlers[k]? = some after ∧
      after.transcript = handler.transcript ++ [⟨.announce source o, ()⟩] := by
  cases h with
  | dispatch j d node hdispatch hfate hsent => exact .inl (map_filter_set hdispatch rfl rfl)
  | undelivered j d hdispatch hfate => exact .inl (map_filter_set hdispatch rfl rfl)
  | announce j handler source o next hhandler hstage =>
      by_cases hj : j = k
      · subst hj
        obtain ⟨hlt, -⟩ := List.getElem?_eq_some_iff.mp hhandler
        exact .inr ⟨handler, _, source, o, hhandler, List.getElem?_set_self hlt, rfl⟩
      · refine .inl ?_
        simp [Station.calls, List.filter_append, List.filter_map, Function.comp_def, hj]
  | _ => exact .inl rfl

/-- Calls are accounted for: each handler has called what it announced, nobody of its audience
twice, and only failed calls are given up. -/
structure Accounted (s : Station B) : Prop where
  wired : s.node.lifecycle.Wired
  attributed : ∀ handler ∈ s.handlers, ∀ socket peer frame,
    handler.errand = .session socket peer frame → s.node.lifecycle.Settled socket ∧
      ∀ entry ∈ s.node.lifecycle.registry.entries, entry.2 = socket → entry.1 = peer
  within : ∀ d ∈ s.dispatches, d.handler < s.handlers.length
  calls : ∀ k handler, s.handlers[k]? = some handler → s.calls k = handler.calls
  peers : ∀ handler ∈ s.handlers, (handler.audience.map (·.1)).Nodup
  sockets : ∀ handler ∈ s.handlers, (handler.audience.map (·.2)).Nodup
  source : ∀ handler ∈ s.handlers, ∀ socket peer frame,
    handler.errand = .session socket peer frame →
      ∀ entry ∈ handler.audience, entry.2 = socket → entry.1 = peer
  failed : ∀ d ∈ s.dispatches, d.fate = .failed →
    d.announcement.peer ∈ s.node.lifecycle.departures.map (·.peer)

theorem accounted_idle {node : Node B.State} (h : node.Fresh) (w : Watcher) :
    (idle node w).Accounted :=
  ⟨h.wired, by simp [idle], by simp [idle], by simp [idle], by simp [idle], by simp [idle],
    by simp [idle], by simp [idle]⟩

/-- Where a dispatch comes from. A failed one begins a departure. -/
theorem Step.dispatched (h : Step fails answers s move t) {after : Dispatch}
    (hafter : after ∈ t.dispatches) :
    (∃ d ∈ s.dispatches, after.handler = d.handler ∧ after.announcement = d.announcement ∧
        (after.fate = .failed → d.fate = .failed ∨ move = .disturb ∧
          after.announcement.peer ∈ t.node.lifecycle.departures.map (·.peer))) ∨
      after.handler < t.handlers.length ∧ after.fate = .waiting := by
  have hsame : after ∈ s.dispatches → ∃ d ∈ s.dispatches, after.handler = d.handler ∧
      after.announcement = d.announcement ∧ (after.fate = .failed → d.fate = .failed ∨
        move = .disturb ∧ after.announcement.peer ∈ t.node.lifecycle.departures.map (·.peer)) :=
    fun hmem => ⟨after, hmem, rfl, rfl, .inl⟩
  cases h with
  | dispatch j d node hdispatch hfate hsent =>
      rcases List.mem_or_eq_of_mem_set hafter with hmem | rfl
      · exact .inl (hsame hmem)
      · exact .inl ⟨d, List.mem_of_getElem? hdispatch, rfl, rfl, by simp⟩
  | undelivered j d hdispatch hfate =>
      rcases List.mem_or_eq_of_mem_set hafter with hmem | rfl
      · exact .inl (hsame hmem)
      · exact .inl ⟨d, List.mem_of_getElem? hdispatch, rfl, rfl, fun _ => .inr ⟨rfl, by
          simp [Lifecycle.depart]⟩⟩
  | announce k handler source o next hhandler hstage =>
      rcases List.mem_append.mp hafter with hmem | hnew
      · exact .inl (hsame hmem)
      · obtain ⟨hlt, -⟩ := List.getElem?_eq_some_iff.mp hhandler
        obtain ⟨entry, -, rfl⟩ := List.mem_map.mp hnew
        exact .inr ⟨by simpa using hlt, rfl⟩
  | _ => exact .inl (hsame hafter)

theorem Step.length_handlers (h : Step fails answers s move t) :
    s.handlers.length ≤ t.handlers.length := by
  rcases h.handlers with hsame | ⟨errand, hbegin⟩ | ⟨k, handler, after, -, -, hset⟩
  · rw [hsame]
  · simp [hbegin]
  · simp [hset]

/-- Who is at the other end of a handler's socket. -/
theorem Accounted.attributed_step (hs : s.Accounted) (h : Step fails answers s move t)
    {after : Handler} (hafter : after ∈ t.handlers) {socket : Nat} {peer : PeerId} {frame : Frame}
    (herrand : after.errand = .session socket peer frame) : t.node.lifecycle.Settled socket ∧
      ∀ entry ∈ t.node.lifecycle.registry.entries, entry.2 = socket → entry.1 = peer := by
  obtain ⟨k, hk⟩ := List.getElem?_of_mem hafter
  have hbefore : s.node.lifecycle.Settled socket ∧
      ∀ entry ∈ s.node.lifecycle.registry.entries, entry.2 = socket → entry.1 = peer := by
    cases h.past hk with
    | new errand hnone hbegins =>
        obtain rfl : errand = .session socket peer frame := herrand
        obtain ⟨sock, hsock, hactive⟩ := hbegins
        refine ⟨⟨sock, hsock, by simp [hactive]⟩, ?_⟩
        rintro entry hentry rfl
        exact (hs.wired.active entry hentry peer ⟨sock, hsock, hactive⟩).symm
    | silent handler _ hhandler hsame htranscript haudience =>
        exact hs.attributed handler (List.mem_of_getElem? hhandler) socket peer frame
          (hsame ▸ herrand)
    | said handler _ said hhandler hsame htranscript haudience heffect =>
        exact hs.attributed handler (List.mem_of_getElem? hhandler) socket peer frame
          (hsame ▸ herrand)
  obtain ⟨hsettled, hpeer⟩ := hbefore
  -- whoever is registered later has a socket that is still greeting
  refine ⟨h.keeps.settled socket hsettled, ?_⟩
  rintro entry hentry rfl
  rcases h.keeps.entries entry hentry with hold | hunsettled
  · exact hpeer entry hold rfl
  · exact absurd hsettled hunsettled

/-- An audience is that of before, or those who are registered. -/
theorem Step.audience (h : Step fails answers s move t) {after : Handler}
    (hafter : after ∈ t.handlers) : after.audience = [] ∨
      (∃ handler ∈ s.handlers, after.errand = handler.errand ∧
        (after.audience = handler.audience ∨
          after.audience = s.node.lifecycle.registry.entries)) := by
  obtain ⟨k, hk⟩ := List.getElem?_of_mem hafter
  cases h.past hk with
  | new errand hnone hbegins => exact .inl rfl
  | silent handler _ hhandler herrand htranscript haudience =>
      exact .inr ⟨handler, List.mem_of_getElem? hhandler, herrand, .inl haudience⟩
  | said handler _ said hhandler herrand htranscript haudience heffect =>
      exact .inr ⟨handler, List.mem_of_getElem? hhandler, herrand, haudience⟩

/-- A handler has called for what it has announced. -/
theorem Accounted.calls_step (hs : s.Accounted) (hcoherent : t.Coherent fails answers)
    (h : Step fails answers s move t) {k : Nat} {after : Handler}
    (hafter : t.handlers[k]? = some after) : t.calls k = after.calls := by
  have hcalls := h.calls k
  cases h.past hafter with
  | new errand hnone hnew =>
      -- nobody has called for a handler that is not there
      have hnil : s.calls k = [] := by
        rw [Station.calls, List.map_eq_nil_iff, List.filter_eq_nil_iff]
        intro d hd heq
        exact absurd (List.getElem?_eq_none_iff.mp hnone)
          (Nat.not_le.mpr (of_decide_eq_true heq ▸ hs.within d hd))
      rcases hcalls with hsame | ⟨handler, -, source, o, hhandler, -⟩
      · exact hsame.trans hnil
      · cases hnone.symm.trans hhandler
  | silent handler _ hhandler herrand htranscript haudience =>
      rcases hcalls with hsame | ⟨handler', after', source, o, hhandler', hafter', hmore⟩
      · rw [hsame, hs.calls k handler hhandler]
        simp only [Handler.calls, Handler.callsFor, htranscript, haudience]
      · obtain rfl := Option.some.inj (hhandler.symm.trans hhandler')
        obtain rfl := Option.some.inj (hafter.symm.trans hafter')
        simp [htranscript] at hmore
  | said handler _ said hhandler herrand htranscript haudience heffect =>
      have hafterwards := hcoherent after (List.mem_of_getElem? hafter)
      by_cases hsaid : ∀ source o, said.question ≠ .announce source o
      · -- whoever goes on to say something else has announced nothing
        have hquiet : ∀ x ∈ after.transcript, ∀ source o, x.question ≠ .announce source o := by
          rcases hafterwards.begins.announces with hnone | ⟨before, o, hlast, -⟩
          · exact hnone
          · obtain ⟨-, hlast⟩ := List.append_inj' (htranscript.symm.trans hlast) rfl
            obtain rfl := List.singleton_inj.mp hlast
            exact absurd rfl (hsaid _ o)
        have hbefore : ∀ x ∈ handler.transcript, ∀ source o, x.question ≠ .announce source o :=
          fun x hx => hquiet x (by simp [htranscript, hx])
        rcases hcalls with hsame | ⟨handler', after', source, o, hhandler', hafter', hmore⟩
        · rw [hsame, hs.calls k handler hhandler, Handler.calls, Handler.callsFor_eq_nil _ hbefore,
            Handler.calls, Handler.callsFor_eq_nil _ hquiet]
        · obtain rfl := Option.some.inj (hafter.symm.trans hafter')
          exact absurd rfl (hquiet ⟨.announce source o, ()⟩ (by simp [hmore]) source o)
      · cases heffect with
        | announce source o haudience' hdispatches =>
            have hnil := Handler.callsFor_eq_nil handler (hafterwards.quiet htranscript)
            have hnew := Handler.callsFor_eq_nil after (hafterwards.quiet htranscript)
            have hold : s.calls k = [] := (hs.calls k handler hhandler).trans hnil
            rw [Station.calls, hdispatches, List.filter_append, List.map_append,
              ← Station.calls, hold, Handler.calls, htranscript, List.flatMap_append, hnew]
            simp [Handler.callsFor, List.filter_map, Function.comp_def]
        | _ => exact absurd (by simp) hsaid

theorem Accounted.step (hs : s.Accounted) (hcoherent : t.Coherent fails answers)
    (h : Step fails answers s move t) : t.Accounted where
  wired := h.keeps.wired hs.wired
  attributed _ hafter _ _ _ herrand := hs.attributed_step h hafter herrand
  within d hd := by
    rcases h.dispatched hd with ⟨before, hbefore, hhandler, -⟩ | ⟨hlt, -⟩
    · rw [hhandler]
      exact Nat.lt_of_lt_of_le (hs.within before hbefore) h.length_handlers
    · exact hlt
  calls _ _ hafter := hs.calls_step hcoherent h hafter
  peers after hafter := by
    rcases h.audience hafter with hnil | ⟨handler, hhandler, -, hsame | hregistered⟩
    · simp [hnil]
    · rw [hsame]
      exact hs.peers handler hhandler
    · rw [hregistered]
      exact hs.wired.keys
  sockets after hafter := by
    rcases h.audience hafter with hnil | ⟨handler, hhandler, -, hsame | hregistered⟩
    · simp [hnil]
    · rw [hsame]
      exact hs.sockets handler hhandler
    · rw [hregistered]
      exact hs.wired.sockets
  source after hafter socket peer frame herrand := by
    rcases h.audience hafter with hnil | ⟨handler, hhandler, hsame, haudience | hregistered⟩
    · simp [hnil]
    · rw [haudience]
      exact hs.source handler hhandler socket peer frame (hsame ▸ herrand)
    · rw [hregistered]
      exact (hs.attributed handler hhandler socket peer frame (hsame ▸ herrand)).2
  failed d hd hfate := by
    rcases h.dispatched hd with ⟨before, hbefore, -, hannouncement, hfailed⟩ | ⟨-, hwaiting⟩
    · rcases hfailed hfate with hold | ⟨-, hdeparted⟩
      · rw [hannouncement]
        exact h.keeps.departures.subset (hs.failed before hbefore hold)
      · exact hdeparted
    · cases hfate.symm.trans hwaiting

/-! ## What a run announces -/

/-- What a node has announced is what it has admitted and cached. -/
structure AnnouncesAdmissions (s : Station B) : Prop where
  /-- A socket carries the greeting and then the frames that were sent on it. -/
  outbox : ∀ (socket : Nat) (channel : Channel), s.node.channels[socket]? = some channel →
    channel.outbox.reverse.map .ok = (.ok Handshake.greeting : Except WireError Bytes) ::
      (s.sentOn socket).map (·.frame.serialize)
  /-- An announcement that was sent is the one sending of its dispatch. It names one outpoint, whose
  message the handler had admitted and cached, and goes to a peer that was registered then, not to
  where the message came from. -/
  announced : ∀ x ∈ s.sent, ∀ outpoints, x.frame = .inv outpoints →
    ∃ j d handler message, x.cause = .dispatch j ∧ s.dispatches[j]? = some d ∧
      s.handlers[d.handler]? = some handler ∧ handler.Caches message ∧
      outpoints = [message.outpoint] ∧ x.socket = d.announcement.socket ∧
      s.sent.filter (·.cause = .dispatch j) = [x] ∧
      (d.announcement.peer, x.socket) ∈ handler.audience ∧
      some d.announcement.peer ≠ handler.errand.source ∧ handler.errand.socket? ≠ some x.socket
  /-- Once a handler that cached a message is done, everyone who was registered when it announced
  the message has exactly one dispatch, apart from the source. It is waiting, or has been sent
  once, or has failed, and then the peer is disconnected. -/
  fanned : ∀ k handler message, s.handlers[k]? = some handler → handler.Caches message →
    handler.Over → ∀ entry ∈ handler.audience, some entry.1 ≠ handler.errand.source →
      ∃ j d, s.dispatches[j]? = some d ∧ d.handler = k ∧
        d.announcement = ⟨entry.1, entry.2, message.outpoint⟩ ∧
        (∀ i other, s.dispatches[i]? = some other → other.handler = k →
          other.announcement.peer = entry.1 → i = j) ∧
        s.sent.filter (·.cause = .dispatch j) = d.sendings j ∧
        (d.fate = .failed → entry.1 ∈ s.node.lifecycle.departures.map (·.peer))
  /-- A rejected message is announced to nobody, and neither its decision nor its handler changes
  the store. -/
  rejected : ∀ k handler, s.handlers[k]? = some handler → ∀ decision ∈ handler.decisions,
    ∀ rejection, decision.result = .error rejection → (∀ d ∈ s.dispatches, d.handler ≠ k) ∧
      handler.transcript = [⟨.decide decision.message, .error rejection⟩] ∧
      ∀ e ∈ decision.exchanges, e.after = e.before
  /-- A message whose outpoint is recorded when it is looked up or to be recorded is rejected. -/
  duplicate : ∀ handler ∈ s.handlers, ∀ decision ∈ handler.decisions, ∀ e ∈ decision.exchanges,
    ∀ call, e.said.question = .store call → e.before.recorded decision.message.outpoint →
      ∃ rejection, decision.result = .error rejection
  /-- About octets that are no message nothing is asked or announced. -/
  undecodable : ∀ k handler socket peer body cause, s.handlers[k]? = some handler →
    handler.errand = .session socket peer (.data body) → Message.decode body = .error cause →
    handler.Over ∧ handler.transcript = [] ∧ handler.decisions = [] ∧
      ∀ d ∈ s.dispatches, d.handler ≠ k

variable (hs : s.Accounted) (hcoherent : s.Coherent fails answers)

include hs

theorem Accounted.exists_handler {d : Dispatch} (hd : d ∈ s.dispatches) :
    ∃ handler, s.handlers[d.handler]? = some handler ∧ d.announcement ∈ handler.calls := by
  have hlt := hs.within d hd
  refine ⟨s.handlers[d.handler], List.getElem?_eq_getElem hlt, ?_⟩
  rw [← hs.calls d.handler _ (List.getElem?_eq_getElem hlt)]
  exact List.mem_map_of_mem (List.mem_filter.mpr ⟨hd, by simp⟩)

include hcoherent

/-- A call is for an outpoint whose message was cached, and not to the source. -/
theorem Accounted.cached_of_call {handler : Handler} (hhandler : handler ∈ s.handlers)
    {call : Announcement} (hcall : call ∈ handler.calls) :
    (∃ message, handler.Caches message ∧ message.outpoint = call.outpoint) ∧
      (call.peer, call.socket) ∈ handler.audience ∧ some call.peer ≠ handler.errand.source ∧
      handler.errand.socket? ≠ some call.socket := by
  obtain ⟨source, hsaid, haudience, hsource⟩ := Handler.mem_calls.mp hcall
  obtain ⟨rfl, b, hcached⟩ := (hcoherent handler hhandler).announced hsaid
  obtain ⟨d, hd, admission, hresult, houtpoint, rfl⟩ := (hcoherent handler hhandler).cached hcached
  refine ⟨⟨d.message, ⟨⟨d, hd, rfl, admission, hresult⟩, houtpoint ▸ hcached⟩, houtpoint⟩,
    haudience, hsource, fun hsocket => ?_⟩
  cases herrand : handler.errand with
  | submission message => simp [herrand, Errand.socket?] at hsocket
  | session socket peer frame =>
      have heq : socket = call.socket := by simpa [herrand, Errand.socket?] using hsocket
      have hpeer : call.peer = peer :=
        hs.source handler hhandler socket peer frame herrand _ haudience heq.symm
      exact hsource (by simp [herrand, Errand.source, hpeer])

omit hs in
/-- Every announcement that was sent is a dispatch's. -/
theorem Traced.dispatch_of_inv (htraced : s.Traced) {x : Sending} (hx : x ∈ s.sent)
    {outpoints : List Outpoint} (hframe : x.frame = .inv outpoints) :
    ∃ j, x.cause = .dispatch j := by
  cases hcause : x.cause with
  | dispatch j => exact ⟨j, rfl⟩
  | reply k =>
      obtain ⟨handler, hhandler, -, hsaid⟩ := htraced.reply x hx k hcause
      rcases (hcoherent handler (List.mem_of_getElem? hhandler)).replied hsaid with
        ⟨socket, peer, announced, -, o, -, hreply⟩ | ⟨socket, peer, o, b, -, hreply, -⟩
      · cases hframe.symm.trans hreply
      · cases hframe.symm.trans hreply

omit hcoherent in
/-- A handler has no two dispatches for one of its audience. -/
theorem Accounted.unique_dispatch {k : Nat} {handler : Handler}
    (hhandler : s.handlers[k]? = some handler) (hgood : handler.Coherent fails answers) {α : Type}
    {view : PeerId × Nat → α} (haudience : (handler.audience.map view).Nodup) {i j : Nat}
    {d other : Dispatch} (hd : s.dispatches[j]? = some d) (hother : s.dispatches[i]? = some other)
    (hk : d.handler = k) (hk' : other.handler = k)
    (hview : view (other.announcement.peer, other.announcement.socket) =
      view (d.announcement.peer, d.announcement.socket)) : i = j := by
  -- the dispatches of a handler are its calls, in their order
  have hnodup := hgood.nodup_calls haudience
  rw [← hs.calls k handler hhandler, Station.calls, List.map_map, List.nodup_iff_pairwise_ne,
    List.pairwise_map, List.pairwise_filter, List.pairwise_iff_getElem] at hnodup
  obtain ⟨hlt, hd⟩ := List.getElem?_eq_some_iff.mp hd
  obtain ⟨hlt', hother⟩ := List.getElem?_eq_some_iff.mp hother
  rcases Nat.lt_trichotomy i j with hij | hij | hij
  · exact absurd (by simp [hd, hother, hview])
      (hnodup i j hlt' hlt hij (by simp [hother, hk']) (by simp [hd, hk]))
  · exact hij
  · exact absurd (by simp [hd, hother, hview])
      (hnodup j i hlt hlt' hij (by simp [hd, hk]) (by simp [hother, hk']))

omit hcoherent in
/-- A handler that has said no announcement has no dispatch. -/
theorem Accounted.no_dispatch {k : Nat} {handler : Handler}
    (hhandler : s.handlers[k]? = some handler)
    (hquiet : ∀ said ∈ handler.transcript, ∀ source o, said.question ≠ .announce source o)
    {d : Dispatch} (hd : d ∈ s.dispatches) : d.handler ≠ k := by
  rintro rfl
  obtain ⟨handler', hhandler', hcall⟩ := hs.exists_handler hd
  obtain rfl := Option.some.inj (hhandler.symm.trans hhandler')
  rw [Handler.calls, Handler.callsFor_eq_nil _ hquiet] at hcall
  cases hcall

theorem Accounted.announcesAdmissions (hposted : s.Posted) (htraced : s.Traced) :
    s.AnnouncesAdmissions where
  outbox socket channel hchannel := hposted.outbox socket channel.outbox (by simp [hchannel])
  announced x hx outpoints hframe := by
    obtain ⟨j, hcause⟩ := htraced.dispatch_of_inv hcoherent hx hframe
    obtain ⟨d, hd, hfate, rfl⟩ := htraced.announcement hx hcause
    obtain ⟨handler, hhandler, hcall⟩ := hs.exists_handler (List.mem_of_getElem? hd)
    obtain ⟨⟨message, hcaches, houtpoint⟩, haudience, hpeer, hsocket⟩ :=
      hs.cached_of_call hcoherent (List.mem_of_getElem? hhandler) hcall
    refine ⟨j, d, handler, message, rfl, hd, hhandler, hcaches, ?_, rfl, ?_, haudience, hpeer,
      hsocket⟩
    · rw [houtpoint]
      exact (Frame.inv.inj hframe).symm
    · rw [htraced.dispatched, hd, Option.elim_some, Dispatch.sendings, if_pos hfate]
  fanned k handler message hhandler hcaches hover entry hentry hsource := by
    have hgood := hcoherent handler (List.mem_of_getElem? hhandler)
    -- the handler is over, so it has called for everyone in its audience
    have hsaid := hgood.announces_of_over hover hcaches.2
    have hcall : (⟨entry.1, entry.2, message.outpoint⟩ : Announcement) ∈ handler.calls :=
      Handler.mem_calls.mpr ⟨_, hsaid, hentry, hsource⟩
    rw [← hs.calls k handler hhandler] at hcall
    obtain ⟨d, hd, hannouncement⟩ := List.mem_map.mp hcall
    obtain ⟨hd, hk⟩ := List.mem_filter.mp hd
    obtain ⟨j, hj⟩ := List.getElem?_of_mem hd
    refine ⟨j, d, hj, of_decide_eq_true hk, hannouncement, fun i other hi hother hpeer => ?_, ?_,
      fun hfailed => ?_⟩
    · exact hs.unique_dispatch hhandler hgood (hs.peers handler (List.mem_of_getElem? hhandler)) hj
        hi (of_decide_eq_true hk) hother (by simp [hpeer, hannouncement])
    · rw [htraced.dispatched, hj, Option.elim_some]
    · have hdeparted := hs.failed d hd hfailed
      rwa [hannouncement] at hdeparted
  rejected k handler hhandler decision hdecision rejection hresult := by
    have hgood := hcoherent handler (List.mem_of_getElem? hhandler)
    have htranscript := hgood.rejected hdecision hresult
    refine ⟨fun d hd => hs.no_dispatch hhandler (by simp [htranscript]) hd, htranscript,
      fun e he => ?_⟩
    have hafter := (hgood.decision decision hdecision).after_eq he
    simpa [hresult, Except.isOk, Except.toBool] using hafter
  duplicate handler hhandler decision hdecision e he call hcall hrecorded := by
    cases hresult : decision.result with
    | error rejection => exact ⟨rejection, rfl⟩
    | ok admission =>
        obtain ⟨-, -, hnew, -⟩ :=
          ((hcoherent handler hhandler).decision decision hdecision).eq_ok_iff.mp hresult
        exact absurd hrecorded (hnew e he call hcall)
  undecodable k handler socket peer body cause hhandler herrand hdecode := by
    have hgood := hcoherent handler (List.mem_of_getElem? hhandler)
    obtain ⟨hover, htranscript, hdecisions⟩ := hgood.undecodable herrand hdecode
    exact ⟨hover, htranscript, hdecisions,
      fun d hd => hs.no_dispatch hhandler (by simp [htranscript]) hd⟩

omit hs hcoherent

/-- What a run of a node keeps about what it announces. -/
theorem accounted_of_reaches {permits maxMessage : Nat} {world : B.State} {node : Node B.State}
    {w : Watcher} (hnode : Node.start? permits maxMessage world = some node)
    (h : Reaches fails answers (idle node w) s) :
    s.Accounted ∧ s.Coherent fails answers ∧ s.Posted ∧ s.Traced := by
  induction h with
  | refl =>
      have hfresh := Node.fresh_of_start? hnode
      exact ⟨accounted_idle hfresh w, by simp [Coherent, idle], posted_idle hfresh w,
        traced_idle node w⟩
  | tail _ hstep ih =>
      obtain ⟨haccounted, hcoherent, hposted, htraced⟩ := ih
      obtain ⟨move, hstep⟩ := hstep
      have hafter := hcoherent.step hstep
      exact ⟨haccounted.step hafter hstep, hafter, hposted.step hstep, htraced.step hstep⟩

/-- Whoever comes and goes, whatever arrives and whatever fails, a node announces exactly the
messages that it has admitted and cached, once to each other peer and never to the source. -/
theorem announces_admissions {permits maxMessage : Nat} {world : B.State} {node : Node B.State}
    {w : Watcher} (hnode : Node.start? permits maxMessage world = some node)
    (h : Reaches fails answers (idle node w) s) : s.AnnouncesAdmissions := by
  obtain ⟨haccounted, hcoherent, hposted, htraced⟩ := accounted_of_reaches hnode h
  exact haccounted.announcesAdmissions hcoherent hposted htraced

theorem announces_admissions_sample :
    relayed.AnnouncesAdmissions ∧ relayed.dispatches.length = 1 ∧
      relayed.sent = [⟨1, .inv [sampleOutpoint], .dispatch 0⟩,
        ⟨1, .data sampleMessage.encode, .reply 1⟩] := by
  have hstart : Node.start? 2 65536 sampleNode.world = some sampleNode := rfl
  have hreaches : Reaches (fun _ => True) (fun _ _ => True) sample relayed :=
    reaches_acts (fun _ => trivial) (sampleMeeting ++ sampleRelay ++ sampleReturn)
  exact ⟨announces_admissions hstart hreaches, by decide +kernel, by decide +kernel⟩

end Station

end ChatRelay
