import ChatRelay.Proofs.Station.Gossip

/-!
# What a gossiping node sends

A gossiping node sends announcements of its outpoint, each socket at most one, requests for it where
it was announced, and its message where it was requested. At rest it has sent all that its handlers
call for.
-/

namespace ChatRelay

/-- Whether a frame announces an outpoint. -/
def Frame.announces (o : Outpoint) : Frame → Bool
  | .inv outpoints => o ∈ outpoints
  | _ => false

variable {answers : (call : LedgerCall) → call.Answer → Prop} {m : Message} {script : Bytes}

/-- What was added has been admitted. -/
theorem Admission.Decided.ok_of_added {message : Message} {log : List Exchange}
    {result : Except Rejection Admission} (h : Admission.Decided message log result) {e : Exchange}
    (he : e ∈ log) {o : Outpoint} (hsaid : e.said = ⟨.store (.add o), .ok ()⟩) :
    ∃ admission, result = .ok admission := by
  cases h with
  | known hfirst h =>
      obtain rfl := List.mem_singleton.mp he
      cases hsaid
  | refused hfirst h =>
      simp only [List.mem_cons, List.not_mem_nil, or_false] at he
      rcases he with rfl | rfl
      · cases hsaid
      · cases hsaid
  | unrecorded hfirst hsigned hthird h =>
      simp only [List.mem_cons, List.not_mem_nil, or_false] at he
      rcases he with rfl | rfl | rfl
      · cases hsaid
      · cases hsaid
      · cases hsaid
        cases h
  | admitted hfirst houtpoint hsigned hthird => exact ⟨_, rfl⟩

namespace Handler

instance (handler : Handler) : Decidable handler.Over :=
  match h : handler.stage with
  | .running (.done ending) => isTrue ⟨ending, h⟩
  | .running (.ask _ _) => isFalse fun ⟨_, h'⟩ => nomatch h.symm.trans h'
  | .deciding _ _ _ => isFalse fun ⟨_, h'⟩ => nomatch h.symm.trans h'

variable {handler : Handler} {fails : StoreCall → Prop} (h : handler.Coherent fails answers)
  (hover : handler.Over)

include h hover

theorem Coherent.fulfils : handler.errand.Fulfils handler.transcript := by
  obtain ⟨ending, hending⟩ := hover
  have hstage := h.stage
  rw [hending] at hstage
  exact Errand.fulfils_of_comes hstage

/-- A handler that is over has cached what it admitted, if it could. -/
theorem Coherent.caches_of_over {d : Decision} (hd : d ∈ handler.decisions) {admission : Admission}
    (hresult : d.result = .ok admission)
    (hput : ∀ o b (answer : StoreCall.Answer (.putPayload o b)),
      ⟨.store (.putPayload o b), answer⟩ ∈ handler.transcript → answer = .ok true) :
    handler.Caches d.message := by
  have hsaid := (h.decided d.message (.ok admission)).mpr ⟨d, hd, rfl, hresult⟩
  suffices hcached : ∃ o b, ⟨.store (.putPayload o b), .ok true⟩ ∈ handler.transcript by
    obtain ⟨o, b, hcached⟩ := hcached
    obtain ⟨other, hother, admission', hresult', rfl, rfl⟩ := h.cached hcached
    have hsame := (h.carries hother).unique (h.carries hd)
    exact hsame ▸ ⟨⟨other, hother, rfl, admission', hresult'⟩, hcached⟩
  have hfulfils := h.fulfils hover
  generalize handler.errand = errand, handler.transcript = transcript at hfulfils hsaid hput ⊢
  cases hfulfils with
  | requested hrequests =>
      obtain ⟨o, -, hq | hq⟩ := hrequests.question _ hsaid
      · cases hq
      · cases hq
  | unserved => simp at hsaid
  | served => simp at hsaid
  | undecodable => cases hsaid
  | relayed hcarries houtpoint hrelayed =>
      cases hrelayed with
      | rejected rejection => simp at hsaid
      | uncached admission answer hanswer => exact absurd (hput _ _ answer (by simp)) hanswer
      | announced admission => exact ⟨_, _, List.mem_cons_of_mem _ List.mem_cons_self⟩

end Handler

namespace Station

variable {B : OutpointStore} {s : Station B}

/-- The frames that were sent on a socket, oldest first. -/
def frames (s : Station B) (socket : Nat) : List Frame := (s.sentOn socket).map (·.frame)

theorem mem_frames {socket : Nat} {frame : Frame} :
    frame ∈ s.frames socket ↔ ∃ x ∈ s.sent, x.socket = socket ∧ x.frame = frame := by
  simp [frames, sentOn, and_assoc]

/-- A reply that went out is among the frames of the socket that its handler serves. -/
theorem Traced.mem_frames_of_said (htraced : s.Traced) {handler : Handler}
    (hhandler : handler ∈ s.handlers) {socket : Nat} (hsocket : handler.errand.socket? = some socket)
    {frame : Frame} (hsaid : ⟨.reply frame, true⟩ ∈ handler.transcript) :
    frame ∈ s.frames socket := by
  obtain ⟨k, hk⟩ := List.getElem?_of_mem hhandler
  obtain ⟨_, hsame, hsent⟩ := htraced.replied k handler hk frame hsaid
  obtain rfl := Option.some.inj (hsocket.symm.trans hsame)
  exact mem_frames.mpr ⟨_, hsent, rfl, rfl⟩

/-- Whether no handler has anything left to do and no announcement waits. -/
structure Quiet (s : Station B) : Prop where
  handlers : ∀ handler ∈ s.handlers, handler.Over
  dispatches : ∀ d ∈ s.dispatches, d.fate ≠ .waiting

instance (s : Station B) : Decidable s.Quiet :=
  decidable_of_iff
    ((∀ handler ∈ s.handlers, handler.Over) ∧ ∀ d ∈ s.dispatches, d.fate ≠ .waiting)
    ⟨fun h => ⟨h.1, h.2⟩, fun h => ⟨h.handlers, h.dispatches⟩⟩

namespace Gossips

variable (hs : s.Gossips answers m)

include hs

/-- Whoever cached the message has added its outpoint. -/
theorem adds_of_caches {handler : Handler} (hhandler : handler ∈ s.handlers) {message : Message}
    (hcaches : handler.Caches message) :
    message.outpoint = m.outpoint ∧ s.Caches m ∧ handler.Adds m.outpoint := by
  obtain ⟨d, hd, rfl, admission, hresult⟩ := hcaches.1
  have hcoherent := hs.coherent handler hhandler
  obtain rfl := (hs.errands handler hhandler).only hcoherent hd hresult
  exact ⟨rfl, (hs.confirmed handler hhandler _ hcaches.2).2, hcoherent.adds hd hresult⟩

/-- Where a dispatch comes from. -/
theorem exists_caller {d : Dispatch} (hd : d ∈ s.dispatches) :
    ∃ handler, s.handlers[d.handler]? = some handler ∧ handler.Adds m.outpoint ∧ s.Caches m ∧
      d.announcement.outpoint = m.outpoint := by
  obtain ⟨handler, hhandler, hcall⟩ := hs.accounted.exists_handler hd
  have hmem := List.mem_of_getElem? hhandler
  obtain ⟨⟨message, hcaches, houtpoint⟩, -⟩ := hs.accounted.cached_of_call hs.coherent hmem hcall
  obtain ⟨hsame, hcached, hadds⟩ := hs.adds_of_caches hmem hcaches
  exact ⟨handler, hhandler, hadds, hcached, houtpoint.symm.trans hsame⟩

/-- A frame that was sent announces the outpoint, or requests it where it was announced, or delivers
the message. -/
theorem frame_cases {socket : Nat} {frame : Frame} (hframe : frame ∈ s.frames socket) :
    (frame = .inv [m.outpoint] ∧ s.Caches m) ∨
      (frame = .getData m.outpoint ∧ ∃ handler ∈ s.handlers, ∃ peer,
        handler.errand = .session socket peer (.inv [m.outpoint])) ∨
      frame = .data m.encode ∧ s.Caches m := by
  obtain ⟨x, hx, rfl, rfl⟩ := mem_frames.mp hframe
  cases hcause : x.cause with
  | dispatch j =>
      obtain ⟨d, hd, -, rfl⟩ := hs.traced.announcement hx hcause
      obtain ⟨handler, -, -, hcached, houtpoint⟩ := hs.exists_caller (List.mem_of_getElem? hd)
      exact .inl ⟨by simp [houtpoint], hcached⟩
  | reply k =>
      obtain ⟨handler, hhandler, hsocket, hsaid⟩ := hs.traced.reply x hx k hcause
      have hmem := List.mem_of_getElem? hhandler
      have hproper := hs.errands handler hmem
      rcases (hs.coherent handler hmem).replied hsaid with
        ⟨socket, peer, outpoints, herrand, o, ho, hreply⟩ |
        ⟨socket, peer, o, b, herrand, hreply, hfetched⟩
      · rw [herrand] at hproper hsocket
        obtain rfl := Option.some.inj hsocket
        rcases hproper.2 with heq | ⟨heq, -⟩ | heq
        · obtain rfl := Frame.inv.inj heq
          obtain rfl := List.mem_singleton.mp ho
          exact .inr (.inl ⟨hreply, handler, hmem, peer, herrand⟩)
        · cases heq
        · cases heq
      · rw [herrand] at hproper
        rcases hproper.2 with heq | ⟨heq, hcached⟩ | heq
        · cases heq
        · have hanswer := hs.confirmed handler hmem _ hfetched
          obtain rfl := Option.some.inj (Except.ok.inj hanswer)
          exact .inr (.inr ⟨hreply, hcached⟩)
        · cases heq

/-- No two dispatches go to one socket. -/
theorem unique_dispatch {i j : Nat} {d other : Dispatch} (hd : s.dispatches[j]? = some d)
    (hother : s.dispatches[i]? = some other)
    (hsocket : other.announcement.socket = d.announcement.socket) : i = j := by
  obtain ⟨handler, hhandler, hadds, -⟩ := hs.exists_caller (List.mem_of_getElem? hd)
  obtain ⟨handler', hhandler', hadds', -⟩ := hs.exists_caller (List.mem_of_getElem? hother)
  have hmem := List.mem_of_getElem? hhandler
  exact hs.accounted.unique_dispatch hhandler (hs.coherent handler hmem)
    (hs.accounted.sockets handler hmem) hd hother rfl
    (hs.once _ _ _ _ hhandler' hhandler hadds' hadds) hsocket

/-- The outpoint is announced at most once on a socket. -/
theorem announced_once (socket : Nat) :
    (s.frames socket).countP (·.announces m.outpoint) ≤ 1 := by
  rw [frames, List.countP_map, List.countP_eq_length_filter]
  generalize hlist : (s.sentOn socket).filter _ = announcements
  cases announcements with
  | nil => exact Nat.zero_le 1
  | cons x rest =>
      have hcause : ∀ y ∈ x :: rest, ∃ j d, y.cause = .dispatch j ∧ s.dispatches[j]? = some d ∧
          d.announcement.socket = socket := by
        intro y hy
        rw [← hlist] at hy
        obtain ⟨hsent, hannounces⟩ := List.mem_filter.mp hy
        obtain ⟨hsent, hsocket⟩ := List.mem_filter.mp hsent
        have hframe : ∃ outpoints, y.frame = .inv outpoints := by
          cases hframe : y.frame with
          | inv outpoints => exact ⟨outpoints, rfl⟩
          | getData o => simp [hframe, Frame.announces] at hannounces
          | data b => simp [hframe, Frame.announces] at hannounces
        obtain ⟨outpoints, hframe⟩ := hframe
        obtain ⟨j, hcause⟩ := hs.traced.dispatch_of_inv hs.coherent hsent hframe
        obtain ⟨d, hd, -, rfl⟩ := hs.traced.announcement hsent hcause
        exact ⟨j, d, rfl, hd, of_decide_eq_true hsocket⟩
      obtain ⟨j, d, hj, hd, hsocket⟩ := hcause x List.mem_cons_self
      have hsame : ∀ y ∈ x :: rest, y.cause = .dispatch j := by
        intro y hy
        obtain ⟨i, other, hi, hother, hsocket'⟩ := hcause y hy
        rw [hi, hs.unique_dispatch hd hother (hsocket'.trans hsocket.symm)]
      -- all of them are sendings of one dispatch
      have hsublist : (x :: rest).Sublist (s.sent.filter (·.cause = .dispatch j)) := by
        rw [← List.filter_eq_self.mpr fun y hy => decide_eq_true (hsame y hy), ← hlist]
        exact (List.filter_sublist.trans List.filter_sublist).filter _
      refine Nat.le_trans hsublist.length_le ?_
      rw [hs.traced.dispatched, hd, Option.elim_some, Dispatch.sendings]
      split
      · exact le_rfl
      · exact Nat.zero_le 1

/-! ### At rest -/

variable (hquiet : s.Quiet)

include hquiet

/-- Where a quiet node got the message from, and to whom it has announced it: to everyone else. -/
theorem spread (hrecorded : s.held.recorded m.outpoint) : s.Caches m ∧
    ∃ handler ∈ s.handlers, handler.errand.Carries m ∧
      ∀ entry ∈ s.node.lifecycle.registry.entries, some entry.1 ≠ handler.errand.source →
        .inv [m.outpoint] ∈ s.frames entry.2 := by
  -- whoever added the outpoint had the message admitted, and being over it has cached it
  obtain ⟨handler, hmem, e, he, hsaid, -⟩ := hs.added hrecorded
  have hcoherent := hs.coherent handler hmem
  have hover := hquiet.handlers handler hmem
  have hdecided : ∃ d ∈ handler.decisions, e ∈ d.exchanges := by
    obtain ⟨ending, hending⟩ := hover
    simpa [Handler.exchanges, hending] using he
  obtain ⟨d, hd, he⟩ := hdecided
  obtain ⟨admission, hresult⟩ := (hcoherent.decision d hd).ok_of_added he hsaid
  have hcaches := hcoherent.caches_of_over hover hd hresult fun o b answer hput =>
    (hs.confirmed handler hmem _ hput).1
  obtain rfl := (hs.errands handler hmem).only hcoherent hd hresult
  obtain ⟨-, hcached, -⟩ := hs.adds_of_caches hmem hcaches
  refine ⟨hcached, handler, hmem, hcoherent.carries hd, fun entry hentry hsource => ?_⟩
  -- it has announced it too, and no dispatch waits or has failed
  obtain ⟨k, hk⟩ := List.getElem?_of_mem hmem
  have hannounced := hcoherent.announces_of_over hover hcaches.2
  have haudience := hs.audience handler hmem _ _ hannounced
  obtain ⟨j, dispatch, hdispatch, -, hannouncement, -, hsendings, -⟩ :=
    (hs.accounted.announcesAdmissions hs.coherent hs.posted hs.traced).fanned k handler d.message hk
      hcaches hover entry (haudience ▸ hentry) hsource
  have hfate : dispatch.fate = .sent := by
    have hwaits := hquiet.dispatches dispatch (List.mem_of_getElem? hdispatch)
    have hfails := hs.fates dispatch (List.mem_of_getElem? hdispatch)
    cases hfate : dispatch.fate with
    | waiting => exact absurd hfate hwaits
    | failed => exact absurd hfate hfails
    | sent => rfl
  rw [Dispatch.sendings, if_pos hfate, hannouncement] at hsendings
  have hsent := List.mem_filter.mp (hsendings ▸ List.mem_singleton.mpr rfl)
  exact mem_frames.mpr ⟨_, hsent.1, rfl, rfl⟩

/-- Where the outpoint was announced to a quiet node, it has it or has requested it. -/
theorem requested {handler : Handler} (hmem : handler ∈ s.handlers) {socket : Nat} {peer : PeerId}
    (herrand : handler.errand = .session socket peer (.inv [m.outpoint])) :
    s.held.recorded m.outpoint ∨ .getData m.outpoint ∈ s.frames socket := by
  have hfulfils := (hs.coherent handler hmem).fulfils (hquiet.handlers handler hmem)
  have hconfirmed := hs.confirmed handler hmem
  rw [herrand] at hfulfils
  cases hfulfils with
  | relayed hcarries => exact hcarries.elim
  | requested hrequests =>
      -- no request was lost, so each outpoint has had its turn
      have hsent : ∀ frame, ⟨.reply frame, false⟩ ∉ handler.transcript :=
        fun frame hlost => Bool.noConfusion (hconfirmed _ hlost)
      obtain ⟨answer, hasked, hrequested⟩ := hrequests.turn hsent m.outpoint List.mem_cons_self
      rcases hconfirmed _ hasked rfl with ⟨-, hrecorded⟩ | hmissing
      · exact .inl hrecorded
      · exact .inr (hs.traced.mem_frames_of_said hmem (herrand ▸ rfl) (hrequested hmissing))

/-- Where the message was requested from a quiet node, it has delivered it. -/
theorem delivered {handler : Handler} (hmem : handler ∈ s.handlers) {socket : Nat} {peer : PeerId}
    (herrand : handler.errand = .session socket peer (.getData m.outpoint)) :
    .data m.encode ∈ s.frames socket := by
  have hfulfils := (hs.coherent handler hmem).fulfils (hquiet.handlers handler hmem)
  have hconfirmed := hs.confirmed handler hmem
  have hreplied : ∀ frame, ⟨.reply frame, true⟩ ∈ handler.transcript → frame ∈ s.frames socket :=
    fun _ => hs.traced.mem_frames_of_said hmem (herrand ▸ rfl)
  rw [herrand] at hfulfils
  generalize handler.transcript = transcript at hfulfils hconfirmed hreplied
  cases hfulfils with
  | relayed hcarries => exact hcarries.elim
  | unserved hanswer => exact absurd (hconfirmed _ List.mem_cons_self) (hanswer _)
  | served =>
      obtain rfl := Option.some.inj (Except.ok.inj (hconfirmed _ List.mem_cons_self))
      obtain rfl : _ = true := hconfirmed _ (List.mem_cons_of_mem _ List.mem_cons_self)
      exact hreplied _ (List.mem_cons_of_mem _ List.mem_cons_self)

/-- A quiet node to which the message was delivered has recorded its outpoint. -/
theorem recorded_of_delivery (howned : m.Owned answers script) {handler : Handler}
    (hmem : handler ∈ s.handlers) {socket : Nat} {peer : PeerId}
    (herrand : handler.errand = .session socket peer (.data m.encode)) :
    s.held.recorded m.outpoint := by
  have hcoherent := hs.coherent handler hmem
  have hfulfils := hcoherent.fulfils (hquiet.handlers handler hmem)
  have hdecided : ∃ message result, ⟨.decide message, result⟩ ∈ handler.transcript := by
    rw [herrand] at hfulfils
    generalize handler.transcript = transcript at hfulfils
    cases hfulfils with
    | undecodable hcause => cases hcause.symm.trans (Message.decode_encode m)
    | relayed hcarries houtpoint hrelayed =>
        cases hrelayed <;> exact ⟨_, _, List.mem_cons_self⟩
  obtain ⟨message, result, hsaid⟩ := hdecided
  obtain ⟨d, hd, -, -⟩ := (hcoherent.decided message result).mp hsaid
  have hcarries := hcoherent.carries hd
  rw [herrand] at hcarries
  obtain rfl := Except.ok.inj (Eq.trans (Eq.symm hcarries) (Message.decode_encode m))
  obtain ⟨e, he, hfound⟩ := hcoherent.found hd howned
  exact hs.witnessed handler hmem e he hfound

end Gossips

end Station

end ChatRelay
