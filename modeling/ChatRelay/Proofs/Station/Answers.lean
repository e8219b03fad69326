import ChatRelay.Proofs.Station.Gossip

/-!
# What a session answers

When no call and no sending fails, a session answers an announcement by one request for each listed
outpoint that it finds unrecorded, a request by what is cached, and a delivery by nothing. It goes
on behind every frame but a delivery that does not decode. In the store it changes no entry but that
of a message that it has newly admitted.
-/

namespace ChatRelay

open Routine (Comes Runs Recites)

/-- Whether an answer tells of no failure. -/
def Answered.Succeeds (said : Answered SessionRequest.Answer) : Prop :=
  match said with
  | ⟨.store _, answer⟩ => ∃ result, answer = .ok result
  | ⟨.reply _, sent⟩ => sent = true
  | _ => True

/-- Whether it is a reply that could not be sent. -/
def Answered.lost : Answered SessionRequest.Answer → Bool
  | ⟨.reply _, sent⟩ => !sent
  | _ => false

/-- The frame that was sent, if it is a reply that was. -/
def Answered.reply? : Answered SessionRequest.Answer → Option Frame
  | ⟨.reply frame, true⟩ => some frame
  | _ => none

/-! ## Whole frames -/

namespace Session

variable {self : PeerId} {frame : Frame} {reason : Option CloseReason}
  {transcript : List (Answered SessionRequest.Answer)}

/-- What is said about a listed outpoint, by whether it is recorded. -/
def inquiry (listed : Outpoint × Bool) : List (Answered SessionRequest.Answer) :=
  ⟨.store (.has listed.1), .ok listed.2⟩ ::
    if listed.2 then [] else [⟨.reply (.getData listed.1), true⟩]

/-- All that is said about a frame when nothing fails, the frames it is answered by, and why the
session ends behind it, if it does. -/
inductive Handles (self : PeerId) :
    Frame → List (Answered SessionRequest.Answer) → List Frame → Option CloseReason → Prop
  | requested (listed : List (Outpoint × Bool)) :
      Handles self (.inv (listed.map (·.1))) (listed.flatMap inquiry)
        ((listed.filter fun entry => !entry.2).map fun entry => .getData entry.1) none
  | unserved (outpoint : Outpoint) :
      Handles self (.getData outpoint) [⟨.store (.payload outpoint), .ok none⟩] [] none
  | served (outpoint : Outpoint) (body : Bytes) :
      Handles self (.getData outpoint)
        [⟨.store (.payload outpoint), .ok (some body)⟩, ⟨.reply (.data body), true⟩]
        [.data body] none
  | undecodable {body : Bytes} {cause : Message.Error} (h : Message.decode body = .error cause) :
      Handles self (.data body) [] [] (some (.undecodable cause))
  | decided {body : Bytes} {message : Message}
      {transcript : List (Answered SessionRequest.Answer)}
      (hdecode : Message.decode body = .ok message)
      (h : Relayed (some self) message (fun _ => message.outpoint) transcript) :
      Handles self (.data body) transcript [] none

/-- The requests among what is said are those for what is not recorded, in order. -/
theorem filterMap_reply?_inquiry (listed : List (Outpoint × Bool)) :
    (listed.flatMap inquiry).filterMap Answered.reply? =
      (listed.filter fun entry => !entry.2).map fun entry => .getData entry.1 := by
  induction listed with
  | nil => rfl
  | cons entry listed ih =>
      obtain ⟨outpoint, known⟩ := entry
      rw [List.flatMap_cons, List.filterMap_append, ih]
      cases known <;> rfl

theorem runs_requestMissing_of_succeeds {outpoints : List Outpoint}
    (h : Runs Recites (requestMissing outpoints) transcript reason [])
    (hgood : ∀ said ∈ transcript, said.Succeeds) :
    reason = none ∧ ∃ listed : List (Outpoint × Bool),
      listed.map (·.1) = outpoints ∧ transcript = listed.flatMap inquiry := by
  induction outpoints generalizing transcript with
  | nil =>
      obtain ⟨hreason, rfl⟩ := Routine.runs_pure.mp h
      exact ⟨hreason, [], rfl, rfl⟩
  | cons outpoint outpoints ih =>
      obtain ⟨answer, left, rfl, hrest⟩ := Routine.runs_ask_bind.mp h
      obtain ⟨⟨known, rfl⟩, hleft⟩ := List.forall_mem_cons.mp hgood
      cases known with
      | true =>
          obtain ⟨hreason, listed, rfl, rfl⟩ := ih hrest hleft
          exact ⟨hreason, (outpoint, true) :: listed, rfl, rfl⟩
      | false =>
          obtain ⟨sent, last, rfl, hsent⟩ := Routine.runs_ask_bind.mp hrest
          obtain ⟨rfl, hlast⟩ := List.forall_mem_cons.mp hleft
          obtain ⟨hreason, listed, rfl, rfl⟩ := ih hsent hlast
          exact ⟨hreason, (outpoint, false) :: listed, rfl, rfl⟩

theorem runs_receiveMessage_of_error {body : Bytes} {cause : Message.Error}
    (hdecode : Message.decode body = .error cause)
    (h : Runs Recites (receiveMessage self body) transcript reason []) :
    reason = some (.undecodable cause) ∧ transcript = [] := by
  unfold receiveMessage at h
  rw [hdecode] at h
  obtain ⟨hreason, hnothing⟩ := Routine.runs_pure.mp h
  exact ⟨hreason, hnothing.symm⟩

/-- A delivery that decodes is no reason to end. -/
theorem runs_receiveMessage_of_ok {body : Bytes} {message : Message}
    (hdecode : Message.decode body = .ok message)
    (h : Runs Recites (receiveMessage self body) transcript reason []) : reason = none := by
  unfold receiveMessage at h
  rw [hdecode] at h
  obtain ⟨answer, middle, rfl, hrest⟩ := Routine.runs_ask_bind.mp h
  cases answer with
  | error rejection => exact (Routine.runs_pure.mp hrest).1
  | ok admission =>
      obtain ⟨x, last, -, hdone⟩ := Routine.runs_bind.mp hrest
      exact (Routine.runs_pure.mp hdone).1

theorem handles_of_runs (h : Runs Recites (handle self frame) transcript reason [])
    (hgood : ∀ said ∈ transcript, said.Succeeds) :
    Handles self frame transcript (transcript.filterMap Answered.reply?) reason := by
  cases frame with
  | inv outpoints =>
      obtain ⟨rfl, listed, rfl, rfl⟩ := runs_requestMissing_of_succeeds h hgood
      rw [filterMap_reply?_inquiry]
      exact .requested listed
  | getData outpoint =>
      obtain ⟨answer, middle, rfl, hrest⟩ := Routine.runs_ask_bind.mp h
      obtain ⟨⟨cached, rfl⟩, hmiddle⟩ := List.forall_mem_cons.mp hgood
      cases cached with
      | none =>
          obtain ⟨rfl, rfl⟩ := Routine.runs_pure.mp hrest
          exact .unserved outpoint
      | some body =>
          obtain ⟨sent, last, rfl, hdone⟩ := Routine.runs_ask_bind.mp hrest
          obtain ⟨rfl, -⟩ := List.forall_mem_cons.mp hmiddle
          obtain ⟨rfl, rfl⟩ := Routine.runs_pure.mp hdone
          exact .served outpoint body
  | data body =>
      rcases runs_receiveMessage h with ⟨cause, hdecode, -⟩ | ⟨message, hdecode, hrelayed⟩
      · obtain ⟨rfl, rfl⟩ := runs_receiveMessage_of_error hdecode h
        exact .undecodable hdecode
      · obtain rfl := runs_receiveMessage_of_ok hdecode h
        have hsilent : transcript.filterMap Answered.reply? = [] := by
          cases hrelayed <;> rfl
        rw [hsilent]
        exact .decided hdecode hrelayed

end Session

/-! ## Handlers -/

namespace Handler

variable {handler : Handler} {fails : StoreCall → Prop}
  {answers : (call : LedgerCall) → call.Answer → Prop}

/-- The frames that a handler has replied with. -/
def replies (handler : Handler) : List Frame := handler.transcript.filterMap Answered.reply?

/-- What has been sent for handler `k`. -/
def sendings (handler : Handler) (k : Nat) : List Sending :=
  handler.errand.socket?.elim [] fun socket => handler.replies.map (⟨socket, ·, .reply k⟩)

theorem replies_of_said {after : Handler} {said : Answered SessionRequest.Answer}
    (h : after.transcript = handler.transcript ++ [said]) :
    after.replies = handler.replies ++ said.reply?.toList := by
  rw [replies, h, List.filterMap_append, replies]
  cases hsaid : said.reply? <;> simp [hsaid]

theorem sendings_congr {after : Handler} (herrand : after.errand = handler.errand)
    (hreplies : after.replies = handler.replies) : after.sendings = handler.sendings := by
  funext k
  rw [sendings, sendings, herrand, hreplies]

/-- What is no reply that was sent adds nothing to what has been sent. -/
theorem sendings_of_said {after : Handler} {said : Answered SessionRequest.Answer}
    (herrand : after.errand = handler.errand)
    (h : after.transcript = handler.transcript ++ [said]) (hsaid : said.reply? = none) :
    after.sendings = handler.sendings := by
  apply sendings_congr herrand
  rw [replies_of_said h, hsaid, Option.toList_none, List.append_nil]

/-- A handler that is over does not move on. -/
theorem Advances.not_over {after : Handler} (h : Advances fails answers handler after) :
    ¬ handler.Over := by
  rintro ⟨ending, hending⟩
  cases h with
  | hear question answer next hstage => cases hending.symm.trans hstage
  | announce source outpoint audience next hstage => cases hending.symm.trans hstage
  | decide message next hstage => cases hending.symm.trans hstage
  | proceed next hstage => cases hending.symm.trans hstage
  | conclude next result hstage => cases hending.symm.trans hstage

namespace Coherent

variable (h : handler.Coherent fails answers)

include h

/-- What was said about a frame that was handled to the end. -/
theorem runs {socket : Nat} {peer : PeerId} {frame : Frame} {reason : Option CloseReason}
    (herrand : handler.errand = .session socket peer frame)
    (hstage : handler.stage = .running (.done (.session reason))) :
    Runs Recites (Session.handle peer frame) handler.transcript reason [] := by
  have hcomes := h.stage
  rw [hstage, herrand] at hcomes
  have hruns : Runs Recites (Session.handle peer frame >>= fun reason => pure (.session reason))
      handler.transcript (Ending.session reason) [] := Routine.comes_done.mp hcomes
  obtain ⟨x, middle, hruns, hdone⟩ := Routine.runs_bind.mp hruns
  obtain ⟨hreason, rfl⟩ := Routine.runs_pure.mp hdone
  rwa [Ending.session.inj hreason]

/-- The questions of a session succeed when the store performs its calls and replies are sent. -/
theorem succeeds
    (hperformed : ∀ (call : StoreCall) (answer : call.Answer),
      ⟨.store call, answer⟩ ∈ handler.transcript →
        ∃ before after, Holdings.Performs call before answer after)
    (hsent : ∀ said ∈ handler.transcript, ¬ said.lost) :
    ∀ said ∈ handler.transcript, said.Succeeds := by
  rintro ⟨question, answer⟩ hsaid
  cases question with
  | store call =>
      obtain ⟨before, after, hperforms⟩ := hperformed call answer hsaid
      have hwarrants := h.begins.warrants hsaid
      cases call with
      | has o => exact ⟨_, hperforms.1⟩
      | payload o => exact ⟨_, hperforms.1⟩
      | putPayload o b => exact ⟨_, hperforms.1⟩
      | _ => cases hwarrants
  | decide message => trivial
  | reply frame =>
      cases answer with
      | true => rfl
      | false => exact absurd rfl (hsent _ hsaid)
  | announce source outpoint => trivial

/-- A frame that was handled to the end without a failure. -/
theorem handles {socket : Nat} {peer : PeerId} {frame : Frame} {reason : Option CloseReason}
    (herrand : handler.errand = .session socket peer frame)
    (hstage : handler.stage = .running (.done (.session reason)))
    (hgood : ∀ said ∈ handler.transcript, said.Succeeds) :
    Session.Handles peer frame handler.transcript handler.replies reason :=
  Session.handles_of_runs (h.runs herrand hstage) hgood

end Coherent

end Handler

namespace Station

variable {B : OutpointStore} {fails : StoreCall → Prop}
  {answers : (call : LedgerCall) → call.Answer → Prop} {s t : Station B} {move : Move}

/-! ## What is sent for a handler -/

/-- What is sent for a handler is what it has replied with, in order. -/
def Dictated (s : Station B) : Prop :=
  ∀ k, s.sent.filter (·.cause = .reply k) =
    s.handlers[k]?.elim [] fun handler : Handler => handler.sendings k

theorem dictated_idle (node : Node B.State) (w : Watcher) : (idle node w).Dictated := by
  simp [Dictated, idle]

theorem Dictated.set (hs : s.Dictated) {j : Nat} {handler after : Handler}
    (hhandler : s.handlers[j]? = some handler) (hset : t.handlers = s.handlers.set j after)
    (hsame : after.sendings = handler.sendings) (hsent : t.sent = s.sent) : t.Dictated := by
  intro k
  rw [hsent, hs k, hset, List.getElem?_set]
  split
  next heq =>
    subst heq
    obtain ⟨hlt, -⟩ := List.getElem?_eq_some_iff.mp hhandler
    rw [hhandler, if_pos hlt, Option.elim_some, Option.elim_some, hsame]
  next => rfl

/-- Nothing has been sent for a handler that begins. -/
theorem Dictated.begin (hs : s.Dictated) {errand : Errand}
    (hbegin : t.handlers = s.handlers ++ [.begin errand]) (hsent : t.sent = s.sent) :
    t.Dictated := by
  have hnothing : ∀ k, (Handler.begin errand).sendings k = [] := fun k => by
    rw [Handler.sendings]
    cases errand <;> rfl
  intro k
  rw [hsent, hs k, hbegin, List.getElem?_append]
  split
  next => rfl
  next hnew =>
    rw [List.getElem?_eq_none (Nat.le_of_not_lt hnew)]
    cases hlast : [Handler.begin errand][k - s.handlers.length]? with
    | none => rfl
    | some last =>
        obtain rfl := List.mem_singleton.mp (List.mem_of_getElem? hlast)
        exact (hnothing k).symm

theorem Dictated.step (hs : s.Dictated) (h : Step fails answers s move t) : t.Dictated := by
  cases h with
  | take socket peer frame node hreads => exact hs.begin rfl rfl
  | submit message => exact hs.begin rfl rfl
  | store k handler call next answer world hhandler hstage hserved =>
      exact hs.set hhandler rfl (Handler.sendings_of_said rfl rfl rfl) rfl
  | decide k handler message next hhandler hstage => exact hs.set hhandler rfl rfl rfl
  | proceed k handler run after exchanges next slots world serve hserve hhandler hstage hstep =>
      exact hs.set hhandler rfl rfl rfl
  | decided k handler run exchanges next result hhandler hstage hphase =>
      exact hs.set hhandler rfl (Handler.sendings_of_said rfl rfl rfl) rfl
  | unanswered k handler frame next hhandler hstage =>
      exact hs.set hhandler rfl (Handler.sendings_of_said rfl rfl rfl) rfl
  | announce k handler source outpoint next hhandler hstage =>
      exact hs.set hhandler rfl (Handler.sendings_of_said rfl rfl rfl) rfl
  | reply k handler frame next socket node hhandler hstage hsocket hsent =>
      obtain ⟨hlt, -⟩ := List.getElem?_eq_some_iff.mp hhandler
      have hsaid : (handler.hear ⟨.reply frame, true⟩ (next true)).transcript =
          handler.transcript ++ [⟨.reply frame, true⟩] := rfl
      intro j
      dsimp only
      rw [List.filter_append, hs j, List.getElem?_set]
      split
      next heq =>
        subst heq
        rw [hhandler, Option.elim_some, Option.elim_some, Handler.sendings, Handler.sendings,
          Handler.replies_of_said hsaid]
        simp [Handler.hear, hsocket, Answered.reply?]
      next hne => simp [hne]
  | dispatch j d node hdispatch hfate hsent =>
      intro k
      dsimp only
      rw [List.filter_append, hs k]
      simp
  | _ => exact hs

/-! ## What a step of a handler does to the store -/

end Station

end ChatRelay
