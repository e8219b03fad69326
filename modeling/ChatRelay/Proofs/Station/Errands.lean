import ChatRelay.Proofs.Station
import ChatRelay.Proofs.Wire.Codec
import Mathlib.Data.List.Infix

/-!
# What is said on an errand

The transcript of a handler has one of a few forms, whatever it is answered: a message is decided,
cached once it is admitted, and announced once it is cached; a request is answered by what is
cached; an announcement by requests for what is not recorded.
-/

namespace ChatRelay

open Routine (Comes Runs Recites)

instance (request : SessionRequest) : Nonempty request.Answer := by
  cases request with
  | store call => exact ⟨.error (.databaseOperation "")⟩
  | decide message => exact ⟨.error .alreadySeen⟩
  | reply frame => exact ⟨true⟩
  | announce source outpoint => exact ⟨()⟩

/-- Whether an errand is about a message: to submit it, or to handle its octets. -/
def Errand.Carries : Errand → Message → Prop
  | .session _ _ (.data body), message => Message.decode body = .ok message
  | .submission submitted, message => submitted = message
  | _, _ => False

/-- An errand is about at most one message. -/
theorem Errand.Carries.unique {errand : Errand} {first second : Message}
    (hfirst : errand.Carries first) (hsecond : errand.Carries second) : first = second := by
  cases errand with
  | submission message => exact hfirst.symm.trans hsecond
  | session socket peer frame =>
      cases frame with
      | data body => exact Except.ok.inj (hfirst.symm.trans hsecond)
      | inv outpoints => exact hfirst.elim
      | getData outpoint => exact hfirst.elim

namespace Session

variable {transcript : List (Answered SessionRequest.Answer)}

/-! ## Whole routines -/

/-- All that is said about a message, to the end. -/
inductive Relayed (source : Option PeerId) (message : Message) (outpoint : Admission → Outpoint) :
    List (Answered SessionRequest.Answer) → Prop
  | rejected (rejection : Rejection) :
      Relayed source message outpoint [⟨.decide message, .error rejection⟩]
  | uncached (admission : Admission)
      (answer : StoreCall.Answer (.putPayload (outpoint admission) message.encode))
      (h : answer ≠ .ok true) :
      Relayed source message outpoint
        [⟨.decide message, .ok admission⟩,
          ⟨.store (.putPayload (outpoint admission) message.encode), answer⟩]
  | announced (admission : Admission) :
      Relayed source message outpoint
        [⟨.decide message, .ok admission⟩,
          ⟨.store (.putPayload (outpoint admission) message.encode), .ok true⟩,
          ⟨.announce source (outpoint admission), ()⟩]

theorem runs_broadcast {source : Option PeerId} {outpoint : Outpoint} {payload : Bytes} {x : Unit}
    {left : List (Answered SessionRequest.Answer)}
    (h : Runs Recites (broadcast source outpoint payload) transcript x left) :
    (∃ answer : StoreCall.Answer (.putPayload outpoint payload), answer ≠ .ok true ∧
        transcript = ⟨.store (.putPayload outpoint payload), answer⟩ :: left) ∨
      transcript = ⟨.store (.putPayload outpoint payload), .ok true⟩ ::
        ⟨.announce source outpoint, ()⟩ :: left := by
  obtain ⟨answer, middle, rfl, hrest⟩ := Routine.runs_ask_bind.mp h
  rcases answer with cause | known
  · obtain ⟨-, rfl⟩ := Routine.runs_pure.mp hrest
    exact .inl ⟨.error cause, by simp, rfl⟩
  cases known with
  | false =>
      obtain ⟨-, rfl⟩ := Routine.runs_pure.mp hrest
      exact .inl ⟨.ok false, by simp, rfl⟩
  | true =>
      obtain ⟨answer, last, rfl, hdone⟩ := Routine.runs_ask.mp hrest
      obtain ⟨-, rfl⟩ := Routine.runs_done.mp hdone
      exact .inr rfl

theorem runs_submit {message : Message} {result : Except Rejection Admission}
    (h : Runs Recites (submit message) transcript result []) :
    Relayed none message Admission.outpoint transcript := by
  obtain ⟨answer, middle, rfl, hrest⟩ := Routine.runs_ask_bind.mp h
  rcases answer with rejection | admission
  · obtain ⟨-, rfl⟩ := Routine.runs_pure.mp hrest
    exact .rejected rejection
  · obtain ⟨x, last, hbroadcast, hdone⟩ := Routine.runs_bind.mp hrest
    obtain ⟨-, rfl⟩ := Routine.runs_pure.mp hdone
    rcases runs_broadcast hbroadcast with ⟨answer, hanswer, rfl⟩ | rfl
    · exact .uncached admission answer hanswer
    · exact .announced admission

theorem runs_receiveMessage {self : PeerId} {body : Bytes} {reason : Option CloseReason}
    (h : Runs Recites (receiveMessage self body) transcript reason []) :
    (∃ cause, Message.decode body = .error cause ∧ transcript = []) ∨
      ∃ message, Message.decode body = .ok message ∧
        Relayed (some self) message (fun _ => message.outpoint) transcript := by
  unfold receiveMessage at h
  cases hdecode : Message.decode body with
  | error cause =>
      rw [hdecode] at h
      obtain ⟨-, rfl⟩ := Routine.runs_pure.mp h
      exact .inl ⟨cause, rfl, rfl⟩
  | ok message =>
      rw [hdecode] at h
      refine .inr ⟨message, rfl, ?_⟩
      obtain ⟨answer, middle, rfl, hrest⟩ := Routine.runs_ask_bind.mp h
      rcases answer with rejection | admission
      · obtain ⟨-, rfl⟩ := Routine.runs_pure.mp hrest
        exact .rejected rejection
      · obtain ⟨x, last, hbroadcast, hdone⟩ := Routine.runs_bind.mp hrest
        obtain ⟨-, rfl⟩ := Routine.runs_pure.mp hdone
        rw [← Message.encode_of_decode hdecode] at hbroadcast
        rcases runs_broadcast hbroadcast with ⟨answer, hanswer, rfl⟩ | rfl
        · exact .uncached admission answer hanswer
        · exact .announced admission

theorem runs_serveMessage {outpoint : Outpoint} {reason : Option CloseReason}
    (h : Runs Recites (serveMessage outpoint) transcript reason []) :
    (∃ answer : StoreCall.Answer (.payload outpoint), (∀ body, answer ≠ .ok (some body)) ∧
        transcript = [⟨.store (.payload outpoint), answer⟩]) ∨
      ∃ body sent, transcript =
        [⟨.store (.payload outpoint), .ok (some body)⟩, ⟨.reply (.data body), sent⟩] := by
  obtain ⟨answer, middle, rfl, hrest⟩ := Routine.runs_ask_bind.mp h
  rcases answer with cause | cached
  · obtain ⟨-, rfl⟩ := Routine.runs_pure.mp hrest
    exact .inl ⟨.error cause, by simp, rfl⟩
  cases cached with
  | none =>
      obtain ⟨-, rfl⟩ := Routine.runs_pure.mp hrest
      exact .inl ⟨.ok none, by simp, rfl⟩
  | some body =>
      obtain ⟨sent, last, rfl, hdone⟩ := Routine.runs_ask_bind.mp hrest
      refine .inr ⟨body, sent, ?_⟩
      cases sent with
      | true =>
          obtain ⟨-, rfl⟩ := Routine.runs_pure.mp hdone
          rfl
      | false =>
          obtain ⟨-, rfl⟩ := Routine.runs_pure.mp hdone
          rfl

/-- Outpoints are looked up, and those that are not recorded are requested. As long as requests can
be sent every outpoint has its turn. -/
structure Requests (outpoints : List Outpoint)
    (transcript : List (Answered SessionRequest.Answer)) : Prop where
  question : ∀ said ∈ transcript, ∃ o ∈ outpoints,
    said.question = .store (.has o) ∨ said.question = .reply (.getData o)
  turn : (∀ frame, ⟨.reply frame, false⟩ ∉ transcript) → ∀ o ∈ outpoints,
    ∃ answer : StoreCall.Answer (.has o), ⟨.store (.has o), answer⟩ ∈ transcript ∧
      (answer = .ok false → ⟨.reply (.getData o), true⟩ ∈ transcript)

namespace Requests

variable {outpoints : List Outpoint} {outpoint : Outpoint}

/-- One more outpoint before the others, with all that is said about it. -/
theorem cons (h : Requests outpoints transcript) {answer : StoreCall.Answer (.has outpoint)}
    (replies : List (Answered SessionRequest.Answer))
    (hreplies : ∀ said ∈ replies, said.question = .reply (.getData outpoint))
    (hmissing : answer = .ok false → ⟨.reply (.getData outpoint), true⟩ ∈ replies) :
    Requests (outpoint :: outpoints)
      (⟨.store (.has outpoint), answer⟩ :: (replies ++ transcript)) where
  question := by
    intro said hsaid
    rcases List.mem_cons.mp hsaid with rfl | hsaid
    · exact ⟨outpoint, List.mem_cons_self, .inl rfl⟩
    rcases List.mem_append.mp hsaid with hsaid | hsaid
    · exact ⟨outpoint, List.mem_cons_self, .inr (hreplies said hsaid)⟩
    · obtain ⟨o, ho, hquestion⟩ := h.question said hsaid
      exact ⟨o, List.mem_cons_of_mem _ ho, hquestion⟩
  turn := by
    intro hsent o ho
    rcases List.mem_cons.mp ho with rfl | ho
    · exact ⟨answer, List.mem_cons_self, fun hanswer =>
        List.mem_cons_of_mem _ (List.mem_append_left _ (hmissing hanswer))⟩
    · have hmem : ∀ {said}, said ∈ transcript →
          said ∈ ⟨.store (.has outpoint), answer⟩ :: (replies ++ transcript) :=
        fun hsaid => List.mem_cons_of_mem _ (List.mem_append_right _ hsaid)
      obtain ⟨answer', hasked, hrequested⟩ := h.turn (fun frame hlost => hsent frame (hmem hlost))
        o ho
      exact ⟨answer', hmem hasked, fun hanswer => hmem (hrequested hanswer)⟩

/-- A request that cannot be sent is the last. -/
theorem lost : Requests (outpoint :: outpoints)
    [⟨.store (.has outpoint), .ok false⟩, ⟨.reply (.getData outpoint), false⟩] where
  question := by
    intro said hsaid
    simp only [List.mem_cons, List.not_mem_nil, or_false] at hsaid
    rcases hsaid with rfl | rfl
    · exact ⟨outpoint, List.mem_cons_self, .inl rfl⟩
    · exact ⟨outpoint, List.mem_cons_self, .inr rfl⟩
  turn := fun hsent => absurd (List.mem_cons_of_mem _ List.mem_cons_self) (hsent _)

end Requests

theorem runs_requestMissing {outpoints : List Outpoint} {reason : Option CloseReason}
    (h : Runs Recites (requestMissing outpoints) transcript reason []) :
    Requests outpoints transcript := by
  induction outpoints generalizing transcript with
  | nil =>
      obtain ⟨-, rfl⟩ := Routine.runs_pure.mp h
      exact ⟨by simp, by simp⟩
  | cons outpoint outpoints ih =>
      obtain ⟨answer, left, rfl, hrest⟩ := Routine.runs_ask_bind.mp h
      rcases answer with cause | known
      · exact (ih hrest).cons [] (by simp) (by simp)
      cases known with
      | true => exact (ih hrest).cons [] (by simp) (by simp)
      | false =>
          obtain ⟨sent, last, rfl, hsent⟩ := Routine.runs_ask_bind.mp hrest
          cases sent with
          | true =>
              exact (ih hsent).cons [⟨.reply (.getData outpoint), true⟩] (by simp) (by simp)
          | false =>
              obtain ⟨-, rfl⟩ := Routine.runs_pure.mp hsent
              exact .lost

end Session

namespace Errand

variable {errand : Errand} {transcript : List (Answered SessionRequest.Answer)}

/-- All that is said on an errand, to the end. -/
inductive Fulfils : Errand → List (Answered SessionRequest.Answer) → Prop
  | requested {socket : Nat} {peer : PeerId} {outpoints : List Outpoint}
      {transcript : List (Answered SessionRequest.Answer)}
      (h : Session.Requests outpoints transcript) :
      Fulfils (.session socket peer (.inv outpoints)) transcript
  | unserved {socket : Nat} {peer : PeerId} {outpoint : Outpoint}
      {answer : StoreCall.Answer (.payload outpoint)} (h : ∀ body, answer ≠ .ok (some body)) :
      Fulfils (.session socket peer (.getData outpoint)) [⟨.store (.payload outpoint), answer⟩]
  | served {socket : Nat} {peer : PeerId} {outpoint : Outpoint} {body : Bytes} {sent : Bool} :
      Fulfils (.session socket peer (.getData outpoint))
        [⟨.store (.payload outpoint), .ok (some body)⟩, ⟨.reply (.data body), sent⟩]
  | undecodable {socket : Nat} {peer : PeerId} {body : Bytes} {cause : Message.Error}
      (h : Message.decode body = .error cause) : Fulfils (.session socket peer (.data body)) []
  | relayed {errand : Errand} {message : Message} {outpoint : Admission → Outpoint}
      {transcript : List (Answered SessionRequest.Answer)} (hcarries : errand.Carries message)
      (houtpoint : ∀ admission, admission.outpoint = message.outpoint →
        outpoint admission = message.outpoint)
      (h : Session.Relayed errand.source message outpoint transcript) :
      Fulfils errand transcript

theorem runs_of_comes_map {α β : Type} {f : α → β} {r : Routine SessionRequest.Answer α} {y : β}
    (h : Comes (f <$> r) transcript (.done y)) :
    ∃ x, Runs Recites r transcript x [] := by
  have hruns : Runs Recites (r >>= fun x => pure (f x)) transcript y [] := Routine.comes_done.mp h
  obtain ⟨x, middle, hr, hdone⟩ := Routine.runs_bind.mp hruns
  obtain ⟨-, rfl⟩ := Routine.runs_pure.mp hdone
  exact ⟨x, hr⟩

theorem fulfils_of_comes {ending : Ending} (h : errand.routine.Comes transcript (.done ending)) :
    errand.Fulfils transcript := by
  cases errand with
  | submission message =>
      obtain ⟨x, hruns⟩ := runs_of_comes_map h
      exact .relayed rfl (fun _ h => h) (Session.runs_submit hruns)
  | session socket peer frame =>
      obtain ⟨x, hruns⟩ := runs_of_comes_map h
      cases frame with
      | inv outpoints => exact .requested (Session.runs_requestMissing hruns)
      | getData outpoint =>
          rcases Session.runs_serveMessage hruns with ⟨answer, hanswer, rfl⟩ | ⟨body, sent, rfl⟩
          · exact .unserved hanswer
          · exact .served
      | data body =>
          rcases Session.runs_receiveMessage hruns with ⟨cause, hcause, rfl⟩ |
            ⟨message, hdecode, hrelayed⟩
          · exact .undecodable hcause
          · exact .relayed hdecode (fun _ _ => rfl) hrelayed

/-! ## Beginnings -/

/-- What has been said on an errand so far. -/
inductive Begins : Errand → List (Answered SessionRequest.Answer) → Prop
  | start (errand : Errand) : Begins errand []
  | requesting {socket : Nat} {peer : PeerId} {outpoints : List Outpoint}
      {transcript : List (Answered SessionRequest.Answer)}
      (h : ∀ said ∈ transcript, ∃ o ∈ outpoints,
        said.question = .store (.has o) ∨ said.question = .reply (.getData o)) :
      Begins (.session socket peer (.inv outpoints)) transcript
  | asked {socket : Nat} {peer : PeerId} {outpoint : Outpoint}
      {answer : StoreCall.Answer (.payload outpoint)} :
      Begins (.session socket peer (.getData outpoint)) [⟨.store (.payload outpoint), answer⟩]
  | served {socket : Nat} {peer : PeerId} {outpoint : Outpoint} {body : Bytes} {sent : Bool} :
      Begins (.session socket peer (.getData outpoint))
        [⟨.store (.payload outpoint), .ok (some body)⟩, ⟨.reply (.data body), sent⟩]
  | decided {errand : Errand} {message : Message} (hcarries : errand.Carries message)
      {result : Except Rejection Admission} : Begins errand [⟨.decide message, result⟩]
  | cached {errand : Errand} {message : Message} (hcarries : errand.Carries message)
      {admission : Admission} {outpoint : Outpoint}
      (houtpoint : admission.outpoint = message.outpoint → outpoint = message.outpoint)
      {answer : StoreCall.Answer (.putPayload outpoint message.encode)} :
      Begins errand
        [⟨.decide message, .ok admission⟩, ⟨.store (.putPayload outpoint message.encode), answer⟩]
  | announced {errand : Errand} {message : Message} (hcarries : errand.Carries message)
      {admission : Admission} {outpoint : Outpoint}
      (houtpoint : admission.outpoint = message.outpoint → outpoint = message.outpoint) :
      Begins errand
        [⟨.decide message, .ok admission⟩,
          ⟨.store (.putPayload outpoint message.encode), .ok true⟩,
          ⟨.announce errand.source outpoint, ()⟩]

theorem Fulfils.begins {whole : List (Answered SessionRequest.Answer)} (h : errand.Fulfils whole)
    (hwithin : transcript <+: whole) : errand.Begins transcript := by
  have hinit := (List.mem_inits transcript whole).mpr hwithin
  cases h with
  | requested h => exact .requesting fun said hsaid => h.question said (hwithin.subset hsaid)
  | unserved h =>
      simp only [List.inits, List.map_cons, List.map_nil, List.mem_cons, List.not_mem_nil,
        or_false] at hinit
      rcases hinit with rfl | rfl
      · exact .start _
      · exact .asked
  | served =>
      simp only [List.inits, List.map_cons, List.map_nil, List.mem_cons, List.not_mem_nil,
        or_false] at hinit
      rcases hinit with rfl | rfl | rfl
      · exact .start _
      · exact .asked
      · exact .served
  | undecodable h =>
      obtain rfl := List.prefix_nil.mp hwithin
      exact .start _
  | relayed hcarries houtpoint h =>
      cases h with
      | rejected rejection =>
          simp only [List.inits, List.map_cons, List.map_nil, List.mem_cons, List.not_mem_nil,
            or_false] at hinit
          rcases hinit with rfl | rfl
          · exact .start _
          · exact .decided hcarries
      | uncached admission answer hanswer =>
          simp only [List.inits, List.map_cons, List.map_nil, List.mem_cons, List.not_mem_nil,
            or_false] at hinit
          rcases hinit with rfl | rfl | rfl
          · exact .start _
          · exact .decided hcarries
          · exact .cached hcarries (houtpoint admission)
      | announced admission =>
          simp only [List.inits, List.map_cons, List.map_nil, List.mem_cons, List.not_mem_nil,
            or_false] at hinit
          rcases hinit with rfl | rfl | rfl | rfl
          · exact .start _
          · exact .decided hcarries
          · exact .cached hcarries (houtpoint admission)
          · exact .announced hcarries (houtpoint admission)

theorem begins_of_comes {rest : Routine SessionRequest.Answer Ending}
    (h : errand.routine.Comes transcript rest) : errand.Begins transcript := by
  obtain ⟨whole, ending, hwhole, hwithin⟩ := h.exists_done
  exact (fulfils_of_comes hwhole).begins hwithin

/-- Why something is said on an errand. -/
inductive Warrants (errand : Errand) (transcript : List (Answered SessionRequest.Answer)) :
    Answered SessionRequest.Answer → Prop
  | lookUp {socket : Nat} {peer : PeerId} {outpoints : List Outpoint} {o : Outpoint}
      {answer : StoreCall.Answer (.has o)}
      (herrand : errand = .session socket peer (.inv outpoints))
      (ho : o ∈ outpoints) : Warrants errand transcript ⟨.store (.has o), answer⟩
  | request {socket : Nat} {peer : PeerId} {outpoints : List Outpoint} {o : Outpoint} {sent : Bool}
      (herrand : errand = .session socket peer (.inv outpoints)) (ho : o ∈ outpoints) :
      Warrants errand transcript ⟨.reply (.getData o), sent⟩
  | fetch {socket : Nat} {peer : PeerId} {o : Outpoint} {answer : StoreCall.Answer (.payload o)}
      (herrand : errand = .session socket peer (.getData o)) :
      Warrants errand transcript ⟨.store (.payload o), answer⟩
  | deliver {socket : Nat} {peer : PeerId} {o : Outpoint} {body : Bytes} {sent : Bool}
      (herrand : errand = .session socket peer (.getData o))
      (hfetched : ⟨.store (.payload o), .ok (some body)⟩ ∈ transcript) :
      Warrants errand transcript ⟨.reply (.data body), sent⟩
  | decide {message : Message} {result : Except Rejection Admission}
      (hcarries : errand.Carries message) : Warrants errand transcript ⟨.decide message, result⟩
  | cache {message : Message} {admission : Admission} {o : Outpoint}
      {answer : StoreCall.Answer (.putPayload o message.encode)}
      (ho : admission.outpoint = message.outpoint → o = message.outpoint)
      (hdecided : ⟨.decide message, .ok admission⟩ ∈ transcript) :
      Warrants errand transcript ⟨.store (.putPayload o message.encode), answer⟩
  | announce {o : Outpoint} {payload : Bytes}
      (hcached : ⟨.store (.putPayload o payload), .ok true⟩ ∈ transcript) :
      Warrants errand transcript ⟨.announce errand.source o, ()⟩

theorem Begins.warrants (h : errand.Begins transcript) {said : Answered SessionRequest.Answer}
    (hsaid : said ∈ transcript) : errand.Warrants transcript said := by
  cases h with
  | start => cases hsaid
  | requesting hquestion =>
      obtain ⟨question, answer⟩ := said
      obtain ⟨o, ho, hq | hq⟩ := hquestion _ hsaid
      · obtain rfl : question = _ := hq
        exact .lookUp rfl ho
      · obtain rfl : question = _ := hq
        exact .request rfl ho
  | asked =>
      obtain rfl := List.mem_singleton.mp hsaid
      exact .fetch rfl
  | served =>
      simp only [List.mem_cons, List.not_mem_nil, or_false] at hsaid
      rcases hsaid with rfl | rfl
      · exact .fetch rfl
      · exact .deliver rfl List.mem_cons_self
  | decided hcarries =>
      obtain rfl := List.mem_singleton.mp hsaid
      exact .decide hcarries
  | cached hcarries houtpoint =>
      simp only [List.mem_cons, List.not_mem_nil, or_false] at hsaid
      rcases hsaid with rfl | rfl
      · exact .decide hcarries
      · exact .cache houtpoint List.mem_cons_self
  | announced hcarries houtpoint =>
      simp only [List.mem_cons, List.not_mem_nil, or_false] at hsaid
      rcases hsaid with rfl | rfl | rfl
      · exact .decide hcarries
      · exact .cache houtpoint List.mem_cons_self
      · exact .announce (List.mem_cons_of_mem _ List.mem_cons_self)

end Errand

end ChatRelay
