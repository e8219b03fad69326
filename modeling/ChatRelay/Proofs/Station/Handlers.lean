import ChatRelay.Proofs.Station.Errands

/-!
# Handlers stay on their errands

What a handler has said leads from the beginning of its errand to where it is, and what was asked
for a decision leads to its result. Handlers stay, and what they have said stays said.
-/

namespace ChatRelay

open Routine (Comes)

variable {B : OutpointStore} {fails : StoreCall → Prop}
  {answers : (call : LedgerCall) → call.Answer → Prop}

/-! ## Runs of admission -/

namespace AdmissionRun

/-- The phases that a run goes to by itself, and the surroundings then. -/
inductive Goes (serve : (request : Request) → B.State → request.Answer × B.State)
    (world : B.State) (run : AdmissionRun) : AdmissionPhase → AdmissionPhase → B.State → Prop
  | arrive (slot : Nat) : Goes serve world run .arriving (.waiting slot) world
  | wait (slot : Nat) : Goes serve world run (.waiting slot) (.waiting slot) world
  | enter (slot : Nat) :
      Goes serve world run (.waiting slot)
        (.inside slot (Admission.decide run.message run.claimed)) world
  | ask (slot : Nat) (request : Request)
      (next : request.Answer → Routine Request.Answer (Except Rejection Admission)) :
      Goes serve world run (.inside slot (.ask request next))
        (.inside slot (next (serve request world).1)) (serve request world).2
  | leave (slot : Nat) (result : Except Rejection Admission) :
      Goes serve world run (.inside slot (.done result)) (.leaving result) world
  | tidy (result : Except Rejection Admission) :
      Goes serve world run (.leaving result) (.finished result) world
  | stay (result : Except Rejection Admission) :
      Goes serve world run (.finished result) (.finished result) world

variable {serve : (request : Request) → B.State → request.Answer × B.State}
  {slots slots' : Slots} {world world' : B.State} {run after : AdmissionRun}

theorem goes_of_step
    (h : (⟨slots, world, [run]⟩ : Admissions B.State).step serve 0 = ⟨slots', world', [after]⟩) :
    after = { run with phase := after.phase } ∧
      Goes serve world run run.phase after.phase world' := by
  have hrun : (⟨slots, world, [run]⟩ : Admissions B.State).runs[0]? = some run := rfl
  -- the only run is the one that the step moves
  have hset : ∀ slots' world' phase,
      (⟨slots', world', [run]⟩ : Admissions B.State).setPhase 0 phase =
        ⟨slots', world', [{ run with phase }]⟩ := fun _ _ _ => rfl
  cases hphase : run.phase with
  | arriving =>
      rw [Admissions.step_arriving hrun hphase, hset] at h
      cases h
      exact ⟨rfl, .arrive _⟩
  | waiting slot =>
      by_cases hoccupied : slot ∈ slots.occupied
      · rw [Admissions.step_blocked hrun hphase hoccupied] at h
        cases h
        rw [hphase]
        exact ⟨by rw [← hphase], .wait slot⟩
      · rw [Admissions.step_waiting hrun hphase hoccupied, hset] at h
        cases h
        exact ⟨rfl, .enter slot⟩
  | inside slot rest =>
      cases rest with
      | done result =>
          rw [Admissions.step_deciding hrun hphase, hset] at h
          cases h
          exact ⟨rfl, .leave slot result⟩
      | ask request next =>
          rw [Admissions.step_asking hrun hphase, hset] at h
          cases h
          exact ⟨rfl, .ask slot request next⟩
  | leaving result =>
      rw [Admissions.step_leaving hrun hphase, hset] at h
      cases h
      exact ⟨rfl, .tidy result⟩
  | finished result =>
      rw [Admissions.step_finished hrun hphase] at h
      cases h
      rw [hphase]
      exact ⟨by rw [← hphase], .stay result⟩

/-- What has been asked for a run leads to where it is. -/
def Accounts (run : AdmissionRun) (exchanges : List Exchange) : Prop :=
  match run.phase with
  | .arriving | .waiting _ => exchanges = []
  | .inside _ rest =>
    Comes (Admission.decide run.message run.claimed) (exchanges.map (·.said)) rest
  | .leaving result | .finished result =>
    Comes (Admission.decide run.message run.claimed) (exchanges.map (·.said)) (.done result)

theorem Accounts.step {exchanges : List Exchange} (h : run.Accounts exchanges)
    (hstep : (⟨slots, world, [run]⟩ : Admissions B.State).step serve 0 =
      ⟨slots', world', [after]⟩) :
    after.Accounts (exchanges ++ run.exchanged serve world) := by
  obtain ⟨hafter, hgoes⟩ := goes_of_step hstep
  rw [hafter]
  clear hafter hstep
  obtain ⟨message, claimed, phase⟩ := run
  generalize after.phase = phase' at hgoes ⊢
  cases hgoes with
  | arrive slot => exact (List.append_nil exchanges).trans h
  | wait slot => exact (List.append_nil exchanges).trans h
  | enter slot =>
      obtain rfl : exchanges = [] := h
      exact .refl _
  | ask slot request next =>
      have hask := Comes.ask h (serve request world).1
      simpa [Accounts, exchanged] using hask
  | leave slot result => simpa [Accounts, exchanged] using h
  | tidy result => simpa [Accounts, exchanged] using h
  | stay result => simpa [Accounts, exchanged] using h

/-- Requests of a run are served as requests may be. -/
theorem served_of_exchanged
    (hserve : ∀ request : Request, request.Served B.Performs fails answers world
      (serve request world).1 (serve request world).2)
    {e : Exchange} (he : e ∈ run.exchanged serve world) : e.Served fails answers := by
  unfold exchanged at he
  split at he
  next request _ _ =>
    obtain rfl := List.mem_singleton.mp he
    exact (hserve request).map B.holdings fun _ _ _ _ => OutpointStore.Performs.holdings
  next => cases he

end AdmissionRun

/-! ## Handlers -/

namespace Handler

/-- What a handler has said leads to where it is, and each of its decisions to its result. -/
structure Coherent (fails : StoreCall → Prop)
    (answers : (call : LedgerCall) → call.Answer → Prop) (handler : Handler) : Prop where
  stage : match handler.stage with
    | .running rest => handler.errand.routine.Comes handler.transcript rest
    | .deciding run exchanges next =>
      handler.errand.routine.Comes handler.transcript (.ask (.decide run.message) next) ∧
        run.claimed = none ∧ run.Accounts exchanges ∧ ∀ e ∈ exchanges, e.Served fails answers
  decision : ∀ d ∈ handler.decisions, Admission.Decided d.message d.exchanges d.result
  served : ∀ d ∈ handler.decisions, ∀ e ∈ d.exchanges, e.Served fails answers
  decided : ∀ message result, ⟨.decide message, result⟩ ∈ handler.transcript ↔
    ∃ d ∈ handler.decisions, d.message = message ∧ d.result = result

/-- A step of a handler. -/
inductive Advances (fails : StoreCall → Prop)
    (answers : (call : LedgerCall) → call.Answer → Prop) : Handler → Handler → Prop
  | hear {handler : Handler} (question : SessionRequest) (answer : question.Answer)
      (next : question.Answer → Routine SessionRequest.Answer Ending)
      (hstage : handler.stage = .running (.ask question next))
      (hquestion : ∀ message, question ≠ .decide message) :
      Advances fails answers handler (handler.hear ⟨question, answer⟩ (next answer))
  | announce {handler : Handler} (source : Option PeerId) (outpoint : Outpoint)
      (audience : List (PeerId × Nat)) (next : Unit → Routine SessionRequest.Answer Ending)
      (hstage : handler.stage = .running (.ask (.announce source outpoint) next)) :
      Advances fails answers handler (handler.announce source outpoint audience (next ()))
  | decide {handler : Handler} (message : Message)
      (next : Except Rejection Admission → Routine SessionRequest.Answer Ending)
      (hstage : handler.stage = .running (.ask (.decide message) next)) :
      Advances fails answers handler
        { handler with stage := .deciding ⟨message, none, .arriving⟩ [] next }
  | proceed {handler : Handler} {run after : AdmissionRun} {exchanges asked : List Exchange}
      (next : Except Rejection Admission → Routine SessionRequest.Answer Ending)
      (hstage : handler.stage = .deciding run exchanges next)
      (hmessage : after.message = run.message) (hclaimed : after.claimed = run.claimed)
      (haccounts : run.Accounts exchanges → after.Accounts (exchanges ++ asked))
      (hasked : ∀ e ∈ asked, e.Served fails answers) :
      Advances fails answers handler
        { handler with stage := .deciding after (exchanges ++ asked) next }
  | conclude {handler : Handler} {run : AdmissionRun} {exchanges : List Exchange}
      (next : Except Rejection Admission → Routine SessionRequest.Answer Ending)
      (result : Except Rejection Admission)
      (hstage : handler.stage = .deciding run exchanges next)
      (hphase : run.phase = .finished result) :
      Advances fails answers handler
        (handler.conclude ⟨run.message, exchanges, result⟩ (next result))

theorem coherent_begin (errand : Errand) : (Handler.begin errand).Coherent fails answers where
  stage := .refl _
  decision := by simp [begin]
  served := by simp [begin]
  decided := by simp [begin]

/-- Questions other than for a decision leave the decisions as they were. -/
theorem mem_decide_append {transcript : List (Answered SessionRequest.Answer)}
    {said : Answered SessionRequest.Answer} (hsaid : ∀ message, said.question ≠ .decide message)
    {message : Message} {result : Except Rejection Admission} :
    ⟨.decide message, result⟩ ∈ transcript ++ [said] ↔ ⟨.decide message, result⟩ ∈ transcript := by
  rw [List.mem_append, List.mem_singleton, or_iff_left]
  rintro rfl
  exact hsaid message rfl

theorem Coherent.advance {handler after : Handler} (h : handler.Coherent fails answers)
    (hadvances : Advances fails answers handler after) : after.Coherent fails answers := by
  obtain ⟨hstage, hdecision, hasked, hdecided⟩ := h
  cases hadvances with
  | hear question answer next hrunning hquestion =>
      rw [hrunning] at hstage
      exact ⟨hstage.ask answer, hdecision, hasked, fun message result =>
        (mem_decide_append hquestion).trans (hdecided message result)⟩
  | announce source outpoint audience next hrunning =>
      rw [hrunning] at hstage
      exact ⟨hstage.ask (), hdecision, hasked, fun message result =>
        (mem_decide_append (by simp)).trans (hdecided message result)⟩
  | decide message next hrunning =>
      rw [hrunning] at hstage
      exact ⟨⟨hstage, rfl, rfl, by simp⟩, hdecision, hasked, hdecided⟩
  | proceed next hdeciding hmessage hclaimed haccounts hserved' =>
      rw [hdeciding] at hstage
      obtain ⟨hcomes, hnone, hrun, hserved⟩ := hstage
      exact ⟨⟨hmessage ▸ hcomes, hclaimed.trans hnone, haccounts hrun,
        List.forall_mem_append.mpr ⟨hserved, hserved'⟩⟩, hdecision, hasked, hdecided⟩
  | conclude next result hdeciding hphase =>
      rw [hdeciding] at hstage
      obtain ⟨hcomes, hnone, hrun, hserved⟩ := hstage
      simp only [AdmissionRun.Accounts, hphase, hnone] at hrun
      refine ⟨hcomes.ask result, List.forall_mem_append.mpr ⟨hdecision, ?_⟩,
        List.forall_mem_append.mpr ⟨hasked, by simpa using hserved⟩, ?_⟩
      · simpa using Admission.decided_of_comes hserved hrun
      · intro message result'
        simp only [conclude, List.mem_append, List.mem_singleton, hdecided, or_and_right,
          exists_or, exists_eq_left]
        refine or_congr_right ⟨?_, ?_⟩
        · intro h
          cases h
          exact ⟨rfl, rfl⟩
        · rintro ⟨rfl, rfl⟩
          rfl

namespace Coherent

variable {handler : Handler} (h : handler.Coherent fails answers)

include h

theorem begins : handler.errand.Begins handler.transcript := by
  have hstage := h.stage
  split at hstage
  · exact Errand.begins_of_comes hstage
  · exact Errand.begins_of_comes hstage.1

/-- Only the message of the errand is decided. -/
theorem carries {d : Decision} (hd : d ∈ handler.decisions) : handler.errand.Carries d.message := by
  have hsaid := (h.decided d.message d.result).mpr ⟨d, hd, rfl, rfl⟩
  cases h.begins.warrants hsaid with
  | decide hcarries => exact hcarries

/-- Only an admitted message is cached, in its encoded form. -/
theorem cached {o : Outpoint} {b : Bytes} {answer : StoreCall.Answer (.putPayload o b)}
    (hsaid : ⟨.store (.putPayload o b), answer⟩ ∈ handler.transcript) :
    ∃ d ∈ handler.decisions, ∃ admission, d.result = .ok admission ∧ d.message.outpoint = o ∧
      d.message.encode = b := by
  cases h.begins.warrants hsaid with
  | cache ho hdecided =>
      obtain ⟨d, hd, rfl, hresult⟩ := (h.decided _ _).mp hdecided
      have hadmitted := h.decision d hd
      rw [hresult] at hadmitted
      exact ⟨d, hd, _, hresult, (ho (hadmitted.eq_ok_iff.mp rfl).1).symm, rfl⟩

/-- A handler announces, to all but its source, what it has cached. -/
theorem announced {source : Option PeerId} {o : Outpoint}
    (hsaid : ⟨.announce source o, ()⟩ ∈ handler.transcript) :
    source = handler.errand.source ∧
      ∃ b, ⟨.store (.putPayload o b), .ok true⟩ ∈ handler.transcript := by
  cases h.begins.warrants hsaid with
  | announce hcached => exact ⟨rfl, _, hcached⟩

/-- A session replies to an announcement by requests for what was announced, and to a request by
what is cached. -/
theorem replied {frame : Frame} {sent : Bool} (hsaid : ⟨.reply frame, sent⟩ ∈ handler.transcript) :
    (∃ socket peer outpoints, handler.errand = .session socket peer (.inv outpoints) ∧
        ∃ o ∈ outpoints, frame = .getData o) ∨
      ∃ socket peer o b, handler.errand = .session socket peer (.getData o) ∧ frame = .data b ∧
        ⟨.store (.payload o), .ok (some b)⟩ ∈ handler.transcript := by
  cases h.begins.warrants hsaid with
  | request herrand ho => exact .inl ⟨_, _, _, herrand, _, ho, rfl⟩
  | deliver herrand hfetched => exact .inr ⟨_, _, _, _, herrand, rfl, hfetched⟩

end Coherent

/-- What has been asked for the decisions of a handler, also for one on its way. -/
def exchanges (handler : Handler) : List Exchange :=
  handler.decisions.flatMap (·.exchanges) ++
    match handler.stage with
    | .running _ => []
    | .deciding _ exchanges _ => exchanges

/-- Whether a decision on its way is about to ask something. -/
def Asks (handler : Handler) (request : Request) : Prop :=
  ∃ run exchanges next slot rest, handler.stage = .deciding run exchanges next ∧
    run.phase = .inside slot (.ask request rest)

/-- A decision asks about its outpoint and adds it. -/
theorem Coherent.decides {handler : Handler} (h : handler.Coherent fails answers)
    {request : Request} (hasks : handler.Asks request) : ∃ o, request.Decides o := by
  obtain ⟨run, exchanges, next, slot, rest, hdeciding, hphase⟩ := hasks
  have hstage := h.stage
  rw [hdeciding] at hstage
  obtain ⟨-, -, haccounts, -⟩ := hstage
  simp only [AdmissionRun.Accounts, hphase] at haccounts
  exact ⟨_, (haccounts.asks (Admission.asks_decide _ _)).1⟩

/-- A handler stays on its errand, and what it has said stays said. -/
structure Grows (handler after : Handler) : Prop where
  errand : after.errand = handler.errand
  transcript : handler.transcript <+: after.transcript
  decisions : handler.decisions <+: after.decisions

theorem Grows.refl (handler : Handler) : handler.Grows handler :=
  ⟨rfl, List.prefix_refl _, List.prefix_refl _⟩

theorem Advances.grows {handler after : Handler} (h : Advances fails answers handler after) :
    handler.Grows after := by
  cases h with
  | hear => exact ⟨rfl, List.prefix_append _ _, List.prefix_refl _⟩
  | announce => exact ⟨rfl, List.prefix_append _ _, List.prefix_refl _⟩
  | decide => exact ⟨rfl, List.prefix_refl _, List.prefix_refl _⟩
  | proceed => exact ⟨rfl, List.prefix_refl _, List.prefix_refl _⟩
  | conclude => exact ⟨rfl, List.prefix_append _ _, List.prefix_append _ _⟩

end Handler

end ChatRelay
