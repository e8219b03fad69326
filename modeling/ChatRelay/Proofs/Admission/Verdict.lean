import ChatRelay.Proofs.Admission.Ownership
import ChatRelay.Proofs.Relay
import ChatRelay.Proofs.Transcripts

/-!
# What a decision comes to

A decision asks whether the outpoint is recorded, then what the ledger shows for it, then records
it. Others may change the store between two of these requests. The first answer that stands in the
way ends the decision and gives the rejection; if none does, the message is admitted. Only the
recording that succeeds changes the store.
-/

namespace ChatRelay

open Routine (Comes)

/-- A request with its answer, and what the store held before and after it. -/
structure Exchange where
  said : Answered Request.Answer
  before : Holdings
  after : Holdings

namespace Exchange

def Served (fails : StoreCall → Prop) (answers : (call : LedgerCall) → call.Answer → Prop)
    (e : Exchange) : Prop :=
  e.said.question.Served Holdings.Performs fails answers e.before e.said.answer e.after

end Exchange

/-- A call that fails is answered by an error. -/
def Answered.Failed (said : Answered Request.Answer) : Prop :=
  match said with
  | ⟨.store _, answer⟩ => ∃ cause, answer = .error cause
  | ⟨.ledger _, answer⟩ => ∃ cause, answer = .error cause

namespace Admission

variable {fails : StoreCall → Prop} {answers : (call : LedgerCall) → call.Answer → Prop}

theorem asks_decide (message : Message) (claimed : Option OwnerKey) :
    (decide message claimed).Asks (Request.Decides message.outpoint) := by
  apply Routine.Asks.ask (.inl rfl)
  intro answer
  rcases answer with cause | seen
  · trivial
  cases seen with
  | true => trivial
  | false =>
      apply Routine.Asks.ask (.inr (.inl rfl))
      intro answer
      rcases answer with cause | output
      · trivial
      dsimp only
      split
      next => trivial
      next =>
        apply Routine.Asks.ask (.inr (.inr rfl))
        intro answer
        rcases answer with cause | _
        · cases cause <;> trivial
        · trivial

/-- An answer that stands in the way of a message, and the rejection that it gives. -/
inductive Rejects (message : Message) : Answered Request.Answer → Rejection → Prop
  | unread {cause : StoreError} :
      Rejects message ⟨.store (.has message.outpoint), .error cause⟩ (.storeUnavailable cause)
  | seen : Rejects message ⟨.store (.has message.outpoint), .ok true⟩ .alreadySeen
  | unanswered {cause : LedgerError} :
      Rejects message ⟨.ledger (.output message.outpoint), .error cause⟩ (.ledgerUnavailable cause)
  | refused {output : Option LedgerOutput} {rejection : Rejection}
      (h : Refuses message output rejection) :
      Rejects message ⟨.ledger (.output message.outpoint), .ok output⟩ rejection
  /-- Somebody else has recorded the outpoint since it was asked about. -/
  | raced {other : Outpoint} :
      Rejects message ⟨.store (.add message.outpoint), .error (.alreadyPresent other)⟩ .alreadySeen
  | unrecorded {cause : StoreError} (h : ∀ other, cause ≠ .alreadyPresent other) :
      Rejects message ⟨.store (.add message.outpoint), .error cause⟩ (.storeUnavailable cause)

/-- A whole decision: what was asked and answered while the store held what it did, and the result.
An outpoint is recorded when the decision says so, and it is new when it is found to be. -/
inductive Decided (message : Message) : List Exchange → Except Rejection Admission → Prop
  | known {answer : StoreCall.Answer (.has message.outpoint)} {rejection : Rejection}
      {first : Holdings} (hfirst : answer = .ok true → first.recorded message.outpoint)
      (h : Rejects message ⟨.store (.has message.outpoint), answer⟩ rejection) :
      Decided message [⟨⟨.store (.has message.outpoint), answer⟩, first, first⟩] (.error rejection)
  | refused {answer : LedgerCall.Answer (.output message.outpoint)} {rejection : Rejection}
      {first second : Holdings} (hfirst : ¬ first.recorded message.outpoint)
      (h : Rejects message ⟨.ledger (.output message.outpoint), answer⟩ rejection) :
      Decided message
        [⟨⟨.store (.has message.outpoint), .ok false⟩, first, first⟩,
          ⟨⟨.ledger (.output message.outpoint), answer⟩, second, second⟩]
        (.error rejection)
  | unrecorded {admission : Admission} {script : Bytes}
      {answer : StoreCall.Answer (.add message.outpoint)} {rejection : Rejection}
      {first second third : Holdings} (hfirst : ¬ first.recorded message.outpoint)
      (hsigned : OwnerSigned message script admission.script admission.owner)
      (hthird : ∀ other, answer = .error (.alreadyPresent other) →
        third.recorded message.outpoint)
      (h : Rejects message ⟨.store (.add message.outpoint), answer⟩ rejection) :
      Decided message
        [⟨⟨.store (.has message.outpoint), .ok false⟩, first, first⟩,
          ⟨⟨.ledger (.output message.outpoint), .ok (some ⟨script, false⟩)⟩, second, second⟩,
          ⟨⟨.store (.add message.outpoint), answer⟩, third, third⟩]
        (.error rejection)
  | admitted {admission : Admission} {script : Bytes} {first second third : Holdings}
      (hfirst : ¬ first.recorded message.outpoint)
      (houtpoint : admission.outpoint = message.outpoint)
      (hsigned : OwnerSigned message script admission.script admission.owner)
      (hthird : ¬ third.recorded message.outpoint) :
      Decided message
        [⟨⟨.store (.has message.outpoint), .ok false⟩, first, first⟩,
          ⟨⟨.ledger (.output message.outpoint), .ok (some ⟨script, false⟩)⟩, second, second⟩,
          ⟨⟨.store (.add message.outpoint), .ok ()⟩, third, third.enter message.outpoint none⟩]
        (.ok admission)

variable {message : Message} {log : List Exchange} {result : Except Rejection Admission}

/-- How exchanges that begin with a given one split. -/
theorem exists_of_map_said {said : Answered Request.Answer}
    {left : List (Answered Request.Answer)} (h : log.map (·.said) = said :: left)
    (hserved : ∀ e ∈ log, e.Served fails answers) :
    ∃ before after rest, log = ⟨said, before, after⟩ :: rest ∧ rest.map (·.said) = left ∧
      said.question.Served Holdings.Performs fails answers before said.answer after ∧
      ∀ e ∈ rest, e.Served fails answers := by
  obtain ⟨⟨said', before, after⟩, rest, rfl, rfl, hrest⟩ := List.map_eq_cons_iff.mp h
  obtain ⟨hfirst, hlater⟩ := List.forall_mem_cons.mp hserved
  exact ⟨before, after, rest, rfl, hrest, hfirst, hlater⟩

/-- Asking whether an outpoint is recorded tells the truth or fails. -/
theorem served_has {o : Outpoint} {answer : StoreCall.Answer (.has o)} {held after : Holdings}
    (h : Request.Served Holdings.Performs fails answers (.store (.has o)) held answer after) :
    after = held ∧ ∀ known, answer = .ok known → held.recorded o = known := by
  rcases h.store with ⟨rfl, rfl⟩ | ⟨⟨cause, -, rfl⟩, rfl⟩
  · exact ⟨rfl, fun known hknown => Except.ok.inj hknown⟩
  · exact ⟨rfl, fun known hknown => by cases hknown⟩

/-- An outpoint that is said to be recorded when it is to be added is so. -/
theorem served_add_error {o : Outpoint} {cause : StoreError} {held after : Holdings}
    (h : Request.Served Holdings.Performs fails answers (.store (.add o)) held (.error cause)
      after) {other : Outpoint} (hcause : cause = .alreadyPresent other) : held.recorded o := by
  rcases h.store with hperforms | ⟨⟨cause', hne, heq⟩, -⟩
  · rw [Holdings.performs_add] at hperforms
    split at hperforms
    next hrecorded => exact hrecorded
    next => cases hperforms.1
  · obtain rfl := Except.error.inj heq
    exact absurd hcause (hne other)

theorem decided_of_comes (hserved : ∀ e ∈ log, e.Served fails answers)
    (h : Comes (decide message none) (log.map (·.said)) (.done result)) :
    Decided message log result := by
  -- first the question whether the outpoint is recorded
  obtain ⟨answer, left, hsaid, hknown⟩ := Routine.runs_ask_bind.mp (Routine.comes_done.mp h)
  obtain ⟨first, after, rest, rfl, rfl, hhas, hlater⟩ := exists_of_map_said hsaid hserved
  obtain ⟨rfl, hrecorded⟩ := served_has hhas
  rcases answer with cause | known
  · obtain ⟨rfl, hrest⟩ := Routine.runs_pure.mp hknown
    obtain rfl := List.map_eq_nil_iff.mp hrest.symm
    exact .known (fun h => by cases h) .unread
  cases known with
  | true =>
      obtain ⟨rfl, hrest⟩ := Routine.runs_pure.mp hknown
      obtain rfl := List.map_eq_nil_iff.mp hrest.symm
      exact .known (fun _ => hrecorded true rfl) .seen
  | false =>
      have hfirst : ¬ after.recorded message.outpoint := by simp [hrecorded false rfl]
      -- then what the ledger shows
      obtain ⟨answer, left, hsaid, hshown⟩ := Routine.runs_ask_bind.mp hknown
      obtain ⟨second, middle, rest, rfl, rfl, ⟨-, rfl⟩, hlast⟩ := exists_of_map_said hsaid hlater
      rcases answer with cause | output
      · obtain ⟨rfl, hrest⟩ := Routine.runs_pure.mp hshown
        obtain rfl := List.map_eq_nil_iff.mp hrest.symm
        exact .refused hfirst .unanswered
      dsimp only at hshown
      cases hjudge : judge message none output with
      | error rejection =>
          rw [hjudge] at hshown
          obtain ⟨rfl, hrest⟩ := Routine.runs_pure.mp hshown
          obtain rfl := List.map_eq_nil_iff.mp hrest.symm
          exact .refused hfirst (.refused (judge_eq_error_iff.mp hjudge))
      | ok admission =>
          rw [hjudge] at hshown
          obtain ⟨houtpoint, script, rfl, hsigned⟩ := judge_eq_ok_iff.mp hjudge
          -- and last the recording
          obtain ⟨answer, left, hsaid, hadded⟩ := Routine.runs_ask_bind.mp hshown
          obtain ⟨third, last, rest, rfl, rfl, hadd, -⟩ := exists_of_map_said hsaid hlast
          rcases answer with cause | _
          · obtain rfl := hadd.not_added
            have hthird : ∀ other, Except.error (α := Unit) cause = .error (.alreadyPresent other) →
                last.recorded message.outpoint :=
              fun other hcause => served_add_error hadd (Except.error.inj hcause)
            cases cause with
            | alreadyPresent other =>
                obtain ⟨rfl, hrest⟩ := Routine.runs_pure.mp hadded
                obtain rfl := List.map_eq_nil_iff.mp hrest.symm
                exact .unrecorded hfirst hsigned hthird .raced
            | _ =>
                obtain ⟨rfl, hrest⟩ := Routine.runs_pure.mp hadded
                obtain rfl := List.map_eq_nil_iff.mp hrest.symm
                exact .unrecorded hfirst hsigned hthird (.unrecorded fun other => by simp)
          · obtain ⟨rfl, hrest⟩ := Routine.runs_pure.mp hadded
            obtain rfl := List.map_eq_nil_iff.mp hrest.symm
            have hthird : ¬ third.recorded message.outpoint := hadd.added.1
            obtain ⟨-, rfl⟩ : _ ∧ last = third.enter message.outpoint none := by
              have hperforms := Holdings.performs_add.mp hadd.performed
              rwa [if_neg hthird] at hperforms
            exact .admitted hfirst houtpoint hsigned hthird

/-- What is shown of an output that its owner signed does not stand in the way. -/
theorem not_rejects_of_ownerSigned {script : Bytes} {kind : ScriptKind} {owner : OwnerKey}
    (hsigned : OwnerSigned message script kind owner) {rejection : Rejection} :
    ¬ Rejects message ⟨.ledger (.output message.outpoint), .ok (some ⟨script, false⟩)⟩
      rejection := by
  intro h
  cases h with
  | refused hrefuses =>
      have hjudge := judge_of_refuses hrefuses
      rw [judge_of_ownerSigned hsigned] at hjudge
      cases hjudge

/-- An answer gives at most one rejection. -/
theorem Rejects.unique {said : Answered Request.Answer} {first second : Rejection}
    (hfirst : Rejects message said first) (hsecond : Rejects message said second) :
    first = second := by
  cases hfirst with
  | unread => cases hsecond; rfl
  | seen => cases hsecond; rfl
  | unanswered => cases hsecond; rfl
  | refused h =>
      cases hsecond with
      | refused h' =>
          exact Except.error.inj ((judge_of_refuses h).symm.trans (judge_of_refuses h'))
  | raced =>
      cases hsecond with
      | raced => rfl
      | unrecorded h => exact absurd rfl (h _)
  | unrecorded h =>
      cases hsecond with
      | raced => exact absurd rfl (h _)
      | unrecorded h' => rfl

namespace Decided

theorem exists_rejects {rejection : Rejection} (h : Decided message log (.error rejection)) :
    ∃ earlier last, log = earlier ++ [last] ∧ Rejects message last.said rejection ∧
      ∀ e ∈ earlier, ∀ other, ¬ Rejects message e.said other := by
  have hnew : ∀ other, ¬ Rejects message ⟨.store (.has message.outpoint), .ok false⟩ other := by
    intro other h
    cases h
  cases h with
  | known hfirst h => exact ⟨[], _, rfl, h, by simp⟩
  | refused hfirst h => exact ⟨[_], _, rfl, h, by simpa using hnew⟩
  | unrecorded hfirst hsigned hthird h =>
      refine ⟨[_, _], _, rfl, h, ?_⟩
      simp only [List.forall_mem_cons, List.not_mem_nil, false_imp_iff, implies_true, and_true]
      exact ⟨hnew, fun other => not_rejects_of_ownerSigned hsigned⟩

theorem not_rejects {admission : Admission} (h : Decided message log (.ok admission))
    {e : Exchange} (he : e ∈ log) (rejection : Rejection) :
    ¬ Rejects message e.said rejection := by
  cases h with
  | admitted hfirst houtpoint hsigned hthird =>
      simp only [List.mem_cons, List.not_mem_nil, or_false] at he
      rcases he with rfl | rfl | rfl
      · intro h
        cases h
      · exact not_rejects_of_ownerSigned hsigned
      · intro h
        cases h

variable (h : Decided message log result)

include h

theorem questions_prefix : log.map (·.said.question) <+:
    [.store (.has message.outpoint), .ledger (.output message.outpoint),
      .store (.add message.outpoint)] := by
  cases h <;> simp

/-- A message is admitted exactly if no call fails, no store call finds its outpoint recorded, and
the ledger shows an unspent output whose owner signed it. -/
theorem eq_ok_iff {admission : Admission} : result = .ok admission ↔
    admission.outpoint = message.outpoint ∧ (∀ e ∈ log, ¬ e.said.Failed) ∧
      (∀ e ∈ log, ∀ call, e.said.question = .store call → ¬ e.before.recorded message.outpoint) ∧
      ∃ e ∈ log, ∃ script,
        e.said = ⟨.ledger (.output message.outpoint), .ok (some ⟨script, false⟩)⟩ ∧
        OwnerSigned message script admission.script admission.owner := by
  constructor
  · rintro rfl
    cases h with
    | admitted hfirst houtpoint hsigned hthird =>
        refine ⟨houtpoint, ?_, ?_, _, List.mem_cons_of_mem _ List.mem_cons_self, _, rfl, hsigned⟩
        · simp [Answered.Failed]
        · simp [hfirst, hthird]
  · rintro ⟨houtpoint, hanswered, hnew, e, he, script, hsaid, hsigned⟩
    cases h with
    | @known answer rejection first hfirst h =>
        simp only [List.mem_singleton] at he
        rw [he] at hsaid
        cases hsaid
    | refused hfirst h =>
        simp only [List.mem_cons, List.not_mem_nil, or_false] at he
        rcases he with rfl | rfl
        · cases hsaid
        · cases hsaid
          exact absurd h (not_rejects_of_ownerSigned hsigned)
    | unrecorded hfirst hsigned' hthird h =>
        simp only [List.forall_mem_cons] at hanswered
        -- whatever stands in the way of recording is an error
        cases h <;> exact absurd ⟨_, rfl⟩ hanswered.2.2.1
    | @admitted admission' script' first second third hfirst houtpoint' hsigned' hthird =>
        simp only [List.mem_cons, List.not_mem_nil, or_false] at he
        rcases he with rfl | rfl | rfl
        · cases hsaid
        · cases hsaid
          exact (judge_eq_ok_iff.mpr ⟨houtpoint', script, rfl, hsigned'⟩).symm.trans
            (judge_eq_ok_iff.mpr ⟨houtpoint, script, rfl, hsigned⟩)
        · cases hsaid

theorem eq_error_iff {rejection : Rejection} : result = .error rejection ↔
    ∃ earlier last, log = earlier ++ [last] ∧ Rejects message last.said rejection ∧
      ∀ e ∈ earlier, ∀ other, ¬ Rejects message e.said other := by
  constructor
  · rintro rfl
    exact h.exists_rejects
  · rintro ⟨earlier, last, rfl, hlast, -⟩
    cases result with
    | ok admission => exact absurd hlast (h.not_rejects (by simp) rejection)
    | error rejection' =>
        obtain ⟨earlier', last', hsplit, hlast', -⟩ := h.exists_rejects
        obtain ⟨-, hsame⟩ := List.append_inj' hsplit rfl
        obtain rfl := List.singleton_inj.mp hsame
        rw [hlast.unique hlast']

/-- Only the recording that admits the message changes the store. -/
theorem after_eq {e : Exchange} (he : e ∈ log) :
    e.after = if e.said.question = .store (.add message.outpoint) ∧ result.isOk then
      e.before.enter message.outpoint none else e.before := by
  cases h <;> simp only [List.mem_cons, List.not_mem_nil, or_false] at he
  case known => simp [he, Except.isOk, Except.toBool]
  case refused => rcases he with rfl | rfl <;> simp [Except.isOk, Except.toBool]
  case unrecorded => rcases he with rfl | rfl | rfl <;> simp [Except.isOk, Except.toBool]
  case admitted => rcases he with rfl | rfl | rfl <;> simp [Except.isOk, Except.toBool]

end Decided

/-- A decision admits exactly an unused outpoint whose unspent output is owned by the signer.
Otherwise the first answer in the way gives the rejection, and the store stays as it is. -/
theorem decide_exactly_owned (hserved : ∀ e ∈ log, e.Served fails answers)
    (hcomes : Comes (decide message none) (log.map (·.said)) (.done result)) :
    log.map (·.said.question) <+: [.store (.has message.outpoint),
        .ledger (.output message.outpoint), .store (.add message.outpoint)] ∧
      (∀ admission, result = .ok admission ↔
        admission.outpoint = message.outpoint ∧ (∀ e ∈ log, ¬ e.said.Failed) ∧
          (∀ e ∈ log, ∀ call, e.said.question = .store call →
            ¬ e.before.recorded message.outpoint) ∧
          ∃ e ∈ log, ∃ script,
            e.said = ⟨.ledger (.output message.outpoint), .ok (some ⟨script, false⟩)⟩ ∧
            OwnerSigned message script admission.script admission.owner) ∧
      (∀ rejection, result = .error rejection ↔
        ∃ earlier last, log = earlier ++ [last] ∧ Rejects message last.said rejection ∧
          ∀ e ∈ earlier, ∀ other, ¬ Rejects message e.said other) ∧
      ∀ e ∈ log, e.after =
        if e.said.question = .store (.add message.outpoint) ∧ result.isOk then
          e.before.enter message.outpoint none else e.before := by
  have hdecided := decided_of_comes hserved hcomes
  exact ⟨hdecided.questions_prefix, fun admission => hdecided.eq_ok_iff,
    fun rejection => hdecided.eq_error_iff, fun e he => hdecided.after_eq he⟩

/-- What the sample output's owner is known by. -/
def sampleAdmission : Admission :=
  ⟨sampleOutpoint, .taproot (FixedBytes.ofNat 32 Curve.generator.x),
    .schnorr ⟨Curve.generator, rfl⟩⟩

def sampleScript : Bytes := ScriptKind.taprootScript (FixedBytes.ofNat 32 Curve.generator.x)

theorem sampleMessage_signed :
    OwnerSigned sampleMessage sampleScript sampleAdmission.script sampleAdmission.owner :=
  .taproot (by decide +kernel) (by decide +kernel)

/-- The sample message on its way into an empty store, in which somebody else has recorded another
outpoint before the recording. -/
def sampleDecision (other : Outpoint) : List Exchange :=
  let empty : Holdings := ⟨fun _ => none, none⟩
  [⟨⟨.store (.has sampleOutpoint), .ok false⟩, empty, empty⟩,
    ⟨⟨.ledger (.output sampleOutpoint), .ok (some ⟨sampleScript, false⟩)⟩, empty, empty⟩,
    ⟨⟨.store (.add sampleOutpoint), .ok ()⟩, empty.enter other none,
      (empty.enter other none).enter sampleOutpoint none⟩]

theorem decide_exactly_owned_sample :
    let log := sampleDecision ⟨FixedBytes.replicate 32 8, 8⟩
    (∀ e ∈ log, e.Served (fun _ => False) fun call answer => answer = sampleChain.answer call) ∧
      Comes (decide sampleMessage none) (log.map (·.said)) (.done (.ok sampleAdmission)) ∧
      (∀ e ∈ log, ¬ e.said.Failed) ∧
      ∃ e ∈ log, ∃ script,
        e.said = ⟨.ledger (.output sampleOutpoint), .ok (some ⟨script, false⟩)⟩ ∧
        OwnerSigned sampleMessage script sampleAdmission.script sampleAdmission.owner := by
  intro log
  have hserved : ∀ e ∈ log,
      e.Served (fun _ => False) fun call answer => answer = sampleChain.answer call := by
    simp only [log, sampleDecision, List.forall_mem_cons, List.not_mem_nil, false_imp_iff,
      implies_true, and_true]
    exact ⟨.inl ⟨rfl, rfl⟩, ⟨rfl, rfl⟩, .inl ⟨rfl, rfl⟩⟩
  have hcomes : Comes (decide sampleMessage none) (log.map (·.said))
      (.done (.ok sampleAdmission)) := by
    refine .head (.head ?_)
    simp only [Routine.bind, judge_of_ownerSigned sampleMessage_signed]
    exact .head (.refl _)
  obtain ⟨-, hok, -, -⟩ := decide_exactly_owned hserved hcomes
  obtain ⟨-, hanswered, -, hsigned⟩ := (hok sampleAdmission).mp rfl
  exact ⟨hserved, hcomes, hanswered, hsigned⟩

end Admission

end ChatRelay
