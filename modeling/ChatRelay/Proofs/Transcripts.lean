import ChatRelay.Proofs.Interference

/-!
# Transcripts of routines

A transcript is what a routine has asked so far, with the answers it was given. A routine is
followed along a transcript from question to question; what it has left to do after a transcript
says how it may go on. A transcript that leaves nothing to do is a whole run of the routine.
-/

namespace ChatRelay

/-- A question with its answer. -/
structure Answered {Q : Type} (A : Q → Type) where
  question : Q
  answer : A question

namespace Routine

variable {Q : Type} {A : Q → Type} {α β : Type}

/-- By asking what the transcript says and being so answered, the routine comes to another that is
left to do. -/
inductive Comes : Routine A α → List (Answered A) → Routine A α → Prop
  | refl (r : Routine A α) : Comes r [] r
  | head {question : Q} {next : A question → Routine A α} {answer : A question}
      {transcript : List (Answered A)} {rest : Routine A α}
      (h : Comes (next answer) transcript rest) :
      Comes (.ask question next) (⟨question, answer⟩ :: transcript) rest

/-- How a question is answered that is read off a transcript. -/
def Recites (question : Q) (said : List (Answered A)) (answer : A question)
    (left : List (Answered A)) : Prop :=
  said = ⟨question, answer⟩ :: left

variable {r rest : Routine A α} {transcript later : List (Answered A)} {x : α}

theorem Comes.append {last : Routine A α} (h : Comes r transcript rest)
    (hlater : Comes rest later last) : Comes r (transcript ++ later) last := by
  induction h with
  | refl r => exact hlater
  | head h ih => exact .head (ih hlater)

/-- The next question is answered. -/
theorem Comes.ask {question : Q} {next : A question → Routine A α}
    (h : Comes r transcript (.ask question next)) (answer : A question) :
    Comes r (transcript ++ [⟨question, answer⟩]) (next answer) :=
  h.append (.head (.refl _))

/-- A routine that is done asks nothing. -/
theorem Comes.of_done (h : Comes (.done x) transcript rest) : transcript = [] ∧ rest = .done x := by
  cases h
  exact ⟨rfl, rfl⟩

/-- What is left of a routine asks nothing new. -/
theorem Comes.asks {allowed : Q → Prop} (h : Comes r transcript rest) (hasks : r.Asks allowed) :
    rest.Asks allowed := by
  induction h with
  | refl r => exact hasks
  | head h ih => exact ih (hasks.2 _)

/-- What a routine asks for is what it may ask for. -/
theorem Comes.forall_asks {allowed : Q → Prop} (h : Comes r transcript rest)
    (hasks : r.Asks allowed) : ∀ said ∈ transcript, allowed said.question := by
  induction h with
  | refl r => simp
  | head h ih => exact List.forall_mem_cons.mpr ⟨hasks.1, ih (hasks.2 _)⟩

/-- A routine that begins with a question is still at it, or goes on with some answer to it. -/
theorem Comes.of_ask {question : Q} {f : A question → Routine A β} {rest : Routine A β}
    (h : Comes (.ask question .done >>= f) transcript rest) :
    transcript = [] ∨
      ∃ answer later, transcript = ⟨question, answer⟩ :: later ∧ Comes (f answer) later rest := by
  change Comes (.ask question f) transcript rest at h
  cases h with
  | refl => exact .inl rfl
  | head h => exact .inr ⟨_, _, rfl, h⟩

/-- A sequence is still at its first routine, or has come through it and is at the second one. -/
theorem Comes.of_bind {f : α → Routine A β} {rest : Routine A β}
    (h : Comes (r >>= f) transcript rest) :
    (∃ middle, Comes r transcript middle) ∨
      ∃ first second x, transcript = first ++ second ∧ Comes r first (.done x) ∧
        Comes (f x) second rest := by
  change Comes (r.bind f) transcript rest at h
  induction r generalizing transcript with
  | done x => exact .inr ⟨[], transcript, x, rfl, .refl _, h⟩
  | ask question next ih =>
      cases h with
      | refl => exact .inl ⟨_, .refl _⟩
      | head h =>
          rcases ih _ h with ⟨middle, hfirst⟩ | ⟨first, second, x, rfl, hfirst, hsecond⟩
          · exact .inl ⟨middle, .head hfirst⟩
          · exact .inr ⟨_ :: first, second, x, rfl, .head hfirst, hsecond⟩

/-- Whole runs are executions in which every answer is read off the transcript. -/
theorem comes_done : Comes r transcript (.done x) ↔ Runs Recites r transcript x [] := by
  constructor
  · intro h
    generalize hdone : Routine.done x = rest at h
    induction h with
    | refl r =>
        subst hdone
        exact .done _ _
    | head h ih => exact .ask rfl (ih hdone)
  · intro h
    generalize hnil : ([] : List (Answered A)) = left at h
    induction h with
    | done result said =>
        subst hnil
        exact .refl _
    | ask served rest ih =>
        rw [served]
        exact .head (ih hnil)

/-- Wherever it has come to, a routine can be answered on until it is done. -/
theorem exists_comes_done [∀ question, Nonempty (A question)] (r : Routine A α) :
    ∃ transcript x, Comes r transcript (.done x) := by
  induction r with
  | done result => exact ⟨[], result, .refl _⟩
  | ask question next ih =>
      obtain ⟨answer⟩ := ‹∀ question, Nonempty (A question)› question
      obtain ⟨transcript, x, h⟩ := ih answer
      exact ⟨_, x, .head h⟩

/-- Every transcript begins a whole run. -/
theorem Comes.exists_done [∀ question, Nonempty (A question)] (h : Comes r transcript rest) :
    ∃ whole x, Comes r whole (.done x) ∧ transcript <+: whole := by
  obtain ⟨later, x, hlater⟩ := exists_comes_done rest
  exact ⟨transcript ++ later, x, h.append hlater, List.prefix_append _ _⟩

end Routine

end ChatRelay
