/-!
# Routines

A routine is what one task does: it asks its surroundings questions one at a time and goes on with
the answers, until it is done. Each question is one atomic step of the task; between two of them
other tasks may act. Serving the questions from a state runs a routine alone, from beginning to end.
-/

namespace ChatRelay

/-- A task that asks questions of type `Q`, whose answers have the types given by `A`, and ends with
an `α`. -/
inductive Routine {Q : Type} (A : Q → Type) (α : Type) where
  | done (result : α)
  | ask (question : Q) (next : A question → Routine A α)

namespace Routine

variable {Q Q' : Type} {A : Q → Type} {A' : Q' → Type} {α β γ σ : Type}

/-- Goes on with a second routine. -/
def bind (r : Routine A α) (next : α → Routine A β) : Routine A β :=
  match r with
  | done result => next result
  | ask question rest => ask question fun answer => (rest answer).bind next

instance : Monad (Routine A) where
  pure := done
  bind := bind

/-- Runs a routine alone, with the answers taken from a state. -/
def run (serve : (question : Q) → σ → A question × σ) : Routine A α → σ → α × σ
  | done result, state => (result, state)
  | ask question next, state =>
    let served := serve question state
    (next served.1).run serve served.2

/-- A routine among surroundings that know its questions by other names. -/
def embed (name : Q → Q') (answer : (question : Q) → A' (name question) → A question) :
    Routine A α → Routine A' α
  | done result => done result
  | ask question next => ask (name question) fun given => (next (answer question given)).embed name answer

/-- Runs a routine in a monad. -/
def runM {m : Type → Type} [Monad m] (serve : (question : Q) → m (A question)) :
    Routine A α → m α
  | done result => pure result
  | ask question next => do
    let answer ← serve question
    (next answer).runM serve

@[simp] theorem run_done (serve : (question : Q) → σ → A question × σ) (result : α) (state : σ) :
    (done result : Routine A α).run serve state = (result, state) := rfl

@[simp] theorem run_ask (serve : (question : Q) → σ → A question × σ) (question : Q)
    (next : A question → Routine A α) (state : σ) :
    (ask question next).run serve state =
      (next (serve question state).1).run serve (serve question state).2 := rfl

/-- Running a sequence runs its parts one after the other. -/
theorem run_bind (serve : (question : Q) → σ → A question × σ) (r : Routine A α)
    (next : α → Routine A β) (state : σ) :
    (r.bind next).run serve state =
      (next (r.run serve state).1).run serve (r.run serve state).2 := by
  induction r generalizing state with
  | done result => rfl
  | ask question rest ih => exact ih _ _

@[simp] theorem run_pure (serve : (question : Q) → σ → A question × σ) (result : α) (state : σ) :
    (pure result : Routine A α).run serve state = (result, state) := rfl

@[simp] theorem run_seq (serve : (question : Q) → σ → A question × σ) (r : Routine A α)
    (next : α → Routine A β) (state : σ) :
    (r >>= next).run serve state = (next (r.run serve state).1).run serve (r.run serve state).2 :=
  run_bind serve r next state

theorem bind_done (r : Routine A α) : r.bind done = r := by
  induction r with
  | done result => rfl
  | ask question rest ih => simp only [bind, ih]

theorem bind_assoc (r : Routine A α) (f : α → Routine A β) (g : β → Routine A γ) :
    (r.bind f).bind g = r.bind fun x => (f x).bind g := by
  induction r with
  | done result => rfl
  | ask question rest ih => simp only [bind, ih]

instance : LawfulMonad (Routine A) :=
  LawfulMonad.mk' (Routine A) bind_done (fun _ _ => rfl) bind_assoc

end Routine

end ChatRelay
