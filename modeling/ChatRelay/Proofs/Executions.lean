import ChatRelay.Routine

/-!
# Executions of routines

An execution of a routine fixes how each of its questions was served. The relation leaves the
service open, so that one law covers every answer and every failure. Serving the questions from
a state gives one execution, which is how facts about all of them reach the running program.
-/

namespace ChatRelay.Routine

variable {Q : Type} {A : Q → Type} {α β σ τ : Type}

/-- The routine, begun in one state, may end with a result in another when each question is
served as `serves` allows. -/
inductive Runs (serves : (question : Q) → σ → A question → σ → Prop) :
    Routine A α → σ → α → σ → Prop
  | done (result : α) (state : σ) : Runs serves (.done result) state result state
  | ask {question : Q} {next : A question → Routine A α} {answer : A question}
      {before middle after : σ} {result : α} (served : serves question before answer middle)
      (rest : Runs serves (next answer) middle result after) :
      Runs serves (.ask question next) before result after

variable {serves : (question : Q) → σ → A question → σ → Prop}

@[simp] theorem runs_done {x y : α} {s t : σ} :
    Runs serves (.done x : Routine A α) s y t ↔ y = x ∧ t = s := by
  constructor
  · rintro ⟨⟩
    exact ⟨rfl, rfl⟩
  · rintro ⟨rfl, rfl⟩
    exact .done _ _

@[simp] theorem runs_pure {x y : α} {s t : σ} :
    Runs serves (pure x : Routine A α) s y t ↔ y = x ∧ t = s := runs_done

@[simp] theorem runs_ask {question : Q} {next : A question → Routine A α} {x : α} {s t : σ} :
    Runs serves (.ask question next) s x t ↔
      ∃ answer middle, serves question s answer middle ∧ Runs serves (next answer) middle x t := by
  constructor
  · rintro ⟨⟩
    exact ⟨_, _, ‹_›, ‹_›⟩
  · rintro ⟨answer, middle, served, rest⟩
    exact .ask served rest

/-- An execution of a sequence is one of each part, the second from where the first ended. -/
@[simp] theorem runs_bind {r : Routine A α} {f : α → Routine A β} {y : β} {s t : σ} :
    Runs serves (r >>= f) s y t ↔
      ∃ x middle, Runs serves r s x middle ∧ Runs serves (f x) middle y t := by
  change Runs serves (r.bind f) s y t ↔ _
  induction r generalizing s with
  | done result =>
      constructor
      · exact fun run => ⟨result, s, .done _ _, run⟩
      · rintro ⟨x, middle, first, second⟩
        obtain ⟨rfl, rfl⟩ := runs_done.mp first
        exact second
  | ask question next ih =>
      simp only [bind, runs_ask, ih]
      constructor
      · rintro ⟨answer, middle, served, x, last, first, second⟩
        exact ⟨x, last, ⟨answer, middle, served, first⟩, second⟩
      · rintro ⟨x, last, ⟨answer, middle, served, first⟩, second⟩
        exact ⟨answer, middle, served, x, last, first, second⟩

theorem runs_ask_bind {question : Q} {f : A question → Routine A β} {y : β} {s t : σ} :
    Runs serves (.ask question .done >>= f) s y t ↔
      ∃ answer middle, serves question s answer middle ∧ Runs serves (f answer) middle y t :=
  runs_ask

/-- Running a routine is one of its executions, seen through any view of the state for which the
service is an allowed one. -/
theorem runs_run (view : σ → τ) {allowed : (question : Q) → τ → A question → τ → Prop}
    {serve : (question : Q) → σ → A question × σ}
    (hserve : ∀ question state, allowed question (view state) (serve question state).1
      (view (serve question state).2))
    (r : Routine A α) (state : σ) :
    Runs allowed r (view state) (r.run serve state).1 (view (r.run serve state).2) := by
  induction r generalizing state with
  | done result => exact .done _ _
  | ask question next ih => exact .ask (hserve question state) (ih _ _)

/-- An execution seen through a view of the state is an execution with the service so seen. -/
theorem Runs.map (view : σ → τ) {allowed : (question : Q) → τ → A question → τ → Prop}
    (hserves : ∀ question state answer next, serves question state answer next →
      allowed question (view state) answer (view next))
    {r : Routine A α} {s t : σ} {x : α} (run : Runs serves r s x t) :
    Runs allowed r (view s) x (view t) := by
  induction run with
  | done result state => exact .done _ _
  | ask served _ ih => exact .ask (hserves _ _ _ _ served) ih

end ChatRelay.Routine
