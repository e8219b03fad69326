import ChatRelay.Proofs.Holdings
import ChatRelay.Proofs.Chain

/-!
# How requests are served

A request is performed by the store, or answered by the ledger, or it fails. A store that fails
says so with an error of its own and leaves its records as they are. Which store calls may fail
and what the ledger may answer is left open. What holds of every service of contents holds of
every backend, seen through its contents.
-/

namespace ChatRelay

variable {o : Outpoint} {σ τ : Type} {performs : (call : StoreCall) → σ → call.Answer → σ → Prop}
  {fails : StoreCall → Prop} {answers : (call : LedgerCall) → call.Answer → Prop}

/-- How a request may be answered from a state of the store, and what the state is afterwards. -/
def Request.Served (performs : (call : StoreCall) → σ → call.Answer → σ → Prop)
    (fails : StoreCall → Prop) (answers : (call : LedgerCall) → call.Answer → Prop) :
    (request : Request) → σ → request.Answer → σ → Prop
  | .store call, before, answer, after =>
    performs call before answer after ∨
      (fails call ∧ (∃ cause, (∀ outpoint, cause ≠ .alreadyPresent outpoint) ∧
        answer = .error cause) ∧ after = before)
  | .ledger call, before, answer, after => answers call answer ∧ after = before

/-- A service seen through a view of the state. -/
theorem Request.Served.map (view : σ → τ)
    {allowed : (call : StoreCall) → τ → call.Answer → τ → Prop}
    (hperforms : ∀ call s answer t, performs call s answer t →
      allowed call (view s) answer (view t))
    {request : Request} {s t : σ} {answer : request.Answer}
    (h : request.Served performs fails answers s answer t) :
    request.Served allowed fails answers (view s) answer (view t) := by
  cases request with
  | store call =>
      rcases h with h | ⟨hfails, hcause, rfl⟩
      · exact .inl (hperforms call s answer t h)
      · exact .inr ⟨hfails, hcause, rfl⟩
  | ledger call =>
      obtain ⟨hanswer, rfl⟩ := h
      exact ⟨hanswer, rfl⟩

/-- A store that fails never says that an outpoint is present. -/
theorem Request.Served.store {call : StoreCall} {s t : σ} {answer : call.Answer}
    (h : Request.Served performs fails answers (.store call) s answer t) :
    performs call s answer t ∨ (∃ cause, (∀ outpoint, cause ≠ .alreadyPresent outpoint) ∧
      answer = .error cause) ∧ t = s :=
  h.imp_right fun h => h.2

theorem Request.Served.performed {call : StoreCall} {s t : σ} {result : call.Result}
    (h : Request.Served performs fails answers (.store call) s (.ok result) t) :
    performs call s (.ok result) t := by
  rcases h with h | ⟨-, ⟨cause, -, h⟩, -⟩
  · exact h
  · cases h

/-- How requests are served from contents of a store. -/
abbrev Holdings.Serves (fails : StoreCall → Prop)
    (answers : (call : LedgerCall) → call.Answer → Prop) :
    (request : Request) → Holdings → request.Answer → Holdings → Prop :=
  Request.Served Holdings.Performs fails answers

namespace OutpointStore

variable (B : OutpointStore)

def Performs (call : StoreCall) (s : B.State) (answer : call.Answer) (t : B.State) : Prop :=
  (answer, t) = B.perform call s

/-- The backend, with a ledger that tells the truth about a chain and with no failures. -/
def serve (c : Chain) : (request : Request) → B.State → request.Answer × B.State
  | .store call, s => B.perform call s
  | .ledger call, s => (c.answer call, s)

/-- The backend, with a ledger that answers as it is given and with no failures. -/
def serveWith (ledger : (call : LedgerCall) → call.Answer) :
    (request : Request) → B.State → request.Answer × B.State
  | .store call, s => B.perform call s
  | .ledger call, s => (ledger call, s)

theorem serve_eq (c : Chain) : B.serve c = B.serveWith c.answer := by
  funext request s
  cases request <;> rfl

variable {B}

theorem Performs.holdings {call : StoreCall} {s t : B.State} {answer : call.Answer}
    (h : B.Performs call s answer t) :
    Holdings.Performs call (B.holdings s) answer (B.holdings t) := by
  have hperforms := B.performs call s
  rw [← h] at hperforms
  exact hperforms

theorem serve_served (c : Chain) (request : Request) (s : B.State) :
    Holdings.Serves (fun _ => False) (fun call answer => answer = c.answer call) request
      (B.holdings s) (B.serve c request s).1 (B.holdings (B.serve c request s).2) := by
  cases request with
  | store call => exact .inl (B.performs call s)
  | ledger call => exact ⟨rfl, rfl⟩

theorem serveWith_served {ledger : (call : LedgerCall) → call.Answer}
    (hledger : ∀ call, answers call (ledger call)) (request : Request) (s : B.State) :
    Holdings.Serves (fun _ => False) answers request (B.holdings s)
      (B.serveWith ledger request s).1 (B.holdings (B.serveWith ledger request s).2) := by
  cases request with
  | store call => exact .inl (B.performs call s)
  | ledger call => exact ⟨hledger call, rfl⟩

end OutpointStore

/-! ## What requests do to records -/

/-- Whether a request may remove outpoints from the store. -/
def Request.Removes : Request → Prop
  | .store (.remove _) | .store (.prune _) => True
  | _ => False

/-- The requests of a decision about an outpoint. -/
def Request.Decides (outpoint : Outpoint) (request : Request) : Prop :=
  request = .store (.has outpoint) ∨ request = .ledger (.output outpoint) ∨
    request = .store (.add outpoint)

variable {request : Request} {held after : Holdings} {answer : request.Answer}

theorem Request.Decides.mild (h : request.Decides o) : ¬ request.Removes := by
  rcases h with rfl | rfl | rfl <;> exact id

/-- Whether an outpoint is recorded changes only by a request that removes, or by adding it. -/
theorem Request.Served.recorded_eq
    (h : request.Served Holdings.Performs fails answers held answer after)
    (hmild : ¬ request.Removes) (hother : request ≠ .store (.add o)) :
    after.recorded o = held.recorded o := by
  cases request with
  | ledger call => rw [h.2]
  | store call =>
      rcases h.store with hperforms | ⟨-, rfl⟩
      · cases call with
        | remove _ => exact absurd trivial hmild
        | prune _ => exact absurd trivial hmild
        | add outpoint =>
            have hne : o ≠ outpoint := fun heq => hother (heq ▸ rfl)
            rw [Holdings.performs_add] at hperforms
            split at hperforms
            next => rw [hperforms.2]
            next => simp [hperforms.2, hne]
        | putPayload outpoint payload =>
            rw [hperforms.2]
            split
            next hpresent =>
              rw [Holdings.recorded_enter]
              by_cases heq : o = outpoint
              · simp [heq, hpresent]
              · simp [heq]
            next => rfl
        | setWatermark height =>
            rw [hperforms.2]
            rfl
        | _ => rw [hperforms.2]
      · rfl

/-- An outpoint is added only when it is not recorded, and then it is. -/
theorem Request.Served.added
    (h : Request.Served Holdings.Performs fails answers (.store (.add o)) held (.ok ()) after) :
    ¬ held.recorded o ∧ after.recorded o := by
  have hperforms := Holdings.performs_add.mp h.performed
  split at hperforms
  next => cases hperforms.1
  next hnew => exact ⟨hnew, by simp [hperforms.2]⟩

theorem Request.Served.not_added {cause : StoreError}
    (h : Request.Served Holdings.Performs fails answers (.store (.add o)) held (.error cause)
      after) : after = held := by
  rcases h.store with hperforms | ⟨-, rfl⟩
  · rw [Holdings.performs_add] at hperforms
    split at hperforms
    next => exact hperforms.2
    next => cases hperforms.1
  · rfl

/-- Only a request that removes takes an outpoint out of the store. -/
theorem Request.Served.recorded
    (h : request.Served Holdings.Performs fails answers held answer after)
    (hmild : ¬ request.Removes) (hrecorded : held.recorded o) : after.recorded o := by
  by_cases hadd : request = .store (.add o)
  · subst hadd
    cases answer with
    | ok _ => exact h.added.2
    | error cause => rwa [h.not_added]
  · rwa [h.recorded_eq hmild hadd]

/-- A prune that succeeds leaves of the recorded outpoints those that it does not name. -/
theorem Request.Served.pruned_iff {outpoints : List Outpoint} {pruned : List Pruned}
    (h : Request.Served Holdings.Performs fails answers (.store (.prune outpoints)) held
      (.ok pruned) after) : after.recorded o ↔ o ∉ outpoints ∧ held.recorded o := by
  simp [h.performed.2]

theorem Request.Served.not_pruned {outpoints : List Outpoint} {cause : StoreError}
    (h : Request.Served Holdings.Performs fails answers (.store (.prune outpoints)) held
      (.error cause) after) : after = held := by
  rcases h.store with ⟨hanswer, -⟩ | ⟨-, rfl⟩
  · cases hanswer
  · rfl

end ChatRelay
