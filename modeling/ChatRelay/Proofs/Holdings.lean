import ChatRelay.Proofs.Executions
import ChatRelay.Request

/-!
# What a store holds

Whichever way a store keeps its records, what can be seen of it is which outpoints are recorded,
which message is cached for each, and the scanned height. A message can only be cached for a
recorded outpoint, so the two are one entry. Each operation is described by its answer and by
what is held after it; a backend is a store whose operations meet these descriptions.
-/

namespace ChatRelay

/-- The contents of a store: the entry of each recorded outpoint, which is the message cached for
it if there is one, and the scanned height. -/
@[ext]
structure Holdings where
  entries : Outpoint → Option (Option Bytes)
  watermark : Option UInt64

namespace Holdings

def recorded (held : Holdings) (outpoint : Outpoint) : Bool := (held.entries outpoint).isSome

def enter (held : Holdings) (outpoint : Outpoint) (entry : Option Bytes) : Holdings :=
  { held with entries := fun o => if o = outpoint then some entry else held.entries o }

def discard (held : Holdings) (outpoints : List Outpoint) : Holdings :=
  { held with entries := fun o => if o ∈ outpoints then none else held.entries o }

/-- The recorded ones among outpoints with their entries, each where it first appears. -/
def taken (held : Holdings) : List Outpoint → List Pruned
  | [] => []
  | outpoint :: rest =>
    match held.entries outpoint with
    | none => held.taken rest
    | some entry => ⟨outpoint, entry⟩ :: (held.discard [outpoint]).taken rest

/-- Gives an outpoint that is not recorded the entry that was taken from it. -/
def putBack (held : Holdings) (pruned : Pruned) : Holdings :=
  if held.recorded pruned.outpoint then held else held.enter pruned.outpoint pruned.payload

/-- What an operation answers and what is held after it. -/
def Performs : (call : StoreCall) → Holdings → call.Answer → Holdings → Prop
  | .has outpoint, held, answer, after => answer = .ok (held.recorded outpoint) ∧ after = held
  | .add outpoint, held, answer, after =>
    if held.recorded outpoint then answer = .error (.alreadyPresent outpoint) ∧ after = held
    else answer = .ok () ∧ after = held.enter outpoint none
  | .remove outpoint, held, answer, after => answer = .ok () ∧ after = held.discard [outpoint]
  | .prune outpoints, held, answer, after =>
    answer = .ok (held.taken outpoints) ∧ after = held.discard outpoints
  | .payload outpoint, held, answer, after =>
    answer = .ok (held.entries outpoint).join ∧ after = held
  | .putPayload outpoint payload, held, answer, after =>
    answer = .ok (held.recorded outpoint) ∧
      after = if held.recorded outpoint then held.enter outpoint (some payload) else held
  | .outpoints, held, answer, after =>
    (∃ outpoints : List Outpoint, answer = .ok outpoints ∧ outpoints.Nodup ∧
      ∀ o, o ∈ outpoints ↔ held.recorded o) ∧ after = held
  | .size, held, answer, after =>
    (∃ outpoints : List Outpoint, answer = .ok outpoints.length ∧ outpoints.Nodup ∧
      ∀ o, o ∈ outpoints ↔ held.recorded o) ∧ after = held
  | .watermark, held, answer, after => answer = .ok held.watermark ∧ after = held
  | .setWatermark height, held, answer, after =>
    answer = .ok () ∧ after = { held with watermark := some height }

end Holdings

/-- A store backend: its operations, and the contents that describe what they do. -/
structure OutpointStore where
  State : Type
  perform : (call : StoreCall) → State → call.Answer × State
  holdings : State → Holdings
  performs : ∀ call state,
    Holdings.Performs call (holdings state) (perform call state).1 (holdings (perform call state).2)

namespace Holdings

variable {held : Holdings} {outpoint other : Outpoint}

theorem performs_add {after : Holdings} {answer : StoreCall.Answer (.add outpoint)} :
    Performs (.add outpoint) held answer after ↔
      if held.recorded outpoint then answer = .error (.alreadyPresent outpoint) ∧ after = held
      else answer = .ok () ∧ after = held.enter outpoint none := Iff.rfl

@[simp] theorem recorded_enter (entry : Option Bytes) :
    (held.enter outpoint entry).recorded other = (other = outpoint || held.recorded other) := by
  by_cases h : other = outpoint <;> simp [recorded, enter, h]

@[simp] theorem recorded_discard (outpoints : List Outpoint) :
    (held.discard outpoints).recorded other = (other ∉ outpoints && held.recorded other) := by
  by_cases h : other ∈ outpoints <;> simp [recorded, discard, h]

theorem recorded_iff : held.recorded outpoint ↔ held.entries outpoint ≠ none := by
  simp [recorded, Option.isSome_iff_ne_none]

@[simp] theorem entries_enter (entry : Option Bytes) :
    (held.enter outpoint entry).entries other =
      if other = outpoint then some entry else held.entries other := rfl

@[simp] theorem watermark_enter (entry : Option Bytes) :
    (held.enter outpoint entry).watermark = held.watermark := rfl

theorem enter_enter (first second : Option Bytes) :
    (held.enter outpoint first).enter outpoint second = held.enter outpoint second := by
  ext1
  · funext other
    by_cases h : other = outpoint <;> simp [h]
  · rfl

@[simp] theorem entries_discard (outpoints : List Outpoint) :
    (held.discard outpoints).entries other =
      if other ∈ outpoints then none else held.entries other := rfl

@[simp] theorem watermark_discard (outpoints : List Outpoint) :
    (held.discard outpoints).watermark = held.watermark := rfl

@[simp] theorem discard_nil : held.discard [] = held := by
  ext1
  · funext other
    simp
  · rfl

theorem discard_cons (outpoints : List Outpoint) :
    held.discard (outpoint :: outpoints) = (held.discard [outpoint]).discard outpoints := by
  ext1
  · funext other
    by_cases h : other = outpoint <;> simp [h]
  · rfl

/-- Discarding an outpoint that is not recorded changes nothing. -/
theorem discard_absent (h : held.entries outpoint = none) : held.discard [outpoint] = held := by
  ext1
  · funext other
    by_cases heq : other = outpoint
    · simp [heq, h]
    · simp [heq]
  · rfl

theorem entries_putBack (pruned : Pruned) :
    (held.putBack pruned).entries other =
      (held.entries other).or (if other = pruned.outpoint then some pruned.payload else none) := by
  unfold putBack
  by_cases hrecorded : held.recorded pruned.outpoint
  · obtain ⟨entry, hentry⟩ := Option.isSome_iff_exists.mp hrecorded
    rw [if_pos hrecorded]
    by_cases hother : other = pruned.outpoint
    · simp [hother, hentry]
    · simp [hother]
  · rw [if_neg hrecorded]
    have hnone : held.entries pruned.outpoint = none := by simpa [recorded] using hrecorded
    by_cases hother : other = pruned.outpoint
    · simp [hother, hnone]
    · simp [hother]

@[simp] theorem watermark_putBack (pruned : Pruned) :
    (held.putBack pruned).watermark = held.watermark := by
  unfold putBack
  split <;> rfl

/-- What is taken is what was recorded, with the entry it had. -/
theorem mem_taken {pruned : Pruned} {outpoints : List Outpoint} :
    pruned ∈ held.taken outpoints ↔
      pruned.outpoint ∈ outpoints ∧ held.entries pruned.outpoint = some pruned.payload := by
  induction outpoints generalizing held with
  | nil => simp [taken]
  | cons first rest ih =>
      unfold taken
      split
      next hfirst =>
        rw [ih, List.mem_cons]
        constructor
        · exact fun h => ⟨.inr h.1, h.2⟩
        · rintro ⟨rfl | hrest, hentry⟩
          · simp [hfirst] at hentry
          · exact ⟨hrest, hentry⟩
      next entry hfirst =>
        rw [List.mem_cons, ih, List.mem_cons]
        by_cases heq : pruned.outpoint = first
        · obtain ⟨outpoint, payload⟩ := pruned
          subst heq
          simp [hfirst, eq_comm]
        · have hne : pruned ≠ ⟨first, entry⟩ := fun h => heq (congrArg Pruned.outpoint h)
          simp [heq, hne]

end Holdings

end ChatRelay
