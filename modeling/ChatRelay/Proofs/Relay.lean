import ChatRelay.Watcher
import ChatRelay.Proofs.Admission.Exclusion
import ChatRelay.Proofs.Backends.Memory
import ChatRelay.Proofs.Service
import Mathlib.Logic.Relation

/-!
# The relay at work

Admissions and one watcher share a store and a ledger whose chain only grows. Runs of admission,
requests of the watcher and new blocks may alternate in any way, and any request may fail. A log
records who asked what and how it was answered. Most laws need only what can be seen: the contents
of the store, the chain and the log.
-/

namespace ChatRelay

/-- Who asks for something. -/
inductive Asker where
  | admission (run : Nat)
  | watcher
  deriving DecidableEq, Repr

/-- A request that has been answered. -/
structure Event where
  asker : Asker
  request : Request
  answer : request.Answer

/-- What can be seen of a relay. -/
structure Scene where
  held : Holdings
  chain : Chain
  log : List Event

/-- How a request is answered in a scene, and the scene afterwards. -/
structure Scene.Serves (asker : Asker) (request : Request) (s : Scene) (answer : request.Answer)
    (t : Scene) : Prop where
  served : request.Served Holdings.Performs (fun _ => True) s.chain.Answers s.held answer t.held
  chain : t.chain = s.chain
  log : t.log = s.log ++ [⟨asker, request, answer⟩]

/-- A store and a ledger. -/
structure Surroundings (B : OutpointStore) where
  store : B.State
  chain : Chain

/-- How a request is answered, and the surroundings afterwards. -/
structure Surroundings.Serves {B : OutpointStore} (request : Request) (s : Surroundings B)
    (answer : request.Answer) (t : Surroundings B) : Prop where
  served : request.Served B.Performs (fun _ => True) s.chain.Answers s.store answer t.store
  chain : t.chain = s.chain

/-- The watcher between two polls or within one. -/
inductive WatcherTask where
  | resting (watcher : Watcher)
  | polling (rest : Routine Request.Answer (Watcher.Outcome PollSummary))

/-- The watcher, if it rests. -/
def WatcherTask.resting? : WatcherTask → Option Watcher
  | .resting w => some w
  | .polling _ => none

theorem WatcherTask.resting?_eq_some {task : WatcherTask} {w : Watcher} :
    task.resting? = some w ↔ task = .resting w := by
  cases task <;> simp [resting?]

/-- The admissions and the watcher around one store, with the log of all requests. -/
structure Relay (B : OutpointStore) where
  admissions : Admissions (Surroundings B)
  task : WatcherTask
  log : List Event

/-- Whether a run has ended with its message admitted. -/
def AdmissionRun.admitted (run : AdmissionRun) : Bool :=
  match run.phase with
  | .finished (.ok _) => true
  | _ => false

theorem AdmissionRun.finished_of_admitted {run : AdmissionRun} (h : run.admitted) :
    ∃ result, run.phase = .finished result := by
  unfold admitted at h
  split at h
  next hphase => exact ⟨_, hphase⟩
  next => cases h

/-- The event of a step that run `i` takes, if it asks for something. -/
def Admissions.asked {σ : Type} (a : Admissions σ)
    (serve : (request : Request) → σ → request.Answer × σ) (i : Nat) : List Event :=
  match a.runs[i]? with
  | some ⟨_, _, .inside _ (.ask request _)⟩ =>
    [⟨.admission i, request, (serve request a.world).1⟩]
  | _ => []

namespace Relay

variable {B : OutpointStore}

/-- Nothing is being admitted yet, and the watcher has not begun a poll. -/
def idle (surroundings : Surroundings B) (w : Watcher) : Relay B :=
  ⟨.idle surroundings, .resting w, []⟩

/-- What can be seen of a relay. -/
def scene (r : Relay B) : Scene :=
  ⟨B.holdings r.admissions.world.store, r.admissions.world.chain, r.log⟩

/-- One step of one task, or of the ledger. -/
inductive Step : Relay B → Relay B → Prop
  /-- A message is handed in. -/
  | enqueue (r : Relay B) (message : Message) (claimed : Option OwnerKey) :
      Step r { r with admissions := r.admissions.enqueue message claimed }
  | admission (r : Relay B) (i : Nat)
      (serve : (request : Request) → Surroundings B → request.Answer × Surroundings B)
      (hserve : ∀ request, Surroundings.Serves request r.admissions.world
        (serve request r.admissions.world).1 (serve request r.admissions.world).2) :
      Step r
        { r with
          admissions := r.admissions.step serve i
          log := r.log ++ r.admissions.asked serve i }
  | begin (r : Relay B) (w : Watcher) (htask : r.task = .resting w) :
      Step r { r with task := .polling w.poll }
  | watch (r : Relay B) (request : Request)
      (next : request.Answer → Routine Request.Answer (Watcher.Outcome PollSummary))
      (htask : r.task = .polling (.ask request next)) (answer : request.Answer)
      (world : Surroundings B)
      (hserved : Surroundings.Serves request r.admissions.world answer world) :
      Step r ⟨{ r.admissions with world }, .polling (next answer),
        r.log ++ [⟨.watcher, request, answer⟩]⟩
  | rest (r : Relay B) (outcome : Watcher.Outcome PollSummary)
      (htask : r.task = .polling (.done outcome)) :
      Step r { r with task := .resting outcome.2 }
  /-- The ledger has new blocks or new outputs. -/
  | grow (r : Relay B) (chain : Chain) (hgrows : r.admissions.world.chain.Grows chain) :
      Step r
        { r with admissions :=
          { r.admissions with world := { r.admissions.world with chain } } }

/-- Run `i` has ended with its message admitted under an outpoint. -/
def Admitted (r : Relay B) (i : Nat) (outpoint : Outpoint) : Prop :=
  ∃ run ∈ r.admissions.runs[i]?, run.message.outpoint = outpoint ∧ run.admitted

instance (r : Relay B) (i : Nat) (outpoint : Outpoint) : Decidable (r.Admitted i outpoint) :=
  match h : r.admissions.runs[i]? with
  | some run =>
    decidable_of_iff (run.message.outpoint = outpoint ∧ run.admitted) (by simp [Admitted, h])
  | none => .isFalse (by simp [Admitted, h])

theorem scene_serves {s t : Surroundings B} {request : Request} {answer : request.Answer}
    (h : Surroundings.Serves request s answer t) (asker : Asker) (log : List Event) :
    Scene.Serves asker request ⟨B.holdings s.store, s.chain, log⟩ answer
      ⟨B.holdings t.store, t.chain, log ++ [⟨asker, request, answer⟩]⟩ where
  served := h.served.map B.holdings fun _ _ _ _ => OutpointStore.Performs.holdings
  chain := h.chain
  log := rfl

end Relay

/-! ## Turns -/

/-- The surroundings with a ledger that tells the truth and with no failures. -/
def Surroundings.serve {B : OutpointStore} (request : Request) (s : Surroundings B) :
    request.Answer × Surroundings B :=
  match request with
  | .store call => ((B.perform call s.store).1, { s with store := (B.perform call s.store).2 })
  | .ledger call => (s.chain.answer call, s)

theorem Surroundings.serves_serve {B : OutpointStore} (request : Request) (s : Surroundings B) :
    Serves request s (serve request s).1 (serve request s).2 := by
  cases request with
  | store call => exact ⟨.inl rfl, rfl⟩
  | ledger call => exact ⟨⟨s.chain.answers_answer call, rfl⟩, rfl⟩

/-- Whose turn it is. -/
inductive Turn where
  | enqueue (message : Message) (claimed : Option OwnerKey)
  | admission (run : Nat)
  | watcher
  | block (block : LedgerBlock)

namespace Relay

variable {B : OutpointStore}

/-- The relay after a turn, with a ledger that tells the truth and with no failures. -/
def turn (r : Relay B) : Turn → Relay B
  | .enqueue message claimed => { r with admissions := r.admissions.enqueue message claimed }
  | .admission i =>
    { r with
      admissions := r.admissions.step Surroundings.serve i
      log := r.log ++ r.admissions.asked Surroundings.serve i }
  | .watcher =>
    match r.task with
    | .resting w => { r with task := .polling w.poll }
    | .polling (.ask request next) =>
      let served := Surroundings.serve request r.admissions.world
      ⟨{ r.admissions with world := served.2 }, .polling (next served.1),
        r.log ++ [⟨.watcher, request, served.1⟩]⟩
    | .polling (.done outcome) => { r with task := .resting outcome.2 }
  | .block block =>
    { r with admissions :=
      { r.admissions with world :=
        { r.admissions.world with chain := r.admissions.world.chain.extend block } } }

/-- The relay after a sequence of turns. -/
def turns (r : Relay B) (sequence : List Turn) : Relay B := sequence.foldl turn r

theorem step_turn (r : Relay B) (t : Turn) : r.Step (r.turn t) := by
  cases t with
  | enqueue message claimed => exact .enqueue r message claimed
  | admission i => exact .admission r i _ fun request => Surroundings.serves_serve request _
  | watcher =>
      cases htask : r.task with
      | resting w =>
          rw [turn, htask]
          exact .begin r w htask
      | polling rest =>
          cases rest with
          | done outcome =>
              rw [turn, htask]
              exact .rest r outcome htask
          | ask request next =>
              rw [turn, htask]
              exact .watch r request next htask _ _ (Surroundings.serves_serve request _)
  | block block => exact .grow r _ (Chain.grows_extend _ block)

/-- Turns are steps. -/
theorem reaches_turns (r : Relay B) (sequence : List Turn) :
    Relation.ReflTransGen Step r (r.turns sequence) := by
  induction sequence generalizing r with
  | nil => exact .refl
  | cons t rest ih => exact .head (step_turn r t) (ih (r.turn t))

end Relay

/-! ## A relay with one output -/

/-- An outpoint whose output the generator's key owns. -/
def sampleOutpoint : Outpoint := ⟨FixedBytes.replicate 32 7, 7⟩

/-- A message without a body, signed by the generator's key. -/
def sampleMessage : Message where
  outpoint := sampleOutpoint
  signature := ⟨Bytes.ofNat 32 0x00af05b390c37644b1e5359157da48d7b7618a0cb35e72c8f3a8471a526473a8 ++
    Bytes.ofNat 32 0x0c8739ca08e81b0b3008b40c936d66bc65e0e06397ad2c496fe7517eabc7ec51, by simp⟩
  payload := []
  length_payload_le := by decide

/-- A chain without spends in which the output exists. -/
def sampleChain : Chain where
  blocks := [⟨"h0", 0, []⟩]
  outputs o :=
    if o = sampleOutpoint then
      some (ScriptKind.taprootScript (FixedBytes.ofNat 32 Curve.generator.x))
    else none
  blocks_ne_nil := List.cons_ne_nil _ _
  length_le := by decide

/-- The block that spends the output. -/
def sampleSpend : LedgerBlock := ⟨"h1", 1, [⟨"t1", [some sampleOutpoint]⟩]⟩

/-- A relay with an empty store and a watcher that scans blocks. -/
def Relay.sample : Relay MemoryStore.backend :=
  .idle ⟨⟨MemoryStore.empty, MemoryStore.sound_empty⟩, sampleChain⟩ (Watcher.start ⟨6, true⟩)

end ChatRelay
