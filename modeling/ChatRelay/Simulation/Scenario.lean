import ChatRelay.Simulation.World
import ChatRelay.Admission.Slots
import ChatRelay.Watcher

/-!
# Scenarios

A scenario lets admission and the watcher act on a scripted world, one step after the other. After
each step its outcome and the visible state can be read off.
-/

namespace ChatRelay.Simulation

/-- One step of a scenario. -/
inductive Step where
  | fund (outpoint : Outpoint) (output : LedgerOutput)
  | unfund (outpoint : Outpoint)
  | setBlock (block : LedgerBlock)
  | setEmptyBlocks (label : String) (first last : UInt64)
  | dropBlocks (height : UInt64)
  | setTip (height : Option UInt64)
  | setLedgerFault (call : String) (fault : Option LedgerError)
  | setStoreFault (call : String) (on : Bool)
  | store (call : StoreCall)
  /-- Removes outpoints and names those that were recorded. -/
  | removeAll (outpoints : List Outpoint)
  /-- Writes a record of a durable store past its operations. -/
  | writeRecord (tree : Tree) (key value : Bytes)
  /-- Opens the store again, with nothing but its contents kept. -/
  | reopen
  | admitMessage (message : Message) (claimed : Option OwnerKey)
  /-- Admits every message a number of times. -/
  | admitMany (messages : List Message) (times : Nat)
  | poll
  /-- Drops the watcher. The next one starts afresh. -/
  | restart
  /-- Lets the watcher poll a number of times by itself and then drops it. -/
  | runWatcher (polls : Nat)

/-- What came of a step. -/
inductive Outcome where
  | nothing
  | answered (call : StoreCall) (answer : call.Answer)
  | removed (answer : Except StoreError (List Outpoint))
  | decided (decision : Except Rejection Admission)
  | tally (decisions : List (Except Rejection Admission))
  | polled (summary : Except WatcherError PollSummary)
  | elapsed (seconds : Nat)

/-- The settings of a scenario. -/
structure ScenarioSettings where
  watcher : WatcherSettings
  /-- The seconds between two polls. -/
  interval : Nat

/-- The state of a scenario. -/
structure Scenario where
  settings : ScenarioSettings
  world : World
  slots : Slots
  watcher : Option Watcher

namespace Scenario

/-- A scenario in a new world. -/
def start (settings : ScenarioSettings) (backend : Backend) : Scenario :=
  ⟨settings, .ofBackend backend, .empty, none⟩

/-- Replaces the world. -/
def setWorld (s : Scenario) (world : World) : Scenario := { s with world }

/-- Changes the ledger. -/
def mapLedger (s : Scenario) (change : ScriptedLedger → ScriptedLedger) : Scenario :=
  s.setWorld (s.world.mapLedger change)

/-- Admits a message. -/
def admitMessage (s : Scenario) (message : Message) (claimed : Option OwnerKey) :
    Except Rejection Admission × Scenario :=
  let (decision, slots, world) := Admission.decideAlone World.serve message claimed s.slots s.world
  (decision, { s with slots, world })

/-- Admits messages in order. -/
def admitAll (s : Scenario) : List Message → List (Except Rejection Admission) × Scenario
  | [] => ([], s)
  | message :: rest =>
    let (decision, s) := s.admitMessage message none
    let (decisions, s) := s.admitAll rest
    (decision :: decisions, s)

/-- The watcher, made when it is first needed. -/
def currentWatcher (s : Scenario) : Watcher := s.watcher.getD (.start s.settings.watcher)

/-- Takes a step. -/
def step (s : Scenario) : Step → Outcome × Scenario
  | .fund outpoint output =>
    (.nothing, s.mapLedger fun l => { l with outputs := l.outputs.insert outpoint output })
  | .unfund outpoint =>
    (.nothing, s.mapLedger fun l => { l with outputs := l.outputs.erase outpoint })
  | .setBlock block => (.nothing, s.mapLedger (·.setBlock block))
  | .setEmptyBlocks label first last =>
    (.nothing, s.mapLedger (·.setEmptyBlocks label first (last.toNat + 1 - first.toNat)))
  | .dropBlocks height => (.nothing, s.mapLedger (·.dropBlocks height))
  | .setTip height => (.nothing, s.mapLedger fun l => { l with fixedTip := height })
  | .setLedgerFault call fault => (.nothing, s.mapLedger (·.setFault call fault))
  | .setStoreFault call on => (.nothing, s.setWorld (s.world.setStoreFault call on))
  | .store call =>
    let (answer, world) := s.world.serveStore call
    (.answered call answer, s.setWorld world)
  | .removeAll outpoints =>
    let (answer, world) := s.world.serveStore (.prune outpoints)
    (.removed (answer.map fun pruned => pruned.map (·.outpoint)), s.setWorld world)
  | .writeRecord tree key value =>
    match s.world.backend with
    | .memory _ => (.nothing, s)
    | .durable store =>
      let store := (DurableStore.serve (.insert tree key value) store).2
      (.nothing, s.setWorld { s.world with backend := .durable store })
  | .reopen =>
    (.nothing,
      { s with
        world := { s.world with storeFaults := [] }
        slots := .empty
        watcher := none })
  | .admitMessage message claimed =>
    let (decision, s) := s.admitMessage message claimed
    (.decided decision, s)
  | .admitMany messages times =>
    let (decisions, s) := s.admitAll (messages.flatMap fun message => List.replicate times message)
    (.tally decisions, s)
  | .poll =>
    let ((summary, watcher), world) := s.currentWatcher.poll.run World.serve s.world
    (.polled summary, { s.setWorld world with watcher := some watcher })
  | .restart => (.nothing, { s with watcher := none })
  | .runWatcher polls =>
    let (_, world) := (s.currentWatcher.polls polls).run World.serve s.world
    (.elapsed (Watcher.elapsed s.settings.interval polls), { s.setWorld world with watcher := none })

/-- The height up to which the watcher has scanned. -/
def watched (s : Scenario) : Option UInt64 := s.watcher.bind (·.lastHeight)

/-- What the store holds. -/
def contents (s : Scenario) : Contents := s.world.backend.contents

end Scenario

end ChatRelay.Simulation
