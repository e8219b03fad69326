import ChatRelay.Simulation.Ledger
import ChatRelay.Store.Memory
import ChatRelay.Store.Durable
import ChatRelay.Request

/-!
# A world to run in

A world has a scripted ledger and a store of either kind, whose operations can be made to fail. A
failing operation changes nothing.
-/

namespace ChatRelay.Simulation

/-- The contents of a store of either kind. -/
inductive Backend where
  | memory (store : MemoryStore)
  | durable (store : DurableStore)

namespace Backend

/-- Performs an operation. -/
def perform (call : StoreCall) : Backend → call.Answer × Backend
  | .memory store =>
    let (answer, store) := store.perform call
    (answer, .memory store)
  | .durable store =>
    let (answer, store) := store.perform call
    (answer, .durable store)

/-- What an operation answers, without keeping its effect. -/
def inspect (backend : Backend) (call : StoreCall) : call.Answer := (backend.perform call).1

end Backend

/-- The ledger, the store and the failing operations of the store. -/
structure World where
  ledger : ScriptedLedger
  backend : Backend
  storeFaults : List String

namespace World

/-- A world with an empty ledger. -/
def ofBackend (backend : Backend) : World := ⟨.empty, backend, []⟩

/-- The name of a store operation, if it can be made to fail. -/
def callName? : StoreCall → Option String
  | .has _ => some "has"
  | .add _ => some "add"
  | .remove _ => some "remove"
  | .prune _ => some "prune"
  | .payload _ => some "get_payload"
  | .putPayload _ _ => some "put_payload"
  | .outpoints => some "outpoints"
  | .size => none
  | .watermark => some "last_scanned_height"
  | .setWatermark _ => some "set_last_scanned_height"

/-- The failure of an operation. -/
def storeFault? (world : World) (call : StoreCall) : Option StoreError :=
  match callName? call with
  | none => none
  | some name =>
    if world.storeFaults.contains name then
      some (.databaseOperation ("injected " ++ name ++ " failure"))
    else none

/-- The fault under which the store finds no outpoint recorded. -/
def blindness : String := "blind"

/-- Serves an operation of the store. -/
def serveStore (world : World) (call : StoreCall) : call.Answer × World :=
  match world.storeFault? call with
  | some cause => (.error cause, world)
  | none =>
    let (answer, backend) := world.backend.perform call
    let answer : call.Answer :=
      match call, answer with
      | .has _, .ok present => .ok (present && !world.storeFaults.contains blindness)
      | _, answer => answer
    (answer, { world with backend })

/-- Serves a request. -/
def serve (request : Request) (world : World) : request.Answer × World :=
  match request with
  | .store call => world.serveStore call
  | .ledger call => (world.ledger.serve call, world)

/-- Makes an operation of the store fail, or fail no longer. -/
def setStoreFault (world : World) (name : String) (on : Bool) : World :=
  { world with
    storeFaults :=
      if on then name :: world.storeFaults else world.storeFaults.filter (· ≠ name) }

/-- Changes the ledger. -/
def mapLedger (world : World) (change : ScriptedLedger → ScriptedLedger) : World :=
  { world with ledger := change world.ledger }

end World

/-- What the store of a world holds, read around the faults. -/
structure Contents where
  watermark : Except StoreError (Option UInt64)
  size : Nat
  /-- The outpoints in order, each with the message cached for it. -/
  outpoints : Except StoreError (List (Outpoint × Option Bytes))

/-- Reads what a store holds. -/
def Backend.contents (backend : Backend) : Contents where
  watermark := backend.inspect .watermark
  size := ((backend.inspect .size).toOption).getD 0
  outpoints := do
    let outpoints ← backend.inspect .outpoints
    return (Outpoint.sort outpoints).map fun outpoint =>
      (outpoint, ((backend.inspect (.payload outpoint)).toOption).join)

end ChatRelay.Simulation
