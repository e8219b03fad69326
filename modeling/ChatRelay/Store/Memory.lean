import ChatRelay.Store
import ChatRelay.Table

/-!
# A store in memory

Recorded outpoints and cached messages are two tables beside each other. Every operation is one
atomic step.
-/

namespace ChatRelay

/-- The contents of a store in memory. -/
structure MemoryStore where
  recorded : Table Outpoint Unit
  payloads : Table Outpoint Bytes
  watermark : Option UInt64
  deriving Repr, Inhabited

namespace MemoryStore

/-- A store without contents. -/
def empty : MemoryStore := ⟨.empty, .empty, none⟩

/-- Removes an outpoint and its message. -/
def discard (store : MemoryStore) (outpoint : Outpoint) : MemoryStore :=
  { store with
    recorded := store.recorded.erase outpoint
    payloads := store.payloads.erase outpoint }

/-- Removes outpoints one after another; the recorded ones among them are handed back in that
order. -/
def prune (store : MemoryStore) : List Outpoint → List Pruned × MemoryStore
  | [] => ([], store)
  | outpoint :: rest =>
    let (removed, after) := (store.discard outpoint).prune rest
    if store.recorded.contains outpoint then
      (⟨outpoint, store.payloads.get? outpoint⟩ :: removed, after)
    else (removed, after)

/-- Performs an operation. -/
def perform (call : StoreCall) (store : MemoryStore) : call.Answer × MemoryStore :=
  match call with
  | .has outpoint => (.ok (store.recorded.contains outpoint), store)
  | .add outpoint =>
    if store.recorded.contains outpoint then (.error (.alreadyPresent outpoint), store)
    else (.ok (), { store with recorded := store.recorded.insert outpoint () })
  | .remove outpoint => (.ok (), store.discard outpoint)
  | .prune outpoints =>
    let (removed, after) := store.prune outpoints
    (.ok removed, after)
  | .payload outpoint => (.ok (store.payloads.get? outpoint), store)
  | .putPayload outpoint payload =>
    if store.recorded.contains outpoint then
      (.ok true, { store with payloads := store.payloads.insert outpoint payload })
    else (.ok false, store)
  | .outpoints => (.ok store.recorded.keys, store)
  | .size => (.ok store.recorded.size, store)
  | .watermark => (.ok store.watermark, store)
  | .setWatermark height => (.ok (), { store with watermark := some height })

end MemoryStore

end ChatRelay
