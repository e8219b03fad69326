import ChatRelay.Store
import ChatRelay.Table

/-!
# A store of records on disk

The durable store keeps its contents in three trees of records: the outpoints, the messages and the
scanned height. A single call on a tree is atomic; an operation is a routine of such calls, so that
the calls of two operations may alternate. A message is looked for again after it has been put,
because its outpoint may have been removed in between.
-/

namespace ChatRelay

/-- The trees of the durable store. -/
inductive Tree where
  | outpoints
  | messages
  | metadata
  deriving DecidableEq, Repr

/-- A call on one tree. -/
inductive TreeCall where
  | contains (tree : Tree) (key : Bytes)
  | get (tree : Tree) (key : Bytes)
  | insert (tree : Tree) (key value : Bytes)
  /-- Inserts a record if its key has none, and tells whether it did. -/
  | insertIfAbsent (tree : Tree) (key value : Bytes)
  /-- Removes a record and hands its value back. -/
  | remove (tree : Tree) (key : Bytes)
  /-- Removes the records of all given keys at once. -/
  | removeBatch (tree : Tree) (keys : List Bytes)
  /-- All keys, in dictionary order. -/
  | keys (tree : Tree)
  | size (tree : Tree)
  deriving DecidableEq, Repr

/-- What a call on a tree answers. -/
abbrev TreeCall.Answer : TreeCall → Type
  | .contains _ _ => Bool
  | .get _ _ => Option Bytes
  | .insert _ _ _ => Unit
  | .insertIfAbsent _ _ _ => Bool
  | .remove _ _ => Option Bytes
  | .removeBatch _ _ => Unit
  | .keys _ => List Bytes
  | .size _ => Nat

/-- Asks for a call on a tree. -/
def askTree (call : TreeCall) : Routine TreeCall.Answer call.Answer := .ask call .done

/-- The records of all trees. -/
structure DurableStore where
  outpoints : Table Bytes Bytes
  messages : Table Bytes Bytes
  metadata : Table Bytes Bytes
  deriving Repr, Inhabited

namespace DurableStore

/-- A store without records. -/
def empty : DurableStore := ⟨.empty, .empty, .empty⟩

/-- The records of a tree. -/
def records (store : DurableStore) : Tree → Table Bytes Bytes
  | .outpoints => store.outpoints
  | .messages => store.messages
  | .metadata => store.metadata

/-- Replaces the records of a tree. -/
def setRecords (store : DurableStore) (tree : Tree) (records : Table Bytes Bytes) : DurableStore :=
  match tree with
  | .outpoints => { store with outpoints := records }
  | .messages => { store with messages := records }
  | .metadata => { store with metadata := records }

/-- Serves a call on a tree. -/
def serve (call : TreeCall) (store : DurableStore) : call.Answer × DurableStore :=
  match call with
  | .contains tree key => ((store.records tree).contains key, store)
  | .get tree key => ((store.records tree).get? key, store)
  | .insert tree key value => ((), store.setRecords tree ((store.records tree).insert key value))
  | .insertIfAbsent tree key value =>
    if (store.records tree).contains key then (false, store)
    else (true, store.setRecords tree ((store.records tree).insert key value))
  | .remove tree key =>
    ((store.records tree).get? key, store.setRecords tree ((store.records tree).erase key))
  | .removeBatch tree keys =>
    ((), store.setRecords tree ((store.records tree).filterKeys fun key => ¬ keys.contains key))
  | .keys tree => ((store.records tree).keys.mergeSort Bytes.precedes, store)
  | .size tree => ((store.records tree).size, store)

/-- The key of the scanned height. -/
def watermarkKey : Bytes := Bytes.ofText "last_scanned_height"

/-- The removals of a prune of `all`; `removed` holds what has been removed, newest first. A message
is read before it goes, and all messages go at the end at once. -/
def pruneSteps (all : List Outpoint) (removed : List Pruned) :
    List Outpoint → Routine TreeCall.Answer (List Pruned)
  | [] => do
    let () ← askTree (.removeBatch .messages (all.map Outpoint.toBytes))
    return removed.reverse
  | outpoint :: rest => do
    match ← askTree (.remove .outpoints outpoint.toBytes) with
    | none => pruneSteps all removed rest
    | some _ => do
      let payload ← askTree (.get .messages outpoint.toBytes)
      pruneSteps all (⟨outpoint, payload⟩ :: removed) rest

/-- The outpoints that keys are. The first key that is none is reported. -/
def outpointsOf : List Bytes → Except StoreError (List Outpoint)
  | [] => .ok []
  | key :: rest =>
    match Outpoint.ofBytes? key with
    | none => .error (.corruptKey key.length)
    | some outpoint => (outpointsOf rest).map (outpoint :: ·)

/-- The height that a record is: eight octets, most significant first. -/
def heightOf (value : Bytes) : Except StoreError UInt64 :=
  if value.length = 8 then .ok (UInt64.ofNat value.toNat) else .error (.corruptHeight value.length)

/-- An operation as a routine of calls on the trees. -/
def operation : (call : StoreCall) → Routine TreeCall.Answer call.Answer
  | .has outpoint => do
    let present ← askTree (.contains .outpoints outpoint.toBytes)
    return .ok present
  | .add outpoint => do
    let inserted ← askTree (.insertIfAbsent .outpoints outpoint.toBytes [])
    return if inserted then .ok () else .error (.alreadyPresent outpoint)
  | .remove outpoint => do
    let _ ← askTree (.remove .outpoints outpoint.toBytes)
    let _ ← askTree (.remove .messages outpoint.toBytes)
    return .ok ()
  | .prune outpoints => do
    let removed ← pruneSteps outpoints [] outpoints
    return .ok removed
  | .payload outpoint => do
    let payload ← askTree (.get .messages outpoint.toBytes)
    return .ok payload
  | .putPayload outpoint payload => do
    let present ← askTree (.contains .outpoints outpoint.toBytes)
    if !present then return .ok false
    let () ← askTree (.insert .messages outpoint.toBytes payload)
    let present ← askTree (.contains .outpoints outpoint.toBytes)
    if !present then
      let _ ← askTree (.remove .messages outpoint.toBytes)
      return .ok false
    return .ok true
  | .outpoints => do
    let keys ← askTree (.keys .outpoints)
    return outpointsOf keys
  | .size => do
    let size ← askTree (.size .outpoints)
    return .ok size
  | .watermark => do
    match ← askTree (.get .metadata watermarkKey) with
    | none => return .ok none
    | some value => return (heightOf value).map some
  | .setWatermark height => do
    let () ← askTree (.insert .metadata watermarkKey (Bytes.ofNat 8 height.toNat))
    return .ok ()

/-- Performs an operation without anything in between. -/
def perform (call : StoreCall) (store : DurableStore) : call.Answer × DurableStore :=
  (operation call).run serve store

end DurableStore

end ChatRelay
