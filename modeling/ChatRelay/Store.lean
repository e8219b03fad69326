import ChatRelay.Routine
import ChatRelay.Outpoint

/-!
# The outpoint store

The store records which outpoints have authored a message, caches the encoded message of each for
those who ask for it, and remembers up to which height the ledger has been scanned.
-/

namespace ChatRelay

/-- Why a store operation failed. -/
inductive StoreError where
  | databaseOpen (name reason : String)
  | databaseOperation (reason : String)
  | alreadyPresent (outpoint : Outpoint)
  /-- A recorded key that is no outpoint, by its length. -/
  | corruptKey (length : Nat)
  /-- A recorded height that is none, by its length. -/
  | corruptHeight (length : Nat)
  deriving DecidableEq, Repr

/-- The report of a failure. -/
def StoreError.message : StoreError → String
  | .databaseOpen name reason => "Failed to open " ++ name ++ " database: " ++ reason
  | .databaseOperation reason => "Database operation failed: " ++ reason
  | .alreadyPresent outpoint => "Outpoint " ++ outpoint.display ++ " already present"
  | .corruptKey length => "Corrupt record: outpoint key of " ++ toString length ++ " bytes"
  | .corruptHeight length => "Corrupt record: height record of " ++ toString length ++ " bytes"

/-- An outpoint taken out of the store, with the message that was cached for it. -/
structure Pruned where
  outpoint : Outpoint
  payload : Option Bytes
  deriving DecidableEq, Repr

/-- An operation on the store. -/
inductive StoreCall where
  /-- Whether an outpoint is recorded. -/
  | has (outpoint : Outpoint)
  /-- Records an outpoint, unless it is recorded already. -/
  | add (outpoint : Outpoint)
  /-- Removes an outpoint and its message. -/
  | remove (outpoint : Outpoint)
  /-- Removes outpoints and their messages and hands back those that were recorded. -/
  | prune (outpoints : List Outpoint)
  /-- The message cached for an outpoint. -/
  | payload (outpoint : Outpoint)
  /-- Caches a message if the outpoint is recorded, and tells whether it is. -/
  | putPayload (outpoint : Outpoint) (payload : Bytes)
  /-- The recorded outpoints. -/
  | outpoints
  /-- The number of recorded outpoints. -/
  | size
  /-- The height up to which the ledger has been scanned. -/
  | watermark
  | setWatermark (height : UInt64)
  deriving DecidableEq, Repr

namespace StoreCall

/-- What a successful operation answers. -/
abbrev Result : StoreCall → Type
  | .has _ => Bool
  | .add _ => Unit
  | .remove _ => Unit
  | .prune _ => List Pruned
  | .payload _ => Option Bytes
  | .putPayload _ _ => Bool
  | .outpoints => List Outpoint
  | .size => Nat
  | .watermark => Option UInt64
  | .setWatermark _ => Unit

/-- What an operation answers. -/
abbrev Answer (call : StoreCall) : Type := Except StoreError call.Result

end StoreCall

end ChatRelay
