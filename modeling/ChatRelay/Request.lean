import ChatRelay.Store
import ChatRelay.Ledger

/-!
# Collaborators

Admission and the watcher have two collaborators, the store and the ledger. A request is a call on
either.
-/

namespace ChatRelay

/-- A call on one of the collaborators. -/
inductive Request where
  | store (call : StoreCall)
  | ledger (call : LedgerCall)
  deriving DecidableEq, Repr

/-- What a request is answered by. -/
abbrev Request.Answer : Request → Type
  | .store call => call.Answer
  | .ledger call => call.Answer

/-- Asks the store. -/
def askStore (call : StoreCall) : Routine Request.Answer call.Answer :=
  .ask (.store call) .done

/-- Asks the ledger. -/
def askLedger (call : LedgerCall) : Routine Request.Answer call.Answer :=
  .ask (.ledger call) .done

end ChatRelay
