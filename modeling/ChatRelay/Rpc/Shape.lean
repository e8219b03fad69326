import ChatRelay.Json
import ChatRelay.Ledger

/-!
# Shapes of results

What the ledger's node returns for an output, for a block with its transactions, and about itself. A
record is an object, with other fields beside its own, or an array of its members in order, all of
them. An optional member may be absent from an object, and null stands for none.
-/

namespace ChatRelay.Rpc

/-- The members of a record; an absent one is none. -/
def members? (names : List String) : Json → Option (List (Option Json))
  | .object fields => some (names.map fun name => fields.lookup name)
  | .array items => if items.length = names.length then some (items.map some) else none
  | _ => none

/-- Reads a member that must be a text. -/
def text? : Option Json → Option String
  | some (.string text) => some text
  | _ => none

/-- Reads a member that must be a natural number of at most `bound`. -/
def natural? (bound : Nat) : Option Json → Option Nat
  | some (.number (.natural n)) => if n ≤ bound then some n else none
  | _ => none

/-- Reads a member that must be a list of records. -/
def list? {α : Type} (read : Json → Option α) : Option Json → Option (List α)
  | some (.array items) => items.mapM read
  | _ => none

/-- Reads a member that may be absent or null. -/
def absentOr? {α : Type} (read : Option Json → Option α) : Option Json → Option (Option α)
  | none => some none
  | some .null => some none
  | member => (read member).map some

/-- The digits of the script of an output. -/
def outputScript? (value : Json) : Option String := do
  match ← members? ["scriptPubKey"] value with
  | [some script] =>
    match ← members? ["hex"] script with
    | [digits] => text? digits
    | _ => none
  | _ => none

/-- An input of a transaction as it is reported. -/
structure VerboseInput where
  coinbase : Option String
  txid : Option String
  index : Option UInt32
  deriving DecidableEq, Repr

/-- A transaction as it is reported. -/
structure VerboseTransaction where
  txid : String
  inputs : List VerboseInput
  deriving DecidableEq, Repr

/-- A block as it is reported. -/
structure VerboseBlock where
  hash : String
  height : UInt64
  transactions : List VerboseTransaction
  deriving DecidableEq, Repr

/-- What the node says about its chain. -/
structure ChainInfo where
  chain : String
  blocks : UInt64
  bestHash : String
  deriving DecidableEq, Repr

/-- Reads an input. -/
def VerboseInput.ofJson? (value : Json) : Option VerboseInput := do
  match ← members? ["coinbase", "txid", "vout"] value with
  | [coinbase, txid, index] =>
    let index ← absentOr? (natural? (UInt32.size - 1)) index
    return ⟨← absentOr? text? coinbase, ← absentOr? text? txid, index.map UInt32.ofNat⟩
  | _ => none

/-- Reads a transaction. -/
def VerboseTransaction.ofJson? (value : Json) : Option VerboseTransaction := do
  match ← members? ["txid", "vin"] value with
  | [txid, inputs] => return ⟨← text? txid, ← list? VerboseInput.ofJson? inputs⟩
  | _ => none

/-- Reads a block. -/
def VerboseBlock.ofJson? (value : Json) : Option VerboseBlock := do
  match ← members? ["hash", "height", "tx"] value with
  | [hash, height, transactions] =>
    return ⟨← text? hash, UInt64.ofNat (← natural? (UInt64.size - 1) height),
      ← list? VerboseTransaction.ofJson? transactions⟩
  | _ => none

/-- Reads what the node says about its chain. -/
def ChainInfo.ofJson? (value : Json) : Option ChainInfo := do
  match ← members? ["chain", "blocks", "bestblockhash"] value with
  | [chain, blocks, best] =>
    return ⟨← text? chain, UInt64.ofNat (← natural? (UInt64.size - 1) blocks), ← text? best⟩
  | _ => none

/-- The outpoint that an input of transaction `owner` spends. An input that creates coins spends
none, whatever else it holds. -/
def VerboseInput.outpoint (owner : String) (input : VerboseInput) :
    Except LedgerError (Option Outpoint) :=
  match input.coinbase, input.txid, input.index with
  | some _, _, _ => .ok none
  | none, some txid, some index =>
    match Outpoint.ofDisplayTxid txid index with
    | .ok outpoint => .ok (some outpoint)
    | .error cause => .error (.decode ("input txid " ++ txid ++ ": " ++ cause.message))
  | _, _, _ => .error (.decode ("input of " ++ owner ++ " has neither coinbase nor prevout"))

/-- A reported transaction as one of the ledger. -/
def VerboseTransaction.toLedger (transaction : VerboseTransaction) :
    Except LedgerError LedgerTransaction :=
  (transaction.inputs.mapM (VerboseInput.outpoint transaction.txid)).map fun inputs =>
    ⟨transaction.txid, inputs⟩

/-- A reported block as one of the ledger. The first input that names no outpoint spoils it. -/
def VerboseBlock.toLedger (block : VerboseBlock) : Except LedgerError LedgerBlock :=
  (block.transactions.mapM VerboseTransaction.toLedger).map fun transactions =>
    ⟨block.hash, block.height, transactions⟩

end ChatRelay.Rpc
