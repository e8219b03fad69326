import ChatRelay.Outpoint

/-!
# The ledger

What is asked of the ledger: whether an output is unspent, how high the chain is, and its blocks.
Every answer may be a failure instead.
-/

namespace ChatRelay

/-- Why the ledger gave no answer. -/
inductive LedgerError where
  /-- The ledger's node reports an error. -/
  | rpc (code : Int) (message : String)
  /-- Nothing usable came back. -/
  | transport (detail : String)
  /-- What came back says something unexpected. -/
  | decode (detail : String)
  /-- What came back does not have the expected shape. -/
  | shape
  deriving DecidableEq, Repr

/-- The report of a failure. -/
def LedgerError.message : LedgerError → String
  | .rpc code message => "RPC error " ++ toString code ++ ": " ++ message
  | .transport detail => "RPC transport error: " ++ detail
  | .decode detail => "Unexpected RPC response: " ++ detail
  | .shape => "Unexpected RPC response"

/-- An output as the ledger sees it. -/
structure LedgerOutput where
  script : Bytes
  spent : Bool
  deriving DecidableEq, Repr

/-- A transaction of a block. An input that creates coins refers to no outpoint. -/
structure LedgerTransaction where
  txid : String
  inputs : List (Option Outpoint)
  deriving DecidableEq, Repr

/-- A block of the ledger. -/
structure LedgerBlock where
  hash : String
  height : UInt64
  transactions : List LedgerTransaction
  deriving DecidableEq, Repr

/-- The outpoints that a block spends, in order and with repetitions. -/
def LedgerBlock.spentOutpoints (block : LedgerBlock) : List Outpoint :=
  block.transactions.flatMap fun transaction => transaction.inputs.filterMap id

/-- A question to the ledger. -/
inductive LedgerCall where
  | height
  | blockHash (height : UInt64)
  | block (height : UInt64)
  /-- The output that an outpoint names, unless there is none or it is no longer unspent. -/
  | output (outpoint : Outpoint)
  deriving DecidableEq, Repr

namespace LedgerCall

/-- What a successful call answers. -/
abbrev Result : LedgerCall → Type
  | .height => UInt64
  | .blockHash _ => String
  | .block _ => LedgerBlock
  | .output _ => Option LedgerOutput

/-- What a call answers. -/
abbrev Answer (call : LedgerCall) : Type := Except LedgerError call.Result

end LedgerCall

end ChatRelay
