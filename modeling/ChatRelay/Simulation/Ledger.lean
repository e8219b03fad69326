import ChatRelay.Ledger
import ChatRelay.Table

/-!
# A scripted ledger

A ledger whose outputs and blocks are set by hand, and whose calls can be made to fail: all calls of
a name, or those with one argument.
-/

namespace ChatRelay.Simulation

/-- The contents of a scripted ledger. -/
structure ScriptedLedger where
  outputs : Table Outpoint LedgerOutput
  blocks : Table UInt64 LedgerBlock
  /-- The height to report instead of that of the highest block. -/
  fixedTip : Option UInt64
  /-- The failures, by the name of a call or its name and argument. -/
  faults : Table String LedgerError

namespace ScriptedLedger

/-- A ledger without contents. -/
def empty : ScriptedLedger := ⟨.empty, .empty, none, .empty⟩

/-- The height that is reported. -/
def tip (ledger : ScriptedLedger) : UInt64 :=
  match ledger.fixedTip with
  | some height => height
  | none => ledger.blocks.keys.foldl max 0

/-- The name of a call. -/
def callName : LedgerCall → String
  | .height => "get_height"
  | .blockHash _ => "get_block_hash"
  | .block _ => "get_block"
  | .output _ => "get_output"

/-- The argument of a call. -/
def argument? : LedgerCall → Option String
  | .height => none
  | .blockHash height => some (toString height.toNat)
  | .block height => some (toString height.toNat)
  | .output outpoint => some outpoint.display

/-- The failure of a call: that of its name goes before that of its name and argument. -/
def fault? (ledger : ScriptedLedger) (call : LedgerCall) : Option LedgerError :=
  match ledger.faults.get? (callName call) with
  | some cause => some cause
  | none =>
    match argument? call with
    | some argument => ledger.faults.get? (callName call ++ ":" ++ argument)
    | none => none

/-- The answer for a height without a block. -/
def outOfRange : LedgerError := .rpc (-8) "Block height out of range"

/-- The answer to a call that does not fail. -/
def answer (ledger : ScriptedLedger) : (call : LedgerCall) → call.Answer
  | .height => .ok ledger.tip
  | .blockHash height =>
    match ledger.blocks.get? height with
    | some block => .ok block.hash
    | none => .error outOfRange
  | .block height =>
    match ledger.blocks.get? height with
    | some block => .ok block
    | none => .error outOfRange
  | .output outpoint => .ok (ledger.outputs.get? outpoint)

/-- Serves a call. -/
def serve (ledger : ScriptedLedger) (call : LedgerCall) : call.Answer :=
  match ledger.fault? call with
  | some cause => .error cause
  | none => ledger.answer call

/-- Sets or replaces a block at its height. -/
def setBlock (ledger : ScriptedLedger) (block : LedgerBlock) : ScriptedLedger :=
  { ledger with blocks := ledger.blocks.insert block.height block }

/-- Sets `count` empty blocks from a height on. Their hashes are the height behind a label. -/
def setEmptyBlocks (ledger : ScriptedLedger) (label : String) (height : UInt64) :
    Nat → ScriptedLedger
  | 0 => ledger
  | count + 1 =>
    (ledger.setBlock ⟨label ++ toString height.toNat, height, []⟩).setEmptyBlocks label
      (height + 1) count

/-- Removes the blocks at a height and above. -/
def dropBlocks (ledger : ScriptedLedger) (height : UInt64) : ScriptedLedger :=
  { ledger with blocks := ledger.blocks.filterKeys (· < height) }

/-- Makes calls fail, or fail no longer. -/
def setFault (ledger : ScriptedLedger) (call : String) (fault : Option LedgerError) :
    ScriptedLedger :=
  { ledger with
    faults :=
      match fault with
      | some cause => ledger.faults.insert call cause
      | none => ledger.faults.erase call }

end ScriptedLedger

end ChatRelay.Simulation
