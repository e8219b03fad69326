import ChatRelay.Bytes.Base64
import ChatRelay.Routine
import ChatRelay.Rpc.Reply
import ChatRelay.Rpc.Shape

/-!
# A client of the ledger's node

Questions to the ledger are answered by remote calls, each one HTTP request. Answering a question is
a routine of such calls, so that it can be run against any server.
-/

namespace ChatRelay.Rpc

/-- A remote call. -/
structure Call where
  method : String
  params : List Json
  deriving Repr

/-- A call is answered by a reply, if one comes. -/
abbrev Answer (_ : Call) : Type := Option Reply

/-- Calls a method: its result or why there is none. -/
def call (method : String) (params : List Json) : Routine Answer (Except LedgerError Json) := do
  let reply ← Routine.ask (A := Answer) ⟨method, params⟩ Routine.done
  return outcome method reply

/-- The height of the chain. -/
def height : Routine Answer (Except LedgerError UInt64) := do
  match ← call "getblockcount" [] with
  | .error cause => return .error cause
  | .ok (.number (.natural n)) => return .ok (UInt64.ofNat n)
  | .ok value => return .error (.decode ("getblockcount returned " ++ value.compact))

/-- The hash of the block at a height. -/
def blockHash (height : UInt64) : Routine Answer (Except LedgerError String) := do
  match ← call "getblockhash" [.ofNat height.toNat] with
  | .error cause => return .error cause
  | .ok (.string hash) => return .ok hash
  | .ok value => return .error (.decode ("getblockhash returned " ++ value.compact))

/-- The block at a height, found by its hash. -/
def block (height : UInt64) : Routine Answer (Except LedgerError LedgerBlock) := do
  match ← blockHash height with
  | .error cause => return .error cause
  | .ok hash =>
    match ← call "getblock" [.string hash, .ofNat 2] with
    | .error cause => return .error cause
    | .ok value =>
      match VerboseBlock.ofJson? value with
      | none => return .error .shape
      | some block => return block.toLedger

/-- The output that a result describes. Null says that there is none. -/
def outputOf (value : Json) : Except LedgerError (Option LedgerOutput) :=
  match value with
  | .null => .ok none
  | value =>
    match outputScript? value with
    | none => .error .shape
    | some digits =>
      match Hex.decode digits with
      | .ok script => .ok (some ⟨script, false⟩)
      | .error cause => .error (.decode ("scriptPubKey hex: " ++ cause.message))

/-- The unspent output of an outpoint. Only what is spent in a block counts as spent. -/
def output (outpoint : Outpoint) : Routine Answer (Except LedgerError (Option LedgerOutput)) := do
  match ← call "gettxout"
      [.string outpoint.displayTxid, .ofNat outpoint.index.toNat, .bool false] with
  | .error cause => return .error cause
  | .ok value => return outputOf value

/-- What the node says about its chain. -/
def info : Routine Answer (Except LedgerError ChainInfo) := do
  match ← call "getblockchaininfo" [] with
  | .error cause => return .error cause
  | .ok value =>
    match ChainInfo.ofJson? value with
    | none => return .error .shape
    | some info => return .ok info

/-- Answers a question to the ledger. -/
def perform : (question : LedgerCall) → Routine Answer question.Answer
  | .height => height
  | .blockHash height => blockHash height
  | .block height => block height
  | .output outpoint => output outpoint

/-- A request as it is sent. -/
structure Request where
  target : String
  authorization : Option String
  body : Json
  deriving Repr

/-- The settings of a client and the number of its next request. Without a target nothing can be
sent. -/
structure Client where
  target : Option String
  user : String
  password : String
  nextId : UInt64
  deriving Repr

namespace Client

/-- A client that has not sent anything. -/
def start (target : Option String) (user password : String) : Client := ⟨target, user, password, 1⟩

/-- The credentials of a client, unless it has no user. -/
def authorization (client : Client) : Option String :=
  if client.user.isEmpty then none
  else some ("Basic " ++ Base64.encode (Bytes.ofText (client.user ++ ":" ++ client.password)))

/-- The request for a call. Every call takes a number, sent or not. -/
def request (client : Client) (call : Call) : Option Request × Client :=
  let body : Json := .object [("jsonrpc", .string "1.0"), ("id", .ofNat client.nextId.toNat),
    ("method", .string call.method), ("params", .array call.params)]
  (client.target.map fun target => ⟨target, client.authorization, body⟩,
    { client with nextId := client.nextId + 1 })

end Client

end ChatRelay.Rpc
