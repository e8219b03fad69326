import ChatRelay.Message
import ChatRelay.OwnerKey
import ChatRelay.Request

/-!
# Admission

A message is admitted when its outpoint has not authored one before, the outpoint names an unspent
output whose script binds it to one key, and that key's signature is on the payload. Admission ends
by recording the outpoint. The checks are made in a fixed order, and the first that fails gives the
rejection.
-/

namespace ChatRelay

/-- Why a message is not admitted. -/
inductive Rejection where
  | alreadySeen
  /-- The output is absent or spent. -/
  | outputNotFound
  | scriptUnsupported
  | ownerMismatch
  | missingOwnerKey
  | badSignature
  | ledgerUnavailable (cause : LedgerError)
  | storeUnavailable (cause : StoreError)
  deriving DecidableEq, Repr

/-- The report of a rejection. -/
def Rejection.message : Rejection → String
  | .alreadySeen => "outpoint already authored a message"
  | .outputNotFound => "output is absent or spent"
  | .scriptUnsupported => "output script cannot prove single-key ownership"
  | .ownerMismatch => "claimed key does not own the output"
  | .missingOwnerKey => "payload does not carry a valid owner key"
  | .badSignature => "signature verification failed"
  | .ledgerUnavailable cause => "UTXO lookup unavailable: " ++ cause.message
  | .storeUnavailable cause => "outpoint store unavailable: " ++ cause.message

/-- What has been established about an admitted message. -/
structure Admission where
  outpoint : Outpoint
  script : ScriptKind
  owner : OwnerKey
  deriving DecidableEq, Repr

namespace Admission

/-- The owner's key: in the script itself for Taproot, else at the beginning of the payload. -/
def resolveOwner (script : ScriptKind) (payload : Bytes) : Except Rejection OwnerKey :=
  match script with
  | .keyHash _ =>
    match OwnerKey.ofPayload? payload with
    | some key => .ok (.ecdsa key)
    | none => .error .missingOwnerKey
  | .taproot key =>
    match XOnlyKey.ofBytes? key.toList with
    | some key => .ok (.schnorr key)
    | none => .error .scriptUnsupported
  | .unsupported => .error .scriptUnsupported

/-- Whether a key owns the outputs with a script. A key hash may be of either form of the key. -/
def owns (script : ScriptKind) (owner : OwnerKey) : Bool :=
  match script, owner with
  | .keyHash hash, .ecdsa key => hash160 key.compressed == hash || hash160 key.uncompressed == hash
  | .taproot expected, .schnorr key => key.toBytes == expected.toList
  | _, _ => false

/-- Judges a message by what the ledger says of its output. Without a claimed key the owner's is
found from script and payload. -/
def judge (message : Message) (claimed : Option OwnerKey) (output : Option LedgerOutput) :
    Except Rejection Admission := do
  match output with
  | none => throw .outputNotFound
  | some output => do
    if output.spent then throw .outputNotFound
    let script := ScriptKind.classify output.script
    if script = .unsupported then throw .scriptUnsupported
    let owner ←
      match claimed with
      | some key => pure key
      | none => resolveOwner script message.payload
    if !owns script owner then throw .ownerMismatch
    if !owner.verify message.payload message.signature then throw .badSignature
    return ⟨message.outpoint, script, owner⟩

/-- Decides a message, holding its outpoint's slot. That the outpoint is new is asked before the
ledger is, and made sure of by the recording itself. -/
def decide (message : Message) (claimed : Option OwnerKey) :
    Routine Request.Answer (Except Rejection Admission) := do
  match ← askStore (.has message.outpoint) with
  | .error cause => return .error (.storeUnavailable cause)
  | .ok true => return .error .alreadySeen
  | .ok false =>
    match ← askLedger (.output message.outpoint) with
    | .error cause => return .error (.ledgerUnavailable cause)
    | .ok output =>
      match judge message claimed output with
      | .error rejection => return .error rejection
      | .ok admission =>
        match ← askStore (.add message.outpoint) with
        | .ok () => return .ok admission
        | .error (.alreadyPresent _) => return .error .alreadySeen
        | .error cause => return .error (.storeUnavailable cause)

end Admission

end ChatRelay
