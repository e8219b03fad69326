import ChatRelay.Message
import ChatRelay.Files

/-!
# Settings

What a node is told before it starts, in sections. Every setting has a default. Settings are valid
if the ledger is polled at all, whole messages and nothing longer are let in, and the store and the
form of the log are of a known kind; of several faults the first in this order is reported.
-/

namespace ChatRelay

/-- What the node is called and where it keeps its data. -/
structure NodeSettings where
  label : String
  dataDirectory : String
  deriving DecidableEq, Repr

/-- The connections to other nodes. Times are in seconds. -/
structure NetworkSettings where
  listenAddress : String
  knownPeers : List String
  handshakeTimeout : UInt64
  /-- The greatest number of inbound connections. -/
  maxPeers : UInt64
  /-- The greatest length of a message that is let in. -/
  maxMessageSize : UInt64
  writeTimeout : UInt64
  shutdownGrace : UInt64
  deriving DecidableEq, Repr

/-- The connection to the ledger's node. -/
structure LedgerSettings where
  url : String
  user : String
  password : String
  requestTimeout : UInt64
  deriving DecidableEq, Repr

/-- How the ledger is followed. -/
structure ChainSettings where
  notifications : Bool
  pollInterval : UInt64
  maxReorgDepth : UInt64
  scanFullBlocks : Bool
  deriving DecidableEq, Repr

/-- The kind of the store and where it is. -/
structure StorageSettings where
  backend : String
  path : String
  deriving DecidableEq, Repr

/-- How much is logged and in which form. -/
structure LoggingSettings where
  level : String
  format : String
  deriving DecidableEq, Repr

/-- All settings. -/
structure Settings where
  node : NodeSettings
  network : NetworkSettings
  ledger : LedgerSettings
  chain : ChainSettings
  storage : StorageSettings
  logging : LoggingSettings
  deriving DecidableEq, Repr

/-- Why settings are not valid. -/
inductive SettingsError where
  | noPollInterval
  | messageSize (size : UInt64)
  | unknownBackend (backend : String)
  | unknownLogFormat (format : String)
  deriving DecidableEq, Repr

/-- The report of a fault. -/
def SettingsError.message : SettingsError → String
  | .noPollInterval => "blockchain.poll_interval_secs must be positive"
  | .messageSize size =>
    "network.max_message_size must be within " ++ toString Message.headerLength ++ "..=" ++
      toString Message.maxEncodedLength ++ ", got " ++ toString size.toNat
  | .unknownBackend backend => "unknown storage backend '" ++ backend ++ "'"
  | .unknownLogFormat format => "unknown log format '" ++ format ++ "'"

/-- Why there is no store. -/
inductive StorageFault where
  | settings (cause : SettingsError)
  | store (cause : StoreError)
  deriving DecidableEq, Repr

namespace Settings

/-- The settings of a node that is told nothing, for a user with the given home directory. -/
def defaults (home : String) : Settings where
  node := ⟨"utxochat-node", FilePath.join home ".utxochat"⟩
  network := ⟨"0.0.0.0:8335", [], 60, 64, UInt64.ofNat Message.maxEncodedLength, 30, 10⟩
  ledger := ⟨"http://127.0.0.1:8332", "", "", 30⟩
  chain := ⟨false, 30, 6, true⟩
  storage := ⟨"sled", "outpoints"⟩
  logging := ⟨"info", "compact"⟩

/-- The kinds of stores. -/
def backends : List String := ["memory", "sled"]

/-- The forms of a log. -/
def logFormats : List String := ["compact", "json"]

/-- The first fault of settings. -/
def fault? (settings : Settings) : Option SettingsError :=
  let size := settings.network.maxMessageSize
  if settings.chain.pollInterval = 0 then some .noPollInterval
  else if size.toNat < Message.headerLength ∨ Message.maxEncodedLength < size.toNat then
    some (.messageSize size)
  else if settings.storage.backend ∉ backends then some (.unknownBackend settings.storage.backend)
  else if settings.logging.format ∉ logFormats then
    some (.unknownLogFormat settings.logging.format)
  else none

/-- The path of the store. -/
def storagePath (settings : Settings) : String :=
  FilePath.join settings.node.dataDirectory settings.storage.path

/-- Opens the store. One that is held in memory is there at once. -/
def openStore (settings : Settings) : Routine FileCall.Answer (Except StorageFault Unit) := do
  if settings.storage.backend = "memory" then return .ok ()
  else if settings.storage.backend = "sled" then
    let answer ← askFiles (.openStore settings.storagePath)
    return answer.mapError .store
  else return .error (.settings (.unknownBackend settings.storage.backend))

end Settings

end ChatRelay
