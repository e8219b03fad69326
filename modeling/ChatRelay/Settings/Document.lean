import ChatRelay.Settings
import ChatRelay.Toml

/-!
# Settings as a document

A document has a table for each section and a key for each setting. What is missing has its default,
and what is unknown is passed over. In the place of a table there may be an array of the settings in
their order.
-/

namespace ChatRelay

/-- A section of a document. -/
inductive Section where
  | named (entries : List (String × Toml))
  | ordered (items : List Toml)

namespace Section

/-- The section that a value is. A date or a time is a section without settings. -/
def ofValue? : Toml → Option Section
  | .table entries => some (.named entries)
  | .array items => some (.ordered items)
  | .moment _ => some (.named [])
  | _ => none

/-- The value of a setting, known by its place or its name. -/
def value? (place : Nat) (name : String) : Section → Option Toml
  | .named entries => entries.lookup name
  | .ordered items => items[place]?

/-- Reads a setting, which has a default. -/
def read {α : Type} (decode : Toml → Option α) (place : Nat) (name : String) (default : α)
    (given : Section) : Option α :=
  match given.value? place name with
  | none => some default
  | some value => decode value

end Section

/-- Reads the settings of the node. -/
def NodeSettings.ofSection? (d : NodeSettings) (s : Section) : Option NodeSettings := do
  return ⟨← s.read Toml.text? 0 "name" d.label, ← s.read Toml.text? 1 "data_dir" d.dataDirectory⟩

/-- Reads the settings of the network. -/
def NetworkSettings.ofSection? (d : NetworkSettings) (s : Section) : Option NetworkSettings := do
  return ⟨← s.read Toml.text? 0 "listen_address" d.listenAddress,
    ← s.read Toml.texts? 1 "known_peers" d.knownPeers,
    ← s.read Toml.nat64? 2 "handshake_timeout_secs" d.handshakeTimeout,
    ← s.read Toml.nat64? 3 "max_peers" d.maxPeers,
    ← s.read Toml.nat64? 4 "max_message_size" d.maxMessageSize,
    ← s.read Toml.nat64? 5 "write_timeout_secs" d.writeTimeout,
    ← s.read Toml.nat64? 6 "shutdown_grace_secs" d.shutdownGrace⟩

/-- Reads the settings of the ledger's node. -/
def LedgerSettings.ofSection? (d : LedgerSettings) (s : Section) : Option LedgerSettings := do
  return ⟨← s.read Toml.text? 0 "rpc_url" d.url, ← s.read Toml.text? 1 "rpc_user" d.user,
    ← s.read Toml.text? 2 "rpc_password" d.password,
    ← s.read Toml.nat64? 3 "request_timeout_secs" d.requestTimeout⟩

/-- Reads how the ledger is followed. -/
def ChainSettings.ofSection? (d : ChainSettings) (s : Section) : Option ChainSettings := do
  return ⟨← s.read Toml.boolean? 0 "notifications_enabled" d.notifications,
    ← s.read Toml.nat64? 1 "poll_interval_secs" d.pollInterval,
    ← s.read Toml.nat64? 2 "max_reorg_depth" d.maxReorgDepth,
    ← s.read Toml.boolean? 3 "scan_full_blocks" d.scanFullBlocks⟩

/-- Reads the settings of the store. -/
def StorageSettings.ofSection? (d : StorageSettings) (s : Section) : Option StorageSettings := do
  return ⟨← s.read Toml.text? 0 "backend" d.backend, ← s.read Toml.text? 1 "path" d.path⟩

/-- Reads the settings of the log. -/
def LoggingSettings.ofSection? (d : LoggingSettings) (s : Section) : Option LoggingSettings := do
  return ⟨← s.read Toml.text? 0 "level" d.level, ← s.read Toml.text? 1 "format" d.format⟩

namespace Settings

/-- Reads a section of a document, which has a default. -/
def readSection {α : Type} (ofSection? : α → Section → Option α) (name : String) (default : α)
    (document : List (String × Toml)) : Option α :=
  match document.lookup name with
  | none => some default
  | some value => (Section.ofValue? value).bind (ofSection? default)

/-- Reads settings from a document. -/
def ofDocument? (d : Settings) (document : List (String × Toml)) : Option Settings := do
  return ⟨← readSection NodeSettings.ofSection? "node" d.node document,
    ← readSection NetworkSettings.ofSection? "network" d.network document,
    ← readSection LedgerSettings.ofSection? "bitcoin" d.ledger document,
    ← readSection ChainSettings.ofSection? "blockchain" d.chain document,
    ← readSection StorageSettings.ofSection? "storage" d.storage document,
    ← readSection LoggingSettings.ofSection? "logging" d.logging document⟩

/-- The document of settings: its sections in their order. -/
def toDocument (settings : Settings) : List (String × List (String × Toml)) :=
  let text (s : String) : Toml := .string s
  let number (n : UInt64) : Toml := .integer n.toNat
  let flag (b : Bool) : Toml := .boolean b
  let ⟨node, network, ledger, chain, storage, logging⟩ := settings
  [("node", [("name", text node.label), ("data_dir", text node.dataDirectory)]),
    ("network",
      [("listen_address", text network.listenAddress),
        ("known_peers", .array (network.knownPeers.map text)),
        ("handshake_timeout_secs", number network.handshakeTimeout),
        ("max_peers", number network.maxPeers),
        ("max_message_size", number network.maxMessageSize),
        ("write_timeout_secs", number network.writeTimeout),
        ("shutdown_grace_secs", number network.shutdownGrace)]),
    ("bitcoin",
      [("rpc_url", text ledger.url), ("rpc_user", text ledger.user),
        ("rpc_password", text ledger.password),
        ("request_timeout_secs", number ledger.requestTimeout)]),
    ("blockchain",
      [("notifications_enabled", flag chain.notifications),
        ("poll_interval_secs", number chain.pollInterval),
        ("max_reorg_depth", number chain.maxReorgDepth),
        ("scan_full_blocks", flag chain.scanFullBlocks)]),
    ("storage", [("backend", text storage.backend), ("path", text storage.path)]),
    ("logging", [("level", text logging.level), ("format", text logging.format)])]

end Settings

end ChatRelay
