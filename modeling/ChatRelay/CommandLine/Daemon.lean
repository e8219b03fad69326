import ChatRelay.CommandLine.Grammar
import ChatRelay.Node.Lifecycle
import ChatRelay.Settings.File

/-!
# The daemon

The daemon reads its settings from a file, or writes one with the defaults and, if it was asked for
no more than that, ends. Before it serves it makes its data directory, opens its store and makes
the client for the ledger's node, the permits for inbound connections and the listening socket; from
then on it ends only when it is told to. Whether the ledger's node answers by then is no matter.
-/

namespace ChatRelay.CommandLine

/-- What the daemon is asked to do. -/
structure DaemonOrder where
  /-- The file of its settings. -/
  path : String
  /-- The address to listen on in place of the one in the settings. -/
  listenAddress : Option String
  /-- Whether to log more. -/
  verbose : Bool
  /-- Whether to write a file of defaults and end. -/
  generate : Bool
  deriving DecidableEq, Repr

namespace DaemonOrder

/-- The words of the daemon's command line. -/
def grammar : Grammar :=
  ⟨[.text (some 'c') "config", .text none "listen-addr", .flag (some 'v') "verbose",
    .flag none "generate-config"], 0, []⟩

/-- Reads the words of the daemon's command line. -/
def read (words : List String) : Except Halt DaemonOrder :=
  (grammar.read .empty words).map fun r =>
    ⟨(r.value? "config").getD "utxochat.toml", r.value? "listen-addr", r.has "verbose",
      r.has "generate-config"⟩

end DaemonOrder

/-- The first line of the daemon's help. -/
def daemonTitle : String := "UTXO-gated chat relay daemon"

/-- How the daemon ends. -/
inductive DaemonEnd where
  /-- It has written a file of defaults. -/
  | generated (path : String)
  | notGenerated (cause : SettingsFileError)
  | notLoaded (cause : SettingsFileError)
  | invalid (path : String) (cause : SettingsError)
  | noDataDirectory (path : String) (cause : FileError)
  | noStore (path : String) (cause : StorageFault)
  | noClient (path : String) (cause : LedgerError)
  /-- More inbound connections are asked for than there can be permits. -/
  | tooManyPeers (path : String)
  | notBound (path : String) (address : Address) (cause : AddressError)
  /-- It has served until it was told to end. -/
  | served (path : String) (settings : Settings)
  deriving DecidableEq, Repr

namespace DaemonEnd

/-- The daemon's exit code. -/
def exitCode : DaemonEnd → Nat
  | .generated _ | .served _ _ => 0
  | .tooManyPeers _ => 101
  | _ => 1

/-- The first line that the daemon prints before it logs. -/
def firstLine? : DaemonEnd → Option String
  | .generated path => some ("✅ Generated default config at: " ++ path)
  | .notGenerated _ | .notLoaded _ => none
  | .invalid path _ | .noDataDirectory path _ | .noStore path _ | .noClient path _
  | .tooManyPeers path | .notBound path _ _ | .served path _ => some ("✓ Loaded configuration from " ++ path)

/-- The line that the daemon prints about a failure before it logs. -/
def complaint? : DaemonEnd → Option String
  | .notGenerated cause => some ("❌ Failed to generate config: " ++ cause.message)
  | .notLoaded cause => some ("❌ Failed to load config: " ++ cause.message)
  | .invalid _ cause => some ("❌ " ++ (SettingsFileError.invalid cause).message)
  | _ => none

end DaemonEnd

namespace DaemonOrder

/-- The settings with the listening address that was asked for. -/
def override (order : DaemonOrder) (settings : Settings) : Settings :=
  match order.listenAddress with
  | none => settings
  | some listenAddress => { settings with network := { settings.network with listenAddress } }

/-- Makes what has to be there before the daemon serves. -/
def prepare (path : String) (settings : Settings) : Routine FileCall.Answer DaemonEnd := do
  match ← askFiles (.createDirectories settings.node.dataDirectory) with
  | .error cause => return .noDataDirectory path cause
  | .ok () =>
    match ← settings.openStore with
    | .error cause => return .noStore path cause
    | .ok () =>
      match ← askFiles (.makeClient settings.ledger.requestTimeout) with
      | .error cause => return .noClient path cause
      | .ok () =>
        match Lifecycle.start? settings.network.maxPeers.toNat with
        | none => return .tooManyPeers path
        | some _ =>
          match Address.parts settings.network.listenAddress with
          | .error cause => return .notBound path settings.network.listenAddress cause
          | .ok _ => return .served path settings

/-- Does what the daemon is asked to do, up to where it serves. -/
def perform (order : DaemonOrder) (defaults : Settings) : Routine FileCall.Answer DaemonEnd := do
  if order.generate then
    match ← defaults.save order.path with
    | .error cause => return .notGenerated cause
    | .ok () => return .generated order.path
  else
    match ← defaults.loadOrCreate order.path with
    | .error cause => return .notLoaded cause
    | .ok settings =>
      let settings := order.override settings
      match settings.fault? with
      | some cause => return .invalid order.path cause
      | none => prepare order.path settings

end DaemonOrder

end ChatRelay.CommandLine
