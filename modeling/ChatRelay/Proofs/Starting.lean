import ChatRelay.CommandLine.Daemon
import ChatRelay.Proofs.Lifecycle.Steps
import ChatRelay.Proofs.Station.Deliveries
import ChatRelay.Wire.Limits

/-!
# Starting with valid settings

What is made of settings has needs of its own: a node needs a permit for each inbound connection, of
which there cannot be any number, and a timer needs an interval. Valid settings have an interval and
let in messages of a sensible length, but their number of connections is not judged, so a daemon may
find settings valid and crash on them.
-/

namespace ChatRelay

/-- What a daemon makes before it serves. -/
structure Assembly (σ : Type) where
  node : Node σ
  /-- What limits the frames of each session. -/
  limiter : RateLimiter Frame.Kind
  watcher : Watcher
  /-- The seconds from one poll to the next. -/
  interval : Nat
  /-- The seconds for which tasks are awaited in the end. -/
  grace : Nat

namespace Settings

variable {σ : Type} {settings : Settings} {world : σ}

/-- What settings ask for. No node can be made with too many permits, and no timer without an
interval; everything else can be made of any values. -/
def assemble? (settings : Settings) (world : σ) : Option (Assembly σ) :=
  let interval := max settings.chain.pollInterval.toNat 1
  if interval = 0 then none
  else
    (settings.start? world).map fun node =>
      { node
        limiter := Frame.limiter
        watcher := .start ⟨settings.chain.maxReorgDepth, settings.chain.scanFullBlocks⟩
        interval
        grace := settings.network.shutdownGrace.toNat }

/-- Whether there can be so many permits as settings ask for. -/
def Seats (settings : Settings) : Prop :=
  settings.network.maxPeers.toNat ≤ Lifecycle.maxPermits

instance (settings : Settings) : Decidable settings.Seats := inferInstanceAs (Decidable (_ ≤ _))

/-- Whether there is a data directory when settings ask for it, then a store, and then a client for
the ledger's node. -/
@[mk_iff]
structure Equipped (settings : Settings) (serve : (call : FileCall) → σ → call.Answer × σ)
    (s : σ) : Prop where
  directory : (serve (.createDirectories settings.node.dataDirectory) s).1 = .ok ()
  store : (settings.openStore.run serve
    (serve (.createDirectories settings.node.dataDirectory) s).2).1 = .ok ()
  client : (serve (.makeClient settings.ledger.requestTimeout) (settings.openStore.run serve
    (serve (.createDirectories settings.node.dataDirectory) s).2).2).1 = .ok ()

/-- Whether the parts are those that settings ask for. -/
structure Fitted (settings : Settings) (parts : Assembly σ) : Prop where
  permits : parts.node.lifecycle.permits = settings.network.maxPeers.toNat
  maxMessage : parts.node.maxMessage = settings.network.maxMessageSize.toNat
  readable : Message.headerLength ≤ parts.node.maxMessage ∧
    parts.node.maxMessage ≤ Message.maxEncodedLength
  interval : parts.interval = settings.chain.pollInterval.toNat
  ticks : 0 < parts.interval

theorem isSome_lifecycleStart? {permits : Nat} :
    (Lifecycle.start? permits).isSome ↔ permits ≤ Lifecycle.maxPermits := by
  unfold Lifecycle.start?
  split <;> simp_all

theorem exists_assemble? : (∃ parts, settings.assemble? world = some parts) ↔ settings.Seats := by
  rw [Seats, ← isSome_lifecycleStart?, ← Option.isSome_iff_exists, assemble?,
    if_neg (by omega), start?, Node.start?]
  simp only [Option.isSome_map]

theorem interval_ne_zero (hvalid : settings.fault? = none) : settings.chain.pollInterval ≠ 0 := by
  intro hzero
  simp [fault?, hzero] at hvalid

theorem messageSize_within (hvalid : settings.fault? = none) :
    Message.headerLength ≤ settings.network.maxMessageSize.toNat ∧
      settings.network.maxMessageSize.toNat ≤ Message.maxEncodedLength := by
  rw [fault?, if_neg (interval_ne_zero hvalid)] at hvalid
  split at hvalid
  · cases hvalid
  next hsize =>
    rw [not_or, Nat.not_lt, Nat.not_lt] at hsize
    exact hsize

theorem fitted_of_assemble? {parts : Assembly σ} (hvalid : settings.fault? = none)
    (h : settings.assemble? world = some parts) : settings.Fitted parts := by
  rw [assemble?, if_neg (by omega)] at h
  obtain ⟨node, hnode, rfl⟩ := Option.map_eq_some_iff.mp h
  obtain ⟨lifecycle, hlifecycle, rfl⟩ := Option.map_eq_some_iff.mp hnode
  obtain rfl := Lifecycle.eq_of_start? hlifecycle
  have hpositive : 0 < settings.chain.pollInterval.toNat :=
    Nat.pos_of_ne_zero fun hzero => interval_ne_zero hvalid (UInt64.toNat_inj.mp hzero)
  exact ⟨rfl, rfl, messageSize_within hvalid, Nat.max_eq_left hpositive,
    Nat.lt_of_lt_of_le hpositive (Nat.le_max_left _ _)⟩

end Settings

namespace CommandLine.DaemonOrder

section

variable {σ : Type} {serve : (call : FileCall) → σ → call.Answer × σ} {s : σ}
  {order : DaemonOrder} {settings : Settings} {path : String}

theorem fault?_override : (order.override settings).fault? = settings.fault? := by
  unfold override
  split <;> rfl

theorem seats_override : (order.override settings).Seats ↔ settings.Seats := by
  unfold override
  split <;> rfl

theorem equipped_override :
    (order.override settings).Equipped serve s ↔ settings.Equipped serve s := by
  unfold override
  split <;> simp only [Settings.equipped_iff, Settings.openStore, Settings.storagePath]

/-- A daemon with a data directory, a store and a client crashes exactly if it asks for too many
permits. -/
theorem exitCode_prepare : ((prepare path settings).run serve s).1.exitCode = 101 ↔
    settings.Equipped serve s ∧ ¬ settings.Seats := by
  rw [Settings.equipped_iff, prepare, askFiles, Routine.run_seq, Routine.run_ask, Routine.run_done]
  cases (serve (.createDirectories settings.node.dataDirectory) s).1 with
  | error cause => simp [DaemonEnd.exitCode]
  | ok made =>
      dsimp only
      rw [Routine.run_seq]
      obtain ⟨opened, t⟩ := settings.openStore.run serve
        (serve (.createDirectories settings.node.dataDirectory) s).2
      cases opened with
      | error cause => simp [DaemonEnd.exitCode]
      | ok opened =>
          dsimp only
          rw [askFiles, Routine.run_seq, Routine.run_ask, Routine.run_done]
          cases (serve (.makeClient settings.ledger.requestTimeout) t).1 with
          | error cause => simp [DaemonEnd.exitCode]
          | ok made =>
              rw [Settings.Seats, ← Settings.isSome_lifecycleStart?]
              cases Lifecycle.start? settings.network.maxPeers.toNat with
              | none => simp [DaemonEnd.exitCode]
              | some lifecycle =>
                  cases Address.parts settings.network.listenAddress <;> simp [DaemonEnd.exitCode]

/-- A daemon crashes exactly if it finds its settings valid and asks for too many permits. -/
theorem exitCode_perform {defaults : Settings} :
    ((order.perform defaults).run serve s).1.exitCode = 101 ↔
      ¬ order.generate ∧ ∃ settings t,
        (defaults.loadOrCreate order.path).run serve s = (.ok settings, t) ∧
        settings.fault? = none ∧ settings.Equipped serve t ∧ ¬ settings.Seats := by
  unfold perform
  by_cases hgenerate : order.generate
  · rw [if_pos hgenerate, Routine.run_seq]
    cases ((defaults.save order.path).run serve s).1 <;> simp [DaemonEnd.exitCode, hgenerate]
  · rw [if_neg hgenerate, Routine.run_seq, and_iff_right hgenerate]
    obtain ⟨loaded, t⟩ := (defaults.loadOrCreate order.path).run serve s
    cases loaded with
    | error cause => simp [DaemonEnd.exitCode]
    | ok settings =>
        simp only [fault?_override, Prod.mk.injEq, Except.ok.injEq]
        cases hfault : settings.fault? with
        | some cause => simp [DaemonEnd.exitCode, hfault]
        | none =>
            simp only [exitCode_prepare, equipped_override, seats_override]
            constructor
            · exact fun hcrash => ⟨settings, t, ⟨rfl, rfl⟩, hfault, hcrash⟩
            · rintro ⟨settings, t, ⟨rfl, rfl⟩, -, hcrash⟩
              exact hcrash

end

/-- From valid settings, whatever the address to listen on, everything a daemon needs can be made
exactly if there can be so many permits, and then as it was asked for. A daemon crashes where
there cannot although it has valid settings, a data directory, a store and a client, and nowhere
else. -/
theorem assembled_iff {settings : Settings} (hvalid : settings.fault? = none)
    (order : DaemonOrder) :
    (order.override settings).fault? = none ∧
    (∀ (σ : Type) (world : σ),
      ((∃ parts, (order.override settings).assemble? world = some parts) ↔ settings.Seats) ∧
      ∀ parts, (order.override settings).assemble? world = some parts →
        (order.override settings).Fitted parts) ∧
    ∀ (defaults : Settings) (σ : Type) (serve : (call : FileCall) → σ → call.Answer × σ) (s : σ),
      ((order.perform defaults).run serve s).1.exitCode = 101 ↔
        ¬ order.generate ∧ ∃ loaded t,
          (defaults.loadOrCreate order.path).run serve s = (.ok loaded, t) ∧
          loaded.fault? = none ∧ loaded.Equipped serve t ∧ ¬ loaded.Seats := by
  have hoverride : (order.override settings).fault? = none := fault?_override.trans hvalid
  refine ⟨hoverride, fun σ world => ⟨?_, fun parts => ?_⟩, fun defaults σ serve s => ?_⟩
  · exact Settings.exists_assemble?.trans seats_override
  · exact Settings.fitted_of_assemble? hoverride
  · exact exitCode_perform

/-- A file of settings that ask for one permit more than there can be. -/
def crowdedFile : Bytes := Bytes.ofText "[network]\nmax_peers = 2305843009213693952\n"

/-- Files of which there is only one, with these contents. -/
def serveFile (contents : Bytes) : (call : FileCall) → Unit → call.Answer × Unit
  | .present _, s => (true, s)
  | .read _, s => (.ok contents, s)
  | .write _ _, s => (.ok (), s)
  | .createDirectories _, s => (.ok (), s)
  | .openStore _, s => (.ok (), s)
  | .makeClient _, s => (.ok (), s)

/-- The default settings with another number of inbound connections. -/
def peopled (maxPeers : UInt64) : Settings :=
  { Settings.defaults "home" with
    network := { (Settings.defaults "home").network with maxPeers } }

/-- An order to serve at another address. -/
def plainOrder : DaemonOrder := ⟨"utxochat.toml", some "127.0.0.1:0", false, false⟩

theorem assembled_iff_peopled :
    (peopled 2305843009213693951).fault? = none ∧
      (∃ parts, (plainOrder.override (peopled 2305843009213693951)).assemble? () = some parts) ∧
      ¬ ∃ parts, (plainOrder.override (peopled 2305843009213693952)).assemble? () = some parts := by
  have hvalid : (peopled 2305843009213693951).fault? = none := by decide
  have hcrowded : (peopled 2305843009213693952).fault? = none := by decide
  refine ⟨hvalid, ?_, ?_⟩
  · exact ((assembled_iff hvalid plainOrder).2.1 Unit ()).1.mpr (by decide)
  · rw [((assembled_iff hcrowded plainOrder).2.1 Unit ()).1]
    decide

/-- A file may hold valid settings with which a daemon crashes. -/
theorem crowded_crashes :
    let loading := (Settings.defaults "home").loadOrCreate "utxochat.toml"
    let crowded := peopled 2305843009213693952
    (loading.run (serveFile crowdedFile) ()).1.toOption = some crowded ∧
      (plainOrder.override crowded).fault? = none ∧
      ((plainOrder.override crowded).assemble? ()).isNone ∧
      ((plainOrder.perform (.defaults "home")).run (serveFile crowdedFile) ()).1 =
        .tooManyPeers "utxochat.toml" :=
  ⟨by decide +kernel, by decide, by decide, by decide +kernel⟩

end CommandLine.DaemonOrder

end ChatRelay
