import ChatRelay.Request

/-!
# The watcher

The watcher follows the ledger and removes outpoints from the store once they are spent, so that
their owners may author again with other outputs. With full blocks it scans every block once,
remembers the last ones with what they removed, and undoes them when the chain is reorganized. With
headers only it asks the ledger about every recorded outpoint whenever the chain has grown.
-/

namespace ChatRelay

/-- What the watcher is told to do. -/
structure WatcherSettings where
  /-- How many blocks are remembered for undoing. -/
  depth : UInt64
  /-- Whether blocks are scanned; else recorded outpoints are looked up. -/
  fullBlocks : Bool
  deriving DecidableEq, Repr

/-- A scanned block and what it removed from the store. -/
structure ScannedBlock where
  height : UInt64
  hash : String
  pruned : List Pruned
  deriving DecidableEq, Repr

/-- The state of a watcher. -/
structure Watcher where
  settings : WatcherSettings
  /-- The height up to which the chain has been scanned, once it is known. -/
  lastHeight : Option UInt64
  /-- The remembered blocks, newest first. -/
  recent : List ScannedBlock
  deriving DecidableEq, Repr

/-- Why a poll ended early. -/
inductive WatcherError where
  | ledger (cause : LedgerError)
  | store (cause : StoreError)
  deriving DecidableEq, Repr

/-- What a poll did. -/
structure PollSummary where
  tip : UInt64
  scanned : Nat
  pruned : Nat
  restored : Nat
  deriving DecidableEq, Repr

/-- The predecessor of a height, none below zero. -/
def heightBefore (height : UInt64) : UInt64 := if height = 0 then 0 else height - 1

/-- The successor of a height, none above the last one. -/
def heightAfter (height : UInt64) : UInt64 := if height.toNat + 1 = UInt64.size then height else height + 1

namespace Watcher

/-- What a part of a poll returns or why it failed, and the state it leaves. -/
abbrev Outcome (α : Type) := Except WatcherError α × Watcher

/-- A watcher that has not polled yet. -/
def start (settings : WatcherSettings) : Watcher := ⟨settings, none, []⟩

/-- Remembers a block and forgets those beyond the depth. -/
def remember (w : Watcher) (block : ScannedBlock) : Watcher :=
  { w with recent := (block :: w.recent).take w.settings.depth.toNat }

/-- Takes a height as scanned and lets the store remember it. -/
def advance (w : Watcher) (height : UInt64) : Routine Request.Answer (Outcome Unit) := do
  let w := { w with lastHeight := some height }
  match ← askStore (.setWatermark height) with
  | .ok () => return (.ok (), w)
  | .error cause => return (.error (.store cause), w)

/-- Scans `count` heights from `height` on: removes what each block spends and remembers the block.
Stops without failure at the first block that cannot be had. Returns how many blocks were scanned
and how many outpoints removed, given those `before`. -/
def scan (w : Watcher) (before : Nat × Nat) (height : UInt64) : Nat → Routine Request.Answer (Outcome (Nat × Nat))
  | 0 => return (.ok before, w)
  | count + 1 => do
    match ← askLedger (.block height) with
    | .error _ => return (.ok before, w)
    | .ok block =>
      match ← askStore (.prune block.spentOutpoints) with
      | .error cause => return (.error (.store cause), w)
      | .ok pruned =>
        match ← (w.remember ⟨height, block.hash, pruned⟩).advance height with
        | (.error cause, w) => return (.error cause, w)
        | (.ok (), w) => w.scan (before.1 + 1, before.2 + pruned.length) (height + 1) count

/-- The number of heights to scan behind `last` up to `tip`. -/
def scanCount (last tip : UInt64) : Nat := tip.toNat + 1 - (heightAfter last).toNat

/-- Splits remembered blocks, newest first, at the first that is on the chain: those before it are
orphaned. A block above the tip is not asked about. If asking fails, what is orphaned so far is
lost. -/
def walkBack (tip : UInt64) : List ScannedBlock → List ScannedBlock →
    Routine Request.Answer (Except LedgerError (List ScannedBlock) × List ScannedBlock)
  | orphaned, [] => return (.ok orphaned.reverse, [])
  | orphaned, block :: rest => do
    if block.height ≤ tip then
      match ← askLedger (.blockHash block.height) with
      | .error cause => return (.error cause, block :: rest)
      | .ok hash =>
        if hash = block.hash then return (.ok orphaned.reverse, block :: rest)
        else walkBack tip (block :: orphaned) rest
    else walkBack tip (block :: orphaned) rest

/-- Records removed outpoints again with their messages, and returns how many, given those `before`.
An outpoint that is recorded already keeps its message. -/
def restore (before : Nat) : List Pruned → Routine Request.Answer (Except StoreError Nat)
  | [] => return .ok before
  | pruned :: rest => do
    match ← askStore (.add pruned.outpoint) with
    | .error (.alreadyPresent _) => restore before rest
    | .error cause => return .error cause
    | .ok () =>
      match pruned.payload with
      | none => restore (before + 1) rest
      | some payload =>
        match ← askStore (.putPayload pruned.outpoint payload) with
        | .error cause => return .error cause
        | .ok _ => restore (before + 1) rest

/-- Undoes the remembered blocks that are no longer on the chain, newest first, and goes back to the
height before the oldest of them. Returns how many outpoints were recorded again. -/
def reconcile (w : Watcher) (tip : UInt64) : Routine Request.Answer (Outcome Nat) := do
  match ← walkBack tip [] w.recent with
  | (.error cause, recent) => return (.error (.ledger cause), { w with recent })
  | (.ok orphaned, recent) =>
    let w := { w with recent }
    match orphaned.getLast? with
    | none => return (.ok 0, w)
    | some oldest =>
      match ← restore 0 (orphaned.flatMap (·.pruned)) with
      | .error cause => return (.error (.store cause), w)
      | .ok restored =>
        match ← w.advance (heightBefore oldest.height) with
        | (.error cause, w) => return (.error cause, w)
        | (.ok (), w) => return (.ok restored, w)

/-- Looks up outpoints and returns those that are no longer unspent, given those found `before`,
newest first. -/
def lookUp (before : List Outpoint) :
    List Outpoint → Routine Request.Answer (Except LedgerError (List Outpoint))
  | [] => return .ok before.reverse
  | outpoint :: rest => do
    match ← askLedger (.output outpoint) with
    | .error cause => return .error cause
    | .ok output =>
      if output.any fun output => !output.spent then lookUp before rest
      else lookUp (outpoint :: before) rest

/-- Removes the recorded outpoints that are no longer unspent, and returns how many. -/
def recheck : Routine Request.Answer (Except WatcherError Nat) := do
  match ← askStore .outpoints with
  | .error cause => return .error (.store cause)
  | .ok outpoints =>
    match ← lookUp [] outpoints with
    | .error cause => return .error (.ledger cause)
    | .ok gone =>
      match ← askStore (.prune gone) with
      | .error cause => return .error (.store cause)
      | .ok pruned => return .ok pruned.length

/-- The height behind which scanning starts: the one remembered, else the one that the store
remembers, else the depth below the tip. -/
def startHeight (w : Watcher) (tip : UInt64) : Routine Request.Answer (Except WatcherError UInt64) := do
  match w.lastHeight with
  | some height => return .ok height
  | none =>
    match ← askStore .watermark with
    | .error cause => return .error (.store cause)
    | .ok (some height) => return .ok height
    | .ok none => return .ok (if tip < w.settings.depth then 0 else tip - w.settings.depth)

/-- A poll with full blocks: undo what is orphaned, then scan up to the tip. -/
def pollFull (w : Watcher) (last tip : UInt64) : Routine Request.Answer (Outcome PollSummary) := do
  match ← w.reconcile tip with
  | (.error cause, w) => return (.error cause, w)
  | (.ok restored, w) =>
    let last := w.lastHeight.getD last
    match ← w.scan (0, 0) (heightAfter last) (scanCount last tip) with
    | (.error cause, w) => return (.error cause, w)
    | (.ok (scanned, pruned), w) => return (.ok ⟨tip, scanned, pruned, restored⟩, w)

/-- A poll with headers only: if the chain has grown, look up what is recorded. -/
def pollHeaders (w : Watcher) (last tip : UInt64) : Routine Request.Answer (Outcome PollSummary) := do
  if last < tip then
    match ← recheck with
    | .error cause => return (.error cause, w)
    | .ok pruned =>
      match ← w.advance tip with
      | (.error cause, w) => return (.error cause, w)
      | (.ok (), w) => return (.ok ⟨tip, 0, pruned, 0⟩, w)
  else return (.ok ⟨tip, 0, 0, 0⟩, w)

/-- One poll. -/
def poll (w : Watcher) : Routine Request.Answer (Outcome PollSummary) := do
  match ← askLedger .height with
  | .error cause => return (.error (.ledger cause), w)
  | .ok tip =>
    match ← w.startHeight tip with
    | .error cause => return (.error cause, w)
    | .ok last =>
      let w := { w with lastHeight := some last }
      if w.settings.fullBlocks then w.pollFull last tip else w.pollHeaders last tip

/-- Polls `count` times, whatever the polls return. -/
def polls (w : Watcher) : Nat → Routine Request.Answer Watcher
  | 0 => return w
  | count + 1 => do
    let (_, w) ← w.poll
    w.polls count

/-- The time that `count` polls take, the first at once and the others an interval of at least one
second apart. -/
def elapsed (interval count : Nat) : Nat := (count - 1) * max interval 1

end Watcher

end ChatRelay
