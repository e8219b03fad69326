import ChatRelay.Proofs.Watcher.Retrying
import Mathlib.Data.List.Chain

/-!
# The window of remembered blocks

The remembered blocks are the last ones that have been scanned: their heights follow one another
and end at the scanned height, so that undoing blocks goes back to just before the oldest of them.
Scanning remembers a block and takes its height as scanned before anything can fail. A rollback
forgets blocks first and goes back afterwards, and in between only a hash that cannot be had or an
outpoint that cannot be recorded again ends it. Every other failure leaves the window as it should
be, however little the answers of the ledger agree with one another.
-/

namespace ChatRelay.Watcher

open Routine (Runs)

variable {fails : StoreCall → Prop} {answers : (call : LedgerCall) → call.Answer → Prop}
  {held after : Holdings} {w : Watcher} {settings : WatcherSettings} {tip : UInt64}

/-- The remembered blocks, newest first, have heights that follow one another, are not more than
the depth, and the newest has the scanned height. -/
structure Mirrors (settings : WatcherSettings) (w : Watcher) : Prop where
  same : w.settings = settings
  consecutive : w.recent.IsChain fun newer older => newer.height.toNat = older.height.toNat + 1
  bounded : w.recent.length ≤ settings.depth.toNat
  newest : ∀ block ∈ w.recent.head?, w.lastHeight = some block.height

theorem mirrors_start (settings : WatcherSettings) : (start settings).Mirrors settings where
  same := rfl
  consecutive := .nil
  bounded := Nat.zero_le _
  newest := by simp [start]

namespace Mirrors

/-- A poll starts at the height of the newest block, if blocks are remembered. -/
theorem begin (h : w.Mirrors settings) (watermark : Option UInt64) :
    Mirrors settings { w with lastHeight := some (w.startOf watermark tip) } where
  same := h.same
  consecutive := h.consecutive
  bounded := h.bounded
  newest block hblock := by
    rw [startOf, h.newest block hblock]
    rfl

/-- The block above the newest is remembered, and its height taken as scanned. -/
theorem remember (h : w.Mirrors settings) {block : ScannedBlock}
    (hnext : ∀ newest ∈ w.recent.head?, block.height.toNat = newest.height.toNat + 1) :
    Mirrors settings { w.remember block with lastHeight := some block.height } where
  same := h.same
  consecutive := (List.isChain_cons.mpr ⟨hnext, h.consecutive⟩).take _
  bounded := h.same ▸ List.length_take_le _ _
  newest kept hkept := by
    -- with a depth of zero nothing is kept
    rw [Watcher.remember, List.head?_take] at hkept
    split at hkept
    next => cases hkept
    next => rw [Option.some.inj hkept]

/-- Undoing the newest blocks goes back to the newest of those that are left. -/
theorem undo (h : w.Mirrors settings) {newer left : List ScannedBlock} {oldest : ScannedBlock}
    (hsplit : w.recent = newer ++ oldest :: left) :
    Mirrors settings
      { w with recent := left, lastHeight := some (heightBefore oldest.height) } := by
  obtain ⟨hsame, hconsecutive, hbounded, -⟩ := h
  rw [hsplit] at hconsecutive hbounded
  obtain ⟨hheights, hleft⟩ := List.isChain_cons.mp hconsecutive.right_of_append
  rw [List.length_append, List.length_cons] at hbounded
  refine ⟨hsame, hleft, ?_, fun block hblock => congrArg some (UInt64.toNat_inj.mp ?_)⟩
  · change left.length ≤ settings.depth.toNat
    omega
  · have hheight : oldest.height.toNat = block.height.toNat + 1 := hheights block hblock
    have hbefore : (heightBefore oldest.height).toNat + 1 = oldest.height.toNat :=
      toNat_heightBefore (UInt64.lt_iff_toNat_lt.mpr (by rw [hheight]; exact Nat.succ_pos _))
    omega

/-- A scan that begins above the newest block keeps the window, wherever it ends. -/
theorem scan (h : w.Mirrors settings) {before : Nat × Nat} {height : UInt64} {count : Nat}
    (hbegin : count = 0 ∨ (∀ newest ∈ w.recent.head?, height.toNat = newest.height.toNat + 1) ∧
      height.toNat + count ≤ UInt64.size) {outcome : Outcome (Nat × Nat)}
    (hrun : Runs (Holdings.Serves fails answers) (w.scan before height count) held outcome after) :
    outcome.2.Mirrors settings := by
  induction count generalizing w before height held with
  | zero =>
      obtain ⟨rfl, -⟩ := Routine.runs_pure.mp hrun
      exact h
  | succ count ih =>
      obtain ⟨hnext, hcount⟩ := hbegin.resolve_left (Nat.succ_ne_zero count)
      rcases runs_scan hrun with ⟨cause, -, rfl, -⟩ | ⟨block, -, hblock⟩
      · exact h
      rcases hblock with ⟨cause, -, rfl, -⟩ | ⟨taken, next, -, rfl, hrest⟩
      · exact h
      have hremember : Mirrors settings
          { w.remember ⟨height, block.hash, taken⟩ with lastHeight := some height } :=
        h.remember hnext
      rcases hrest with ⟨cause, -, rfl, -⟩ | hrest
      · exact hremember
      refine ih hremember ?_ hrest
      -- the next height may only wrap around when nothing is left to scan
      cases count with
      | zero => exact .inl rfl
      | succ count =>
          have hsucc : (height + 1).toNat = height.toNat + 1 := toNat_succ (by omega)
          refine .inr ⟨fun newest hnewest => ?_, by omega⟩
          rw [hsucc, Option.some.inj (hremember.newest newest hnewest)]

end Mirrors

/-! ## Polls whose rollbacks are served -/

/-- What a rollback asks is answered: hashes can be had, and outpoints and their messages can be
recorded again. Everything else may fail. The tip is never the last height there is. -/
structure Reversible (fails : StoreCall → Prop)
    (answers : (call : LedgerCall) → call.Answer → Prop) : Prop where
  tip : ∀ tip, answers .height (.ok tip) → tip.toNat + 1 < UInt64.size
  hash : ∀ height cause, ¬ answers (.blockHash height) (.error cause)
  add : ∀ o, ¬ fails (.add o)
  cache : ∀ o payload, ¬ fails (.putPayload o payload)

theorem Mirrors.reconcile (h : w.Mirrors settings) (hrev : Reversible fails answers)
    {outcome : Outcome Nat} (hreconciles : Reconciles fails answers w tip held outcome after) :
    outcome.2.Mirrors settings := by
  cases hreconciles with
  | unread hsplit hunread =>
      obtain ⟨block, -, -, hanswer⟩ := hunread
      exact absurd hanswer (hrev.hash block.height _)
  | settled => exact h
  | unrestored hsplit hfails =>
      obtain ⟨p, -, hadd | ⟨payload, -, hcache⟩⟩ := hfails
      · exact absurd hadd (hrev.add p.outpoint)
      · exact absurd hcache (hrev.cache p.outpoint payload)
  | unmarked hsplit => exact h.undo hsplit
  | undone hsplit => exact h.undo hsplit

/-- Where the newest block has the height behind which is scanned, the scan begins right above
it. -/
theorem scan_above {recent : List ScannedBlock} {last : UInt64}
    (hnewest : ∀ newest ∈ recent.head?, newest.height = last)
    (htip : tip.toNat + 1 < UInt64.size) :
    scanCount last tip = 0 ∨
      (∀ newest ∈ recent.head?, (heightAfter last).toNat = newest.height.toNat + 1) ∧
        (heightAfter last).toNat + scanCount last tip ≤ UInt64.size := by
  rw [scanCount_eq htip]
  by_cases hnone : tip.toNat ≤ last.toNat
  · exact .inl (Nat.sub_eq_zero_of_le hnone)
  · have hafter : (heightAfter last).toNat = last.toNat + 1 := toNat_heightAfter (by omega)
    exact .inr ⟨fun newest h => by rw [hafter, hnewest newest h], by omega⟩

theorem Mirrors.poll (h : w.Mirrors settings) (hfull : settings.fullBlocks)
    (hrev : Reversible fails answers) {outcome : Outcome PollSummary}
    (hrun : Runs (Holdings.Serves fails answers) w.poll held outcome after) :
    outcome.2.Mirrors settings := by
  rcases runs_poll hrun with ⟨cause, -, rfl, -⟩ | ⟨tip, hanswer, hstart⟩
  · exact h
  rcases hstart with ⟨cause, -, -, rfl, -⟩ | ⟨begun, rfl, hpoll⟩
  · exact h
  rw [if_pos (h.same ▸ hfull)] at hpoll
  obtain ⟨undone, middle, hreconciles, hend⟩ := runs_pollFull hpoll
  have hundone := (h.begin held.watermark).reconcile hrev hreconciles
  rcases hend with ⟨cause, -, rfl, -⟩ | ⟨restored, scanned, -, hscan, rfl⟩
  · exact hundone
  · refine hundone.scan (scan_above (fun newest hnewest => ?_) (hrev.tip tip hanswer)) hscan
    rw [hundone.newest newest hnewest]
    rfl

/-- A watcher that polls have led to since it was started with some settings. Each poll may find
another store and another ledger, and fail wherever a rollback does not depend on it. -/
inductive Led (settings : WatcherSettings) : Watcher → Prop
  | start : Led settings (.start settings)
  | poll {w : Watcher} (hw : Led settings w) {fails : StoreCall → Prop}
      {answers : (call : LedgerCall) → call.Answer → Prop} (hrev : Reversible fails answers)
      {held after : Holdings} {outcome : Outcome PollSummary}
      (hrun : Runs (Holdings.Serves fails answers) w.poll held outcome after) :
      Led settings outcome.2

theorem Led.mirrors (h : Led settings w) (hfull : settings.fullBlocks) :
    w.Mirrors settings := by
  induction h with
  | start => exact mirrors_start settings
  | poll _ hrev hrun ih => exact ih.poll hfull hrev hrun

/-- With full blocks, whatever the ledger answers and whichever polls fail: the heights of the
remembered blocks follow one another, there are not more blocks than the depth, and the newest one
has the scanned height. -/
theorem window_of_led (hw : Led settings w) (hfull : settings.fullBlocks) :
    (w.recent.IsChain fun newer older => newer.height.toNat = older.height.toNat + 1) ∧
      w.recent.length ≤ settings.depth.toNat ∧
      ∀ block ∈ w.recent.head?, w.lastHeight = some block.height := by
  obtain ⟨-, hconsecutive, hbounded, hnewest⟩ := hw.mirrors hfull
  exact ⟨hconsecutive, hbounded, hnewest⟩

/-! ## A fork, and a store that does not remember heights -/

/-- A ledger with a tip whose blocks from one height on belong to another branch. -/
def forkedAt (fork tip : UInt64) : (call : LedgerCall) → call.Answer
  | .height => .ok tip
  | .blockHash height => .ok (if height < fork then "main" else "fork")
  | .block height => .ok ⟨if height < fork then "main" else "fork", height, []⟩
  | .output _ => .ok none

/-- The backend with a ledger. Heights are not remembered if `forgetful`. -/
def serveForked (forgetful : Bool) (ledger : (call : LedgerCall) → call.Answer) :
    (request : Request) → MemoryStore.backend.State → request.Answer × MemoryStore.backend.State
  | .store (.setWatermark height), s =>
    if forgetful then (.error (.databaseOperation "down"), s)
    else MemoryStore.backend.perform (.setWatermark height) s
  | .store call, s => MemoryStore.backend.perform call s
  | .ledger call, s => (ledger call, s)

/-- A poll of a ledger with a fork. -/
def pollForked (forgetful : Bool) (fork tip : UInt64)
    (polled : Outcome PollSummary × MemoryStore.backend.State) :
    Outcome PollSummary × MemoryStore.backend.State :=
  polled.1.2.poll.run (serveForked forgetful (forkedAt fork tip)) polled.2

/-- What a watcher that remembers two blocks has come to after the first of three polls, which finds
ten blocks. -/
def forkBegun : Outcome PollSummary × MemoryStore.backend.State :=
  (start ⟨2, true⟩).poll.run (serveForked false (forkedAt 11 10))
    ⟨MemoryStore.empty, MemoryStore.sound_empty⟩

theorem serveForked_served (forgetful : Bool) (ledger : (call : LedgerCall) → call.Answer)
    (request : Request) (s : MemoryStore.backend.State) :
    Holdings.Serves (fun call => ∃ height, call = .setWatermark height)
      (fun call answer => answer = ledger call) request (MemoryStore.backend.holdings s)
      (serveForked forgetful ledger request s).1
      (MemoryStore.backend.holdings (serveForked forgetful ledger request s).2) := by
  cases request with
  | ledger call => exact ⟨rfl, rfl⟩
  | store call =>
      cases call with
      | setWatermark height =>
          cases forgetful with
          | false => exact .inl (MemoryStore.backend.performs (.setWatermark height) s)
          | true =>
              exact .inr ⟨⟨height, rfl⟩, ⟨_, fun _ heq => StoreError.noConfusion heq, rfl⟩, rfl⟩
      | _ => exact .inl (MemoryStore.backend.performs _ s)

theorem reversible_forkedAt {fork tip : UInt64} (htip : tip.toNat + 1 < UInt64.size) :
    Reversible (fun call => ∃ height, call = .setWatermark height)
      (fun call answer => answer = forkedAt fork tip call) where
  tip shown hshown := Except.ok.inj hshown ▸ htip
  hash _ _ herror := by cases herror
  add _ := fun ⟨_, h⟩ => by cases h
  cache _ _ := fun ⟨_, h⟩ => by cases h

theorem Led.forked (hw : Led settings w) {forgetful : Bool} {fork : UInt64}
    (htip : tip.toNat + 1 < UInt64.size) (s : MemoryStore.backend.State) :
    Led settings (w.poll.run (serveForked forgetful (forkedAt fork tip)) s).1.2 :=
  hw.poll (reversible_forkedAt htip)
    (Routine.runs_run MemoryStore.backend.holdings (serveForked_served forgetful _) w.poll s)

/-- The second poll undoes block ten and fails, for the store does not remember the height; the
third scans the new branch, and of its three blocks the last two are remembered. -/
theorem window_of_led_forked :
    let second := pollForked true 10 12 forkBegun
    let third := pollForked false 10 12 second
    Led ⟨2, true⟩ third.1.2 ∧ (WatcherSettings.mk 2 true).fullBlocks ∧
      second.1.1.toOption = none ∧ second.1.2.recent.map (·.height) = [9] ∧
      third.1.2.recent.map (·.height) = [12, 11] ∧
      ∀ block ∈ third.1.2.recent.head?, third.1.2.lastHeight = some block.height := by
  intro second third
  have hbegun : Led ⟨2, true⟩ forkBegun.1.2 := Led.start.forked (by decide) _
  have hsecond : Led ⟨2, true⟩ second.1.2 := hbegun.forked (by decide) _
  have hthird : Led ⟨2, true⟩ third.1.2 := hsecond.forked (by decide) _
  exact ⟨hthird, rfl, by decide +kernel, by decide +kernel, by decide +kernel,
    (window_of_led hthird rfl).2.2⟩

end ChatRelay.Watcher
