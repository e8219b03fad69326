import ChatRelay.Proofs.Watcher.Reorganization
import ChatRelay.Proofs.Watcher.Scanning

/-!
# Restarting the watcher

A watcher is dropped between two polls and another one goes on with the same store. All that it
learns from the store is the height that was scanned last. While no block has been scanned that
height is not there, and the other one derives its own start from the tip that it sees first. So a
restart changes what is recorded in the end exactly if nothing had been scanned by then, and
a block between the two starts is the only one to spend a recorded outpoint.
-/

namespace ChatRelay

open Routine (Runs)

/-! ## Sessions -/

/-- The backend, with a ledger that tells the truth about a chain, apart from some of its blocks. -/
def OutpointStore.serveRound (B : OutpointStore) (r : Round) :
    (request : Request) → B.State → request.Answer × B.State
  | .store call, s => B.perform call s
  | .ledger call, s => (r.answer call, s)

namespace Session

variable {B : OutpointStore}

def visit (s : Session B) (r : Round) : Except WatcherError PollSummary × Session B :=
  let polled := s.watcher.poll.run (B.serveRound r) s.store
  (polled.1.1, { s with watcher := polled.1.2, store := polled.2 })

def visits (s : Session B) (rounds : List Round) : Session B :=
  rounds.foldl (fun s r => (s.visit r).2) s

/-- Another watcher goes on with the store. -/
def restart (s : Session B) : Session B := { s with watcher := .start s.watcher.settings }

/-- A poll is an execution with a ledger that tells the truth, apart from the missing blocks. -/
theorem runs_visit (s : Session B) (r : Round) :
    Runs (Watcher.Partly r) s.watcher.poll (B.holdings s.store)
      ((s.visit r).1, (s.visit r).2.watcher) (B.holdings (s.visit r).2.store) := by
  have hserved : ∀ (request : Request) (store : B.State),
      request.Served Holdings.Performs (fun _ => False) (fun call answer => answer = r.answer call)
        (B.holdings store) (B.serveRound r request store).1
        (B.holdings (B.serveRound r request store).2) := by
    intro request store
    cases request with
    | store call => exact .inl (B.performs call store)
    | ledger call => exact ⟨rfl, rfl⟩
  exact Routine.runs_run B.holdings hserved s.watcher.poll s.store

end Session

open Watcher (Scanned floor start)

variable {B : OutpointStore} {settings : WatcherSettings} {begun : UInt64} {n : Nat}
  {c : Chain} {r : Round} {rounds : List Round} {s : Session B}
  {known : Outpoint → Option (Option Bytes)}

/-- A session whose watcher has scanned a chain up to a height. -/
abbrev Session.Scanned (settings : WatcherSettings) (c : Chain)
    (known : Outpoint → Option (Option Bytes)) (begun : UInt64) (n : Nat) (s : Session B) : Prop :=
  Watcher.Scanned settings c known begun n s.watcher (B.holdings s.store)

theorem Session.Scanned.visit (h : s.Scanned settings c known begun n) (hgrows : c.Grows r.chain)
    (hfull : settings.fullBlocks) :
    (s.visit r).2.Scanned settings r.chain known begun (r.front n) := by
  obtain ⟨last, hheight, -⟩ := h.last
  have hsame : { s.watcher with
      lastHeight := some (s.watcher.startOf (B.holdings s.store).watermark r.chain.tip) } =
        s.watcher := by
    rw [Watcher.startOf, Option.mem_def.mp hheight]
    exact congrArg (fun last => { s.watcher with lastHeight := last }) hheight.symm
  have hgrown := h.grow hgrows
  rw [← hsame] at hgrown
  exact (hgrown.poll hfull (s.runs_visit r)).2

theorem Session.Scanned.visits (h : s.Scanned settings c known begun n)
    (hgrows : (c :: rounds.map (·.chain)).Pairwise Chain.Grows) (hfull : settings.fullBlocks) :
    (s.visits rounds).Scanned settings (Round.latest c rounds) known begun
      (Round.fronts rounds n) := by
  induction rounds generalizing c n s with
  | nil => exact h
  | cons r rest ih =>
      obtain ⟨hlater, hrest⟩ := List.pairwise_cons.mp hgrows
      exact ih (h.visit (hlater _ List.mem_cons_self) hfull) hrest

/-- A watcher that begins with a store goes on behind the height that the store remembers, else
behind the depth below the tip. -/
theorem Session.scanned_visit (hwatcher : s.watcher = .start settings)
    (hfull : settings.fullBlocks) :
    let begun := (start settings).startOf (B.holdings s.store).watermark r.chain.tip
    (s.visit r).2.Scanned settings r.chain (B.holdings s.store).entries begun
      (r.front (floor begun)) := by
  have hstart := Watcher.scanned_start r.chain (B.holdings s.store) settings r.chain.tip
  rw [← hwatcher] at hstart ⊢
  exact (hstart.poll hfull (s.runs_visit r)).2

/-- Where the store remembers a height, another watcher goes on where the first one was. -/
theorem Session.Scanned.restart_visit (h : s.Scanned settings c known begun n)
    (hgrows : c.Grows r.chain) (hfull : settings.fullBlocks)
    (hmark : (B.holdings s.store).watermark.isSome) :
    (s.restart.visit r).2.Scanned settings r.chain known begun (r.front n) := by
  obtain ⟨height, hheight⟩ := Option.isSome_iff_exists.mp hmark
  have hlast := h.marked height hheight
  have hgrown := h.grow hgrows
  have hstarted : Watcher.Scanned settings r.chain known begun n
      { s.restart.watcher with
        lastHeight := some (s.restart.watcher.startOf (B.holdings s.restart.store).watermark
          r.chain.tip) } (B.holdings s.restart.store) := {
    configured := h.configured
    last := by
      obtain ⟨last, hmem, hmax⟩ := h.last
      rw [hlast] at hmem
      refine ⟨height, ?_, ?_⟩
      · simp [Session.restart, Watcher.startOf, Watcher.start, hheight]
      · rw [Option.some.inj hmem, hmax]
    low := hgrown.low
    high := hgrown.high
    recent := nofun
    entries := hgrown.entries
    marked := by
      intro other hother
      have hsame : height = other := Option.some.inj (hheight.symm.trans hother)
      simp [Session.restart, Watcher.startOf, Watcher.start, hheight, hsame]
    unmarked := hgrown.unmarked }
  exact (hstarted.poll hfull (s.restart.runs_visit r)).2

/-! ## The height that the store remembers -/

theorem Request.Served.marked {request : Request} {answer : request.Answer}
    {fails : StoreCall → Prop} {answers : (call : LedgerCall) → call.Answer → Prop}
    {held after : Holdings}
    (h : request.Served Holdings.Performs fails answers held answer after)
    (hmark : held.watermark.isSome) : after.watermark.isSome := by
  cases request with
  | ledger call => rwa [h.2]
  | store call =>
      rcases h.store with hperforms | ⟨-, rfl⟩
      · cases call with
        | add outpoint =>
            rw [Holdings.performs_add] at hperforms
            split at hperforms <;> rw [hperforms.2] <;> exact hmark
        | putPayload outpoint payload =>
            rw [hperforms.2]
            split <;> exact hmark
        | setWatermark height =>
            rw [hperforms.2]
            rfl
        | _ => rw [hperforms.2]; exact hmark
      · exact hmark

theorem Watcher.marked_of_runs {α : Type} {routine : Routine Request.Answer α}
    {held after : Holdings} {result : α} (h : Runs (Partly r) routine held result after)
    (hmark : held.watermark.isSome) : after.watermark.isSome := by
  induction h with
  | done result state => exact hmark
  | ask served rest ih => exact ih (served.marked hmark)

/-- A height that the store remembers is never forgotten. -/
theorem Session.marked_visits (hmark : (B.holdings s.store).watermark.isSome) :
    (B.holdings (s.visits rounds).store).watermark.isSome := by
  induction rounds generalizing s with
  | nil => exact hmark
  | cons r rest ih => exact ih (Watcher.marked_of_runs (s.runs_visit r) hmark)

theorem Watcher.toNat_startOf_none {w : Watcher} (h : w.lastHeight = none) (tip : UInt64) :
    (w.startOf none tip).toNat = tip.toNat - w.settings.depth.toNat := by
  rw [startOf, h, Option.or_none, Option.getD_none]
  by_cases hshort : tip < w.settings.depth
  · have hlt := UInt64.lt_iff_toNat_lt.mp hshort
    rw [if_pos hshort, UInt64.toNat_zero]
    omega
  · rw [if_neg hshort]
    exact UInt64.toNat_sub_of_le _ _ (UInt64.not_lt.mp hshort)

/-! ## Two starts -/

theorem Round.mem_latest (c : Chain) (rounds : List Round) :
    Round.latest c rounds ∈ c :: rounds.map (·.chain) := by
  induction rounds generalizing c with
  | nil => exact List.mem_cons_self
  | cons r rest ih => exact List.mem_cons_of_mem _ (ih r.chain)

/-- What is left of known outpoints behind a higher start is what is left behind a lower one, if no
block between the starts is the only one to spend one of them. -/
theorem Chain.left_same_iff {low middle high : Nat} (hlow : low ≤ middle) (hhigh : middle ≤ high) :
    (∀ o, (if c.spends middle high o then none else known o) =
        if c.spends low high o then none else known o) ↔
      ∀ o, (known o).isSome → c.spends low middle o → c.spends middle high o := by
  refine forall_congr' fun o => ?_
  have hsplit := spends_split (c := c) (o := o) hlow hhigh
  cases hknown : known o with
  | none => simp
  | some entry =>
      by_cases hlate : c.spends middle high o
      · simp [hlate, hsplit.mpr (.inr hlate)]
      · simp [hlate, hsplit]

/-- A run that has come up to the tip has scanned up to it, or it began at the highest height there
is and will never scan higher. -/
theorem Watcher.Scanned.reached {w : Watcher} {held : Holdings}
    (h : Watcher.Scanned settings c known begun n w held)
    (hreached : ∃ height ∈ w.lastHeight, c.tip ≤ height) :
    c.tip.toNat ≤ n ∨ ∀ other, begun ≤ other → other = begun := by
  obtain ⟨height, hheight, htip⟩ := hreached
  obtain ⟨last, hlast, hmax⟩ := h.last
  obtain rfl : height = last := Option.some.inj (hheight.symm.trans hlast)
  have hle := UInt64.le_iff_toNat_le.mp htip
  have hlow := h.low
  have hbegun : floor begun = min begun.toNat (UInt64.size - 2) := rfl
  have hsize : UInt64.size = 18446744073709551616 := rfl
  by_cases hn : c.tip.toNat ≤ n
  · exact .inl hn
  · refine .inr fun other hother => UInt64.toNat_inj.mp ?_
    have hother := UInt64.le_iff_toNat_le.mp hother
    have hlt := other.toNat_lt_size
    have htiplt := c.tip.toNat_lt_size
    omega

/-- Where the store remembers no height, another watcher begins at a height of its own, and what is
recorded in the end is the same if that skips no block that is needed. -/
theorem Session.Scanned.restart_iff (h : s.Scanned settings c known begun n)
    (hunmarked : (B.holdings s.store).watermark = none) (hfull : settings.fullBlocks) {next : Round}
    {after : List Round}
    (hgrows : (c :: (next :: after).map (·.chain)).Pairwise Chain.Grows)
    (hreached : ∃ height ∈ (s.visits (next :: after)).watcher.lastHeight,
      (Round.latest next.chain after).tip ≤ height)
    (hbegun : begun ≤ (start settings).startOf none next.chain.tip) :
    let final := Round.latest next.chain after
    let new := floor ((start settings).startOf none next.chain.tip)
    (∀ o, (B.holdings (s.restart.visits (next :: after)).store).entries o =
        (B.holdings (s.visits (next :: after)).store).entries o) ↔
      ∀ o, (known o).isSome → final.spends (floor begun) new o →
        final.spends new final.tip.toNat o := by
  intro final new
  have hkept : (s.visits (next :: after)).Scanned settings final known begun _ :=
    h.visits hgrows hfull
  obtain rfl := h.unmarked hunmarked
  have hknown : (B.holdings s.store).entries = known := by
    funext o
    rw [h.entries, Chain.spends_of_le (Nat.le_refl _)]
    rfl
  have hfresh : s.restart.watcher = start settings := congrArg start h.configured
  have hrestarted : (s.restart.visits (next :: after)).Scanned settings final known
      ((start settings).startOf none next.chain.tip)
      (Round.fronts (next :: after) new) := by
    have hvisit := Session.scanned_visit (r := next) hfresh hfull
    rw [show (B.holdings s.restart.store).watermark = none from hunmarked,
      show (B.holdings s.restart.store).entries = known from hknown] at hvisit
    exact hvisit.visits (List.pairwise_cons.mp hgrows).2 hfull
  simp only [hrestarted.entries, hkept.entries]
  have hmono : Round.fronts (next :: after) (floor begun) ≤ Round.fronts (next :: after) new :=
    Round.fronts_mono (Watcher.floor_mono hbegun)
  rcases hkept.reached hreached with htip | honly
  · have hnew : new ≤ final.tip.toNat := by
      have hgrown : next.chain = final ∨ next.chain.Grows final := by
        rcases List.mem_cons.mp (Round.mem_latest next.chain after) with heq | hmem
        · exact .inl heq.symm
        · exact .inr ((List.pairwise_cons.mp (List.pairwise_cons.mp hgrows).2).1 _ hmem)
      have hle : next.chain.tip.toNat ≤ final.tip.toNat := by
        rcases hgrown with heq | hgrown
        · exact Nat.le_of_eq (by rw [heq])
        · exact UInt64.le_iff_toNat_le.mp hgrown.tip_le
      have hstart := Watcher.toNat_startOf_none (w := start settings) rfl next.chain.tip
      exact Nat.le_trans (Nat.min_le_left _ _) (by omega)
    rw [← Chain.left_same_iff (Watcher.floor_mono hbegun) hnew]
    simp only [Chain.spends_above htip, Chain.spends_above (Nat.le_trans htip hmono)]
  · -- both begin at the highest height, and so they do the same
    have hsame : new = floor begun := congrArg floor (honly _ hbegun)
    simp only [hsame, honly _ hbegun, Chain.spends_of_le (Nat.le_refl _)]
    simp

/-! ## A restart -/

/-- A chain whose third block spends an outpoint. -/
def shortChain : Chain where
  blocks := [⟨"h0", 0, []⟩, ⟨"h1", 1, []⟩, ⟨"h2", 2, [⟨"t1", [some (numbered 1)]⟩]⟩]
  outputs _ := none
  blocks_ne_nil := List.cons_ne_nil _ _
  length_le := by decide

def longChain : Chain := shortChain.extend ⟨"h3", 3, []⟩

/-- A store that has never been scanned for and records the outpoint with a message. -/
def freshStore : MemoryStore.backend.State :=
  [StoreCall.add (numbered 1), .putPayload (numbered 1) [1]].foldl
    (fun s call => (MemoryStore.backend.perform call s).2)
    ⟨MemoryStore.empty, MemoryStore.sound_empty⟩

def wholeRound : Round := ⟨shortChain, fun _ => none⟩

/-- The block that spends the outpoint cannot be had. -/
def brokenRound : Round := ⟨shortChain, fun height => if height = 2 then some .shape else none⟩

def laterRound : Round := ⟨longChain, fun _ => none⟩

/-- What is held after one round and another, without or with a restart between them. -/
def heldAfter (first second : Round) (restarted : Bool) : Holdings :=
  let stopped := (Session.begin (B := MemoryStore.backend) ⟨1, true⟩ freshStore).visits [first]
  MemoryStore.backend.holdings
    ((if restarted then stopped.restart else stopped).visits [second]).store

/-- A restart leaves what is recorded in the end as it would be without it, exactly if the store
remembered a height by then, or no block between the two starts is the only one to spend a recorded
outpoint. -/
theorem Session.restart_same_iff (hfull : settings.fullBlocks) (store : B.State)
    {first next : Round} {before after : List Round}
    (hgrows : ((first :: before ++ next :: after).map (·.chain)).Pairwise Chain.Grows)
    (hreached : ∃ height ∈
      (((begin settings store).visits (first :: before)).visits (next :: after)).watcher.lastHeight,
      (Round.latest next.chain after).tip ≤ height) :
    let stopped := (begin settings store).visits (first :: before)
    let kept := stopped.visits (next :: after)
    let restarted := stopped.restart.visits (next :: after)
    let final := Round.latest next.chain after
    let old := floor ((start settings).startOf none first.chain.tip)
    let new := floor ((start settings).startOf none next.chain.tip)
    (∀ o, (B.holdings restarted.store).entries o = (B.holdings kept.store).entries o) ↔
      (B.holdings stopped.store).watermark.isSome ∨
        ∀ o, (B.holdings store).recorded o → final.spends old new o →
          final.spends new final.tip.toNat o := by
  intro stopped kept restarted final old new
  rw [List.map_append, List.pairwise_append] at hgrows
  obtain ⟨hbefore, hafter, hacross⟩ := hgrows
  have hgrows : (Round.latest first.chain before :: (next :: after).map (·.chain)).Pairwise
      Chain.Grows :=
    List.pairwise_cons.mpr ⟨fun d hd => hacross _ (Round.mem_latest _ _) d hd, hafter⟩
  -- the run without the restart
  have hfirst := Session.scanned_visit (s := begin settings store) (r := first) rfl hfull
  have hstopped : stopped.Scanned settings _ _ _ _ := hfirst.visits hbefore hfull
  have hkept : kept.Scanned settings _ _ _ _ := hstopped.visits hgrows hfull
  by_cases hmark : (B.holdings stopped.store).watermark.isSome
  · have hrestarted : restarted.Scanned settings _ _ _ _ :=
      (hstopped.restart_visit (hacross _ (Round.mem_latest _ _) _ List.mem_cons_self) hfull
        hmark).visits hafter hfull
    refine iff_of_true (fun o => ?_) (.inl hmark)
    exact (hrestarted.entries o).trans (hkept.entries o).symm
  · have hunmarked : (B.holdings stopped.store).watermark = none := by simpa using hmark
    have hnever : (B.holdings store).watermark = none := by
      cases hstore : (B.holdings store).watermark with
      | none => rfl
      | some height =>
          exact absurd (Session.marked_visits (s := begin settings store) (by
            rw [Session.begin, hstore]; rfl)) hmark
    rw [show (B.holdings (begin settings store).store).watermark = none from hnever] at hstopped
    have hbegun : (start settings).startOf none first.chain.tip ≤
        (start settings).startOf none next.chain.tip := by
      have hle : first.chain.tip.toNat ≤ next.chain.tip.toNat := UInt64.le_iff_toNat_le.mp
        (hacross _ List.mem_cons_self _ List.mem_cons_self).tip_le
      rw [UInt64.le_iff_toNat_le, Watcher.toNat_startOf_none rfl, Watcher.toNat_startOf_none rfl]
      omega
    exact (hstopped.restart_iff hunmarked hfull hgrows hreached hbegun).trans
      (or_iff_right hmark).symm

/-- Between two polls that find every block, a restart changes nothing. -/
theorem restart_same_iff_whole :
    (([wholeRound] ++ [laterRound]).map (·.chain)).Pairwise Chain.Grows ∧
      (∃ height ∈ (((Session.begin (B := MemoryStore.backend) ⟨1, true⟩ freshStore).visits
        [wholeRound]).visits [laterRound]).watcher.lastHeight, longChain.tip ≤ height) ∧
      ∀ o, (heldAfter wholeRound laterRound true).entries o =
        (heldAfter wholeRound laterRound false).entries o := by
  have hgrows : (([wholeRound] ++ [laterRound]).map (·.chain)).Pairwise Chain.Grows := by
    simpa [wholeRound, laterRound, longChain] using shortChain.grows_extend ⟨"h3", 3, []⟩
  have hreached : ∃ height ∈ (((Session.begin (B := MemoryStore.backend) ⟨1, true⟩
      freshStore).visits [wholeRound]).visits [laterRound]).watcher.lastHeight,
      longChain.tip ≤ height := ⟨3, by decide +kernel, by decide +kernel⟩
  refine ⟨hgrows, hreached, ?_⟩
  exact (Session.restart_same_iff (B := MemoryStore.backend) rfl freshStore hgrows hreached).mpr
    (.inl (by decide +kernel))

/-- The first poll cannot have the block that spends the outpoint. Without a restart the next one
scans it, behind a restart the next one begins above it, and the outpoint stays recorded. -/
theorem restart_loses_block :
    (heldAfter brokenRound laterRound false).entries (numbered 1) = none ∧
      (heldAfter brokenRound laterRound true).entries (numbered 1) = some (some [1]) ∧
      (heldAfter brokenRound laterRound false).watermark = some longChain.tip ∧
      (heldAfter brokenRound laterRound true).watermark = some longChain.tip := by
  decide +kernel

end ChatRelay
