import ChatRelay.Proofs.Watcher.Retrying

/-!
# The heights that a poll visits

A poll with full blocks whose newest remembered block is on the chain undoes nothing and scans. Each
height it visits shows in two ways: in what it asks the store to change, which is to remove what the
block there spends and to take the height as scanned, and in the blocks it remembers. The heights
are those above the last one up to the tip, in order, as far as their blocks can be had. Only at the
highest height there is this fails: there is no height above it, and it is visited again.
-/

namespace ChatRelay

/-! ## Questions of a routine -/

namespace Routine

variable {Q : Type} {A : Q → Type} {α β σ : Type}

/-- The questions that a routine asks when they are served from a state, in order. -/
def asked (serve : (question : Q) → σ → A question × σ) : Routine A α → σ → List Q
  | done _, _ => []
  | ask question next, state =>
    question :: (next (serve question state).1).asked serve (serve question state).2

variable {serve : (question : Q) → σ → A question × σ}

@[simp] theorem asked_done (result : α) (state : σ) :
    (done result : Routine A α).asked serve state = [] := rfl

@[simp] theorem asked_ask (question : Q) (next : A question → Routine A α) (state : σ) :
    (ask question next).asked serve state =
      question :: (next (serve question state).1).asked serve (serve question state).2 := rfl

/-- A sequence asks what its parts ask, one after the other. -/
@[simp] theorem asked_bind (r : Routine A α) (next : α → Routine A β) (state : σ) :
    (r >>= next).asked serve state =
      r.asked serve state ++ (next (r.run serve state).1).asked serve (r.run serve state).2 := by
  change (r.bind next).asked serve state = _
  induction r generalizing state with
  | done result => rfl
  | ask question rest ih => exact congrArg (question :: ·) (ih _ _)

end Routine

/-- The call of a request that may change what the store holds. -/
def Request.change? : Request → Option StoreCall
  | .ledger _ => none
  | .store (.has _) | .store (.payload _) | .store .outpoints | .store .size
  | .store .watermark => none
  | .store call => some call

namespace Watcher

open Routine (asked_done asked_ask asked_bind)

/-! ## Visits -/

/-- A height that is visited, with the block there. -/
structure VisitedBlock where
  height : UInt64
  block : LedgerBlock

/-- What the store is asked to change when a height is visited. -/
def VisitedBlock.changes (v : VisitedBlock) : List StoreCall :=
  [.prune v.block.spentOutpoints, .setWatermark v.height]

/-- What is remembered of a visited height, apart from what was removed there. -/
def VisitedBlock.label (v : VisitedBlock) : UInt64 × String := (v.height, v.block.hash)

def labels (w : Watcher) : List (UInt64 × String) := w.recent.map fun b => (b.height, b.hash)

/-- A watcher has become another by visiting heights one after the other, with these changes asked
of the store. -/
structure Visits (ledger : (call : LedgerCall) → call.Answer) (w : Watcher)
    (visited : List VisitedBlock) (changes : List StoreCall) (u : Watcher) : Prop where
  shown : ∀ v ∈ visited, ledger (.block v.height) = .ok v.block
  changes : changes = visited.flatMap (·.changes)
  settings : u.settings = w.settings
  reached : u.lastHeight = (visited.getLast?.map (·.height)).or w.lastHeight
  kept : visited = [] → u.recent = w.recent
  remembered : visited ≠ [] →
    u.labels = ((visited.map (·.label)).reverse ++ w.labels).take w.settings.depth.toNat

variable {ledger : (call : LedgerCall) → call.Answer} {B : OutpointStore} {w u : Watcher}
  {height last tip : UInt64} {block : LedgerBlock}

theorem Visits.none (w : Watcher) : Visits ledger w [] [] w where
  shown := nofun
  changes := rfl
  settings := rfl
  reached := rfl
  kept _ := rfl
  remembered h := absurd rfl h

theorem labels_afterBlock (w : Watcher) (height : UInt64) (block : LedgerBlock)
    (taken : List Pruned) : (w.afterBlock height block taken).labels =
      ((height, block.hash) :: w.labels).take w.settings.depth.toNat := by
  simp [labels, afterBlock, remember, List.map_take]

/-- Cutting off once more what was cut off changes nothing. -/
theorem take_append_take {α : Type} (first rest : List α) (n : Nat) :
    (first ++ rest.take n).take n = (first ++ rest).take n := by
  rw [List.take_append, List.take_append, List.take_take, Nat.min_eq_left (Nat.sub_le n _)]

/-- A height is visited, then the rest. -/
theorem Visits.cons {visited : List VisitedBlock} {changes : List StoreCall} {taken : List Pruned}
    (hblock : ledger (.block height) = .ok block)
    (h : Visits ledger (w.afterBlock height block taken) visited changes u) :
    Visits ledger w (⟨height, block⟩ :: visited)
      (.prune block.spentOutpoints :: .setWatermark height :: changes) u where
  shown := List.forall_mem_cons.mpr ⟨hblock, h.shown⟩
  changes := congrArg (_ :: _ :: ·) h.changes
  settings := h.settings
  reached := by
    rw [h.reached, List.getLast?_cons]
    cases visited.getLast? <;> rfl
  kept := nofun
  remembered _ := by
    have hnewest := labels_afterBlock w height block taken
    cases visited with
    | nil =>
        rw [labels, h.kept rfl]
        exact hnewest
    | cons next rest =>
        have hrest := h.remembered (List.cons_ne_nil next rest)
        rw [hnewest, show (w.afterBlock height block taken).settings = w.settings from rfl,
          take_append_take] at hrest
        rw [hrest]
        simp [VisitedBlock.label]

/-! ## Scanning -/

/-- Whether the block at a height can be had. -/
def available (ledger : (call : LedgerCall) → call.Answer) (n : Nat) : Bool :=
  (ledger (.block (UInt64.ofNat n))).isOk

/-- The heights above one and up to another, as far as their blocks can be had. -/
def unscanned (ledger : (call : LedgerCall) → call.Answer) (last tip : UInt64) : List Nat :=
  (List.range' (last.toNat + 1) (tip.toNat - last.toNat)).takeWhile (available ledger)

/-- The height is scanned that was scanned last, as there is none above it. -/
def Repeats (ledger : (call : LedgerCall) → call.Answer) (last tip : UInt64) : Prop :=
  last = tip ∧ tip.toNat + 1 = UInt64.size ∧ available ledger tip.toNat

/-- At the tip and above it nothing is unscanned. -/
theorem unscanned_of_le (hle : tip ≤ last) : unscanned ledger last tip = [] := by
  rw [unscanned, Nat.sub_eq_zero_of_le (UInt64.le_iff_toNat_le.mp hle)]
  rfl

theorem available_toNat (height : UInt64) :
    available ledger height.toNat = (ledger (.block height)).isOk := by
  rw [available, UInt64.ofNat_toNat]

/-- The heights behind one, counted as numbers or in steps of heights. -/
theorem range'_succ_height {count : Nat} (hfits : height.toNat + (count + 1) ≤ UInt64.size) :
    List.range' (height + 1).toNat count = List.range' (height.toNat + 1) count := by
  cases count with
  | zero => rfl
  | succ count => rw [toNat_succ (by omega)]

/-- When a block is scanned the store is asked for two changes, then the rest is scanned. -/
theorem scan_asked_block (hblock : ledger (.block height) = .ok block) (w : Watcher)
    (before : Nat × Nat) (count : Nat) (s : B.State) :
    let taken := (B.holdings s).taken block.spentOutpoints
    (w.scan before height (count + 1)).asked (B.serveWith ledger) s =
      .ledger (.block height) :: .store (.prune block.spentOutpoints) ::
        .store (.setWatermark height) ::
          ((w.afterBlock height block taken).scan (before.1 + 1, before.2 + taken.length)
            (height + 1) count).asked (B.serveWith ledger) (storeAfter B height block s) := by
  intro taken
  have hpruned : (B.perform (.prune block.spentOutpoints) s).1 = .ok taken :=
    (B.performs (.prune block.spentOutpoints) s).1
  have hmarked (u : B.State) : (B.perform (.setWatermark height) u).1 = .ok () :=
    (B.performs (.setWatermark height) u).1
  simp only [scan, askLedger, askStore, advance, asked_bind, asked_ask, asked_done,
    Routine.run_seq, Routine.run_ask, Routine.run_done, OutpointStore.serveWith, hblock, hpruned,
    hmarked]
  rfl

/-- A scan that is served without failures of the store visits one height after the other until a
block cannot be had. -/
theorem exists_visits_scan (ledger : (call : LedgerCall) → call.Answer) (w : Watcher)
    (before : Nat × Nat) (height : UInt64) (count : Nat)
    (hfits : height.toNat + count ≤ UInt64.size) (s : B.State) :
    ∃ visited pruned u t,
      (w.scan before height count).run (B.serveWith ledger) s =
        ((.ok (before.1 + visited.length, before.2 + pruned), u), t) ∧
      Visits ledger w visited
        (((w.scan before height count).asked (B.serveWith ledger) s).filterMap Request.change?) u ∧
      visited.map (·.height.toNat) =
        (List.range' height.toNat count).takeWhile (available ledger) := by
  induction count generalizing w before height s with
  | zero => exact ⟨[], 0, w, s, rfl, .none w, rfl⟩
  | succ count ih =>
      rw [List.range'_succ, List.takeWhile_cons, available_toNat, ← range'_succ_height hfits]
      cases hblock : ledger (.block height) with
      | error cause =>
          have hasked : B.serveWith ledger (.ledger (.block height)) s = (.error cause, s) :=
            congrArg (·, s) hblock
          refine ⟨[], 0, w, s, ?_, ?_, rfl⟩
          · simp only [scan, askLedger, Routine.run_seq, Routine.run_ask, Routine.run_done, hasked]
            rfl
          · simp only [scan, askLedger, asked_bind, asked_ask, asked_done, Routine.run_ask, hasked]
            exact .none w
      | ok block =>
          have hrun := scan_run_block_from hblock w before count s
          have hasked := scan_asked_block hblock w before count s
          have hfits' : (height + 1).toNat + count ≤ UInt64.size := by
            cases count with
            | zero => exact Nat.le_of_lt (height + 1).toNat_lt_size
            | succ count => rw [toNat_succ (by omega)]; omega
          generalize hseen : (B.holdings s).taken block.spentOutpoints = taken at hrun hasked
          obtain ⟨visited, pruned, u, t, hrest, hvisits, hheights⟩ :=
            ih (w.afterBlock height block taken) (before.1 + 1, before.2 + taken.length)
              (height + 1) hfits' (storeAfter B height block s)
          refine ⟨⟨height, block⟩ :: visited, taken.length + pruned, u, t, ?_, ?_, ?_⟩
          · rw [hrun, hrest, Nat.add_assoc, Nat.add_assoc, Nat.add_comm 1]
            rfl
          · rw [hasked]
            exact .cons hblock hvisits
          · rw [List.map_cons, hheights]
            rfl

/-! ## Polling -/

/-- The start is found without a change of the store. -/
theorem exists_startHeight_run (ledger : (call : LedgerCall) → call.Answer) (w : Watcher)
    (tip : UInt64) (s : B.State) :
    ∃ t, (w.startHeight tip).run (B.serveWith ledger) s =
        (.ok (w.startOf (B.holdings s).watermark tip), t) ∧
      ((w.startHeight tip).asked (B.serveWith ledger) s).filterMap Request.change? = [] := by
  unfold startHeight startOf
  cases w.lastHeight with
  | some height => exact ⟨s, rfl, rfl⟩
  | none =>
      have hmark : (B.perform .watermark s).1 = .ok (B.holdings s).watermark :=
        (B.performs .watermark s).1
      refine ⟨(B.perform .watermark s).2, ?_, ?_⟩
      · simp only [askStore, Routine.run_seq, Routine.run_ask, Routine.run_done,
          OutpointStore.serveWith, hmark]
        cases (B.holdings s).watermark <;> rfl
      · simp only [askStore, asked_bind, asked_ask, asked_done, Routine.run_ask, Routine.run_done,
          OutpointStore.serveWith, hmark]
        cases (B.holdings s).watermark <;> rfl

/-- Where the newest remembered block is on the chain, the store is not asked for changes. -/
theorem reconcile_asked_of_onChain
    (hchain : OnChain (fun call answer => answer = ledger call) tip w.recent) (s : B.State) :
    ((w.reconcile tip).asked (B.serveWith ledger) s).filterMap Request.change? = [] := by
  unfold reconcile
  rw [asked_bind, List.filterMap_append]
  cases hrecent : w.recent with
  | nil => rfl
  | cons block rest =>
      obtain ⟨hheight, hhash⟩ := hchain block (by rw [hrecent]; rfl)
      have hanswer : B.serveWith ledger (.ledger (.blockHash block.height)) s =
          (.ok block.hash, s) := congrArg (·, s) hhash.symm
      simp only [walkBack, hheight, if_true, askLedger, Routine.run_seq, Routine.run_ask,
        Routine.run_done, asked_bind, asked_ask, asked_done, hanswer]
      rfl

/-- Where the newest remembered block is on the chain, a poll comes to its scan without a change of
the store. -/
theorem exists_prepare_serveWith (hheight : ledger .height = .ok tip)
    (hchain : OnChain (fun call answer => answer = ledger call) tip w.recent) (s : B.State) :
    let last := w.startOf (B.holdings s).watermark tip
    ∃ t, w.prepare.run (B.serveWith ledger) s =
        ((.ok (tip, 0, last), { w with lastHeight := some last }), t) ∧
      (w.prepare.asked (B.serveWith ledger) s).filterMap Request.change? = [] := by
  intro last
  obtain ⟨t, hstart, hquiet⟩ := exists_startHeight_run ledger w tip s
  have hreconcile := reconcile_run_of_onChain (w := { w with lastHeight := some last }) hchain t
  have hstill := reconcile_asked_of_onChain (w := { w with lastHeight := some last }) hchain t
  have hanswer : B.serveWith ledger (.ledger .height) s = (.ok tip, s) :=
    congrArg (·, s) hheight
  refine ⟨t, ?_, ?_⟩
  · simp only [prepare, askLedger, Routine.run_seq, Routine.run_ask, Routine.run_done, hanswer,
      hstart]
    rw [hreconcile]
    rfl
  · simp only [prepare, askLedger, asked_bind, asked_ask, asked_done, Routine.run_ask,
      Routine.run_done, hanswer, hstart]
    rw [hreconcile]
    simp only [List.filterMap_append, hquiet]
    rw [hstill]
    rfl

/-- The heights of a scan that is cut short are those above the last one, or it repeats the last. -/
theorem takeWhile_scanned (ledger : (call : LedgerCall) → call.Answer) (last tip : UInt64) :
    let scanned :=
      (List.range' (heightAfter last).toNat (scanCount last tip)).takeWhile (available ledger)
    (Repeats ledger last tip → scanned = [tip.toNat]) ∧
      (¬ Repeats ledger last tip → scanned = unscanned ledger last tip) := by
  intro scanned
  have htip := tip.toNat_lt_size
  have hlast := last.toNat_lt_size
  by_cases hmax : last.toNat + 1 = UInt64.size
  · -- the height behind is the same one, which counts as one to scan if the tip is there too
    have hafter : heightAfter last = last := by rw [heightAfter, if_pos hmax]
    have hnone : unscanned ledger last tip = [] :=
      unscanned_of_le (UInt64.le_iff_toNat_le.mpr (by omega))
    by_cases hsame : last = tip
    · subst hsame
      have hone : scanned = [last.toNat].takeWhile (available ledger) := by
        have hcount : scanCount last last = 1 := by
          rw [scanCount, hafter]
          omega
        simp only [scanned, hcount, hafter]
        rfl
      rw [hone, hnone]
      by_cases havailable : available ledger last.toNat <;>
        simp [Repeats, hmax, havailable]
    · have hne : last.toNat ≠ tip.toNat := fun heq => hsame (UInt64.toNat_inj.mp heq)
      have hzero : scanned = [] := by
        have hcount : scanCount last tip = 0 := by
          rw [scanCount, hafter]
          omega
        simp only [scanned, hcount]
        rfl
      exact ⟨fun h => absurd h.1 hsame, fun _ => hzero.trans hnone.symm⟩
  · have hafter : (heightAfter last).toNat = last.toNat + 1 := toNat_heightAfter (by omega)
    refine ⟨?_, fun _ => ?_⟩
    · rintro ⟨rfl, h, -⟩
      exact absurd h hmax
    · simp only [scanned, scanCount, hafter, Nat.add_sub_add_right]
      rfl

/-- A poll with full blocks whose newest remembered block is on the chain undoes nothing. It visits
the heights above the last one up to the tip, or up to the first whose block cannot be had, in
order, and nothing else is removed or remembered. Exactly at the highest height there is it differs
from that: once scanned and with its block to be had, it is visited again. -/
theorem visits_unscanned_iff (ledger : (call : LedgerCall) → call.Answer)
    (hfull : w.settings.fullBlocks) (hheight : ledger .height = .ok tip)
    (hchain : OnChain (fun call answer => answer = ledger call) tip w.recent) (s : B.State) :
    let last := w.startOf (B.holdings s).watermark tip
    let polled := w.poll.run (B.serveWith ledger) s
    ∃ visited pruned,
      polled.1.1 = .ok ⟨tip, visited.length, pruned, 0⟩ ∧
      Visits ledger { w with lastHeight := some last } visited
        ((w.poll.asked (B.serveWith ledger) s).filterMap Request.change?) polled.1.2 ∧
      (visited.map (·.height.toNat) = unscanned ledger last tip ↔ ¬ Repeats ledger last tip) ∧
      (Repeats ledger last tip → visited.map (·.height.toNat) = [tip.toNat]) := by
  intro last polled
  obtain ⟨t, hprepare, hquiet⟩ := exists_prepare_serveWith hheight hchain s
  obtain ⟨visited, pruned, u, after, hscan, hvisits, hheights⟩ :=
    exists_visits_scan ledger { w with lastHeight := some last } (0, 0)
      (heightAfter last) (scanCount last tip) (by
        have htip := tip.toNat_lt_size
        have hafter := (heightAfter last).toNat_lt_size
        rw [scanCount]
        omega) t
  have hrun : polled = ((.ok ⟨tip, visited.length, pruned, 0⟩, u), after) := by
    change w.poll.run (B.serveWith ledger) s = _
    rw [poll_eq_prepare hfull, Routine.run_seq, hprepare, scanOn, Routine.run_seq, hscan]
    simp [report, Except.map]
  have hasked : (w.poll.asked (B.serveWith ledger) s).filterMap Request.change? =
      (({ w with lastHeight := some last }.scan (0, 0) (heightAfter last)
        (scanCount last tip)).asked (B.serveWith ledger) t).filterMap Request.change? := by
    rw [poll_eq_prepare hfull, asked_bind, hprepare, List.filterMap_append, hquiet, scanOn,
      asked_bind, List.filterMap_append]
    exact List.append_nil _
  obtain ⟨hrepeats, hexact⟩ := takeWhile_scanned ledger last tip
  rw [hrun, hasked]
  refine ⟨visited, pruned, rfl, hvisits, ⟨fun heq hrepeated => ?_, fun h => ?_⟩, fun h => ?_⟩
  · have hnone : unscanned ledger last tip = [] :=
      unscanned_of_le (hrepeated.1 ▸ UInt64.le_refl tip)
    rw [hheights, hrepeats hrepeated, hnone] at heq
    cases heq
  · exact hheights.trans (hexact h)
  · exact hheights.trans (hrepeats h)

/-! ## A ledger that is cut off, and one at the end of the heights -/

/-- A ledger with a tip whose blocks can be had up to a height. Each spends the same outpoint. -/
def ledgerUpTo (tip available : UInt64) : (call : LedgerCall) → call.Answer
  | .height => .ok tip
  | .blockHash _ => .ok "h"
  | .block height =>
    if height ≤ available then .ok ⟨"h", height, [⟨"t", [some (numbered 1)]⟩]⟩
    else .error (.transport "down")
  | .output _ => .ok none

/-- A watcher that has scanned a block. -/
def scannedUpTo (height : UInt64) : Watcher := ⟨⟨6, true⟩, some height, [⟨height, "h", []⟩]⟩

theorem visits_unscanned_iff_cutOff :
    let w := scannedUpTo 5
    let s : MemoryStore.backend.State := ⟨MemoryStore.empty, MemoryStore.sound_empty⟩
    let serve := MemoryStore.backend.serveWith (ledgerUpTo 8 7)
    unscanned (ledgerUpTo 8 7) 5 8 = [6, 7] ∧ w.settings.fullBlocks ∧
      OnChain (fun call answer => answer = ledgerUpTo 8 7 call) 8 w.recent ∧
      ∃ visited, Visits (ledgerUpTo 8 7) w visited
          ((w.poll.asked serve s).filterMap Request.change?) (w.poll.run serve s).1.2 ∧
        visited.map (·.height.toNat) = [6, 7] := by
  intro w s serve
  have hheights : unscanned (ledgerUpTo 8 7) 5 8 = [6, 7] := by decide +kernel
  have hchain : OnChain (fun call answer => answer = ledgerUpTo 8 7 call) 8 w.recent := by
    rintro block ⟨⟩
    exact ⟨by decide, rfl⟩
  obtain ⟨visited, pruned, -, hvisits, hexact, -⟩ :=
    visits_unscanned_iff (w := w) (ledgerUpTo 8 7) rfl rfl hchain s
  exact ⟨hheights, rfl, hchain, visited, hvisits,
    (hexact.mpr fun h => absurd h.1 (by decide)).trans hheights⟩

/-- Where the last height is the highest there is, a poll does not visit the heights above it. -/
theorem highest_visited_again :
    let height : UInt64 := 18446744073709551615
    let w := scannedUpTo height
    let s : MemoryStore.backend.State := ⟨MemoryStore.empty, MemoryStore.sound_empty⟩
    let ledger := ledgerUpTo height height
    let serve := MemoryStore.backend.serveWith ledger
    w.settings.fullBlocks ∧ ledger .height = .ok height ∧
      OnChain (fun call answer => answer = ledger call) height w.recent ∧
      unscanned ledger height height = [] ∧
      (w.poll.run serve s).1.1.toOption = some ⟨height, 1, 0, 0⟩ ∧
      ¬ ∃ visited, Visits ledger w visited
          ((w.poll.asked serve s).filterMap Request.change?) (w.poll.run serve s).1.2 ∧
        visited.map (·.height.toNat) = unscanned ledger height height := by
  intro height w s ledger serve
  have hnone : unscanned ledger height height = [] := unscanned_of_le (UInt64.le_refl height)
  refine ⟨rfl, rfl, ?_, hnone, by decide +kernel, ?_⟩
  · rintro block ⟨⟩
    exact ⟨by decide, rfl⟩
  · rintro ⟨visited, hvisits, hheights⟩
    obtain rfl : visited = [] := List.map_eq_nil_iff.mp (hheights.trans hnone)
    have hchanges : ((w.poll.asked serve s).filterMap Request.change?).length = 2 := by
      decide +kernel
    rw [hvisits.changes] at hchanges
    cases hchanges

end Watcher

end ChatRelay
