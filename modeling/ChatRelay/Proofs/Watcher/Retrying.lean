import ChatRelay.Proofs.Interference
import ChatRelay.Proofs.Watcher.Reorganization

/-!
# Polling again after failures

During a poll blocks may not be had and removals may fail. Whatever the poll asks before it scans is
answered as without failures, and a scan that is cut short has come to where the whole scan comes
through as well. There the newest remembered block is on the chain, so the next poll undoes nothing
and goes on with the block behind. Two polls, of which the second meets no failures, therefore leave
what a single one leaves.
-/

namespace ChatRelay

open Routine (Runs)

/-- A routine that asks only for what is served in one way runs as if it were alone. -/
theorem Routine.Asks.run_eq {Q : Type} {A : Q → Type} {α σ : Type} {allowed : Q → Prop}
    {serves : (question : Q) → σ → A question → σ → Prop}
    {serve : (question : Q) → σ → A question × σ} {r : Routine A α} (h : r.Asks allowed)
    (hserves : ∀ {question s answer t}, allowed question → serves question s answer t →
      (answer, t) = serve question s)
    {s t : σ} {x : α} (run : Runs serves r s x t) : r.run serve s = (x, t) := by
  induction run with
  | done result state => rfl
  | ask served rest ih =>
      rw [Routine.run_ask, ← hserves h.1 served]
      exact ih (h.2 _)

theorem Routine.Asks.bind {Q : Type} {A : Q → Type} {α β : Type} {allowed : Q → Prop}
    {r : Routine A α} {f : α → Routine A β} (h : r.Asks allowed)
    (hf : ∀ x, (f x).Asks allowed) : (r >>= f).Asks allowed := by
  change (r.bind f).Asks allowed
  induction r with
  | done result => exact hf result
  | ask question next ih => exact ⟨h.1, fun answer => ih answer (h.2 answer)⟩

/-! ## Failures -/

/-- What a ledger may answer that tells the truth about a chain, except that blocks may not be
had. -/
def Chain.Withholds (c : Chain) : (call : LedgerCall) → call.Answer → Prop
  | .block height, answer => answer = c.answer (.block height) ∨ ∃ cause, answer = .error cause
  | call, answer => answer = c.answer call

/-- How a request may be served when blocks may not be had and removals may fail. A removal that
fails changes nothing. -/
def OutpointStore.Falters (B : OutpointStore) (c : Chain) :
    (request : Request) → B.State → request.Answer → B.State → Prop :=
  Request.Served B.Performs (fun call => ∃ outpoints, call = .prune outpoints) c.Withholds

/-- Whether a request is neither for a block nor for a removal. -/
def Request.Steady : Request → Prop
  | .ledger (.block _) | .store (.prune _) => False
  | _ => True

variable {B : OutpointStore} {c : Chain} {s t : B.State}

theorem OutpointStore.serve_of_falters {request : Request} {answer : request.Answer}
    (hsteady : request.Steady) (h : B.Falters c request s answer t) :
    (answer, t) = B.serve c request s := by
  cases request with
  | ledger call =>
      obtain ⟨hanswer, rfl⟩ := h
      cases call with
      | block _ => exact hsteady.elim
      | _ => exact congrArg (·, t) hanswer
  | store call =>
      rcases h with hperforms | ⟨⟨outpoints, rfl⟩, -⟩
      · exact hperforms
      · exact hsteady.elim

theorem OutpointStore.falters_serve (request : Request) (s : B.State) :
    B.Falters c request s (B.serve c request s).1 (B.serve c request s).2 := by
  cases request with
  | store call => exact .inl rfl
  | ledger call =>
      cases call with
      | block height => exact ⟨.inl rfl, rfl⟩
      | _ => exact ⟨rfl, rfl⟩

namespace Watcher

variable {w : Watcher} {last tip : UInt64}

/-! ### What is asked before the scan -/

theorem asks_advance (w : Watcher) (height : UInt64) : (w.advance height).Asks Request.Steady := by
  refine .ask trivial fun answer => ?_
  cases answer <;> exact trivial

theorem asks_walkBack (tip : UInt64) (orphaned recent : List ScannedBlock) :
    (walkBack tip orphaned recent).Asks Request.Steady := by
  induction recent generalizing orphaned with
  | nil => exact trivial
  | cons block rest ih =>
      unfold walkBack
      split
      next =>
        refine .ask trivial fun answer => ?_
        cases answer with
        | error cause => exact trivial
        | ok hash =>
            dsimp only
            split
            · exact trivial
            · exact ih _
      next => exact ih _

theorem asks_restore (before : Nat) (pruned : List Pruned) :
    (restore before pruned).Asks Request.Steady := by
  induction pruned generalizing before with
  | nil => exact trivial
  | cons first rest ih =>
      obtain ⟨outpoint, payload⟩ := first
      refine .ask trivial fun answer => ?_
      rcases answer with cause | _
      · cases cause with
        | alreadyPresent _ => exact ih before
        | _ => exact trivial
      · cases payload with
        | none => exact ih _
        | some payload =>
            refine .ask trivial fun answer => ?_
            cases answer with
            | error cause => exact trivial
            | ok _ => exact ih _

theorem asks_reconcile (w : Watcher) (tip : UInt64) : (w.reconcile tip).Asks Request.Steady := by
  refine (asks_walkBack tip [] w.recent).bind fun walked => ?_
  obtain ⟨result, recent⟩ := walked
  cases result with
  | error cause => exact trivial
  | ok orphaned =>
      dsimp only
      split
      next => exact trivial
      next oldest _ =>
        refine (asks_restore 0 _).bind fun result => ?_
        cases result with
        | error cause => exact trivial
        | ok restored =>
            refine (asks_advance _ _).bind fun outcome => ?_
            obtain ⟨result, w⟩ := outcome
            cases result <;> exact trivial

theorem asks_startHeight (w : Watcher) (tip : UInt64) :
    (w.startHeight tip).Asks Request.Steady := by
  unfold startHeight
  split
  next => exact trivial
  next =>
    refine .ask trivial fun answer => ?_
    rcases answer with cause | height
    · exact trivial
    · cases height <;> exact trivial

/-! ### Polling without failures -/

/-- The newest remembered block is on the chain. -/
abbrev Settled (c : Chain) (w : Watcher) : Prop :=
  OnChain (fun call answer => answer = c.answer call) c.tip w.recent

/-- Where the newest remembered block is on the chain, nothing is undone. -/
theorem reconcile_run_of_onChain {ledger : (call : LedgerCall) → call.Answer}
    (h : OnChain (fun call answer => answer = ledger call) tip w.recent) (s : B.State) :
    (w.reconcile tip).run (B.serveWith ledger) s = ((.ok 0, w), s) := by
  have hwalk : (walkBack tip [] w.recent).run (B.serveWith ledger) s =
      ((.ok [], w.recent), s) := by
    cases hrecent : w.recent with
    | nil => rfl
    | cons block rest =>
        obtain ⟨hheight, hhash⟩ := h block (by rw [hrecent]; rfl)
        have hanswer : B.serveWith ledger (.ledger (.blockHash block.height)) s =
            (.ok block.hash, s) := congrArg (·, s) hhash.symm
        simp only [walkBack, hheight, if_true, askLedger, Routine.run_seq, Routine.run_ask,
          Routine.run_done, hanswer]
        rfl
  rw [reconcile, Routine.run_seq, hwalk]
  rfl

theorem reconcile_run_of_settled (h : w.Settled c) (s : B.State) :
    (w.reconcile c.tip).run (B.serve c) s = ((.ok 0, w), s) := by
  rw [OutpointStore.serve_eq]
  exact reconcile_run_of_onChain h s

/-- Undoing succeeds, keeps the watcher begun, and leaves a block of the chain as the newest. -/
theorem exists_reconcile_run (hlast : w.lastHeight = some last) (s : B.State) :
    ∃ restored u t, (w.reconcile c.tip).run (B.serve c) s = ((.ok restored, u), t) ∧
      u.lastHeight ≠ none ∧ u.settings = w.settings ∧ u.Settled c := by
  have hruns := Routine.runs_run B.holdings (B.serve_served c) (w.reconcile c.tip) s
  obtain ⟨⟨outcome, t⟩, hrun⟩ : ∃ ended, (w.reconcile c.tip).run (B.serve c) s = ended := ⟨_, rfl⟩
  rw [hrun] at hruns ⊢
  have hreconciles := runs_reconcile hruns
  generalize B.holdings t = after at hreconciles
  cases hreconciles with
  | unread hsplit hunread =>
      obtain ⟨block, -, hheight, hanswer⟩ := hunread
      obtain ⟨shown, hshown⟩ := c.exists_block (UInt64.le_iff_toNat_le.mp hheight)
      simp [Chain.answer, hshown] at hanswer
  | settled hchain => exact ⟨0, w, t, rfl, by simp [hlast], rfl, hchain⟩
  | unrestored hsplit hfails =>
      obtain ⟨p, -, hfails | ⟨payload, -, hfails⟩⟩ := hfails
      · exact hfails.elim
      · exact hfails.elim
  | unmarked hsplit hfails => exact hfails.elim
  | undone hsplit hpopped hchain =>
      exact ⟨_, _, t, rfl, Option.some_ne_none _, rfl, hchain⟩

/-! ### Scanning -/

/-- The watcher after a block has been scanned. -/
def afterBlock (w : Watcher) (height : UInt64) (block : LedgerBlock) (taken : List Pruned) :
    Watcher :=
  { w.remember ⟨height, block.hash, taken⟩ with lastHeight := some height }

/-- The store after a block has been scanned. -/
def storeAfter (B : OutpointStore) (height : UInt64) (block : LedgerBlock) (s : B.State) : B.State :=
  (B.perform (.setWatermark height) (B.perform (.prune block.spentOutpoints) s).2).2

variable {height : UInt64} {count : Nat} {block : LedgerBlock}

/-- Without failures the next block is scanned, then the rest. -/
theorem scan_run_block_from {ledger : (call : LedgerCall) → call.Answer}
    (hblock : ledger (.block height) = .ok block) (w : Watcher) (before : Nat × Nat) (count : Nat)
    (s : B.State) :
    let taken := (B.holdings s).taken block.spentOutpoints
    (w.scan before height (count + 1)).run (B.serveWith ledger) s =
      ((w.afterBlock height block taken).scan (before.1 + 1, before.2 + taken.length) (height + 1)
        count).run (B.serveWith ledger) (storeAfter B height block s) := by
  intro taken
  have hpruned : (B.perform (.prune block.spentOutpoints) s).1 = .ok taken :=
    (B.performs (.prune block.spentOutpoints) s).1
  have hmarked (u : B.State) : (B.perform (.setWatermark height) u).1 = .ok () :=
    (B.performs (.setWatermark height) u).1
  simp only [scan, askLedger, askStore, advance, Routine.run_seq, Routine.run_ask, Routine.run_done,
    OutpointStore.serveWith, hblock, hpruned, hmarked]
  rfl

theorem scan_run_block (hblock : c.answer (.block height) = .ok block) (w : Watcher)
    (before : Nat × Nat) (count : Nat) (s : B.State) :
    let taken := (B.holdings s).taken block.spentOutpoints
    (w.scan before height (count + 1)).run (B.serve c) s =
      ((w.afterBlock height block taken).scan (before.1 + 1, before.2 + taken.length) (height + 1)
        count).run (B.serve c) (storeAfter B height block s) := by
  rw [OutpointStore.serve_eq]
  exact scan_run_block_from hblock w before count s

/-- With failures a scan ends before the next block, or the block is scanned as without them. -/
theorem runs_scan_falters (hblock : c.answer (.block height) = .ok block) {before : Nat × Nat}
    {outcome : Outcome (Nat × Nat)}
    (h : Runs (B.Falters c) (w.scan before height (count + 1)) s outcome t) :
    let taken := (B.holdings s).taken block.spentOutpoints
    (outcome.2 = w ∧ t = s ∧ (outcome.1 = .ok before ∨ ∃ cause, outcome.1 = .error cause)) ∨
      Runs (B.Falters c)
        ((w.afterBlock height block taken).scan (before.1 + 1, before.2 + taken.length) (height + 1)
          count) (storeAfter B height block s) outcome t := by
  intro taken
  obtain ⟨answer, u, ⟨hanswer, rfl⟩, hrest⟩ := Routine.runs_ask_bind.mp h
  rcases hanswer with hanswer | ⟨cause, rfl⟩
  · obtain rfl : answer = .ok block := hanswer.trans hblock
    obtain ⟨answer, v, hserved, hpruned⟩ := Routine.runs_ask_bind.mp hrest
    rcases hserved with hperforms | ⟨-, ⟨cause, -, rfl⟩, rfl⟩
    · obtain ⟨hanswer, rfl⟩ := Prod.ext_iff.mp hperforms
      obtain rfl : answer = .ok taken := hanswer.trans (B.performs (.prune block.spentOutpoints) u).1
      obtain ⟨advanced, x, hadvance, hscan⟩ := Routine.runs_bind.mp hpruned
      have hrun := (asks_advance _ _).run_eq OutpointStore.serve_of_falters hadvance
      have hmarked := (B.performs (.setWatermark height)
        (B.perform (.prune block.spentOutpoints) u).2).1
      simp only [advance, askStore, Routine.run_seq, Routine.run_ask, Routine.run_done,
        OutpointStore.serve, hmarked] at hrun
      obtain ⟨rfl, rfl⟩ := Prod.ext_iff.mp hrun
      exact .inr hscan
    · obtain ⟨rfl, rfl⟩ := Routine.runs_pure.mp hpruned
      exact .inl ⟨rfl, rfl, .inr ⟨_, rfl⟩⟩
  · obtain ⟨rfl, rfl⟩ := Routine.runs_pure.mp hrest
    exact .inl ⟨rfl, rfl, .inl rfl⟩

/-- Below the highest height there is, the block of the height behind is the next one to be scanned,
and the rest of the scan is the scan behind it. -/
theorem exists_next (htip : c.tip.toNat + 1 < UInt64.size)
    (hcount : scanCount last c.tip = count + 1) :
    ∃ block, c.answer (.block (heightAfter last)) = .ok block ∧ heightAfter last ≤ c.tip ∧
      heightAfter (heightAfter last) = heightAfter last + 1 ∧
      scanCount (heightAfter last) c.tip = count := by
  have hle : last.toNat + (count + 1) = c.tip.toNat := by
    rw [scanCount_eq htip] at hcount
    omega
  have hafter : (heightAfter last).toNat = last.toNat + 1 := toNat_heightAfter (by omega)
  obtain ⟨block, hat⟩ := c.exists_block (n := (heightAfter last).toNat) (by omega)
  refine ⟨block, by simp [Chain.answer, hat], UInt64.le_iff_toNat_le.mpr (by omega), ?_, ?_⟩
  · rw [heightAfter, if_neg (by omega)]
  · rw [scanCount_eq htip, hafter]
    omega

/-- Without failures a scan ends well, and what it counts is added to what was counted before. -/
theorem exists_scan_run (htip : c.tip.toNat + 1 < UInt64.size) (w : Watcher) (last : UInt64)
    (s : B.State) :
    ∃ scanned pruned u t, ∀ before : Nat × Nat,
      (w.scan before (heightAfter last) (scanCount last c.tip)).run (B.serve c) s =
        ((.ok (before.1 + scanned, before.2 + pruned), u), t) := by
  generalize hcount : scanCount last c.tip = count
  induction count generalizing w last s with
  | zero => exact ⟨0, 0, w, s, fun before => rfl⟩
  | succ count ih =>
      obtain ⟨block, hblock, -, hnext, hrest⟩ := exists_next htip hcount
      obtain ⟨scanned, pruned, u, t, hscan⟩ := ih
        (w.afterBlock (heightAfter last) block ((B.holdings s).taken block.spentOutpoints))
        (heightAfter last) (storeAfter B (heightAfter last) block s) hrest
      refine ⟨1 + scanned, ((B.holdings s).taken block.spentOutpoints).length + pruned, u, t,
        fun before => ?_⟩
      rw [scan_run_block hblock, ← hnext, hscan, Nat.add_assoc, Nat.add_assoc]

/-- The newest block that is remembered after a block of the chain has been scanned is that one. -/
theorem settled_afterBlock (hblock : c.answer (.block height) = .ok block) (hle : height ≤ c.tip)
    (taken : List Pruned) : (w.afterBlock height block taken).Settled c := by
  intro newest hnewest
  have hat : c.blocks[height.toNat]? = some block := Chain.Answers.block (.inr hblock.symm)
  change newest ∈ ((_ :: w.recent).take w.settings.depth.toNat).head? at hnewest
  cases hdepth : w.settings.depth.toNat with
  | zero => simp [hdepth] at hnewest
  | succ depth =>
      rw [hdepth] at hnewest
      obtain rfl := Option.some.inj hnewest
      exact ⟨hle, by simp [Chain.answer, hat]⟩

/-- A scan that may be cut short has come to where the whole scan comes through. -/
theorem exists_resume (htip : c.tip.toNat + 1 < UInt64.size) (hlast : w.lastHeight = some last)
    (hsettled : w.Settled c) {before : Nat × Nat} {outcome : Outcome (Nat × Nat)}
    (h : Runs (B.Falters c) (w.scan before (heightAfter last) (scanCount last c.tip)) s outcome t) :
    ∃ counted reached, outcome.2.lastHeight = some reached ∧ outcome.2.Settled c ∧
      outcome.2.settings = w.settings ∧ (∀ counts, outcome.1 = .ok counts → counts = counted) ∧
      (w.scan before (heightAfter last) (scanCount last c.tip)).run (B.serve c) s =
        (outcome.2.scan counted (heightAfter reached) (scanCount reached c.tip)).run (B.serve c) t := by
  generalize hcount : scanCount last c.tip = count at h ⊢
  induction count generalizing w last before s with
  | zero =>
      obtain ⟨rfl, rfl⟩ := Routine.runs_pure.mp h
      refine ⟨before, last, hlast, hsettled, rfl, fun counts hcounts => ?_, ?_⟩
      · exact (Except.ok.inj hcounts).symm
      · rw [hcount]
  | succ count ih =>
      obtain ⟨block, hblock, hle, hnext, hrest⟩ := exists_next htip hcount
      rcases runs_scan_falters hblock h with ⟨rfl, rfl, hresult⟩ | hscan
      · refine ⟨before, last, hlast, hsettled, rfl, fun counts hcounts => ?_, ?_⟩
        · rcases hresult with hok | ⟨cause, herror⟩
          · exact Except.ok.inj (hcounts.symm.trans hok)
          · cases hcounts.symm.trans herror
        · rw [hcount]
      · rw [scan_run_block hblock]
        rw [← hnext] at hscan ⊢
        exact ih rfl (settled_afterBlock hblock hle _) hrest hscan

/-! ## Polls -/

/-- What a poll with full blocks does before it scans: it learns the tip and where to start, and
undoes what is orphaned. Returns the tip, how many outpoints were recorded again, and the height
behind which to scan. -/
def prepare (w : Watcher) : Routine Request.Answer (Outcome (UInt64 × Nat × UInt64)) := do
  match ← askLedger .height with
  | .error cause => return (.error (.ledger cause), w)
  | .ok tip =>
    match ← w.startHeight tip with
    | .error cause => return (.error cause, w)
    | .ok last =>
      match ← { w with lastHeight := some last }.reconcile tip with
      | (.error cause, w) => return (.error cause, w)
      | (.ok restored, w) => return (.ok (tip, restored, w.lastHeight.getD last), w)

/-- What a poll reports of its scan. -/
def report (tip : UInt64) (restored : Nat) (scanned : Outcome (Nat × Nat)) : Outcome PollSummary :=
  (scanned.1.map fun counts => ⟨tip, counts.1, counts.2, restored⟩, scanned.2)

/-- What a poll with full blocks does after that. -/
def scanOn : Outcome (UInt64 × Nat × UInt64) → Routine Request.Answer (Outcome PollSummary)
  | (.error cause, w) => return (.error cause, w)
  | (.ok (tip, restored, last), w) => do
    let scanned ← w.scan (0, 0) (heightAfter last) (scanCount last tip)
    return report tip restored scanned

theorem poll_eq_prepare (hfull : w.settings.fullBlocks) : w.poll = w.prepare >>= scanOn := by
  unfold poll prepare
  rw [bind_assoc]
  refine bind_congr fun answer => ?_
  cases answer with
  | error cause => rfl
  | ok tip =>
      dsimp only
      rw [bind_assoc]
      refine bind_congr fun result => ?_
      cases result with
      | error cause => rfl
      | ok last =>
          dsimp only
          rw [if_pos hfull, pollFull, bind_assoc]
          refine bind_congr fun outcome => ?_
          obtain ⟨result, w⟩ := outcome
          cases result with
          | error cause => rfl
          | ok restored =>
              refine bind_congr fun scanned => ?_
              obtain ⟨result, w⟩ := scanned
              cases result <;> rfl

theorem asks_prepare (w : Watcher) : w.prepare.Asks Request.Steady := by
  refine .ask trivial fun answer => ?_
  cases answer with
  | error cause => exact trivial
  | ok tip =>
      refine (asks_startHeight w tip).bind fun result => ?_
      cases result with
      | error cause => exact trivial
      | ok last =>
          refine (asks_reconcile _ tip).bind fun outcome => ?_
          obtain ⟨result, w⟩ := outcome
          cases result <;> exact trivial

/-- Without failures what precedes the scan succeeds. -/
theorem exists_prepare_run (w : Watcher) (s : B.State) :
    ∃ restored last u t, w.prepare.run (B.serve c) s = ((.ok (c.tip, restored, last), u), t) ∧
      u.lastHeight = some last ∧ u.settings = w.settings ∧ u.Settled c := by
  obtain ⟨start, v, hstart⟩ : ∃ start v,
      (w.startHeight c.tip).run (B.serve c) s = ((.ok start : Except WatcherError UInt64), v) := by
    have hruns := Routine.runs_run B.holdings (B.serve_served c) (w.startHeight c.tip) s
    rcases (runs_startHeight hruns).2 with hok | ⟨cause, -, hfails, -⟩
    · exact ⟨_, _, Prod.ext hok rfl⟩
    · exact hfails.elim
  have hbegun : { w with lastHeight := some start }.lastHeight = some start := rfl
  obtain ⟨restored, u, t, hreconcile, hlast, hsettings, hsettled⟩ :=
    exists_reconcile_run (c := c) hbegun v
  obtain ⟨last, hlast⟩ := Option.ne_none_iff_exists'.mp hlast
  refine ⟨restored, last, u, t, ?_, hlast, hsettings, hsettled⟩
  have hheight : B.serve c (.ledger .height) s = (.ok c.tip, s) := rfl
  simp only [prepare, askLedger, Routine.run_seq, Routine.run_ask, Routine.run_done, hheight, hstart,
    hreconcile, hlast]
  rfl

/-- A watcher that has begun and whose newest remembered block is on the chain goes on at once. -/
theorem prepare_run_of_settled (hlast : w.lastHeight = some last) (hsettled : w.Settled c)
    (s : B.State) : w.prepare.run (B.serve c) s = ((.ok (c.tip, 0, last), w), s) := by
  have hheight : B.serve c (.ledger .height) s = (.ok c.tip, s) := rfl
  have hstart : (w.startHeight c.tip).run (B.serve c) s = (.ok last, s) := by
    rw [startHeight, hlast]
    rfl
  have hbegun : { w with lastHeight := some last } = w := by rw [← hlast]
  simp only [prepare, askLedger, Routine.run_seq, Routine.run_ask, Routine.run_done, hheight, hstart,
    hbegun, reconcile_run_of_settled hsettled, hlast]
  rfl

/-- A poll during which blocks could not be had or removals failed, and then one without failures,
come to what one poll without failures comes to, and count together what it counts. -/
theorem exists_retry (hfull : w.settings.fullBlocks) (htip : c.tip.toNat + 1 < UInt64.size)
    {first : Outcome PollSummary} (h : Runs (B.Falters c) w.poll s first t) :
    ∃ once twice u after, w.poll.run (B.serve c) s = ((.ok once, u), after) ∧
      first.2.poll.run (B.serve c) t = ((.ok twice, u), after) ∧ twice.tip = c.tip ∧
      ∀ summary, first.1 = .ok summary →
        summary.scanned + twice.scanned = once.scanned ∧
        summary.pruned + twice.pruned = once.pruned ∧
        summary.restored + twice.restored = once.restored := by
  obtain ⟨restored, last, u, v, hrun, hlast, hsettings, hsettled⟩ := exists_prepare_run (c := c) w s
  -- the first poll comes to its scan like the single one
  rw [poll_eq_prepare hfull] at h
  obtain ⟨prepared, x, hprepare, hscanOn⟩ := Routine.runs_bind.mp h
  have hprepared := (asks_prepare w).run_eq OutpointStore.serve_of_falters hprepare
  obtain ⟨rfl, rfl⟩ := Prod.mk.inj (hprepared.symm.trans hrun)
  obtain ⟨scanned, y, hscan, hreport⟩ := Routine.runs_bind.mp hscanOn
  obtain ⟨rfl, rfl⟩ := Routine.runs_pure.mp hreport
  obtain ⟨counted, reached, hreached, hstill, hsame, hcounts, hresume⟩ :=
    exists_resume htip hlast hsettled hscan
  -- what is left to scan is scanned either by the single poll or by the second one
  obtain ⟨more, pruned, z, after, hmore⟩ := exists_scan_run htip scanned.2 reached t
  refine ⟨⟨c.tip, counted.1 + more, counted.2 + pruned, restored⟩, ⟨c.tip, 0 + more, 0 + pruned, 0⟩,
    z, after, ?_, ?_, rfl, fun summary hsummary => ?_⟩
  · rw [poll_eq_prepare hfull, Routine.run_seq, hrun, scanOn, Routine.run_seq, hresume, hmore]
    rfl
  · change scanned.2.poll.run (B.serve c) t = _
    rw [poll_eq_prepare (hsame ▸ hsettings ▸ hfull), Routine.run_seq,
      prepare_run_of_settled hreached hstill, scanOn, Routine.run_seq, hmore]
    rfl
  · obtain ⟨result, left⟩ := scanned
    cases result with
    | error cause => cases hsummary
    | ok counts =>
        obtain rfl := hcounts counts rfl
        obtain rfl := Except.ok.inj hsummary
        simp

/-- A poll during which blocks could not be had or removals failed, followed by one without
failures, leaves the store and the watcher as one poll without failures does. If the first returns,
the counts of the two add up to those of the single poll; and after a poll without failures another
one finds nothing to do. -/
theorem retry_same (hfull : w.settings.fullBlocks) (htip : c.tip.toNat + 1 < UInt64.size)
    {first : Outcome PollSummary} (h : Runs (B.Falters c) w.poll s first t) :
    let alone := w.poll.run (B.serve c) s
    let again := first.2.poll.run (B.serve c) t
    (again.2 = alone.2 ∧ again.1.2 = alone.1.2 ∧
      ∃ once twice, alone.1.1 = .ok once ∧ again.1.1 = .ok twice ∧
        ∀ summary, first.1 = .ok summary →
          summary.scanned + twice.scanned = once.scanned ∧
          summary.pruned + twice.pruned = once.pruned ∧
          summary.restored + twice.restored = once.restored) ∧
    alone.1.2.poll.run (B.serve c) alone.2 = ((.ok ⟨c.tip, 0, 0, 0⟩, alone.1.2), alone.2) := by
  intro alone again
  refine ⟨?_, ?_⟩
  · obtain ⟨once, twice, u, after, halone, hagain, -, hcounts⟩ := exists_retry hfull htip h
    refine ⟨?_, ?_, once, twice, ?_, ?_, hcounts⟩
    · exact (congrArg Prod.snd hagain).trans (congrArg Prod.snd halone).symm
    · exact (congrArg (·.1.2) hagain).trans (congrArg (·.1.2) halone).symm
    · exact congrArg (·.1.1) halone
    · exact congrArg (·.1.1) hagain
  · -- a poll without failures is one of those that may meet some
    have hruns : Runs (B.Falters c) w.poll s alone.1 alone.2 :=
      Routine.runs_run id OutpointStore.falters_serve w.poll s
    obtain ⟨once, twice, u, after, halone, hagain, hseen, hcounts⟩ := exists_retry hfull htip hruns
    change alone = _ at halone
    rw [halone] at hagain hcounts ⊢
    obtain ⟨hscanned, hpruned, hrestored⟩ := hcounts once rfl
    have htwice : twice = ⟨c.tip, 0, 0, 0⟩ := by
      obtain ⟨tip, scanned, pruned, restored⟩ := twice
      simp only [PollSummary.mk.injEq]
      dsimp only at hseen hscanned hpruned hrestored
      exact ⟨hseen, by omega, by omega, by omega⟩
    rw [hagain, htwice]

end Watcher

/-! ## Failures during a reorganization -/

/-- The backend, with a ledger that tells the truth about a chain apart from some blocks, and with
removals of some outpoints failing. -/
def OutpointStore.serveFaltering (B : OutpointStore) (c : Chain) (missing : UInt64 → Bool)
    (stuck : List Outpoint → Bool) : (request : Request) → B.State → request.Answer × B.State
  | .ledger (.block height), s =>
    if missing height then (.error (.transport "down"), s) else (c.answer (.block height), s)
  | .ledger call, s => (c.answer call, s)
  | .store (.prune outpoints), s =>
    if stuck outpoints then (.error (.databaseOperation "down"), s)
    else B.perform (.prune outpoints) s
  | .store call, s => B.perform call s

theorem OutpointStore.falters_serveFaltering (B : OutpointStore) (c : Chain)
    (missing : UInt64 → Bool) (stuck : List Outpoint → Bool) (request : Request) (s : B.State) :
    B.Falters c request s (B.serveFaltering c missing stuck request s).1
      (B.serveFaltering c missing stuck request s).2 := by
  cases request with
  | ledger call =>
      cases call with
      | block height =>
          by_cases hmissing : missing height
          · rw [serveFaltering, if_pos hmissing]
            exact ⟨.inr ⟨_, rfl⟩, rfl⟩
          · rw [serveFaltering, if_neg hmissing]
            exact ⟨.inl rfl, rfl⟩
      | _ => exact ⟨rfl, rfl⟩
  | store call =>
      cases call with
      | prune outpoints =>
          by_cases hstuck : stuck outpoints
          · rw [serveFaltering, if_pos hstuck]
            exact .inr ⟨⟨outpoints, rfl⟩, ⟨_, fun _ heq => StoreError.noConfusion heq, rfl⟩, rfl⟩
          · rw [serveFaltering, if_neg hstuck]
            exact .inl rfl
      | _ => exact .inl rfl

/-- A poll of the second view that cannot have block 3. -/
def cutPoll : Watcher.Outcome PollSummary × MemoryStore.backend.State :=
  let s := firstSession.depositAll betweenViews
  s.watcher.poll.run (MemoryStore.backend.serveFaltering secondView (· = 3) fun _ => false) s.store

/-- A poll of the second view that cannot remove the third outpoint. -/
def stuckPoll : Watcher.Outcome PollSummary × MemoryStore.backend.State :=
  let s := firstSession.depositAll betweenViews
  s.watcher.poll.run
    (MemoryStore.backend.serveFaltering secondView (fun _ => false) (·.contains (numbered 3))) s.store

/-- Either poll has undone the orphaned block when it fails, and the next one does what is left of
the single poll. -/
theorem Watcher.retry_same_views :
    let s := firstSession.depositAll betweenViews
    let serve := MemoryStore.backend.serve secondView
    let alone := s.watcher.poll.run serve s.store
    alone.1.1.toOption = some ⟨3, 2, 1, 1⟩ ∧
      cutPoll.1.1.toOption = some ⟨3, 1, 1, 1⟩ ∧
      (cutPoll.1.2.poll.run serve cutPoll.2).1.1.toOption = some ⟨3, 1, 0, 0⟩ ∧
      (cutPoll.1.2.poll.run serve cutPoll.2).2 = alone.2 ∧
      stuckPoll.1.1.toOption = none ∧
      (stuckPoll.1.2.poll.run serve stuckPoll.2).1.1.toOption = some ⟨3, 2, 1, 0⟩ ∧
      (stuckPoll.1.2.poll.run serve stuckPoll.2).2 = alone.2 ∧
      alone.1.2.poll.run serve alone.2 = ((.ok ⟨3, 0, 0, 0⟩, alone.1.2), alone.2) := by
  intro s serve alone
  have hfull : s.watcher.settings.fullBlocks := by decide +kernel
  have htip : secondView.tip.toNat + 1 < UInt64.size := by decide
  have hcut := Watcher.retry_same hfull htip (Routine.runs_run id
    (MemoryStore.backend.falters_serveFaltering secondView (· = 3) fun _ => false)
    s.watcher.poll s.store)
  have hstuck := Watcher.retry_same hfull htip (Routine.runs_run id
    (MemoryStore.backend.falters_serveFaltering secondView (fun _ => false)
      (·.contains (numbered 3))) s.watcher.poll s.store)
  exact ⟨by decide +kernel, by decide +kernel, by decide +kernel, hcut.1.1, by decide +kernel,
    by decide +kernel, hstuck.1.1, hcut.2⟩

end ChatRelay
