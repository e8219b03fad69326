import ChatRelay.Proofs.Backends.Memory
import ChatRelay.Proofs.Watcher.Parts

/-!
# Rollbacks that fail

The remembered blocks of a watcher lie above one another and not above the height it has scanned.
A rollback that fails keeps what the orphaned blocks removed only in two cases: nothing was
orphaned yet, or everything has been recorded again and only the store could not remember the
height. In every other case orphaned blocks are forgotten although the watcher takes their heights
as scanned, so that no later poll restores or rescans them.
-/

namespace ChatRelay.Watcher

open Routine (Runs)

variable {fails : StoreCall → Prop} {answers : (call : LedgerCall) → call.Answer → Prop}
  {held after : Holdings} {w : Watcher} {tip : UInt64}

/-! ## The order of remembered blocks -/

/-- The remembered blocks descend from the scanned height, above zero. -/
structure Ordered (w : Watcher) : Prop where
  descending : w.recent.Pairwise fun newer older => older.height < newer.height
  positive : ∀ block ∈ w.recent, 0 < block.height
  scanned : ∀ block ∈ w.recent, ∃ last ∈ w.lastHeight, block.height ≤ last

theorem ordered_start (settings : WatcherSettings) : (start settings).Ordered :=
  ⟨List.Pairwise.nil, by simp [start], by simp [start]⟩

theorem Ordered.advance (h : w.Ordered) {height : UInt64}
    (hlater : ∀ last ∈ w.lastHeight, last ≤ height) :
    Ordered { w with lastHeight := some height } where
  descending := h.descending
  positive := h.positive
  scanned block hblock := by
    obtain ⟨last, hlast, hle⟩ := h.scanned block hblock
    exact ⟨height, rfl, UInt64.le_trans hle (hlater last hlast)⟩

theorem Ordered.remember (h : w.Ordered) {block : ScannedBlock} (hpositive : 0 < block.height)
    (hlater : ∀ last ∈ w.lastHeight, last < block.height) :
    Ordered { w.remember block with lastHeight := some block.height } := by
  have hbelow : ∀ older ∈ w.recent, older.height < block.height := by
    intro older holder
    obtain ⟨last, hlast, hle⟩ := h.scanned older holder
    exact UInt64.lt_of_le_of_lt hle (hlater last hlast)
  have hsub : ∀ kept ∈ (w.remember block).recent, kept ∈ block :: w.recent := fun kept hkept =>
    List.mem_of_mem_take hkept
  refine ⟨?_, fun kept hkept => ?_, fun kept hkept => ⟨block.height, rfl, ?_⟩⟩
  · exact (List.pairwise_cons.mpr ⟨hbelow, h.descending⟩).sublist (List.take_sublist _ _)
  · rcases List.mem_cons.mp (hsub kept hkept) with rfl | hold
    · exact hpositive
    · exact h.positive kept hold
  · rcases List.mem_cons.mp (hsub kept hkept) with rfl | hold
    · exact UInt64.le_refl _
    · exact UInt64.le_of_lt (hbelow kept hold)

/-- Forgetting the newest blocks keeps the order, also when scanning goes back behind them. -/
theorem Ordered.forget (h : w.Ordered) {popped left : List ScannedBlock}
    (hsplit : w.recent = popped ++ left) : Ordered { w with recent := left } where
  descending := by
    have hdescending := h.descending
    rw [hsplit] at hdescending
    exact (List.pairwise_append.mp hdescending).2.1
  positive block hblock := h.positive block (hsplit ▸ List.mem_append_right _ hblock)
  scanned block hblock := h.scanned block (hsplit ▸ List.mem_append_right _ hblock)

theorem Ordered.undo (h : w.Ordered) {newer left : List ScannedBlock} {oldest : ScannedBlock}
    (hsplit : w.recent = newer ++ oldest :: left) :
    Ordered { w with recent := left, lastHeight := some (heightBefore oldest.height) } := by
  have hpopped : w.recent = (newer ++ [oldest]) ++ left := by simpa using hsplit
  have hforget : Ordered { w with recent := left } := h.forget hpopped
  refine ⟨hforget.descending, hforget.positive, fun block hblock => ⟨_, rfl, ?_⟩⟩
  have hdescending := h.descending
  rw [hsplit, List.pairwise_append] at hdescending
  have hlt := UInt64.lt_iff_toNat_lt.mp ((List.pairwise_cons.mp hdescending.2.1).1 block hblock)
  have hbefore := toNat_heightBefore (h.positive oldest (by simp [hsplit]))
  exact UInt64.le_iff_toNat_le.mpr (by omega)

theorem Ordered.scan (h : w.Ordered) {before : Nat × Nat} {height : UInt64} {count : Nat}
    (hbegin : count = 0 ∨ (0 < height ∧ (∀ last ∈ w.lastHeight, last < height) ∧
      height.toNat + count ≤ UInt64.size)) {outcome : Outcome (Nat × Nat)}
    (hrun : Runs (Holdings.Serves fails answers) (w.scan before height count) held outcome after) :
    outcome.2.Ordered := by
  induction count generalizing w before height held with
  | zero =>
      obtain ⟨rfl, -⟩ := Routine.runs_pure.mp hrun
      exact h
  | succ count ih =>
      obtain ⟨hpositive, hlater, hcount⟩ := hbegin.resolve_left (Nat.succ_ne_zero count)
      rcases runs_scan hrun with ⟨cause, -, rfl, -⟩ | ⟨block, -, hblock⟩
      · exact h
      rcases hblock with ⟨cause, -, rfl, -⟩ | ⟨taken, next, -, rfl, hnext⟩
      · exact h
      have hremember : Ordered
          { w.remember ⟨height, block.hash, taken⟩ with lastHeight := some height } :=
        h.remember hpositive hlater
      rcases hnext with ⟨cause, -, rfl, -⟩ | hrest
      · exact hremember
      refine ih hremember ?_ hrest
      -- the next height may only wrap around when nothing is left to scan
      cases count with
      | zero => exact .inl rfl
      | succ count =>
          have hsucc : (height + 1).toNat = height.toNat + 1 := toNat_succ (by omega)
          refine .inr ⟨UInt64.lt_iff_toNat_lt.mpr ?_, fun last hlast => ?_, ?_⟩
          · rw [hsucc]
            exact Nat.succ_pos _
          · obtain rfl := Option.some.inj hlast
            exact UInt64.lt_iff_toNat_lt.mpr (by rw [hsucc]; exact Nat.lt_succ_self _)
          · rw [hsucc]
            omega

theorem Ordered.reconcile (h : w.Ordered) {outcome : Outcome Nat}
    (hreconciles : Reconciles fails answers w tip held outcome after) : outcome.2.Ordered := by
  cases hreconciles with
  | unread hsplit => exact h.forget hsplit
  | settled => exact h
  | @unrestored newer left oldest _ _ hsplit =>
      have hpopped : w.recent = (newer ++ [oldest]) ++ left := by simpa using hsplit
      exact h.forget hpopped
  | unmarked hsplit => exact h.undo hsplit
  | undone hsplit => exact h.undo hsplit

/-- Every poll keeps the order, whichever requests fail, as long as the ledger's tip is not the last
height there is. -/
theorem Ordered.poll (h : w.Ordered)
    (htip : ∀ tip, answers .height (.ok tip) → tip.toNat + 1 < UInt64.size)
    {outcome : Outcome PollSummary}
    (hrun : Runs (Holdings.Serves fails answers) w.poll held outcome after) :
    outcome.2.Ordered := by
  rcases runs_poll hrun with ⟨cause, -, rfl, -⟩ | ⟨tip, hanswer, hstart⟩
  · exact h
  rcases hstart with ⟨cause, -, -, rfl, -⟩ | ⟨begun, rfl, hpoll⟩
  · exact h
  have hbegun : Ordered { w with lastHeight := some (w.startOf held.watermark tip) } := by
    refine h.advance fun last hlast => ?_
    rw [startOf, Option.mem_def.mp hlast]
    exact UInt64.le_refl last
  split at hpoll
  next =>
    obtain ⟨undone, middle, hreconciles, hend⟩ := runs_pollFull hpoll
    have hundone := hbegun.reconcile hreconciles
    rcases hend with ⟨cause, -, rfl, -⟩ | ⟨restored, scanned, -, hscan, rfl⟩
    · exact hundone
    refine hundone.scan ?_ hscan
    generalize hlast : undone.2.lastHeight.getD (w.startOf held.watermark tip) = last
    have hlt := htip tip hanswer
    rw [scanCount_eq hlt]
    by_cases hnone : tip.toNat ≤ last.toNat
    · exact .inl (Nat.sub_eq_zero_of_le hnone)
    have hafter : (heightAfter last).toNat = last.toNat + 1 := toNat_heightAfter (by omega)
    refine .inr ⟨UInt64.lt_iff_toNat_lt.mpr ?_, fun height hheight => ?_, ?_⟩
    · rw [hafter]
      exact Nat.succ_pos _
    · rw [Option.mem_def.mp hheight, Option.getD_some] at hlast
      exact UInt64.lt_iff_toNat_lt.mpr (by rw [hafter, hlast]; exact Nat.lt_succ_self _)
    · omega
  next =>
    rcases runs_pollHeaders hpoll with heq | ⟨hgrown, heq⟩
    · exact heq ▸ hbegun
    · rw [heq]
      exact hbegun.advance fun last hlast => (Option.some.inj hlast) ▸ UInt64.le_of_lt hgrown

/-- A watcher that polls have led to, whatever was answered and whatever failed. -/
inductive Attained : Watcher → Prop
  | start (settings : WatcherSettings) : Attained (.start settings)
  | poll {w : Watcher} (hw : Attained w) {fails : StoreCall → Prop}
      {answers : (call : LedgerCall) → call.Answer → Prop}
      (htip : ∀ tip, answers .height (.ok tip) → tip.toNat + 1 < UInt64.size)
      {held after : Holdings} {outcome : Outcome PollSummary}
      (hrun : Runs (Holdings.Serves fails answers) w.poll held outcome after) : Attained outcome.2

theorem Attained.ordered (h : w.Attained) : w.Ordered := by
  induction h with
  | start settings => exact ordered_start settings
  | poll _ htip hrun ih => exact ih.poll htip hrun

/-! ## What a failed rollback keeps -/

/-- The entry that an outpoint had when it was last removed, as far as that is remembered. -/
def lastEntry (w : Watcher) (o : Outpoint) : Option (Option Bytes) :=
  ((w.recent.flatMap (·.pruned)).find? (·.outpoint = o)).map (·.payload)

/-- Nothing that a watcher remembers has been lost on the way to another: whatever a block removed
is still remembered, or it is recorded again with the message it had unless it was recorded
already; and the heights of forgotten blocks are yet to be scanned. -/
structure Keeps (w : Watcher) (held : Holdings) (left : Watcher) (after : Holdings) : Prop where
  removed : ∀ block ∈ w.recent, ∀ p ∈ block.pruned,
    (∃ other ∈ left.recent, p ∈ other.pruned) ∨
      after.entries p.outpoint = (held.entries p.outpoint).or (w.lastEntry p.outpoint)
  above : ∀ popped, w.recent = popped ++ left.recent →
    ∀ block ∈ popped, ∀ last ∈ left.lastHeight, last < block.height

theorem keeps_unchanged {left : Watcher} (hrecent : left.recent = w.recent) :
    w.Keeps held left after where
  removed block hblock p hp := .inl ⟨block, hrecent ▸ hblock, hp⟩
  above popped hsplit block hblock := by
    rw [hrecent] at hsplit
    rw [List.append_left_eq_self.mp hsplit.symm] at hblock
    cases hblock

/-- Blocks that are forgotten below the scanned height are lost. -/
theorem not_keeps_of_forgotten (h : w.Ordered) {left : Watcher} {popped : List ScannedBlock}
    (hsplit : w.recent = popped ++ left.recent) (hpopped : popped ≠ [])
    (hlast : left.lastHeight = w.lastHeight) : ¬ w.Keeps held left after := by
  intro hkeeps
  obtain ⟨block, hblock⟩ := List.exists_mem_of_ne_nil popped hpopped
  obtain ⟨last, hmem, hle⟩ := h.scanned block (hsplit ▸ List.mem_append_left _ hblock)
  have hlt := hkeeps.above popped hsplit block hblock last (hlast ▸ hmem)
  exact absurd hle (UInt64.not_le.mpr hlt)

/-- Forgetting blocks and staying at the same height is the one way to lose them. -/
theorem keeps_iff_of_forgotten (h : w.Ordered) {left : Watcher} {popped : List ScannedBlock}
    (hsplit : w.recent = popped ++ left.recent) (hpopped : popped ≠ [])
    (hlast : left.lastHeight = w.lastHeight) :
    w.Keeps held left after ↔ left.recent = w.recent ∨ left.lastHeight ≠ w.lastHeight := by
  refine iff_of_false (not_keeps_of_forgotten h hsplit hpopped hlast) ?_
  rintro (hrecent | hheight)
  · rw [hrecent] at hsplit
    exact hpopped (List.append_left_eq_self.mp hsplit.symm)
  · exact hheight hlast

/-- Blocks that have been restored and are to be scanned again are not lost. -/
theorem keeps_of_restored (h : w.Ordered) {left : Watcher} {newer : List ScannedBlock}
    {oldest : ScannedBlock} (hsplit : w.recent = newer ++ oldest :: left.recent)
    (hlast : left.lastHeight = some (heightBefore oldest.height))
    (hafter : after = held.putBackAll ((newer ++ [oldest]).flatMap (·.pruned))) :
    w.Keeps held left after where
  removed block hblock p hp := by
    have hpopped : w.recent = (newer ++ [oldest]) ++ left.recent := by simpa using hsplit
    generalize newer ++ [oldest] = popped at hpopped hafter
    rw [hpopped] at hblock
    rcases List.mem_append.mp hblock with hblock | hblock
    · right
      have hmem : p ∈ popped.flatMap (·.pruned) := List.mem_flatMap.mpr ⟨block, hblock, hp⟩
      obtain ⟨found, hfound⟩ : ∃ found,
          (popped.flatMap (·.pruned)).find? (·.outpoint = p.outpoint) = some found :=
        Option.isSome_iff_exists.mp (List.find?_isSome.mpr ⟨p, hmem, by simp⟩)
      rw [hafter, Holdings.entries_putBackAll, lastEntry, hpopped, List.flatMap_append,
        List.find?_append, hfound, Option.some_or]
    · exact .inl ⟨block, hblock, hp⟩
  above popped hpopped block hblock last hmem := by
    rw [hlast] at hmem
    obtain rfl := Option.some.inj hmem
    rw [hsplit, ← List.singleton_append, ← List.append_assoc] at hpopped
    obtain rfl := List.append_cancel_right hpopped
    have hdescending := h.descending
    rw [hsplit, List.pairwise_append] at hdescending
    have hpositive : 0 < oldest.height := h.positive oldest (by simp [hsplit])
    have hbefore := toNat_heightBefore hpositive
    have hle : oldest.height.toNat ≤ block.height.toNat := by
      rcases List.mem_append.mp hblock with hblock | hblock
      · have hlt := hdescending.2.2 block hblock oldest List.mem_cons_self
        exact Nat.le_of_lt (UInt64.lt_iff_toNat_lt.mp hlt)
      · exact (List.mem_singleton.mp hblock) ▸ Nat.le_refl _
    exact UInt64.lt_iff_toNat_lt.mpr (by omega)

/-- A rollback that fails keeps what the orphaned blocks removed exactly if it forgot no block or
had already gone back to before the forgotten ones. -/
theorem keeps_iff_of_failed {B : OutpointStore} (hw : w.Attained) {s t : B.State}
    {cause : WatcherError} {left : Watcher}
    (hrun : Runs (Request.Served B.Performs (fun _ => True) fun _ _ => True) (w.reconcile tip) s
      (.error cause, left) t) :
    w.Keeps (B.holdings s) left (B.holdings t) ↔
      left.recent = w.recent ∨ left.lastHeight ≠ w.lastHeight := by
  have hordered := hw.ordered
  have hheld : Runs (Holdings.Serves (fun _ => True) fun _ _ => True) (w.reconcile tip)
      (B.holdings s) (.error cause, left) (B.holdings t) :=
    hrun.map B.holdings fun _ _ _ _ hserved =>
      hserved.map B.holdings fun _ _ _ _ => OutpointStore.Performs.holdings
  generalize houtcome : ((.error cause, left) : Outcome Nat) = outcome at hheld
  generalize B.holdings t = after at hheld ⊢
  cases runs_reconcile hheld with
  | @unread popped left' cause' hsplit hunread =>
      cases houtcome
      by_cases hpopped : popped = []
      · rw [hpopped, List.nil_append] at hsplit
        exact iff_of_true (keeps_unchanged hsplit.symm) (.inl hsplit.symm)
      · exact keeps_iff_of_forgotten hordered hsplit hpopped rfl
  | settled => cases houtcome
  | @unrestored newer left' oldest cause' after' hsplit hfails =>
      cases houtcome
      have hpopped : w.recent = (newer ++ [oldest]) ++ left' := by simpa using hsplit
      exact keeps_iff_of_forgotten hordered hpopped (by simp) rfl
  | @unmarked newer left' oldest cause' hsplit hfails =>
      cases houtcome
      refine iff_of_true (keeps_of_restored hordered hsplit rfl rfl) (.inr fun heq => ?_)
      obtain ⟨last, hmem, hle⟩ := hordered.scanned oldest (by simp [hsplit])
      rw [← heq] at hmem
      have hbefore := toNat_heightBefore (hordered.positive oldest (by simp [hsplit]))
      have hle' := UInt64.le_iff_toNat_le.mp hle
      rw [← Option.some.inj hmem] at hle'
      omega
  | undone => cases houtcome

/-! ## A rollback that loses a block -/

def twoSpends : Chain where
  blocks := [⟨"h0", 0, []⟩, ⟨"h1", 1, [⟨"t1", [some ⟨FixedBytes.replicate 32 1, 1⟩]⟩]⟩,
    ⟨"h2", 2, [⟨"t2", [some ⟨FixedBytes.replicate 32 2, 2⟩]⟩]⟩]
  outputs _ := none
  blocks_ne_nil := List.cons_ne_nil _ _
  length_le := by decide

/-- A store that records both outpoints and has been scanned up to height zero. -/
def twoRecorded : MemoryStore.backend.State :=
  [StoreCall.add ⟨FixedBytes.replicate 32 1, 1⟩, .add ⟨FixedBytes.replicate 32 2, 2⟩,
    .setWatermark 0].foldl (fun s call => (MemoryStore.backend.perform call s).2)
    ⟨MemoryStore.empty, MemoryStore.sound_empty⟩

/-- A watcher that has scanned both blocks, and the store afterwards. -/
def twoScanned : Outcome PollSummary × MemoryStore.backend.State :=
  (start ⟨6, true⟩).poll.run (MemoryStore.backend.serve twoSpends) twoRecorded

/-- A ledger that shows another block at height two and fails at height one. -/
def serveFork : (request : Request) → MemoryStore.backend.State →
    request.Answer × MemoryStore.backend.State
  | .ledger (.blockHash height), s => (if height = 1 then .error .shape else .ok "fork", s)
  | .ledger call, s => (twoSpends.answer call, s)
  | .store call, s => MemoryStore.backend.perform call s

def forkRollback : Outcome Nat × MemoryStore.backend.State :=
  (twoScanned.1.2.reconcile 2).run serveFork twoScanned.2

theorem attained_twoScanned : twoScanned.1.2.Attained := by
  have hrun := Routine.runs_run MemoryStore.backend.holdings
    (OutpointStore.serve_served twoSpends) (start ⟨6, true⟩).poll twoRecorded
  refine Attained.poll (.start ⟨6, true⟩) (fun tip htip => ?_) hrun
  rw [Except.ok.inj htip]
  decide

theorem runs_forkRollback :
    Runs (Request.Served MemoryStore.backend.Performs (fun _ => True) fun _ _ => True)
      (twoScanned.1.2.reconcile 2) twoScanned.2 (.error (.ledger .shape), forkRollback.1.2)
      forkRollback.2 := by
  have hserves : ∀ request s, Request.Served MemoryStore.backend.Performs (fun _ => True)
      (fun _ _ => True) request s (serveFork request s).1 (serveFork request s).2 := by
    intro request s
    cases request with
    | store call => exact .inl rfl
    | ledger call => cases call <;> exact ⟨trivial, rfl⟩
  have hrun := Routine.runs_run (fun s => s) hserves (twoScanned.1.2.reconcile 2) twoScanned.2
  have hfailed : forkRollback.1 = (.error (.ledger .shape), forkRollback.1.2) :=
    Prod.ext rfl rfl
  rw [← hfailed]
  exact hrun

theorem forgotten_forkRollback :
    twoScanned.1.2.recent =
      [⟨2, "h2", [⟨⟨FixedBytes.replicate 32 2, 2⟩, none⟩]⟩] ++ forkRollback.1.2.recent := by
  decide +kernel

/-- At the rollback that forgets a block, both sides are false. -/
theorem keeps_iff_of_failed_fork :
    (twoScanned.1.2.Keeps (MemoryStore.backend.holdings twoScanned.2) forkRollback.1.2
        (MemoryStore.backend.holdings forkRollback.2) ↔
      forkRollback.1.2.recent = twoScanned.1.2.recent ∨
        forkRollback.1.2.lastHeight ≠ twoScanned.1.2.lastHeight) ∧
      forkRollback.1.2.recent ≠ twoScanned.1.2.recent ∧
      forkRollback.1.2.lastHeight = twoScanned.1.2.lastHeight :=
  ⟨keeps_iff_of_failed attained_twoScanned runs_forkRollback, by decide +kernel, by decide +kernel⟩

/-- The orphaned block at height two is forgotten, although its height counts as scanned, and what
it removed is neither recorded nor remembered. -/
theorem forkRollback_loses :
    twoScanned.1.2.Attained ∧
      Runs (Request.Served MemoryStore.backend.Performs (fun _ => True) fun _ _ => True)
        (twoScanned.1.2.reconcile 2) twoScanned.2 (.error (.ledger .shape), forkRollback.1.2)
        forkRollback.2 ∧
      ¬ twoScanned.1.2.Keeps (MemoryStore.backend.holdings twoScanned.2) forkRollback.1.2
        (MemoryStore.backend.holdings forkRollback.2) ∧
      ¬ (MemoryStore.backend.holdings forkRollback.2).recorded ⟨FixedBytes.replicate 32 2, 2⟩ ∧
      forkRollback.1.2.lastEntry ⟨FixedBytes.replicate 32 2, 2⟩ = none := by
  refine ⟨attained_twoScanned, runs_forkRollback, ?_, by decide +kernel, by decide +kernel⟩
  exact not_keeps_of_forgotten attained_twoScanned.ordered forgotten_forkRollback (by simp)
    (by decide +kernel)

end ChatRelay.Watcher
