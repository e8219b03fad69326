import ChatRelay.Watcher
import ChatRelay.Proofs.Service

/-!
# What the parts of a poll do

Each part of a poll is described once by how it may end: what it returns, the watcher it leaves,
and what the store holds then. A part that fails names the request that failed. Which store calls
may fail and what the ledger may answer is left open.
-/

namespace ChatRelay

open Routine (Runs)

variable {fails : StoreCall → Prop} {answers : (call : LedgerCall) → call.Answer → Prop}

namespace Holdings

/-- What is held after removed outpoints have been recorded again, in order. -/
def putBackAll (held : Holdings) (pruned : List Pruned) : Holdings := pruned.foldl putBack held

/-- An outpoint that was not held has the entry of the first that is put back. -/
theorem entries_putBackAll (held : Holdings) (pruned : List Pruned) (o : Outpoint) :
    (held.putBackAll pruned).entries o =
      (held.entries o).or ((pruned.find? (·.outpoint = o)).map (·.payload)) := by
  induction pruned generalizing held with
  | nil => simp [putBackAll]
  | cons first rest ih =>
      have hrest := ih (held.putBack first)
      rw [entries_putBack] at hrest
      refine hrest.trans ?_
      by_cases h : first.outpoint = o
      · simp [h]
      · simp [h, Ne.symm h]

end Holdings

/-! ## Heights -/

theorem toNat_heightBefore {height : UInt64} (h : 0 < height) :
    (heightBefore height).toNat + 1 = height.toNat := by
  have hpos : 0 < height.toNat := UInt64.lt_iff_toNat_lt.mp h
  have hne : height ≠ 0 := fun heq => by simp [heq] at hpos
  have hle : (1 : UInt64) ≤ height := UInt64.le_iff_toNat_le.mpr hpos
  rw [heightBefore, if_neg hne, UInt64.toNat_sub_of_le _ _ hle]
  exact Nat.sub_add_cancel hpos

theorem toNat_succ {height : UInt64} (h : height.toNat + 1 < UInt64.size) :
    (height + 1).toNat = height.toNat + 1 := by
  rw [UInt64.toNat_add, UInt64.toNat_one]
  exact Nat.mod_eq_of_lt h

theorem toNat_heightAfter {height : UInt64} (h : height.toNat + 1 < UInt64.size) :
    (heightAfter height).toNat = height.toNat + 1 := by
  rw [heightAfter, if_neg (Nat.ne_of_lt h)]
  exact toNat_succ h

/-- Below the last height there is, all heights behind the scanned one are scanned. -/
theorem scanCount_eq {last tip : UInt64} (h : tip.toNat + 1 < UInt64.size) :
    Watcher.scanCount last tip = tip.toNat - last.toNat := by
  have hlast := last.toNat_lt_size
  unfold Watcher.scanCount
  by_cases hmax : last.toNat + 1 = UInt64.size
  · rw [heightAfter, if_pos hmax]
    omega
  · rw [toNat_heightAfter (by omega)]
    omega

namespace Watcher

variable {held after : Holdings} {w : Watcher}

/-- Advancing takes the height as scanned even when the store cannot remember it. -/
theorem runs_advance {height : UInt64} {outcome : Outcome Unit}
    (h : Runs (Holdings.Serves fails answers) (w.advance height) held outcome after) :
    (outcome = (.ok (), { w with lastHeight := some height }) ∧
        after = { held with watermark := some height }) ∨
      ∃ cause, fails (.setWatermark height) ∧
        outcome = (.error (.store cause), { w with lastHeight := some height }) ∧
        after = held := by
  obtain ⟨answer, middle, hserved, hrest⟩ := Routine.runs_ask_bind.mp h
  rcases hserved with ⟨rfl, rfl⟩ | ⟨hfails, ⟨cause, -, rfl⟩, rfl⟩
  · obtain ⟨rfl, rfl⟩ := Routine.runs_pure.mp hrest
    exact .inl ⟨rfl, rfl⟩
  · obtain ⟨rfl, rfl⟩ := Routine.runs_pure.mp hrest
    exact .inr ⟨cause, hfails, rfl, rfl⟩

/-- The height that a poll starts from: the one remembered by the watcher, else by the store, else
the depth below the tip. -/
def startOf (w : Watcher) (watermark : Option UInt64) (tip : UInt64) : UInt64 :=
  (w.lastHeight.or watermark).getD
    (if tip < w.settings.depth then 0 else tip - w.settings.depth)

theorem runs_startHeight {tip : UInt64} {result : Except WatcherError UInt64}
    (h : Runs (Holdings.Serves fails answers) (w.startHeight tip) held result after) :
    after = held ∧
      (result = .ok (w.startOf held.watermark tip) ∨
        ∃ cause, w.lastHeight = none ∧ fails .watermark ∧ result = .error (.store cause)) := by
  unfold startHeight at h
  unfold startOf
  cases hlast : w.lastHeight with
  | some height =>
      rw [hlast] at h
      obtain ⟨rfl, rfl⟩ := Routine.runs_pure.mp h
      exact ⟨rfl, .inl rfl⟩
  | none =>
      rw [hlast] at h
      obtain ⟨answer, middle, hserved, hrest⟩ := Routine.runs_ask_bind.mp h
      rcases hserved with ⟨rfl, rfl⟩ | ⟨hfails, ⟨cause, -, rfl⟩, rfl⟩
      · cases hwatermark : middle.watermark with
        | none =>
            rw [hwatermark] at hrest
            obtain ⟨rfl, rfl⟩ := Routine.runs_pure.mp hrest
            exact ⟨rfl, .inl rfl⟩
        | some height =>
            rw [hwatermark] at hrest
            obtain ⟨rfl, rfl⟩ := Routine.runs_pure.mp hrest
            exact ⟨rfl, .inl rfl⟩
      · obtain ⟨rfl, rfl⟩ := Routine.runs_pure.mp hrest
        exact ⟨rfl, .inr ⟨cause, rfl, hfails, rfl⟩⟩

/-! ## Scanning -/

/-- Scanning one more height: the block cannot be had, or what it spends cannot be removed, or the
block is remembered and the height taken as scanned. -/
theorem runs_scan {before : Nat × Nat} {height : UInt64} {count : Nat}
    {outcome : Outcome (Nat × Nat)}
    (h : Runs (Holdings.Serves fails answers) (w.scan before height (count + 1)) held outcome
      after) :
    (∃ cause, answers (.block height) (.error cause) ∧ outcome = (.ok before, w) ∧ after = held) ∨
      ∃ block : LedgerBlock, answers (.block height) (.ok block) ∧
        ((∃ cause, fails (.prune block.spentOutpoints) ∧ outcome = (.error (.store cause), w) ∧
            after = held) ∨
          ∃ taken next, taken = held.taken block.spentOutpoints ∧
            next = { w.remember ⟨height, block.hash, taken⟩ with lastHeight := some height } ∧
            ((∃ cause, fails (.setWatermark height) ∧ outcome = (.error (.store cause), next) ∧
                after = held.discard block.spentOutpoints) ∨
              Runs (Holdings.Serves fails answers)
                (next.scan (before.1 + 1, before.2 + taken.length) (height + 1) count)
                { held.discard block.spentOutpoints with watermark := some height }
                outcome after)) := by
  obtain ⟨answer, middle, ⟨hanswer, rfl⟩, hrest⟩ := Routine.runs_ask_bind.mp h
  rcases answer with cause | block
  · obtain ⟨rfl, rfl⟩ := Routine.runs_pure.mp hrest
    exact .inl ⟨cause, hanswer, rfl, rfl⟩
  · refine .inr ⟨block, hanswer, ?_⟩
    obtain ⟨answer, middle, hserved, hpruned⟩ := Routine.runs_ask_bind.mp hrest
    rcases hserved with ⟨rfl, rfl⟩ | ⟨hfails, ⟨cause, -, rfl⟩, rfl⟩
    · obtain ⟨outcome', middle', hadvance, hscan⟩ := Routine.runs_bind.mp hpruned
      refine .inr ⟨_, _, rfl, rfl, ?_⟩
      rcases runs_advance hadvance with ⟨rfl, rfl⟩ | ⟨cause, hfails, rfl, rfl⟩
      · exact .inr hscan
      · obtain ⟨rfl, rfl⟩ := Routine.runs_pure.mp hscan
        exact .inl ⟨cause, hfails, rfl, rfl⟩
    · obtain ⟨rfl, rfl⟩ := Routine.runs_pure.mp hpruned
      exact .inl ⟨cause, hfails, rfl, rfl⟩

/-- Scanning one more height whose block is shown, with nothing failing. -/
theorem runs_scan_block {ledger : (call : LedgerCall) → call.Answer} {before : Nat × Nat}
    {height : UInt64} {count : Nat} {outcome : Outcome (Nat × Nat)} {block : LedgerBlock}
    (hblock : ledger (.block height) = .ok block)
    (h : Runs (Holdings.Serves (fun _ => False) fun call answer => answer = ledger call)
      (w.scan before height (count + 1)) held outcome after) :
    let taken := held.taken block.spentOutpoints
    Runs (Holdings.Serves (fun _ => False) fun call answer => answer = ledger call)
      ({ w.remember ⟨height, block.hash, taken⟩ with lastHeight := some height }.scan
        (before.1 + 1, before.2 + taken.length) (height + 1) count)
      { held.discard block.spentOutpoints with watermark := some height } outcome after := by
  rcases runs_scan h with ⟨cause, herror, -⟩ | ⟨shown, hshown, hrest⟩
  · cases herror.trans hblock
  · obtain rfl := Except.ok.inj (hshown.trans hblock)
    rcases hrest with ⟨-, hfails, -⟩ | ⟨taken, next, rfl, rfl, ⟨-, hfails, -⟩ | hscan⟩
    · exact hfails.elim
    · exact hfails.elim
    · exact hscan

/-! ## Undoing -/

/-- A remembered block that is above the tip or that the ledger shows to be another. -/
def Orphaned (answers : (call : LedgerCall) → call.Answer → Prop) (tip : UInt64)
    (block : ScannedBlock) : Prop :=
  tip < block.height ∨ ∃ hash, answers (.blockHash block.height) (.ok hash) ∧ hash ≠ block.hash

/-- The remembered blocks are split at the first that is on the chain or that the ledger says
nothing of. Those before it are orphaned, like those found before. -/
def Walked (answers : (call : LedgerCall) → call.Answer → Prop) (tip : UInt64)
    (orphaned recent : List ScannedBlock)
    (walked : Except LedgerError (List ScannedBlock) × List ScannedBlock) : Prop :=
  ∃ popped, recent = popped ++ walked.2 ∧ (∀ block ∈ popped, Orphaned answers tip block) ∧
    ((walked.1 = .ok (orphaned.reverse ++ popped) ∧ ∀ block ∈ walked.2.head?,
        block.height ≤ tip ∧ answers (.blockHash block.height) (.ok block.hash)) ∨
      ∃ cause, walked.1 = .error cause ∧ ∃ block ∈ walked.2.head?, block.height ≤ tip ∧
        answers (.blockHash block.height) (.error cause))

theorem Walked.cons {tip : UInt64} {orphaned recent : List ScannedBlock} {block : ScannedBlock}
    {walked : Except LedgerError (List ScannedBlock) × List ScannedBlock}
    (h : Walked answers tip (block :: orphaned) recent walked)
    (hblock : Orphaned answers tip block) :
    Walked answers tip orphaned (block :: recent) walked := by
  obtain ⟨popped, hsplit, hpopped, hend⟩ := h
  refine ⟨block :: popped, congrArg (block :: ·) hsplit,
    List.forall_mem_cons.mpr ⟨hblock, hpopped⟩, ?_⟩
  rw [List.reverse_cons, List.append_assoc] at hend
  exact hend

theorem runs_walkBack {tip : UInt64} {orphaned recent : List ScannedBlock}
    {walked : Except LedgerError (List ScannedBlock) × List ScannedBlock}
    (h : Runs (Holdings.Serves fails answers) (walkBack tip orphaned recent) held walked after) :
    after = held ∧ Walked answers tip orphaned recent walked := by
  induction recent generalizing orphaned with
  | nil =>
      obtain ⟨rfl, rfl⟩ := Routine.runs_pure.mp h
      exact ⟨rfl, [], rfl, by simp, .inl ⟨by simp, by simp⟩⟩
  | cons block rest ih =>
      unfold walkBack at h
      split at h
      next hheight =>
        obtain ⟨answer, middle, ⟨hanswer, rfl⟩, hrest⟩ := Routine.runs_ask_bind.mp h
        rcases answer with cause | hash
        · obtain ⟨rfl, rfl⟩ := Routine.runs_pure.mp hrest
          exact ⟨rfl, [], rfl, by simp, .inr ⟨cause, rfl, block, rfl, hheight, hanswer⟩⟩
        · dsimp only at hrest
          split at hrest
          next hhash =>
            obtain ⟨rfl, rfl⟩ := Routine.runs_pure.mp hrest
            refine ⟨rfl, [], rfl, by simp, .inl ⟨by simp, fun shown hshown => ?_⟩⟩
            obtain rfl := Option.some.inj hshown
            exact ⟨hheight, hhash ▸ hanswer⟩
          next hhash =>
            obtain ⟨hafter, hwalked⟩ := ih hrest
            exact ⟨hafter, hwalked.cons (.inr ⟨hash, hanswer, hhash⟩)⟩
      next hheight =>
        obtain ⟨hafter, hwalked⟩ := ih h
        exact ⟨hafter, hwalked.cons (.inl (UInt64.not_le.mp hheight))⟩

/-- Removed outpoints have all been put back, or a call that records one of them failed. -/
def Restored (fails : StoreCall → Prop) (held : Holdings) (pruned : List Pruned)
    (result : Except StoreError Nat) (after : Holdings) : Prop :=
  (∃ count, result = .ok count ∧ after = held.putBackAll pruned) ∨
    ∃ cause, result = .error cause ∧ ∃ p ∈ pruned, fails (.add p.outpoint) ∨
      ∃ payload ∈ p.payload, fails (.putPayload p.outpoint payload)

theorem Restored.cons {first : Pruned} {rest : List Pruned} {result : Except StoreError Nat}
    (h : Restored fails (held.putBack first) rest result after) :
    Restored fails held (first :: rest) result after :=
  h.imp_right fun ⟨cause, hresult, p, hp, hfails⟩ =>
    ⟨cause, hresult, p, List.mem_cons_of_mem _ hp, hfails⟩

theorem runs_restore {before : Nat} {pruned : List Pruned} {result : Except StoreError Nat}
    (h : Runs (Holdings.Serves fails answers) (restore before pruned) held result after) :
    Restored fails held pruned result after := by
  induction pruned generalizing before held with
  | nil =>
      obtain ⟨rfl, rfl⟩ := Routine.runs_pure.mp h
      exact .inl ⟨before, rfl, rfl⟩
  | cons first rest ih =>
      obtain ⟨outpoint, payload⟩ := first
      obtain ⟨answer, middle, hserved, hadded⟩ := Routine.runs_ask_bind.mp h
      rcases hserved with hperforms | ⟨hfails, ⟨cause, hcause, rfl⟩, rfl⟩
      · rw [Holdings.performs_add] at hperforms
        split at hperforms
        next hrecorded =>
          obtain ⟨rfl, rfl⟩ := hperforms
          -- what is present keeps its entry, and putting it back changes nothing
          have hback : middle.putBack ⟨outpoint, payload⟩ = middle := if_pos hrecorded
          exact (ih (hback ▸ hadded)).cons
        next hnew =>
          obtain ⟨rfl, rfl⟩ := hperforms
          have hback : held.putBack ⟨outpoint, payload⟩ = held.enter outpoint payload :=
            if_neg hnew
          cases payload with
          | none => exact (ih (hback ▸ hadded)).cons
          | some payload =>
              obtain ⟨answer, middle, hserved, hcached⟩ := Routine.runs_ask_bind.mp hadded
              rcases hserved with ⟨rfl, hmiddle⟩ | ⟨hfails, ⟨cause, -, rfl⟩, rfl⟩
              · have htwice : middle = held.enter outpoint (some payload) := by
                  rw [hmiddle, if_pos (by simp)]
                  exact Holdings.enter_enter ..
                exact (ih (hback ▸ htwice ▸ hcached)).cons
              · obtain ⟨rfl, rfl⟩ := Routine.runs_pure.mp hcached
                exact .inr ⟨cause, rfl, _, List.mem_cons_self, .inr ⟨payload, rfl, hfails⟩⟩
      · -- a failure is never taken for the outpoint's being present
        refine .inr ⟨cause, ?_, _, List.mem_cons_self, .inl hfails⟩
        cases cause with
        | alreadyPresent o => exact absurd rfl (hcause o)
        | _ => exact (Routine.runs_pure.mp hadded).1

/-- Whether the newest of some remembered blocks is shown to be on the chain. -/
def OnChain (answers : (call : LedgerCall) → call.Answer → Prop) (tip : UInt64)
    (blocks : List ScannedBlock) : Prop :=
  ∀ block ∈ blocks.head?, block.height ≤ tip ∧ answers (.blockHash block.height) (.ok block.hash)

/-- How undoing may end. -/
inductive Reconciles (fails : StoreCall → Prop)
    (answers : (call : LedgerCall) → call.Answer → Prop) (w : Watcher) (tip : UInt64)
    (held : Holdings) : Outcome Nat → Holdings → Prop
  /-- A hash cannot be had. The orphaned blocks found so far are forgotten. -/
  | unread {popped left : List ScannedBlock} {cause : LedgerError}
      (hsplit : w.recent = popped ++ left)
      (hunread : ∃ block ∈ left.head?, block.height ≤ tip ∧
        answers (.blockHash block.height) (.error cause)) :
      Reconciles fails answers w tip held (.error (.ledger cause), { w with recent := left }) held
  /-- The newest block is on the chain. -/
  | settled (hchain : OnChain answers tip w.recent) :
      Reconciles fails answers w tip held (.ok 0, w) held
  /-- A removed outpoint cannot be recorded again. The orphaned blocks are forgotten. -/
  | unrestored {newer left : List ScannedBlock} {oldest : ScannedBlock} {cause : StoreError}
      {after : Holdings} (hsplit : w.recent = newer ++ oldest :: left)
      (hfails : ∃ p ∈ (newer ++ [oldest]).flatMap (·.pruned), fails (.add p.outpoint) ∨
        ∃ payload ∈ p.payload, fails (.putPayload p.outpoint payload)) :
      Reconciles fails answers w tip held (.error (.store cause), { w with recent := left }) after
  /-- The store cannot remember the height before the orphaned blocks. -/
  | unmarked {newer left : List ScannedBlock} {oldest : ScannedBlock} {cause : StoreError}
      (hsplit : w.recent = newer ++ oldest :: left)
      (hfails : fails (.setWatermark (heightBefore oldest.height))) :
      Reconciles fails answers w tip held
        (.error (.store cause),
          { w with recent := left, lastHeight := some (heightBefore oldest.height) })
        (held.putBackAll ((newer ++ [oldest]).flatMap (·.pruned)))
  | undone {newer left : List ScannedBlock} {oldest : ScannedBlock} {count : Nat}
      (hsplit : w.recent = newer ++ oldest :: left)
      (hpopped : ∀ block ∈ newer ++ [oldest], Orphaned answers tip block)
      (hchain : OnChain answers tip left) :
      Reconciles fails answers w tip held
        (.ok count, { w with recent := left, lastHeight := some (heightBefore oldest.height) })
        { held.putBackAll ((newer ++ [oldest]).flatMap (·.pruned)) with
          watermark := some (heightBefore oldest.height) }

theorem runs_reconcile {tip : UInt64} {outcome : Outcome Nat}
    (h : Runs (Holdings.Serves fails answers) (w.reconcile tip) held outcome after) :
    Reconciles fails answers w tip held outcome after := by
  obtain ⟨⟨result, left⟩, middle, hwalk, hrest⟩ := Routine.runs_bind.mp h
  obtain ⟨rfl, popped, hsplit, hpopped, ⟨hresult, hchain⟩ | ⟨cause, hresult, hunread⟩⟩ :=
    runs_walkBack hwalk
  · dsimp only at hsplit hresult hchain
    rw [hresult, List.reverse_nil, List.nil_append] at hrest
    rcases List.eq_nil_or_concat popped with rfl | ⟨newer, oldest, rfl⟩
    · obtain ⟨rfl, rfl⟩ := Routine.runs_pure.mp hrest
      rw [List.nil_append] at hsplit
      subst hsplit
      exact .settled hchain
    · rw [List.concat_eq_append] at hrest hsplit hpopped
      rw [List.append_assoc, List.singleton_append] at hsplit
      simp only [List.getLast?_append, List.getLast?_singleton, Option.some_or] at hrest
      obtain ⟨restored, middle', hrestore, hadvance⟩ := Routine.runs_bind.mp hrest
      rcases runs_restore hrestore with ⟨count, rfl, rfl⟩ | ⟨cause, rfl, hfails⟩
      · obtain ⟨outcome', middle'', hadvance, hdone⟩ := Routine.runs_bind.mp hadvance
        rcases runs_advance hadvance with ⟨rfl, rfl⟩ | ⟨cause, hfails, rfl, rfl⟩
        · obtain ⟨rfl, rfl⟩ := Routine.runs_pure.mp hdone
          exact .undone hsplit hpopped hchain
        · obtain ⟨rfl, rfl⟩ := Routine.runs_pure.mp hdone
          exact .unmarked hsplit hfails
      · obtain ⟨rfl, rfl⟩ := Routine.runs_pure.mp hadvance
        exact .unrestored hsplit hfails
  · dsimp only at hsplit hresult hunread
    rw [hresult] at hrest
    obtain ⟨rfl, rfl⟩ := Routine.runs_pure.mp hrest
    exact .unread hsplit hunread

/-! ## Polling -/

/-- A full poll that could undo what is orphaned scans from there. -/
theorem runs_pollFull {last tip : UInt64} {outcome : Outcome PollSummary}
    (h : Runs (Holdings.Serves fails answers) (w.pollFull last tip) held outcome after) :
    ∃ undone middle, Reconciles fails answers w tip held undone middle ∧
      ((∃ cause, undone.1 = .error cause ∧ outcome = (.error cause, undone.2) ∧ after = middle) ∨
        ∃ restored scanned, undone.1 = .ok restored ∧
          Runs (Holdings.Serves fails answers)
            (undone.2.scan (0, 0) (heightAfter (undone.2.lastHeight.getD last))
              (scanCount (undone.2.lastHeight.getD last) tip)) middle scanned after ∧
          outcome = (scanned.1.map fun counts => ⟨tip, counts.1, counts.2, restored⟩,
            scanned.2)) := by
  obtain ⟨⟨result, w'⟩, middle, hreconcile, hrest⟩ := Routine.runs_bind.mp h
  refine ⟨(result, w'), middle, runs_reconcile hreconcile, ?_⟩
  cases result with
  | error cause =>
      obtain ⟨rfl, rfl⟩ := Routine.runs_pure.mp hrest
      exact .inl ⟨cause, rfl, rfl, rfl⟩
  | ok restored =>
      obtain ⟨⟨result, w''⟩, middle', hscan, hdone⟩ := Routine.runs_bind.mp hrest
      refine .inr ⟨restored, (result, w''), rfl, ?_⟩
      cases result with
      | error cause =>
          obtain ⟨rfl, rfl⟩ := Routine.runs_pure.mp hdone
          exact ⟨hscan, rfl⟩
      | ok counts =>
          obtain ⟨rfl, rfl⟩ := Routine.runs_pure.mp hdone
          exact ⟨hscan, rfl⟩

/-- A poll with headers only takes at most the tip as scanned. -/
theorem runs_pollHeaders {last tip : UInt64} {outcome : Outcome PollSummary}
    (h : Runs (Holdings.Serves fails answers) (w.pollHeaders last tip) held outcome after) :
    outcome.2 = w ∨ (last < tip ∧ outcome.2 = { w with lastHeight := some tip }) := by
  unfold pollHeaders at h
  split at h
  next hgrown =>
    obtain ⟨result, middle, -, hrest⟩ := Routine.runs_bind.mp h
    cases result with
    | error cause =>
        obtain ⟨rfl, rfl⟩ := Routine.runs_pure.mp hrest
        exact .inl rfl
    | ok pruned =>
        obtain ⟨outcome', middle', hadvance, hdone⟩ := Routine.runs_bind.mp hrest
        rcases runs_advance hadvance with ⟨rfl, rfl⟩ | ⟨cause, -, rfl, rfl⟩
        · obtain ⟨rfl, rfl⟩ := Routine.runs_pure.mp hdone
          exact .inr ⟨hgrown, rfl⟩
        · obtain ⟨rfl, rfl⟩ := Routine.runs_pure.mp hdone
          exact .inr ⟨hgrown, rfl⟩
  next =>
    obtain ⟨rfl, rfl⟩ := Routine.runs_pure.mp h
    exact .inl rfl

/-- A poll that learns the tip and where to start goes on in its mode. -/
theorem runs_poll {outcome : Outcome PollSummary}
    (h : Runs (Holdings.Serves fails answers) w.poll held outcome after) :
    (∃ cause, answers .height (.error cause) ∧ outcome = (.error (.ledger cause), w) ∧
        after = held) ∨
      ∃ tip, answers .height (.ok tip) ∧
        ((∃ cause, w.lastHeight = none ∧ fails .watermark ∧
            outcome = (.error (.store cause), w) ∧ after = held) ∨
          ∃ begun, begun = { w with lastHeight := some (w.startOf held.watermark tip) } ∧
            Runs (Holdings.Serves fails answers)
              (if w.settings.fullBlocks then begun.pollFull (w.startOf held.watermark tip) tip
                else begun.pollHeaders (w.startOf held.watermark tip) tip) held outcome after) := by
  obtain ⟨answer, middle, ⟨hanswer, rfl⟩, hrest⟩ := Routine.runs_ask_bind.mp h
  rcases answer with cause | tip
  · obtain ⟨rfl, rfl⟩ := Routine.runs_pure.mp hrest
    exact .inl ⟨cause, hanswer, rfl, rfl⟩
  · refine .inr ⟨tip, hanswer, ?_⟩
    obtain ⟨result, middle', hstart, hpoll⟩ := Routine.runs_bind.mp hrest
    obtain ⟨rfl, rfl | ⟨cause, hlast, hfails, rfl⟩⟩ := runs_startHeight hstart
    · exact .inr ⟨_, rfl, hpoll⟩
    · obtain ⟨rfl, rfl⟩ := Routine.runs_pure.mp hpoll
      exact .inl ⟨cause, hlast, hfails, rfl, rfl⟩

end Watcher

end ChatRelay
