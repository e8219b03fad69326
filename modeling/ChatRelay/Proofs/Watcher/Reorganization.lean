import ChatRelay.Proofs.Backends.Memory
import ChatRelay.Proofs.Watcher.Records

/-!
# Reorganizations

A watcher polls one view of the chain after another, each sharing with the one before it what lies
deeper than the depth. Between polls outpoints may be recorded and messages cached. However the
views reorganize the chain, after every poll the store records exactly those of the known outpoints
that the polled view does not spend, each with its last known entry.
-/

namespace ChatRelay.Watcher

open Routine (Runs)

variable {settings : WatcherSettings} {start highest n : Nat} {prev next c : Chain}
  {known entry : Outpoint → Option (Option Bytes)} {w : Watcher} {held after : Holdings}

/-- Serving with a ledger that tells the truth about a chain and with no failures. -/
abbrev Truthful (c : Chain) : (request : Request) → Holdings → request.Answer → Holdings → Prop :=
  Holdings.Serves (fun _ => False) fun call answer => answer = c.answer call

/-! ## Tracking a chain -/

/-- A watcher that has scanned a chain up to a height remembers the blocks below it that may still
be reorganized. -/
structure Positioned (settings : WatcherSettings) (start highest : Nat) (c : Chain)
    (known : Outpoint → Option (Option Bytes)) (n : Nat) (w : Watcher) : Prop where
  configured : w.settings = settings
  last : ∃ height ∈ w.lastHeight, height.toNat = n
  low : start ≤ n
  high : n ≤ c.tip.toNat
  recent : Remembered c start known n w.recent
  cover : n ≤ w.recent.length + max start (highest - settings.depth.toNat)

/-- And the store records what the chain does not spend up to that height. -/
structure Tracks (settings : WatcherSettings) (start highest : Nat) (c : Chain)
    (known : Outpoint → Option (Option Bytes)) (n : Nat) (w : Watcher) (held : Holdings) : Prop
    extends Positioned settings start highest c known n w where
  entries : ∀ o, held.entries o = if c.spends start n o then none else known o

theorem Tracks.remember (h : Tracks settings start highest c known n w held) {height : UInt64}
    {block : LedgerBlock} (hheight : height.toNat = n + 1)
    (hblock : c.blocks[n + 1]? = some block) (hhighest : c.tip.toNat ≤ highest) :
    Tracks settings start highest c known (n + 1)
      { w.remember ⟨height, block.hash, held.taken block.spentOutpoints⟩ with
        lastHeight := some height }
      { held.discard block.spentOutpoints with watermark := some height } where
  configured := h.configured
  last := ⟨height, rfl, hheight⟩
  low := Nat.le_succ_of_le h.low
  high := Chain.le_tip_of_block hblock
  recent := by
    have hrecord : RecordOf c start known n
        ⟨height, block.hash, held.taken block.spentOutpoints⟩ block := by
      refine ⟨h.low, hheight, hblock, rfl, fun p => ?_⟩
      rw [Holdings.mem_taken, h.entries]
      refine and_congr_right fun _ => ?_
      by_cases hspent : c.spends start n p.outpoint <;> simp [hspent]
    have hall : Remembered c start known (n + 1)
        (⟨height, block.hash, held.taken block.spentOutpoints⟩ :: w.recent) :=
      ⟨⟨block, hrecord⟩, h.recent⟩
    exact hall.take _
  cover := by
    have hcover := h.cover
    have hhigh := Chain.le_tip_of_block hblock
    simp only [Watcher.remember, List.length_take, List.length_cons, h.configured]
    omega
  entries o := by
    have hsucc := Chain.spends_succ (o := o) h.low hblock
    change (held.discard block.spentOutpoints).entries o = _
    rw [Holdings.entries_discard, h.entries]
    by_cases hspent : o ∈ block.spentOutpoints
    · simp [hspent, hsucc.mpr (.inr hspent)]
    · simp [hspent, hsucc]

/-- Scanning up to the tip tracks the whole chain. -/
theorem Tracks.scan (h : Tracks settings start highest c known n w held)
    (htip : c.tip.toNat + 1 < UInt64.size) (hhighest : c.tip.toNat ≤ highest) {before : Nat × Nat}
    {height : UInt64} {count : Nat} (hheight : height.toNat = n + 1)
    (hcount : n + count = c.tip.toNat) {outcome : Outcome (Nat × Nat)}
    (hrun : Runs (Truthful c) (w.scan before height count) held outcome after) :
    (∃ counts, outcome.1 = .ok counts) ∧
      Tracks settings start highest c known c.tip.toNat outcome.2 after := by
  induction count generalizing n w held before height with
  | zero =>
      obtain ⟨rfl, rfl⟩ := Routine.runs_pure.mp hrun
      rw [← hcount]
      exact ⟨⟨before, rfl⟩, h⟩
  | succ count ih =>
      obtain ⟨block, hblock⟩ := c.exists_block (show n + 1 ≤ c.tip.toNat by omega)
      have hanswer : c.answer (.block height) = .ok block := by
        simp only [Chain.answer, hheight, hblock]
      have hscan := runs_scan_block hanswer hrun
      have hsucc : (height + 1).toNat = n + 1 + 1 := by
        rw [toNat_succ (by omega), hheight]
      exact ih (h.remember hheight hblock hhighest) hsucc (by omega) hscan

/-! ## From one view to the next -/

/-- Views with one hash at a height have the same blocks up to it. -/
def Consistent (prev next : Chain) : Prop :=
  ∀ (n : Nat) (block other : LedgerBlock), prev.blocks[n]? = some block →
    next.blocks[n]? = some other → block.hash = other.hash →
    ∀ m ≤ n, prev.blocks[m]? = next.blocks[m]?

/-- Some block that two views share above one height and up to another spends an outpoint. -/
def SharedSpend (prev next : Chain) (low high : Nat) (o : Outpoint) : Prop :=
  ∃ m block, low < m ∧ m ≤ high ∧ prev.blocks[m]? = some block ∧ next.blocks[m]? = some block ∧
    o ∈ block.spentOutpoints

/-- The store between two polls: an outpoint is known by the entry it has or else had at the last
poll, no shared block spends a recorded one, and one that is missing has been spent. -/
structure Between (prev next : Chain) (start n : Nat)
    (known entry : Outpoint → Option (Option Bytes)) (held : Holdings) : Prop where
  entry : ∀ o, entry o = (held.entries o).or (known o)
  recorded : ∀ o, held.recorded o → ¬ SharedSpend prev next start n o
  missing : ∀ o, held.entries o = none → known o ≠ none → prev.spends start n o

/-- Right after a poll the store is as it must be before the next one. -/
theorem Tracks.between (h : Tracks settings start highest prev known n w held) :
    Between prev next start n known known held where
  entry o := by
    rw [h.entries]
    split
    next => rfl
    next => cases known o <;> rfl
  recorded o hrecorded hshared := by
    obtain ⟨m, block, hlow, hhigh, hblock, -, hmem⟩ := hshared
    have hspent : prev.spends start n o :=
      Chain.spends_iff.mpr ⟨m, block, hlow, hhigh, hblock, hmem⟩
    simp [Holdings.recorded, h.entries, hspent] at hrecorded
  missing o hnone hne := by
    rw [h.entries] at hnone
    split at hnone
    next hspent => exact hspent
    next => exact absurd hnone hne

/-- Where the newest remembered block that is left is on the next view, or none is left, the views
are the same. -/
theorem shared_of_onChain {left : List ScannedBlock} (hleft : Remembered prev start known n left)
    (hconsistent : Consistent prev next)
    (hsame : ∀ m ≤ max start (highest - settings.depth.toNat), next.blocks[m]? = prev.blocks[m]?)
    (hcover : n ≤ left.length + max start (highest - settings.depth.toNat))
    (hchain : OnChain (fun call answer => answer = next.answer call) next.tip left) :
    ∀ m ≤ n, prev.blocks[m]? = next.blocks[m]? := by
  cases left with
  | nil =>
      -- with no block left, the scanned heights are all among those the views share anyway
      rw [List.length_nil, Nat.zero_add] at hcover
      exact fun m hm => (hsame m (Nat.le_trans hm hcover)).symm
  | cons newest rest =>
      cases n with
      | zero => exact hleft.elim
      | succ k =>
          obtain ⟨⟨block, hrecord⟩, -⟩ := hleft
          obtain ⟨-, hhash⟩ := hchain newest rfl
          obtain ⟨other, hother⟩ : ∃ other, next.blocks[k + 1]? = some other := by
            cases hnone : next.blocks[k + 1]? with
            | some other => exact ⟨other, rfl⟩
            | none => simp [Chain.answer, hrecord.height, hnone] at hhash
          simp only [Chain.answer, hrecord.height, hother, Except.ok.injEq] at hhash
          exact hconsistent (k + 1) block other hrecord.atHeight hother
            (hrecord.hash.symm.trans hhash)

/-- A recorded outpoint is not spent where the views are the same. -/
theorem Between.unspent (h : Between prev next start n known entry held) {m : Nat} (hm : m ≤ n)
    (hshared : ∀ k ≤ m, prev.blocks[k]? = next.blocks[k]?) {o : Outpoint}
    (hrecorded : held.recorded o) : ¬ prev.spends start m o := by
  intro hspent
  obtain ⟨k, block, hlow, hhigh, hblock, hmem⟩ := Chain.spends_iff.mp hspent
  exact h.recorded o hrecorded
    ⟨k, block, hlow, Nat.le_trans hhigh hm, hblock, (hshared k hhigh) ▸ hblock, hmem⟩

/-- An outpoint that is spent where the views are the same is known as it was at the last poll. -/
theorem Between.same (h : Between prev next start n known entry held) {m : Nat} (hm : m ≤ n)
    (hshared : ∀ k ≤ m, prev.blocks[k]? = next.blocks[k]?) {o : Outpoint}
    (hspent : prev.spends start m o) : known o = entry o := by
  rw [h.entry]
  cases hheld : held.entries o with
  | none => rfl
  | some _ =>
      have hrecorded : held.recorded o := by simp [Holdings.recorded, hheld]
      exact absurd hspent (h.unspent hm hshared hrecorded)

/-- Putting back what the orphaned blocks removed gives what the next view does not spend below
them. -/
theorem Between.entries_putBackAll (h : Between prev next start n known entry held)
    {popped left : List ScannedBlock} (hrecent : Remembered prev start known n (popped ++ left))
    (hshared : ∀ m ≤ n - popped.length, prev.blocks[m]? = next.blocks[m]?) (o : Outpoint) :
    (held.putBackAll (popped.flatMap (·.pruned))).entries o =
      if next.spends start (n - popped.length) o then none else entry o := by
  rw [Holdings.entries_putBackAll, hrecent.find o, ← Chain.spends_congr hshared, h.entry]
  cases hheld : held.entries o with
  | some _ =>
      have hrecorded : held.recorded o := by simp [Holdings.recorded, hheld]
      rw [if_neg (h.unspent (Nat.sub_le _ _) hshared hrecorded)]
      rfl
  | none =>
      rw [Option.none_or, Option.none_or]
      by_cases hbelow : prev.spends start (n - popped.length) o
      · simp [hbelow]
      · cases hknown : known o with
        | none => simp
        | some _ => simp [hbelow, h.missing o hheld (by simp [hknown])]

/-- Once the newest blocks have been popped and what they removed has been put back, the next view
is tracked up to the newest block that is left. -/
theorem Positioned.pop (h : Positioned settings start highest prev known n w)
    (hbetween : Between prev next start n known entry held) (hconsistent : Consistent prev next)
    (hsame : ∀ m ≤ max start (highest - settings.depth.toNat), next.blocks[m]? = prev.blocks[m]?)
    {popped left : List ScannedBlock} {u : Watcher} (hsplit : w.recent = popped ++ left)
    (hchain : OnChain (fun call answer => answer = next.answer call) next.tip left)
    (hsettings : u.settings = settings) (hrecent : u.recent = left)
    (hlast : ∃ height ∈ u.lastHeight, height.toNat = n - popped.length)
    (hlow : start ≤ n - popped.length)
    (hentries : after.entries = (held.putBackAll (popped.flatMap (·.pruned))).entries) :
    Tracks settings start (max highest next.tip.toNat) next entry (n - popped.length) u after := by
  have hall := h.recent
  rw [hsplit] at hall
  obtain ⟨hle, hremembered⟩ := hall.older
  have hcover := h.cover
  rw [hsplit, List.length_append] at hcover
  have hshared := shared_of_onChain hremembered hconsistent hsame (by omega) hchain
  obtain ⟨block, hblock⟩ :=
    Chain.exists_block _ (Nat.le_trans (Nat.sub_le n popped.length) h.high)
  have hhigh := Chain.le_tip_of_block ((hshared _ (Nat.le_refl _)) ▸ hblock)
  refine ⟨⟨hsettings, hlast, hlow, hhigh, ?_, ?_⟩, fun o => ?_⟩
  · rw [hrecent]
    exact hremembered.change hshared fun o => hbetween.same (Nat.sub_le _ _) hshared
  · rw [hrecent]
    omega
  · rw [hentries]
    exact hbetween.entries_putBackAll hall hshared o

/-- Undoing what is orphaned tracks the next view up to the last block it shares. -/
theorem Positioned.reconcile (h : Positioned settings start highest prev known n w)
    (hbetween : Between prev next start n known entry held) (hconsistent : Consistent prev next)
    (hsame : ∀ m ≤ max start (highest - settings.depth.toNat), next.blocks[m]? = prev.blocks[m]?)
    {outcome : Outcome Nat}
    (hreconciles : Reconciles (fun _ => False) (fun call answer => answer = next.answer call) w
      next.tip held outcome after) :
    (∃ count, outcome.1 = .ok count) ∧ ∃ m,
      Tracks settings start (max highest next.tip.toNat) next entry m outcome.2 after := by
  cases hreconciles with
  | unread hsplit hunread =>
      obtain ⟨block, -, hheight, hanswer⟩ := hunread
      obtain ⟨shown, hshown⟩ := Chain.exists_block _ (UInt64.le_iff_toNat_le.mp hheight)
      simp [Chain.answer, hshown] at hanswer
  | settled hchain =>
      have hsplit : w.recent = [] ++ w.recent := rfl
      exact ⟨⟨0, rfl⟩, n, h.pop hbetween hconsistent hsame hsplit hchain h.configured rfl h.last
        h.low rfl⟩
  | unrestored hsplit hfails =>
      obtain ⟨p, -, hfails | ⟨payload, -, hfails⟩⟩ := hfails
      · exact hfails.elim
      · exact hfails.elim
  | unmarked hsplit hfails => exact hfails.elim
  | @undone newer left oldest count hsplit hpopped hchain =>
      have hall := h.recent
      rw [hsplit] at hall
      obtain ⟨hle, hremembered⟩ := hall.older
      -- the oldest of the popped blocks is the one above the height that is gone back to
      obtain ⟨k, hk⟩ : ∃ k, n - newer.length = k + 1 := by
        cases hcount : n - newer.length with
        | zero => rw [hcount] at hremembered; exact hremembered.elim
        | succ k => exact ⟨k, rfl⟩
      rw [hk] at hremembered
      obtain ⟨⟨block, hrecord⟩, -⟩ := hremembered
      have hlength : n - (newer ++ [oldest]).length = k := by
        rw [List.length_append, List.length_singleton]
        omega
      have hpositive : 0 < oldest.height :=
        UInt64.lt_iff_toNat_lt.mpr (by rw [hrecord.height]; exact Nat.succ_pos k)
      have hbefore := toNat_heightBefore hpositive
      rw [hrecord.height] at hbefore
      refine ⟨⟨count, rfl⟩, n - (newer ++ [oldest]).length, ?_⟩
      have hpopped : w.recent = (newer ++ [oldest]) ++ left := by simpa using hsplit
      refine h.pop hbetween hconsistent hsame hpopped hchain h.configured rfl ⟨_, rfl, ?_⟩ ?_ rfl
      · rw [hlength]
        exact Nat.succ.inj hbefore
      · rw [hlength]
        exact hrecord.above

/-- A poll of the next view succeeds and tracks it up to its tip. -/
theorem Positioned.poll
    (h : Positioned settings start highest prev known n
      { w with lastHeight := some (w.startOf held.watermark next.tip) })
    (hfull : settings.fullBlocks) (htip : next.tip.toNat + 1 < UInt64.size)
    (hbetween : Between prev next start n known entry held) (hconsistent : Consistent prev next)
    (hsame : ∀ m ≤ max start (highest - settings.depth.toNat), next.blocks[m]? = prev.blocks[m]?)
    {outcome : Outcome PollSummary} (hrun : Runs (Truthful next) w.poll held outcome after) :
    (∃ summary, outcome.1 = .ok summary) ∧
      Tracks settings start (max highest next.tip.toNat) next entry next.tip.toNat outcome.2
        after := by
  rcases runs_poll hrun with ⟨cause, hanswer, -⟩ | ⟨tip, hanswer, hstart⟩
  · cases hanswer
  obtain rfl : tip = next.tip := Except.ok.inj hanswer
  rcases hstart with ⟨cause, -, hfails, -⟩ | ⟨begun, rfl, hpoll⟩
  · exact hfails.elim
  have hfull' : w.settings.fullBlocks := by
    rw [show w.settings = settings from h.configured]
    exact hfull
  rw [if_pos hfull'] at hpoll
  obtain ⟨undone, middle, hreconciles, hend⟩ := runs_pollFull hpoll
  obtain ⟨⟨count, hcount⟩, m, htracks⟩ := h.reconcile hbetween hconsistent hsame hreconciles
  rcases hend with ⟨cause, herror, -⟩ | ⟨restored, scanned, -, hscan, rfl⟩
  · rw [hcount] at herror
    cases herror
  obtain ⟨height, hheight, rfl⟩ := htracks.last
  rw [Option.mem_def.mp hheight, Option.getD_some, scanCount_eq htip] at hscan
  have hhigh := htracks.high
  obtain ⟨⟨counts, hcounts⟩, hscanned⟩ := htracks.scan htip (Nat.le_max_right _ _)
    (toNat_heightAfter (by omega)) (by omega) hscan
  refine ⟨⟨⟨next.tip, counts.1, counts.2, restored⟩, ?_⟩, hscanned⟩
  rw [hcounts]
  rfl

end ChatRelay.Watcher

namespace ChatRelay

/-! ## Sessions -/

/-- What is asked of the store between two polls. -/
inductive Deposit where
  | record (outpoint : Outpoint)
  | cache (outpoint : Outpoint) (payload : Bytes)
  deriving DecidableEq, Repr

def Deposit.call : Deposit → StoreCall
  | .record outpoint => .add outpoint
  | .cache outpoint payload => .putPayload outpoint payload

/-- A watcher and its store, with the entry that each outpoint has or had when it was last
recorded. -/
structure Session (B : OutpointStore) where
  watcher : Watcher
  store : B.State
  known : Outpoint → Option (Option Bytes)

namespace Session

variable {B : OutpointStore}

def begin (settings : WatcherSettings) (store : B.State) : Session B :=
  ⟨.start settings, store, (B.holdings store).entries⟩

def deposit (s : Session B) (d : Deposit) : Session B :=
  let store := (B.perform d.call s.store).2
  { s with store, known := fun o => ((B.holdings store).entries o).or (s.known o) }

def depositAll (s : Session B) (deposits : List Deposit) : Session B := deposits.foldl deposit s

def poll (s : Session B) (view : Chain) : Except WatcherError PollSummary × Session B :=
  let polled := s.watcher.poll.run (B.serve view) s.store
  (polled.1.1, { s with watcher := polled.1.2, store := polled.2 })

end Session

open Watcher (Between Consistent SharedSpend Tracks Positioned)

variable {B : OutpointStore} {settings : WatcherSettings} {start highest n : Nat}
  {prev next view : Chain} {known : Outpoint → Option (Option Bytes)} {s : Session B}

/-- A deposit records at most its own outpoint and removes none. -/
theorem Deposit.recorded_iff {d : Deposit} {held after : Holdings} {answer : d.call.Answer}
    (h : Holdings.Performs d.call held answer after) (o : Outpoint) :
    after.recorded o ↔ held.recorded o ∨ d = .record o := by
  cases d with
  | record outpoint =>
      have hadd := Holdings.performs_add.mp h
      split at hadd
      next hrecorded =>
        rw [hadd.2, Deposit.record.injEq]
        exact ⟨.inl, fun h => h.elim id fun heq => heq ▸ hrecorded⟩
      next =>
        rw [hadd.2, Holdings.recorded_enter, Bool.or_eq_true, decide_eq_true_eq,
          Deposit.record.injEq]
        exact or_comm.trans (or_congr_right eq_comm)
  | cache outpoint payload =>
      have hafter := h.2
      split at hafter
      next hrecorded =>
        rw [hafter, Holdings.recorded_enter, Bool.or_eq_true, decide_eq_true_eq]
        simp only [reduceCtorEq, or_false]
        exact ⟨fun h => h.elim (fun heq => heq ▸ hrecorded) id, .inr⟩
      next => simp [hafter]

/-- Deposits of outpoints that no shared block spends leave the store as it must be between two
polls. -/
theorem Session.between_deposit
    (h : Between prev next start n known s.known (B.holdings s.store)) {d : Deposit}
    (hd : ∀ o, d = .record o → ¬ SharedSpend prev next start n o) :
    Between prev next start n known (s.deposit d).known (B.holdings (s.deposit d).store) := by
  have hrecorded := Deposit.recorded_iff (B.performs d.call s.store)
  change ∀ o, (B.holdings (s.deposit d).store).recorded o ↔ _ at hrecorded
  have hkept : ∀ o, (B.holdings (s.deposit d).store).entries o = none →
      (B.holdings s.store).entries o = none := by
    intro o hnone
    have hmissing : ¬ (B.holdings (s.deposit d).store).recorded o := by
      simp [Holdings.recorded, hnone]
    have hbefore : ¬ (B.holdings s.store).recorded o := fun hheld =>
      hmissing ((hrecorded o).mpr (.inl hheld))
    simpa [Holdings.recorded] using hbefore
  refine ⟨fun o => ?_, fun o ho => ?_, fun o hnone => h.missing o (hkept o hnone)⟩
  · change ((B.holdings (s.deposit d).store).entries o).or (s.known o) = _
    rw [h.entry]
    cases hentry : (B.holdings (s.deposit d).store).entries o with
    | some _ => rfl
    | none => rw [hkept o hentry, Option.none_or]
  · exact ((hrecorded o).mp ho).elim (h.recorded o) (hd o)

theorem Session.between_depositAll
    (h : Between prev next start n known s.known (B.holdings s.store)) {deposits : List Deposit}
    (hdeposits : ∀ o, .record o ∈ deposits → ¬ SharedSpend prev next start n o) :
    Between prev next start n known (s.depositAll deposits).known
      (B.holdings (s.depositAll deposits).store) := by
  induction deposits generalizing s with
  | nil => exact h
  | cons d rest ih =>
      refine ih (Session.between_deposit h fun o heq => ?_) fun o hmem => ?_
      · exact hdeposits o (heq ▸ List.mem_cons_self)
      · exact hdeposits o (List.mem_cons_of_mem _ hmem)

theorem Session.watcher_depositAll (s : Session B) (deposits : List Deposit) :
    (s.depositAll deposits).watcher = s.watcher := by
  induction deposits generalizing s with
  | nil => rfl
  | cons d rest ih => exact ih _

/-- A poll of a view is an execution with a ledger that tells the truth about it. -/
theorem Session.runs_poll (s : Session B) (view : Chain) :
    Routine.Runs (Watcher.Truthful view) s.watcher.poll (B.holdings s.store)
      ((s.poll view).1, (s.poll view).2.watcher) (B.holdings (s.poll view).2.store) :=
  Routine.runs_run B.holdings (OutpointStore.serve_served view) s.watcher.poll s.store

/-- The sessions that polls of one view after another lead to, with the view polled last, the
highest tip so far and what the last poll returned. Scanning starts after `start`. -/
inductive Follows (settings : WatcherSettings) (start : Nat) :
    Session B → Chain → Nat → Except WatcherError PollSummary → Prop
  | first {store : B.State} {deposits : List Deposit} {view : Chain} {s : Session B}
      (hs : s = (Session.begin settings store).depositAll deposits)
      (htip : view.tip.toNat + 1 < UInt64.size)
      (hstart : start = (s.watcher.startOf (B.holdings s.store).watermark view.tip).toNat)
      (hreached : start ≤ view.tip.toNat) :
      Follows settings start (s.poll view).2 view view.tip.toNat (s.poll view).1
  | next {s : Session B} {prev : Chain} {highest : Nat} {result : Except WatcherError PollSummary}
      (hs : Follows settings start s prev highest result) {deposits : List Deposit} {view : Chain}
      (htip : view.tip.toNat + 1 < UInt64.size) (hconsistent : Consistent prev view)
      (hsame : ∀ m ≤ max start (highest - settings.depth.toNat),
        view.blocks[m]? = prev.blocks[m]?)
      (hdeposits : ∀ o, .record o ∈ deposits → ¬ SharedSpend prev view start prev.tip.toNat o) :
      Follows settings start ((s.depositAll deposits).poll view).2 view
        (max highest view.tip.toNat) ((s.depositAll deposits).poll view).1

theorem Follows.tracks {result : Except WatcherError PollSummary}
    (h : Follows settings start s view highest result) (hfull : settings.fullBlocks) :
    (∃ summary, result = .ok summary) ∧
      Tracks settings start highest view s.known view.tip.toNat s.watcher (B.holdings s.store) := by
  induction h with
  | @first store deposits view t hs htip hstart hreached =>
      have hwatcher : t.watcher = .start settings := by
        rw [hs, Session.watcher_depositAll]
        rfl
      have hnothing : ∀ o, ¬ SharedSpend view view start start o := by
        rintro o ⟨m, block, hlow, hhigh, -⟩
        omega
      have hbetween : Between view view start start (fun _ => none) t.known
          (B.holdings t.store) := by
        rw [hs]
        exact Session.between_depositAll ⟨fun o => Option.or_none.symm, fun o _ => hnothing o,
          fun o _ hne => absurd rfl hne⟩ fun o _ => hnothing o
      have hpositioned : Positioned settings start view.tip.toNat view (fun _ => none) start
          { t.watcher with
            lastHeight := some (t.watcher.startOf (B.holdings t.store).watermark view.tip) } := by
        rw [hwatcher] at hstart ⊢
        exact ⟨rfl, ⟨_, rfl, hstart.symm⟩, Nat.le_refl _, hreached, Watcher.remembered_nil,
          Nat.le_trans (Nat.le_max_left _ _) (Nat.le_add_left _ _)⟩
      have hpoll := hpositioned.poll hfull htip hbetween (fun _ _ _ _ _ _ _ _ => rfl)
        (fun _ _ => rfl) (t.runs_poll view)
      rwa [Nat.max_self] at hpoll
  | @next t prev highest result hs deposits view htip hconsistent hsame hdeposits ih =>
      obtain ⟨-, htracks⟩ := ih
      have hbetween := Session.between_depositAll htracks.between hdeposits
      have hwatcher := Session.watcher_depositAll t deposits
      generalize t.depositAll deposits = u at hbetween hwatcher
      -- the watcher goes on from the height that it remembers
      obtain ⟨height, hheight, hlast⟩ := htracks.last
      have hsame' : { u.watcher with
          lastHeight := some (u.watcher.startOf (B.holdings u.store).watermark view.tip) } =
            t.watcher := by
        rw [hwatcher, Watcher.startOf, Option.mem_def.mp hheight]
        exact congrArg (fun last => { t.watcher with lastHeight := last }) hheight.symm
      have hpositioned : Positioned settings start highest prev t.known prev.tip.toNat
          { u.watcher with
            lastHeight := some (u.watcher.startOf (B.holdings u.store).watermark view.tip) } := by
        rw [hsame']
        exact htracks.toPositioned
      exact hpositioned.poll hfull htip hbetween hconsistent hsame (u.runs_poll view)

/-- After every poll the store records exactly those of the known outpoints that no block of the
polled view above the start spends, each with its last known entry. -/
theorem entries_of_follows {result : Except WatcherError PollSummary}
    (h : Follows settings start s view highest result) (hfull : settings.fullBlocks) :
    (∃ summary, result = .ok summary) ∧ ∀ o, (B.holdings s.store).entries o =
      if view.spends start view.tip.toNat o then none else s.known o := by
  obtain ⟨hresult, htracks⟩ := h.tracks hfull
  exact ⟨hresult, htracks.entries⟩

/-! ## A reorganization -/

def numbered (k : Nat) : Outpoint := ⟨FixedBytes.replicate 32 (UInt8.ofNat k), UInt32.ofNat k⟩

/-- A view in which two blocks spend an outpoint each. -/
def firstView : Chain where
  blocks := [⟨"h0", 0, []⟩, ⟨"h1", 1, [⟨"t1", [some (numbered 1)]⟩]⟩,
    ⟨"h2", 2, [⟨"t2", [some (numbered 2)]⟩]⟩]
  outputs _ := none
  blocks_ne_nil := List.cons_ne_nil _ _
  length_le := by decide

/-- A longer branch from height one, which spends a third outpoint. -/
def secondView : Chain where
  blocks := [⟨"h0", 0, []⟩, ⟨"h1", 1, [⟨"t1", [some (numbered 1)]⟩]⟩,
    ⟨"f2", 2, [⟨"t3", [some (numbered 3)]⟩]⟩, ⟨"f3", 3, []⟩]
  outputs _ := none
  blocks_ne_nil := List.cons_ne_nil _ _
  length_le := by decide

/-- A store that has been scanned up to height zero and records two outpoints, the second with a
message. -/
def depositedStore : MemoryStore.backend.State :=
  [StoreCall.add (numbered 1), .add (numbered 2), .putPayload (numbered 2) [2],
    .setWatermark 0].foldl (fun s call => (MemoryStore.backend.perform call s).2)
    ⟨MemoryStore.empty, MemoryStore.sound_empty⟩

def firstSession : Session MemoryStore.backend :=
  ((Session.begin ⟨6, true⟩ depositedStore).poll firstView).2

/-- The third outpoint and its message, recorded between the polls. -/
def betweenViews : List Deposit := [.record (numbered 3), .cache (numbered 3) [3]]

def secondSession : Session MemoryStore.backend :=
  ((firstSession.depositAll betweenViews).poll secondView).2

theorem consistent_views : Consistent firstView secondView := by
  intro n block other hblock hother hhash m hm
  match n with
  | 0 =>
      obtain rfl : m = 0 := Nat.le_zero.mp hm
      rfl
  | 1 =>
      match m, hm with
      | 0, _ => rfl
      | 1, _ => rfl
  | 2 =>
      cases hblock
      cases hother
      exact absurd hhash (by decide)
  | n + 3 => cases hblock

theorem not_sharedSpend_views :
    ¬ SharedSpend firstView secondView 0 firstView.tip.toNat (numbered 3) := by
  rintro ⟨m, block, hlow, -, hblock, hother, hmem⟩
  match m with
  | 0 => omega
  | 1 =>
      cases hblock
      exact absurd hmem (by decide)
  | 2 =>
      cases hblock
      exact absurd (Option.some.inj hother) (by decide)
  | m + 3 => cases hblock

theorem follows_secondSession :
    Follows ⟨6, true⟩ 0 secondSession secondView (max firstView.tip.toNat secondView.tip.toNat)
      ((firstSession.depositAll betweenViews).poll secondView).1 := by
  have hbegin : Session.begin ⟨6, true⟩ depositedStore =
      (Session.begin ⟨6, true⟩ depositedStore).depositAll [] := rfl
  have hfirst : Follows ⟨6, true⟩ 0 firstSession firstView firstView.tip.toNat
      ((Session.begin ⟨6, true⟩ depositedStore).poll firstView).1 :=
    Follows.first hbegin (by decide) rfl (by decide +kernel)
  refine Follows.next hfirst (by decide) consistent_views (fun m hm => ?_) fun o ho => ?_
  · obtain rfl : m = 0 := Nat.le_zero.mp hm
    rfl
  · obtain rfl : o = numbered 3 := by simpa [betweenViews] using ho
    exact not_sharedSpend_views

/-- The outpoint of the orphaned block is recorded again with its message, that of the shared block
is not, and the third is gone. -/
theorem entries_of_follows_views :
    (∃ summary, ((firstSession.depositAll betweenViews).poll secondView).1 = .ok summary) ∧
      (∀ o, (MemoryStore.backend.holdings secondSession.store).entries o =
        if secondView.spends 0 secondView.tip.toNat o then none else secondSession.known o) ∧
      (MemoryStore.backend.holdings secondSession.store).entries (numbered 1) = none ∧
      (MemoryStore.backend.holdings secondSession.store).entries (numbered 2) = some (some [2]) ∧
      (MemoryStore.backend.holdings secondSession.store).entries (numbered 3) = none := by
  obtain ⟨hresult, hentries⟩ := entries_of_follows follows_secondSession rfl
  exact ⟨hresult, hentries, by decide +kernel, by decide +kernel, by decide +kernel⟩

end ChatRelay
