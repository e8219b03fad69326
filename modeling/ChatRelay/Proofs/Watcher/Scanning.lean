import ChatRelay.Proofs.Watcher.Records

/-!
# Scanning a chain that grows

A poll scans block after block and stops at the first that cannot be had, and the next poll goes on
from there. While the chain only grows, nothing that was scanned is ever undone. So a watcher that
began at one height and has come to another has removed from the store just what the blocks between
them spend, and the store remembers the second height as soon as there are such blocks.
-/

namespace ChatRelay

open Routine (Runs)

namespace Chain

variable {c d : Chain} {low middle high : Nat} {o : Outpoint}

theorem spends_of_le (h : high ≤ low) : c.spends low high o = false := by
  rw [Bool.eq_false_iff]
  intro hspent
  obtain ⟨n, block, hlow, hhigh, -⟩ := spends_iff.mp hspent
  omega

theorem spends_split (hlow : low ≤ middle) (hhigh : middle ≤ high) :
    c.spends low high o ↔ c.spends low middle o ∨ c.spends middle high o := by
  simp only [spends_iff]
  constructor
  · rintro ⟨n, block, hlow, hhigh, hblock, hmem⟩
    rcases Nat.lt_or_ge middle n with hn | hn
    · exact .inr ⟨n, block, hn, hhigh, hblock, hmem⟩
    · exact .inl ⟨n, block, hlow, hn, hblock, hmem⟩
  · rintro (⟨n, block, hn, hn', hblock, hmem⟩ | ⟨n, block, hn, hn', hblock, hmem⟩)
    · exact ⟨n, block, hn, Nat.le_trans hn' hhigh, hblock, hmem⟩
    · exact ⟨n, block, Nat.lt_of_le_of_lt hlow hn, hn', hblock, hmem⟩

/-- Nothing above the tip spends anything. -/
theorem spends_above (h : c.tip.toNat ≤ high) :
    c.spends low high o = c.spends low c.tip.toNat o := by
  rw [Bool.eq_iff_iff]
  refine ⟨fun hspent => ?_, spends_mono h⟩
  obtain ⟨n, block, hlow, -, hblock, hmem⟩ := spends_iff.mp hspent
  exact spends_iff.mpr ⟨n, block, hlow, le_tip_of_block hblock, hblock, hmem⟩

theorem Grows.getElem?_eq (h : c.Grows d) {n : Nat} (hn : n ≤ c.tip.toNat) :
    c.blocks[n]? = d.blocks[n]? := by
  obtain ⟨block, hblock⟩ := c.exists_block hn
  rw [hblock, h.getElem? hblock]

theorem Grows.tip_le (h : c.Grows d) : c.tip ≤ d.tip := by
  obtain ⟨block, hblock⟩ := c.exists_block (Nat.le_refl _)
  exact UInt64.le_iff_toNat_le.mpr (le_tip_of_block (h.getElem? hblock))

end Chain

/-! ## Rounds -/

/-- One poll's view of the ledger: the chain, and the blocks that cannot be had. -/
structure Round where
  chain : Chain
  missing : UInt64 → Option LedgerError

namespace Round

def answer (r : Round) : (call : LedgerCall) → call.Answer
  | .height => r.chain.answer .height
  | .blockHash height => r.chain.answer (.blockHash height)
  | .block height =>
    match r.missing height with
    | some cause => .error cause
    | none => r.chain.answer (.block height)
  | .output outpoint => r.chain.answer (.output outpoint)

theorem block_of_ok {r : Round} {height : UInt64} {block : LedgerBlock}
    (h : .ok block = r.answer (.block height)) :
    r.missing height = none ∧ r.chain.blocks[height.toNat]? = some block := by
  simp only [answer] at h
  split at h
  next => cases h
  next hmissing => exact ⟨hmissing, Chain.Answers.block (.inr h)⟩

theorem missing_of_error {r : Round} {height : UInt64} {cause : LedgerError}
    (h : .error cause = r.answer (.block height)) (hheight : height.toNat ≤ r.chain.tip.toNat) :
    r.missing height = some cause := by
  simp only [answer] at h
  split at h
  next other hmissing =>
    cases h
    exact hmissing
  next =>
    obtain ⟨block, hblock⟩ := r.chain.exists_block hheight
    simp [Chain.answer, hblock] at h

/-- How far scanning comes from a height within a number of blocks. -/
def reach (r : Round) : Nat → Nat → Nat
  | 0, n => n
  | count + 1, n => if (r.missing (UInt64.ofNat (n + 1))).isSome then n else r.reach count (n + 1)

/-- How far scanning comes from a height. -/
def front (r : Round) (n : Nat) : Nat := r.reach (r.chain.tip.toNat - n) n

variable {r : Round}

theorem le_reach (count n : Nat) : n ≤ r.reach count n := by
  induction count generalizing n with
  | zero => exact Nat.le_refl n
  | succ count ih =>
      unfold reach
      split
      · exact Nat.le_refl n
      · exact Nat.le_of_succ_le (ih (n + 1))

/-- Whoever starts higher comes at least as far. -/
theorem front_mono {n m : Nat} (h : n ≤ m) : r.front n ≤ r.front m := by
  unfold front
  generalize hcount : r.chain.tip.toNat - n = count
  induction count generalizing n with
  | zero => exact Nat.le_trans h (le_reach _ _)
  | succ count ih =>
      rcases Nat.eq_or_lt_of_le h with rfl | hlt
      · exact Nat.le_of_eq (by rw [hcount])
      · simp only [reach]
        split
        · exact Nat.le_trans h (le_reach _ _)
        · exact ih hlt (by omega)

/-- How far a number of rounds come from a height. -/
def fronts (rounds : List Round) (n : Nat) : Nat := rounds.foldl (fun n r => r.front n) n

theorem fronts_mono {rounds : List Round} {n m : Nat} (h : n ≤ m) :
    fronts rounds n ≤ fronts rounds m := by
  induction rounds generalizing n m with
  | nil => exact h
  | cons r rest ih => exact ih (front_mono h)

/-- The chain that is seen last. -/
def latest (c : Chain) (rounds : List Round) : Chain := rounds.foldl (fun _ r => r.chain) c

end Round

namespace Watcher

/-! ## Scanning a chain that grows -/

/-- The height behind which a watcher scans that has come to a height: that height itself, unless it
is the highest there is, which is scanned again and again. -/
def floor (height : UInt64) : Nat := min height.toNat (UInt64.size - 2)

theorem toNat_heightAfter_eq (height : UInt64) :
    (heightAfter height).toNat = floor height + 1 := by
  have hlt := height.toNat_lt_size
  have hsize : UInt64.size = 18446744073709551616 := rfl
  unfold floor
  by_cases hmax : height.toNat + 1 = UInt64.size
  · rw [heightAfter, if_pos hmax]
    omega
  · rw [toNat_heightAfter (by omega)]
    omega

theorem floor_mono {low high : UInt64} (h : low ≤ high) : floor low ≤ floor high := by
  have hle := UInt64.le_iff_toNat_le.mp h
  unfold floor
  omega

variable {settings : WatcherSettings} {begun : UInt64} {n : Nat} {c d : Chain} {r : Round}
  {known : Outpoint → Option (Option Bytes)} {w : Watcher} {held after : Holdings}

/-- The remembered blocks are on a chain. -/
def RecentOn (c : Chain) (w : Watcher) : Prop :=
  ∀ scanned ∈ w.recent, ∃ block,
    c.blocks[scanned.height.toNat]? = some block ∧ block.hash = scanned.hash

namespace RecentOn

theorem grow (h : w.RecentOn c) (hgrows : c.Grows d) : w.RecentOn d := by
  intro scanned hscanned
  obtain ⟨block, hblock, hhash⟩ := h scanned hscanned
  exact ⟨block, hgrows.getElem? hblock, hhash⟩

theorem remember (h : w.RecentOn c) {height : UInt64} {block : LedgerBlock}
    (hblock : c.blocks[height.toNat]? = some block) (pruned : List Pruned)
    (last : Option UInt64) :
    RecentOn c { w.remember ⟨height, block.hash, pruned⟩ with lastHeight := last } := by
  intro scanned hscanned
  rcases List.mem_cons.mp (List.mem_of_mem_take hscanned) with rfl | hold
  · exact ⟨block, hblock, rfl⟩
  · exact h scanned hold

/-- Where the ledger shows the hashes of that chain, nothing is undone. -/
theorem settled (h : w.RecentOn c) {ledger : (call : LedgerCall) → call.Answer}
    {outcome : Outcome Nat}
    (hreconciles : Reconciles (fun _ => False) (fun call answer => answer = ledger call) w c.tip
      held outcome after)
    (hledger : ∀ height, ledger (.blockHash height) = c.answer (.blockHash height)) :
    outcome = (.ok 0, w) ∧ after = held := by
  have hkept : ∀ scanned ∈ w.recent,
      ledger (.blockHash scanned.height) = .ok scanned.hash ∧ scanned.height ≤ c.tip := by
    intro scanned hscanned
    obtain ⟨block, hblock, hhash⟩ := h scanned hscanned
    refine ⟨by simp [hledger, Chain.answer, hblock, hhash], ?_⟩
    exact UInt64.le_iff_toNat_le.mpr (Chain.le_tip_of_block hblock)
  cases hreconciles with
  | settled hchain => exact ⟨rfl, rfl⟩
  | @unread popped left cause hsplit hunread =>
      obtain ⟨scanned, hhead, -, herror⟩ := hunread
      have hmem : scanned ∈ w.recent :=
        hsplit ▸ List.mem_append_right _ (List.mem_of_mem_head? hhead)
      cases herror.trans (hkept scanned hmem).1
  | unrestored hsplit hfails =>
      obtain ⟨p, -, hfails | ⟨payload, -, hfails⟩⟩ := hfails
      · exact hfails.elim
      · exact hfails.elim
  | unmarked hsplit hfails => exact hfails.elim
  | @undone newer left oldest count hsplit hpopped hchain =>
      have hmem : oldest ∈ w.recent :=
        hsplit ▸ List.mem_append_right _ List.mem_cons_self
      rcases hpopped oldest (by simp) with habove | ⟨hash, hshown, hother⟩
      · exact absurd (hkept oldest hmem).2 (UInt64.not_le.mpr habove)
      · exact absurd (Except.ok.inj (hshown.trans (hkept oldest hmem).1)) hother

end RecentOn

/-- Serving with a ledger that tells the truth about a chain, apart from some of its blocks, and
with no other failures. -/
abbrev Partly (r : Round) : (request : Request) → Holdings → request.Answer → Holdings → Prop :=
  Holdings.Serves (fun _ => False) fun call answer => answer = r.answer call

/-- A watcher that began at one height and has scanned up to another: the store records what the
blocks between them do not spend, and has learnt of the second height if there are such blocks. -/
structure Scanned (settings : WatcherSettings) (c : Chain)
    (known : Outpoint → Option (Option Bytes)) (begun : UInt64) (n : Nat) (w : Watcher)
    (held : Holdings) : Prop where
  configured : w.settings = settings
  last : ∃ height ∈ w.lastHeight, height.toNat = max n begun.toNat
  low : floor begun ≤ n
  high : n = floor begun ∨ n ≤ c.tip.toNat
  recent : ∀ scanned ∈ w.recent, ∃ block,
    c.blocks[scanned.height.toNat]? = some block ∧ block.hash = scanned.hash
  entries : ∀ o, held.entries o = if c.spends (floor begun) n o then none else known o
  marked : ∀ height ∈ held.watermark, w.lastHeight = some height
  unmarked : held.watermark = none → n = floor begun

theorem scanned_start (c : Chain) (held : Holdings) (settings : WatcherSettings) (tip : UInt64) :
    let begun := (start settings).startOf held.watermark tip
    Scanned settings c held.entries begun (floor begun)
      { start settings with lastHeight := some begun } held where
  configured := rfl
  last := ⟨_, rfl, by unfold floor; omega⟩
  low := Nat.le_refl _
  high := .inl rfl
  recent := nofun
  entries o := by simp [Chain.spends_of_le]
  marked height hheight := by simp [startOf, start, Option.mem_def.mp hheight]
  unmarked _ := rfl

/-- What has been scanned of a chain has been scanned of all that it grows into. -/
theorem Scanned.grow (h : Scanned settings c known begun n w held) (hgrows : c.Grows d) :
    Scanned settings d known begun n w held where
  configured := h.configured
  last := h.last
  low := h.low
  high := h.high.imp_right fun hn =>
    Nat.le_trans hn (UInt64.le_iff_toNat_le.mp hgrows.tip_le)
  recent := RecentOn.grow h.recent hgrows
  entries o := by
    rw [h.entries]
    rcases h.high with hn | hn
    · rw [hn, Chain.spends_of_le (Nat.le_refl _), Chain.spends_of_le (Nat.le_refl _)]
    · rw [Chain.spends_congr fun m hm => hgrows.getElem?_eq (Nat.le_trans hm hn)]
  marked := h.marked
  unmarked := h.unmarked

/-- Scanning the block above, or the last one once more. -/
theorem Scanned.block (h : Scanned settings c known begun n w held) {height : UInt64}
    {block : LedgerBlock} (hblock : c.blocks[height.toNat]? = some block)
    (hnext : height.toNat = n + 1 ∨ height.toNat = n ∧ floor begun < n) :
    Scanned settings c known begun height.toNat
      { w.remember ⟨height, block.hash, held.taken block.spentOutpoints⟩ with
        lastHeight := some height }
      { held.discard block.spentOutpoints with watermark := some height } where
  configured := h.configured
  last := by
    have hlow := h.low
    have hlt := begun.toNat_lt_size
    unfold floor at hlow hnext
    exact ⟨height, rfl, by omega⟩
  low := by
    have hlow := h.low
    omega
  high := .inr (Chain.le_tip_of_block hblock)
  recent := RecentOn.remember h.recent hblock _ _
  entries o := by
    change (held.discard block.spentOutpoints).entries o = _
    rw [Holdings.entries_discard, h.entries]
    rcases hnext with hnext | ⟨hsame, habove⟩
    · rw [hnext] at hblock ⊢
      have hsucc := Chain.spends_succ (o := o) h.low hblock
      by_cases hspent : o ∈ block.spentOutpoints
      · simp [hspent, hsucc.mpr (.inr hspent)]
      · simp [hspent, hsucc]
    · rw [hsame] at hblock ⊢
      by_cases hspent : o ∈ block.spentOutpoints
      · have hall : c.spends (floor begun) n o :=
          Chain.spends_iff.mpr ⟨n, block, habove, Nat.le_refl n, hblock, hspent⟩
        simp [hall]
      · simp [hspent]
  marked other hother := hother
  unmarked := nofun

theorem Scanned.scan_one (h : Scanned settings r.chain known begun n w held) {before : Nat × Nat}
    {height : UInt64} {count : Nat} (hheight : height.toNat ≤ r.chain.tip.toNat)
    (hnext : height.toNat = n + 1 ∨ height.toNat = n ∧ floor begun < n)
    {outcome : Outcome (Nat × Nat)}
    (hrun : Runs (Partly r) (w.scan before height (count + 1)) held outcome after) :
    ((r.missing height).isSome ∧ outcome = (.ok before, w) ∧ after = held) ∨
      (r.missing height = none ∧ ∃ counts w' held',
        Scanned settings r.chain known begun height.toNat w' held' ∧
        Runs (Partly r) (w'.scan counts (height + 1) count) held' outcome after) := by
  rcases runs_scan hrun with ⟨cause, herror, rfl, rfl⟩ | ⟨block, hshown, hrest⟩
  · exact .inl ⟨by rw [Round.missing_of_error herror hheight]; rfl, rfl, rfl⟩
  obtain ⟨hmissing, hblock⟩ := Round.block_of_ok hshown
  rcases hrest with ⟨-, hfails, -⟩ | ⟨taken, onward, rfl, rfl, ⟨-, hfails, -⟩ | hscan⟩
  · exact hfails.elim
  · exact hfails.elim
  · exact .inr ⟨hmissing, _, _, _, h.block hblock hnext, hscan⟩

/-- Scanning comes as far as the blocks can be had. -/
theorem Scanned.scan (h : Scanned settings r.chain known begun n w held) {before : Nat × Nat}
    {height : UInt64} {count : Nat} (hheight : 0 < count → height.toNat = n + 1)
    (hcount : count ≤ r.chain.tip.toNat - n) {outcome : Outcome (Nat × Nat)}
    (hrun : Runs (Partly r) (w.scan before height count) held outcome after) :
    (∃ counts, outcome.1 = .ok counts) ∧
      Scanned settings r.chain known begun (r.reach count n) outcome.2 after := by
  induction count generalizing n w held before height with
  | zero =>
      obtain ⟨rfl, rfl⟩ := Routine.runs_pure.mp hrun
      exact ⟨⟨before, rfl⟩, h⟩
  | succ count ih =>
      have hnext := hheight (Nat.succ_pos count)
      have hofNat : UInt64.ofNat (n + 1) = height := by rw [← hnext, UInt64.ofNat_toNat]
      rcases h.scan_one (by omega) (.inl hnext) hrun with
        ⟨hmissing, rfl, rfl⟩ | ⟨hmissing, counts, w', held', hscanned, hscan⟩
      · rw [Round.reach, hofNat, if_pos hmissing]
        exact ⟨⟨before, rfl⟩, h⟩
      · rw [hnext] at hscanned
        rw [Round.reach, hofNat, if_neg (by simp [hmissing])]
        have htip := r.chain.tip.toNat_lt_size
        exact ih hscanned (fun hpos => by rw [toNat_succ (by omega), hnext]) (by omega) hscan

/-- Scanning from the height behind the last one comes as far as the blocks can be had. -/
theorem Scanned.scan_last (h : Scanned settings r.chain known begun n w held) {last : UInt64}
    (hlast : last.toNat = max n begun.toNat) {outcome : Outcome (Nat × Nat)}
    (hrun : Runs (Partly r)
      (w.scan (0, 0) (heightAfter last) (scanCount last r.chain.tip)) held outcome after) :
    (∃ counts, outcome.1 = .ok counts) ∧
      Scanned settings r.chain known begun (r.front n) outcome.2 after := by
  have hafter := toNat_heightAfter_eq last
  have hlow := h.low
  have hlt := begun.toNat_lt_size
  have htip := r.chain.tip.toNat_lt_size
  have hlastlt := last.toNat_lt_size
  have hcount : scanCount last r.chain.tip = r.chain.tip.toNat - floor last := by
    rw [scanCount, hafter, Nat.add_sub_add_right]
  by_cases hfloor : floor last = n
  · rw [hcount, hfloor] at hrun
    rw [hfloor] at hafter
    exact h.scan (fun _ => hafter) (Nat.le_refl _) hrun
  · -- the last height is the highest there is, has been scanned, and is scanned again
    have hsize : UInt64.size = 18446744073709551616 := rfl
    have hbegun : floor begun = min begun.toNat (UInt64.size - 2) := rfl
    have hback : floor last = min last.toNat (UInt64.size - 2) := rfl
    have hn : n = r.chain.tip.toNat := by
      have hhigh := h.high
      omega
    have hone : r.chain.tip.toNat - floor last = 0 + 1 := by omega
    have hfront : r.front n = n := by
      rw [Round.front, hn, Nat.sub_self, Round.reach]
    have hsame : (heightAfter last).toNat = n := by omega
    rw [hcount, hone] at hrun
    rw [hfront]
    rcases h.scan_one (by omega) (.inr ⟨hsame, by omega⟩) hrun with
      ⟨-, rfl, rfl⟩ | ⟨-, counts, w', held', hscanned, hscan⟩
    · exact ⟨⟨_, rfl⟩, h⟩
    · obtain ⟨rfl, rfl⟩ := Routine.runs_pure.mp hscan
      rw [hsame] at hscanned
      exact ⟨⟨counts, rfl⟩, hscanned⟩

/-- Nothing that was scanned is orphaned. -/
theorem Scanned.reconcile (h : Scanned settings r.chain known begun n w held)
    {outcome : Outcome Nat}
    (hreconciles : Reconciles (fun _ => False) (fun call answer => answer = r.answer call) w
      r.chain.tip held outcome after) : outcome = (.ok 0, w) ∧ after = held :=
  RecentOn.settled h.recent hreconciles fun _ => rfl

/-- A poll succeeds and scans as far as the blocks can be had. -/
theorem Scanned.poll
    (h : Scanned settings r.chain known begun n
      { w with lastHeight := some (w.startOf held.watermark r.chain.tip) } held)
    (hfull : settings.fullBlocks) {outcome : Outcome PollSummary}
    (hrun : Runs (Partly r) w.poll held outcome after) :
    (∃ summary, outcome.1 = .ok summary) ∧
      Scanned settings r.chain known begun (r.front n) outcome.2 after := by
  rcases runs_poll hrun with ⟨cause, hanswer, -⟩ | ⟨tip, hanswer, hstart⟩
  · cases hanswer
  obtain rfl : tip = r.chain.tip := Except.ok.inj hanswer
  rcases hstart with ⟨cause, -, hfails, -⟩ | ⟨watcher, rfl, hpoll⟩
  · exact hfails.elim
  have hfull' : w.settings.fullBlocks := by
    rw [show w.settings = settings from h.configured]
    exact hfull
  rw [if_pos hfull'] at hpoll
  obtain ⟨undone, middle, hreconciles, hend⟩ := runs_pollFull hpoll
  obtain ⟨rfl, rfl⟩ := h.reconcile hreconciles
  rcases hend with ⟨cause, herror, -⟩ | ⟨restored, scanned, -, hscan, rfl⟩
  · cases herror
  obtain ⟨last, hheight, hlast⟩ := h.last
  rw [Option.mem_def.mp hheight, Option.getD_some] at hscan
  obtain ⟨⟨counts, hcounts⟩, hscanned⟩ := h.scan_last hlast hscan
  refine ⟨⟨⟨r.chain.tip, counts.1, counts.2, restored⟩, ?_⟩, hscanned⟩
  rw [hcounts]
  rfl

end Watcher

end ChatRelay
