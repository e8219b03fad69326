import ChatRelay.Proofs.Watcher.Rechecking
import ChatRelay.Proofs.Watcher.Scanning

/-!
# What one poll removes

Scanning removes what the blocks behind the last height spend, block by block. Looking up removes
what is no longer unspent, all at once. As long as every recorded outpoint was unspent at the last
height these are the same outpoints, so that a poll in either mode is described by one law: what it
leaves of the store, how many outpoints it has removed, and the height it has come to.
-/

namespace ChatRelay

open Routine (Runs)

variable {c d : Chain} {low middle high n : Nat} {o : Outpoint} {held after final : Holdings}
  {count more : Nat}

/-! ## Outpoints at a height -/

/-- An outpoint that names an output which no block up to a height spends. -/
def Chain.UnspentAt (c : Chain) (height : UInt64) (o : Outpoint) : Prop :=
  (c.outputs o).isSome ∧ ∀ m block, m ≤ height.toNat → c.blocks[m]? = some block →
    o ∉ block.spentOutpoints

namespace Chain

/-- What is unspent at the tip is unspent at every height. -/
theorem unspentAt_of_unspent (h : c.unspent o) (height : UInt64) : c.UnspentAt height o := by
  obtain ⟨hcreated, hunspent⟩ := Bool.and_eq_true_iff.mp h
  refine ⟨hcreated, fun m block _ hblock hspent => ?_⟩
  have hany : c.spent o := spent_iff.mpr ⟨block, List.mem_of_getElem? hblock, hspent⟩
  rw [hany] at hunspent
  cases hunspent

/-- What was unspent at a height is unspent at the tip if no block between the two spends it. -/
theorem UnspentAt.unspent_iff {height : UInt64} (h : c.UnspentAt height o) :
    c.unspent o ↔ ¬ c.spends height.toNat c.tip.toNat o := by
  have hspent : c.spent o ↔ c.spends height.toNat c.tip.toNat o := by
    rw [spent_iff, spends_iff]
    constructor
    · rintro ⟨block, hblock, hmem⟩
      obtain ⟨m, hm⟩ := List.mem_iff_getElem?.mp hblock
      have hlow : height.toNat < m := Nat.lt_of_not_le fun hle => h.2 m block hle hm hmem
      exact ⟨m, block, hlow, le_tip_of_block hm, hm, hmem⟩
    · rintro ⟨m, block, -, -, hm, hmem⟩
      exact ⟨block, List.mem_of_getElem? hm, hmem⟩
  rw [unspent, h.1, Bool.true_and, Bool.not_eq_true', ← Bool.not_eq_true, hspent]

theorem UnspentAt.grow {height : UInt64} (h : c.UnspentAt height o) (hgrows : c.Grows d)
    (hheight : height ≤ c.tip) : d.UnspentAt height o := by
  refine ⟨hgrows.created h.1, fun m block hm hblock => h.2 m block hm ?_⟩
  rwa [hgrows.getElem?_eq (Nat.le_trans hm (UInt64.le_iff_toNat_le.mp hheight))]

end Chain

/-! ## Removing what blocks spend -/

/-- Of what was held, that remains which no block above one height and up to another spends, and so
many recorded outpoints are gone. -/
structure Sweeps (c : Chain) (low high : Nat) (held : Holdings) (count : Nat) (after : Holdings) :
    Prop where
  entries : ∀ o, after.entries o = if c.spends low high o then none else held.entries o
  gone : ∃ gone : List Outpoint, gone.Nodup ∧
    (∀ o, o ∈ gone ↔ held.recorded o ∧ c.spends low high o) ∧ gone.length = count

/-- What is taken is listed without repetition. -/
theorem Holdings.nodup_taken (held : Holdings) (outpoints : List Outpoint) :
    ((held.taken outpoints).map (·.outpoint)).Nodup := by
  induction outpoints generalizing held with
  | nil => exact List.nodup_nil
  | cons first rest ih =>
      unfold taken
      split
      next => exact ih held
      next entry hentry =>
        rw [List.map_cons, List.nodup_cons]
        refine ⟨fun hmem => ?_, ih _⟩
        obtain ⟨pruned, hpruned, heq⟩ := List.mem_map.mp hmem
        have hkept := (mem_taken.mp hpruned).2
        simp only at heq
        simp [heq] at hkept

theorem Holdings.mem_map_taken {outpoints : List Outpoint} :
    o ∈ (held.taken outpoints).map (·.outpoint) ↔ held.recorded o ∧ o ∈ outpoints := by
  rw [List.mem_map, Holdings.recorded, Option.isSome_iff_exists]
  constructor
  · rintro ⟨pruned, hpruned, rfl⟩
    obtain ⟨hmem, hentry⟩ := mem_taken.mp hpruned
    exact ⟨⟨_, hentry⟩, hmem⟩
  · rintro ⟨⟨entry, hentry⟩, hmem⟩
    exact ⟨⟨o, entry⟩, mem_taken.mpr ⟨hmem, hentry⟩, rfl⟩

namespace Sweeps

theorem refl (c : Chain) (n : Nat) (held : Holdings) : Sweeps c n n held 0 held where
  entries o := by simp [Chain.spends_of_le]
  gone := ⟨[], List.nodup_nil, by simp [Chain.spends_of_le], rfl⟩

/-- Discarding outpoints sweeps if they are those recorded ones that the blocks spend. -/
theorem of_discard {outpoints : List Outpoint}
    (h : ∀ o, held.recorded o → (o ∈ outpoints ↔ c.spends low high o))
    (hafter : after.entries = (held.discard outpoints).entries) :
    Sweeps c low high held (held.taken outpoints).length after where
  entries o := by
    rw [hafter, Holdings.entries_discard]
    by_cases hrecorded : held.recorded o
    · simp only [h o hrecorded]
    · have hnone : held.entries o = none := by simpa [Holdings.recorded] using hrecorded
      simp [hnone]
  gone := by
    refine ⟨_, held.nodup_taken outpoints, fun o => ?_, List.length_map _⟩
    rw [Holdings.mem_map_taken]
    exact and_congr_right (h o)

theorem recorded_iff (h : Sweeps c low high held count after) :
    after.recorded o ↔ held.recorded o ∧ ¬ c.spends low high o := by
  rw [Holdings.recorded, h.entries]
  by_cases hspent : c.spends low high o <;> simp [hspent, Holdings.recorded]

/-- Two sweeps of adjoining blocks are one of all of them. -/
theorem trans (h : Sweeps c low middle held count after) (h' : Sweeps c middle high after more final)
    (hlow : low ≤ middle) (hhigh : middle ≤ high) :
    Sweeps c low high held (count + more) final where
  entries o := by
    rw [h'.entries, h.entries]
    have hsplit := Chain.spends_split (c := c) (o := o) hlow hhigh
    by_cases hfirst : c.spends low middle o <;> by_cases hsecond : c.spends middle high o <;>
      simp [hfirst, hsecond, hsplit]
  gone := by
    obtain ⟨first, hfirst, hmem, rfl⟩ := h.gone
    obtain ⟨second, hsecond, hmem', rfl⟩ := h'.gone
    refine ⟨first ++ second, List.nodup_append.mpr ⟨hfirst, hsecond, ?_⟩, fun o => ?_,
      List.length_append⟩
    · rintro o ho _ ho' rfl
      exact (h.recorded_iff.mp ((hmem' o).mp ho').1).2 ((hmem o).mp ho).2
    · rw [List.mem_append, hmem, hmem', h.recorded_iff, Chain.spends_split hlow hhigh]
      by_cases hfirst : c.spends low middle o <;> simp [hfirst]

/-- What a sweep leaves and how much it removes is determined. -/
theorem unique {other : Holdings} (h : Sweeps c low high held count after)
    (h' : Sweeps c low high held more other) : count = more ∧ after.entries = other.entries := by
  constructor
  · obtain ⟨first, hfirst, hmem, rfl⟩ := h.gone
    obtain ⟨second, hsecond, hmem', rfl⟩ := h'.gone
    have hperm : first.Perm second := by
      apply (List.perm_ext_iff_of_nodup hfirst hsecond).mpr
      intro o
      rw [hmem, hmem']
    exact hperm.length_eq
  · funext o
    rw [h.entries, h'.entries]

end Sweeps

/-! ## Polls -/

/-- The ledger as one poll sees it: its chain, and a lookup that shows an output as unspent exactly
if it is. What is not unspent may be shown as spent or not at all. -/
structure LedgerView where
  chain : Chain
  lookup : Outpoint → Option LedgerOutput
  lookup_unspent : ∀ o, (lookup o).any (!·.spent) = chain.unspent o

def LedgerView.answer (v : LedgerView) : (call : LedgerCall) → call.Answer
  | .height => v.chain.answer .height
  | .blockHash height => v.chain.answer (.blockHash height)
  | .block height => v.chain.answer (.block height)
  | .output outpoint => .ok (v.lookup outpoint)

namespace Watcher

variable {v : LedgerView} {w : Watcher} {last : UInt64}

/-- Serving with the ledger as it is seen and with no failures. -/
abbrev Seeing (v : LedgerView) : (request : Request) → Holdings → request.Answer → Holdings → Prop :=
  Holdings.Serves (fun _ => False) fun call answer => answer = v.answer call

/-- How a poll ends that began behind a height, in either mode: it has swept the blocks up to the
tip and come to the tip, and if there were such blocks the store has been told. -/
structure Swept (c : Chain) (last : UInt64) (held : Holdings) (outcome : Outcome PollSummary)
    (after : Holdings) : Prop where
  summary : ∃ summary, outcome.1 = .ok summary ∧
    Sweeps c last.toNat c.tip.toNat held summary.pruned after
  reached : outcome.2.lastHeight = some c.tip
  watermark : after.watermark = if last < c.tip then some c.tip else held.watermark

/-- Scanning up to the tip sweeps the blocks up to it. -/
theorem sweeps_scan (htip : v.chain.tip.toNat + 1 < UInt64.size) (hrecent : w.RecentOn v.chain)
    {before : Nat × Nat} {height : UInt64} {steps : Nat} (hheight : height.toNat = n + 1)
    (hsteps : n + steps = v.chain.tip.toNat) {outcome : Outcome (Nat × Nat)}
    (hrun : Runs (Seeing v) (w.scan before height steps) held outcome after) :
    ∃ count, outcome.1 = .ok (before.1 + steps, before.2 + count) ∧
      Sweeps v.chain n v.chain.tip.toNat held count after ∧
      outcome.2.settings = w.settings ∧ outcome.2.RecentOn v.chain ∧
      (steps = 0 → outcome.2.lastHeight = w.lastHeight ∧ after.watermark = held.watermark) ∧
      (0 < steps → outcome.2.lastHeight = some v.chain.tip ∧
        after.watermark = some v.chain.tip) := by
  induction steps generalizing n w held before height with
  | zero =>
      obtain ⟨rfl, rfl⟩ := Routine.runs_pure.mp hrun
      rw [← hsteps]
      exact ⟨0, rfl, .refl _ _ _, rfl, hrecent, fun _ => ⟨rfl, rfl⟩,
        fun h => absurd h (Nat.lt_irrefl 0)⟩
  | succ steps ih =>
      obtain ⟨block, hblock⟩ := v.chain.exists_block (show n + 1 ≤ v.chain.tip.toNat by omega)
      have hanswer : v.answer (.block height) = .ok block := by
        simp only [LedgerView.answer, Chain.answer, hheight, hblock]
      have hscan := runs_scan_block hanswer hrun
      have hsucc : (height + 1).toNat = n + 1 + 1 := by
        rw [toNat_succ (by omega), hheight]
      have hfirst : Sweeps v.chain n (n + 1) held (held.taken block.spentOutpoints).length
          { held.discard block.spentOutpoints with watermark := some height } := by
        refine .of_discard (fun o _ => ?_) rfl
        rw [Chain.spends_succ (Nat.le_refl n) hblock, Chain.spends_of_le (Nat.le_refl n)]
        simp
      obtain ⟨count, hresult, hrest, hsettings, hrecent', hnone, hsome⟩ :=
        ih (hrecent.remember (hheight ▸ hblock) _ _) hsucc (by omega) hscan
      refine ⟨_, ?_, hfirst.trans hrest (Nat.le_succ n) (by omega), hsettings, hrecent',
        fun h => absurd h (Nat.succ_ne_zero steps), fun _ => ?_⟩
      · rw [hresult]
        congr 2 <;> omega
      · rcases Nat.eq_zero_or_pos steps with rfl | hpos
        · obtain ⟨hlast, hwatermark⟩ := hnone rfl
          have htop : height = v.chain.tip := UInt64.toNat_inj.mp (by omega)
          rw [hlast, hwatermark]
          exact ⟨congrArg some htop, congrArg some htop⟩
        · exact hsome hpos

/-- Looking up finds what is not unspent. -/
theorem runs_lookUp {before outpoints : List Outpoint}
    {result : Except LedgerError (List Outpoint)}
    (hrun : Runs (Seeing v) (lookUp before outpoints) held result after) :
    result = .ok (before.reverse ++ outpoints.filter (!v.chain.unspent ·)) ∧ after = held := by
  have hgone (o : Outpoint) : gone v.answer o = !v.chain.unspent o :=
    congrArg (!·) (v.lookup_unspent o)
  have hknown : ∀ o ∈ outpoints, known v.answer o := fun _ _ => rfl
  obtain ⟨rfl, hresult⟩ := runs_lookUp_consulting hrun
  rw [if_pos hknown, List.filter_congr fun o _ => hgone o] at hresult
  exact ⟨hresult, rfl⟩

/-- Looking up everything that is recorded sweeps the blocks up to the tip. -/
theorem sweeps_recheck (hunspent : ∀ o, held.recorded o → v.chain.UnspentAt last o)
    {result : Except WatcherError Nat} (hrun : Runs (Seeing v) recheck held result after) :
    ∃ count, result = .ok count ∧ after.watermark = held.watermark ∧
      Sweeps v.chain last.toNat v.chain.tip.toNat held count after := by
  obtain ⟨answer, middle, hserved, hlooks⟩ := Routine.runs_ask_bind.mp hrun
  obtain ⟨⟨listed, rfl, -, hlisted⟩, rfl⟩ := hserved.resolve_right fun h => h.1
  obtain ⟨found, middle', hlookUp, hprunes⟩ := Routine.runs_bind.mp hlooks
  obtain ⟨rfl, rfl⟩ := runs_lookUp hlookUp
  obtain ⟨answer, middle', hserved, hdone⟩ := Routine.runs_ask_bind.mp hprunes
  obtain ⟨rfl, rfl⟩ := hserved.resolve_right fun h => h.1
  obtain ⟨rfl, rfl⟩ := Routine.runs_pure.mp hdone
  refine ⟨_, rfl, rfl, .of_discard (fun o hrecorded => ?_) rfl⟩
  rw [List.reverse_nil, List.nil_append, List.mem_filter, hlisted, Bool.not_eq_true',
    ← Bool.not_eq_true, (hunspent o hrecorded).unspent_iff, Decidable.not_not]
  exact and_iff_right hrecorded

/-- A poll with full blocks sweeps. -/
theorem swept_pollFull (htip : v.chain.tip.toNat + 1 < UInt64.size)
    (hrecent : w.RecentOn v.chain) (hlast : w.lastHeight = some last) (hle : last ≤ v.chain.tip)
    {outcome : Outcome PollSummary}
    (hrun : Runs (Seeing v) (w.pollFull last v.chain.tip) held outcome after) :
    Swept v.chain last held outcome after ∧ outcome.2.settings = w.settings ∧
      outcome.2.RecentOn v.chain := by
  have hlastle := UInt64.le_iff_toNat_le.mp hle
  obtain ⟨undone, middle, hreconciles, hend⟩ := runs_pollFull hrun
  obtain ⟨rfl, rfl⟩ := hrecent.settled hreconciles fun _ => rfl
  rcases hend with ⟨cause, herror, -⟩ | ⟨restored, scanned, -, hscan, rfl⟩
  · cases herror
  rw [hlast, Option.getD_some, scanCount_eq htip] at hscan
  obtain ⟨count, hresult, hsweeps, hsettings, hrecent', hnone, hsome⟩ :=
    sweeps_scan htip hrecent (toNat_heightAfter (by omega)) (by omega) hscan
  refine ⟨⟨⟨_, congrArg (Except.map _) hresult, ?_⟩, ?_, ?_⟩, hsettings, hrecent'⟩
  · simpa using hsweeps
  · rcases Nat.eq_or_lt_of_le hlastle with heq | hlt
    · obtain rfl := UInt64.toNat_inj.mp heq
      rw [← hlast]
      exact (hnone (by omega)).1
    · exact (hsome (by omega)).1
  · split
    next hlt =>
      have hlt := UInt64.lt_iff_toNat_lt.mp hlt
      exact (hsome (by omega)).2
    next hge =>
      have hge := UInt64.le_iff_toNat_le.mp (UInt64.not_lt.mp hge)
      exact (hnone (by omega)).2

/-- A poll with headers only sweeps what was unspent at the last height. -/
theorem swept_pollHeaders (hlast : w.lastHeight = some last) (hle : last ≤ v.chain.tip)
    (hunspent : ∀ o, held.recorded o → v.chain.UnspentAt last o)
    {outcome : Outcome PollSummary}
    (hrun : Runs (Seeing v) (w.pollHeaders last v.chain.tip) held outcome after) :
    Swept v.chain last held outcome after ∧ outcome.2.settings = w.settings := by
  unfold pollHeaders at hrun
  split at hrun
  next hgrown =>
    obtain ⟨result, middle, hrecheck, hrest⟩ := Routine.runs_bind.mp hrun
    obtain ⟨count, rfl, hwatermark, hsweeps⟩ := sweeps_recheck hunspent hrecheck
    obtain ⟨advanced, middle', hadvance, hdone⟩ := Routine.runs_bind.mp hrest
    rcases runs_advance hadvance with ⟨rfl, rfl⟩ | ⟨-, hfails, -⟩
    · obtain ⟨rfl, rfl⟩ := Routine.runs_pure.mp hdone
      exact ⟨⟨⟨_, rfl, hsweeps.entries, hsweeps.gone⟩, rfl, (if_pos hgrown).symm⟩, rfl⟩
    · exact hfails.elim
  next hstill =>
    obtain ⟨rfl, rfl⟩ := Routine.runs_pure.mp hrun
    have hsame : last = v.chain.tip := UInt64.toNat_inj.mp (Nat.le_antisymm
      (UInt64.le_iff_toNat_le.mp hle) (UInt64.le_iff_toNat_le.mp (UInt64.not_lt.mp hstill)))
    subst hsame
    exact ⟨⟨⟨_, rfl, .refl _ _ _⟩, hlast, (if_neg hstill).symm⟩, rfl⟩

/-- In either mode a poll sweeps the blocks behind the height that it starts from. -/
theorem swept_poll (htip : v.chain.tip.toNat + 1 < UInt64.size)
    (hrecent : w.settings.fullBlocks → w.RecentOn v.chain)
    (hlast : w.startOf held.watermark v.chain.tip = last) (hle : last ≤ v.chain.tip)
    (hunspent : ∀ o, held.recorded o → v.chain.UnspentAt last o) {outcome : Outcome PollSummary}
    (hrun : Runs (Seeing v) w.poll held outcome after) :
    Swept v.chain last held outcome after ∧ outcome.2.settings = w.settings ∧
      (w.settings.fullBlocks → outcome.2.RecentOn v.chain) := by
  rcases runs_poll hrun with ⟨cause, hanswer, -⟩ | ⟨tip, hanswer, hstart⟩
  · cases hanswer
  obtain rfl : tip = v.chain.tip := Except.ok.inj hanswer
  rcases hstart with ⟨cause, -, hfails, -⟩ | ⟨begun, rfl, hpoll⟩
  · exact hfails.elim
  rw [hlast] at hpoll
  split at hpoll
  next hfull =>
    have hbegun : RecentOn v.chain { w with lastHeight := some last } := hrecent hfull
    obtain ⟨hswept, hsettings, hrecent'⟩ := swept_pollFull htip hbegun rfl hle hpoll
    exact ⟨hswept, hsettings, fun _ => hrecent'⟩
  next hheaders =>
    obtain ⟨hswept, hsettings⟩ :=
      swept_pollHeaders (w := { w with lastHeight := some last }) rfl hle hunspent hpoll
    exact ⟨hswept, hsettings, fun hfull => absurd hfull hheaders⟩

end Watcher

end ChatRelay
