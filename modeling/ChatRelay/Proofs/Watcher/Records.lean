import ChatRelay.Proofs.Watcher.Parts

/-!
# Prune records

Scanning a block removes from the store what the block spends and no block before it has spent.
The records of remembered blocks say exactly that of the chain they were scanned on, with the entry
each outpoint was last known to have. So the records of some newest blocks, put back together,
undo the scan of these blocks.
-/

namespace ChatRelay

/-! ## Spends of a chain -/

namespace Chain

variable {c d : Chain} {start low high n k : Nat} {o : Outpoint} {block : LedgerBlock}

theorem spends_mono (hle : low ≤ high) (h : c.spends start low o) : c.spends start high o := by
  obtain ⟨n, block, hlow, hhigh, hblock, hspent⟩ := spends_iff.mp h
  exact spends_iff.mpr ⟨n, block, hlow, Nat.le_trans hhigh hle, hblock, hspent⟩

theorem spends_succ (hstart : start ≤ k) (hblock : c.blocks[k + 1]? = some block) :
    c.spends start (k + 1) o ↔ c.spends start k o ∨ o ∈ block.spentOutpoints := by
  constructor
  · intro h
    obtain ⟨n, found, hlow, hhigh, hfound, hspent⟩ := spends_iff.mp h
    rcases Nat.lt_or_eq_of_le hhigh with hlt | rfl
    · exact .inl (spends_iff.mpr ⟨n, found, hlow, Nat.le_of_lt_succ hlt, hfound, hspent⟩)
    · rw [hblock] at hfound
      exact .inr ((Option.some.inj hfound) ▸ hspent)
  · rintro (h | hspent)
    · exact spends_mono (Nat.le_succ k) h
    · exact spends_iff.mpr ⟨k + 1, block, Nat.lt_succ_of_le hstart, Nat.le_refl _, hblock, hspent⟩

/-- Chains with the same blocks up to a height spend the same up to it. -/
theorem spends_congr (h : ∀ m ≤ n, c.blocks[m]? = d.blocks[m]?) :
    c.spends start n o = d.spends start n o := by
  rw [Bool.eq_iff_iff, spends_iff, spends_iff]
  constructor
  · rintro ⟨m, block, hlow, hhigh, hblock, hspent⟩
    exact ⟨m, block, hlow, hhigh, (h m hhigh).symm.trans hblock, hspent⟩
  · rintro ⟨m, block, hlow, hhigh, hblock, hspent⟩
    exact ⟨m, block, hlow, hhigh, (h m hhigh).trans hblock, hspent⟩

end Chain

/-! ## Records of a chain -/

namespace Watcher

variable {c d : Chain} {start : Nat} {known : Outpoint → Option (Option Bytes)}

/-- The record of the block that follows a height: what it spends of the known outpoints that no
block before it has spent. -/
structure RecordOf (c : Chain) (start : Nat) (known : Outpoint → Option (Option Bytes)) (k : Nat)
    (scanned : ScannedBlock) (block : LedgerBlock) : Prop where
  above : start ≤ k
  height : scanned.height.toNat = k + 1
  atHeight : c.blocks[k + 1]? = some block
  hash : scanned.hash = block.hash
  pruned : ∀ p, p ∈ scanned.pruned ↔
    p.outpoint ∈ block.spentOutpoints ∧ known p.outpoint = some p.payload ∧
      ¬ c.spends start k p.outpoint

/-- Blocks of a chain from a height downwards, with their records. -/
def Remembered (c : Chain) (start : Nat) (known : Outpoint → Option (Option Bytes)) :
    Nat → List ScannedBlock → Prop
  | _, [] => True
  | 0, _ :: _ => False
  | k + 1, scanned :: rest =>
    (∃ block, RecordOf c start known k scanned block) ∧ Remembered c start known k rest

@[simp] theorem remembered_nil {n : Nat} : Remembered c start known n [] := by
  cases n <;> trivial

theorem Remembered.take {n : Nat} {recent : List ScannedBlock}
    (h : Remembered c start known n recent) (count : Nat) :
    Remembered c start known n (recent.take count) := by
  induction recent generalizing n count with
  | nil =>
      rw [List.take_nil]
      exact remembered_nil
  | cons scanned rest ih =>
      cases count with
      | zero => exact remembered_nil
      | succ count =>
          cases n with
          | zero => exact h.elim
          | succ k => exact ⟨h.1, ih h.2 count⟩

/-- Older blocks are remembered from where the newer ones end. -/
theorem Remembered.older {n : Nat} {newer older : List ScannedBlock}
    (h : Remembered c start known n (newer ++ older)) :
    newer.length ≤ n ∧ Remembered c start known (n - newer.length) older := by
  induction newer generalizing n with
  | nil => exact ⟨Nat.zero_le _, h⟩
  | cons scanned rest ih =>
      cases n with
      | zero => exact h.elim
      | succ k =>
          obtain ⟨hle, hrest⟩ := ih h.2
          rw [List.length_cons, Nat.add_sub_add_right]
          exact ⟨Nat.succ_le_succ hle, hrest⟩

/-- Records say the same of another chain with the same blocks, and of other entries of outpoints
that these blocks do not spend. -/
theorem Remembered.change {n : Nat} {recent : List ScannedBlock}
    {other : Outpoint → Option (Option Bytes)} (h : Remembered c start known n recent)
    (hblocks : ∀ m ≤ n, c.blocks[m]? = d.blocks[m]?)
    (hknown : ∀ o, c.spends start n o → known o = other o) :
    Remembered d start other n recent := by
  induction recent generalizing n with
  | nil => exact remembered_nil
  | cons scanned rest ih =>
      cases n with
      | zero => exact h.elim
      | succ k =>
          obtain ⟨⟨block, hrecord⟩, hrest⟩ := h
          have hbelow : ∀ m ≤ k, c.blocks[m]? = d.blocks[m]? := fun m hm =>
            hblocks m (Nat.le_succ_of_le hm)
          refine ⟨⟨block, hrecord.above, hrecord.height,
            (hblocks _ (Nat.le_refl _)).symm.trans hrecord.atHeight, hrecord.hash, fun p => ?_⟩,
            ih hrest hbelow fun o ho => hknown o (Chain.spends_mono (Nat.le_succ k) ho)⟩
          rw [hrecord.pruned, Chain.spends_congr hbelow]
          refine and_congr_right fun hspent => ?_
          have hsucc := Chain.spends_succ (o := p.outpoint) hrecord.above hrecord.atHeight
          rw [hknown p.outpoint (hsucc.mpr (.inr hspent))]

/-- A record has the known entry of what its block is the first to spend. -/
theorem RecordOf.find {k : Nat} {scanned : ScannedBlock} {block : LedgerBlock}
    (h : RecordOf c start known k scanned block) (o : Outpoint) :
    (scanned.pruned.find? (·.outpoint = o)).map (·.payload) =
      if o ∈ block.spentOutpoints ∧ ¬ c.spends start k o then known o else none := by
  cases hfind : scanned.pruned.find? (·.outpoint = o) with
  | some p =>
      obtain rfl : p.outpoint = o := by simpa using List.find?_some hfind
      obtain ⟨hspent, hentry, hfirst⟩ := (h.pruned p).mp (List.mem_of_find?_eq_some hfind)
      rw [if_pos ⟨hspent, hfirst⟩, hentry]
      rfl
  | none =>
      split
      next hfirst =>
        cases hentry : known o with
        | none => rfl
        | some payload =>
            have hmem : (⟨o, payload⟩ : Pruned) ∈ scanned.pruned :=
              (h.pruned _).mpr ⟨hfirst.1, hentry, hfirst.2⟩
            exact absurd (List.find?_eq_none.mp hfind _ hmem) (by simp)
      next => rfl

/-- The records of the newest blocks have the known entry of what these blocks are the first to
spend. -/
theorem Remembered.find {n : Nat} {newer older : List ScannedBlock}
    (h : Remembered c start known n (newer ++ older)) (o : Outpoint) :
    ((newer.flatMap (·.pruned)).find? (·.outpoint = o)).map (·.payload) =
      if c.spends start n o ∧ ¬ c.spends start (n - newer.length) o then known o else none := by
  induction newer generalizing n with
  | nil => simp
  | cons scanned rest ih =>
      cases n with
      | zero => exact h.elim
      | succ k =>
          obtain ⟨⟨block, hrecord⟩, hrest⟩ := h
          have hlow : c.spends start (k - rest.length) o → c.spends start k o :=
            Chain.spends_mono (Nat.sub_le _ _)
          have hsucc := Chain.spends_succ (o := o) hrecord.above hrecord.atHeight
          rw [List.flatMap_cons, List.find?_append, Option.map_or, hrecord.find o, ih hrest,
            List.length_cons, Nat.add_sub_add_right]
          simp only [hsucc]
          by_cases hbefore : c.spends start k o
          · simp [hbefore]
          · have hnever : ¬ c.spends start (k - rest.length) o := fun hspent =>
              hbefore (hlow hspent)
            simp [hbefore, hnever]

end Watcher

end ChatRelay
