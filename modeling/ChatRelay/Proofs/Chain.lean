import ChatRelay.Ledger

/-!
# The chain behind the ledger

The ledger's answers about blocks come from one chain. Its heights are the positions in a list, so
that every height up to the tip has one block and no other height has any. An output is unspent
from when it is created until a block of the chain spends it, and a lookup tells which.
-/

namespace ChatRelay

/-- A chain of blocks from height zero on, with the scripts of the outputs created so far. -/
structure Chain where
  blocks : List LedgerBlock
  outputs : Outpoint → Option Bytes
  blocks_ne_nil : blocks ≠ []
  length_le : blocks.length ≤ UInt64.size

namespace Chain

def tip (c : Chain) : UInt64 := UInt64.ofNat (c.blocks.length - 1)

theorem length_pos (c : Chain) : 0 < c.blocks.length := List.length_pos_iff.mpr c.blocks_ne_nil

theorem toNat_tip (c : Chain) : c.tip.toNat = c.blocks.length - 1 := by
  have hpos := c.length_pos
  have hle := c.length_le
  exact UInt64.toNat_ofNat_of_lt' (by omega)

theorem exists_block (c : Chain) {n : Nat} (h : n ≤ c.tip.toNat) :
    ∃ block, c.blocks[n]? = some block := by
  have hpos := c.length_pos
  rw [c.toNat_tip] at h
  exact ⟨_, List.getElem?_eq_getElem (by omega)⟩

theorem le_tip_of_block {c : Chain} {n : Nat} {block : LedgerBlock}
    (h : c.blocks[n]? = some block) : n ≤ c.tip.toNat := by
  obtain ⟨hlt, -⟩ := List.getElem?_eq_some_iff.mp h
  rw [c.toNat_tip]
  omega

/-- The blocks above one height and up to another. -/
def between (c : Chain) (low high : Nat) : List LedgerBlock :=
  (c.blocks.take (high + 1)).drop (low + 1)

/-- Whether a block above one height and up to another spends an outpoint. -/
def spends (c : Chain) (low high : Nat) (outpoint : Outpoint) : Bool :=
  (c.between low high).any fun block => block.spentOutpoints.contains outpoint

def spent (c : Chain) (outpoint : Outpoint) : Bool :=
  c.blocks.any fun block => block.spentOutpoints.contains outpoint

/-- Whether an outpoint names an output that can still be spent. -/
def unspent (c : Chain) (outpoint : Outpoint) : Bool :=
  (c.outputs outpoint).isSome && !c.spent outpoint

/-- The failure of a question about a height above the tip. -/
def outOfRange : LedgerError := .rpc (-8) "Block height out of range"

/-- The truth about the chain. -/
def answer (c : Chain) : (call : LedgerCall) → call.Answer
  | .height => .ok c.tip
  | .blockHash height =>
    match c.blocks[height.toNat]? with
    | some block => .ok block.hash
    | none => .error outOfRange
  | .block height =>
    match c.blocks[height.toNat]? with
    | some block => .ok block
    | none => .error outOfRange
  | .output outpoint =>
    .ok (if c.unspent outpoint then (c.outputs outpoint).map (⟨·, false⟩) else none)

/-- What a ledger with this chain may answer: a failure, or the truth. An output that is not
unspent may be shown as spent or not at all. -/
def Answers (c : Chain) : (call : LedgerCall) → call.Answer → Prop
  | .output outpoint, answer =>
    (∃ cause, answer = .error cause) ∨
      ∃ output, answer = .ok output ∧ output.any (!·.spent) = c.unspent outpoint ∧
        ∀ shown ∈ output, c.outputs outpoint = some shown.script
  | call, answer => (∃ cause, answer = .error cause) ∨ answer = c.answer call

/-- The chain may become another by further blocks and further outputs. -/
structure Grows (c d : Chain) : Prop where
  blocks : c.blocks <+: d.blocks
  outputs : ∀ outpoint script, c.outputs outpoint = some script → d.outputs outpoint = some script

variable {c d e : Chain} {low high : Nat} {outpoint : Outpoint}

theorem spends_iff : c.spends low high outpoint ↔
    ∃ n block, low < n ∧ n ≤ high ∧ c.blocks[n]? = some block ∧
      outpoint ∈ block.spentOutpoints := by
  simp only [spends, between, List.any_eq_true, List.contains_iff_mem, List.mem_iff_getElem?,
    List.getElem?_drop, List.getElem?_take]
  constructor
  · rintro ⟨block, ⟨i, hblock⟩, hspent⟩
    split at hblock
    · exact ⟨low + 1 + i, block, by omega, by omega, hblock, hspent⟩
    · simp at hblock
  · rintro ⟨n, block, hlow, hhigh, hblock, hspent⟩
    refine ⟨block, ⟨n - (low + 1), ?_⟩, hspent⟩
    have hn : low + 1 + (n - (low + 1)) = n := by omega
    rw [hn, if_pos (by omega)]
    exact hblock

theorem spent_iff :
    c.spent outpoint ↔ ∃ block ∈ c.blocks, outpoint ∈ block.spentOutpoints := by
  simp [spent, List.any_eq_true]

theorem Answers.block {height : UInt64} {block : LedgerBlock}
    (h : c.Answers (.block height) (.ok block)) : c.blocks[height.toNat]? = some block := by
  rcases h with ⟨cause, h⟩ | h
  · cases h
  · cases hat : c.blocks[height.toNat]? with
    | none => simp [answer, hat] at h
    | some found =>
        simp only [answer, hat, Except.ok.injEq] at h
        rw [h]

theorem Answers.hash {height : UInt64} {hash : String}
    (h : c.Answers (.blockHash height) (.ok hash)) :
    ∃ block, c.blocks[height.toNat]? = some block ∧ block.hash = hash := by
  rcases h with ⟨cause, h⟩ | h
  · cases h
  · cases hat : c.blocks[height.toNat]? with
    | none => simp [answer, hat] at h
    | some found =>
        simp only [answer, hat, Except.ok.injEq] at h
        exact ⟨found, rfl, h.symm⟩

theorem Answers.tip {height : UInt64} (h : c.Answers .height (.ok height)) : height = c.tip := by
  rcases h with ⟨cause, h⟩ | h
  · cases h
  · exact Except.ok.inj h

theorem Answers.output {output : Option LedgerOutput}
    (h : c.Answers (.output outpoint) (.ok output)) :
    output.any (!·.spent) = c.unspent outpoint := by
  rcases h with ⟨cause, h⟩ | ⟨shown, h, hunspent, -⟩
  · cases h
  · rw [Except.ok.inj h]
    exact hunspent

@[refl] theorem Grows.refl (c : Chain) : c.Grows c := ⟨List.prefix_refl _, fun _ _ h => h⟩

theorem Grows.trans (hcd : c.Grows d) (hde : d.Grows e) : c.Grows e :=
  ⟨hcd.blocks.trans hde.blocks, fun o script h => hde.outputs o script (hcd.outputs o script h)⟩

/-- What a block has spent stays spent. -/
theorem Grows.spent (h : c.Grows d) (hspent : c.spent outpoint) : d.spent outpoint := by
  obtain ⟨block, hblock, hmem⟩ := spent_iff.mp hspent
  exact spent_iff.mpr ⟨block, h.blocks.subset hblock, hmem⟩

theorem Grows.created (h : c.Grows d) (hcreated : (c.outputs outpoint).isSome) :
    (d.outputs outpoint).isSome := by
  obtain ⟨script, hscript⟩ := Option.isSome_iff_exists.mp hcreated
  rw [h.outputs _ _ hscript]
  rfl

theorem Grows.getElem? (h : c.Grows d) {n : Nat} {block : LedgerBlock}
    (hblock : c.blocks[n]? = some block) : d.blocks[n]? = some block := by
  obtain ⟨hn, hget⟩ := List.getElem?_eq_some_iff.mp hblock
  rw [← hget, List.IsPrefix.getElem h.blocks hn]
  exact List.getElem?_eq_getElem _

theorem answers_answer (c : Chain) (call : LedgerCall) : c.Answers call (c.answer call) := by
  cases call with
  | output outpoint =>
      refine .inr ⟨_, rfl, ?_, fun shown hshown => ?_⟩
      · by_cases h : c.unspent outpoint
        · obtain ⟨script, hscript⟩ : ∃ script, c.outputs outpoint = some script :=
            Option.isSome_iff_exists.mp (Bool.and_eq_true_iff.mp h).1
          simp [h, hscript]
        · simp [h]
      · split at hshown
        next =>
          obtain ⟨script, hscript, rfl⟩ := Option.map_eq_some_iff.mp hshown
          exact hscript
        next => cases hshown
  | _ => exact .inr rfl

/-- The chain with one more block, while there are heights left. -/
def extend (c : Chain) (block : LedgerBlock) : Chain :=
  if h : c.blocks.length < UInt64.size then
    { c with
      blocks := c.blocks ++ [block]
      blocks_ne_nil := List.append_ne_nil_of_right_ne_nil _ (List.cons_ne_nil _ _)
      length_le := by
        rw [List.length_append, List.length_singleton]
        exact h }
  else c

theorem grows_extend (c : Chain) (block : LedgerBlock) : c.Grows (c.extend block) := by
  unfold extend
  split
  next => exact ⟨List.prefix_append _ _, fun _ _ h => h⟩
  next => exact .refl c

end Chain

end ChatRelay
