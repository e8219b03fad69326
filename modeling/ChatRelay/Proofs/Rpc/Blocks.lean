import ChatRelay.Proofs.Outpoints
import ChatRelay.Proofs.Rpc.Lookup
import ChatRelay.Proofs.Watcher.Removals
import Mathlib.Data.List.Forall2

/-!
# What replies say of blocks

A block is described by a record of records. A member of a record is given if it is there and is
not null. An input that gives a coinbase creates coins and names no outpoint; every other one has to
name one, by an identifier as it is shown and an index, and a single input that does not spoils the
block. What a block spends is what its inputs name, in their order.
-/

namespace ChatRelay.Rpc

/-! ## Members of records -/

/-- A member, unless it is null. -/
def notNull : Option Json → Option Json
  | some .null => none
  | member => member

/-- What a record gives under a name: the field of that name in an object, or the item of an array
that stands where the name does. -/
def given? (names : List String) (name : String) : Json → Option Json
  | .object fields => notNull (fields.lookup name)
  | .array items => notNull items[names.idxOf name]?
  | _ => none

/-- The items of a member that is a list. -/
def items : Option Json → List Json
  | some (.array items) => items
  | _ => []

def blockMember? : String → Json → Option Json := given? ["hash", "height", "tx"]

def transactionMember? : String → Json → Option Json := given? ["txid", "vin"]

def inputMember? : String → Json → Option Json := given? ["coinbase", "txid", "vout"]

/-- The inputs of a transaction, as they are described. -/
def inputsOf (transaction : Json) : List Json := items (transactionMember? "vin" transaction)

/-- The transactions of a block, as they are described. -/
def transactionsOf (block : Json) : List Json := items (blockMember? "tx" block)

/-- Whether an input creates coins. -/
def createsCoins (input : Json) : Bool := (inputMember? "coinbase" input).isSome

/-- Whether an input names some outpoint: it gives an index, and an identifier as it is shown. -/
def NamesOutpoint (input : Json) : Prop :=
  (inputMember? "vout" input).isSome ∧
    ∃ txid, inputMember? "txid" input = some (.string txid) ∧ Outpoint.ShowsTxid txid.toList

/-- Whether an input names an outpoint. The last octet of the identifier is shown first. -/
structure Names (input : Json) (o : Outpoint) : Prop where
  index : inputMember? "vout" input = some (.ofNat o.index.toNat)
  txid : ∃ txid, inputMember? "txid" input = some (.string txid) ∧
    Outpoint.ShowsTxid txid.toList ∧ o.txid.toList.reverse = Hex.octets txid.toList

/-- What an input spends: nothing if it creates coins, else the outpoint that it names. -/
def Spends (input : Json) : Option Outpoint → Prop
  | none => createsCoins input
  | some o => ¬ createsCoins input ∧ Names input o

/-- Whether a transaction has this identifier and its inputs spend these outpoints. -/
structure TransactionShows (value : Json) (transaction : LedgerTransaction) : Prop where
  txid : transactionMember? "txid" value = some (.string transaction.txid)
  inputs : List.Forall₂ Spends (inputsOf value) transaction.inputs

/-- Whether a block has this hash and this height, and these are its transactions. -/
structure BlockShows (value : Json) (block : LedgerBlock) : Prop where
  hash : blockMember? "hash" value = some (.string block.hash)
  height : blockMember? "height" value = some (.ofNat block.height.toNat)
  transactions : List.Forall₂ TransactionShows (transactionsOf value) block.transactions

section

variable {names : List String} {value : Json} {members : List (Option Json)} {member : Option Json}

/-- The members that are read are those that are given. -/
theorem members?_eq_some (hnodup : names.Nodup) (h : members? names value = some members) :
    members.map notNull = names.map (given? names · value) := by
  cases value with
  | object fields =>
      obtain rfl := Option.some.inj h
      simp [given?, Function.comp_def]
  | array items =>
      rw [members?, Option.ite_none_right_eq_some] at h
      obtain ⟨hlength, h⟩ := h
      obtain rfl := Option.some.inj h
      refine List.ext_getElem (by simpa using hlength) fun i hi hi' => ?_
      rw [List.length_map] at hi'
      -- no name is given twice, so the item at `i` is looked up under the name at `i`
      have hitem : items[i]? = some items[i] := List.getElem?_eq_getElem (hlength ▸ hi')
      simp [given?, hnodup.idxOf_getElem i hi', hitem]
  | _ => cases h

theorem text?_eq_some {text : String} :
    text? member = some text ↔ member = some (.string text) := by
  unfold text?
  split <;> simp_all

theorem natural?_eq_some {bound n : Nat} (h : natural? bound member = some n) :
    member = some (.ofNat n) ∧ n ≤ bound := by
  unfold natural? at h
  split at h
  · rw [Option.ite_none_right_eq_some] at h
    obtain ⟨hle, h⟩ := h
    obtain rfl := Option.some.inj h
    exact ⟨rfl, hle⟩
  · cases h

theorem list?_eq_some {α : Type} {read : Json → Option α} {list : List α}
    (h : list? read member = some list) : (items (notNull member)).mapM read = some list := by
  unfold list? at h
  split at h
  · exact h
  · cases h

/-- A member that may be absent is given exactly if something is read. -/
theorem absentOr?_eq_some {α : Type} {read : Option Json → Option α} {written : α → Json}
    (hread : ∀ x, read member = some x → member = some (written x)) {x : Option α}
    (h : absentOr? read member = some x) : notNull member = x.map written := by
  unfold absentOr? at h
  split at h
  · obtain rfl := Option.some.inj h
    rfl
  · obtain rfl := Option.some.inj h
    rfl
  next _ hnull =>
    obtain ⟨y, hy, rfl⟩ := Option.map_eq_some_iff.mp h
    rw [notNull, hread y hy]
    · rfl
    · exact hnull

end

/-! ## Inputs -/

section

variable {input : Json} {read : VerboseInput} {txid owner : String} {index : UInt32} {o : Outpoint}

/-- What is read of an input is what it gives. -/
theorem VerboseInput.given_of_read (h : VerboseInput.ofJson? input = some read) :
    inputMember? "coinbase" input = read.coinbase.map .string ∧
      inputMember? "txid" input = read.txid.map .string ∧
      inputMember? "vout" input = read.index.map fun index => .ofNat index.toNat := by
  unfold VerboseInput.ofJson? at h
  obtain ⟨members, hmembers, h⟩ := Option.bind_eq_some_iff.mp h
  split at h
  next coinbase txid index =>
    simp only [Option.bind_eq_bind, Option.bind_eq_some_iff] at h
    obtain ⟨i, hindex, c, hcoinbase, t, htxid, h⟩ := h
    obtain rfl := Option.some.inj h
    have hgiven := members?_eq_some (by decide) hmembers
    simp only [List.map_cons, List.map_nil, List.cons.injEq, and_true] at hgiven
    refine ⟨hgiven.1.symm.trans ?_, hgiven.2.1.symm.trans ?_, hgiven.2.2.symm.trans ?_⟩
    · exact absentOr?_eq_some (fun x => text?_eq_some.mp) hcoinbase
    · exact absentOr?_eq_some (fun x => text?_eq_some.mp) htxid
    · rw [Option.map_map]
      refine absentOr?_eq_some (fun n hn => ?_) hindex
      obtain ⟨hnumber, hle⟩ := natural?_eq_some hn
      have hlt : n < UInt32.size := Nat.lt_of_le_pred (by decide) hle
      rw [hnumber, Function.comp_apply, UInt32.toNat_ofNat_of_lt' hlt]
  · cases h

theorem names_iff (htxid : inputMember? "txid" input = some (.string txid))
    (hindex : inputMember? "vout" input = some (.ofNat index.toNat)) :
    Names input o ↔ Outpoint.ofDisplayTxid txid index = .ok o := by
  rw [Outpoint.ofDisplayTxid_eq_ok]
  constructor
  · rintro ⟨hnumber, txid', hstring, hshown, hoctets⟩
    obtain rfl : txid' = txid := by simpa [htxid, eq_comm] using hstring
    obtain hsame : index.toNat = o.index.toNat := by simpa [hindex, Json.ofNat] using hnumber
    exact ⟨hshown, hoctets, (UInt32.toNat_inj.mp hsame).symm⟩
  · rintro ⟨hshown, hoctets, rfl⟩
    exact ⟨hindex, txid, htxid, hshown, hoctets⟩

theorem Names.namesOutpoint (h : Names input o) : NamesOutpoint input := by
  obtain ⟨txid, hstring, hshown, -⟩ := h.txid
  exact ⟨by rw [h.index]; rfl, txid, hstring, hshown⟩

/-- What an input is taken to spend is what it spends. -/
theorem VerboseInput.outpoint_eq_ok {spent : Option Outpoint}
    (h : VerboseInput.ofJson? input = some read) :
    read.outpoint owner = .ok spent ↔ Spends input spent := by
  obtain ⟨coinbase, txid, index⟩ := read
  obtain ⟨hcoinbase, htxid, hindex⟩ := VerboseInput.given_of_read h
  cases coinbase with
  | some coinbase =>
      -- whatever else the input gives
      have hcreates : createsCoins input := by simp [createsCoins, hcoinbase]
      cases spent <;> simp [outpoint, Spends, hcreates]
  | none =>
      have hcreates : createsCoins input = false := by simp [createsCoins, hcoinbase]
      cases txid with
      | none =>
          have hnames (o : Outpoint) : ¬ Names input o := fun hnames => by
            simpa [htxid] using hnames.namesOutpoint.2
          cases spent <;> simp [outpoint, Spends, hcreates, hnames]
      | some txid =>
          cases index with
          | none =>
              have hnames (o : Outpoint) : ¬ Names input o := fun hnames => by
                simpa [hindex] using hnames.index
              cases spent <;> simp [outpoint, Spends, hcreates, hnames]
          | some index =>
              have hnames (o : Outpoint) := names_iff (o := o) htxid hindex
              cases hshown : Outpoint.ofDisplayTxid txid index <;> cases spent <;>
                simp [outpoint, Spends, hcreates, hshown, hnames]

theorem VerboseInput.exists_spends (h : VerboseInput.ofJson? input = some read) :
    (∃ spent, Spends input spent) ↔ (¬ createsCoins input → NamesOutpoint input) := by
  constructor
  · rintro ⟨spent, hspends⟩ hcreates
    cases spent with
    | none => exact absurd hspends hcreates
    | some o => exact hspends.2.namesOutpoint
  · intro hnames
    by_cases hcreates : createsCoins input
    · exact ⟨none, hcreates⟩
    obtain ⟨hgiven, txid, htxid, hshown⟩ := hnames hcreates
    -- an index that is given has been read, so it is not too large
    obtain ⟨-, -, hindex⟩ := VerboseInput.given_of_read h
    cases hread : read.index with
    | none => simp [hindex, hread] at hgiven
    | some index =>
        rw [hread] at hindex
        obtain ⟨o, ho⟩ := Outpoint.exists_ofDisplayTxid hshown index
        exact ⟨some o, hcreates, (names_iff htxid hindex).mpr ho⟩

/-- What is asked about an outpoint names the outpoint where an input gives it. -/
theorem VerboseInput.outpoint_outputCall (h : VerboseInput.ofJson? input = some read)
    (hcreates : ¬ createsCoins input)
    (htxid : inputMember? "txid" input = (outputCall o).params[0]?)
    (hindex : inputMember? "vout" input = (outputCall o).params[1]?) :
    read.outpoint owner = .ok (some o) :=
  (VerboseInput.outpoint_eq_ok h).mpr
    ⟨hcreates, (names_iff htxid hindex).mpr (Outpoint.ofDisplayTxid_displayTxid o)⟩

end

/-! ## Transactions and blocks -/

section

variable {α β γ ε : Type} {R : α → β → Prop} {S : β → γ → Prop} {T : α → γ → Prop}
  {as : List α} {bs : List β} {cs : List γ}

/-- All items of a list are read. -/
theorem mapM_eq_some {f : α → Option β} :
    as.mapM f = some bs ↔ List.Forall₂ (f · = some ·) as bs := by
  induction as generalizing bs with
  | nil => simp [eq_comm]
  | cons a as ih =>
      simp only [List.mapM_cons, Option.bind_eq_bind, Option.bind_eq_some_iff, ih,
        List.forall₂_cons_left_iff, Option.pure_def, Option.some.injEq]
      exact ⟨fun ⟨b, hb, bs, hbs, h⟩ => ⟨b, bs, hb, hbs, h.symm⟩,
        fun ⟨b, bs, hb, hbs, h⟩ => ⟨b, hb, bs, hbs, h.symm⟩⟩

/-- All items of a list are converted. -/
theorem mapM_eq_ok {f : α → Except ε β} :
    as.mapM f = .ok bs ↔ List.Forall₂ (f · = .ok ·) as bs := by
  induction as generalizing bs with
  | nil => simp [eq_comm, pure, Except.pure]
  | cons a as ih =>
      rw [List.mapM_cons, List.forall₂_cons_left_iff]
      cases hhead : f a with
      | error cause => simp [bind, Except.bind]
      | ok b =>
          cases htail : as.mapM f with
          | error cause =>
              have hnone (bs : List β) : ¬ List.Forall₂ (f · = .ok ·) as bs := fun h => by
                cases htail.symm.trans (ih.mpr h)
              simp [bind, Except.bind, hnone]
          | ok rest =>
              have hrest (bs : List β) : List.Forall₂ (f · = .ok ·) as bs ↔ rest = bs := by
                rw [← ih, htail, Except.ok.injEq]
              simp [bind, Except.bind, pure, Except.pure, hrest, eq_comm]

theorem map_eq_ok {f : β → γ} {result : Except ε β} {c : γ} :
    result.map f = .ok c ↔ ∃ b, result = .ok b ∧ f b = c := by
  cases result <;> simp [Except.map]

theorem exists_forall₂ : (∃ bs, List.Forall₂ R as bs) ↔ ∀ a ∈ as, ∃ b, R a b := by
  induction as with
  | nil => simp
  | cons a as ih =>
      rw [List.forall_mem_cons, ← ih]
      constructor
      · rintro ⟨_, _ | ⟨ha, has⟩⟩
        exact ⟨⟨_, ha⟩, _, has⟩
      · rintro ⟨⟨b, ha⟩, bs, has⟩
        exact ⟨b :: bs, .cons ha has⟩

/-- Where each item that can be read has a counterpart if it is well formed. -/
theorem exists_forall₂_iff {P : α → Prop} (h : List.Forall₂ R as bs)
    (hiff : ∀ a b, R a b → ((∃ c, T a c) ↔ P a)) :
    (∃ cs, List.Forall₂ T as cs) ↔ ∀ a ∈ as, P a := by
  rw [exists_forall₂]
  refine forall₂_congr fun a ha => ?_
  obtain ⟨b, hb⟩ := exists_forall₂.mp ⟨bs, h⟩ a ha
  exact hiff a b hb

/-- Two passes over a list, of which the second one means `T` of the items before the first one. -/
theorem forall₂_congr_left (h : List.Forall₂ R as bs)
    (hiff : ∀ a b, R a b → ∀ c, S b c ↔ T a c) : List.Forall₂ S bs cs ↔ List.Forall₂ T as cs := by
  induction h generalizing cs with
  | nil => simp
  | cons ha has ih => simp only [List.forall₂_cons_left_iff, hiff _ _ ha, ih]

end

section

variable {value : Json}

theorem VerboseTransaction.given_of_read {read : VerboseTransaction}
    (h : VerboseTransaction.ofJson? value = some read) :
    transactionMember? "txid" value = some (.string read.txid) ∧
      List.Forall₂ (VerboseInput.ofJson? · = some ·) (inputsOf value) read.inputs := by
  unfold VerboseTransaction.ofJson? at h
  obtain ⟨members, hmembers, h⟩ := Option.bind_eq_some_iff.mp h
  split at h
  next txid inputs =>
    simp only [Option.bind_eq_bind, Option.bind_eq_some_iff] at h
    obtain ⟨t, htxid, i, hinputs, h⟩ := h
    obtain rfl := Option.some.inj h
    have hgiven := members?_eq_some (by decide) hmembers
    simp only [List.map_cons, List.map_nil, List.cons.injEq, and_true] at hgiven
    rw [inputsOf, transactionMember?, ← hgiven.1, ← hgiven.2, ← mapM_eq_some]
    refine ⟨?_, list?_eq_some hinputs⟩
    rw [text?_eq_some.mp htxid]
    rfl
  · cases h

/-- A transaction that is read comes to the transaction that is described. -/
theorem VerboseTransaction.toLedger_eq_ok {read : VerboseTransaction}
    (h : VerboseTransaction.ofJson? value = some read) {transaction : LedgerTransaction} :
    read.toLedger = .ok transaction ↔ TransactionShows value transaction := by
  obtain ⟨htxid, hinputs⟩ := VerboseTransaction.given_of_read h
  have hspends (spent : List (Option Outpoint)) :
      List.Forall₂ (VerboseInput.outpoint read.txid · = .ok ·) read.inputs spent ↔
        List.Forall₂ Spends (inputsOf value) spent :=
    forall₂_congr_left hinputs fun _ _ hread _ => VerboseInput.outpoint_eq_ok hread
  simp only [toLedger, map_eq_ok, mapM_eq_ok, hspends]
  constructor
  · rintro ⟨spent, hspent, rfl⟩
    exact ⟨htxid, hspent⟩
  · rintro ⟨hshown, hspent⟩
    refine ⟨transaction.inputs, hspent, ?_⟩
    obtain ⟨txid, inputs⟩ := transaction
    obtain rfl : read.txid = txid := by simpa [htxid] using hshown
    rfl

theorem VerboseTransaction.exists_shows {read : VerboseTransaction}
    (h : VerboseTransaction.ofJson? value = some read) :
    (∃ transaction, TransactionShows value transaction) ↔
      ∀ input ∈ inputsOf value, ¬ createsCoins input → NamesOutpoint input := by
  obtain ⟨htxid, hinputs⟩ := VerboseTransaction.given_of_read h
  rw [← exists_forall₂_iff hinputs fun input read => VerboseInput.exists_spends]
  exact ⟨fun ⟨_, hshows⟩ => ⟨_, hshows.inputs⟩,
    fun ⟨spent, hspent⟩ => ⟨⟨read.txid, spent⟩, htxid, hspent⟩⟩

theorem VerboseBlock.given_of_read {read : VerboseBlock}
    (h : VerboseBlock.ofJson? value = some read) :
    blockMember? "hash" value = some (.string read.hash) ∧
      blockMember? "height" value = some (.ofNat read.height.toNat) ∧
      List.Forall₂ (VerboseTransaction.ofJson? · = some ·) (transactionsOf value)
        read.transactions := by
  unfold VerboseBlock.ofJson? at h
  obtain ⟨members, hmembers, h⟩ := Option.bind_eq_some_iff.mp h
  split at h
  next hash height transactions =>
    simp only [Option.bind_eq_bind, Option.bind_eq_some_iff] at h
    obtain ⟨text, hhash, n, hheight, read, htransactions, h⟩ := h
    obtain rfl := Option.some.inj h
    obtain ⟨hnumber, hle⟩ := natural?_eq_some hheight
    have hlt : n < UInt64.size := Nat.lt_of_le_pred (by decide) hle
    have hgiven := members?_eq_some (by decide) hmembers
    simp only [List.map_cons, List.map_nil, List.cons.injEq, and_true] at hgiven
    rw [transactionsOf, blockMember?, ← hgiven.1, ← hgiven.2.1, ← hgiven.2.2, ← mapM_eq_some,
      text?_eq_some.mp hhash, hnumber, UInt64.toNat_ofNat_of_lt' hlt]
    exact ⟨rfl, rfl, list?_eq_some htransactions⟩
  · cases h

/-- A block that is read comes to the block that is described. -/
theorem VerboseBlock.toLedger_eq_ok {read : VerboseBlock}
    (h : VerboseBlock.ofJson? value = some read) {block : LedgerBlock} :
    read.toLedger = .ok block ↔ BlockShows value block := by
  obtain ⟨hhash, hheight, htransactions⟩ := VerboseBlock.given_of_read h
  have hshows (shown : List LedgerTransaction) :
      List.Forall₂ (VerboseTransaction.toLedger · = .ok ·) read.transactions shown ↔
        List.Forall₂ TransactionShows (transactionsOf value) shown :=
    forall₂_congr_left htransactions fun _ _ hread _ => VerboseTransaction.toLedger_eq_ok hread
  simp only [toLedger, map_eq_ok, mapM_eq_ok, hshows]
  constructor
  · rintro ⟨shown, hshown, rfl⟩
    exact ⟨hhash, hheight, hshown⟩
  · rintro ⟨hhash', hheight', hshown⟩
    refine ⟨block.transactions, hshown, ?_⟩
    obtain ⟨hash, height, transactions⟩ := block
    obtain rfl : read.hash = hash := by simpa [hhash] using hhash'
    have hsame : read.height.toNat = height.toNat := by simpa [hheight, Json.ofNat] using hheight'
    obtain rfl := UInt64.toNat_inj.mp hsame
    rfl

theorem VerboseBlock.exists_shows {read : VerboseBlock}
    (h : VerboseBlock.ofJson? value = some read) :
    (∃ block, BlockShows value block) ↔ ∀ transaction ∈ transactionsOf value,
      ∀ input ∈ inputsOf transaction, ¬ createsCoins input → NamesOutpoint input := by
  obtain ⟨hhash, hheight, htransactions⟩ := VerboseBlock.given_of_read h
  rw [← exists_forall₂_iff htransactions fun transaction read => VerboseTransaction.exists_shows]
  exact ⟨fun ⟨_, hshows⟩ => ⟨_, hshows.transactions⟩,
    fun ⟨shown, hshown⟩ => ⟨⟨read.hash, read.height, shown⟩, hhash, hheight, hshown⟩⟩

end

/-- What inputs spend is what those of them name that do not create coins. -/
theorem forall₂_names {inputs : List Json} {spent : List (Option Outpoint)}
    (h : List.Forall₂ Spends inputs spent) :
    List.Forall₂ Names (inputs.filter (!createsCoins ·)) (spent.filterMap id) := by
  induction h with
  | nil => exact .nil
  | @cons input spent inputs rest hspends hrest ih =>
      cases spent with
      | none =>
          have hcreates : createsCoins input = true := hspends
          simpa [hcreates] using ih
      | some o =>
          obtain ⟨hcreates, hnames⟩ := hspends
          simpa [hcreates] using ⟨hnames, ih⟩

/-- The inputs of a block in their order, as they are described. -/
def blockInputs (value : Json) : List Json := (transactionsOf value).flatMap inputsOf

theorem BlockShows.forall₂_names {value : Json} {block : LedgerBlock} (h : BlockShows value block) :
    List.Forall₂ Names ((blockInputs value).filter (!createsCoins ·)) block.spentOutpoints := by
  rw [blockInputs, List.filter_flatMap]
  exact List.rel_flatMap h.transactions fun _ _ hshows => Rpc.forall₂_names hshows.inputs

/-- Where a server replies with a described block, the question for it is answered by this block. -/
theorem run_block {σ : Type} {serve : (call : Call) → σ → Answer call × σ} {s t : σ}
    {height : UInt64} {hash : String} {value : Json} {read : VerboseBlock}
    (hread : VerboseBlock.ofJson? value = some read)
    (hhash : (blockHash height).run serve s = (.ok hash, t))
    (hvalue : outcome "getblock" (serve ⟨"getblock", [.string hash, .ofNat 2]⟩ t).1 = .ok value) :
    ((perform (.block height)).run serve s).1 = read.toLedger := by
  simp only [perform, block, Routine.run_seq, hhash, call, Routine.run_ask, Routine.run_done,
    Routine.run_pure, hvalue, hread]

/-- A block that is read can be had exactly if each of its inputs creates coins or names an
outpoint. It then has the hash, the height, the transactions and the inputs that are described, and
spends what its inputs name, in their order. An input that gives what is asked about an outpoint
names just that one. The question for a block is answered by what a server describes, if that can be
had; and a poll removes what the blocks spend that it was given, and nothing where there is none. -/
theorem spentOutpoints_named {value : Json} {read : VerboseBlock}
    (hread : VerboseBlock.ofJson? value = some read) :
    ((∃ block, read.toLedger = .ok block) ↔
      ∀ input ∈ blockInputs value, ¬ createsCoins input → NamesOutpoint input) ∧
    (∀ block, read.toLedger = .ok block → BlockShows value block ∧
      List.Forall₂ Names ((blockInputs value).filter (!createsCoins ·)) block.spentOutpoints) ∧
    (∀ o, (∃ next, perform (.output o) = .ask (outputCall o) next) ∧
      ∀ input spender owner, VerboseInput.ofJson? input = some spender → ¬ createsCoins input →
        inputMember? "txid" input = (outputCall o).params[0]? →
        inputMember? "vout" input = (outputCall o).params[1]? →
          spender.outpoint owner = .ok (some o)) ∧
    (∀ (σ : Type) (serve : (call : Call) → σ → Answer call × σ) (s t : σ) height hash,
      (blockHash height).run serve s = (.ok hash, t) →
      outcome "getblock" (serve ⟨"getblock", [.string hash, .ofNat 2]⟩ t).1 = .ok value →
        ((perform (.block height)).run serve s).1 = read.toLedger) ∧
    ∀ (w : Watcher) transcript rest, w.settings.fullBlocks →
      Routine.Comes w.poll transcript rest → PrunesSpends transcript := by
  refine ⟨?_, fun block hblock => ?_, fun o => ⟨⟨_, rfl⟩, ?_⟩, ?_, ?_⟩
  · simp only [VerboseBlock.toLedger_eq_ok hread, VerboseBlock.exists_shows hread, blockInputs,
      List.forall_mem_flatMap]
  · have hshows := (VerboseBlock.toLedger_eq_ok hread).mp hblock
    exact ⟨hshows, hshows.forall₂_names⟩
  · intro input spender owner hinput hcreates htxid hindex
    exact VerboseInput.outpoint_outputCall hinput hcreates htxid hindex
  · intro σ serve s t height hash hhash hvalue
    exact run_block hread hhash hvalue
  · intro w transcript rest hfull hcomes
    exact Watcher.prunesSpends_poll hfull hcomes

/-! ## A block with one spender -/

/-- An input that gives an identifier, and index 2. -/
def spender (txid : String) : Json := .object [("txid", .string txid), ("vout", .ofNat 2)]

/-- A described block with a transaction that creates coins and one with this spender. -/
def describedBlock (txid : String) : Json :=
  .object [("hash", .string "00ab"), ("height", .ofNat 812), ("tx", .array [
    .object [("txid", .string "cb"), ("vin", .array [.object [("coinbase", .string "03")]])],
    .object [("txid", .string "t1"), ("vin", .array [spender txid])]])]

/-- The block as it is read. -/
def readBlock (txid : String) : VerboseBlock :=
  ⟨"00ab", 812, [⟨"cb", [⟨some "03", none, none⟩]⟩, ⟨"t1", [⟨none, some txid, some 2⟩]⟩]⟩

/-- An identifier as it is shown. -/
def spentTxid : String := String.ofList (List.replicate 64 '1')

def spendingBlock : LedgerBlock :=
  ⟨"00ab", 812, [⟨"cb", [none]⟩, ⟨"t1", [some ⟨.replicate 32 0x11, 2⟩]⟩]⟩

theorem read_describedBlock (txid : String) :
    VerboseBlock.ofJson? (describedBlock txid) = some (readBlock txid) := rfl

theorem spenders_describedBlock (txid : String) :
    (blockInputs (describedBlock txid)).filter (!createsCoins ·) = [spender txid] := rfl

theorem toLedger_spending : (readBlock spentTxid).toLedger = .ok spendingBlock :=
  eq_ok_of_toOption (by decide +kernel)

theorem not_namesOutpoint_spender : ¬ NamesOutpoint (spender "zz") := by
  rintro ⟨-, txid, htxid, hshown⟩
  obtain rfl : "zz" = txid := by simpa [inputMember?, given?, spender, notNull] using htxid
  exact absurd hshown.1 (by decide)

/-- A server whose only block has no transactions. -/
def emptyServer (call : Call) (s : Unit) : Answer call × Unit :=
  let result := if call.method = "getblock" then
    "\x7b\"hash\":\"00ab\",\"height\":812,\"tx\":[]\x7d" else "\"00ab\""
  (some ⟨200, "\x7b\"result\":" ++ result ++ "\x7d"⟩, s)

/-- Its reply about this block. -/
def emptyReply : Option Reply := (emptyServer ⟨"getblock", [.string "00ab", .ofNat 2]⟩ ()).1

/-- The block as the reply describes it. -/
def emptyBlock : Json := (outcome "getblock" emptyReply).toOption.getD .null

theorem read_emptyBlock : VerboseBlock.ofJson? emptyBlock = some ⟨"00ab", 812, []⟩ := by
  decide +kernel

theorem hashes_emptyServer : (blockHash 812).run emptyServer () = (.ok "00ab", ()) := by
  have hhash : ((blockHash 812).run emptyServer ()).1.toOption = some "00ab" := by decide +kernel
  exact Prod.ext (eq_ok_of_toOption hhash) (Subsingleton.elim _ _)

theorem outcome_emptyReply : outcome "getblock" emptyReply = .ok emptyBlock := by
  have hread := read_emptyBlock
  unfold emptyBlock at hread ⊢
  cases houtcome : outcome "getblock" emptyReply with
  | error cause =>
      rw [houtcome] at hread
      cases hread
  | ok value => rfl

/-- A watcher with full blocks that has come to height 811, and what it asks at height 812. -/
theorem comes_spending : ∃ rest, Routine.Comes (Watcher.poll ⟨⟨6, true⟩, some 811, []⟩)
    [⟨.ledger .height, .ok 812⟩, ⟨.ledger (.block 812), .ok spendingBlock⟩,
      ⟨.store (.prune spendingBlock.spentOutpoints), .ok []⟩] rest :=
  ⟨_, .head (.head (.head (.refl _)))⟩

theorem spentOutpoints_named_spending :
    (BlockShows (describedBlock spentTxid) spendingBlock ∧
      List.Forall₂ Names [spender spentTxid] [⟨.replicate 32 0x11, 2⟩]) ∧
    (¬ ∃ block, (readBlock "zz").toLedger = .ok block) ∧
    ((perform (.block 812)).run emptyServer ()).1 = .ok ⟨"00ab", 812, []⟩ ∧
    PrunesSpends [⟨.ledger .height, .ok 812⟩, ⟨.ledger (.block 812), .ok spendingBlock⟩,
      ⟨.store (.prune spendingBlock.spentOutpoints), .ok []⟩] := by
  have hspending := spentOutpoints_named (read_describedBlock spentTxid)
  have hmalformed := spentOutpoints_named (read_describedBlock "zz")
  have hempty := spentOutpoints_named read_emptyBlock
  refine ⟨?_, fun hblock => ?_, ?_, ?_⟩
  · obtain ⟨hshows, hnames⟩ := hspending.2.1 spendingBlock toLedger_spending
    rw [spenders_describedBlock] at hnames
    exact ⟨hshows, hnames⟩
  · have hinput : spender "zz" ∈ (blockInputs (describedBlock "zz")).filter (!createsCoins ·) := by
      rw [spenders_describedBlock]
      exact .head _
    obtain ⟨hinput, hcreates⟩ := List.mem_filter.mp hinput
    exact not_namesOutpoint_spender (hmalformed.1.mp hblock _ hinput (by simpa using hcreates))
  · rw [hempty.2.2.2.1 Unit emptyServer () () 812 "00ab" hashes_emptyServer outcome_emptyReply]
    rfl
  · obtain ⟨rest, hcomes⟩ := comes_spending
    exact hspending.2.2.2.2 _ _ _ rfl hcomes

end ChatRelay.Rpc
