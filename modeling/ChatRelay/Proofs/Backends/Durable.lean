import ChatRelay.Proofs.Holdings
import ChatRelay.Proofs.Octets
import ChatRelay.Store.Durable
import Mathlib.Data.List.Nodup

/-!
# The store on disk as a backend

Records of an outpoint stand under its serialized form, so the trees describe contents as long as
every outpoint key is such a form, every message has its outpoint, and a recorded height has
eight octets. An operation performed without anything in between keeps that and does what its
description says.
-/

namespace ChatRelay.DurableStore

/-- The records are those of outpoints, of messages of recorded outpoints, and of a height. -/
structure Sound (store : DurableStore) : Prop where
  nodup : store.outpoints.keys.Nodup
  keyed : ∀ key, store.outpoints.contains key → ∃ outpoint : Outpoint, key = outpoint.toBytes
  cached : ∀ key, store.messages.contains key → store.outpoints.contains key
  height : ∀ value, store.metadata.get? watermarkKey = some value → value.length = 8

def holdings (store : DurableStore) : Holdings where
  entries outpoint :=
    if store.outpoints.contains outpoint.toBytes then
      some (store.messages.get? outpoint.toBytes)
    else none
  watermark := (store.metadata.get? watermarkKey).map fun value => UInt64.ofNat value.toNat

theorem sound_empty : empty.Sound where
  nodup := List.nodup_nil
  keyed key hkey := by simp [empty, Table.contains] at hkey
  cached key hkey := hkey
  height value hvalue := by simp [empty] at hvalue

@[simp] theorem recorded_holdings (store : DurableStore) (outpoint : Outpoint) :
    store.holdings.recorded outpoint = store.outpoints.contains outpoint.toBytes := by
  by_cases h : store.outpoints.contains outpoint.toBytes <;>
    simp [Holdings.recorded, holdings, h]

/-! ## Removing -/

/-- The store without the records of outpoints; their messages are still there. -/
def unlist (store : DurableStore) (outpoints : List Outpoint) : DurableStore :=
  { store with
    outpoints := outpoints.foldl (fun records o => records.erase o.toBytes) store.outpoints }

theorem contains_unlist (store : DurableStore) (outpoints : List Outpoint) (key : Bytes) :
    (store.unlist outpoints).outpoints.contains key =
      (key ∉ outpoints.map Outpoint.toBytes && store.outpoints.contains key) := by
  unfold unlist
  dsimp only
  generalize store.outpoints = records
  induction outpoints generalizing records with
  | nil => simp
  | cons first rest ih =>
      rw [List.foldl_cons, ih, Table.contains_erase]
      by_cases h : key = first.toBytes <;> simp [h]

theorem nodup_unlist {store : DurableStore} (h : store.outpoints.keys.Nodup)
    (outpoints : List Outpoint) : (store.unlist outpoints).outpoints.keys.Nodup := by
  unfold unlist
  dsimp only
  generalize store.outpoints = records at h
  induction outpoints generalizing records with
  | nil => exact h
  | cons first rest ih => exact ih _ (Table.nodup_keys_erase h _)

/-- What is held does not show messages of outpoints that are no longer recorded. -/
theorem holdings_unlist (store : DurableStore) (outpoints : List Outpoint) :
    (store.unlist outpoints).holdings = store.holdings.discard outpoints := by
  ext1
  · funext other
    by_cases h : other ∈ outpoints
    · simp [holdings, contains_unlist, h]
    · simp only [holdings, contains_unlist, Holdings.entries_discard, h]
      simp [h, unlist]
  · rfl

def uncache (store : DurableStore) (keys : List Bytes) : DurableStore :=
  { store with messages := store.messages.filterKeys fun key => ¬ keys.contains key }

theorem get?_uncache (store : DurableStore) (keys : List Bytes) (key : Bytes) :
    (store.uncache keys).messages.get? key =
      if key ∈ keys then none else store.messages.get? key := by
  by_cases h : key ∈ keys <;> simp [uncache, Table.get?_filterKeys, h]

/-- The store without the records and the messages of outpoints. -/
def discard (store : DurableStore) (outpoints : List Outpoint) : DurableStore :=
  (store.unlist outpoints).uncache (outpoints.map Outpoint.toBytes)

theorem contains_discard (store : DurableStore) (outpoints : List Outpoint) (key : Bytes) :
    (store.discard outpoints).outpoints.contains key =
      (key ∉ outpoints.map Outpoint.toBytes && store.outpoints.contains key) :=
  contains_unlist store outpoints key

theorem holdings_discard (store : DurableStore) (outpoints : List Outpoint) :
    (store.discard outpoints).holdings = store.holdings.discard outpoints := by
  ext1
  · funext other
    by_cases h : other ∈ outpoints
    · simp [holdings, contains_discard, h]
    · have hkey : other.toBytes ∉ outpoints.map Outpoint.toBytes := by simpa using h
      have hmessage : (store.discard outpoints).messages.get? other.toBytes =
          store.messages.get? other.toBytes :=
        (get?_uncache _ _ _).trans (if_neg hkey)
      simp only [holdings, contains_discard, hmessage, hkey, Holdings.entries_discard, h]
      simp
  · rfl

theorem Sound.discard {store : DurableStore} (h : store.Sound) (outpoints : List Outpoint) :
    (store.discard outpoints).Sound where
  nodup := nodup_unlist h.nodup outpoints
  keyed key hkey := by
    rw [contains_discard, Bool.and_eq_true] at hkey
    exact h.keyed key hkey.2
  cached key hkey := by
    have hmessage : (store.discard outpoints).messages.get? key = _ := get?_uncache _ _ _
    rw [Table.contains, hmessage] at hkey
    split at hkey
    next => simp at hkey
    next hkept =>
      rw [contains_discard, Bool.and_eq_true]
      exact ⟨by simpa using hkept, h.cached key hkey⟩
  height := h.height

/-- The removals of a prune, with nothing in between, take what is held of the outpoints. -/
theorem run_pruneSteps (all : List Outpoint) (removed : List Pruned) (rest : List Outpoint)
    (store : DurableStore) :
    (pruneSteps all removed rest).run serve store =
      (removed.reverse ++ store.holdings.taken rest,
        (store.unlist rest).uncache (all.map Outpoint.toBytes)) := by
  induction rest generalizing removed store with
  | nil =>
      rw [Holdings.taken, List.append_nil]
      rfl
  | cons first rest ih =>
      have hdiscard := holdings_unlist store [first]
      unfold pruneSteps Holdings.taken
      by_cases hfirst : store.outpoints.contains first.toBytes
      · obtain ⟨value, hvalue⟩ := Option.isSome_iff_exists.mp hfirst
        have hentry : store.holdings.entries first =
            some (store.messages.get? first.toBytes) := if_pos hfirst
        simp only [Routine.run_seq, askTree, Routine.run_ask, Routine.run_done, serve, records,
          hvalue, hentry]
        rw [← hdiscard]
        refine (ih _ (store.unlist [first])).trans ?_
        rw [List.reverse_cons, List.append_assoc]
        rfl
      · have hentry : store.holdings.entries first = none := if_neg hfirst
        have hvalue : store.outpoints.get? first.toBytes = none := by
          simpa [Table.contains] using hfirst
        have hsame : (store.unlist [first]).holdings = store.holdings :=
          hdiscard.trans (Holdings.discard_absent hentry)
        simp only [Routine.run_seq, askTree, Routine.run_ask, Routine.run_done, serve, records,
          hvalue, hentry]
        rw [← hsame]
        exact ih _ (store.unlist [first])

/-! ## The operations -/

/-- Keys that are serialized outpoints are read as those outpoints. -/
theorem outpointsOf_map_toBytes (outpoints : List Outpoint) :
    outpointsOf (outpoints.map Outpoint.toBytes) = .ok outpoints := by
  induction outpoints with
  | nil => rfl
  | cons first rest ih => simp [outpointsOf, ih, Except.map]

theorem exists_outpoints {store : DurableStore} (h : store.Sound) (keys : List Bytes)
    (hkeys : ∀ key ∈ keys, store.outpoints.contains key) :
    ∃ outpoints : List Outpoint, keys = outpoints.map Outpoint.toBytes := by
  induction keys with
  | nil => exact ⟨[], rfl⟩
  | cons key rest ih =>
      obtain ⟨outpoint, rfl⟩ := h.keyed key (hkeys key List.mem_cons_self)
      obtain ⟨outpoints, rfl⟩ := ih fun k hk => hkeys k (List.mem_cons_of_mem _ hk)
      exact ⟨outpoint :: outpoints, rfl⟩

/-- The keys of the outpoint records, in whatever order, are the recorded outpoints. -/
theorem keys_outpoints {store : DurableStore} (h : store.Sound) {keys : List Bytes}
    (hperm : keys.Perm store.outpoints.keys) :
    ∃ outpoints : List Outpoint, keys = outpoints.map Outpoint.toBytes ∧ outpoints.Nodup ∧
      ∀ o, o ∈ outpoints ↔ store.holdings.recorded o := by
  obtain ⟨outpoints, rfl⟩ := exists_outpoints h keys fun key hkey =>
    Table.mem_keys.mp (hperm.mem_iff.mp hkey)
  refine ⟨outpoints, rfl, List.Nodup.of_map _ (hperm.nodup_iff.mpr h.nodup), fun o => ?_⟩
  rw [recorded_holdings, ← Table.mem_keys, ← hperm.mem_iff,
    List.mem_map_of_injective Outpoint.toBytes_injective]

theorem holdings_insert {store : DurableStore} (h : store.Sound) {outpoint : Outpoint}
    (hnew : ¬ store.outpoints.contains outpoint.toBytes) :
    holdings { store with outpoints := store.outpoints.insert outpoint.toBytes [] } =
      store.holdings.enter outpoint none := by
  have hnone : store.messages.get? outpoint.toBytes = none := by
    have hcached : ¬ store.messages.contains outpoint.toBytes := fun hc => hnew (h.cached _ hc)
    simpa [Table.contains] using hcached
  ext1
  · funext other
    by_cases heq : other = outpoint
    · simp [holdings, Table.contains_insert, heq, hnone]
    · simp [holdings, Table.contains_insert, heq]
  · rfl

theorem holdings_cache {store : DurableStore} {outpoint : Outpoint} (payload : Bytes)
    (hrecorded : store.outpoints.contains outpoint.toBytes) :
    holdings { store with messages := store.messages.insert outpoint.toBytes payload } =
      store.holdings.enter outpoint (some payload) := by
  ext1
  · funext other
    by_cases heq : other = outpoint
    · simp [holdings, Table.get?_insert, heq, hrecorded]
    · simp [holdings, Table.get?_insert, heq]
  · rfl

theorem perform_add (store : DurableStore) (outpoint : Outpoint) :
    perform (.add outpoint) store =
      if store.outpoints.contains outpoint.toBytes then (.error (.alreadyPresent outpoint), store)
      else (.ok (), { store with outpoints := store.outpoints.insert outpoint.toBytes [] }) := by
  simp only [perform, operation, askTree, Routine.run_seq, Routine.run_ask, Routine.run_done,
    serve, records]
  by_cases h : store.outpoints.contains outpoint.toBytes
  · simp only [h]
    rfl
  · simp only [h]
    rfl

theorem perform_remove (store : DurableStore) (outpoint : Outpoint) :
    perform (.remove outpoint) store = (.ok (), store.discard [outpoint]) := by
  have hmessages : store.messages.erase outpoint.toBytes =
      store.messages.filterKeys fun key => ¬ [outpoint.toBytes].contains key := by
    simp [Table.erase, Table.filterKeys]
  rw [discard, List.map_cons, List.map_nil, uncache, unlist]
  dsimp only
  rw [← hmessages]
  rfl

theorem perform_prune (store : DurableStore) (outpoints : List Outpoint) :
    perform (.prune outpoints) store =
      (.ok (store.holdings.taken outpoints), store.discard outpoints) := by
  simp only [perform, operation, Routine.run_seq, run_pruneSteps]
  rfl

theorem perform_putPayload (store : DurableStore) (outpoint : Outpoint) (payload : Bytes) :
    perform (.putPayload outpoint payload) store =
      if store.outpoints.contains outpoint.toBytes then
        (.ok true, { store with messages := store.messages.insert outpoint.toBytes payload })
      else (.ok false, store) := by
  by_cases h : store.outpoints.contains outpoint.toBytes <;>
    simp [perform, operation, askTree, serve, records, setRecords, h]

theorem Sound.perform {store : DurableStore} (h : store.Sound) (call : StoreCall) :
    (perform call store).2.Sound := by
  cases call with
  | add outpoint =>
      rw [perform_add]
      split
      · exact h
      · refine ⟨Table.nodup_keys_insert h.nodup _ _, fun key hkey => ?_, fun key hkey => ?_,
          h.height⟩
        · rw [Table.contains_insert, Bool.or_eq_true, decide_eq_true_eq] at hkey
          exact hkey.elim (fun heq => ⟨outpoint, heq⟩) (h.keyed key)
        · rw [Table.contains_insert, Bool.or_eq_true]
          exact .inr (h.cached key hkey)
  | remove outpoint =>
      rw [perform_remove]
      exact h.discard [outpoint]
  | prune outpoints =>
      rw [perform_prune]
      exact h.discard outpoints
  | putPayload outpoint payload =>
      rw [perform_putPayload]
      split
      next hrecorded =>
        refine ⟨h.nodup, h.keyed, fun key hkey => ?_, h.height⟩
        rw [Table.contains_insert, Bool.or_eq_true, decide_eq_true_eq] at hkey
        exact hkey.elim (fun heq => heq ▸ hrecorded) (h.cached key)
      · exact h
  | watermark =>
      have hsame : (DurableStore.perform .watermark store).2 = store := by
        simp only [DurableStore.perform, operation, askTree, Routine.run_seq, Routine.run_ask,
          Routine.run_done, serve, records]
        split <;> rfl
      rw [hsame]
      exact h
  | setWatermark height =>
      refine ⟨h.nodup, h.keyed, h.cached, fun value hvalue => ?_⟩
      have hget := Table.get?_insert store.metadata watermarkKey watermarkKey
        (Bytes.ofNat 8 height.toNat)
      rw [if_pos rfl] at hget
      have heq : Bytes.ofNat 8 height.toNat = value := Option.some.inj (hget.symm.trans hvalue)
      rw [← heq, Bytes.length_ofNat]
  | _ => exact h

theorem performs {store : DurableStore} (h : store.Sound) (call : StoreCall) :
    Holdings.Performs call store.holdings (perform call store).1
      (perform call store).2.holdings := by
  cases call with
  | has outpoint =>
      rw [Holdings.Performs, recorded_holdings]
      exact ⟨rfl, rfl⟩
  | add outpoint =>
      rw [perform_add, Holdings.Performs, recorded_holdings]
      by_cases hrecorded : store.outpoints.contains outpoint.toBytes
      · simp [hrecorded]
      · simp only [hrecorded]
        exact ⟨rfl, holdings_insert h hrecorded⟩
  | remove outpoint =>
      rw [perform_remove]
      exact ⟨rfl, holdings_discard store [outpoint]⟩
  | prune outpoints =>
      rw [perform_prune]
      exact ⟨rfl, holdings_discard store outpoints⟩
  | payload outpoint =>
      refine ⟨?_, rfl⟩
      by_cases hrecorded : store.outpoints.contains outpoint.toBytes
      · simp only [holdings, hrecorded, if_true, Option.join_some]
        rfl
      · -- the message tree is read by itself, so a message without a record would show here
        have hcached : ¬ store.messages.contains outpoint.toBytes :=
          fun hc => hrecorded (h.cached _ hc)
        have hnone : store.messages.get? outpoint.toBytes = none := by
          simpa [Table.contains] using hcached
        have hentry : store.holdings.entries outpoint = none := if_neg hrecorded
        rw [hentry, Option.join_none, ← hnone]
        rfl
  | putPayload outpoint payload =>
      rw [perform_putPayload, Holdings.Performs, recorded_holdings]
      by_cases hrecorded : store.outpoints.contains outpoint.toBytes
      · simp [hrecorded, holdings_cache payload hrecorded]
      · simp [hrecorded]
  | outpoints =>
      obtain ⟨outpoints, hkeys, hnodup, hmem⟩ :=
        keys_outpoints h (List.mergeSort_perm store.outpoints.keys Bytes.precedes)
      refine ⟨⟨outpoints, ?_, hnodup, hmem⟩, rfl⟩
      rw [← outpointsOf_map_toBytes, ← hkeys]
      rfl
  | size =>
      obtain ⟨outpoints, hkeys, hnodup, hmem⟩ := keys_outpoints h (List.Perm.refl _)
      refine ⟨⟨outpoints, ?_, hnodup, hmem⟩, rfl⟩
      have hlength : outpoints.length = store.outpoints.size := by
        rw [← List.length_map Outpoint.toBytes, ← hkeys]
        simp [Table.keys, Table.size]
      rw [hlength]
      rfl
  | watermark =>
      simp only [Holdings.Performs, perform, operation, askTree, Routine.run_seq, Routine.run_ask,
        Routine.run_done, serve, records]
      cases hvalue : store.metadata.get? watermarkKey with
      | none =>
          have hheight : store.holdings.watermark = none := by simp [holdings, hvalue]
          rw [hheight]
          exact ⟨rfl, rfl⟩
      | some value => simp [holdings, hvalue, heightOf, h.height value hvalue, Except.map]
  | setWatermark height =>
      refine ⟨rfl, ?_⟩
      have hread : UInt64.ofNat (Bytes.ofNat 8 height.toNat).toNat = height := by
        have hlt : height.toNat < 256 ^ 8 := height.toNat_lt
        rw [Bytes.toNat_ofNat, Nat.mod_eq_of_lt hlt, UInt64.ofNat_toNat]
      have hget := Table.get?_insert store.metadata watermarkKey watermarkKey
        (Bytes.ofNat 8 height.toNat)
      rw [if_pos rfl] at hget
      ext1
      · rfl
      · exact (congrArg (Option.map _) hget).trans (congrArg some hread)

/-- The store on disk, each operation performed without anything in between. -/
def backend : OutpointStore where
  State := { store : DurableStore // store.Sound }
  perform call store := ((perform call store.1).1, ⟨(perform call store.1).2, store.2.perform call⟩)
  holdings store := store.1.holdings
  performs call store := performs store.2 call

end ChatRelay.DurableStore
