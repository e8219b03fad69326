import ChatRelay.Proofs.Holdings
import ChatRelay.Store.Memory

/-!
# The store in memory as a backend

The two tables agree as long as every cached message belongs to a recorded outpoint. Every
operation keeps that, and under it each operation does what its description says.
-/

namespace ChatRelay.MemoryStore

/-- No key stands twice, and messages are cached for recorded outpoints only. -/
structure Sound (store : MemoryStore) : Prop where
  nodup : store.recorded.keys.Nodup
  cached : ∀ outpoint, store.payloads.contains outpoint → store.recorded.contains outpoint

def holdings (store : MemoryStore) : Holdings where
  entries outpoint :=
    if store.recorded.contains outpoint then some (store.payloads.get? outpoint) else none
  watermark := store.watermark

theorem sound_empty : empty.Sound := ⟨List.nodup_nil, fun _ h => h⟩

@[simp] theorem recorded_holdings (store : MemoryStore) (outpoint : Outpoint) :
    store.holdings.recorded outpoint = store.recorded.contains outpoint := by
  by_cases h : store.recorded.contains outpoint <;> simp [Holdings.recorded, holdings, h]

theorem holdings_discard (store : MemoryStore) (outpoint : Outpoint) :
    (store.discard outpoint).holdings = store.holdings.discard [outpoint] := by
  ext1
  · funext other
    by_cases h : other = outpoint
    · simp [holdings, discard, Table.contains_erase, h]
    · simp [holdings, discard, Table.contains_erase, Table.get?_erase, h]
  · rfl

theorem Sound.discard {store : MemoryStore} (h : store.Sound) (outpoint : Outpoint) :
    (store.discard outpoint).Sound where
  nodup := Table.nodup_keys_erase h.nodup outpoint
  cached other hother := by
    simp only [MemoryStore.discard, Table.contains_erase, Bool.and_eq_true] at hother ⊢
    exact ⟨hother.1, h.cached other hother.2⟩

theorem Sound.prune {store : MemoryStore} (h : store.Sound) (outpoints : List Outpoint) :
    (store.prune outpoints).2.Sound := by
  induction outpoints generalizing store with
  | nil => exact h
  | cons first rest ih =>
      unfold MemoryStore.prune
      dsimp only
      split <;> exact ih (h.discard first)

/-- Removing outpoints one after another takes what is held of them and discards them all. -/
theorem prune_eq (store : MemoryStore) (outpoints : List Outpoint) :
    (store.prune outpoints).1 = store.holdings.taken outpoints ∧
      (store.prune outpoints).2.holdings = store.holdings.discard outpoints := by
  induction outpoints generalizing store with
  | nil => exact ⟨rfl, Holdings.discard_nil.symm⟩
  | cons first rest ih =>
      obtain ⟨htaken, hafter⟩ := ih (store.discard first)
      rw [holdings_discard] at htaken hafter
      rw [← Holdings.discard_cons] at hafter
      unfold prune Holdings.taken
      by_cases hfirst : store.recorded.contains first
      · have hentry : store.holdings.entries first = some (store.payloads.get? first) :=
          if_pos hfirst
        simp only [hfirst, if_true, hentry]
        exact ⟨congrArg _ htaken, hafter⟩
      · have hentry : store.holdings.entries first = none := if_neg hfirst
        rw [Holdings.discard_absent hentry] at htaken
        simp only [hfirst, hentry]
        exact ⟨htaken, hafter⟩

theorem Sound.perform {store : MemoryStore} (h : store.Sound) (call : StoreCall) :
    (perform call store).2.Sound := by
  cases call with
  | add outpoint =>
      unfold MemoryStore.perform
      dsimp only
      split
      · exact h
      · refine ⟨Table.nodup_keys_insert h.nodup outpoint (), fun other hother => ?_⟩
        simp only [Table.contains_insert, Bool.or_eq_true]
        exact .inr (h.cached other hother)
  | remove outpoint => exact h.discard outpoint
  | prune outpoints => exact h.prune outpoints
  | putPayload outpoint payload =>
      unfold MemoryStore.perform
      dsimp only
      split
      next hrecorded =>
        refine ⟨h.nodup, fun other hother => ?_⟩
        simp only [Table.contains_insert, Bool.or_eq_true, decide_eq_true_eq] at hother
        rcases hother with rfl | hother
        · exact hrecorded
        · exact h.cached other hother
      · exact h
  | setWatermark height => exact ⟨h.nodup, h.cached⟩
  | _ => exact h

theorem holdings_insert {store : MemoryStore} (h : store.Sound) {outpoint : Outpoint}
    (hnew : ¬ store.recorded.contains outpoint) :
    holdings { store with recorded := store.recorded.insert outpoint () } =
      store.holdings.enter outpoint none := by
  have hnone : store.payloads.get? outpoint = none := by
    have hcached : ¬ store.payloads.contains outpoint := fun hc => hnew (h.cached outpoint hc)
    simpa [Table.contains] using hcached
  ext1
  · funext other
    by_cases heq : other = outpoint
    · simp [holdings, Table.contains_insert, heq, hnone]
    · simp [holdings, Table.contains_insert, heq]
  · rfl

theorem holdings_cache {store : MemoryStore} {outpoint : Outpoint} (payload : Bytes)
    (hrecorded : store.recorded.contains outpoint) :
    holdings { store with payloads := store.payloads.insert outpoint payload } =
      store.holdings.enter outpoint (some payload) := by
  ext1
  · funext other
    by_cases heq : other = outpoint
    · simp [holdings, Table.get?_insert, heq, hrecorded]
    · simp [holdings, Table.get?_insert, heq]
  · rfl

theorem performs {store : MemoryStore} (h : store.Sound) (call : StoreCall) :
    Holdings.Performs call store.holdings (perform call store).1
      (perform call store).2.holdings := by
  cases call with
  | has outpoint => simp [Holdings.Performs, perform]
  | add outpoint =>
      by_cases hrecorded : store.recorded.contains outpoint
      · simp [Holdings.Performs, perform, hrecorded]
      · have hheld := holdings_insert h hrecorded
        simp only [Holdings.Performs, perform, recorded_holdings, hrecorded]
        exact ⟨rfl, hheld⟩
  | remove outpoint => exact ⟨rfl, holdings_discard store outpoint⟩
  | prune outpoints =>
      obtain ⟨htaken, hafter⟩ := prune_eq store outpoints
      exact ⟨congrArg Except.ok htaken, hafter⟩
  | payload outpoint =>
      refine ⟨?_, rfl⟩
      by_cases hrecorded : store.recorded.contains outpoint
      · simp [perform, holdings, hrecorded]
      · have hcached : ¬ store.payloads.contains outpoint :=
          fun hc => hrecorded (h.cached outpoint hc)
        have hnone : store.payloads.get? outpoint = none := by
          simpa [Table.contains] using hcached
        simp [perform, holdings, hrecorded, hnone]
  | putPayload outpoint payload =>
      by_cases hrecorded : store.recorded.contains outpoint
      · simp [Holdings.Performs, perform, hrecorded, holdings_cache payload hrecorded]
      · simp [Holdings.Performs, perform, hrecorded]
  | outpoints =>
      exact ⟨⟨_, rfl, h.nodup, fun o => by rw [recorded_holdings]; exact Table.mem_keys⟩, rfl⟩
  | size =>
      refine ⟨⟨store.recorded.keys, ?_, h.nodup, fun o => ?_⟩, rfl⟩
      · simp [perform, Table.keys, Table.size]
      · rw [recorded_holdings]
        exact Table.mem_keys
  | watermark => exact ⟨rfl, rfl⟩
  | setWatermark height => exact ⟨rfl, rfl⟩

def backend : OutpointStore where
  State := { store : MemoryStore // store.Sound }
  perform call store := ((perform call store.1).1, ⟨(perform call store.1).2, store.2.perform call⟩)
  holdings store := store.1.holdings
  performs call store := performs store.2 call

end ChatRelay.MemoryStore
