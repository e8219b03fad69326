import ChatRelay.Proofs.Backends.Durable
import ChatRelay.Proofs.Backends.Memory

/-!
# The backends agree

What an operation answers and what is held after it are determined by what is held before it, up
to the order in which recorded outpoints are listed. Two backends that hold the same therefore
answer alike after every history of operations, and both of them start out holding nothing.
-/

namespace ChatRelay

/-- What can be asked of a store: one of its operations, or the removal of outpoints that names
those that were recorded and keeps their messages to itself. -/
inductive StoreOperation where
  | single (call : StoreCall)
  | removeAll (outpoints : List Outpoint)

namespace StoreOperation

abbrev Answer : StoreOperation → Type
  | .single call => call.Answer
  | .removeAll _ => Except StoreError (List Outpoint)

variable {σ : Type}

/-- Performs an operation on a store with the given calls. -/
def perform (calls : (call : StoreCall) → σ → call.Answer × σ) :
    (operation : StoreOperation) → σ → operation.Answer × σ
  | .single call, store => calls call store
  | .removeAll outpoints, store =>
    let (answer, after) := calls (.prune outpoints) store
    (answer.map fun pruned => pruned.map (·.outpoint), after)

/-- The store after operations, performed one after the other. -/
def performAll (calls : (call : StoreCall) → σ → call.Answer × σ)
    (operations : List StoreOperation) (store : σ) : σ :=
  operations.foldl (fun store operation => (operation.perform calls store).2) store

/-- Two answers that say the same: the recorded outpoints are listed in any order. -/
def Same : (operation : StoreOperation) → operation.Answer → operation.Answer → Prop
  | .single .outpoints, first, second =>
    ∃ listed other : List Outpoint, first = .ok listed ∧ second = .ok other ∧ listed.Perm other
  | .single _, first, second => first = second
  | .removeAll _, first, second => first = second

end StoreOperation

namespace Holdings

variable {held after after' : Holdings}

/-- The recorded outpoints, listed without repetition, are the same list up to order. -/
theorem perm_of_mem_iff {listed other : List Outpoint} (hlisted : listed.Nodup)
    (hother : other.Nodup) (hmem : ∀ o, o ∈ listed ↔ held.recorded o)
    (hmem' : ∀ o, o ∈ other ↔ held.recorded o) : listed.Perm other := by
  apply (List.perm_ext_iff_of_nodup hlisted hother).mpr
  intro o
  rw [hmem, hmem']

/-- What is held before a call determines what is held after it. -/
theorem Performs.after_eq {call : StoreCall} {answer answer' : call.Answer}
    (h : Performs call held answer after) (h' : Performs call held answer' after') :
    after = after' := by
  cases call with
  | add outpoint =>
      rw [performs_add] at h h'
      split at h
      next hrecorded =>
        rw [if_pos hrecorded] at h'
        rw [h.2, h'.2]
      next hnew =>
        rw [if_neg hnew] at h'
        rw [h.2, h'.2]
  | _ => exact h.2.trans h'.2.symm

/-- What is held before a call determines its answer. -/
theorem Performs.same {call : StoreCall} {answer answer' : call.Answer}
    (h : Performs call held answer after) (h' : Performs call held answer' after') :
    StoreOperation.Same (.single call) answer answer' := by
  cases call with
  | add outpoint =>
      rw [performs_add] at h h'
      split at h
      next hrecorded =>
        rw [if_pos hrecorded] at h'
        exact h.1.trans h'.1.symm
      next hnew =>
        rw [if_neg hnew] at h'
        exact h.1.trans h'.1.symm
  | outpoints =>
      obtain ⟨⟨listed, hanswer, hlisted, hmem⟩, -⟩ := h
      obtain ⟨⟨other, hanswer', hother, hmem'⟩, -⟩ := h'
      exact ⟨listed, other, hanswer, hanswer', perm_of_mem_iff hlisted hother hmem hmem'⟩
  | size =>
      obtain ⟨⟨listed, hanswer, hlisted, hmem⟩, -⟩ := h
      obtain ⟨⟨other, hanswer', hother, hmem'⟩, -⟩ := h'
      have hperm : listed.Perm other := perm_of_mem_iff hlisted hother hmem hmem'
      change answer = answer'
      rw [hanswer, hanswer', hperm.length_eq]
  | _ => exact h.1.trans h'.1.symm

end Holdings

namespace MemoryStore

/-- A store in memory and one on disk that hold the same. -/
structure Mirrors (store : MemoryStore) (disk : DurableStore) : Prop where
  sound : store.Sound
  disk_sound : disk.Sound
  holdings : store.holdings = disk.holdings

theorem mirrors_empty : empty.Mirrors .empty where
  sound := sound_empty
  disk_sound := DurableStore.sound_empty
  holdings := by
    ext1
    · funext o
      simp [MemoryStore.holdings, DurableStore.holdings, empty, DurableStore.empty, Table.contains]
    · simp [MemoryStore.holdings, DurableStore.holdings, empty, DurableStore.empty]

variable {store : MemoryStore} {disk : DurableStore}

/-- A call is answered alike, and the stores hold the same after it. -/
theorem Mirrors.single (h : store.Mirrors disk) (call : StoreCall) :
    StoreOperation.Same (.single call) (store.perform call).1 (disk.perform call).1 ∧
      (store.perform call).2.Mirrors (disk.perform call).2 := by
  have hstore := performs h.sound call
  have hdisk := DurableStore.performs h.disk_sound call
  rw [← h.holdings] at hdisk
  exact ⟨hstore.same hdisk, h.sound.perform call, h.disk_sound.perform call, hstore.after_eq hdisk⟩

theorem Mirrors.perform (h : store.Mirrors disk) (operation : StoreOperation) :
    operation.Same (operation.perform MemoryStore.perform store).1
        (operation.perform DurableStore.perform disk).1 ∧
      (operation.perform MemoryStore.perform store).2.Mirrors
        (operation.perform DurableStore.perform disk).2 := by
  cases operation with
  | single call => exact h.single call
  | removeAll outpoints =>
      obtain ⟨hsame, hafter⟩ := h.single (.prune outpoints)
      exact ⟨congrArg (Except.map _) hsame, hafter⟩

theorem Mirrors.performAll (h : store.Mirrors disk) (operations : List StoreOperation) :
    (StoreOperation.performAll MemoryStore.perform operations store).Mirrors
      (StoreOperation.performAll DurableStore.perform operations disk) := by
  induction operations generalizing store disk with
  | nil => exact h
  | cons operation rest ih => exact ih (h.perform operation).2

end MemoryStore

/-- After any operations on two stores that were empty, the store in memory and the store on disk
answer every operation alike. -/
theorem backends_answer_alike (before : List StoreOperation) (operation : StoreOperation) :
    operation.Same
      (operation.perform MemoryStore.perform
        (StoreOperation.performAll MemoryStore.perform before .empty)).1
      (operation.perform DurableStore.perform
        (StoreOperation.performAll DurableStore.perform before .empty)).1 := by
  have hmirrors := MemoryStore.mirrors_empty.performAll before
  exact (hmirrors.perform operation).1

end ChatRelay
