import ChatRelay.Proofs.Backends.Agreement
import ChatRelay.Proofs.Watcher.Sweeping

/-!
# Removing outpoints and recording them again

Removing outpoints takes a set out of what a store holds: repetitions and outpoints that are not
recorded make no difference, and removing two lists one after the other is removing them together.
What is returned is all that was lost, so recording it again in any order undoes the removal. That
is what the watcher relies on when it undoes orphaned blocks.
-/

namespace ChatRelay

namespace Holdings

variable {held : Holdings} {o : Outpoint} {outpoints : List Outpoint}

/-- An outpoint with the entry it has, if it is recorded. -/
def pruned? (held : Holdings) (o : Outpoint) : Option Pruned := (held.entries o).map (⟨o, ·⟩)

theorem discard_comm (held : Holdings) (o other : Outpoint) :
    (held.discard [o]).discard [other] = (held.discard [other]).discard [o] := by
  ext1
  · funext x
    by_cases h : x = o <;> by_cases h' : x = other <;> simp [h, h']
  · rfl

/-- What is taken without an outpoint is what is taken of the others. -/
theorem taken_discard (held : Holdings) (o : Outpoint) (outpoints : List Outpoint) :
    (held.discard [o]).taken outpoints = held.taken (outpoints.filter (· ≠ o)) := by
  induction outpoints generalizing held with
  | nil => rfl
  | cons first rest ih =>
      by_cases hfirst : first = o
      · have hnone : (held.discard [o]).entries first = none := by simp [hfirst]
        rw [taken, hnone, List.filter_cons_of_neg (by simpa using hfirst)]
        exact ih held
      · have hsame : (held.discard [o]).entries first = held.entries first := by simp [hfirst]
        rw [taken, hsame, List.filter_cons_of_pos (by simpa using hfirst), taken]
        cases held.entries first with
        | none => exact ih held
        | some entry =>
            dsimp only
            rw [discard_comm, ih]

/-- What is taken are the recorded ones among outpoints, each once and where it first appears, with
their entries. -/
theorem taken_eq (held : Holdings) (outpoints : List Outpoint) :
    held.taken outpoints = outpoints.eraseDups.filterMap held.pruned? := by
  match outpoints with
  | [] => rfl
  | first :: rest =>
      have hothers : rest.filter (fun o => !o == first) = rest.filter (· ≠ first) :=
        List.filter_congr fun o _ => by simp [beq_eq_decide]
      have hrest : (held.discard [first]).taken rest =
          (rest.filter (· ≠ first)).eraseDups.filterMap held.pruned? :=
        (taken_discard held first rest).trans (taken_eq held _)
      rw [List.eraseDups_cons, hothers, List.filterMap_cons, ← hrest, pruned?, taken]
      cases hentry : held.entries first with
      | none =>
          rw [discard_absent hentry]
          rfl
      | some entry => rfl
termination_by outpoints.length
decreasing_by exact Nat.lt_succ_of_le (List.length_filter_le ..)

/-- What two lists of outpoints take one after the other they take together. -/
theorem taken_append (held : Holdings) (outpoints more : List Outpoint) :
    held.taken (outpoints ++ more) =
      held.taken outpoints ++ (held.discard outpoints).taken more := by
  induction outpoints generalizing held with
  | nil =>
      rw [discard_nil]
      rfl
  | cons first rest ih =>
      rw [List.cons_append, taken, taken, discard_cons rest]
      cases hentry : held.entries first with
      | none =>
          rw [discard_absent hentry]
          exact ih held
      | some entry => exact congrArg (_ :: ·) (ih _)

/-- What has been taken cannot be taken again. -/
theorem taken_discard_self (held : Holdings) (outpoints : List Outpoint) :
    (held.discard outpoints).taken outpoints = [] := by
  refine List.eq_nil_iff_forall_not_mem.mpr fun pruned hpruned => ?_
  obtain ⟨hmem, hentry⟩ := mem_taken.mp hpruned
  rw [entries_discard, if_pos hmem] at hentry
  cases hentry

@[simp] theorem watermark_putBackAll (held : Holdings) (pruned : List Pruned) :
    (held.putBackAll pruned).watermark = held.watermark := by
  induction pruned generalizing held with
  | nil => rfl
  | cons first rest ih => exact (ih _).trans (watermark_putBack first)

/-- Putting back what was taken, in any order, undoes the removal. -/
theorem putBackAll_of_perm {order : List Pruned} (horder : order.Perm (held.taken outpoints)) :
    (held.discard outpoints).putBackAll order = held := by
  ext1
  · funext o
    rw [entries_putBackAll, entries_discard]
    cases hfound : order.find? (·.outpoint = o) with
    | some pruned =>
        have hmem := horder.mem_iff.mp (List.mem_of_find?_eq_some hfound)
        obtain rfl : pruned.outpoint = o := by simpa using List.find?_some hfound
        obtain ⟨hlisted, hentry⟩ := mem_taken.mp hmem
        rw [if_pos hlisted, hentry]
        rfl
    | none =>
        by_cases hlisted : o ∈ outpoints
        · -- it was not recorded, else it would have been taken
          have hnone : held.entries o = none := by
            refine Option.eq_none_iff_forall_ne_some.mpr fun entry hentry => ?_
            have htaken : ⟨o, entry⟩ ∈ order := horder.mem_iff.mpr (mem_taken.mpr ⟨hlisted, hentry⟩)
            simpa using List.find?_eq_none.mp hfound _ htaken
          rw [if_pos hlisted, hnone]
          rfl
        · rw [if_neg hlisted]
          exact Option.or_none
  · simp

end Holdings

namespace OutpointStore

variable {B : OutpointStore} {s : B.State} {held : Holdings}

/-- What can be seen of a store: which outpoints are recorded, the messages and the height. -/
structure Shows (B : OutpointStore) (s : B.State) (held : Holdings) : Prop where
  has : ∀ o, (B.perform (.has o) s).1 = .ok (held.recorded o)
  payload : ∀ o, (B.perform (.payload o) s).1 = .ok (held.entries o).join
  watermark : (B.perform .watermark s).1 = .ok held.watermark

theorem shows (B : OutpointStore) (s : B.State) : B.Shows s (B.holdings s) where
  has o := (B.performs (.has o) s).1
  payload o := (B.performs (.payload o) s).1
  watermark := (B.performs .watermark s).1

/-- Removing lists of outpoints one after the other is removing them together. -/
def JoinsPrunes (B : OutpointStore) : Prop :=
  ∀ (s : B.State) (outpoints more : List Outpoint),
    let first := B.perform (.prune outpoints) s
    let second := B.perform (.prune more) first.2
    B.perform (.prune (outpoints ++ more)) s =
      (first.1.bind fun taken => second.1.map (taken ++ ·), second.2)

/-- What is returned and left when outpoints are removed from a store that shows some contents. -/
structure Removal (B : OutpointStore) (s : B.State) (held : Holdings) (outpoints : List Outpoint)
    (taken : List Pruned) (after : B.State) : Prop where
  performs : B.perform (.prune outpoints) s = (.ok taken, after)
  /-- The recorded ones, each once and where it first appears, with the messages they had. -/
  returns : taken = outpoints.eraseDups.filterMap held.pruned?
  /-- These are gone with their messages, and everything else is as it was. -/
  leaves : B.Shows after (held.discard outpoints)
  again : (B.perform (.prune outpoints) after).1 = .ok []
  joins : ∀ more, B.perform (.prune (outpoints ++ more)) s =
    ((B.perform (.prune more) after).1.map (taken ++ ·), (B.perform (.prune more) after).2)
  /-- Recording again what was returned, in any order, restores everything. -/
  undone : ∀ order, order.Perm taken → ∀ ledger, ∃ restored,
    (Watcher.restore 0 order).run (B.serveWith ledger) after = (.ok order.length, restored) ∧
      B.Shows restored held

/-- Messages are cached for recorded outpoints only, and every removal can be undone. -/
structure PrunesReversibly (B : OutpointStore) (s : B.State) : Prop where
  cached : ∀ o payload, (B.perform (.payload o) s).1 = .ok (some payload) →
    (B.perform (.has o) s).1 = .ok true
  removal : ∃ held, B.Shows s held ∧
    ∀ outpoints, ∃ taken after, B.Removal s held outpoints taken after

/-- Outpoints that are not recorded are all recorded again with their messages. -/
theorem exists_restore_run (ledger : (call : LedgerCall) → call.Answer) (before : Nat)
    (pruned : List Pruned) (s : B.State) (hnodup : (pruned.map (·.outpoint)).Nodup)
    (hgone : ∀ p ∈ pruned, ¬ (B.holdings s).recorded p.outpoint) :
    ∃ t, (Watcher.restore before pruned).run (B.serveWith ledger) s =
        (.ok (before + pruned.length), t) ∧
      B.holdings t = (B.holdings s).putBackAll pruned := by
  induction pruned generalizing before s with
  | nil => exact ⟨s, rfl, rfl⟩
  | cons first rest ih =>
      obtain ⟨o, entry⟩ := first
      rw [List.map_cons, List.nodup_cons] at hnodup
      have hnew := hgone _ List.mem_cons_self
      -- whether or not it has a message, the outpoint is recorded with what it had
      obtain ⟨u, hrun, hheld⟩ : ∃ u, (Watcher.restore before (⟨o, entry⟩ :: rest)).run
            (B.serveWith ledger) s =
          (Watcher.restore (before + 1) rest).run (B.serveWith ledger) u ∧
          B.holdings u = (B.holdings s).putBack ⟨o, entry⟩ := by
        have hback : (B.holdings s).putBack ⟨o, entry⟩ = (B.holdings s).enter o entry :=
          if_neg hnew
        have hadd := B.performs (.add o) s
        rw [Holdings.performs_add, if_neg hnew] at hadd
        cases entry with
        | none =>
            refine ⟨(B.perform (.add o) s).2, ?_, hadd.2.trans hback.symm⟩
            simp only [Watcher.restore, askStore, Routine.run_seq, Routine.run_ask,
              Routine.run_done, serveWith, hadd.1]
        | some payload =>
            have hput := B.performs (.putPayload o payload) (B.perform (.add o) s).2
            refine ⟨(B.perform (.putPayload o payload) (B.perform (.add o) s).2).2, ?_, ?_⟩
            · simp only [Watcher.restore, askStore, Routine.run_seq, Routine.run_ask,
                Routine.run_done, serveWith, hadd.1, hput.1]
            · rw [hput.2, hadd.2, hback, if_pos (by simp), Holdings.enter_enter]
      have hgone' : ∀ p ∈ rest, ¬ (B.holdings u).recorded p.outpoint := by
        intro p hp
        have hne : p.outpoint ≠ o := fun h => hnodup.1 (List.mem_map.mpr ⟨p, hp, h⟩)
        have hentry : (B.holdings u).entries p.outpoint = (B.holdings s).entries p.outpoint := by
          rw [hheld, Holdings.entries_putBack, if_neg hne, Option.or_none]
        rw [Holdings.recorded, hentry]
        exact hgone p (List.mem_cons_of_mem _ hp)
      obtain ⟨t, hrest, hafter⟩ := ih (before + 1) u hnodup.2 hgone'
      refine ⟨t, ?_, ?_⟩
      · rw [hrun, hrest, List.length_cons, Nat.add_right_comm, Nat.add_assoc]
      · rw [hafter, hheld]
        rfl

/-- A removal can be undone. -/
theorem removal (hjoins : B.JoinsPrunes) (s : B.State) (outpoints : List Outpoint) :
    ∃ taken after, B.Removal s (B.holdings s) outpoints taken after := by
  obtain ⟨⟨answer, after⟩, hperform⟩ : ∃ p, B.perform (.prune outpoints) s = p := ⟨_, rfl⟩
  have hperforms := B.performs (.prune outpoints) s
  rw [hperform] at hperforms
  obtain ⟨rfl, hafter⟩ := hperforms
  refine ⟨_, after, hperform, Holdings.taken_eq _ _, hafter ▸ B.shows after, ?_,
    fun more => ?_, fun order horder ledger => ?_⟩
  · rw [(B.performs (.prune outpoints) after).1, hafter, Holdings.taken_discard_self]
  · rw [hjoins, hperform]
    rfl
  · have hnodup : (order.map (·.outpoint)).Nodup :=
      (horder.map _).nodup_iff.mpr (Holdings.nodup_taken _ _)
    have hgone : ∀ p ∈ order, ¬ (B.holdings after).recorded p.outpoint := by
      intro p hp
      have hlisted := (Holdings.mem_taken.mp (horder.mem_iff.mp hp)).1
      simp [hafter, hlisted]
    obtain ⟨restored, hrun, hrestored⟩ :=
      exists_restore_run ledger 0 order after hnodup hgone
    rw [hafter, Holdings.putBackAll_of_perm horder] at hrestored
    exact ⟨restored, by rw [hrun, Nat.zero_add], hrestored ▸ B.shows restored⟩

theorem prunesReversibly (hjoins : B.JoinsPrunes) (s : B.State) : B.PrunesReversibly s where
  cached o payload hpayload := by
    rw [(B.shows s).payload] at hpayload
    rw [(B.shows s).has, Holdings.recorded]
    cases hentry : (B.holdings s).entries o with
    | none =>
        rw [hentry] at hpayload
        cases Except.ok.inj hpayload
    | some entry => rfl
  removal := ⟨B.holdings s, B.shows s, removal hjoins s⟩

end OutpointStore

namespace MemoryStore

theorem prune_append (store : MemoryStore) (outpoints more : List Outpoint) :
    store.prune (outpoints ++ more) =
      ((store.prune outpoints).1 ++ ((store.prune outpoints).2.prune more).1,
        ((store.prune outpoints).2.prune more).2) := by
  induction outpoints generalizing store with
  | nil => rfl
  | cons first rest ih =>
      rw [List.cons_append, prune, prune, ih]
      by_cases hfirst : store.recorded.contains first <;> simp [hfirst]

theorem joinsPrunes : backend.JoinsPrunes := by
  intro s outpoints more first second
  have hpruned := congrArg Prod.fst (prune_append s.1 outpoints more)
  have hleft := congrArg Prod.snd (prune_append s.1 outpoints more)
  exact Prod.ext (congrArg Except.ok hpruned) (Subtype.ext hleft)

end MemoryStore

namespace DurableStore

theorem discard_append (store : DurableStore) (outpoints more : List Outpoint) :
    store.discard (outpoints ++ more) = (store.discard outpoints).discard more := by
  simp only [discard, unlist, uncache, List.foldl_append, List.map_append, Table.filterKeys,
    List.filter_filter]
  congr 3
  funext entry
  simp [Bool.and_comm]

theorem joinsPrunes : backend.JoinsPrunes := by
  intro s outpoints more first second
  have hanswer : (perform (.prune (outpoints ++ more)) s.1).1 =
      first.1.bind fun taken => second.1.map (taken ++ ·) := by
    change _ = (perform (.prune outpoints) s.1).1.bind fun taken =>
      (perform (.prune more) (perform (.prune outpoints) s.1).2).1.map (taken ++ ·)
    rw [perform_prune, perform_prune, perform_prune, holdings_discard, Holdings.taken_append]
    rfl
  have hafter : (perform (.prune (outpoints ++ more)) s.1).2 = second.2.1 := by
    change _ = (perform (.prune more) (perform (.prune outpoints) s.1).2).2
    rw [perform_prune, perform_prune, perform_prune, discard_append]
  exact Prod.ext hanswer (Subtype.ext hafter)

end DurableStore

/-- After any operations on a store that was empty, in memory or on disk, messages are cached for
recorded outpoints only, and outpoints can be removed and recorded again as if nothing had
happened. -/
theorem prunes_reversibly (before : List StoreOperation) :
    MemoryStore.backend.PrunesReversibly (StoreOperation.performAll MemoryStore.backend.perform
        before ⟨.empty, MemoryStore.sound_empty⟩) ∧
      DurableStore.backend.PrunesReversibly (StoreOperation.performAll DurableStore.backend.perform
        before ⟨.empty, DurableStore.sound_empty⟩) :=
  ⟨OutpointStore.prunesReversibly MemoryStore.joinsPrunes _,
    OutpointStore.prunesReversibly DurableStore.joinsPrunes _⟩

end ChatRelay
