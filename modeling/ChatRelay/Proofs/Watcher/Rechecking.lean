import ChatRelay.Proofs.Watcher.Parts

/-!
# What a poll with headers only removes

When the chain has grown, a poll with headers only looks up everything that is recorded. If each
lookup succeeds, the outpoints without an unspent output are removed, and else none is. So whatever
is removed was looked up in the same poll.
-/

namespace ChatRelay.Watcher

open Routine (Runs)

variable {ledger : (call : LedgerCall) → call.Answer} {held after : Holdings} {w : Watcher}
  {o : Outpoint}

/-- Serving with a ledger as it is given and with no failures of the store. -/
abbrev Consulting (ledger : (call : LedgerCall) → call.Answer) :
    (request : Request) → Holdings → request.Answer → Holdings → Prop :=
  Holdings.Serves (fun _ => False) fun call answer => answer = ledger call

/-- A poll over a backend, seen through what the store holds. -/
theorem runs_poll_consulting {B : OutpointStore} (ledger : (call : LedgerCall) → call.Answer)
    (w : Watcher) (s : B.State) :
    Runs (Consulting ledger) w.poll (B.holdings s) (w.poll.run (B.serveWith ledger) s).1
      (B.holdings (w.poll.run (B.serveWith ledger) s).2) := by
  have hserved : ∀ (request : Request) (state : B.State), Consulting ledger request
      (B.holdings state) (B.serveWith ledger request state).1
      (B.holdings (B.serveWith ledger request state).2) :=
    OutpointStore.serveWith_served fun _ => rfl
  exact Routine.runs_run B.holdings hserved w.poll s

/-- Whether an outpoint can be looked up. -/
def known (ledger : (call : LedgerCall) → call.Answer) (o : Outpoint) : Bool :=
  (ledger (.output o)).isOk

/-- Whether the ledger shows no unspent output for an outpoint. -/
def gone (ledger : (call : LedgerCall) → call.Answer) (o : Outpoint) : Bool :=
  match ledger (.output o) with
  | .ok output => !output.any (!·.spent)
  | .error _ => false

/-- Looking outpoints up finds those that are gone, unless some lookup fails. -/
theorem runs_lookUp_consulting {before outpoints : List Outpoint}
    {result : Except LedgerError (List Outpoint)}
    (hrun : Runs (Consulting ledger) (lookUp before outpoints) held result after) :
    after = held ∧
      if ∀ o ∈ outpoints, known ledger o then
        result = .ok (before.reverse ++ outpoints.filter (gone ledger))
      else ∃ cause, result = .error cause := by
  induction outpoints generalizing before with
  | nil =>
      obtain ⟨rfl, rfl⟩ := Routine.runs_pure.mp hrun
      simp
  | cons first rest ih =>
      obtain ⟨answer, middle, ⟨hanswer, rfl⟩, hrest⟩ := Routine.runs_ask_bind.mp hrun
      rcases answer with cause | output
      · obtain ⟨rfl, rfl⟩ := Routine.runs_pure.mp hrest
        have hfirst : ¬ known ledger first := by
          rw [known, ← hanswer]
          nofun
        refine ⟨rfl, ?_⟩
        rw [if_neg fun h => hfirst (h first List.mem_cons_self)]
        exact ⟨cause, rfl⟩
      · have hfirst : known ledger first := by
          rw [known, ← hanswer]
          rfl
        have hgone : gone ledger first = !output.any (!·.spent) := by simp [gone, ← hanswer]
        dsimp only at hrest
        split at hrest
        next hunspent =>
          obtain ⟨rfl, hresult⟩ := ih hrest
          simpa [hfirst, hgone, hunspent] using hresult
        next hmissing =>
          obtain ⟨rfl, hresult⟩ := ih hrest
          simpa [hfirst, hgone, hmissing] using hresult

/-- Rechecking removes what is gone, unless some lookup fails. -/
theorem runs_recheck_consulting {result : Except WatcherError Nat}
    (hrun : Runs (Consulting ledger) recheck held result after) :
    ((∀ o, held.recorded o → known ledger o) → (∃ count, result = .ok count) ∧
        ∀ o, after.entries o = if gone ledger o then none else held.entries o) ∧
      (¬ (∀ o, held.recorded o → known ledger o) → (∃ cause, result = .error cause) ∧
        after = held) := by
  obtain ⟨answer, middle, hserved, hlooks⟩ := Routine.runs_ask_bind.mp hrun
  obtain ⟨⟨listed, rfl, -, hlisted⟩, rfl⟩ := hserved.resolve_right fun h => h.1
  obtain ⟨found, middle', hlookUp, hprunes⟩ := Routine.runs_bind.mp hlooks
  obtain ⟨rfl, hfound⟩ := runs_lookUp_consulting hlookUp
  have hall : (∀ o ∈ listed, known ledger o) ↔ ∀ o, middle'.recorded o → known ledger o :=
    forall_congr' fun o => imp_congr_left (hlisted o)
  rw [← hall]
  by_cases hknown : ∀ o ∈ listed, known ledger o
  · rw [if_pos hknown] at hfound
    subst hfound
    obtain ⟨answer, middle, hserved, hdone⟩ := Routine.runs_ask_bind.mp hprunes
    obtain ⟨rfl, rfl⟩ := hserved.resolve_right fun h => h.1
    obtain ⟨rfl, rfl⟩ := Routine.runs_pure.mp hdone
    refine ⟨fun _ => ⟨⟨_, rfl⟩, fun o => ?_⟩, fun h => absurd hknown h⟩
    rw [Holdings.entries_discard, List.reverse_nil, List.nil_append]
    by_cases hrecorded : middle'.recorded o
    · simp [hlisted, hrecorded]
    · have hnone : middle'.entries o = none := by simpa [Holdings.recorded] using hrecorded
      simp [hnone]
  · rw [if_neg hknown] at hfound
    obtain ⟨cause, rfl⟩ := hfound
    obtain ⟨rfl, rfl⟩ := Routine.runs_pure.mp hprunes
    exact ⟨fun h => absurd h hknown, fun _ => ⟨⟨_, rfl⟩, rfl⟩⟩

/-- A poll comes to remove what is gone: the chain has grown, and every recorded outpoint can be
looked up. -/
structure Rechecks (ledger : (call : LedgerCall) → call.Answer) (w : Watcher) (held : Holdings) :
    Prop where
  grown : ∃ tip, ledger .height = .ok tip ∧ w.startOf held.watermark tip < tip
  looked : ∀ o, held.recorded o → known ledger o

/-- What a poll with headers only removes. -/
theorem runs_poll_removes (hheaders : ¬ w.settings.fullBlocks) {outcome : Outcome PollSummary}
    (hrun : Runs (Consulting ledger) w.poll held outcome after) (hrecorded : held.recorded o) :
    ¬ after.recorded o ↔ Rechecks ledger w held ∧ gone ledger o := by
  -- as long as nothing is removed, it suffices that the poll does not come to it
  have hkeeps (hsame : after = held) (hnot : ¬ Rechecks ledger w held) :
      ¬ after.recorded o ↔ Rechecks ledger w held ∧ gone ledger o :=
    ⟨fun h => absurd (hsame ▸ hrecorded) h, fun h => absurd h.1 hnot⟩
  rcases runs_poll hrun with ⟨cause, hanswer, -, rfl⟩ | ⟨tip, hanswer, hstart⟩
  · refine hkeeps rfl fun h => ?_
    obtain ⟨tip, htip, -⟩ := h.grown
    cases hanswer.trans htip
  rcases hstart with ⟨cause, -, hfails, -⟩ | ⟨begun, rfl, hpoll⟩
  · exact hfails.elim
  rw [if_neg hheaders] at hpoll
  unfold pollHeaders at hpoll
  split at hpoll
  next hgrown =>
    obtain ⟨result, middle, hrecheck, hrest⟩ := Routine.runs_bind.mp hpoll
    obtain ⟨hremoves, hfails⟩ := runs_recheck_consulting hrecheck
    by_cases hlooked : ∀ o, held.recorded o → known ledger o
    · obtain ⟨⟨count, rfl⟩, hentries⟩ := hremoves hlooked
      obtain ⟨advanced, middle', hadvance, hdone⟩ := Routine.runs_bind.mp hrest
      rcases runs_advance hadvance with ⟨rfl, rfl⟩ | ⟨-, hfails, -⟩
      · obtain ⟨rfl, rfl⟩ := Routine.runs_pure.mp hdone
        have hrechecks : Rechecks ledger w held := ⟨⟨tip, hanswer.symm, hgrown⟩, hlooked⟩
        have hafter : middle.recorded o = !gone ledger o := by
          rw [Holdings.recorded, hentries]
          cases gone ledger o
          · exact hrecorded
          · rfl
        change ¬ middle.recorded o ↔ _
        simp [hafter, hrechecks]
      · exact hfails.elim
    · obtain ⟨⟨cause, rfl⟩, rfl⟩ := hfails hlooked
      obtain ⟨rfl, rfl⟩ := Routine.runs_pure.mp hrest
      exact hkeeps rfl fun h => hlooked h.looked
  next hstill =>
    obtain ⟨rfl, rfl⟩ := Routine.runs_pure.mp hpoll
    refine hkeeps rfl fun h => ?_
    obtain ⟨tip', htip, hgrown⟩ := h.grown
    obtain rfl := Except.ok.inj (hanswer.trans htip)
    exact hstill hgrown

theorem removed_iff {B : OutpointStore} {s : B.State} (hheaders : ¬ w.settings.fullBlocks)
    (hrecorded : (B.holdings s).recorded o) :
    ¬ (B.holdings (w.poll.run (B.serveWith ledger) s).2).recorded o ↔
      Rechecks ledger w (B.holdings s) ∧ gone ledger o :=
  runs_poll_removes hheaders (runs_poll_consulting ledger w s) hrecorded

end ChatRelay.Watcher
