import ChatRelay.Proofs.Transcripts
import ChatRelay.Proofs.Watcher.Retrying
import Mathlib.Data.List.Chain

/-!
# What a poll with full blocks removes

A poll asks for a block, removes what the block spends, and notes the block's height. Without the
block it does not go on. So each removal stands directly behind a block that was had, and nothing
stands behind one that was not.
-/

namespace ChatRelay

open Routine (Comes)

/-- A transcript in which blocks that are had are followed by the removal of what they spend,
nothing else is removed, and nothing is asked once a block was not had. -/
structure PrunesSpends (transcript : List (Answered Request.Answer)) : Prop where
  missed : ∀ {before height cause later},
    transcript = before ++ ⟨.ledger (.block height), .error cause⟩ :: later → later = []
  spent : ∀ {before height block next later},
    transcript = before ++ ⟨.ledger (.block height), .ok block⟩ :: next :: later →
      next.question = .store (.prune block.spentOutpoints)
  removed : ∀ {before outpoints answer later},
    transcript = before ++ ⟨.store (.prune outpoints), answer⟩ :: later →
      ∃ earlier height block, before = earlier ++ [⟨.ledger (.block height), .ok block⟩] ∧
        outpoints = block.spentOutpoints

namespace Answered

/-- How two neighbours in such a transcript are related. -/
structure Precedes (said next : Answered Request.Answer) : Prop where
  had : ∀ height cause, said ≠ ⟨.ledger (.block height), .error cause⟩
  spent : ∀ height block, said = ⟨.ledger (.block height), .ok block⟩ →
    next.question = .store (.prune block.spentOutpoints)
  removed : ∀ outpoints, next.question = .store (.prune outpoints) →
    ∃ height block, said = ⟨.ledger (.block height), .ok block⟩ ∧
      outpoints = block.spentOutpoints

/-- Whether something else was asked than a block. -/
def NoBlock (said : Answered Request.Answer) : Prop :=
  ∀ height, said.question ≠ .ledger (.block height)

variable {said next : Answered Request.Answer}

theorem NoBlock.of_steady (h : said.question.Steady) : said.NoBlock := by
  intro height hblock
  rw [hblock] at h
  exact h

theorem NoBlock.precedes (hsaid : said.NoBlock)
    (hnext : ∀ outpoints, next.question ≠ .store (.prune outpoints)) : said.Precedes next where
  had := by
    rintro height cause rfl
    exact hsaid height rfl
  spent := by
    rintro height block rfl
    exact absurd rfl (hsaid height)
  removed outpoints h := absurd h (hnext outpoints)

theorem NoBlock.precedes_steady (hsaid : said.NoBlock) (hnext : next.question.Steady) :
    said.Precedes next := by
  refine hsaid.precedes fun outpoints h => ?_
  rw [h] at hnext
  exact hnext

theorem NoBlock.prune {outpoints : List Outpoint}
    {answer : Request.Answer (.store (.prune outpoints))} :
    NoBlock ⟨.store (.prune outpoints), answer⟩ := by
  intro height h
  cases h

theorem NoBlock.height {answer : Request.Answer (.ledger .height)} :
    NoBlock ⟨.ledger .height, answer⟩ := by
  intro height h
  cases h

/-- What is asked before a block is no block. -/
theorem NoBlock.precedes_block (hsaid : said.NoBlock) (height : UInt64)
    (answer : Request.Answer (.ledger (.block height))) :
    said.Precedes ⟨.ledger (.block height), answer⟩ := by
  refine hsaid.precedes fun outpoints h => ?_
  cases h

theorem precedes_prune (height : UInt64) (block : LedgerBlock)
    (answer : Request.Answer (.store (.prune block.spentOutpoints))) :
    Precedes ⟨.ledger (.block height), .ok block⟩
      ⟨.store (.prune block.spentOutpoints), answer⟩ where
  had height' cause h := by cases h
  spent height' block' h := by
    cases h
    rfl
  removed outpoints h := by
    cases h
    exact ⟨height, block, rfl, rfl⟩

end Answered

section

variable {said : Answered Request.Answer} {first second transcript : List (Answered Request.Answer)}

/-- The neighbours make a transcript what it should be, if what precedes it is no block. -/
theorem PrunesSpends.of_isChain (hsaid : said.NoBlock)
    (hchain : (said :: transcript).IsChain Answered.Precedes) : PrunesSpends transcript where
  missed {before height cause later} h := by
    cases later with
    | nil => rfl
    | cons next later =>
        rw [h, ← List.cons_append, List.isChain_append_cons_cons] at hchain
        exact absurd rfl (hchain.2.1.had height cause)
  spent {before height block next later} h := by
    rw [h, ← List.cons_append, List.isChain_append_cons_cons] at hchain
    exact hchain.2.1.spent height block rfl
  removed {before outpoints answer later} h := by
    rcases before.eq_nil_or_concat with rfl | ⟨earlier, last, rfl⟩
    · rw [h, List.nil_append, List.isChain_cons_cons] at hchain
      obtain ⟨height, block, rfl, -⟩ := hchain.1.removed outpoints rfl
      exact absurd rfl (hsaid height)
    · rw [h, List.concat_eq_append, List.append_assoc, List.singleton_append, ← List.cons_append,
        List.isChain_append_cons_cons] at hchain
      obtain ⟨height, block, rfl, hspent⟩ := hchain.2.1.removed outpoints rfl
      exact ⟨earlier, height, block, List.concat_eq_append, hspent⟩

/-- Where neither blocks nor removals are asked for, only what follows matters. -/
theorem isChain_append_of_steady (hsaid : said.NoBlock)
    (hfirst : ∀ said ∈ first, said.question.Steady)
    (hsecond : ∀ said : Answered Request.Answer, said.NoBlock →
      (said :: second).IsChain Answered.Precedes) :
    (said :: (first ++ second)).IsChain Answered.Precedes := by
  induction first generalizing said with
  | nil => exact hsecond said hsaid
  | cons next first ih =>
      obtain ⟨hnext, hrest⟩ := List.forall_mem_cons.mp hfirst
      exact .cons_cons (hsaid.precedes_steady hnext) (ih (.of_steady hnext) hrest)

theorem isChain_of_bind {α β : Type} {r : Routine Request.Answer α}
    {f : α → Routine Request.Answer β} {rest : Routine Request.Answer β}
    (hasks : r.Asks Request.Steady) (h : Comes (r >>= f) transcript rest)
    (hf : ∀ x said second, said.NoBlock → Comes (f x) second rest →
      (said :: second).IsChain Answered.Precedes) (hsaid : said.NoBlock) :
    (said :: transcript).IsChain Answered.Precedes := by
  rcases h.of_bind with ⟨middle, hfirst⟩ | ⟨first, second, x, rfl, hfirst, hsecond⟩
  · rw [← transcript.append_nil]
    exact isChain_append_of_steady hsaid (hfirst.forall_asks hasks) fun said _ => .singleton said
  · exact isChain_append_of_steady hsaid (hfirst.forall_asks hasks) fun said hsaid =>
      hf x said second hsaid hsecond

end

namespace Watcher

variable {w : Watcher} {transcript : List (Answered Request.Answer)}

/-- The neighbours in the transcript of a scan, by induction on how many heights it scans. -/
theorem isChain_scan {said : Answered Request.Answer} {before : Nat × Nat} {height : UInt64}
    {count : Nat} {rest : Routine Request.Answer (Outcome (Nat × Nat))} (hsaid : said.NoBlock)
    (h : Comes (w.scan before height count) transcript rest) :
    (said :: transcript).IsChain Answered.Precedes := by
  induction count generalizing w said before height transcript with
  | zero =>
      obtain ⟨rfl, -⟩ := Comes.of_done h
      exact .singleton said
  | succ count ih =>
      rw [scan] at h
      obtain rfl | ⟨answer, later, rfl, hblock⟩ := Comes.of_ask h
      · exact .singleton said
      refine .cons_cons (hsaid.precedes_block height answer) ?_
      cases answer with
      | error cause =>
          obtain ⟨rfl, -⟩ := Comes.of_done hblock
          exact .singleton _
      | ok block =>
          obtain rfl | ⟨answer, later, rfl, hprune⟩ := Comes.of_ask hblock
          · exact .singleton _
          refine .cons_cons (Answered.precedes_prune height block answer) ?_
          cases answer with
          | error cause =>
              obtain ⟨rfl, -⟩ := Comes.of_done hprune
              exact .singleton _
          | ok pruned =>
              refine isChain_of_bind (asks_advance _ height) hprune ?_ .prune
              intro outcome said second hsaid hsecond
              obtain ⟨result, v⟩ := outcome
              cases result with
              | error cause =>
                  obtain ⟨rfl, -⟩ := Comes.of_done hsecond
                  exact .singleton said
              | ok _ => exact ih hsaid hsecond

theorem isChain_scanOn {said : Answered Request.Answer} {prepared : Outcome (UInt64 × Nat × UInt64)}
    {rest : Routine Request.Answer (Outcome PollSummary)} (hsaid : said.NoBlock)
    (h : Comes (scanOn prepared) transcript rest) :
    (said :: transcript).IsChain Answered.Precedes := by
  obtain ⟨result, v⟩ := prepared
  cases result with
  | error cause =>
      obtain ⟨rfl, -⟩ := Comes.of_done h
      exact .singleton said
  | ok prepared =>
      rcases Comes.of_bind h with ⟨middle, hfirst⟩ | ⟨first, second, x, rfl, hfirst, hsecond⟩
      · exact isChain_scan hsaid hfirst
      · obtain ⟨rfl, -⟩ := Comes.of_done hsecond
        rw [List.append_nil]
        exact isChain_scan hsaid hfirst

/-- Whatever a poll with full blocks has asked so far, and whatever it was answered. -/
theorem prunesSpends_poll (hfull : w.settings.fullBlocks)
    {rest : Routine Request.Answer (Outcome PollSummary)} (h : Comes w.poll transcript rest) :
    PrunesSpends transcript := by
  rw [poll_eq_prepare hfull] at h
  have hheight : Answered.NoBlock ⟨.ledger .height, .ok 0⟩ := .height
  exact .of_isChain hheight <| isChain_of_bind (asks_prepare w) h
    (fun prepared said second hsaid hsecond => isChain_scanOn hsaid hsecond) hheight

end Watcher

end ChatRelay
