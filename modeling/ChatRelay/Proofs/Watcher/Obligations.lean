import ChatRelay.Watcher
import ChatRelay.Proofs.Interference
import ChatRelay.Proofs.Service

/-!
# Obligations of a poll

Most requests of a poll remove nothing from the store. Under terms that allow all of these, a poll
is secure as soon as its removals are: those of a scan, which follow the block they come from, and
those of a recheck.
-/

namespace ChatRelay

open Routine (Terms Secures)

namespace Watcher

variable {σ : Type}

/-- Terms under which a watcher may do what removes nothing, and may remove what a block spends
once it has been shown the block. -/
structure Allows (terms : Terms Request.Answer σ) : Prop where
  mild : ∀ {request s answer t}, ¬ request.Removes → terms.serves request s answer t →
    terms.guarantee s t
  prune : ∀ {height block s t u answer v}, terms.serves (.ledger (.block height)) s (.ok block) t →
    terms.rely t u → terms.serves (.store (.prune block.spentOutpoints)) u answer v →
    terms.guarantee u v

variable {terms : Terms Request.Answer σ} (h : Allows terms)

include h

theorem secures_advance (w : Watcher) (height : UInt64) (s : σ) :
    Secures terms (w.advance height) (fun _ _ => True) s := by
  apply Secures.ask
  intro t _ answer u hserved
  refine ⟨h.mild id hserved, ?_⟩
  cases answer with
  | ok _ => exact fun _ _ => trivial
  | error cause => exact fun _ _ => trivial

theorem secures_scan (w : Watcher) (before : Nat × Nat) (height : UInt64) (count : Nat) (s : σ) :
    Secures terms (w.scan before height count) (fun _ _ => True) s := by
  induction count generalizing w before height s with
  | zero => exact fun _ _ => trivial
  | succ count ih =>
      apply Secures.ask
      intro t _ answer u hshown
      refine ⟨h.mild id hshown, ?_⟩
      cases answer with
      | error cause => exact fun _ _ => trivial
      | ok block =>
          apply Secures.ask
          intro v hrely answer x hserved
          refine ⟨h.prune hshown hrely hserved, ?_⟩
          cases answer with
          | error cause => exact fun _ _ => trivial
          | ok pruned =>
              apply (secures_advance h _ height x).bind
              intro outcome y _
              obtain ⟨result, w⟩ := outcome
              cases result with
              | error cause => exact fun _ _ => trivial
              | ok _ => exact ih w _ _ y

theorem secures_walkBack (tip : UInt64) (orphaned recent : List ScannedBlock) (s : σ) :
    Secures terms (walkBack tip orphaned recent) (fun _ _ => True) s := by
  induction recent generalizing orphaned s with
  | nil => exact fun _ _ => trivial
  | cons block rest ih =>
      unfold walkBack
      split
      next =>
        apply Secures.ask
        intro t _ answer u hserved
        refine ⟨h.mild id hserved, ?_⟩
        cases answer with
        | error cause => exact fun _ _ => trivial
        | ok hash =>
            dsimp only
            split
            · exact fun _ _ => trivial
            · exact ih _ u
      next => exact ih _ s

theorem secures_restore (before : Nat) (pruned : List Pruned) (s : σ) :
    Secures terms (restore before pruned) (fun _ _ => True) s := by
  induction pruned generalizing before s with
  | nil => exact fun _ _ => trivial
  | cons first rest ih =>
      obtain ⟨outpoint, payload⟩ := first
      apply Secures.ask
      intro t _ answer u hserved
      refine ⟨h.mild id hserved, ?_⟩
      rcases answer with cause | _
      · cases cause with
        | alreadyPresent _ => exact ih before u
        | _ => exact fun _ _ => trivial
      · cases payload with
        | none => exact ih _ u
        | some payload =>
            apply Secures.ask
            intro v _ answer x hserved
            refine ⟨h.mild id hserved, ?_⟩
            cases answer with
            | error cause => exact fun _ _ => trivial
            | ok _ => exact ih _ x

theorem secures_reconcile (w : Watcher) (tip : UInt64) (s : σ) :
    Secures terms (w.reconcile tip) (fun _ _ => True) s := by
  apply (secures_walkBack h tip [] w.recent s).bind
  intro walked t _
  obtain ⟨result, recent⟩ := walked
  cases result with
  | error cause => exact fun _ _ => trivial
  | ok orphaned =>
      dsimp only
      split
      · exact fun _ _ => trivial
      · apply (secures_restore h 0 _ t).bind
        intro restored u _
        cases restored with
        | error cause => exact fun _ _ => trivial
        | ok restored =>
            apply (secures_advance h _ _ u).bind
            intro outcome v _
            obtain ⟨result, w⟩ := outcome
            cases result with
            | error cause => exact fun _ _ => trivial
            | ok _ => exact fun _ _ => trivial

theorem secures_startHeight (w : Watcher) (tip : UInt64) (s : σ) :
    Secures terms (w.startHeight tip) (fun _ _ => True) s := by
  unfold startHeight
  cases w.lastHeight with
  | some height => exact fun _ _ => trivial
  | none =>
      apply Secures.ask
      intro t _ answer u hserved
      refine ⟨h.mild id hserved, ?_⟩
      rcases answer with cause | watermark
      · exact fun _ _ => trivial
      · cases watermark with
        | none => exact fun _ _ => trivial
        | some height => exact fun _ _ => trivial

theorem secures_pollFull (w : Watcher) (last tip : UInt64) (s : σ) :
    Secures terms (w.pollFull last tip) (fun _ _ => True) s := by
  apply (secures_reconcile h w tip s).bind
  intro outcome t _
  obtain ⟨result, w⟩ := outcome
  cases result with
  | error cause => exact fun _ _ => trivial
  | ok restored =>
      apply (secures_scan h w _ _ _ t).bind
      intro outcome u _
      obtain ⟨result, w⟩ := outcome
      cases result with
      | error cause => exact fun _ _ => trivial
      | ok _ => exact fun _ _ => trivial

/-- A poll is secure if a recheck is. -/
theorem secures_poll (hrecheck : ∀ s, Secures terms recheck (fun _ _ => True) s) (w : Watcher)
    (s : σ) : Secures terms w.poll (fun _ _ => True) s := by
  apply Secures.ask
  intro t _ answer u hserved
  refine ⟨h.mild id hserved, ?_⟩
  cases answer with
  | error cause => exact fun _ _ => trivial
  | ok tip =>
      apply (secures_startHeight h w tip u).bind
      intro started v _
      cases started with
      | error cause => exact fun _ _ => trivial
      | ok last =>
          dsimp only
          split
          next => exact secures_pollFull h _ last tip v
          next =>
            unfold pollHeaders
            split
            next =>
              apply (hrecheck v).bind
              intro pruned x _
              cases pruned with
              | error cause => exact fun _ _ => trivial
              | ok pruned =>
                  apply (secures_advance h _ tip x).bind
                  intro outcome y _
                  obtain ⟨result, w⟩ := outcome
                  cases result with
                  | error cause => exact fun _ _ => trivial
                  | ok _ => exact fun _ _ => trivial
            next => exact fun _ _ => trivial

end Watcher

end ChatRelay
