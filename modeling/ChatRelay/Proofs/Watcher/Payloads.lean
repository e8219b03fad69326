import ChatRelay.Watcher
import ChatRelay.Proofs.Interference
import ChatRelay.Proofs.Service

/-!
# Where the watcher's messages come from

The watcher caches messages only when it undoes blocks, and then only those that it took out of the
store before. So whoever vouches for what is cached, and goes on to do so, vouches for what the
watcher caches.
-/

namespace ChatRelay

open Routine (Terms Secures)

/-- What a store holds, and which messages are vouched for. -/
structure Vouching where
  held : Holdings
  vouched : Outpoint → Bytes → Prop

namespace Vouching

/-- Every cached message is vouched for. -/
def Sound (v : Vouching) : Prop := ∀ o b, v.held.entries o = some (some b) → v.vouched o b

variable {fails : StoreCall → Prop} {answers : (call : LedgerCall) → call.Answer → Prop}

/-- Only caching brings a message into the store. -/
theorem sound_of_served {request : Request} {answer : request.Answer} {v w : Vouching}
    (h : request.Served Holdings.Performs fails answers v.held answer w.held)
    (hvouched : w.vouched = v.vouched) (hv : v.Sound)
    (hput : ∀ o b, request = .store (.putPayload o b) → v.vouched o b) : w.Sound := by
  intro o b hentry
  rw [hvouched]
  cases request with
  | ledger call =>
      rw [h.2] at hentry
      exact hv o b hentry
  | store call =>
      rcases h.store with hperforms | ⟨-, hsame⟩
      · cases call with
        | add outpoint =>
            rw [Holdings.performs_add] at hperforms
            split at hperforms
            next =>
              rw [hperforms.2] at hentry
              exact hv o b hentry
            next =>
              rw [hperforms.2, Holdings.entries_enter] at hentry
              split at hentry
              · cases hentry
              · exact hv o b hentry
        | putPayload outpoint payload =>
            rw [hperforms.2] at hentry
            split at hentry
            next =>
              rw [Holdings.entries_enter] at hentry
              split at hentry
              next heq =>
                cases hentry
                exact heq ▸ hput outpoint b rfl
              next => exact hv o b hentry
            next => exact hv o b hentry
        | remove outpoint =>
            rw [hperforms.2, Holdings.entries_discard] at hentry
            split at hentry
            · cases hentry
            · exact hv o b hentry
        | prune outpoints =>
            rw [hperforms.2, Holdings.entries_discard] at hentry
            split at hentry
            · cases hentry
            · exact hv o b hentry
        | setWatermark height =>
            rw [hperforms.2] at hentry
            exact hv o b hentry
        | _ =>
            rw [hperforms.2] at hentry
            exact hv o b hentry
      · rw [hsame] at hentry
        exact hv o b hentry

/-- The terms of a watcher among others that vouch for what they cache. -/
def terms (fails : StoreCall → Prop) (answers : (call : LedgerCall) → call.Answer → Prop) :
    Terms Request.Answer Vouching where
  rely v w := ∀ o b, v.vouched o b → w.vouched o b
  serves request v answer w :=
    v.Sound ∧ request.Served Holdings.Performs fails answers v.held answer w.held ∧
      w.vouched = v.vouched
  guarantee _ w := w.Sound
  rely_refl _ _ _ h := h
  rely_trans h h' o b hv := h' o b (h o b hv)

end Vouching

namespace Watcher

variable {fails : StoreCall → Prop} {answers : (call : LedgerCall) → call.Answer → Prop}
  {v : Vouching}

/-- What was pruned is vouched for. -/
def Vouched (v : Vouching) (pruned : List Pruned) : Prop :=
  ∀ p ∈ pruned, ∀ b, p.payload = some b → v.vouched p.outpoint b

/-- What remembered blocks have pruned is vouched for. -/
def Recalls (v : Vouching) (blocks : List ScannedBlock) : Prop :=
  ∀ block ∈ blocks, Vouched v block.pruned

theorem recalls_append {blocks more : List ScannedBlock} :
    Recalls v (blocks ++ more) ↔ Recalls v blocks ∧ Recalls v more :=
  List.forall_mem_append

theorem Vouched.rely {w : Vouching} {pruned : List Pruned} (h : Vouched v pruned)
    (hrely : (Vouching.terms fails answers).rely v w) : Vouched w pruned :=
  fun p hp b hb => hrely _ _ (h p hp b hb)

theorem Recalls.rely {w : Vouching} {blocks : List ScannedBlock} (h : Recalls v blocks)
    (hrely : (Vouching.terms fails answers).rely v w) : Recalls w blocks :=
  fun block hblock => (h block hblock).rely hrely

/-- A request that caches nothing. -/
theorem served_mild {request : Request} {answer : request.Answer} {w : Vouching}
    (h : (Vouching.terms fails answers).serves request v answer w)
    (hmild : ∀ o b, request ≠ .store (.putPayload o b)) :
    (Vouching.terms fails answers).guarantee v w :=
  Vouching.sound_of_served h.2.1 h.2.2 h.1 fun o b heq => absurd heq (hmild o b)

theorem serves_rely {request : Request} {answer : request.Answer} {w : Vouching}
    (h : (Vouching.terms fails answers).serves request v answer w) :
    (Vouching.terms fails answers).rely v w := by
  intro o b hv
  rwa [h.2.2]

/-- After a request that caches nothing, what was kept is kept. -/
theorem secures_mild {α : Type} {request : Request}
    {next : request.Answer → Routine Request.Answer α} {last : α → Vouching → Prop}
    {kept : Vouching → Prop} (hmild : ∀ o b, request ≠ .store (.putPayload o b))
    (hkept : kept v) (hstays : ∀ {v w}, (Vouching.terms fails answers).rely v w → kept v → kept w)
    (hnext : ∀ answer t u, (Vouching.terms fails answers).serves request t answer u → kept u →
      Secures (Vouching.terms fails answers) (next answer) last u) :
    Secures (Vouching.terms fails answers) (.ask request .done >>= next) last v := by
  apply Secures.ask
  intro t hrely answer u hserved
  exact ⟨served_mild hserved hmild,
    hnext answer t u hserved (hstays (serves_rely hserved) (hstays hrely hkept))⟩

theorem recalls_mild {α : Type} {request : Request}
    {next : request.Answer → Routine Request.Answer α} {last : α → Vouching → Prop}
    {blocks : List ScannedBlock} (hmild : ∀ o b, request ≠ .store (.putPayload o b))
    (hblocks : Recalls v blocks)
    (hnext : ∀ answer t u, (Vouching.terms fails answers).serves request t answer u →
      Recalls u blocks → Secures (Vouching.terms fails answers) (next answer) last u) :
    Secures (Vouching.terms fails answers) (.ask request .done >>= next) last v :=
  secures_mild hmild hblocks (fun hrely h => Recalls.rely h hrely) hnext

theorem recalls_advance (w : Watcher) (height : UInt64) (hw : Recalls v w.recent) :
    Secures (Vouching.terms fails answers) (w.advance height)
      (fun outcome v => Recalls v outcome.2.recent) v := by
  refine recalls_mild (by simp) hw fun answer _ u _ hu => ?_
  cases answer with
  | ok _ => exact fun _ hlast => hu.rely hlast
  | error cause => exact fun _ hlast => hu.rely hlast

/-- What is taken out of the store was cached. -/
theorem vouched_of_pruned {outpoints : List Outpoint} {pruned : List Pruned} {w : Vouching}
    (h : (Vouching.terms fails answers).serves (.store (.prune outpoints)) v (.ok pruned) w) :
    Vouched w pruned := by
  intro p hp b hb
  have hperforms := h.2.1.performed
  obtain rfl := Except.ok.inj hperforms.1
  rw [h.2.2]
  exact h.1 _ _ (hb ▸ (Holdings.mem_taken.mp hp).2)

theorem recalls_remember {w : Watcher} (hw : Recalls v w.recent) (block : ScannedBlock)
    (hblock : Vouched v block.pruned) : Recalls v (w.remember block).recent := by
  intro remembered hmem
  rcases List.mem_cons.mp (List.mem_of_mem_take hmem) with rfl | hmem
  · exact hblock
  · exact hw remembered hmem

theorem recalls_scan (w : Watcher) (before : Nat × Nat) (height : UInt64) (count : Nat)
    (hw : Recalls v w.recent) :
    Secures (Vouching.terms fails answers) (w.scan before height count)
      (fun outcome v => Recalls v outcome.2.recent) v := by
  induction count generalizing w before height v with
  | zero => exact fun _ hlast => hw.rely hlast
  | succ count ih =>
      refine recalls_mild (by simp) hw fun answer _ u _ hu => ?_
      cases answer with
      | error cause => exact fun _ hlast => hu.rely hlast
      | ok block =>
          refine recalls_mild (by simp) hu fun answer _ y hpruned hy => ?_
          cases answer with
          | error cause => exact fun _ hlast => hy.rely hlast
          | ok pruned =>
              apply (recalls_advance _ height (recalls_remember hy ⟨height, block.hash, pruned⟩
                (vouched_of_pruned hpruned))).bind
              intro outcome z hz
              obtain ⟨result, w⟩ := outcome
              cases result with
              | error cause => exact fun _ hlast => hz.rely hlast
              | ok _ => exact ih w _ _ hz

/-- Walking back splits the remembered blocks. -/
theorem recalls_walkBack (tip : UInt64) (orphaned recent : List ScannedBlock)
    (horphaned : Recalls v orphaned) (hrecent : Recalls v recent) :
    Secures (Vouching.terms fails answers) (walkBack tip orphaned recent)
      (fun walked v => (∀ blocks, walked.1 = .ok blocks → Recalls v blocks) ∧
        Recalls v walked.2) v := by
  have hreverse : ∀ {w : Vouching} {orphaned : List ScannedBlock}, Recalls w orphaned →
      Recalls w orphaned.reverse := fun h block hblock => h block (List.mem_reverse.mp hblock)
  induction recent generalizing orphaned v with
  | nil =>
      intro t hlast
      refine ⟨fun blocks hblocks => ?_, hrecent.rely hlast⟩
      obtain rfl := Except.ok.inj hblocks
      exact hreverse (horphaned.rely hlast)
  | cons block rest ih =>
      unfold walkBack
      split
      next =>
        refine recalls_mild (by simp) (recalls_append.mpr ⟨horphaned, hrecent⟩)
          fun answer _ u _ hu => ?_
        obtain ⟨horphaned, hrecent⟩ := recalls_append.mp hu
        cases answer with
        | error cause => exact fun _ hlast => ⟨by simp, hrecent.rely hlast⟩
        | ok hash =>
            dsimp only
            split
            next =>
              intro x hlast
              refine ⟨fun blocks hblocks => ?_, hrecent.rely hlast⟩
              obtain rfl := Except.ok.inj hblocks
              exact hreverse (horphaned.rely hlast)
            next =>
              obtain ⟨hblock, hrest⟩ := List.forall_mem_cons.mp hrecent
              exact ih _ (List.forall_mem_cons.mpr ⟨hblock, horphaned⟩) hrest
      next =>
        obtain ⟨hblock, hrest⟩ := List.forall_mem_cons.mp hrecent
        exact ih _ (List.forall_mem_cons.mpr ⟨hblock, horphaned⟩) hrest

theorem secures_restore_vouched (before : Nat) (pruned : List Pruned) (hpruned : Vouched v pruned) :
    Secures (Vouching.terms fails answers) (restore before pruned) (fun _ _ => True) v := by
  induction pruned generalizing before v with
  | nil => exact fun _ _ => trivial
  | cons first rest ih =>
      obtain ⟨outpoint, payload⟩ := first
      refine secures_mild (by simp) hpruned (fun hrely h => Vouched.rely h hrely)
        fun answer _ u _ hu => ?_
      obtain ⟨hfirst, hrest⟩ := List.forall_mem_cons.mp hu
      rcases answer with cause | _
      · cases cause with
        | alreadyPresent _ => exact ih before hrest
        | _ => exact fun _ _ => trivial
      · cases payload with
        | none => exact ih _ hrest
        | some payload =>
            -- the one request that brings a message into the store
            apply Secures.ask
            intro x hrely answer y hput
            refine ⟨Vouching.sound_of_served hput.2.1 hput.2.2 hput.1 ?_, ?_⟩
            · rintro o b heq
              cases heq
              exact hrely _ _ (hfirst payload rfl)
            cases answer with
            | error cause => exact fun _ _ => trivial
            | ok _ => exact ih _ ((Vouched.rely hrest hrely).rely (serves_rely hput))

theorem recalls_reconcile (w : Watcher) (tip : UInt64) (hw : Recalls v w.recent) :
    Secures (Vouching.terms fails answers) (w.reconcile tip)
      (fun outcome v => Recalls v outcome.2.recent) v := by
  apply (recalls_walkBack tip [] w.recent (by simp [Recalls]) hw).bind
  intro walked t ⟨hwalked, hleft⟩
  obtain ⟨result, recent⟩ := walked
  cases result with
  | error cause => exact fun _ hlast => hleft.rely hlast
  | ok orphaned =>
      have horphaned := hwalked orphaned rfl
      dsimp only
      split
      · exact fun _ hlast => hleft.rely hlast
      · apply ((secures_restore_vouched 0 _ fun p hp => ?_).keeps hleft
          (fun hrely h => Recalls.rely h hrely)
          fun hserved h => Recalls.rely h (serves_rely hserved)).bind
        · intro restored u ⟨_, hu⟩
          cases restored with
          | error cause => exact fun _ hlast => hu.rely hlast
          | ok restored =>
              apply (recalls_advance _ _ hu).bind
              intro outcome x hx
              obtain ⟨result, w⟩ := outcome
              cases result with
              | error cause => exact fun _ hlast => hx.rely hlast
              | ok _ => exact fun _ hlast => hx.rely hlast
        · obtain ⟨block, hblock, hp⟩ := List.mem_flatMap.mp hp
          exact horphaned block hblock p hp

theorem recalls_startHeight (w : Watcher) (tip : UInt64) (hw : Recalls v w.recent) :
    Secures (Vouching.terms fails answers) (w.startHeight tip) (fun _ v => Recalls v w.recent)
      v := by
  unfold startHeight
  cases w.lastHeight with
  | some height => exact fun _ hlast => hw.rely hlast
  | none =>
      refine recalls_mild (by simp) hw fun answer _ u _ hu => ?_
      rcases answer with cause | watermark
      · exact fun _ hlast => hu.rely hlast
      · cases watermark with
        | none => exact fun _ hlast => hu.rely hlast
        | some height => exact fun _ hlast => hu.rely hlast

theorem recalls_lookUp (before outpoints : List Outpoint) {kept : List ScannedBlock}
    (hkept : Recalls v kept) :
    Secures (Vouching.terms fails answers) (lookUp before outpoints) (fun _ v => Recalls v kept)
      v := by
  induction outpoints generalizing before v with
  | nil => exact fun _ hlast => hkept.rely hlast
  | cons outpoint rest ih =>
      refine recalls_mild (by simp) hkept fun answer _ u _ hu => ?_
      cases answer with
      | error cause => exact fun _ hlast => hu.rely hlast
      | ok output =>
          dsimp only
          split
          · exact ih _ hu
          · exact ih _ hu

theorem recalls_recheck {kept : List ScannedBlock} (hkept : Recalls v kept) :
    Secures (Vouching.terms fails answers) recheck (fun _ v => Recalls v kept) v := by
  refine recalls_mild (by simp) hkept fun answer _ u _ hu => ?_
  cases answer with
  | error cause => exact fun _ hlast => hu.rely hlast
  | ok outpoints =>
      apply (recalls_lookUp [] outpoints hu).bind
      intro found x hx
      cases found with
      | error cause => exact fun _ hlast => hx.rely hlast
      | ok gone =>
          refine recalls_mild (by simp) hx fun answer _ z _ hz => ?_
          cases answer with
          | error cause => exact fun _ hlast => hz.rely hlast
          | ok pruned => exact fun _ hlast => hz.rely hlast

theorem recalls_pollFull (w : Watcher) (last tip : UInt64) (hw : Recalls v w.recent) :
    Secures (Vouching.terms fails answers) (w.pollFull last tip)
      (fun outcome v => Recalls v outcome.2.recent) v := by
  apply (recalls_reconcile w tip hw).bind
  intro outcome t ht
  obtain ⟨result, w⟩ := outcome
  cases result with
  | error cause => exact fun _ hlast => ht.rely hlast
  | ok restored =>
      apply (recalls_scan w _ _ _ ht).bind
      intro outcome u hu
      obtain ⟨result, w⟩ := outcome
      cases result with
      | error cause => exact fun _ hlast => hu.rely hlast
      | ok _ => exact fun _ hlast => hu.rely hlast

theorem recalls_pollHeaders (w : Watcher) (last tip : UInt64) (hw : Recalls v w.recent) :
    Secures (Vouching.terms fails answers) (w.pollHeaders last tip)
      (fun outcome v => Recalls v outcome.2.recent) v := by
  unfold pollHeaders
  split
  next =>
    apply (recalls_recheck hw).bind
    intro pruned t ht
    cases pruned with
    | error cause => exact fun _ hlast => ht.rely hlast
    | ok pruned =>
        apply (recalls_advance w tip ht).bind
        intro outcome u hu
        obtain ⟨result, w⟩ := outcome
        cases result with
        | error cause => exact fun _ hlast => hu.rely hlast
        | ok _ => exact fun _ hlast => hu.rely hlast
  next => exact fun _ hlast => hw.rely hlast

/-- A poll caches what is vouched for, if what the watcher remembers is, and remembers no other. -/
theorem recalls_poll (w : Watcher) (hw : Recalls v w.recent) :
    Secures (Vouching.terms fails answers) w.poll (fun outcome v => Recalls v outcome.2.recent)
      v := by
  refine recalls_mild (by simp) hw fun answer _ u _ hu => ?_
  cases answer with
  | error cause => exact fun _ hlast => hu.rely hlast
  | ok tip =>
      apply (recalls_startHeight w tip hu).bind
      intro started x hx
      cases started with
      | error cause => exact fun _ hlast => hx.rely hlast
      | ok last =>
          dsimp only
          split
          · exact recalls_pollFull _ last tip hx
          · exact recalls_pollHeaders _ last tip hx

end Watcher

end ChatRelay
