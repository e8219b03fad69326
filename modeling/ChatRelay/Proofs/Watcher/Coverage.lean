import ChatRelay.Proofs.Discipline
import ChatRelay.Proofs.Watcher.Parts

/-!
# What a watcher has scanned

While the chain only grows, every remembered block stays on it, and a poll with full blocks undoes
nothing. It scans the heights behind the start one after the other, so that what the blocks up to
the scanned height spend has been pruned. The watcher's own requests tell where it has begun and
what it has pruned.
-/

namespace ChatRelay

open Routine (Terms Secures)

/-- What the watcher has asked, in order. -/
def Scene.watches (s : Scene) : List Event := s.log.filter (·.asker = .watcher)

/-- What the watcher knows of where to begin: the tip that it has been shown last, and the height
behind which it has begun. -/
structure Beginning where
  tip : Option UInt64
  start : Option UInt64

/-- A watcher begins once the store has told it the scanned height, or that there is none. -/
def Beginning.after (settings : WatcherSettings) (b : Beginning) (e : Event) : Beginning :=
  match e with
  | ⟨_, .ledger .height, .ok tip⟩ => { b with tip := some tip }
  | ⟨_, .store .watermark, .ok watermark⟩ =>
    { b with start := b.start.or (b.tip.map ((Watcher.start settings).startOf watermark)) }
  | _ => b

def Scene.beginning (s : Scene) (settings : WatcherSettings) : Beginning :=
  s.watches.foldl (Beginning.after settings) ⟨none, none⟩

/-- What every block above one height and up to another spends has been pruned. -/
def Scene.Scanned (s : Scene) (low high : Nat) : Prop :=
  ∀ n, low < n → n ≤ high → ∃ block pruned, s.chain.blocks[n]? = some block ∧
    ⟨.watcher, .store (.prune block.spentOutpoints), .ok pruned⟩ ∈ s.watches

/-- The requests of a poll that undoes nothing. -/
def Request.Scans : Request → Prop
  | .ledger _ | .store .watermark | .store (.setWatermark _) | .store (.prune _) => True
  | _ => False

/-- A watcher relies on the chain growing and on nobody else asking in its name. -/
def scanTerms : Terms Request.Answer Scene where
  rely s t := s.chain.Grows t.chain ∧ t.watches = s.watches
  serves := Scene.Serves .watcher
  guarantee s t := ∃ request answer, request.Scans ∧ Scene.Serves .watcher request s answer t
  rely_refl _ := ⟨.refl _, rfl⟩
  rely_trans h h' := ⟨h.1.trans h'.1, h'.2.trans h.2⟩

variable {settings : WatcherSettings} {s t : Scene} {w : Watcher} {start tip : UInt64}

theorem Scene.Serves.watches_watcher {request : Request} {answer : request.Answer}
    (h : Scene.Serves .watcher request s answer t) :
    t.watches = s.watches ++ [⟨.watcher, request, answer⟩] := by
  simp [Scene.watches, h.log]

theorem Scene.Serves.watches_admission {i : Nat} {request : Request} {answer : request.Answer}
    (h : Scene.Serves (.admission i) request s answer t) : t.watches = s.watches := by
  simp [Scene.watches, h.log]

theorem Scene.Serves.beginning {request : Request} {answer : request.Answer}
    (h : Scene.Serves .watcher request s answer t) :
    t.beginning settings = (s.beginning settings).after settings ⟨.watcher, request, answer⟩ := by
  simp [Scene.beginning, h.watches_watcher]

/-- Where a watcher has begun is settled once and for all. -/
theorem Beginning.start_after {b : Beginning} (h : b.start = some start) (e : Event) :
    (b.after settings e).start = some start := by
  unfold Beginning.after
  split
  · exact h
  · simp [h]
  · exact h

namespace Watcher

/-- A watcher that has begun behind a height: its remembered blocks are on the chain, and the
blocks up to its scanned height have been scanned. -/
structure Abreast (settings : WatcherSettings) (start : UInt64) (w : Watcher) (s : Scene) :
    Prop where
  configured : w.settings = settings
  begun : (s.beginning settings).start = some start
  recent : ∀ scanned ∈ w.recent, ∃ block,
    s.chain.blocks[scanned.height.toNat]? = some block ∧ block.hash = scanned.hash
  scanned : ∃ last, w.lastHeight = some last ∧ s.Scanned start.toNat last.toNat

theorem Abreast.relied (hrely : scanTerms.rely s t) (h : Abreast settings start w s) :
    Abreast settings start w t := by
  obtain ⟨hgrows, hwatches⟩ := hrely
  obtain ⟨last, hlast, hscanned⟩ := h.scanned
  refine ⟨h.configured, ?_, fun scanned hmem => ?_, last, hlast, fun n hlow hhigh => ?_⟩
  · rw [Scene.beginning, hwatches]
    exact h.begun
  · obtain ⟨block, hblock, hhash⟩ := h.recent scanned hmem
    exact ⟨block, hgrows.getElem? hblock, hhash⟩
  · obtain ⟨block, pruned, hblock, hpruned⟩ := hscanned n hlow hhigh
    exact ⟨block, pruned, hgrows.getElem? hblock, hwatches ▸ hpruned⟩

theorem Abreast.served {request : Request} {answer : request.Answer}
    (hserves : scanTerms.serves request s answer t) (h : Abreast settings start w s) :
    Abreast settings start w t := by
  obtain ⟨last, hlast, hscanned⟩ := h.scanned
  refine ⟨h.configured, ?_, ?_, last, hlast, fun n hlow hhigh => ?_⟩
  · rw [hserves.beginning]
    exact Beginning.start_after h.begun _
  · rw [hserves.chain]
    exact h.recent
  · obtain ⟨block, pruned, hblock, hpruned⟩ := hscanned n hlow hhigh
    rw [hserves.chain, hserves.watches_watcher]
    exact ⟨block, pruned, hblock, List.mem_append_left _ hpruned⟩

theorem Abreast.remember (h : Abreast settings start w s) {height : UInt64}
    {block : LedgerBlock} {pruned : List Pruned}
    (hnext : ∀ last ∈ w.lastHeight, height.toNat ≤ last.toNat + 1)
    (hblock : s.chain.blocks[height.toNat]? = some block)
    (hpruned : ⟨.watcher, .store (.prune block.spentOutpoints), .ok pruned⟩ ∈ s.watches) :
    Abreast settings start
      { w.remember ⟨height, block.hash, pruned⟩ with lastHeight := some height } s where
  configured := h.configured
  begun := h.begun
  recent scanned hmem := by
    rcases List.mem_cons.mp (List.mem_of_mem_take hmem) with rfl | hmem
    · exact ⟨block, hblock, rfl⟩
    · exact h.recent scanned hmem
  scanned := by
    obtain ⟨last, hlast, hscanned⟩ := h.scanned
    refine ⟨height, rfl, fun n hlow hhigh => ?_⟩
    have hheight := hnext last hlast
    rcases Nat.lt_or_eq_of_le hhigh with hlt | rfl
    · exact hscanned n hlow (by omega)
    · exact ⟨block, pruned, hblock, hpruned⟩

theorem scans_guarantee {request : Request} {answer : request.Answer}
    (hserves : scanTerms.serves request s answer t) (hscans : request.Scans) :
    scanTerms.guarantee s t :=
  ⟨request, answer, hscans, hserves⟩

theorem secures_advance_abreast {height : UInt64}
    (h : Abreast settings start { w with lastHeight := some height } s) :
    Secures scanTerms (w.advance height)
      (fun outcome t => outcome.2 = { w with lastHeight := some height } ∧
        Abreast settings start outcome.2 t) s := by
  -- either way the watcher takes the height as scanned
  have hadvance : Secures scanTerms (w.advance height)
      (fun outcome _ => outcome.2 = { w with lastHeight := some height }) s := by
    apply Secures.ask
    intro t _ answer u hserves
    refine ⟨scans_guarantee hserves trivial, ?_⟩
    cases answer with
    | ok _ => exact fun _ _ => rfl
    | error cause => exact fun _ _ => rfl
  apply (hadvance.keeps h Abreast.relied Abreast.served).mono
  rintro outcome t ⟨hsame, habreast⟩
  exact ⟨hsame, hsame ▸ habreast⟩

theorem Abreast.secures_scan (h : Abreast settings start w s) {before : Nat × Nat}
    {height : UInt64} {count : Nat} (hcount : height.toNat + count ≤ UInt64.size)
    (hnext : ∀ last ∈ w.lastHeight, height.toNat ≤ last.toNat + 1) :
    Secures scanTerms (w.scan before height count)
      (fun outcome t => Abreast settings start outcome.2 t) s := by
  induction count generalizing w before height s with
  | zero => exact fun t hrely => h.relied hrely
  | succ count ih =>
      apply Secures.ask
      intro t hrely answer u hserves
      refine ⟨scans_guarantee hserves trivial, ?_⟩
      have hu : Abreast settings start w u := (h.relied hrely).served hserves
      cases answer with
      | error cause => exact fun v hrely => hu.relied hrely
      | ok block =>
          have hblock : u.chain.blocks[height.toNat]? = some block := by
            rw [hserves.chain]
            exact hserves.served.1.block
          apply Secures.ask
          intro v hrely answer x hserves
          refine ⟨scans_guarantee hserves trivial, ?_⟩
          have hx : Abreast settings start w x := (hu.relied hrely).served hserves
          cases answer with
          | error cause => exact fun y hrely => hx.relied hrely
          | ok pruned =>
              have hstill : x.chain.blocks[height.toNat]? = some block := by
                rw [hserves.chain]
                exact hrely.1.getElem? hblock
              have hpruned : ⟨.watcher, .store (.prune block.spentOutpoints), .ok pruned⟩ ∈
                  x.watches := by
                simp [hserves.watches_watcher]
              -- the chain may have grown since the block was shown, but keeps it
              have hadvance := secures_advance_abreast (hx.remember hnext hstill hpruned)
              apply hadvance.bind
              rintro ⟨result, w'⟩ y ⟨hsame, hy⟩
              cases result with
              | error cause => exact fun z hrely => hy.relied hrely
              | ok _ =>
                  obtain rfl : w' = _ := hsame
                  -- behind the last height there is none, and then nothing is left to scan
                  have hsucc : (height + 1).toNat = (height.toNat + 1) % UInt64.size :=
                    UInt64.toNat_add height 1
                  have hle := Nat.mod_le (height.toNat + 1) UInt64.size
                  refine ih hy ?_ fun last hlast => ?_
                  · omega
                  · obtain rfl := Option.some.inj hlast
                    omega

/-- Nothing is orphaned while the newest remembered block is on the chain. -/
theorem secures_walkBack_abreast {recent : List ScannedBlock}
    (hchain : ∀ scanned ∈ recent, ∃ block,
      s.chain.blocks[scanned.height.toNat]? = some block ∧ block.hash = scanned.hash)
    (htip : ∀ scanned ∈ recent, scanned.height ≤ tip) :
    Secures scanTerms (walkBack tip [] recent)
      (fun walked _ => walked.2 = recent ∧ ∀ orphaned, walked.1 = .ok orphaned → orphaned = [])
      s := by
  cases recent with
  | nil => exact fun _ _ => ⟨rfl, fun _ h => (Except.ok.inj h).symm⟩
  | cons scanned rest =>
      unfold walkBack
      rw [if_pos (htip scanned List.mem_cons_self)]
      apply Secures.ask
      intro t hrely answer u hserves
      refine ⟨scans_guarantee hserves trivial, ?_⟩
      cases answer with
      | error cause => exact fun _ _ => ⟨rfl, fun _ h => by cases h⟩
      | ok hash =>
          obtain ⟨block, hblock, hhash⟩ := hchain scanned List.mem_cons_self
          obtain ⟨shown, hshown, hsame⟩ := hserves.served.1.hash
          rw [hrely.1.getElem? hblock, Option.some.injEq] at hshown
          -- a chain that only grows shows the hash that was remembered
          have heq : hash = scanned.hash := by rw [← hsame, ← hshown, hhash]
          dsimp only
          rw [if_pos heq]
          exact fun _ _ => ⟨rfl, fun _ h => (Except.ok.inj h).symm⟩

theorem Abreast.secures_reconcile (h : Abreast settings start w s)
    (htip : ∀ scanned ∈ w.recent, scanned.height ≤ tip) :
    Secures scanTerms (w.reconcile tip)
      (fun outcome t => outcome.2 = w ∧ Abreast settings start outcome.2 t) s := by
  have hreconcile : Secures scanTerms (w.reconcile tip) (fun outcome _ => outcome.2 = w) s := by
    apply (secures_walkBack_abreast h.recent htip).bind
    rintro ⟨result, recent⟩ t ⟨hrecent, horphaned⟩
    obtain rfl : recent = w.recent := hrecent
    cases result with
    | error cause => exact fun _ _ => rfl
    | ok orphaned =>
        obtain rfl : orphaned = [] := horphaned orphaned rfl
        exact fun _ _ => rfl
  apply (hreconcile.keeps h Abreast.relied Abreast.served).mono
  rintro outcome t ⟨hsame, habreast⟩
  exact ⟨hsame, hsame ▸ habreast⟩

theorem toNat_heightAfter_le (height : UInt64) :
    (heightAfter height).toNat ≤ height.toNat + 1 := by
  unfold heightAfter
  split
  · omega
  · rw [UInt64.toNat_add]
    exact Nat.mod_le _ _

theorem Abreast.secures_pollFull (h : Abreast settings start w s) (last : UInt64)
    (htip : ∀ scanned ∈ w.recent, scanned.height ≤ tip) :
    Secures scanTerms (w.pollFull last tip)
      (fun outcome t => Abreast settings start outcome.2 t) s := by
  apply (h.secures_reconcile htip).bind
  rintro ⟨result, w'⟩ t ⟨hsame, ht⟩
  obtain rfl : w' = w := hsame
  cases result with
  | error cause => exact fun u hrely => ht.relied hrely
  | ok restored =>
      obtain ⟨scanned, hscanned, -⟩ := ht.scanned
      have hlt := (heightAfter scanned).toNat_lt_size
      have htip := tip.toNat_lt_size
      dsimp only
      rw [hscanned, Option.getD_some]
      refine (ht.secures_scan ?_ fun last hlast => ?_).bind ?_
      · unfold scanCount
        omega
      · rw [hscanned] at hlast
        obtain rfl := Option.some.inj hlast
        exact toNat_heightAfter_le scanned
      · rintro ⟨result, w''⟩ u hu
        cases result with
        | error cause => exact fun v hrely => hu.relied hrely
        | ok counts => exact fun v hrely => hu.relied hrely

/-- A watcher between two polls: it has not begun yet, or it is abreast of the chain. -/
def Rested (settings : WatcherSettings) (w : Watcher) (s : Scene) : Prop :=
  (w = Watcher.start settings ∧ (s.beginning settings).start = none) ∨
    ∃ start, Abreast settings start w s

theorem Rested.relied (hrely : scanTerms.rely s t) (h : Rested settings w s) :
    Rested settings w t := by
  rcases h with ⟨hstart, hbeginning⟩ | ⟨start, habreast⟩
  · refine .inl ⟨hstart, ?_⟩
    rw [Scene.beginning, hrely.2]
    exact hbeginning
  · exact .inr ⟨start, habreast.relied hrely⟩

/-- The blocks of a watcher that is abreast of a chain are not above the tip. -/
theorem Abreast.le_tip (h : Abreast settings start w s)
    (hanswer : s.chain.Answers .height (.ok tip)) : ∀ scanned ∈ w.recent, scanned.height ≤ tip := by
  intro scanned hmem
  obtain ⟨block, hblock, -⟩ := h.recent scanned hmem
  rw [hanswer.tip]
  exact UInt64.le_iff_toNat_le.mpr (Chain.le_tip_of_block hblock)

/-- Once the tip is known, the watcher begins where the store says or the depth tells it, unless it
has begun already. -/
theorem Rested.secures_startHeight (h : Rested settings w s)
    (htip : (s.beginning settings).tip = some tip) :
    Secures scanTerms (w.startHeight tip)
      (fun result t => match result with
        | .error _ => Rested settings w t
        | .ok last => ∃ start, Abreast settings start { w with lastHeight := some last } t) s := by
  rcases h with ⟨rfl, hstart⟩ | ⟨start, hs⟩
  · apply Secures.ask
    intro t hrely answer u hserves
    refine ⟨scans_guarantee hserves trivial, ?_⟩
    have hbeginning : t.beginning settings = s.beginning settings := by
      rw [Scene.beginning, hrely.2, Scene.beginning]
    cases answer with
    | error cause =>
        have hu : Rested settings (Watcher.start settings) u := by
          refine .inl ⟨rfl, ?_⟩
          rw [hserves.beginning, hbeginning]
          exact hstart
        exact fun v hrely => hu.relied hrely
    | ok watermark =>
        have hbegun : (u.beginning settings).start =
            some ((Watcher.start settings).startOf watermark tip) := by
          rw [hserves.beginning, hbeginning]
          simp [Beginning.after, hstart, htip]
        -- behind the start nothing has been scanned, and nothing is remembered
        have hu : Abreast settings ((Watcher.start settings).startOf watermark tip)
            { Watcher.start settings with
              lastHeight := some ((Watcher.start settings).startOf watermark tip) } u := by
          refine ⟨rfl, hbegun, fun _ hmem => (List.not_mem_nil hmem).elim, _, rfl, ?_⟩
          intro n hlow hhigh
          exact absurd hhigh (Nat.not_le_of_lt hlow)
        cases watermark with
        | none => exact fun v hrely => ⟨_, hu.relied hrely⟩
        | some height => exact fun v hrely => ⟨_, hu.relied hrely⟩
  · obtain ⟨last, hlast, -⟩ := hs.scanned
    have hsame : { w with lastHeight := some last } = w := by rw [← hlast]
    rw [startHeight, hlast]
    intro t hrely
    exact ⟨start, hsame.symm ▸ hs.relied hrely⟩

theorem Rested.secures_poll (hfull : settings.fullBlocks) (h : Rested settings w s) :
    Secures scanTerms w.poll (fun outcome t => Rested settings outcome.2 t) s := by
  apply Secures.ask
  intro t hrely answer u hserves
  refine ⟨scans_guarantee hserves trivial, ?_⟩
  have ht : Rested settings w t := h.relied hrely
  have hu : Rested settings w u := by
    rcases ht with ⟨rfl, hstart⟩ | ⟨start, ht⟩
    · refine .inl ⟨rfl, ?_⟩
      rw [hserves.beginning]
      cases answer with
      | error cause => exact hstart
      | ok tip => exact hstart
    · exact .inr ⟨start, ht.served hserves⟩
  cases answer with
  | error cause => exact fun v hrely => hu.relied hrely
  | ok tip =>
      have hrecent : ∀ scanned ∈ w.recent, scanned.height ≤ tip := by
        rcases ht with ⟨rfl, -⟩ | ⟨start, ht⟩
        · simp [Watcher.start]
        · exact ht.le_tip hserves.served.1
      have htip : (u.beginning settings).tip = some tip := by
        simp [hserves.beginning, Beginning.after]
      apply (hu.secures_startHeight htip).bind
      intro result v hv
      cases result with
      | error cause => exact fun x hrely => Rested.relied hrely hv
      | ok last =>
          obtain ⟨start, hv⟩ := hv
          have hfull' : w.settings.fullBlocks := by
            rw [show w.settings = settings from hv.configured]
            exact hfull
          dsimp only
          rw [if_pos hfull']
          exact (hv.secures_pollFull last hrecent).mono fun _ _ h => .inr ⟨start, h⟩

end Watcher

end ChatRelay
