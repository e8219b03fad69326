import ChatRelay.Proofs.Backends.Agreement
import ChatRelay.Proofs.Watcher.Reorganization
import ChatRelay.Proofs.Watcher.Sweeping

/-!
# Full blocks or headers only

Two watchers look after copies of one store. One scans full blocks, the other looks outpoints up
whenever there are new blocks. While the chain only grows, each of their polls sweeps the blocks
behind the last height, so that after every poll the copies hold the same, as long as what is
recorded between the polls is unspent by then.
-/

namespace ChatRelay

open Routine (Runs)
open Watcher (Seeing RecentOn Swept)

/-! ## Visits -/

/-- What is asked of the store after the last poll, and what the next poll sees of the ledger. -/
structure Visit where
  deposits : List Deposit
  view : LedgerView

/-- A chain grows from visit to visit. Each outpoint is recorded at some moment between two polls
and names an output that is unspent at that moment. -/
inductive Unfolds : Chain → List Visit → Prop
  | nil (c : Chain) : Unfolds c []
  | cons {c : Chain} {visit : Visit} {rest : List Visit} (hgrows : c.Grows visit.view.chain)
      (htip : visit.view.chain.tip.toNat + 1 < UInt64.size)
      (hdeposits : ∀ o, .record o ∈ visit.deposits → ∃ moment : Chain,
        c.Grows moment ∧ moment.Grows visit.view.chain ∧ moment.unspent o)
      (hrest : Unfolds visit.view.chain rest) : Unfolds c (visit :: rest)

/-- What a poll returned and what it left. -/
structure Polled (B : OutpointStore) where
  result : Except WatcherError PollSummary
  session : Session B

namespace Session

variable {B : OutpointStore}

def look (s : Session B) (v : LedgerView) : Polled B :=
  let polled := s.watcher.poll.run (B.serveWith v.answer) s.store
  ⟨polled.1.1, { s with watcher := polled.1.2, store := polled.2 }⟩

def attend (s : Session B) (visit : Visit) : Polled B := (s.depositAll visit.deposits).look visit.view

/-- Attends one visit after the other and keeps what each poll returned and left. -/
def attendAll (s : Session B) : List Visit → List (Polled B)
  | [] => []
  | visit :: rest => s.attend visit :: (s.attend visit).session.attendAll rest

theorem runs_look (s : Session B) (v : LedgerView) :
    Runs (Seeing v) s.watcher.poll (B.holdings s.store)
      ((s.look v).result, (s.look v).session.watcher) (B.holdings (s.look v).session.store) := by
  have hserved : ∀ (request : Request) (store : B.State), Seeing v request (B.holdings store)
      (B.serveWith v.answer request store).1 (B.holdings (B.serveWith v.answer request store).2) :=
    OutpointStore.serveWith_served fun _ => rfl
  exact Routine.runs_run B.holdings hserved s.watcher.poll s.store

end Session

variable {B B' : OutpointStore} {c d : Chain} {v : LedgerView} {last : UInt64}
  {visit : Visit} {visits : List Visit} {full : Session B} {lazy : Session B'}

/-! ## Deposits -/

/-- Copies of a store hold the same after the same deposits. -/
theorem Session.holdings_depositAll (h : B.holdings full.store = B'.holdings lazy.store)
    (deposits : List Deposit) :
    B.holdings (full.depositAll deposits).store = B'.holdings (lazy.depositAll deposits).store := by
  induction deposits generalizing full lazy with
  | nil => exact h
  | cons first rest ih =>
      apply ih
      have hfull := B.performs first.call full.store
      have hlazy := B'.performs first.call lazy.store
      rw [← h] at hlazy
      exact hfull.after_eq hlazy

/-- Deposits record at most their own outpoints. -/
theorem Session.recorded_depositAll {o : Outpoint} {deposits : List Deposit}
    (h : (B.holdings (full.depositAll deposits).store).recorded o) :
    (B.holdings full.store).recorded o ∨ .record o ∈ deposits := by
  induction deposits generalizing full with
  | nil => exact .inl h
  | cons first rest ih =>
      rcases ih h with hearlier | hmem
      · have hfirst := Deposit.recorded_iff (B.performs first.call full.store) o
        rcases hfirst.mp hearlier with hheld | rfl
        · exact .inl hheld
        · exact .inr List.mem_cons_self
      · exact .inr (List.mem_cons_of_mem _ hmem)

/-! ## The two watchers -/

/-- What two polls have in common: both return, and remove as many outpoints. The watchers have come
to the same height, and the stores hold the same. -/
structure Agree (polled : Polled B) (other : Polled B') : Prop where
  pruned : ∃ summary summary', polled.result = .ok summary ∧ other.result = .ok summary' ∧
    summary.pruned = summary'.pruned
  last : polled.session.watcher.lastHeight = other.session.watcher.lastHeight
  holdings : B.holdings polled.session.store = B'.holdings other.session.store

/-- A watcher with full blocks and one with headers only that are to go on behind a height: what the
one remembers is on the chain, and both record the same outpoints, unspent at that height. -/
structure Twins (c : Chain) (last : UInt64) (full : Session B) (lazy : Session B') : Prop where
  scans : full.watcher.settings.fullBlocks = true
  looks : lazy.watcher.settings.fullBlocks = false
  recent : full.watcher.RecentOn c
  holdings : B.holdings full.store = B'.holdings lazy.store
  unspent : ∀ o, (B.holdings full.store).recorded o → c.UnspentAt last o
  le : last ≤ c.tip

namespace Twins

theorem grow (h : Twins c last full lazy) (hgrows : c.Grows d) : Twins d last full lazy where
  scans := h.scans
  looks := h.looks
  recent := h.recent.grow hgrows
  holdings := h.holdings
  unspent o hrecorded := (h.unspent o hrecorded).grow hgrows h.le
  le := UInt64.le_trans h.le hgrows.tip_le

/-- What is recorded while it is unspent is unspent at the last height. -/
theorem depositAll (h : Twins c last full lazy) (hgrows : c.Grows d) {deposits : List Deposit}
    (hdeposits : ∀ o, .record o ∈ deposits → ∃ moment : Chain,
      c.Grows moment ∧ moment.Grows d ∧ moment.unspent o) :
    Twins d last (full.depositAll deposits) (lazy.depositAll deposits) where
  scans := by
    rw [full.watcher_depositAll]
    exact h.scans
  looks := by
    rw [lazy.watcher_depositAll]
    exact h.looks
  recent := by
    rw [full.watcher_depositAll]
    exact h.recent.grow hgrows
  holdings := Session.holdings_depositAll h.holdings deposits
  unspent o hrecorded := by
    rcases Session.recorded_depositAll hrecorded with hheld | hdeposit
    · exact (h.grow hgrows).unspent o hheld
    · obtain ⟨moment, hmoment, hlater, hunspent⟩ := hdeposits o hdeposit
      have hle : last ≤ moment.tip := UInt64.le_trans h.le hmoment.tip_le
      exact (Chain.unspentAt_of_unspent hunspent last).grow hlater hle
  le := (h.grow hgrows).le

/-- One poll of each sweeps the same blocks, so that they agree and may go on behind the tip. -/
theorem look (h : Twins v.chain last full lazy) (htip : v.chain.tip.toNat + 1 < UInt64.size)
    (hfull : full.watcher.startOf (B.holdings full.store).watermark v.chain.tip = last)
    (hlazy : lazy.watcher.startOf (B'.holdings lazy.store).watermark v.chain.tip = last) :
    Agree (full.look v) (lazy.look v) ∧
      Twins v.chain v.chain.tip (full.look v).session (lazy.look v).session ∧
      (full.look v).session.watcher.lastHeight = some v.chain.tip := by
  have hunspent : ∀ o, (B'.holdings lazy.store).recorded o → v.chain.UnspentAt last o := by
    rw [← h.holdings]
    exact h.unspent
  have hheaders : lazy.watcher.settings.fullBlocks → lazy.watcher.RecentOn v.chain := by
    rw [h.looks]
    exact nofun
  obtain ⟨hswept, hsettings, hrecent⟩ :=
    Watcher.swept_poll htip (fun _ => h.recent) hfull h.le h.unspent (full.runs_look v)
  obtain ⟨hswept', hsettings', -⟩ :=
    Watcher.swept_poll htip hheaders hlazy h.le hunspent (lazy.runs_look v)
  obtain ⟨summary, hresult, hsweeps⟩ := hswept.summary
  obtain ⟨summary', hresult', hsweeps'⟩ := hswept'.summary
  rw [← h.holdings] at hsweeps'
  obtain ⟨hpruned, hentries⟩ := hsweeps.unique hsweeps'
  have hwatermark : (B.holdings (full.look v).session.store).watermark =
      (B'.holdings (lazy.look v).session.store).watermark := by
    rw [hswept.watermark, hswept'.watermark, h.holdings]
  have hholdings : B.holdings (full.look v).session.store =
      B'.holdings (lazy.look v).session.store := by
    ext1
    · exact hentries
    · exact hwatermark
  have hscans : (full.look v).session.watcher.settings.fullBlocks = true := by
    rw [hsettings]
    exact h.scans
  have hlooks : (lazy.look v).session.watcher.settings.fullBlocks = false := by
    rw [hsettings']
    exact h.looks
  refine ⟨⟨⟨summary, summary', hresult, hresult', hpruned⟩, ?_, hholdings⟩,
    ⟨hscans, hlooks, hrecent h.scans, hholdings, ?_, UInt64.le_refl _⟩, hswept.reached⟩
  · exact hswept.reached.trans hswept'.reached.symm
  · intro o hrecorded
    obtain ⟨hheld, hkept⟩ := hsweeps.recorded_iff.mp hrecorded
    exact Chain.unspentAt_of_unspent ((h.unspent o hheld).unspent_iff.mpr hkept) _

/-- Once they have come to the tip, they agree at every visit while the chain unfolds. -/
theorem attendAll (h : Twins c c.tip full lazy) (hfull : full.watcher.lastHeight = some c.tip)
    (hlazy : lazy.watcher.lastHeight = some c.tip) (hunfolds : Unfolds c visits) :
    List.Forall₂ Agree (full.attendAll visits) (lazy.attendAll visits) := by
  induction hunfolds generalizing full lazy with
  | nil c => exact .nil
  | @cons c visit rest hgrows htip hdeposits hrest ih =>
      have hready := h.depositAll hgrows hdeposits
      -- both have begun, so they go on behind the height that they remember
      obtain ⟨hagree, htwins, hreached⟩ := hready.look htip
        (by rw [full.watcher_depositAll, Watcher.startOf, hfull]; rfl)
        (by rw [lazy.watcher_depositAll, Watcher.startOf, hlazy]; rfl)
      exact .cons hagree (ih htwins hreached (hagree.last ▸ hreached))

end Twins

/-! ## A store and its copy on disk -/

/-- A chain as it is: what is unspent is shown, and nothing else. -/
def Chain.view (c : Chain) : LedgerView where
  chain := c
  lookup o := if c.unspent o then some ⟨[], false⟩ else none
  lookup_unspent o := by
    cases c.unspent o <;> rfl

/-- A chain that creates three outputs and spends the first. -/
def budding : Chain where
  blocks := [⟨"h0", 0, []⟩, ⟨"h1", 1, [⟨"t1", [some (numbered 1)]⟩]⟩]
  outputs o := if o ∈ [numbered 1, numbered 2, numbered 3] then some [] else none
  blocks_ne_nil := List.cons_ne_nil _ _
  length_le := by decide

/-- Two blocks later the others are spent, too. -/
def grown : Chain :=
  (budding.extend ⟨"h2", 2, [⟨"t2", [some (numbered 3)]⟩]⟩).extend
    ⟨"h3", 3, [⟨"t3", [some (numbered 2), some (numbered 9)]⟩]⟩

theorem budding_grows : budding.Grows grown :=
  (budding.grows_extend _).trans ((budding.extend _).grows_extend _)

def seeds : List Deposit := [.record (numbered 1), .cache (numbered 1) [1], .record (numbered 2)]

def seededMemory : Session MemoryStore.backend :=
  (Session.begin (B := MemoryStore.backend) ⟨1, true⟩
    ⟨MemoryStore.empty, MemoryStore.sound_empty⟩).depositAll seeds

def seededDisk : Session DurableStore.backend :=
  (Session.begin (B := DurableStore.backend) ⟨1, false⟩
    ⟨DurableStore.empty, DurableStore.sound_empty⟩).depositAll seeds

/-- The third outpoint is recorded between the polls, then both blocks are seen at once, and then
nothing new. -/
def season : List Visit :=
  [⟨[.record (numbered 3), .cache (numbered 3) [3]], grown.view⟩, ⟨[], grown.view⟩]

theorem unfolds_season : Unfolds budding season := by
  refine .cons budding_grows (by decide) (fun o ho => ?_)
    (.cons (.refl _) (by decide) (fun o ho => ?_) (.nil _))
  · obtain rfl : o = numbered 3 := by simpa [season] using ho
    exact ⟨budding, .refl _, budding_grows, by decide +kernel⟩
  · cases ho

/-! ## Agreement -/

/-- Watchers in either mode that begin with copies of one store agree after every poll, as long as
the chain grows, nothing fails and what they begin with is unspent at the height behind which they
begin. -/
theorem Session.modes_agree {depth : UInt64} {store : B.State} {copy : B'.State}
    (hcopy : B.holdings store = B'.holdings copy) {first : LedgerView}
    (htip : first.chain.tip.toNat + 1 < UInt64.size)
    (hbegun : (Watcher.start ⟨depth, true⟩).startOf (B.holdings store).watermark first.chain.tip ≤
      first.chain.tip)
    (hunspent : ∀ o, (B.holdings store).recorded o → first.chain.UnspentAt
      ((Watcher.start ⟨depth, true⟩).startOf (B.holdings store).watermark first.chain.tip) o)
    (hunfolds : Unfolds first.chain visits) :
    List.Forall₂ Agree ((begin ⟨depth, true⟩ store).attendAll (⟨[], first⟩ :: visits))
      ((begin ⟨depth, false⟩ copy).attendAll (⟨[], first⟩ :: visits)) := by
  have htwins : Twins first.chain
      ((Watcher.start ⟨depth, true⟩).startOf (B.holdings store).watermark first.chain.tip)
      (begin ⟨depth, true⟩ store) (begin ⟨depth, false⟩ copy) := {
    scans := rfl
    looks := rfl
    recent := nofun
    holdings := hcopy
    unspent := hunspent
    le := hbegun }
  have hsame : (Watcher.start ⟨depth, false⟩).startOf (B'.holdings copy).watermark
      first.chain.tip =
        (Watcher.start ⟨depth, true⟩).startOf (B.holdings store).watermark first.chain.tip := by
    rw [← hcopy]
    rfl
  obtain ⟨hagree, hlevel, hreached⟩ := htwins.look htip rfl hsame
  exact .cons hagree (hlevel.attendAll hreached (hagree.last ▸ hreached) hunfolds)

/-- A store in memory whose watcher scans and its copy on disk whose watcher looks up. -/
theorem Session.modes_agree_season :
    (MemoryStore.backend.holdings seededMemory.store =
      DurableStore.backend.holdings seededDisk.store) ∧
    budding.view.chain.tip.toNat + 1 < UInt64.size ∧
    (Watcher.start ⟨1, true⟩).startOf
      (MemoryStore.backend.holdings seededMemory.store).watermark budding.tip = 0 ∧
    Unfolds budding season ∧
    List.Forall₂ Agree
      ((begin ⟨1, true⟩ seededMemory.store).attendAll (⟨[], budding.view⟩ :: season))
      ((begin ⟨1, false⟩ seededDisk.store).attendAll (⟨[], budding.view⟩ :: season)) ∧
    ((begin ⟨1, true⟩ seededMemory.store).attendAll (⟨[], budding.view⟩ :: season)).map
      (fun polled => polled.result.toOption.map (·.pruned)) = [some 1, some 2, some 0] := by
  have hcopy : MemoryStore.backend.holdings seededMemory.store =
      DurableStore.backend.holdings seededDisk.store :=
    Session.holdings_depositAll MemoryStore.mirrors_empty.holdings seeds
  have hstart : (Watcher.start ⟨1, true⟩).startOf
      (MemoryStore.backend.holdings seededMemory.store).watermark budding.tip = 0 := by
    decide +kernel
  have hunspent : ∀ o, (MemoryStore.backend.holdings seededMemory.store).recorded o →
      budding.UnspentAt 0 o := by
    intro o hrecorded
    have hseed : .record o ∈ seeds := by
      refine (Session.recorded_depositAll hrecorded).resolve_left fun hheld => ?_
      cases hheld
    have hcreated : (budding.outputs o).isSome := by
      rcases (by simpa [seeds] using hseed : o = numbered 1 ∨ o = numbered 2) with rfl | rfl
      · decide +kernel
      · decide +kernel
    refine ⟨hcreated, fun m block hm hblock => ?_⟩
    obtain rfl : m = 0 := Nat.le_zero.mp hm
    cases hblock
    exact List.not_mem_nil
  refine ⟨hcopy, by decide, hstart, unfolds_season, ?_, by decide +kernel⟩
  exact Session.modes_agree hcopy (by decide) (by decide +kernel) (hstart.symm ▸ hunspent)
    unfolds_season

end ChatRelay
