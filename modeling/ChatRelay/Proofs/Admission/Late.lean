import ChatRelay.Proofs.Admission.Verdict
import ChatRelay.Proofs.Watcher.Coverage

/-!
# Outpoints that are recorded late

An admission records its outpoint without looking at the ledger again, and the watcher scans a block
once. So an outpoint that a run records after the watcher has pruned it stays recorded, although it
is spent. There is no other way: once the watcher has scanned up to the tip, of the outpoints that
are spent behind its start exactly those are still recorded which a run has recorded late.
-/

namespace ChatRelay

open Routine (Terms Secures)

/-- Whether a run of admission has recorded an outpoint. -/
def Event.records (o : Outpoint) : Event → Bool
  | ⟨.admission _, .store (.add added), .ok _⟩ => added = o
  | _ => false

/-- Whether the watcher has pruned an outpoint. -/
def Event.prunes (o : Outpoint) : Event → Bool
  | ⟨.watcher, .store (.prune outpoints), .ok _⟩ => o ∈ outpoints
  | _ => false

/-- A run has recorded an outpoint after the watcher had pruned it, and the watcher has not pruned
it again. -/
def RecordedLate (o : Outpoint) (log : List Event) : Prop :=
  ∃ before e after, log = before ++ e :: after ∧ e.records o ∧ (∃ f ∈ before, f.prunes o) ∧
    ∀ f ∈ after, ¬ f.prunes o

variable {B : OutpointStore} {o : Outpoint} {e : Event} {log : List Event} {s t : Scene} {i : Nat}

theorem Event.not_prunes_of_records (h : e.records o) : ¬ e.prunes o := by
  unfold Event.records at h
  split at h
  · simp [Event.prunes]
  · cases h

/-! ## One more event -/

theorem RecordedLate.append (h : RecordedLate o log) (hprunes : ¬ e.prunes o) :
    RecordedLate o (log ++ [e]) := by
  obtain ⟨before, f, after, rfl, hrecords, hpruned, hafter⟩ := h
  refine ⟨before, f, after ++ [e], by simp, hrecords, hpruned, ?_⟩
  simpa [or_imp, forall_and, hprunes] using hafter

theorem recordedLate_of_records (hrecords : e.records o) (hpruned : ∃ f ∈ log, f.prunes o) :
    RecordedLate o (log ++ [e]) :=
  ⟨log, e, [], rfl, hrecords, hpruned, by simp⟩

theorem recordedLate_append (h : RecordedLate o (log ++ [e])) :
    e.records o ∨ (¬ e.prunes o ∧ RecordedLate o log) := by
  obtain ⟨before, f, after, hlog, hrecords, hpruned, hafter⟩ := h
  rcases List.eq_nil_or_concat after with rfl | ⟨kept, last, rfl⟩
  · obtain ⟨-, heq⟩ := List.append_inj' hlog rfl
    rw [List.singleton_inj.mp heq]
    exact .inl hrecords
  · rw [List.concat_eq_append, ← List.cons_append, ← List.append_assoc] at hlog
    obtain ⟨hlog, heq⟩ := List.append_inj' hlog rfl
    rw [List.concat_eq_append] at hafter
    rw [List.singleton_inj.mp heq]
    refine .inr ⟨hafter last (by simp), before, f, kept, hlog, hrecords, hpruned, fun g hg => ?_⟩
    exact hafter g (List.mem_append_left _ hg)

/-- What an event tells about the record of an outpoint. -/
structure Event.Tells (e : Event) (o : Outpoint) (held after : Holdings) : Prop where
  records : e.records o → after.recorded o
  prunes : e.prunes o → ¬ after.recorded o
  other : ¬ e.records o → ¬ e.prunes o → after.recorded o = held.recorded o

/-- Of the outpoints that have been pruned, those recorded late are recorded. -/
def Scene.Accounted (s : Scene) : Prop :=
  ∀ o, (∃ f ∈ s.log, f.prunes o) → (s.held.recorded o ↔ RecordedLate o s.log)

theorem Scene.Accounted.append (h : s.Accounted) (hlog : t.log = s.log ++ [e])
    (htells : ∀ o, e.Tells o s.held t.held) : t.Accounted := by
  intro o hpruned
  rw [hlog] at hpruned ⊢
  by_cases hprunes : e.prunes o
  · -- nothing follows this prune yet
    have hgone := (htells o).prunes hprunes
    refine iff_of_false hgone fun hlate => ?_
    rcases recordedLate_append hlate with hrecords | ⟨hnot, -⟩
    · exact Event.not_prunes_of_records hrecords hprunes
    · exact hnot hprunes
  · have hbefore : ∃ f ∈ s.log, f.prunes o := by simpa [hprunes] using hpruned
    by_cases hrecords : e.records o
    · exact iff_of_true ((htells o).records hrecords) (recordedLate_of_records hrecords hbefore)
    · rw [(htells o).other hrecords hprunes, h o hbefore]
      constructor
      · exact fun hlate => hlate.append hprunes
      · exact fun hlate => ((recordedLate_append hlate).resolve_left hrecords).2

/-! ## What the tasks do to records -/

theorem Scene.Serves.tells_admission {request : Request} {answer : request.Answer} {p : Outpoint}
    (hdecides : request.Decides p) (h : Scene.Serves (.admission i) request s answer t)
    (o : Outpoint) : Event.Tells ⟨.admission i, request, answer⟩ o s.held t.held := by
  refine ⟨fun hrecords => ?_, fun hprunes => by simp [Event.prunes] at hprunes, fun hnot _ => ?_⟩
  · rcases hdecides with rfl | rfl | rfl
    · simp [Event.records] at hrecords
    · simp [Event.records] at hrecords
    · cases answer with
      | error cause => simp [Event.records] at hrecords
      | ok _ =>
          obtain rfl : p = o := by simpa [Event.records] using hrecords
          exact h.served.added.2
  · by_cases hadd : request = .store (.add o)
    · subst hadd
      cases answer with
      | ok _ => simp [Event.records] at hnot
      | error cause => rw [h.served.not_added]
    · exact h.served.recorded_eq hdecides.mild hadd

theorem Scene.Serves.tells_watcher {request : Request} {answer : request.Answer}
    (hscans : request.Scans) (h : Scene.Serves .watcher request s answer t) (o : Outpoint) :
    Event.Tells ⟨.watcher, request, answer⟩ o s.held t.held := by
  by_cases hprune : ∃ outpoints, request = .store (.prune outpoints)
  · obtain ⟨outpoints, rfl⟩ := hprune
    cases answer with
    | ok pruned =>
        refine ⟨fun hrecords => by simp [Event.records] at hrecords, fun hprunes => ?_,
          fun _ hnot => ?_⟩
        · have hmem : o ∈ outpoints := by simpa [Event.prunes] using hprunes
          exact fun hrecorded => (h.served.pruned_iff.mp hrecorded).1 hmem
        · have hmem : o ∉ outpoints := by simpa [Event.prunes] using hnot
          rw [Bool.eq_iff_iff, h.served.pruned_iff]
          exact and_iff_right hmem
    | error cause =>
        rw [h.served.not_pruned]
        exact ⟨fun hrecords => by simp [Event.records] at hrecords,
          fun hprunes => by simp [Event.prunes] at hprunes, fun _ _ => rfl⟩
  · have hmild : ¬ request.Removes := by
      intro hremoves
      unfold Request.Removes at hremoves
      split at hremoves
      · exact hscans
      · exact hprune ⟨_, rfl⟩
      · exact hremoves
    have hadd : request ≠ .store (.add o) := by
      rintro rfl
      exact hscans
    refine ⟨fun hrecords => by simp [Event.records] at hrecords, fun hprunes => ?_, fun _ _ =>
      h.served.recorded_eq hmild hadd⟩
    unfold Event.prunes at hprunes
    split at hprunes
    next heq =>
      cases heq
      exact absurd ⟨_, rfl⟩ hprune
    next => cases hprunes

/-! ## The discipline -/

def plainTerms (i : Nat) (o : Outpoint) : Terms Request.Answer Scene where
  rely _ _ := True
  serves := Scene.Serves (.admission i)
  guarantee s t := ∃ request answer, Request.Decides o request ∧
    Scene.Serves (.admission i) request s answer t
  rely_refl _ := trivial
  rely_trans _ _ := trivial

/-- The terms under which records are accounted for. -/
def accountDiscipline (settings : WatcherSettings) (hfull : settings.fullBlocks) : Discipline where
  sane := Scene.Accounted
  admission := plainTerms
  decided _ _ _ _ := True
  watcher := scanTerms
  rested := Watcher.Rested settings
  admission_serves _ hserves := hserves
  watcher_serves _ hserves := hserves
  admission_sane hsane h := by
    obtain ⟨request, answer, hdecides, hserves⟩ := h
    exact hsane.append hserves.log (hserves.tells_admission hdecides)
  watcher_sane hsane h := by
    obtain ⟨request, answer, hscans, hserves⟩ := h
    exact hsane.append hserves.log (hserves.tells_watcher hscans)
  grow_sane hsane _ := hsane
  admission_apart _ _ := trivial
  admission_watcher _ h := by
    obtain ⟨request, answer, -, hserves⟩ := h
    exact ⟨hserves.chain ▸ .refl _, hserves.watches_admission⟩
  watcher_admission _ := trivial
  grow_admission _ := trivial
  grow_watcher hgrows := ⟨hgrows, rfl⟩
  decided_mono _ _ := trivial
  rested_stable := Watcher.Rested.relied
  decide_secures _ message claimed := (Admission.asks_decide message claimed).secures
    fun hdecides hserves => ⟨_, _, hdecides, hserves⟩
  poll_secures := Watcher.Rested.secures_poll hfull

/-! ## What is left behind -/

namespace Relay

variable {settings : WatcherSettings} {surroundings : Surroundings B} {r : Relay B} {w : Watcher}
  {start : UInt64}

/-- However admissions, polls with full blocks and new blocks alternate, and whichever requests
fail: when the watcher has scanned up to the tip, an outpoint that a block behind its start spends
is recorded exactly if a run has recorded it late. -/
theorem recorded_iff_late (hfull : settings.fullBlocks)
    (hreaches : Relation.ReflTransGen Step (idle surroundings (Watcher.start settings)) r)
    (htask : r.task = .resting w) (hscanned : w.lastHeight = some r.scene.chain.tip)
    (hstart : (r.scene.beginning settings).start = some start)
    (hspent : r.scene.chain.spends start.toNat r.scene.chain.tip.toNat o) :
    r.scene.held.recorded o ↔ RecordedLate o r.log := by
  have hidle : (accountDiscipline settings hfull).Upheld
      (idle surroundings (Watcher.start settings)) :=
    Discipline.upheld_idle (fun _ ⟨_, hmem, _⟩ => (List.not_mem_nil hmem).elim) (.inl ⟨rfl, rfl⟩)
  have hupheld := hidle.reaches hreaches
  have hrested : w.Rested settings r.scene := by
    have h := hupheld.task
    rwa [htask] at h
  rcases hrested with ⟨-, hnone⟩ | ⟨begun, habreast⟩
  · rw [hnone] at hstart
    cases hstart
  · obtain rfl : begun = start := Option.some.inj (habreast.begun.symm.trans hstart)
    obtain ⟨last, hlast, hcovered⟩ := habreast.scanned
    obtain rfl : last = r.scene.chain.tip := Option.some.inj (hlast.symm.trans hscanned)
    obtain ⟨n, block, hlow, hhigh, hblock, hmem⟩ := Chain.spends_iff.mp hspent
    obtain ⟨found, pruned, hfound, hpruned⟩ := hcovered n hlow hhigh
    obtain rfl : block = found := Option.some.inj (hblock.symm.trans hfound)
    -- the block has been scanned, so that its prune is in the log
    apply hupheld.sane
    exact ⟨_, List.mem_of_mem_filter hpruned, by simpa [Event.prunes] using hmem⟩

/-- A run whose output is spent by a block that is scanned between its look-up and its recording. -/
def tardy : Relay MemoryStore.backend :=
  sample.turns
    ([.enqueue sampleMessage none] ++ List.replicate 4 (.admission 0) ++ [.block sampleSpend] ++
      List.replicate 7 .watcher ++ List.replicate 3 (.admission 0) ++ List.replicate 4 .watcher)

/-- The watcher of `tardy` has scanned up to the tip. -/
def tardyWatcher : Watcher := ⟨⟨6, true⟩, some 1, [⟨1, "h1", []⟩]⟩

theorem tardy_ends :
    (tardy.task.resting? = some tardyWatcher ∧
        tardyWatcher.lastHeight = some tardy.scene.chain.tip ∧
        (tardy.scene.beginning ⟨6, true⟩).start = some 0 ∧
        tardy.scene.chain.spends (0 : UInt64).toNat tardy.scene.chain.tip.toNat sampleOutpoint) ∧
      (∀ run ∈ tardy.admissions.runs, run.admitted) ∧
        tardy.scene.held.recorded sampleOutpoint := by
  decide +kernel

theorem recorded_iff_late_tardy :
    tardy.scene.held.recorded sampleOutpoint ∧ RecordedLate sampleOutpoint tardy.log := by
  obtain ⟨⟨htask, hscanned, hstart, hspent⟩, -, hrecorded⟩ := tardy_ends
  have htask := WatcherTask.resting?_eq_some.mp htask
  refine ⟨hrecorded, ?_⟩
  exact (recorded_iff_late rfl (reaches_turns _ _) htask hscanned hstart hspent).mp hrecorded

/-- With no run under way and the watcher at the tip, a spent outpoint may still be recorded. -/
theorem tardy_leaves_spent :
    ¬ ∀ (r : Relay MemoryStore.backend) (w : Watcher) (start : UInt64) (o : Outpoint),
      Relation.ReflTransGen Step sample r →
      (∀ run ∈ r.admissions.runs, ∃ result, run.phase = .finished result) →
      r.task = .resting w → w.lastHeight = some r.scene.chain.tip →
      (r.scene.beginning ⟨6, true⟩).start = some start →
      r.scene.chain.spends start.toNat r.scene.chain.tip.toNat o →
      ¬ r.scene.held.recorded o := by
  intro h
  obtain ⟨⟨htask, hscanned, hstart, hspent⟩, hadmitted, hrecorded⟩ := tardy_ends
  have hfinished := fun run hrun => AdmissionRun.finished_of_admitted (hadmitted run hrun)
  have htask := WatcherTask.resting?_eq_some.mp htask
  exact h tardy tardyWatcher 0 sampleOutpoint (reaches_turns _ _) hfinished htask hscanned hstart
    hspent hrecorded

end Relay

end ChatRelay
