import ChatRelay.Proofs.Discipline
import ChatRelay.Proofs.Watcher.Obligations

/-!
# At most one admission of an outpoint

An admission that ends well has recorded its outpoint. An outpoint once recorded that way stays
recorded until a block has spent it, for the watcher removes what a block spends, and of what it
has looked up only recorded outpoints that were no longer unspent. A later run therefore finds it
recorded or its output gone. Between its look-up and its recording no other run can come, since
they are inside the same slot; and the watcher alone cannot make an outpoint admitted.
-/

namespace ChatRelay

open Routine (Terms Secures)

variable {B : OutpointStore} {s t u : Scene} {o p : Outpoint} {i j : Nat}

/-! ## Winning -/

/-- Run `i` has recorded an outpoint. -/
def Event.win (i : Nat) (o : Outpoint) : Event := ⟨.admission i, .store (.add o), .ok ()⟩

def Scene.Won (s : Scene) (o : Outpoint) : Prop := ∃ i, Event.win i o ∈ s.log

/-- At most one run has recorded an outpoint, whose output exists; and while it is not spent, it
is still recorded. -/
structure Scene.Fair (s : Scene) : Prop where
  unique : ∀ {o i j}, Event.win i o ∈ s.log → Event.win j o ∈ s.log → i = j
  created : ∀ {o}, s.Won o → (s.chain.outputs o).isSome
  kept : ∀ {o}, s.Won o → s.held.recorded o ∨ s.chain.spent o

/-- A look-up that does not show an output as unspent speaks of an outpoint that is spent or that
no run has recorded. -/
theorem Scene.Fair.gone (h : s.Fair) (hunspent : ¬ s.chain.unspent o) :
    s.chain.spent o ∨ ¬ s.Won o := by
  by_cases hwon : s.Won o
  · left
    simpa [Chain.unspent, h.created hwon] using hunspent
  · exact .inr hwon

theorem Scene.not_won_of_unspent (h : s.Won o → s.chain.spent o) (hunspent : s.chain.unspent o) :
    (s.chain.outputs o).isSome ∧ ¬ s.Won o := by
  obtain ⟨hcreated, hspent⟩ : (s.chain.outputs o).isSome ∧ ¬ s.chain.spent o := by
    simpa [Chain.unspent] using hunspent
  exact ⟨hcreated, fun hwon => hspent (h hwon)⟩

theorem Scene.Serves.won {asker : Asker} {request : Request} {answer : request.Answer}
    (h : Scene.Serves asker request s answer t) (hwon : t.Won o) :
    s.Won o ∨ ∃ i, (⟨asker, request, answer⟩ : Event) = .win i o := by
  obtain ⟨i, hi⟩ := hwon
  rw [h.log, List.mem_append, List.mem_singleton] at hi
  exact hi.imp (fun hi => ⟨i, hi⟩) fun hi => ⟨i, hi.symm⟩

theorem Scene.Serves.still_won {asker : Asker} {request : Request} {answer : request.Answer}
    (h : Scene.Serves asker request s answer t) (hwon : s.Won o) : t.Won o := by
  obtain ⟨i, hi⟩ := hwon
  exact ⟨i, h.log ▸ List.mem_append_left _ hi⟩

/-! ## The terms of an admission -/

/-- A step of a run: one of its three requests, which records the outpoint only if its output
exists and no run has recorded it. -/
def Scene.Decided (i : Nat) (o : Outpoint) (s t : Scene) : Prop :=
  ∃ request answer, Request.Decides o request ∧ Scene.Serves (.admission i) request s answer t ∧
    ((⟨.admission i, request, answer⟩ : Event) = .win i o →
      (s.chain.outputs o).isSome ∧ ¬ s.Won o)

/-- A run relies on its outpoint not being won by others. -/
def admissionTerms (i : Nat) (o : Outpoint) : Terms Request.Answer Scene where
  rely s t := s.chain.Grows t.chain ∧ s.log <+: t.log ∧ (t.Won o → s.Won o)
  serves request s answer t := s.Fair ∧ Scene.Serves (.admission i) request s answer t
  guarantee := Scene.Decided i o
  rely_refl _ := ⟨.refl _, List.prefix_refl _, id⟩
  rely_trans h h' := ⟨h.1.trans h'.1, h.2.1.trans h'.2.1, fun hwon => h.2.2 (h'.2.2 hwon)⟩

def Scene.WonBy (i : Nat) (o : Outpoint) (result : Except Rejection Admission) (s : Scene) : Prop :=
  ∀ admission, result = .ok admission → Event.win i o ∈ s.log

theorem secures_rejection (rejection : Rejection) (s : Scene) :
    Secures (admissionTerms i o) (.done (.error rejection)) (Scene.WonBy i o) s :=
  fun _ _ _ h => by cases h

/-- A message is judged well only for an output that is shown as unspent. -/
theorem Admission.unspent_of_judge {message : Message} {claimed : Option OwnerKey}
    {output : Option LedgerOutput} {admission : Admission}
    (h : Admission.judge message claimed output = .ok admission) :
    output.any (!·.spent) = true := by
  cases output with
  | none => cases h
  | some output =>
      cases hspent : output.spent with
      | false => simp [hspent]
      | true =>
          rw [Admission.judge] at h
          simp only [hspent, if_true] at h
          cases h

/-- The recording, once the output exists and no run has recorded the outpoint. -/
theorem secures_record {message : Message} {admission : Admission}
    (hready : (s.chain.outputs message.outpoint).isSome ∧ ¬ s.Won message.outpoint) :
    Secures (admissionTerms i message.outpoint) (do
        match ← askStore (.add message.outpoint) with
        | .ok () => return .ok admission
        | .error (.alreadyPresent _) => return .error .alreadySeen
        | .error cause => return .error (.storeUnavailable cause))
      (Scene.WonBy i message.outpoint) s := by
  apply Secures.ask
  intro t hrely answer u hserved
  obtain ⟨-, hserves⟩ := hserved
  obtain ⟨hgrows, -, hwon⟩ := hrely
  refine ⟨⟨_, answer, .inr (.inr rfl), hserves, fun _ =>
    ⟨hgrows.created hready.1, fun h => hready.2 (hwon h)⟩⟩, ?_⟩
  rcases answer with cause | _
  · cases cause <;> exact secures_rejection _ u
  · intro v hrely _ _
    apply hrely.2.1.subset
    rw [hserves.log]
    exact List.mem_append_right _ (List.mem_singleton.mpr rfl)

/-- A decision asks for nothing else, and does not record what may have been recorded before. -/
theorem secures_decide (i : Nat) (message : Message) (claimed : Option OwnerKey) (s : Scene) :
    Secures (admissionTerms i message.outpoint) (Admission.decide message claimed)
      (Scene.WonBy i message.outpoint) s := by
  apply Secures.ask
  intro t _ answer u hserved
  obtain ⟨hfair, hserves⟩ := hserved
  refine ⟨⟨_, answer, .inl rfl, hserves, fun heq => by cases heq⟩, ?_⟩
  rcases answer with cause | seen
  · exact secures_rejection _ u
  cases seen with
  | true => exact secures_rejection _ u
  | false =>
      -- whoever has won it by now has had it spent
      have hspent : u.Won message.outpoint → u.chain.spent message.outpoint := by
        intro hwon
        obtain ⟨hanswer, -⟩ := hserves.served.performed
        have hwon : t.Won message.outpoint :=
          (hserves.won hwon).resolve_right fun ⟨_, heq⟩ => by cases heq
        rw [hserves.chain]
        refine (hfair.kept hwon).resolve_left fun hrecorded => ?_
        rw [hrecorded] at hanswer
        cases hanswer
      apply Secures.ask
      intro v hrely answer x hserved
      obtain ⟨hgrows, -, hrelied⟩ := hrely
      obtain ⟨-, hserves⟩ := hserved
      refine ⟨⟨_, answer, .inr (.inl rfl), hserves, fun heq => by cases heq⟩, ?_⟩
      rcases answer with cause | output
      · exact secures_rejection _ x
      dsimp only
      split
      next => exact secures_rejection _ x
      next admission hjudge =>
        have hunspent : v.chain.unspent message.outpoint :=
          hserves.served.1.output.symm.trans (Admission.unspent_of_judge hjudge)
        obtain ⟨hcreated, hnew⟩ := Scene.not_won_of_unspent
          (fun hwon => hgrows.spent (hspent (hrelied hwon))) hunspent
        refine secures_record ⟨hserves.chain ▸ hcreated, fun hwon => hnew ?_⟩
        exact (hserves.won hwon).resolve_right fun ⟨_, heq⟩ => by cases heq

/-! ## The terms of the watcher -/

/-- A step of the watcher: an outpoint that it takes out of the store is spent, or no run has
recorded it. -/
def Scene.Watched (s t : Scene) : Prop :=
  (∃ request answer, Scene.Serves .watcher request s answer t) ∧
    ∀ o, s.held.recorded o → t.held.recorded o ∨ s.chain.spent o ∨ ¬ s.Won o

/-- The watcher relies on recorded outpoints being left alone. -/
def watcherTerms : Terms Request.Answer Scene where
  rely s t := s.chain.Grows t.chain ∧
    ∀ o, s.held.recorded o → t.held.recorded o ∧ (t.Won o → s.Won o)
  serves request s answer t := s.Fair ∧ Scene.Serves .watcher request s answer t
  guarantee := Scene.Watched
  rely_refl _ := ⟨.refl _, fun _ h => ⟨h, id⟩⟩
  rely_trans h h' := by
    refine ⟨h.1.trans h'.1, fun o hrecorded => ?_⟩
    obtain ⟨hstill, hwon⟩ := h.2 o hrecorded
    obtain ⟨hstill', hwon'⟩ := h'.2 o hstill
    exact ⟨hstill', fun h => hwon (hwon' h)⟩

theorem watched_mild {request : Request} {answer : request.Answer} (hmild : ¬ request.Removes)
    (h : watcherTerms.serves request s answer t) : s.Watched t :=
  ⟨⟨request, answer, h.2⟩, fun _ hrecorded => .inl (h.2.served.recorded hmild hrecorded)⟩

theorem watched_prune {outpoints : List Outpoint} {answer : Except StoreError (List Pruned)}
    (hgone : ∀ o ∈ outpoints, s.chain.spent o ∨ ¬ s.Won o)
    (h : watcherTerms.serves (.store (.prune outpoints)) s answer t) : s.Watched t := by
  refine ⟨⟨.store (.prune outpoints), answer, h.2⟩, fun o hrecorded => ?_⟩
  by_cases hmem : o ∈ outpoints
  · exact .inr (hgone o hmem)
  · cases answer with
    | ok _ => exact .inl (h.2.served.pruned_iff.mpr ⟨hmem, hrecorded⟩)
    | error cause =>
        rw [h.2.served.not_pruned]
        exact .inl hrecorded

theorem allows_watcherTerms : Watcher.Allows watcherTerms where
  mild := watched_mild
  prune hshown hrely hserved := by
    refine watched_prune (fun o hmem => .inl ?_) hserved
    have hblock := hshown.2.served.1.block
    have hchain := hrely.1.getElem? (hshown.2.chain ▸ hblock)
    exact Chain.spent_iff.mpr ⟨_, List.mem_of_getElem? hchain, hmem⟩

/-- A recorded outpoint that is spent or that no run has recorded. -/
def Scene.Gone (s : Scene) (o : Outpoint) : Prop :=
  s.held.recorded o ∧ (s.chain.spent o ∨ ¬ s.Won o)

theorem Scene.Gone.relied (h : s.Gone o) (hrely : watcherTerms.rely s t) : t.Gone o := by
  obtain ⟨hrecorded, hwon⟩ := hrely.2 o h.1
  exact ⟨hrecorded, h.2.imp hrely.1.spent fun hnew hwon' => hnew (hwon hwon')⟩

/-- What is looked up among recorded outpoints and found to be no longer unspent is gone. -/
theorem secures_lookUp (before outpoints : List Outpoint) (s : Scene)
    (hbefore : ∀ o ∈ before, s.Gone o) (hrecorded : ∀ o ∈ outpoints, s.held.recorded o) :
    Secures watcherTerms (Watcher.lookUp before outpoints)
      (fun result t => ∀ gone, result = .ok gone → ∀ o ∈ gone, t.Gone o) s := by
  induction outpoints generalizing before s with
  | nil =>
      intro t hrely gone hgone o hmem
      rw [← Except.ok.inj hgone, List.mem_reverse] at hmem
      exact (hbefore o hmem).relied hrely
  | cons outpoint rest ih =>
      apply Secures.ask
      intro t hrely answer u hserved
      refine ⟨watched_mild id hserved, ?_⟩
      rcases answer with cause | output
      · intro v _ gone hgone
        cases hgone
      obtain ⟨hfair, hserves⟩ := hserved
      have hheld : u.held = t.held := hserves.served.2
      have hlog : u.Won = t.Won := by
        funext o
        refine propext ⟨fun hwon => ?_, hserves.still_won⟩
        exact (hserves.won hwon).resolve_right fun ⟨_, heq⟩ => by cases heq
      have hsame : ∀ o, t.Gone o → u.Gone o := by
        intro o hgone
        unfold Scene.Gone at hgone ⊢
        rwa [hheld, hlog, hserves.chain]
      have hstill : ∀ o ∈ outpoint :: rest, t.held.recorded o := fun o hmem =>
        (hrely.2 o (hrecorded o hmem)).1
      have hrest : ∀ o ∈ rest, u.held.recorded o := fun o hmem =>
        hheld ▸ hstill o (List.mem_cons_of_mem _ hmem)
      have hold : ∀ o ∈ before, u.Gone o := fun o hmem =>
        hsame o ((hbefore o hmem).relied hrely)
      dsimp only
      split
      next => exact ih before u hold hrest
      next hunspent =>
        rw [hserves.served.1.output] at hunspent
        refine ih _ u (List.forall_mem_cons.mpr ⟨hsame outpoint ?_, hold⟩) hrest
        exact ⟨hstill outpoint List.mem_cons_self, hfair.gone hunspent⟩

theorem secures_recheck (s : Scene) :
    Secures watcherTerms Watcher.recheck (fun _ _ => True) s := by
  apply Secures.ask
  intro t _ answer u hserved
  refine ⟨watched_mild id hserved, ?_⟩
  rcases answer with cause | outpoints
  · exact fun _ _ => trivial
  have hrecorded : ∀ o ∈ outpoints, u.held.recorded o := by
    obtain ⟨⟨listed, hlisted, -, hmem⟩, hheld⟩ := hserved.2.served.performed
    rw [Except.ok.inj hlisted, hheld]
    exact fun o => (hmem o).mp
  apply (secures_lookUp [] outpoints u (by simp) hrecorded).bind
  intro result v hgone
  rcases result with cause | gone
  · exact fun _ _ => trivial
  apply Secures.ask
  intro x hrely answer y hserved
  refine ⟨watched_prune ?_ hserved, ?_⟩
  · exact fun o hmem => ((hgone gone rfl o hmem).relied hrely).2
  · cases answer with
    | error cause => exact fun _ _ => trivial
    | ok _ => exact fun _ _ => trivial

/-! ## The discipline -/

theorem Scene.Decided.won (h : Scene.Decided i o s t) (hwon : t.Won p) :
    s.Won p ∨ (p = o ∧ ¬ s.held.recorded o) := by
  obtain ⟨request, answer, hdecides, hserves, -⟩ := h
  refine (hserves.won hwon).imp_right fun ⟨j, heq⟩ => ?_
  cases heq
  rcases hdecides with h | h | h
  · cases h
  · cases h
  · cases h
    exact ⟨rfl, hserves.served.added.1⟩

theorem Scene.Decided.fair (h : Scene.Decided i o s t) (hfair : s.Fair) : t.Fair := by
  obtain ⟨request, answer, hdecides, hserves, hready⟩ := h
  have hlog : ∀ {j p}, Event.win j p ∈ t.log →
      Event.win j p ∈ s.log ∨ (⟨.admission i, request, answer⟩ : Event) = .win j p := by
    intro j p hj
    rw [hserves.log, List.mem_append, List.mem_singleton] at hj
    exact hj.imp_right Eq.symm
  -- the new event can only be this run's winning its own outpoint
  have hnew : ∀ {j p}, (⟨.admission i, request, answer⟩ : Event) = .win j p →
      j = i ∧ p = o ∧ (s.chain.outputs o).isSome ∧ ¬ s.Won o ∧ t.held.recorded o := by
    intro j p heq
    cases heq
    rcases hdecides with h | h | h
    · cases h
    · cases h
    · cases h
      obtain ⟨hcreated, hwon⟩ := hready rfl
      exact ⟨rfl, rfl, hcreated, hwon, hserves.served.added.2⟩
  refine ⟨fun {p j k} hj hk => ?_, fun {p} hwon => ?_, fun {p} hwon => ?_⟩
  · rcases hlog hj with hj | hj
    · rcases hlog hk with hk | hk
      · exact hfair.unique hj hk
      · obtain ⟨-, rfl, -, hwon, -⟩ := hnew hk
        exact absurd ⟨j, hj⟩ hwon
    · obtain ⟨hji, rfl, -, hwon, -⟩ := hnew hj
      rcases hlog hk with hk | hk
      · exact absurd ⟨k, hk⟩ hwon
      · rw [hji, (hnew hk).1]
  · rw [hserves.chain]
    obtain ⟨j, hj⟩ := hwon
    rcases hlog hj with hj | hj
    · exact hfair.created ⟨j, hj⟩
    · obtain ⟨-, rfl, hcreated, -, -⟩ := hnew hj
      exact hcreated
  · rw [hserves.chain]
    obtain ⟨j, hj⟩ := hwon
    rcases hlog hj with hj | hj
    · exact (hfair.kept ⟨j, hj⟩).imp_left (hserves.served.recorded hdecides.mild)
    · obtain ⟨-, rfl, -, -, hrecorded⟩ := hnew hj
      exact .inl hrecorded

theorem Scene.Watched.won (h : s.Watched t) (hwon : t.Won o) : s.Won o := by
  obtain ⟨⟨request, answer, hserves⟩, -⟩ := h
  exact (hserves.won hwon).resolve_right fun ⟨_, heq⟩ => by cases heq

theorem Scene.Watched.fair (h : s.Watched t) (hfair : s.Fair) : t.Fair := by
  obtain ⟨⟨request, answer, hserves⟩, hkept⟩ := id h
  have hlog : ∀ {i p}, Event.win i p ∈ t.log → Event.win i p ∈ s.log := by
    intro i p hi
    rw [hserves.log, List.mem_append, List.mem_singleton] at hi
    exact hi.resolve_right fun heq => by cases heq
  refine ⟨fun hi hj => hfair.unique (hlog hi) (hlog hj), fun hwon => ?_, fun {o} hwon => ?_⟩
  · rw [hserves.chain]
    exact hfair.created (h.won hwon)
  · rw [hserves.chain]
    rcases hfair.kept (h.won hwon) with hrecorded | hspent
    · exact (hkept o hrecorded).imp_right fun h' => h'.resolve_right (not_not_intro (h.won hwon))
    · exact .inr hspent

theorem Scene.Fair.grow (h : s.Fair) {chain : Chain} (hgrows : s.chain.Grows chain) :
    Scene.Fair { s with chain } where
  unique := h.unique
  created hwon := hgrows.created (h.created hwon)
  kept hwon := (h.kept hwon).imp_right hgrows.spent

/-- The terms under which no outpoint is admitted twice. -/
def onceDiscipline : Discipline where
  sane := Scene.Fair
  admission := admissionTerms
  decided := Scene.WonBy
  watcher := watcherTerms
  rested _ _ := True
  admission_serves hfair hserves := ⟨hfair, hserves⟩
  watcher_serves hfair hserves := ⟨hfair, hserves⟩
  admission_sane hfair h := h.fair hfair
  watcher_sane hfair h := h.fair hfair
  grow_sane hfair hgrows := hfair.grow hgrows
  admission_apart hne h := by
    have hserves := h
    obtain ⟨_, _, -, hserves, -⟩ := hserves
    refine ⟨hserves.chain ▸ .refl _, ⟨_, hserves.log.symm⟩, fun hwon => ?_⟩
    exact (h.won hwon).resolve_right fun heq => hne heq.1.symm
  admission_watcher _ h := by
    have hserves := h
    obtain ⟨_, _, hdecides, hserves, -⟩ := hserves
    refine ⟨hserves.chain ▸ .refl _, fun o hrecorded => ⟨?_, fun hwon => ?_⟩⟩
    · exact hserves.served.recorded hdecides.mild hrecorded
    · exact (h.won hwon).resolve_right fun heq => heq.2 (heq.1 ▸ hrecorded)
  watcher_admission h := by
    have hserves := h.1
    obtain ⟨_, _, hserves⟩ := hserves
    exact ⟨hserves.chain ▸ .refl _, ⟨_, hserves.log.symm⟩, h.won⟩
  grow_admission hgrows := ⟨hgrows, List.prefix_refl _, id⟩
  grow_watcher hgrows := ⟨hgrows, fun _ h => ⟨h, id⟩⟩
  decided_mono hlog h admission heq := hlog.subset (h admission heq)
  rested_stable _ h := h
  decide_secures := secures_decide
  poll_secures _ := Watcher.secures_poll allows_watcherTerms secures_recheck _ _

/-! ## Admissions of one outpoint -/

namespace Relay

/-- A step of the relay, or another watcher in the place of one that rests. -/
inductive Move : Relay B → Relay B → Prop
  | step {r s : Relay B} (h : r.Step s) : Move r s
  | exchange (r : Relay B) (w : Watcher) (htask : r.task = .resting w) (other : Watcher) :
      Move r { r with task := .resting other }

theorem Move.log_prefix {r s : Relay B} (h : r.Move s) : r.log <+: s.log := by
  cases h with
  | step h =>
      cases h with
      | admission => exact List.prefix_append _ _
      | watch => exact List.prefix_append _ _
      | _ => exact List.prefix_refl _
  | exchange => exact List.prefix_refl _

theorem Move.upheld {r s : Relay B} (h : r.Move s) (hr : onceDiscipline.Upheld r) :
    onceDiscipline.Upheld s := by
  cases h with
  | step h => exact hr.step h
  | exchange => exact ⟨hr.sane, hr.agrees, hr.runs, trivial⟩

theorem Admitted.win {r : Relay B} (h : r.Admitted i o) (hr : onceDiscipline.Upheld r) :
    Event.win i o ∈ r.log := by
  obtain ⟨run, hrun, rfl, hadmitted⟩ := h
  have hsecure := hr.runs i run hrun
  unfold AdmissionRun.admitted at hadmitted
  unfold Discipline.RunSecure at hsecure
  split at hadmitted
  next admission hphase =>
    rw [hphase] at hsecure
    exact hsecure admission rfl
  next => cases hadmitted

/-- However admissions, polls in either mode and new blocks alternate, and whichever requests fail,
no two runs are ever admitted under one outpoint. -/
theorem admitted_unique {surroundings : Surroundings B} {w : Watcher} {r s : Relay B}
    (hr : Relation.ReflTransGen Move (idle surroundings w) r)
    (hs : Relation.ReflTransGen Move r s) :
    ∀ i j, r.Admitted i o → s.Admitted j o → i = j := by
  intro i j hi hj
  have hidle : onceDiscipline.Upheld (idle surroundings w) :=
    Discipline.upheld_idle ⟨fun h => (List.not_mem_nil h).elim,
      fun ⟨_, h⟩ => (List.not_mem_nil h).elim, fun ⟨_, h⟩ => (List.not_mem_nil h).elim⟩ trivial
  -- what has been recorded stays in the log, so that both admissions can be seen at the end
  have hreaches : ∀ {r s : Relay B}, Relation.ReflTransGen Move r s → onceDiscipline.Upheld r →
      onceDiscipline.Upheld s ∧ r.log <+: s.log := by
    intro r s h hr
    induction h with
    | refl => exact ⟨hr, List.prefix_refl _⟩
    | tail _ hmove ih => exact ⟨hmove.upheld ih.1, ih.2.trans hmove.log_prefix⟩
  obtain ⟨hr, -⟩ := hreaches hr hidle
  obtain ⟨hs, hlog⟩ := hreaches hs hr
  exact hs.sane.unique (hlog.subset (hi.win hr)) (hj.win hs)

/-- Two runs for one output, of which the second comes to its turn only after the output has been
spent and the watcher has removed it. -/
def rivals : Relay MemoryStore.backend :=
  sample.turns
    ([.enqueue sampleMessage none, .enqueue sampleMessage none, .admission 0, .admission 1] ++
      List.replicate 4 (.admission 0) ++ [.block sampleSpend] ++ List.replicate 7 .watcher ++
      List.replicate 2 (.admission 0) ++ List.replicate 5 (.admission 1))

theorem admitted_unique_rivals :
    rivals.Admitted 0 sampleOutpoint ∧ ¬ rivals.scene.held.recorded sampleOutpoint ∧
      ∀ i j, rivals.Admitted i sampleOutpoint → rivals.Admitted j sampleOutpoint → i = j := by
  have hreaches : Relation.ReflTransGen Move sample rivals :=
    Relation.ReflTransGen.mono (fun _ _ => Move.step) _ _ (reaches_turns _ _)
  exact ⟨by decide +kernel, by decide +kernel, admitted_unique hreaches .refl⟩

end Relay

end ChatRelay
