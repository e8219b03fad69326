import ChatRelay.Proofs.Relay

/-!
# Slots are given up

A slot stays in the table as long as some run of its outpoint is under way, from its arrival until
it has tidied up. A run that tidies up takes the slot out of the table if nobody refers to it, and
otherwise leaves that to whoever does. So nothing is left in the table once no run is under way,
and nothing is taken out of it before.
-/

namespace ChatRelay

/-- Whether a run has arrived and has not tidied up yet. -/
def AdmissionRun.underway (run : AdmissionRun) : Bool :=
  match run.phase with
  | .arriving | .finished _ => false
  | .waiting _ | .inside _ _ | .leaving _ => true

/-- Whether a run has come to its end. -/
def AdmissionRun.ended (run : AdmissionRun) : Bool :=
  match run.phase with
  | .finished _ => true
  | _ => false

theorem AdmissionRun.underway_of_slot? {run : AdmissionRun} {slot : Nat}
    (h : run.slot? = some slot) : run.underway := by
  unfold slot? at h
  unfold underway
  split at h
  next hphase => rw [hphase]
  next hphase => rw [hphase]
  next => cases h

/-- Whether a run of an outpoint is under way. -/
def Attended (runs : List AdmissionRun) (o : Outpoint) : Prop :=
  ∃ run ∈ runs, run.message.outpoint = o ∧ run.underway

variable {before after : List AdmissionRun} {run : AdmissionRun} {o : Outpoint}

/-- A run may go on without being missed if it is under way afterwards as it was before. -/
theorem Attended.setPhase {phase : AdmissionPhase} (h : Attended (before ++ run :: after) o)
    (hrun : run.message.outpoint = o → run.underway → { run with phase }.underway) :
    Attended (before ++ { run with phase } :: after) o := by
  obtain ⟨attender, hmem, houtpoint, hunderway⟩ := h
  rcases List.mem_append.mp hmem with hbefore | hrest
  · exact ⟨attender, List.mem_append_left _ hbefore, houtpoint, hunderway⟩
  rcases List.mem_cons.mp hrest with rfl | hafter
  · exact ⟨_, List.mem_append_right _ List.mem_cons_self, houtpoint, hrun houtpoint hunderway⟩
  · exact ⟨attender, List.mem_append_right _ (List.mem_cons_of_mem _ hafter), houtpoint, hunderway⟩

namespace Slots

variable {slots : Slots}

/-! ## Every slot is needed -/

/-- Every outpoint that has a slot has a run under way. -/
def Needed (slots : Slots) (runs : List AdmissionRun) : Prop :=
  ∀ o slot, slots.table.get? o = some slot → Attended runs o

theorem Needed.arrive (h : slots.Needed (before ++ run :: after)) :
    (slots.take run.message.outpoint).2.Needed
      (before ++ { run with phase := .waiting (slots.take run.message.outpoint).1 } :: after) := by
  intro o slot hslot
  rw [get?_take] at hslot
  split at hslot
  next heq => exact ⟨_, List.mem_append_right _ List.mem_cons_self, heq.symm, rfl⟩
  next => exact (h o slot hslot).setPhase fun _ _ => rfl

/-- What a run that tidies up leaves in the table is needed by another run, which refers to it. -/
theorem Needed.tidy {result : Except Rejection Admission}
    (h : slots.Needed (before ++ run :: after)) (hagrees : slots.Agrees (before ++ run :: after))
    (hrun : run.phase = .leaving result) :
    (slots.tidy run.message.outpoint).Needed
      (before ++ { run with phase := .finished result } :: after) := by
  intro o slot hslot
  obtain ⟨hslot, hreferred⟩ := (get?_tidy _ _).mp hslot
  by_cases heq : o = run.message.outpoint
  · have hnone : run.slot? = none := by simp [AdmissionRun.slot?, hrun]
    have hrefers := hagrees.references.mem_iff.mp (hreferred heq)
    rw [Agrees.filterMap_absent hnone] at hrefers
    obtain ⟨other, hother, hholds⟩ := List.mem_filterMap.mp hrefers
    have hmem : ∀ own, other ∈ before ++ own :: after := fun own =>
      ((List.sublist_cons_self own after).append_left before).subset hother
    have hsame : other.message.outpoint = o :=
      hagrees.injective _ _ _ (hagrees.held other (hmem run) slot hholds) hslot
    exact ⟨other, hmem _, hsame, other.underway_of_slot? hholds⟩
  · exact (h o slot hslot).setPhase fun hsame => absurd hsame.symm heq

theorem Needed.eq_empty {runs : List AdmissionRun} (h : slots.Needed runs)
    (hidle : ∀ run ∈ runs, ¬ run.underway) : slots.table = .empty := by
  obtain ⟨⟨entries⟩, fresh, references, occupied⟩ := slots
  cases entries with
  | nil => rfl
  | cons entry rest =>
      have hslot : List.lookup entry.1 (entry :: rest) = some entry.2 := List.lookup_cons_self
      obtain ⟨run, hrun, -, hunderway⟩ := h entry.1 entry.2 hslot
      exact absurd hunderway (hidle run hrun)

end Slots

/-! ## Steps of runs -/

namespace Admissions

variable {σ : Type} {serve : (request : Request) → σ → request.Answer × σ} {a b : Admissions σ}
  {before after : List AdmissionRun} {run : AdmissionRun} {i : Nat}

theorem needed_enqueue (h : a.slots.Needed a.runs) (message : Message)
    (claimed : Option OwnerKey) :
    (a.enqueue message claimed).slots.Needed (a.enqueue message claimed).runs := by
  intro o slot hslot
  obtain ⟨run, hrun, hattends⟩ := h o slot hslot
  exact ⟨run, List.mem_append_left _ hrun, hattends⟩

theorem needed_step (h : a.slots.Needed a.runs) (hagrees : a.slots.Agrees a.runs) (i : Nat) :
    (a.step serve i).slots.Needed (a.step serve i).runs := by
  obtain hsame | ⟨before, run, after, phase, hruns, hmoved, hmoves⟩ := step_cases serve a i
  · rwa [hsame]
  rw [hruns] at h hagrees
  rw [hmoved]
  generalize (a.step serve i).slots = slots at hmoves ⊢
  -- a run that goes on is attending to its outpoint just as before
  have hstays : ∀ phase, { run with phase }.underway →
      a.slots.Needed (before ++ { run with phase } :: after) :=
    fun phase hunderway o slot hslot => (h o slot hslot).setPhase fun _ _ => hunderway
  cases hmoves with
  | arrive hphase => exact h.arrive
  | enter hphase hfree => exact hstays _ rfl
  | ask hphase answer => exact hstays _ rfl
  | leave hphase => exact hstays _ rfl
  | tidy hphase => exact h.tidy hagrees hphase

/-- A slot that somebody refers to stays in the table. -/
theorem get?_step {o : Outpoint} {slot : Nat} (hslot : a.slots.table.get? o = some slot)
    (hreferred : slot ∈ a.slots.references) (i : Nat) :
    (a.step serve i).slots.table.get? o = some slot := by
  obtain hsame | ⟨-, run, -, phase, -, -, hmoves⟩ := step_cases serve a i
  · rwa [hsame]
  generalize (a.step serve i).slots = slots at hmoves ⊢
  cases hmoves with
  | arrive hphase => exact Slots.get?_take_kept hslot
  | enter hphase hfree => exact hslot
  | ask hphase answer => exact hslot
  | leave hphase => exact hslot
  | tidy hphase => exact (Slots.get?_tidy _ _).mpr ⟨hslot, fun _ => hreferred⟩

/-! ## Any number of runs -/

/-- A message is handed in, or a run takes a step with its request answered in some way, or the
surroundings change by themselves. -/
inductive Step : Admissions σ → Admissions σ → Prop
  | enqueue (a : Admissions σ) (message : Message) (claimed : Option OwnerKey) :
      Step a (a.enqueue message claimed)
  | run (a : Admissions σ) (serve : (request : Request) → σ → request.Answer × σ) (i : Nat) :
      Step a (a.step serve i)
  | change (a : Admissions σ) (world : σ) : Step a { a with world }

theorem reaches_steps (a : Admissions σ) (schedule : List Nat) :
    Relation.ReflTransGen Step a (a.steps serve schedule) := by
  induction schedule generalizing a with
  | nil => exact .refl
  | cons i rest ih => exact .head (.run a serve i) (ih _)

/-- The bookkeeping agrees with the runs, and every slot is needed. -/
structure Kept (a : Admissions σ) : Prop where
  agrees : a.slots.Agrees a.runs
  needed : a.slots.Needed a.runs

theorem kept_idle (world : σ) : (idle world).Kept where
  agrees := .empty
  needed _ _ h := by cases h

theorem Kept.step (h : a.Kept) (hstep : a.Step b) : b.Kept := by
  cases hstep with
  | enqueue message claimed =>
      exact ⟨agrees_enqueue h.agrees message claimed, needed_enqueue h.needed message claimed⟩
  | run serve i => exact ⟨agrees_step h.agrees i, needed_step h.needed h.agrees i⟩
  | change world => exact ⟨h.agrees, h.needed⟩

theorem Kept.reached (h : a.Kept) (hreached : Relation.ReflTransGen Step a b) : b.Kept := by
  induction hreached with
  | refl => exact h
  | tail _ hstep ih => exact ih.step hstep

/-- A step takes a slot out of the table only if no run refers to it. -/
theorem Kept.not_referred (h : a.Kept) (hstep : a.Step b) {o : Outpoint} {slot : Nat}
    (hslot : a.slots.table.get? o = some slot) (hgone : b.slots.table.get? o ≠ some slot) :
    ∀ run ∈ a.runs, run.slot? ≠ some slot := by
  intro run hrun hrefers
  have hreferred : slot ∈ a.slots.references :=
    h.agrees.references.mem_iff.mpr (List.mem_filterMap.mpr ⟨run, hrun, hrefers⟩)
  cases hstep with
  | enqueue message claimed => exact hgone hslot
  | run serve i => exact hgone (get?_step hslot hreferred i)
  | change world => exact hgone hslot

/-! ## Coming to an end -/

theorem steps_append (first second : List Nat) :
    a.steps serve (first ++ second) = (a.steps serve first).steps serve second :=
  List.foldl_append

theorem getElem?_split (hruns : a.runs = before ++ run :: after) :
    a.runs[before.length]? = some run := by
  simp [hruns]

theorem setPhase_split (hruns : a.runs = before ++ run :: after) (slots : Slots) (world : σ)
    (phase : AdmissionPhase) :
    (setPhase ⟨slots, world, a.runs⟩ before.length phase).runs =
      before ++ { run with phase } :: after := by
  rw [setPhase, hruns, List.modify_eq_take_cons_drop (by simp)]
  simp

variable (serve) in
/-- By some steps the run between two lists of others comes to its end, and the others stand
still. -/
def CanEnd (a : Admissions σ) (before : List AdmissionRun) (run : AdmissionRun)
    (after : List AdmissionRun) : Prop :=
  ∃ schedule result,
    (a.steps serve schedule).runs = before ++ { run with phase := .finished result } :: after

/-- A run can end if it can after one step of its own. -/
theorem CanEnd.of_step (i : Nat) (phase : AdmissionPhase)
    (h : CanEnd serve (a.step serve i) before { run with phase } after) :
    CanEnd serve a before run after := by
  obtain ⟨schedule, result, hend⟩ := h
  exact ⟨i :: schedule, result, hend⟩

theorem canEnd_leaving {result : Except Rejection Admission}
    (hruns : a.runs = before ++ run :: after) (hphase : run.phase = .leaving result) :
    CanEnd serve a before run after := by
  refine ⟨[before.length], result, ?_⟩
  rw [steps, List.foldl_cons, List.foldl_nil, step_leaving (getElem?_split hruns) hphase]
  exact setPhase_split hruns ..

theorem canEnd_inside {slot : Nat} {rest : Routine Request.Answer (Except Rejection Admission)}
    (hruns : a.runs = before ++ run :: after) (hphase : run.phase = .inside slot rest) :
    CanEnd serve a before run after := by
  induction rest generalizing a run with
  | done result =>
      apply CanEnd.of_step before.length (.leaving result)
      rw [step_deciding (getElem?_split hruns) hphase]
      exact canEnd_leaving (setPhase_split hruns ..) rfl
  | ask request next ih =>
      apply CanEnd.of_step before.length (.inside slot (next (serve request a.world).1))
      rw [step_asking (getElem?_split hruns) hphase]
      exact ih _ (setPhase_split hruns ..) rfl

theorem canEnd_waiting {slot : Nat} (hruns : a.runs = before ++ run :: after)
    (hphase : run.phase = .waiting slot) (hfree : a.slots.occupied = []) :
    CanEnd serve a before run after := by
  apply CanEnd.of_step before.length
    (.inside slot (Admission.decide run.message run.claimed))
  rw [step_waiting (getElem?_split hruns) hphase (by simp [hfree])]
  exact canEnd_inside (setPhase_split hruns ..) rfl

/-- While nobody is inside a slot, every run can end. -/
theorem canEnd_free (hruns : a.runs = before ++ run :: after) (hfree : a.slots.occupied = []) :
    CanEnd serve a before run after := by
  cases hphase : run.phase with
  | arriving =>
      apply CanEnd.of_step before.length (.waiting (a.slots.take run.message.outpoint).1)
      rw [step_arriving (getElem?_split hruns) hphase]
      exact canEnd_waiting (setPhase_split hruns ..) rfl (by simpa [setPhase] using hfree)
  | waiting slot => exact canEnd_waiting hruns hphase hfree
  | inside slot rest => exact canEnd_inside hruns hphase
  | leaving result => exact canEnd_leaving hruns hphase
  | finished result => exact ⟨[], result, by simpa [steps, ← hphase] using hruns⟩

variable (serve) in
/-- As long as not all runs have ended, one that has not can. -/
theorem Kept.exists_canEnd (h : a.Kept) (hsome : ∃ run ∈ a.runs, ¬ run.ended) :
    ∃ before run after, a.runs = before ++ run :: after ∧ ¬ run.ended ∧
      CanEnd serve a before run after := by
  cases hoccupied : a.slots.occupied with
  | nil =>
      obtain ⟨run, hrun, hopen⟩ := hsome
      obtain ⟨before, after, hruns⟩ := List.append_of_mem hrun
      exact ⟨before, run, after, hruns, hopen, canEnd_free hruns hoccupied⟩
  | cons slot others =>
      have hmem : slot ∈ a.runs.filterMap AdmissionRun.inside? :=
        h.agrees.occupied.mem_iff.mp (by simp [hoccupied])
      obtain ⟨run, hrun, hinside⟩ := List.mem_filterMap.mp hmem
      obtain ⟨before, after, hruns⟩ := List.append_of_mem hrun
      unfold AdmissionRun.inside? at hinside
      split at hinside
      next own rest hphase =>
        exact ⟨before, run, after, hruns, by simp [AdmissionRun.ended, hphase],
          canEnd_inside hruns hphase⟩
      next => cases hinside

/-- Nobody waits for ever: from wherever they are, all runs can come to their ends. -/
theorem Kept.exists_ended (h : a.Kept) :
    ∃ schedule, ∀ run ∈ (a.steps serve schedule).runs, run.ended := by
  -- on the number of runs that have not ended
  generalize hcount : a.runs.countP (fun run => !run.ended) = count
  induction count generalizing a with
  | zero =>
      refine ⟨[], fun run hrun => ?_⟩
      simpa using List.countP_eq_zero.mp hcount run hrun
  | succ count ih =>
      have hsome : ∃ run ∈ a.runs, ¬ run.ended := by
        have hpos : 0 < a.runs.countP fun run => !run.ended := hcount ▸ Nat.succ_pos count
        obtain ⟨run, hrun, hopen⟩ := List.countP_pos_iff.mp hpos
        exact ⟨run, hrun, by simpa using hopen⟩
      obtain ⟨before, run, after, hruns, hopen, schedule, result, hend⟩ :=
        h.exists_canEnd serve hsome
      have hless : (a.steps serve schedule).runs.countP (fun run => !run.ended) = count := by
        rw [hruns, List.countP_append, List.countP_cons_of_pos (by simpa using hopen)] at hcount
        rw [hend, List.countP_append, List.countP_cons_of_neg (by simp [AdmissionRun.ended])]
        omega
      obtain ⟨later, hall⟩ := ih (h.reached (reaches_steps a schedule)) hless
      exact ⟨schedule ++ later, by rwa [steps_append]⟩

/-- However runs on any outpoints alternate, and whatever their requests are answered: at most one
run is inside the slot of an outpoint; a run that waits for a slot or is inside one refers to the
slot of its outpoint in the table; no step takes a slot out of the table that a run refers to; the
table is empty when no run is under way; and all runs can come to their ends. -/
theorem slots_kept {world : σ} (hreached : Relation.ReflTransGen Step (idle world) a) :
    (∀ (i j : Nat) (first second : AdmissionRun), a.runs[i]? = some first →
      a.runs[j]? = some second → first.message.outpoint = second.message.outpoint →
      first.inside?.isSome → second.inside?.isSome → i = j) ∧
    (∀ run ∈ a.runs, ∀ slot, run.slot? = some slot →
      a.slots.table.get? run.message.outpoint = some slot) ∧
    (∀ b, a.Step b → ∀ o slot, a.slots.table.get? o = some slot →
      b.slots.table.get? o ≠ some slot → ∀ run ∈ a.runs, run.slot? ≠ some slot) ∧
    ((∀ run ∈ a.runs, ¬ run.underway) → a.slots.table = .empty) ∧
    ∀ serve, ∃ schedule, ∀ run ∈ (a.steps serve schedule).runs, run.ended := by
  have h : a.Kept := (kept_idle world).reached hreached
  exact ⟨fun i j _ _ hi hj houtpoint => h.agrees.inside_unique hi hj houtpoint, h.agrees.held,
    fun b hstep _ _ => h.not_referred hstep, h.needed.eq_empty, fun _ => h.exists_ended⟩

/-! ## Two runs of one outpoint -/

/-- The first of two runs is inside the slot that the second waits for. -/
def queued : Admissions (Surroundings MemoryStore.backend) :=
  (((idle ⟨⟨MemoryStore.empty, MemoryStore.sound_empty⟩, sampleChain⟩).enqueue
    sampleMessage none).enqueue sampleMessage none).steps Surroundings.serve [0, 1, 0, 1]

/-- The first run has left the slot and tries to give it up, and the second has come to its end. -/
def served : Admissions (Surroundings MemoryStore.backend) :=
  queued.steps Surroundings.serve ([0, 0, 0, 0, 0] ++ [1, 1, 1, 1])

theorem reached_queued : Relation.ReflTransGen Step
    (idle ⟨⟨MemoryStore.empty, MemoryStore.sound_empty⟩, sampleChain⟩) queued :=
  .head (.enqueue _ sampleMessage none) (.head (.enqueue _ sampleMessage none) (reaches_steps _ _))

theorem reached_served : Relation.ReflTransGen Step
    (idle ⟨⟨MemoryStore.empty, MemoryStore.sound_empty⟩, sampleChain⟩) served :=
  reached_queued.trans (reaches_steps queued _)

/-- The slot outlives the first run, which leaves it to the second, and is gone after that. -/
theorem slots_kept_queued :
    Relation.ReflTransGen Step
        (idle ⟨⟨MemoryStore.empty, MemoryStore.sound_empty⟩, sampleChain⟩) queued ∧
      queued.runs.map AdmissionRun.slot? = [some 0, some 0] ∧
      queued.runs.map AdmissionRun.inside? = [some 0, none] ∧
      (∀ run ∈ queued.runs, ∀ slot, run.slot? = some slot →
        queued.slots.table.get? run.message.outpoint = some slot) ∧
      (queued.steps Surroundings.serve [0, 0, 0, 0, 0]).slots.table.get? sampleOutpoint = some 0 ∧
      (∀ run ∈ served.runs, ¬ run.underway) ∧ served.slots.table = .empty := by
  have hserved : ∀ run ∈ served.runs, ¬ run.underway := by decide +kernel
  exact ⟨reached_queued, by decide +kernel, by decide +kernel, (slots_kept reached_queued).2.1,
    by decide +kernel, hserved, (slots_kept reached_served).2.2.2.1 hserved⟩

end Admissions

end ChatRelay
