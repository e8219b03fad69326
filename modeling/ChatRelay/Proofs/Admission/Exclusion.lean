import ChatRelay.Admission.Slots
import Mathlib.Data.List.Perm.Basic
import Mathlib.Data.List.Nodup

/-!
# Slots exclude one another

The references and the occupied slots are exactly those of the runs, no two outpoints have the same
slot, and an outpoint keeps its slot for as long as a run refers to it. Every step of every run
keeps this, whatever the requests are answered. So two runs of one outpoint are never inside a
slot at the same time.
-/

namespace ChatRelay

/-- The slot that a run refers to. -/
def AdmissionRun.slot? (run : AdmissionRun) : Option Nat :=
  match run.phase with
  | .waiting slot | .inside slot _ => some slot
  | _ => none

/-- The slot that a run is inside. -/
def AdmissionRun.inside? (run : AdmissionRun) : Option Nat :=
  match run.phase with
  | .inside slot _ => some slot
  | _ => none

theorem AdmissionRun.slot?_of_inside? {run : AdmissionRun} {slot : Nat}
    (h : run.inside? = some slot) : run.slot? = some slot := by
  unfold inside? at h
  unfold slot?
  split at h
  next hphase => rw [hphase, ← h]
  next => cases h

namespace Slots

/-! ## What the operations do -/

variable {slots : Slots} {outpoint : Outpoint}

theorem take_old {slot : Nat} (h : slots.table.get? outpoint = some slot) :
    slots.take outpoint = (slot, { slots with references := slot :: slots.references }) := by
  simp [take, h]

theorem take_new (h : slots.table.get? outpoint = none) :
    slots.take outpoint = (slots.fresh,
      { slots with
        table := slots.table.insert outpoint slots.fresh
        fresh := slots.fresh + 1
        references := slots.fresh :: slots.references }) := by
  simp [take, h]

@[simp] theorem references_take :
    (slots.take outpoint).2.references = (slots.take outpoint).1 :: slots.references := by
  unfold take
  split <;> rfl

@[simp] theorem occupied_take : (slots.take outpoint).2.occupied = slots.occupied := by
  unfold take
  split <;> rfl

/-- Taking a slot gives the outpoint one and leaves those of the others. -/
theorem get?_take (other : Outpoint) :
    (slots.take outpoint).2.table.get? other =
      if other = outpoint then some (slots.take outpoint).1 else slots.table.get? other := by
  cases h : slots.table.get? outpoint with
  | some slot =>
      rw [take_old h]
      by_cases heq : other = outpoint
      · simp [heq, h]
      · simp [heq]
  | none =>
      rw [take_new h]
      exact Table.get?_insert ..

theorem get?_take_kept {other : Outpoint} {slot : Nat} (h : slots.table.get? other = some slot) :
    (slots.take outpoint).2.table.get? other = some slot := by
  rw [get?_take]
  split
  next heq =>
    rw [heq] at h
    rw [take_old h]
  next => exact h

@[simp] theorem references_tidy : (slots.tidy outpoint).references = slots.references := by
  unfold tidy
  split
  · split <;> rfl
  · rfl

@[simp] theorem occupied_tidy : (slots.tidy outpoint).occupied = slots.occupied := by
  unfold tidy
  split
  · split <;> rfl
  · rfl

@[simp] theorem fresh_tidy : (slots.tidy outpoint).fresh = slots.fresh := by
  unfold tidy
  split
  · split <;> rfl
  · rfl

/-- Tidying up takes away the slot of its outpoint only, and only if nobody refers to it. -/
theorem get?_tidy (other : Outpoint) (slot : Nat) :
    (slots.tidy outpoint).table.get? other = some slot ↔
      slots.table.get? other = some slot ∧ (other = outpoint → slot ∈ slots.references) := by
  cases h : slots.table.get? outpoint with
  | none =>
      rw [tidy, h]
      refine ⟨fun hother => ⟨hother, ?_⟩, And.left⟩
      rintro rfl
      rw [h] at hother
      cases hother
  | some own =>
      by_cases hreferred : own ∈ slots.references
      · have hsame : slots.tidy outpoint = slots := by simp [tidy, h, hreferred]
        rw [hsame]
        refine ⟨fun hother => ⟨hother, ?_⟩, And.left⟩
        rintro rfl
        rw [h, Option.some.injEq] at hother
        exact hother ▸ hreferred
      · have herase : (slots.tidy outpoint).table = slots.table.erase outpoint := by
          simp [tidy, h, hreferred]
        rw [herase, Table.get?_erase]
        by_cases heq : other = outpoint
        · subst heq
          simp only [if_true, reduceCtorEq, h, Option.some.injEq, true_imp_iff, false_iff, not_and]
          rintro rfl
          exact hreferred
        · simp [heq]

end Slots

/-! ## Agreement of slots and runs -/

/-- The bookkeeping of slots agrees with where the runs are. -/
structure Slots.Agrees (slots : Slots) (runs : List AdmissionRun) : Prop where
  references : slots.references.Perm (runs.filterMap AdmissionRun.slot?)
  occupied : slots.occupied.Perm (runs.filterMap AdmissionRun.inside?)
  nodup : slots.occupied.Nodup
  held : ∀ run ∈ runs, ∀ slot, run.slot? = some slot →
    slots.table.get? run.message.outpoint = some slot
  fresh : ∀ o slot, slots.table.get? o = some slot → slot < slots.fresh
  injective : ∀ o p slot, slots.table.get? o = some slot → slots.table.get? p = some slot → o = p

namespace Slots.Agrees

variable {slots : Slots} {before after : List AdmissionRun} {run : AdmissionRun}

theorem held_split {P : AdmissionRun → Prop} :
    (∀ other ∈ before ++ run :: after, P other) ↔
      (∀ other ∈ before, P other) ∧ P run ∧ ∀ other ∈ after, P other := by
  rw [List.forall_mem_append, List.forall_mem_cons]

theorem filterMap_present {f : AdmissionRun → Option Nat} {slot : Nat} (h : f run = some slot) :
    ((before ++ run :: after).filterMap f).Perm (slot :: (before ++ after).filterMap f) := by
  rw [List.filterMap_append, List.filterMap_cons_some h, List.filterMap_append]
  exact List.perm_middle

theorem filterMap_absent {f : AdmissionRun → Option Nat} (h : f run = none) :
    (before ++ run :: after).filterMap f = (before ++ after).filterMap f := by
  rw [List.filterMap_append, List.filterMap_cons_none h, List.filterMap_append]

theorem empty : Slots.empty.Agrees [] where
  references := List.Perm.refl _
  occupied := List.Perm.refl _
  nodup := List.nodup_nil
  held _ h := by cases h
  fresh _ _ h := by cases h
  injective _ _ _ h := by cases h

/-- Agreement depends on a run only through its outpoint and where it is. -/
theorem replace (h : slots.Agrees (before ++ run :: after)) {other : AdmissionRun}
    (houtpoint : other.message.outpoint = run.message.outpoint)
    (hslot : other.slot? = run.slot?) (hinside : other.inside? = run.inside?) :
    slots.Agrees (before ++ other :: after) where
  references := by
    have hreferences := h.references
    rw [List.filterMap_append, List.filterMap_cons] at hreferences ⊢
    rwa [hslot]
  occupied := by
    have hoccupied := h.occupied
    rw [List.filterMap_append, List.filterMap_cons] at hoccupied ⊢
    rwa [hinside]
  nodup := h.nodup
  held := by
    obtain ⟨hbefore, hrun, hafter⟩ := held_split.mp h.held
    refine held_split.mpr ⟨hbefore, fun slot heq => ?_, hafter⟩
    rw [houtpoint]
    exact hrun slot (hslot ▸ heq)
  fresh := h.fresh
  injective := h.injective

theorem arrive (h : slots.Agrees (before ++ run :: after)) (hrun : run.phase = .arriving) :
    (slots.take run.message.outpoint).2.Agrees
      (before ++ { run with phase := .waiting (slots.take run.message.outpoint).1 } :: after) where
  references := by
    have hslot : run.slot? = none := by simp [AdmissionRun.slot?, hrun]
    have hreferences := h.references
    rw [filterMap_absent hslot] at hreferences
    rw [references_take]
    exact (hreferences.cons _).trans (filterMap_present rfl).symm
  occupied := by
    have hinside : run.inside? = none := by simp [AdmissionRun.inside?, hrun]
    have hoccupied := h.occupied
    rw [filterMap_absent hinside] at hoccupied
    rw [occupied_take, filterMap_absent rfl]
    exact hoccupied
  nodup := by
    rw [occupied_take]
    exact h.nodup
  held := by
    obtain ⟨hbefore, -, hafter⟩ := held_split.mp h.held
    refine held_split.mpr ⟨?_, ?_, ?_⟩
    · intro other hother slot heq
      exact get?_take_kept (hbefore other hother slot heq)
    · intro slot heq
      rw [get?_take, if_pos rfl]
      exact heq
    · intro other hother slot heq
      exact get?_take_kept (hafter other hother slot heq)
  fresh o slot hslot := by
    cases hget : slots.table.get? run.message.outpoint with
    | some own =>
        rw [take_old hget] at hslot ⊢
        exact h.fresh o slot hslot
    | none =>
        rw [get?_take, take_new hget] at hslot
        rw [take_new hget]
        split at hslot
        next => exact (Option.some.inj hslot) ▸ Nat.lt_succ_self _
        next => exact Nat.lt_succ_of_lt (h.fresh o slot hslot)
  injective o p slot ho hp := by
    cases hget : slots.table.get? run.message.outpoint with
    | some own =>
        rw [take_old hget] at ho hp
        exact h.injective o p slot ho hp
    | none =>
        -- a new slot has a number that no outpoint's slot has
        rw [get?_take, take_new hget] at ho hp
        split at ho <;> split at hp
        next heq heq' => rw [heq, heq']
        next =>
          have hlt := h.fresh p slot hp
          exact absurd (Option.some.inj ho) (by dsimp only; omega)
        next =>
          have hlt := h.fresh o slot ho
          exact absurd (Option.some.inj hp) (by dsimp only; omega)
        next => exact h.injective o p slot ho hp

theorem enter (h : slots.Agrees (before ++ run :: after)) {slot : Nat}
    (hrun : run.phase = .waiting slot) (hfree : slot ∉ slots.occupied)
    (rest : Routine Request.Answer (Except Rejection Admission)) :
    (slots.enter slot).Agrees (before ++ { run with phase := .inside slot rest } :: after) where
  references := by
    have hslot : run.slot? = some slot := by simp [AdmissionRun.slot?, hrun]
    exact h.references.trans ((filterMap_present hslot).trans (filterMap_present rfl).symm)
  occupied := by
    have hinside : run.inside? = none := by simp [AdmissionRun.inside?, hrun]
    have hoccupied := h.occupied
    rw [filterMap_absent hinside] at hoccupied
    exact (hoccupied.cons slot).trans (filterMap_present rfl).symm
  nodup := List.nodup_cons.mpr ⟨hfree, h.nodup⟩
  held := by
    obtain ⟨hbefore, hheld, hafter⟩ := held_split.mp h.held
    refine held_split.mpr ⟨hbefore, fun other heq => hheld other ?_, hafter⟩
    simpa [AdmissionRun.slot?, hrun] using heq
  fresh := h.fresh
  injective := h.injective

theorem leave (h : slots.Agrees (before ++ run :: after)) {slot : Nat}
    {rest : Routine Request.Answer (Except Rejection Admission)}
    (hrun : run.phase = .inside slot rest) (result : Except Rejection Admission) :
    (slots.leave slot).Agrees (before ++ { run with phase := .leaving result } :: after) where
  references := by
    have hslot : run.slot? = some slot := by simp [AdmissionRun.slot?, hrun]
    have herase := (h.references.trans (filterMap_present hslot)).erase slot
    rw [List.erase_cons_head] at herase
    rw [filterMap_absent rfl]
    exact herase
  occupied := by
    have hinside : run.inside? = some slot := by simp [AdmissionRun.inside?, hrun]
    have herase := (h.occupied.trans (filterMap_present hinside)).erase slot
    rw [List.erase_cons_head] at herase
    rw [filterMap_absent rfl]
    exact herase
  nodup := h.nodup.erase slot
  held := by
    obtain ⟨hbefore, -, hafter⟩ := held_split.mp h.held
    exact held_split.mpr ⟨hbefore, fun _ heq => (Option.some_ne_none _ heq.symm).elim, hafter⟩
  fresh := h.fresh
  injective := h.injective

/-- A slot that a run refers to is not given up. -/
theorem tidy {runs : List AdmissionRun} (h : slots.Agrees runs) (outpoint : Outpoint) :
    (slots.tidy outpoint).Agrees runs where
  references := by
    rw [references_tidy]
    exact h.references
  occupied := by
    rw [occupied_tidy]
    exact h.occupied
  nodup := by
    rw [occupied_tidy]
    exact h.nodup
  held run hrun slot hslot := by
    refine (get?_tidy _ _).mpr ⟨h.held run hrun slot hslot, fun _ => ?_⟩
    exact h.references.mem_iff.mpr (List.mem_filterMap.mpr ⟨run, hrun, hslot⟩)
  fresh o slot hslot := by
    rw [fresh_tidy]
    exact h.fresh o slot ((get?_tidy _ _).mp hslot).1
  injective o p slot ho hp :=
    h.injective o p slot ((get?_tidy _ _).mp ho).1 ((get?_tidy _ _).mp hp).1

/-- Two runs of one outpoint that are inside a slot are one run. -/
theorem inside_unique {runs : List AdmissionRun} (h : slots.Agrees runs) {i j : Nat}
    {first second : AdmissionRun} (hi : runs[i]? = some first) (hj : runs[j]? = some second)
    (houtpoint : first.message.outpoint = second.message.outpoint)
    (hfirst : first.inside?.isSome) (hsecond : second.inside?.isSome) : i = j := by
  obtain ⟨slot, hslot⟩ := Option.isSome_iff_exists.mp hfirst
  obtain ⟨slot', hslot'⟩ := Option.isSome_iff_exists.mp hsecond
  have hsame : slot = slot' := by
    have hget := h.held first (List.mem_of_getElem? hi) slot (first.slot?_of_inside? hslot)
    have hget' := h.held second (List.mem_of_getElem? hj) slot' (second.slot?_of_inside? hslot')
    rw [houtpoint, hget', Option.some.injEq] at hget
    exact hget.symm
  subst hsame
  -- otherwise the slot would stand twice among the occupied ones
  have hpairwise := List.pairwise_filterMap.mp (h.occupied.nodup_iff.mp h.nodup)
  rw [List.pairwise_iff_getElem] at hpairwise
  obtain ⟨hilt, rfl⟩ := List.getElem?_eq_some_iff.mp hi
  obtain ⟨hjlt, rfl⟩ := List.getElem?_eq_some_iff.mp hj
  rcases Nat.lt_trichotomy i j with hlt | heq | hlt
  · exact absurd rfl (hpairwise i j hilt hjlt hlt slot hslot slot hslot')
  · exact heq
  · exact absurd rfl (hpairwise j i hjlt hilt hlt slot hslot' slot hslot)

end Slots.Agrees

/-! ## Steps of runs -/

namespace Admissions

variable {σ : Type} {serve : (request : Request) → σ → request.Answer × σ} {a : Admissions σ}
  {i j : Nat} {run : AdmissionRun} {phase : AdmissionPhase}

theorem getElem?_setPhase {runs : List AdmissionRun} (h : runs[i]? = some run) (slots : Slots)
    (world : σ) :
    (setPhase ⟨slots, world, runs⟩ i phase).runs[j]? =
      if j = i then some { run with phase } else runs[j]? := by
  rw [setPhase, List.getElem?_modify]
  by_cases hji : j = i
  · simp [hji, h]
  · simp [hji, Ne.symm hji]

/-- The runs before and after run `i`, which alone is changed by giving it a phase. -/
theorem exists_runs_split {runs : List AdmissionRun} (h : runs[i]? = some run) :
    ∃ before after, runs = before ++ run :: after ∧
      ∀ (slots : Slots) (world : σ) (phase : AdmissionPhase),
        (setPhase ⟨slots, world, runs⟩ i phase).runs = before ++ { run with phase } :: after := by
  obtain ⟨hi, hget⟩ := List.getElem?_eq_some_iff.mp h
  refine ⟨runs.take i, runs.drop (i + 1), ?_, fun slots world phase => ?_⟩
  · rw [← hget, List.getElem_cons_drop, List.take_append_drop]
  · rw [setPhase, List.modify_eq_take_cons_drop hi, hget]

theorem step_absent (h : a.runs[i]? = none) : a.step serve i = a := by
  rw [step, h]

theorem step_arriving (h : a.runs[i]? = some run) (hphase : run.phase = .arriving) :
    a.step serve i =
      { a with slots := (a.slots.take run.message.outpoint).2 }.setPhase i
        (.waiting (a.slots.take run.message.outpoint).1) := by
  rw [step, h]
  simp only [hphase]

theorem step_blocked {slot : Nat} (h : a.runs[i]? = some run) (hphase : run.phase = .waiting slot)
    (hoccupied : slot ∈ a.slots.occupied) : a.step serve i = a := by
  rw [step, h]
  simp only [hphase, List.contains_iff_mem, hoccupied, if_true]

theorem step_waiting {slot : Nat} (h : a.runs[i]? = some run) (hphase : run.phase = .waiting slot)
    (hfree : slot ∉ a.slots.occupied) :
    a.step serve i =
      { a with slots := a.slots.enter slot }.setPhase i
        (.inside slot (Admission.decide run.message run.claimed)) := by
  rw [step, h]
  simp only [hphase, List.contains_iff_mem, hfree, if_false]

theorem step_asking {slot : Nat} {request : Request}
    {next : request.Answer → Routine Request.Answer (Except Rejection Admission)}
    (h : a.runs[i]? = some run) (hphase : run.phase = .inside slot (.ask request next)) :
    a.step serve i =
      { a with world := (serve request a.world).2 }.setPhase i
        (.inside slot (next (serve request a.world).1)) := by
  rw [step, h]
  simp only [hphase]

theorem step_deciding {slot : Nat} {result : Except Rejection Admission}
    (h : a.runs[i]? = some run) (hphase : run.phase = .inside slot (.done result)) :
    a.step serve i = { a with slots := a.slots.leave slot }.setPhase i (.leaving result) := by
  rw [step, h]
  simp only [hphase]

theorem step_leaving {result : Except Rejection Admission} (h : a.runs[i]? = some run)
    (hphase : run.phase = .leaving result) :
    a.step serve i =
      { a with slots := a.slots.tidy run.message.outpoint }.setPhase i (.finished result) := by
  rw [step, h]
  simp only [hphase]

theorem step_finished {result : Except Rejection Admission} (h : a.runs[i]? = some run)
    (hphase : run.phase = .finished result) : a.step serve i = a := by
  rw [step, h]
  simp only [hphase]

/-- What a run does to the slots by a step, and the phase that it goes to. -/
inductive Moves (run : AdmissionRun) (slots : Slots) : Slots → AdmissionPhase → Prop
  | arrive (hphase : run.phase = .arriving) :
      Moves run slots (slots.take run.message.outpoint).2
        (.waiting (slots.take run.message.outpoint).1)
  | enter {slot : Nat} (hphase : run.phase = .waiting slot) (hfree : slot ∉ slots.occupied) :
      Moves run slots (slots.enter slot)
        (.inside slot (Admission.decide run.message run.claimed))
  | ask {slot : Nat} {request : Request}
      {next : request.Answer → Routine Request.Answer (Except Rejection Admission)}
      (hphase : run.phase = .inside slot (.ask request next)) (answer : request.Answer) :
      Moves run slots slots (.inside slot (next answer))
  | leave {slot : Nat} {result : Except Rejection Admission}
      (hphase : run.phase = .inside slot (.done result)) :
      Moves run slots (slots.leave slot) (.leaving result)
  | tidy {result : Except Rejection Admission} (hphase : run.phase = .leaving result) :
      Moves run slots (slots.tidy run.message.outpoint) (.finished result)

variable (serve a i) in
/-- A step changes nothing, or one run moves and the others stand still. -/
theorem step_cases : a.step serve i = a ∨
    ∃ before run after phase, a.runs = before ++ run :: after ∧
      (a.step serve i).runs = before ++ { run with phase } :: after ∧
      Moves run a.slots (a.step serve i).slots phase := by
  cases hrun : a.runs[i]? with
  | none => exact .inl (step_absent hrun)
  | some run =>
      obtain ⟨before, after, hruns, hset⟩ := exists_runs_split hrun
      cases hphase : run.phase with
      | arriving =>
          rw [step_arriving hrun hphase]
          exact .inr ⟨before, run, after, _, hruns, hset .., .arrive hphase⟩
      | waiting slot =>
          by_cases hoccupied : slot ∈ a.slots.occupied
          · exact .inl (step_blocked hrun hphase hoccupied)
          · rw [step_waiting hrun hphase hoccupied]
            exact .inr ⟨before, run, after, _, hruns, hset .., .enter hphase hoccupied⟩
      | inside slot rest =>
          cases rest with
          | done result =>
              rw [step_deciding hrun hphase]
              exact .inr ⟨before, run, after, _, hruns, hset .., .leave hphase⟩
          | ask request next =>
              rw [step_asking hrun hphase]
              exact .inr ⟨before, run, after, _, hruns, hset .., .ask hphase _⟩
      | leaving result =>
          rw [step_leaving hrun hphase]
          exact .inr ⟨before, run, after, _, hruns, hset .., .tidy hphase⟩
      | finished result => exact .inl (step_finished hrun hphase)

theorem agrees_enqueue (h : a.slots.Agrees a.runs) (message : Message)
    (claimed : Option OwnerKey) :
    (a.enqueue message claimed).slots.Agrees (a.enqueue message claimed).runs where
  references := by
    rw [enqueue, Slots.Agrees.filterMap_absent rfl, List.append_nil]
    exact h.references
  occupied := by
    rw [enqueue, Slots.Agrees.filterMap_absent rfl, List.append_nil]
    exact h.occupied
  nodup := h.nodup
  held := by
    refine List.forall_mem_append.mpr ⟨h.held, fun run hrun slot hslot => ?_⟩
    rw [List.mem_singleton.mp hrun] at hslot
    cases hslot
  fresh := h.fresh
  injective := h.injective

theorem agrees_step (h : a.slots.Agrees a.runs) (i : Nat) :
    (a.step serve i).slots.Agrees (a.step serve i).runs := by
  obtain hsame | ⟨before, run, after, phase, hruns, hmoved, hmoves⟩ := step_cases serve a i
  · rwa [hsame]
  rw [hruns] at h
  rw [hmoved]
  generalize (a.step serve i).slots = slots at hmoves ⊢
  cases hmoves with
  | arrive hphase => exact h.arrive hphase
  | enter hphase hfree => exact h.enter hphase hfree _
  | ask hphase answer =>
      exact h.replace rfl (by simp [AdmissionRun.slot?, hphase])
        (by simp [AdmissionRun.inside?, hphase])
  | leave hphase => exact h.leave hphase _
  | @tidy result hphase =>
      have hfinished : a.slots.Agrees (before ++ { run with phase := .finished result } :: after) :=
        h.replace rfl (by simp [AdmissionRun.slot?, hphase])
          (by simp [AdmissionRun.inside?, hphase])
      exact hfinished.tidy run.message.outpoint

end Admissions

end ChatRelay
