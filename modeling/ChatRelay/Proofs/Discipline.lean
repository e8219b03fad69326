import ChatRelay.Proofs.Relay
import ChatRelay.Proofs.Interference

/-!
# Disciplines of a relay

A discipline gives every admission and the watcher terms to work under, such that what one of them
guarantees is what the others rely on. Runs that are inside slots at the same time have different
outpoints, so an admission owes the others only what concerns other outpoints than its own. If
every task is secure under its terms, the discipline is upheld in all that the relay comes to.
-/

namespace ChatRelay

open Routine (Terms Secures)

/-- Terms for the tasks of a relay, and what holds in every scene. -/
structure Discipline where
  sane : Scene → Prop
  /-- The terms of a run of admission for an outpoint. -/
  admission : Nat → Outpoint → Terms Request.Answer Scene
  decided : Nat → Outpoint → Except Rejection Admission → Scene → Prop
  watcher : Terms Request.Answer Scene
  rested : Watcher → Scene → Prop
  admission_serves : ∀ {i o request s answer t}, sane s →
    Scene.Serves (.admission i) request s answer t → (admission i o).serves request s answer t
  watcher_serves : ∀ {request s answer t}, sane s →
    Scene.Serves .watcher request s answer t → watcher.serves request s answer t
  admission_sane : ∀ {i o s t}, sane s → (admission i o).guarantee s t → sane t
  watcher_sane : ∀ {s t}, sane s → watcher.guarantee s t → sane t
  grow_sane : ∀ {s : Scene} {chain}, sane s → s.chain.Grows chain → sane { s with chain }
  /-- Runs for different outpoints do not get into each other's way. -/
  admission_apart : ∀ {i j o p s t}, o ≠ p → (admission i o).guarantee s t →
    (admission j p).rely s t
  admission_watcher : ∀ {i o s t}, sane s → (admission i o).guarantee s t → watcher.rely s t
  watcher_admission : ∀ {i o s t}, watcher.guarantee s t → (admission i o).rely s t
  grow_admission : ∀ {i o} {s : Scene} {chain}, s.chain.Grows chain →
    (admission i o).rely s { s with chain }
  grow_watcher : ∀ {s : Scene} {chain}, s.chain.Grows chain → watcher.rely s { s with chain }
  decided_mono : ∀ {i o result s t}, s.log <+: t.log → decided i o result s →
    decided i o result t
  rested_stable : ∀ {w s t}, watcher.rely s t → rested w s → rested w t
  decide_secures : ∀ (i : Nat) (message : Message) (claimed : Option OwnerKey) (s : Scene),
    Secures (admission i message.outpoint) (Admission.decide message claimed)
      (decided i message.outpoint) s
  poll_secures : ∀ {w s}, rested w s → Secures watcher w.poll (fun outcome => rested outcome.2) s

namespace Discipline

variable {B : OutpointStore} {d : Discipline}

/-- What a run owes where it is. -/
def RunSecure (d : Discipline) (i : Nat) (run : AdmissionRun) (s : Scene) : Prop :=
  match run.phase with
  | .arriving | .waiting _ => True
  | .inside _ rest =>
    Secures (d.admission i run.message.outpoint) rest (d.decided i run.message.outpoint) s
  | .leaving result | .finished result => d.decided i run.message.outpoint result s

def TaskSecure (d : Discipline) (task : WatcherTask) (s : Scene) : Prop :=
  match task with
  | .resting w => d.rested w s
  | .polling rest => Secures d.watcher rest (fun outcome => d.rested outcome.2) s

/-- Every task of a relay keeps to its terms. -/
structure Upheld (d : Discipline) (r : Relay B) : Prop where
  sane : d.sane r.scene
  agrees : r.admissions.slots.Agrees r.admissions.runs
  runs : ∀ i run, r.admissions.runs[i]? = some run → d.RunSecure i run r.scene
  task : d.TaskSecure r.task r.scene

theorem upheld_idle {surroundings : Surroundings B} {w : Watcher}
    (hsane : d.sane (Relay.idle surroundings w).scene)
    (hrested : d.rested w (Relay.idle surroundings w).scene) :
    d.Upheld (Relay.idle surroundings w) where
  sane := hsane
  agrees := Slots.Agrees.empty
  runs _ _ h := by cases h
  task := hrested

/-- A run keeps to its terms while others do what it relies on. -/
theorem RunSecure.relied {i : Nat} {run : AdmissionRun} {s t : Scene} (h : d.RunSecure i run s)
    (hlog : s.log <+: t.log)
    (hrely : run.inside?.isSome → (d.admission i run.message.outpoint).rely s t) :
    d.RunSecure i run t := by
  unfold RunSecure at h ⊢
  cases hphase : run.phase with
  | arriving => trivial
  | waiting slot => trivial
  | inside slot rest =>
      rw [hphase] at h
      exact Secures.relied h (hrely (by simp [AdmissionRun.inside?, hphase]))
  | leaving result =>
      rw [hphase] at h
      exact d.decided_mono hlog h
  | finished result =>
      rw [hphase] at h
      exact d.decided_mono hlog h

theorem TaskSecure.relied {task : WatcherTask} {s t : Scene} (h : d.TaskSecure task s)
    (hrely : d.watcher.rely s t) : d.TaskSecure task t := by
  cases task with
  | resting w => exact d.rested_stable hrely h
  | polling rest => exact Secures.relied h hrely

theorem asked_eq_nil {σ : Type} {a : Admissions σ}
    {serve : (request : Request) → σ → request.Answer × σ} {i : Nat} {run : AdmissionRun}
    (hrun : a.runs[i]? = some run)
    (hphase : ∀ slot request next, run.phase ≠ .inside slot (.ask request next)) :
    a.asked serve i = [] := by
  unfold Admissions.asked
  split
  next slot request next heq =>
    rw [hrun, Option.some.injEq] at heq
    exact absurd (congrArg AdmissionRun.phase heq) (hphase slot request next)
  next => rfl

theorem asked_absent {σ : Type} {a : Admissions σ}
    {serve : (request : Request) → σ → request.Answer × σ} {i : Nat} (hrun : a.runs[i]? = none) :
    a.asked serve i = [] := by
  rw [Admissions.asked, hrun]

theorem asked_asking {σ : Type} {a : Admissions σ}
    {serve : (request : Request) → σ → request.Answer × σ} {i slot : Nat} {run : AdmissionRun}
    {request : Request}
    {next : request.Answer → Routine Request.Answer (Except Rejection Admission)}
    (hrun : a.runs[i]? = some run) (hphase : run.phase = .inside slot (.ask request next)) :
    a.asked serve i = [⟨.admission i, request, (serve request a.world).1⟩] := by
  obtain ⟨message, claimed, phase⟩ := run
  cases hphase
  rw [Admissions.asked, hrun]

variable {r : Relay B} {i : Nat} {run : AdmissionRun}

/-- A step in which run `i` asks for nothing leaves the scene, and so the others, as they were. -/
theorem Upheld.quiet (h : d.Upheld r) (hrun : r.admissions.runs[i]? = some run) (slots : Slots)
    {phase : AdmissionPhase} {next : Admissions (Surroundings B)}
    (hnext : next = { r.admissions with slots }.setPhase i phase)
    (hagrees : next.slots.Agrees next.runs)
    (hphase : d.RunSecure i { run with phase } r.scene) :
    d.Upheld { r with admissions := next, log := r.log ++ [] } := by
  rw [List.append_nil]
  subst hnext
  refine ⟨h.sane, hagrees, fun j other hother => ?_, h.task⟩
  rw [Admissions.getElem?_setPhase hrun] at hother
  split at hother
  next heq =>
    rw [← Option.some.inj hother, heq]
    exact hphase
  next => exact h.runs j other hother

/-- A step in which run `i` asks for something concerns runs for other outpoints and the watcher
only as they rely on. -/
theorem Upheld.asking (h : d.Upheld r) (hrun : r.admissions.runs[i]? = some run) {slot : Nat}
    {request : Request}
    {next : request.Answer → Routine Request.Answer (Except Rejection Admission)}
    (hphase : run.phase = .inside slot (.ask request next))
    {serve : (request : Request) → Surroundings B → request.Answer × Surroundings B}
    (hserve : ∀ request, Surroundings.Serves request r.admissions.world
      (serve request r.admissions.world).1 (serve request r.admissions.world).2) :
    d.Upheld { r with
      admissions := r.admissions.step serve i
      log := r.log ++ r.admissions.asked serve i } := by
  have hagrees : (r.admissions.step serve i).slots.Agrees (r.admissions.step serve i).runs :=
    Admissions.agrees_step h.agrees i
  rw [asked_asking hrun hphase]
  rw [Admissions.step_asking hrun hphase] at hagrees ⊢
  have hserves := Relay.scene_serves (hserve request) (.admission i) r.log
  have hsecure := h.runs i run hrun
  unfold RunSecure at hsecure
  rw [hphase] at hsecure
  obtain ⟨hguarantee, hrest⟩ := hsecure r.scene ((d.admission i _).rely_refl _) _ _
    (d.admission_serves h.sane hserves)
  refine ⟨d.admission_sane h.sane hguarantee, hagrees, fun j other hother => ?_,
    h.task.relied (d.admission_watcher h.sane hguarantee)⟩
  rw [Admissions.getElem?_setPhase hrun] at hother
  split at hother
  next heq =>
    rw [← Option.some.inj hother, heq]
    exact hrest
  next hne =>
    refine (h.runs j other hother).relied ⟨_, hserves.log.symm⟩ fun hinside => ?_
    -- two runs inside slots have different outpoints
    refine d.admission_apart (fun hsame => hne ?_) hguarantee
    have hthis : run.inside?.isSome := by simp [AdmissionRun.inside?, hphase]
    exact h.agrees.inside_unique hother hrun hsame.symm hinside hthis

theorem Upheld.admission (h : d.Upheld r) (i : Nat)
    {serve : (request : Request) → Surroundings B → request.Answer × Surroundings B}
    (hserve : ∀ request, Surroundings.Serves request r.admissions.world
      (serve request r.admissions.world).1 (serve request r.admissions.world).2) :
    d.Upheld { r with
      admissions := r.admissions.step serve i
      log := r.log ++ r.admissions.asked serve i } := by
  have hagrees : (r.admissions.step serve i).slots.Agrees (r.admissions.step serve i).runs :=
    Admissions.agrees_step h.agrees i
  cases hrun : r.admissions.runs[i]? with
  | none =>
      rw [Admissions.step_absent hrun, asked_absent hrun, List.append_nil]
      exact h
  | some run =>
      have hsecure := h.runs i run hrun
      unfold RunSecure at hsecure
      cases hphase : run.phase with
      | arriving =>
          rw [asked_eq_nil hrun (by simp [hphase])]
          exact h.quiet hrun _ (Admissions.step_arriving hrun hphase) hagrees trivial
      | waiting slot =>
          rw [asked_eq_nil hrun (by simp [hphase])]
          by_cases hoccupied : slot ∈ r.admissions.slots.occupied
          · rw [Admissions.step_blocked hrun hphase hoccupied, List.append_nil]
            exact h
          · -- inside its slot a run begins with its decision
            exact h.quiet hrun _ (Admissions.step_waiting hrun hphase hoccupied) hagrees
              (d.decide_secures i run.message run.claimed r.scene)
      | inside slot rest =>
          rw [hphase] at hsecure
          cases rest with
          | done result =>
              rw [asked_eq_nil hrun (by simp [hphase])]
              exact h.quiet hrun _ (Admissions.step_deciding hrun hphase) hagrees
                (hsecure r.scene ((d.admission i _).rely_refl _))
          | ask request next => exact h.asking hrun hphase hserve
      | leaving result =>
          rw [hphase] at hsecure
          rw [asked_eq_nil hrun (by simp [hphase])]
          exact h.quiet hrun _ (Admissions.step_leaving hrun hphase) hagrees hsecure
      | finished result =>
          rw [asked_eq_nil hrun (by simp [hphase]), Admissions.step_finished hrun hphase,
            List.append_nil]
          exact h

theorem Upheld.step (h : d.Upheld r) {s : Relay B} (hstep : r.Step s) : d.Upheld s := by
  cases hstep with
  | enqueue message claimed =>
      refine ⟨h.sane, Admissions.agrees_enqueue h.agrees message claimed, fun i run hrun => ?_,
        h.task⟩
      change (r.admissions.runs ++ [_])[i]? = some run at hrun
      rw [List.getElem?_append] at hrun
      split at hrun
      next => exact h.runs i run hrun
      next =>
        obtain rfl := List.mem_singleton.mp (List.mem_of_getElem? hrun)
        trivial
  | admission i serve hserve => exact h.admission i hserve
  | begin w htask =>
      have hrested := h.task
      rw [htask] at hrested
      exact ⟨h.sane, h.agrees, h.runs, d.poll_secures hrested⟩
  | watch request next htask answer world hserved =>
      have hserves := Relay.scene_serves hserved .watcher r.log
      have hsecure := h.task
      rw [htask] at hsecure
      obtain ⟨hguarantee, hrest⟩ := hsecure r.scene (d.watcher.rely_refl _) _ _
        (d.watcher_serves h.sane hserves)
      refine ⟨d.watcher_sane h.sane hguarantee, h.agrees, fun i run hrun => ?_, hrest⟩
      exact (h.runs i run hrun).relied ⟨_, hserves.log.symm⟩ fun _ =>
        d.watcher_admission hguarantee
  | rest outcome htask =>
      have hsecure := h.task
      rw [htask] at hsecure
      exact ⟨h.sane, h.agrees, h.runs, hsecure r.scene (d.watcher.rely_refl _)⟩
  | grow chain hgrows =>
      refine ⟨d.grow_sane h.sane hgrows, h.agrees, fun i run hrun => ?_,
        h.task.relied (d.grow_watcher hgrows)⟩
      exact (h.runs i run hrun).relied (List.prefix_refl _) fun _ => d.grow_admission hgrows

/-- What a relay comes to from where its discipline is upheld upholds it. -/
theorem Upheld.reaches (h : d.Upheld r) {s : Relay B}
    (hreaches : Relation.ReflTransGen Relay.Step r s) : d.Upheld s := by
  induction hreaches with
  | refl => exact h
  | tail _ hstep ih => exact ih.step hstep

end Discipline

end ChatRelay
