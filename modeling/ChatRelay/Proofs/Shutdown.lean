import ChatRelay.Shutdown
import Mathlib

/-!
# How long a shutdown takes

The tasks are awaited one after another, but they run at the same time: while one is awaited the
others come closer to their ends, and what has ended meanwhile is not waited for any more. So the
wait is as long as the longest of the remaining times, or the grace period if that is shorter, and
not their sum. The order of the tasks has no part in it, and neither have tasks that failed.
-/

namespace ChatRelay.Shutdown

variable {tasks others : List Task} {signal call grace : Nat}

/-! ## The signal -/

theorem mem_filterMap_cancelTime? {time : Nat} :
    time ∈ tasks.filterMap Task.cancelTime? ↔ .cancels time ∈ tasks := by
  rw [List.mem_filterMap]
  constructor
  · rintro ⟨task, htask, htime⟩
    cases task with
    | cancels _ => exact Option.some.inj htime ▸ htask
    | _ => cases htime
  · exact fun h => ⟨_, h, rfl⟩

/-- The tasks give the signal at the least of the times at which one does. -/
theorem firstSignal?_eq_some {time : Nat} :
    firstSignal? tasks = some time ↔ IsLeast {time | .cancels time ∈ tasks} time := by
  rw [firstSignal?, List.min?_eq_some_iff]
  simp only [mem_filterMap_cancelTime?]
  rfl

/-- When the signal is given if the shutdown is called at some time: then, unless a task has given
it before. -/
def signalTime (tasks : List Task) (call : Nat) : Nat :=
  ((firstSignal? tasks).map (min call)).getD call

theorem signalTime_le (tasks : List Task) (call : Nat) : signalTime tasks call ≤ call := by
  unfold signalTime
  cases firstSignal? tasks with
  | none => exact Nat.le_refl call
  | some time => exact Nat.min_le_left call time

/-! ## The wait -/

/-- When a shutdown is over that is called at some time. -/
def overAt (tasks : List Task) (grace call : Nat) : Nat :=
  join (call + grace) call (tasks.map (·.end? (signalTime tasks call)))

/-- How long a task still runs at some time. -/
def Task.remaining (signal now : Nat) : Task → ℕ∞
  | .stops delay => (signal + delay - now : Nat)
  | .cancels time => (time - now : Nat)
  | .panics => 0
  | .never => ⊤

/-- The longest of the times that tasks still run when the shutdown is called. -/
noncomputable def slowest (tasks : List Task) (call : Nat) : ℕ∞ :=
  ⨆ task ∈ tasks, task.remaining (signalTime tasks call) call

theorem Task.remaining_of_end? {task : Task} {time : Nat} (h : task.end? signal = some time) :
    task.remaining signal call = (time - call : Nat) := by
  cases task with
  | never => cases h
  | panics =>
      obtain rfl := Option.some.inj h
      simp [remaining]
  | _ =>
      obtain rfl := Option.some.inj h
      rfl

theorem Task.remaining_of_not_end? {task : Task} (h : task.end? signal = none) :
    task.remaining signal call = ⊤ := by
  cases task with
  | never => rfl
  | _ => cases h

/-- Awaiting tasks after some have been awaited already takes until the slowest of all has ended,
or the grace period is over. -/
theorem join_eq (signal call : Nat) (tasks : List Task) {waited : Nat} (hwaited : waited ≤ grace) :
    (join (call + grace) (call + waited) (tasks.map (·.end? signal)) : ℕ∞) =
      call + min (grace : ℕ∞) (max waited (⨆ task ∈ tasks, task.remaining signal call)) := by
  induction tasks generalizing waited with
  | nil => simp [join, hwaited]
  | cons task rest ih =>
      have hsup : ⨆ other ∈ task :: rest, other.remaining signal call =
          max (task.remaining signal call) (⨆ other ∈ rest, other.remaining signal call) := by
        simp only [List.mem_cons, iSup_or, iSup_sup_eq, iSup_iSup_eq_left]
      rw [List.map_cons, hsup]
      cases hend : task.end? signal with
      | none => simp [join, Task.remaining_of_not_end? hend]
      | some time =>
          rw [Task.remaining_of_end? hend, join]
          split
          next hlate =>
            have hlong : (grace : ℕ∞) ≤ (time - call : Nat) := by
              exact_mod_cast (by omega : grace ≤ time - call)
            rw [min_eq_left (le_max_of_le_right (le_max_of_le_left hlong))]
            norm_cast
          next hearly =>
            have hmax : max (call + waited) time = call + max waited (time - call) := by omega
            rw [hmax, ih (by omega), ← max_assoc]
            norm_cast

theorem overAt_eq (tasks : List Task) (grace call : Nat) :
    (overAt tasks grace call : ℕ∞) = call + min (grace : ℕ∞) (slowest tasks call) := by
  have h := join_eq (signalTime tasks call) call tasks (Nat.zero_le grace)
  simpa [overAt, slowest] using h

/-- A report tells when the shutdown was over that was called at once, or when the wait for the
signal was over. -/
theorem elapsed_run (tasks : List Task) (grace : Nat) (wait : Bool) :
    let report := run tasks grace wait
    report.elapsed = overAt tasks grace (report.waited.getD 0) := by
  cases wait with
  | false =>
      have hsignal : signalTime tasks 0 = 0 := Nat.le_zero.mp (signalTime_le tasks 0)
      simp [run, overAt, hsignal]
  | true =>
      cases hfirst : firstSignal? tasks <;> simp [run, overAt, signalTime, hfirst]

/-! ## What the wait depends on -/

/-- Whether two lists are of the same tasks, apart from those that failed. -/
def Alike (tasks others : List Task) : Prop :=
  ∀ task, task ≠ .panics → (task ∈ tasks ↔ task ∈ others)

theorem Alike.symm (h : Alike tasks others) : Alike others tasks := fun task htask =>
  (h task htask).symm

theorem Alike.signalTime_eq (h : Alike tasks others) (call : Nat) :
    signalTime tasks call = signalTime others call := by
  have hfirst : firstSignal? tasks = firstSignal? others := by
    refine Option.ext fun time => ?_
    rw [firstSignal?_eq_some, firstSignal?_eq_some]
    simp only [h (.cancels _) (by simp)]
  rw [signalTime, signalTime, hfirst]

theorem Alike.slowest_le (h : Alike tasks others) (call : Nat) :
    slowest tasks call ≤ slowest others call := by
  refine iSup₂_le fun task htask => ?_
  by_cases hfailed : task = .panics
  · rw [hfailed]
    exact zero_le
  · rw [h.signalTime_eq]
    exact le_iSup₂_of_le task ((h task hfailed).mp htask) le_rfl

theorem Alike.overAt_eq (h : Alike tasks others) (grace call : Nat) :
    overAt tasks grace call = overAt others grace call := by
  have hslowest : slowest tasks call = slowest others call :=
    le_antisymm (h.slowest_le call) (h.symm.slowest_le call)
  have hcast : (overAt tasks grace call : ℕ∞) = overAt others grace call := by
    rw [Shutdown.overAt_eq, Shutdown.overAt_eq, hslowest]
  exact_mod_cast hcast

/-- A shutdown gives the signal, if no task has, and waits for the longest of the remaining times,
or for the grace period if that is shorter. The order of the tasks does not matter, nor do tasks
that fail. It may be called at any time; if the signal is waited for, that is the time at which the
first task gives it. -/
theorem waits_for_slowest (tasks : List Task) (grace : Nat) :
    (∀ wait, let report := run tasks grace wait
      report.signalAfter ∧ report.elapsed = overAt tasks grace (report.waited.getD 0)) ∧
    (∀ first, IsLeast {time | .cancels time ∈ tasks} first →
      (run tasks grace true).waited = some first) ∧
    ∀ call, signalTime tasks call ≤ call ∧
      (overAt tasks grace call : ℕ∞) = call + min (grace : ℕ∞) (slowest tasks call) ∧
      (∀ others, tasks.Perm others → overAt others grace call = overAt tasks grace call) ∧
      overAt (tasks.filter (· ≠ .panics)) grace call = overAt tasks grace call := by
  refine ⟨fun wait => ⟨rfl, elapsed_run tasks grace wait⟩, fun first hfirst => ?_,
    fun call => ⟨signalTime_le tasks call, overAt_eq tasks grace call, fun others hperm => ?_, ?_⟩⟩
  · rw [run, firstSignal?_eq_some.mpr hfirst]
    rfl
  · have halike : Alike others tasks := fun task _ => hperm.mem_iff.symm
    exact halike.overAt_eq grace call
  · have halike : Alike (tasks.filter (· ≠ .panics)) tasks := fun task htask => by simp [htask]
    exact halike.overAt_eq grace call

/-- Four tasks, of which one gives the signal and one fails. -/
def fourTasks : List Task := [.stops 3, .panics, .cancels 2, .stops 5]

theorem waits_for_slowest_four :
    let others : List Task := [.cancels 2, .stops 5, .stops 3, .panics]
    IsLeast {time | .cancels time ∈ fourTasks} 2 ∧ fourTasks.Perm others ∧
      (run fourTasks 9 true).waited = some 2 ∧ (run fourTasks 9 true).elapsed = 7 ∧
      overAt others 9 2 = overAt fourTasks 9 2 := by
  intro others
  have hfirst : IsLeast {time | .cancels time ∈ fourTasks} 2 :=
    firstSignal?_eq_some.mp (by decide)
  have hperm : fourTasks.Perm others := by decide
  obtain ⟨-, hwaited, hcalled⟩ := waits_for_slowest fourTasks 9
  exact ⟨hfirst, hperm, hwaited 2 hfirst, by decide, (hcalled 2).2.2.1 others hperm⟩

end ChatRelay.Shutdown
