/-!
# Shutting down

A program's tasks observe one signal. On shutdown the signal is given, and the tasks are awaited one
after another, all together for no longer than the grace period. Times are in seconds.
-/

namespace ChatRelay.Shutdown

/-- How a task ends. -/
inductive Task where
  /-- So long after the signal. -/
  | stops (delay : Nat)
  /-- At a set time, and then gives the signal. -/
  | cancels (time : Nat)
  /-- At once, by a failure. -/
  | panics
  | never
  deriving DecidableEq, Repr

/-- When a task ends, if the signal is given at time `signal`. -/
def Task.end? (signal : Nat) : Task → Option Nat
  | .stops delay => some (signal + delay)
  | .cancels time => some time
  | .panics => some 0
  | .never => none

/-- When a task gives the signal by itself. -/
def Task.cancelTime? : Task → Option Nat
  | .cancels time => some time
  | _ => none

/-- The time at which some task gives the signal first. -/
def firstSignal? (tasks : List Task) : Option Nat := (tasks.filterMap Task.cancelTime?).min?

/-- Awaits tasks, given by the times at which they end, one after another from time `now` on, until
the last has ended or the deadline has come: the time at which the wait is over. -/
def join (deadline : Nat) : Nat → List (Option Nat) → Nat
  | now, [] => now
  | _, none :: _ => deadline
  | now, some time :: rest => if deadline < time then deadline else join deadline (max now time) rest

/-- What a shutdown did. -/
structure Report where
  /-- How long was waited for the signal, if it was waited for. -/
  waited : Option Nat
  /-- Whether the signal was given before and after. -/
  signalBefore : Bool
  signalAfter : Bool
  /-- When the shutdown was over. -/
  elapsed : Nat
  /-- The tasks that had ended by then. -/
  finished : List Nat
  deriving DecidableEq, Repr

/-- Whether a task had ended when the wait was over. A task that ends at the very deadline is not
seen to end, except that when the signal was waited for, what ended up to then has ended. -/
def Task.isFinished (waited : Option Nat) (deadline : Nat) (task : Task) : Bool :=
  match task with
  | .panics | .never => false
  | _ =>
    match task.end? (waited.getD 0) with
    | none => false
    | some time => time < deadline || waited.any fun moment => time ≤ moment

/-- Starts the tasks at time zero, waits for the signal if asked to, and shuts down. -/
def run (tasks : List Task) (grace : Nat) (wait : Bool) : Report :=
  let waited := if wait then some ((firstSignal? tasks).getD 0) else none
  let call := waited.getD 0
  let deadline := call + grace
  { waited
    signalBefore := wait
    signalAfter := true
    elapsed := join deadline call (tasks.map (·.end? call))
    finished := tasks.zipIdx.filterMap fun (task, i) =>
      if task.isFinished waited deadline then some i else none }

end ChatRelay.Shutdown
