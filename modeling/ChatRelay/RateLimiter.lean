import ChatRelay.Table

/-!
# Rate limits

Every kind of event has a budget for each window of time. A kind's window begins with the first
event that falls outside the previous one; events beyond the budget of their window are refused.
Kinds are counted independently of each other.
-/

namespace ChatRelay

/-- A budget: so many events in a window of so many milliseconds. -/
structure RateLimit where
  window : Nat
  budget : Nat
  deriving DecidableEq, Repr

/-- What applies to a kind without a limit of its own: a hundred events a second. -/
def RateLimit.standard : RateLimit := ⟨1000, 100⟩

/-- A running window: its start and the events accepted since. -/
structure RateWindow where
  start : Nat
  accepted : Nat
  deriving DecidableEq, Repr

/-- The limits and running windows of the kinds of type `κ`. -/
structure RateLimiter (κ : Type) where
  limits : Table κ RateLimit
  windows : Table κ RateWindow
  deriving Repr

namespace RateLimiter

variable {κ : Type} [DecidableEq κ]

/-- A limiter with the given limits, of which later ones replace earlier ones of the same kind. -/
def ofLimits (limits : List (κ × RateLimit)) : RateLimiter κ := ⟨.ofList limits, .empty⟩

/-- The limit of a kind. -/
def limitOf (limiter : RateLimiter κ) (kind : κ) : RateLimit :=
  (limiter.limits.get? kind).getD .standard

/-- The window that an event at time `now` falls into: a window lasts up to and including its
length. -/
def windowAt (limiter : RateLimiter κ) (now : Nat) (kind : κ) : RateWindow :=
  match limiter.windows.get? kind with
  | none => ⟨now, 0⟩
  | some window =>
    if (limiter.limitOf kind).window < now - window.start then ⟨now, 0⟩ else window

/-- Judges one event: whether it is accepted, and the limiter behind it. -/
def check (limiter : RateLimiter κ) (now : Nat) (kind : κ) : Bool × RateLimiter κ :=
  let window := limiter.windowAt now kind
  let accepted : Bool := window.accepted < (limiter.limitOf kind).budget
  let window := if accepted then { window with accepted := window.accepted + 1 } else window
  (accepted, { limiter with windows := limiter.windows.insert kind window })

/-- Judges events one after another: the answers, and the limiter behind them. -/
def checkAll (limiter : RateLimiter κ) : List (Nat × κ) → List Bool × RateLimiter κ
  | [] => ([], limiter)
  | (now, kind) :: rest =>
    let (accepted, limiter) := limiter.check now kind
    let (answers, limiter) := limiter.checkAll rest
    (accepted :: answers, limiter)

end RateLimiter

end ChatRelay
