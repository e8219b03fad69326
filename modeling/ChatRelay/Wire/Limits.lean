import ChatRelay.Wire.Frame
import ChatRelay.RateLimiter

/-!
# Limits on frames

The budgets of one connection: two hundred announcements, two hundred requests and fifty deliveries
in a second.
-/

namespace ChatRelay.Frame

/-- The limits of a connection. -/
def limits : List (Kind × RateLimit) :=
  [(.inv, ⟨1000, 200⟩), (.getData, ⟨1000, 200⟩), (.data, ⟨1000, 50⟩)]

/-- A limiter for a new connection. -/
def limiter : RateLimiter Kind := .ofLimits limits

end ChatRelay.Frame
