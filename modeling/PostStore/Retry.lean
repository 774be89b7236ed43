import PostStore.Calendar.Duration
import PostStore.Dialogue
/-!
# Trying again

An operation that may fail for a while is tried a limited number of times, with a pause after every
failure but the last.  The pauses grow by a factor and stop growing at a longest one.
-/

namespace PostStore

/-- How often to try, and how long to wait in between. -/
structure RetryPolicy where
  maxAttempts : Nat := 5
  coefficient : Nat := 2
  initial : Duration := .ofMillis 500
  maximum : Option Duration := some (.ofSeconds 10)

namespace RetryPolicy

/-- The bound of the growth factor of pauses. -/
def factorBound : Nat := 4294967295

/-- A power, or a bound that it passes.  An exponent of a few more than the bound has binary digits
makes no difference. -/
def cappedPow (bound base exponent : Nat) : Nat :=
  min bound (Nat.pow base (min exponent (bound.log2 + 1)))

/-- The policy with another number of attempts, at least one. -/
def withMaxAttempts (policy : RetryPolicy) (attempts : Nat) : RetryPolicy :=
  { policy with maxAttempts := max attempts 1 }

/-- The pause after a failed attempt, counted from one. -/
def interval (policy : RetryPolicy) (attempt : Nat) : Duration :=
  let candidate := policy.initial.scale (cappedPow factorBound policy.coefficient (attempt - 1))
  match policy.maximum with
  | some maximum => candidate.shorter maximum
  | none => candidate

/-- What a retried operation asks for: an attempt, or a pause. -/
inductive Ask where
  | attempt
  | pause (d : Duration)

/-- An attempt ends well or badly, a pause just ends. -/
abbrev Ask.Reply (ε α : Type) : Ask → Type
  | .attempt => Except ε α
  | .pause _ => Unit

/-- Tries for the given count and then up to `more` times again. -/
def tryFrom (policy : RetryPolicy) {ε α : Type} (attempt : Nat) :
    (more : Nat) → Dialogue Ask (Ask.Reply ε α) (Except ε α)
  | 0 => .ask .attempt .done
  | more + 1 => .ask .attempt fun
    | .ok value => .done (.ok value)
    | .error _ => .ask (.pause (policy.interval attempt)) fun _ => tryFrom policy (attempt + 1) more

/-- Tries until an attempt ends well or the attempts are used up. -/
def retry (policy : RetryPolicy) {ε α : Type} : Dialogue Ask (Ask.Reply ε α) (Except ε α) :=
  tryFrom policy 1 (policy.maxAttempts - 1)

/-! ## Keeping time -/

/-- The time in whole milliseconds, and the times of the attempts so far, latest first. -/
structure Timeline where
  now : Nat := 0
  attempts : List Nat := []

/-- The longest time that a pause lasts, thirty years in nanoseconds. -/
def longestPause : Nat := 946080000000000000

/-- Serves a retried operation whose attempts end as told and take no time.  A pause lasts until the
first whole millisecond at which it is over, but never longer than `longestPause`. -/
def Timeline.serve {ε α : Type} (outcome : Nat → Except ε α) :
    (question : Ask) → Timeline → question.Reply ε α × Timeline
  | .attempt, line =>
    (outcome line.attempts.length, { line with attempts := line.now :: line.attempts })
  | .pause d, line =>
    ((), { line with now := line.now + (min d.nanos longestPause + 999999) / 1000000 })

end RetryPolicy

end PostStore
