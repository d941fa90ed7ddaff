import Placeholder.Binary64
import Placeholder.FetchError

/-!
# Retrying

A fetch that fails with a transient error is made again, up to a number of retries, after a pause
that doubles each time up to a longest one. Times are whole milliseconds. The random spread of a
pause is not modelled: `Retry.delay` is the pause when the jitter is zero.
-/
namespace Placeholder

structure Retry where
  /-- Attempts after the first. -/
  maxRetries : Nat := 2
  initialDelay : Nat := 200
  maxDelay : Nat := 5000
  /-- The part of a pause, between 0 and 1, by which it may vary. -/
  jitter : Binary64 := ⟨false, 7205759403792794, -56⟩
  deriving DecidableEq, Repr

namespace Retry

/-- The longest span of time that can be told, in milliseconds. -/
def longestSpan : Nat := UInt64.size * 1000 - 1

/-- A span made longer, but no longer than can be told. -/
def saturated (span factor : Nat) : Nat := min (span * factor) longestSpan

/-- How often a pause is doubled at most. -/
def maxDoublings : Nat := 16

/-- The pause before the retry that follows `retries` others. -/
def delay (r : Retry) (retries : Nat) : Nat :=
  min (saturated r.initialDelay (1 <<< min retries maxDoublings)) r.maxDelay

def withJitter (r : Retry) (jitter : Binary64) : Retry := { r with jitter := jitter.clampUnit }

variable {ω α : Type}

/-- Makes a fetch until it succeeds, fails for good, or no retry is left. -/
def attempts (r : Retry) (pause : Nat → ω → ω) (fetch : ω → Except Failure α × ω) :
    (left retries : Nat) → ω → Except Failure α × ω
  | left, retries, w =>
    match fetch w with
    | (.ok a, w) => (.ok a, w)
    | (.error (.crash c), w) => (.error (.crash c), w)
    | (.error (.error e), w) =>
      match e.transient, left with
      | true, left + 1 => attempts r pause fetch left (retries + 1) (pause (r.delay retries) w)
      | _, _ => (.error (.error e), w)

def run (r : Retry) (pause : Nat → ω → ω) (fetch : ω → Except Failure α × ω) (w : ω) :
    Except Failure α × ω :=
  r.attempts pause fetch r.maxRetries 0 w

end Retry
end Placeholder
