import Placeholder.Retry

/-!
# Retrying in machine words

`Retry.run` counts retries and milliseconds in numbers that have no bound. Here is the same loop in
words: retries are counted in 32 bits, and a span of time is told to the nanosecond, with 64 bits for
its seconds. Every operation on words is checked, and a loop in which one of them overflows has no
result. Pauses have no random spread.
-/
namespace Placeholder

/-- A span of time in nanoseconds, with at most as many whole seconds as a word of 64 bits tells. -/
@[ext] structure Span where
  nanos : Nat
  nanos_lt : nanos < UInt64.size * 1000000000

namespace Span

def longest : Span := ⟨UInt64.size * 1000000000 - 1, by decide⟩

/-- A span taken several times; the longest one in place of a longer one. -/
def times (d : Span) (factor : UInt32) : Span :=
  if h : d.nanos * factor.toNat < UInt64.size * 1000000000 then ⟨d.nanos * factor.toNat, h⟩
  else longest

def shorter (d e : Span) : Span := if d.nanos ≤ e.nanos then d else e

theorem nanos_le_longest (d : Span) : d.nanos ≤ longest.nanos := Nat.le_sub_one_of_lt d.nanos_lt

theorem nanos_times (d : Span) (factor : UInt32) :
    (d.times factor).nanos = min (d.nanos * factor.toNat) longest.nanos := by
  unfold times
  split
  · next h => exact (Nat.min_eq_left (Nat.le_sub_one_of_lt h)).symm
  · next h => exact (Nat.min_eq_right (Nat.le_trans (Nat.sub_le _ 1) (Nat.not_lt.mp h))).symm

theorem nanos_shorter (d e : Span) : (d.shorter e).nanos = min d.nanos e.nanos := by
  unfold shorter
  split
  · next h => exact (Nat.min_eq_left h).symm
  · next h => exact (Nat.min_eq_right (Nat.le_of_not_le h)).symm

end Span

namespace Word

/-- The sum of two words, unless it overflows. -/
def add? (a b : UInt32) : Option UInt32 :=
  if a.toNat + b.toNat < UInt32.size then some (a + b) else none

/-- A word moved to the left by fewer bits than it has. -/
def shiftLeft? (a bits : UInt32) : Option UInt32 := if bits < 32 then some (a <<< bits) else none

theorem toNat_of_add? {a b c : UInt32} (h : add? a b = some c) : c.toNat = a.toNat + b.toNat := by
  unfold add? at h
  split at h
  · next hlt =>
    cases h
    rw [UInt32.toNat_add, Nat.mod_eq_of_lt hlt]
  · cases h

end Word

/-- The settings of a loop, in words. -/
structure Retry.Loop where
  maxRetries : UInt32
  initialDelay : Span
  maxDelay : Span

namespace Retry.Loop

variable {ω α : Type}

/-- The pause before the retry that follows `retries` others. -/
def delay? (p : Loop) (retries : UInt32) : Option Span :=
  (Word.shiftLeft? 1 (min retries 16)).map fun factor =>
    (p.initialDelay.times factor).shorter p.maxDelay

/-- Makes a fetch until it succeeds, fails for good, or no retry is left. -/
def attempts? (p : Loop) (pause : Span → ω → ω) (fetch : ω → Except Failure α × ω)
    (retries : UInt32) (w : ω) : Option (Except Failure α × ω) :=
  match fetch w with
  | (.ok a, w) => some (.ok a, w)
  | (.error (.crash c), w) => some (.error (.crash c), w)
  | (.error (.error e), w) =>
    if _more : e.transient = true ∧ retries < p.maxRetries then
      match p.delay? retries, _next : Word.add? retries 1 with
      | some d, some next => p.attempts? pause fetch next (pause d w)
      | _, _ => none
    else some (.error (.error e), w)
termination_by p.maxRetries.toNat - retries.toNat
decreasing_by
  have hnext := Word.toNat_of_add? _next
  have hmore := UInt32.lt_iff_toNat_lt.mp _more.2
  rw [hnext]
  simp
  omega

def run? (p : Loop) (pause : Span → ω → ω) (fetch : ω → Except Failure α × ω) (w : ω) :
    Option (Except Failure α × ω) :=
  p.attempts? pause fetch 0 w

end Retry.Loop
end Placeholder
