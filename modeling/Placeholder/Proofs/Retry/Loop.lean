import Mathlib.Algebra.Order.Ring.Nat
import Mathlib.Order.Bounds.Basic
import Placeholder.Proofs.Retry.Attempts
import Placeholder.Retry.Loop

/-!
# What a loop of attempts does

The loop in words has a result whatever the fetch does, so nothing in it overflows. `run?_course`
says which one: that of the first attempt after which no other is made, with one pause before each
attempt but the first. Where `Retry.run` has settings that fit in words, it does the same
(`run?_eq_run`).
-/
namespace Placeholder

namespace Word

theorem add?_one {k : Nat} (h : k + 1 < UInt32.size) :
    add? (.ofNat k) 1 = some (.ofNat (k + 1)) := by
  have hk : (UInt32.ofNat k).toNat = k := UInt32.toNat_ofNat_of_lt' (Nat.lt_of_succ_lt h)
  rw [add?, hk, UInt32.toNat_one, if_pos h, UInt32.ofNat_add, UInt32.ofNat_one]

theorem shiftLeft?_one (bits : UInt32) (h : bits.toNat ≤ 16) :
    ∃ factor, shiftLeft? 1 bits = some factor ∧ factor.toNat = 2 ^ bits.toNat := by
  have h32 : bits.toNat < 32 := by omega
  have hpow : 2 ^ bits.toNat < UInt32.size :=
    Nat.lt_of_le_of_lt (Nat.pow_le_pow_right (by decide) h) (by decide)
  refine ⟨1 <<< bits, if_pos (UInt32.lt_iff_toNat_lt.mpr h32), ?_⟩
  rw [UInt32.toNat_shiftLeft, Nat.mod_eq_of_lt h32, UInt32.toNat_one, Nat.shiftLeft_eq, Nat.one_mul]
  exact Nat.mod_eq_of_lt hpow

end Word

namespace Retry.Loop

variable {ω α : Type} {p : Loop} {pause : Span → ω → ω} {fetch : ω → Except Failure α × ω}

/-! ## Pauses -/

/-- The pause before the retry that follows `k` others. -/
def delay (p : Loop) (k : Nat) : Span :=
  ⟨min (p.initialDelay.nanos * 2 ^ min k 16) p.maxDelay.nanos,
    Nat.lt_of_le_of_lt (Nat.min_le_right _ _) p.maxDelay.nanos_lt⟩

theorem nanos_delay (p : Loop) (k : Nat) :
    (p.delay k).nanos = min (p.initialDelay.nanos * 2 ^ min k 16) p.maxDelay.nanos := rfl

/-- The word that tells how often a pause is doubled does not overflow, and where the doubled span
does, the longest one is as good as it. -/
theorem delay?_eq (p : Loop) (retries : UInt32) :
    p.delay? retries = some (p.delay retries.toNat) := by
  have hmin : (min retries 16).toNat = min retries.toNat 16 := UInt32.toNat_min retries 16
  obtain ⟨factor, hfactor, hpow⟩ := Word.shiftLeft?_one (min retries 16) (by omega)
  rw [delay?, hfactor, Option.map_some]
  congr 1
  ext
  have hmax := p.maxDelay.nanos_le_longest
  rw [Span.nanos_shorter, Span.nanos_times, hpow, hmin, nanos_delay]
  omega

/-! ## Attempts -/

theorem ofNat_lt_maxRetries_iff {k : Nat} (hk : k ≤ p.maxRetries.toNat) :
    UInt32.ofNat k < p.maxRetries ↔ k < p.maxRetries.toNat := by
  have hsize : k < UInt32.size := Nat.lt_of_le_of_lt hk p.maxRetries.toNat_lt
  rw [UInt32.lt_iff_toNat_lt, UInt32.toNat_ofNat_of_lt' hsize]

theorem attempts?_of_transient {k : Nat} (hk : k < p.maxRetries.toNat) {w : ω}
    (h : Transient (fetch w).1) :
    p.attempts? pause fetch (.ofNat k) w =
      p.attempts? pause fetch (.ofNat (k + 1)) (pause (p.delay k) (fetch w).2) := by
  obtain ⟨e, he, ht⟩ := h
  obtain ⟨w', hw⟩ : ∃ w', fetch w = (.error (.error e), w') := ⟨(fetch w).2, Prod.ext he rfl⟩
  -- The counter stays below a word, so it can be told one higher.
  have hsize : k + 1 < UInt32.size := Nat.lt_of_le_of_lt hk p.maxRetries.toNat_lt
  have hdelay : p.delay? (.ofNat k) = some (p.delay k) := by
    rw [delay?_eq, UInt32.toNat_ofNat_of_lt' (Nat.lt_of_succ_lt hsize)]
  have hmore : e.transient = true ∧ UInt32.ofNat k < p.maxRetries :=
    ⟨ht, (ofNat_lt_maxRetries_iff (Nat.le_of_lt hk)).mpr hk⟩
  rw [attempts?]
  simp only [hw, dif_pos hmore]
  split
  · next d next hd hnext =>
    rw [hdelay, Option.some.injEq] at hd
    rw [Word.add?_one hsize, Option.some.injEq] at hnext
    rw [hd, hnext]
  · next hnone => exact absurd (Word.add?_one hsize) (hnone _ _ hdelay)

theorem attempts?_of_last {k : Nat} (hk : k ≤ p.maxRetries.toNat) {w : ω}
    (h : k = p.maxRetries.toNat ∨ ¬ Transient (fetch w).1) :
    p.attempts? pause fetch (.ofNat k) w = some (fetch w) := by
  obtain ⟨x, w', hw⟩ : ∃ x w', fetch w = (x, w') := ⟨_, _, rfl⟩
  rw [attempts?]
  cases x with
  | ok a => simp only [hw]
  | error f =>
      cases f with
      | crash c => simp only [hw]
      | error e =>
          have hmore : ¬ (e.transient = true ∧ UInt32.ofNat k < p.maxRetries) := by
            rintro ⟨ht, hlt⟩
            have hne := Nat.ne_of_lt ((ofNat_lt_maxRetries_iff hk).mp hlt)
            exact h.resolve_left hne ⟨e, by rw [hw], ht⟩
          simp only [hw, dif_neg hmore]

/-- The state in which an attempt starts that `k` failed ones have come before. -/
def start (p : Loop) (pause : Span → ω → ω) (fetch : ω → Except Failure α × ω) (w : ω) : Nat → ω
  | 0 => w
  | k + 1 => pause (p.delay k) (fetch (start p pause fetch w k)).2

/-- No attempt comes after the one that `k` others have come before. -/
def Last (p : Loop) (pause : Span → ω → ω) (fetch : ω → Except Failure α × ω) (w : ω) (k : Nat) :
    Prop :=
  k = p.maxRetries.toNat ∨ ¬ Transient (fetch (p.start pause fetch w k)).1

theorem attempts?_eq_attempt (p : Loop) (pause : Span → ω → ω) (fetch : ω → Except Failure α × ω)
    (w : ω) (left k : Nat) (hk : k + left = p.maxRetries.toNat) :
    ∃ n, k ≤ n ∧ p.Last pause fetch w n ∧ (∀ j, k ≤ j → p.Last pause fetch w j → n ≤ j) ∧
      p.attempts? pause fetch (.ofNat k) (p.start pause fetch w k) =
        some (fetch (p.start pause fetch w n)) := by
  -- The state is always the one in which the attempt behind `k` others starts.
  induction left generalizing k with
  | zero =>
      exact ⟨k, Nat.le_refl k, .inl hk, fun j hj _ => hj, attempts?_of_last (by omega) (.inl hk)⟩
  | succ left ih =>
      by_cases ht : Transient (fetch (p.start pause fetch w k)).1
      · obtain ⟨n, hn, hlast, hleast, heq⟩ := ih (k + 1) (by omega)
        refine ⟨n, by omega, hlast, ?_, ?_⟩
        · intro j hj hstop
          rcases Nat.eq_or_lt_of_le hj with rfl | hlt
          · exact absurd ht (hstop.resolve_left (by omega))
          · exact hleast j hlt hstop
        · rw [attempts?_of_transient (by omega) ht]
          exact heq
      · exact ⟨k, Nat.le_refl k, .inr ht, fun j hj _ => hj, attempts?_of_last (by omega) (.inr ht)⟩

theorem run?_eq_attempt (p : Loop) (pause : Span → ω → ω) (fetch : ω → Except Failure α × ω)
    (w : ω) :
    ∃ n, IsLeast {k | p.Last pause fetch w k} n ∧
      p.run? pause fetch w = some (fetch (p.start pause fetch w n)) := by
  obtain ⟨n, _, hlast, hleast, heq⟩ :=
    attempts?_eq_attempt p pause fetch w p.maxRetries.toNat 0 (Nat.zero_add _)
  exact ⟨n, ⟨hlast, fun j hj => hleast j (Nat.zero_le j) hj⟩, heq⟩

/-! ## Calls and pauses in their order -/

/-- What the outside sees of a loop. -/
inductive Step where
  | called
  | paused (d : Span)

/-- A fetch that is written down in a list when it is called. -/
def noted (fetch : ω → Except Failure α × ω) (s : List Step × ω) :
    Except Failure α × List Step × ω :=
  ((fetch s.2).1, s.1 ++ [.called], (fetch s.2).2)

/-- A pause that is written down in a list when it is made. -/
def notedPause (pause : Span → ω → ω) (d : Span) (s : List Step × ω) : List Step × ω :=
  (s.1 ++ [.paused d], pause d s.2)

/-- What is written down of `k` attempts that others follow. -/
def retried (p : Loop) (k : Nat) : List Step :=
  (List.range k).flatMap fun j => [.called, .paused (p.delay j)]

theorem retried_succ (p : Loop) (k : Nat) :
    p.retried (k + 1) = p.retried k ++ [.called, .paused (p.delay k)] := by
  simp [retried, List.range_succ]

theorem start_noted (p : Loop) (pause : Span → ω → ω) (fetch : ω → Except Failure α × ω) (w : ω)
    (k : Nat) :
    p.start (notedPause pause) (noted fetch) ([], w) k =
      (p.retried k, p.start pause fetch w k) := by
  induction k with
  | zero => rfl
  | succ k ih =>
      rw [start, ih, retried_succ]
      simp [notedPause, noted, start]

theorem last_noted {w : ω} {k : Nat} :
    p.Last (notedPause pause) (noted fetch) ([], w) k ↔ p.Last pause fetch w k := by
  rw [Last, Last, start_noted]
  rfl

theorem run?_noted (p : Loop) (pause : Span → ω → ω) (fetch : ω → Except Failure α × ω) (w : ω) :
    ∃ n, IsLeast {k | p.Last pause fetch w k} n ∧
      p.run? (notedPause pause) (noted fetch) ([], w) =
        some ((fetch (p.start pause fetch w n)).1, p.retried n ++ [.called],
          (fetch (p.start pause fetch w n)).2) := by
  obtain ⟨n, hn, heq⟩ := run?_eq_attempt p (notedPause pause) (noted fetch) ([], w)
  simp only [last_noted] at hn
  refine ⟨n, hn, ?_⟩
  rw [heq, start_noted]
  rfl

/-! ## The same loop in numbers -/

/-- The settings fit in words, and these are the words. -/
structure Tells (p : Loop) (r : Retry) : Prop where
  maxRetries : r.maxRetries = p.maxRetries.toNat
  initialDelay : r.initialDelay * 1000000 = p.initialDelay.nanos
  maxDelay : r.maxDelay * 1000000 = p.maxDelay.nanos

variable {r : Retry} {wait : Nat → ω → ω}

theorem millis_delay (h : p.Tells r) (k : Nat) : (p.delay k).nanos / 1000000 = r.delay k := by
  have hlt := p.maxDelay.nanos_lt
  rw [← h.maxDelay] at hlt
  rw [nanos_delay, ← h.initialDelay, ← h.maxDelay, Retry.delay, saturated, maxDoublings,
    Nat.one_shiftLeft, Nat.mul_right_comm, longestSpan]
  omega

theorem attempts?_eq_attempts (h : p.Tells r) (left k : Nat) (hk : k + left = r.maxRetries)
    (w : ω) :
    p.attempts? (fun d => wait (d.nanos / 1000000)) fetch (.ofNat k) w =
      some (r.attempts wait fetch left k w) := by
  rw [h.maxRetries] at hk
  induction left generalizing k w with
  | zero =>
      rw [attempts_zero]
      exact attempts?_of_last (by omega) (.inl hk)
  | succ left ih =>
      by_cases ht : Transient (fetch w).1
      · rw [attempts?_of_transient (by omega) ht, attempts_of_transient ht, millis_delay h]
        exact ih (k + 1) (by omega) _
      · rw [attempts?_of_last (by omega) (.inr ht), attempts_of_not_transient ht]

theorem run?_eq_run (h : p.Tells r) (wait : Nat → ω → ω) (fetch : ω → Except Failure α × ω)
    (w : ω) :
    p.run? (fun d => wait (d.nanos / 1000000)) fetch w = some (r.run wait fetch w) :=
  attempts?_eq_attempts h r.maxRetries 0 (Nat.zero_add _) w

example : Tells ⟨2, ⟨200000000, by decide⟩, ⟨5000000000, by decide⟩⟩ {} := ⟨rfl, rfl, rfl⟩

/-- A loop of attempts has a result whatever the fetch does and whatever words its settings are: that
of the first attempt that succeeds, fails for good or has as many retries before it as there may be.
The fetch is called once for it and once for each attempt before it, and the only pauses are those
between two calls. -/
theorem run?_course (p : Loop) (pause : Span → ω → ω) (fetch : ω → Except Failure α × ω) (w : ω) :
    let state := p.start pause fetch w
    ∃ n, IsLeast {k | k = p.maxRetries.toNat ∨ ¬ Transient (fetch (state k)).1} n ∧
      p.run? pause fetch w = some (fetch (state n)) ∧
      p.run? (notedPause pause) (noted fetch) ([], w) =
        some ((fetch (state n)).1,
          ((List.range n).flatMap fun k => [.called, .paused (p.delay k)]) ++ [.called],
          (fetch (state n)).2) ∧
      ∀ (r : Retry) (wait : Nat → ω → ω), p.Tells r →
        p.run? (fun d => wait (d.nanos / 1000000)) fetch w = some (r.run wait fetch w) := by
  obtain ⟨n, hn, hnoted⟩ := run?_noted p pause fetch w
  obtain ⟨m, hm, hrun⟩ := run?_eq_attempt p pause fetch w
  rw [hm.unique hn] at hrun
  exact ⟨n, hn, hrun, hnoted, fun r wait h => run?_eq_run h wait fetch w⟩

end Retry.Loop
end Placeholder
