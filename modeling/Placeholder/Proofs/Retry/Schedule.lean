import Placeholder.Proofs.Retry.Loop

/-!
# Pauses and their schedule

Pauses are meant to double up to the longest one. They do so sixteen times and then stay the same,
also where the longest pause has not been reached: `run?_pauses` says for which settings that is
never seen.
-/
namespace Placeholder.Retry

namespace Loop

variable {ω α : Type} {p : Loop}

/-- The nanoseconds of a pause that doubled with every retry before it, up to the longest one. -/
def scheduled (p : Loop) (k : Nat) : Nat := min (p.initialDelay.nanos * 2 ^ k) p.maxDelay.nanos

theorem nanos_delay_of_le {k : Nat} (hk : k ≤ 16) : (p.delay k).nanos = p.scheduled k := by
  rw [nanos_delay, Nat.min_eq_left hk, scheduled]

theorem nanos_delay_succ {k : Nat} (hk : k < 16) :
    (p.delay (k + 1)).nanos = min (2 * (p.delay k).nanos) p.maxDelay.nanos := by
  rw [nanos_delay_of_le hk, nanos_delay_of_le (Nat.le_of_lt hk), scheduled, scheduled, Nat.pow_succ,
    ← Nat.mul_assoc]
  omega

theorem nanos_delay_mono {i j : Nat} (h : i ≤ j) : (p.delay i).nanos ≤ (p.delay j).nanos := by
  have hpow : 2 ^ min i 16 ≤ 2 ^ min j 16 := Nat.pow_le_pow_right (by decide) (by omega)
  have hmul := Nat.mul_le_mul_left p.initialDelay.nanos hpow
  rw [nanos_delay, nanos_delay]
  omega

theorem nanos_delay_le (p : Loop) (k : Nat) : (p.delay k).nanos ≤ p.maxDelay.nanos :=
  Nat.min_le_right _ _

/-- Behind the last doubling a pause is still the scheduled one where it is the longest or none. -/
theorem nanos_delay_eq_scheduled_iff {k : Nat} (hk : 16 < k) :
    (p.delay k).nanos = p.scheduled k ↔
      p.maxDelay.nanos ≤ p.initialDelay.nanos * 2 ^ 16 ∨ p.initialDelay.nanos = 0 := by
  obtain ⟨i, rfl⟩ : ∃ i, k = 16 + (i + 1) := ⟨k - 17, by omega⟩
  -- One more doubling already tells the two apart, unless there is nothing to double.
  have hpow : 0 < 2 ^ i := Nat.two_pow_pos i
  have hlonger : p.initialDelay.nanos * 2 ^ 16 * 2 ≤ p.initialDelay.nanos * 2 ^ (16 + (i + 1)) := by
    rw [Nat.pow_add 2 16, Nat.pow_succ 2 i, ← Nat.mul_assoc]
    exact Nat.mul_le_mul_left _ (Nat.le_mul_of_pos_left 2 hpow)
  have hzero : p.initialDelay.nanos = 0 → p.initialDelay.nanos * 2 ^ (16 + (i + 1)) = 0 := by
    intro h
    rw [h, Nat.zero_mul]
  have hcap : min (16 + (i + 1)) 16 = 16 := by omega
  rw [nanos_delay, hcap, scheduled]
  omega

theorem on_schedule_iff (p : Loop) (n : Nat) :
    (∀ k < n, (p.delay k).nanos = p.scheduled k) ↔
      n ≤ 17 ∨ p.maxDelay.nanos ≤ p.initialDelay.nanos * 2 ^ 16 ∨ p.initialDelay.nanos = 0 := by
  constructor
  · intro h
    rcases Nat.lt_or_ge 17 n with hn | hn
    · exact .inr ((nanos_delay_eq_scheduled_iff (by decide)).mp (h 17 hn))
    · exact .inl hn
  · intro h k hk
    rcases Nat.lt_or_ge 16 k with hlt | hle
    · exact (nanos_delay_eq_scheduled_iff hlt).mpr (h.resolve_left (by omega))
    · exact nanos_delay_of_le hle

def Step.pause? : Step → Option Span
  | .called => none
  | .paused d => some d

theorem pauses_retried (p : Loop) (n : Nat) :
    (p.retried n ++ [Step.called]).filterMap Step.pause? = (List.range n).map p.delay := by
  rw [List.filterMap_append, retried, List.filterMap_flatMap, List.map_eq_flatMap]
  exact List.append_nil _

/-- A loop makes one pause before each retry, in their order. For as many retries as the settings
allow they double up to the longest one, unless there are more than seventeen of them, sixteen
doublings are not enough for the longest, and there is something to double. Whatever the settings,
the first pause is the initial one or the longest one, the next sixteen double up to the longest, and
no pause is shorter than the one before it or longer than the longest. -/
theorem run?_pauses (p : Loop) (pause : Span → ω → ω) (fetch : ω → Except Failure α × ω) (w : ω) :
    (∃ n, IsLeast {k | k = p.maxRetries.toNat ∨ ¬ Transient (fetch (p.start pause fetch w k)).1} n ∧
      ∃ x log v, p.run? (notedPause pause) (noted fetch) ([], w) = some (x, log, v) ∧
        log.filterMap Step.pause? = (List.range n).map p.delay) ∧
    ((∀ k < p.maxRetries.toNat,
        (p.delay k).nanos = min (p.initialDelay.nanos * 2 ^ k) p.maxDelay.nanos) ↔
      p.maxRetries.toNat ≤ 17 ∨ p.maxDelay.nanos ≤ p.initialDelay.nanos * 2 ^ 16 ∨
        p.initialDelay.nanos = 0) ∧
    (p.delay 0).nanos = min p.initialDelay.nanos p.maxDelay.nanos ∧
    (∀ k < 16, (p.delay (k + 1)).nanos = min (2 * (p.delay k).nanos) p.maxDelay.nanos) ∧
    (∀ k, 16 ≤ k → p.delay k = p.delay 16) ∧
    (∀ i j, i ≤ j → (p.delay i).nanos ≤ (p.delay j).nanos) ∧
    (∀ k, (p.delay k).nanos ≤ p.maxDelay.nanos) ∧
    ∀ r : Retry, p.Tells r → ∀ k, r.delay k = (p.delay k).nanos / 1000000 := by
  have hfirst : (p.delay 0).nanos = min p.initialDelay.nanos p.maxDelay.nanos := by
    rw [nanos_delay, Nat.zero_min, Nat.pow_zero, Nat.mul_one]
  have hlater : ∀ k, 16 ≤ k → p.delay k = p.delay 16 := by
    intro k hk
    ext
    rw [nanos_delay, nanos_delay, Nat.min_eq_right hk, Nat.min_self]
  obtain ⟨n, hn, hrun⟩ := run?_noted p pause fetch w
  exact ⟨⟨n, hn, _, _, _, hrun, pauses_retried p n⟩, on_schedule_iff p p.maxRetries.toNat, hfirst,
    fun _ hk => nanos_delay_succ hk, hlater, fun _ _ h => nanos_delay_mono h, nanos_delay_le p,
    fun _ h k => (millis_delay h k).symm⟩

end Loop

/-- With eighteen retries, one millisecond at first and a thousand seconds at most, the last pause is
the one before it and not twice as long. -/
theorem run_past_doublings :
    let r : Retry := {
      maxRetries := 18, initialDelay := 1, maxDelay := 1000000, jitter := .zero false }
    let fetch (w : List Nat) : Except Failure String × List Nat := (.error (.error (.timeout 5)), w)
    let pauses := (r.run (fun ms w => w ++ [ms]) fetch []).2
    pauses.length = 18 ∧ pauses[16]? = some 65536 ∧ pauses[17]? = some 65536 ∧
      min (r.initialDelay * 2 ^ 17) r.maxDelay = 131072 := by
  decide

end Placeholder.Retry
