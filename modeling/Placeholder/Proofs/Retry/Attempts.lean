import Placeholder.Retry

/-!
# Attempts

A fetch with retries is a row of attempts, each of which starts in the state that the one before
has left, after a pause. `run_eq_attempt` says which attempt gives the result, and why there was
no earlier and no later one.
-/
namespace Placeholder.Retry

variable {ω α : Type}

/-- A failure after which another attempt may succeed. -/
def Transient (x : Except Failure α) : Prop := ∃ e, x = .error (.error e) ∧ e.transient = true

/-- The state in which an attempt starts that `k` failed ones have come before. -/
def start (r : Retry) (pause : Nat → ω → ω) (fetch : ω → Except Failure α × ω) (w : ω) : Nat → ω
  | 0 => w
  | k + 1 => pause (r.delay k) (fetch (start r pause fetch w k)).2

variable {r : Retry} {pause : Nat → ω → ω} {fetch : ω → Except Failure α × ω}

theorem attempts_of_transient {w : ω} (h : Transient (fetch w).1) (left k : Nat) :
    r.attempts pause fetch (left + 1) k w =
      r.attempts pause fetch left (k + 1) (pause (r.delay k) (fetch w).2) := by
  obtain ⟨e, he, ht⟩ := h
  obtain ⟨w', hw⟩ : ∃ w', fetch w = (.error (.error e), w') := ⟨(fetch w).2, Prod.ext he rfl⟩
  rw [attempts]
  simp [hw, ht]

theorem attempts_of_not_transient {w : ω} (h : ¬ Transient (fetch w).1) (left k : Nat) :
    r.attempts pause fetch left k w = fetch w := by
  obtain ⟨x, w', hw⟩ : ∃ x w', fetch w = (x, w') := ⟨_, _, rfl⟩
  rw [attempts.eq_def]
  match x with
  | .ok a => simp only [hw]
  | .error (.crash c) => simp only [hw]
  | .error (.error e) =>
      have ht : e.transient = false := by
        cases he : e.transient with
        | false => rfl
        | true => exact absurd ⟨e, by rw [hw], he⟩ h
      simp only [hw, ht]

theorem attempts_zero (k : Nat) (w : ω) : r.attempts pause fetch 0 k w = fetch w := by
  obtain ⟨x, w', hw⟩ : ∃ x w', fetch w = (x, w') := ⟨_, _, rfl⟩
  rw [attempts.eq_def]
  match x with
  | .ok a => simp only [hw]
  | .error (.crash c) => simp only [hw]
  | .error (.error e) =>
      simp only [hw]
      cases e.transient <;> rfl

theorem attempts_eq_attempt (r : Retry) (pause : Nat → ω → ω)
    (fetch : ω → Except Failure α × ω) (w : ω) (left k : Nat) :
    ∃ n, k ≤ n ∧ n ≤ k + left ∧
      r.attempts pause fetch left k (r.start pause fetch w k) = fetch (r.start pause fetch w n) ∧
      (∀ j, k ≤ j → j < n → Transient (fetch (r.start pause fetch w j)).1) ∧
      (n = k + left ∨ ¬ Transient (fetch (r.start pause fetch w n)).1) := by
  -- The state does not change along the induction: it is the one in which the `k`-th attempt starts.
  induction left generalizing k with
  | zero =>
      refine ⟨k, Nat.le_refl k, Nat.le_refl k, attempts_zero k _, ?_, .inl rfl⟩
      intro j hj hk
      omega
  | succ left ih =>
      by_cases ht : Transient (fetch (r.start pause fetch w k)).1
      · obtain ⟨n, hk, hn, heq, hall, hend⟩ := ih (k + 1)
        refine ⟨n, by omega, by omega, ?_, ?_, ?_⟩
        · rw [attempts_of_transient ht]
          exact heq
        · intro j hj hjn
          rcases Nat.eq_or_lt_of_le hj with rfl | hlt
          · exact ht
          · exact hall j hlt hjn
        · exact hend.imp (fun h => by omega) id
      · refine ⟨k, Nat.le_refl k, by omega, attempts_of_not_transient ht _ k, ?_, .inr ht⟩
        intro j hj hk
        omega

/-- The result is that of the first attempt that does not fail in passing, or of the last one that
the settings allow. -/
theorem run_eq_attempt (r : Retry) (pause : Nat → ω → ω) (fetch : ω → Except Failure α × ω)
    (w : ω) :
    ∃ n, n ≤ r.maxRetries ∧ r.run pause fetch w = fetch (r.start pause fetch w n) ∧
      (∀ k < n, Transient (fetch (r.start pause fetch w k)).1) ∧
      (n = r.maxRetries ∨ ¬ Transient (fetch (r.start pause fetch w n)).1) := by
  obtain ⟨n, _, hn, heq, hall, hend⟩ := attempts_eq_attempt r pause fetch w r.maxRetries 0
  refine ⟨n, by omega, heq, fun k hk => hall k (Nat.zero_le k) hk, ?_⟩
  exact hend.imp (fun h => by omega) id

/-- Where two fetches come to the same in states that belong together, so do the attempts at them.
The states belong together in one way before a fetch and in another behind it. -/
theorem attempts_alike {σ : Type} {pause' : Nat → σ → σ} {fetch' : σ → Except Failure α × σ}
    (before behind : ω → σ → Prop)
    (hfetch : ∀ w s, before w s → (fetch w).1 = (fetch' s).1 ∧ behind (fetch w).2 (fetch' s).2)
    (hpause : ∀ ms w s, behind w s → before (pause ms w) (pause' ms s))
    (left k : Nat) {w : ω} {s : σ} (h : before w s) :
    (r.attempts pause fetch left k w).1 = (r.attempts pause' fetch' left k s).1 ∧
      behind (r.attempts pause fetch left k w).2 (r.attempts pause' fetch' left k s).2 := by
  induction left generalizing k w s with
  | zero =>
      rw [attempts_zero, attempts_zero]
      exact hfetch w s h
  | succ left ih =>
      obtain ⟨hsame, hbehind⟩ := hfetch w s h
      by_cases ht : Transient (fetch w).1
      · rw [attempts_of_transient ht, attempts_of_transient (hsame ▸ ht)]
        exact ih (k + 1) (hpause (r.delay k) _ _ hbehind)
      · rw [attempts_of_not_transient ht, attempts_of_not_transient (hsame ▸ ht)]
        exact ⟨hsame, hbehind⟩

end Placeholder.Retry
