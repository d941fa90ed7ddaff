import Placeholder.Credential.Chain
import Placeholder.Proofs.Events
import Placeholder.Proofs.Retry.Attempts

/-!
# How a chain comes to its end

`Call` has one rule for each way in which a chain that is not exhausted may issue a token or fail;
`issue_eq_iff_call` says that there is no other. Only one of the rules leaves a memo behind, and
then nothing is asked any more.
-/
namespace Placeholder

/-- The credential with a log in which it notes its number each time it is asked. -/
def Credential.noting {ω : Type} (c : Credential ω) (number : Nat) : Credential (List Nat × ω) :=
  ⟨c.name, fun client (log, w) =>
    let (issued, w) := c.issue client w
    (issued, log ++ [number], w)⟩

/-- Asking the credential does not turn the clock back. -/
def Credential.KeepsTime {ω : Type} (now : ω → Nat) (c : Credential ω) : Prop :=
  ∀ client w, now w ≤ now (c.issue client w).2

namespace Chain

variable {ω : Type} {client : Http.Client} {sources : List (Credential ω)}

/-- The credentials with a common log, numbered in order. -/
def noted : Nat → List (Credential ω) → List (Credential (List Nat × ω))
  | _, [] => []
  | number, c :: rest => c.noting number :: noted (number + 1) rest

/-- The credentials are asked in order, each in the state that the one before has left, and all of
them fail, with these errors. -/
inductive Fails (client : Http.Client) :
    List (Credential ω) → ω → List (String × FetchError) → ω → Prop
  | nil (w : ω) : Fails client [] w [] w
  | cons {c cs w w₁ w₂ e failures} (hc : c.issue client w = (.error (.error e), w₁))
      (hs : Fails client cs w₁ failures w₂) :
      Fails client (c :: cs) w ((c.name, e) :: failures) w₂

/-- Either all credentials fail, or there is a first one that does not. -/
theorem fails_or_stops (client : Http.Client) (sources : List (Credential ω)) (w : ω) :
    (∃ failures w', Fails client sources w failures w') ∨
      ∃ before c after failures w₁, sources = before ++ c :: after ∧
        Fails client before w failures w₁ ∧ ∀ e, (c.issue client w₁).1 ≠ .error (.error e) := by
  induction sources generalizing w with
  | nil => exact .inl ⟨[], w, .nil w⟩
  | cons c rest ih =>
      by_cases hc : ∃ e, (c.issue client w).1 = .error (.error e)
      · obtain ⟨e, he⟩ := hc
        have hissue : c.issue client w = (.error (.error e), (c.issue client w).2) :=
          Prod.ext he rfl
        rcases ih (c.issue client w).2 with
          ⟨failures, w', hf⟩ | ⟨before, d, after, failures, w₁, hs, hf, hd⟩
        · exact .inl ⟨_, w', .cons hissue hf⟩
        · exact .inr ⟨c :: before, d, after, _, w₁, by rw [hs]; rfl, .cons hissue hf, hd⟩
      · exact .inr ⟨[], c, rest, [], w, rfl, .nil w, fun e he => hc ⟨e, he⟩⟩

theorem Fails.tryAll_append {before : List (Credential ω)} {w w₁ : ω}
    {failures : List (String × FetchError)} (hf : Fails client before w failures w₁)
    (rest : List (Credential ω)) :
    tryAll client (before ++ rest) w =
      match tryAll client rest w₁ with
      | (.failed others, w) => (.failed (failures ++ others), w)
      | other => other := by
  induction hf with
  | nil w =>
      obtain ⟨trial, w₁, ht⟩ : ∃ trial w₁, tryAll client rest w = (trial, w₁) := ⟨_, _, rfl⟩
      cases trial <;> simp [ht]
  | @cons _ _ _ _ w₂ _ _ hc hs ih =>
      obtain ⟨trial, w₃, ht⟩ : ∃ trial w₃, tryAll client rest w₂ = (trial, w₃) := ⟨_, _, rfl⟩
      rw [ht] at ih
      cases trial <;> simp [ht, tryAll, hc, ih]

theorem Fails.tryAll_eq {w w₁ : ω} {failures : List (String × FetchError)}
    (hf : Fails client sources w failures w₁) :
    tryAll client sources w = (.failed failures, w₁) := by
  simpa [tryAll] using hf.tryAll_append []

/-- What a chain makes of it when all its credentials have failed. -/
theorem issue_of_failed {w w' : ω} {failures : List (String × FetchError)}
    (h : tryAll client sources w = (.failed failures, w')) :
    issue sources client (none, w) =
      match failures.find? (isThrottled ·.2) with
      | some failure => (.error (.error failure.2), none, w')
      | none => (.error (Credential.failed (reason failures)), some (reason failures), w') := by
  simp only [issue, h]
  cases failures.find? (isThrottled ·.2) <;> rfl

/-! ## Calls -/

/-- One call of a chain that is not exhausted: how many credentials are asked, what comes of it,
the memo, and the state it leaves. -/
inductive Call (sources : List (Credential ω)) (client : Http.Client) (w : ω) :
    Nat → Except Failure AccessToken → Memo → ω → Prop
  | issued {before c after failures w₁ t w₂} (hs : sources = before ++ c :: after)
      (hf : Fails client before w failures w₁) (hc : c.issue client w₁ = (.ok t, w₂)) :
      Call sources client w (before.length + 1) (.ok t) none w₂
  | crashed {before c after failures w₁ crash w₂} (hs : sources = before ++ c :: after)
      (hf : Fails client before w failures w₁)
      (hc : c.issue client w₁ = (.error (.crash crash), w₂)) :
      Call sources client w (before.length + 1) (.error (.crash crash)) none w₂
  | throttled {before name e after w₁}
      (hf : Fails client sources w (before ++ (name, e) :: after) w₁)
      (hb : ∀ failure ∈ before, isThrottled failure.2 = false) (he : isThrottled e = true) :
      Call sources client w sources.length (.error (.error e)) none w₁
  | exhausted {failures w₁} (hf : Fails client sources w failures w₁)
      (hn : ∀ failure ∈ failures, isThrottled failure.2 = false) :
      Call sources client w sources.length (.error (Credential.failed (reason failures)))
        (some (reason failures)) w₁

theorem Call.issue_eq {w w' : ω} {asked : Nat} {x : Except Failure AccessToken} {memo : Memo}
    (h : Call sources client w asked x memo w') :
    issue sources client (none, w) = (x, memo, w') := by
  cases h with
  | issued hs hf hc => simp [issue, hs, hf.tryAll_append, tryAll, hc]
  | crashed hs hf hc => simp [issue, hs, hf.tryAll_append, tryAll, hc]
  | @throttled before name e after _ hf hb he =>
      have hfind : (before ++ (name, e) :: after).find? (isThrottled ·.2) = some (name, e) := by
        rw [List.find?_append, List.find?_eq_none.mpr (by simpa using hb)]
        simp [he]
      rw [issue_of_failed hf.tryAll_eq, hfind]
  | @exhausted failures _ hf hn =>
      have hfind : failures.find? (isThrottled ·.2) = none :=
        List.find?_eq_none.mpr (by simpa using hn)
      rw [issue_of_failed hf.tryAll_eq, hfind]

theorem call_total (sources : List (Credential ω)) (client : Http.Client) (w : ω) :
    ∃ asked x memo w', Call sources client w asked x memo w' := by
  rcases fails_or_stops client sources w with
    ⟨failures, w', hf⟩ | ⟨before, c, after, failures, w₁, hs, hf, hstop⟩
  · cases hfind : failures.find? (isThrottled ·.2) with
    | none =>
        refine ⟨_, _, _, _, .exhausted hf ?_⟩
        simpa using List.find?_eq_none.mp hfind
    | some failure =>
        obtain ⟨name, e⟩ := failure
        obtain ⟨he, before, after, rfl, hb⟩ := List.find?_eq_some_iff_append.mp hfind
        refine ⟨_, _, _, _, .throttled hf ?_ he⟩
        simpa using hb
  · obtain ⟨x, w₂, hc⟩ : ∃ x w₂, c.issue client w₁ = (x, w₂) := ⟨_, _, rfl⟩
    rcases x with (e | crash) | t
    · exact absurd (congrArg Prod.fst hc) (hstop e)
    · exact ⟨_, _, _, _, .crashed hs hf hc⟩
    · exact ⟨_, _, _, _, .issued hs hf hc⟩

theorem issue_eq_iff_call {w w' : ω} {x : Except Failure AccessToken} {memo : Memo} :
    issue sources client (none, w) = (x, memo, w') ↔
      ∃ asked, Call sources client w asked x memo w' := by
  constructor
  · intro h
    obtain ⟨asked, x₁, memo₁, w₁, hcall⟩ := call_total sources client w
    cases hcall.issue_eq.symm.trans h
    exact ⟨asked, hcall⟩
  · rintro ⟨asked, hcall⟩
    exact hcall.issue_eq

theorem Call.asked_le {w w' : ω} {asked : Nat} {x : Except Failure AccessToken} {memo : Memo}
    (h : Call sources client w asked x memo w') : asked ≤ sources.length := by
  cases h with
  | issued hs hf hc => simp [hs]
  | crashed hs hf hc => simp [hs]
  | throttled hf hb he => exact Nat.le_refl _
  | exhausted hf hn => exact Nat.le_refl _

/-! ## The order of asking -/

theorem length_noted (number : Nat) (sources : List (Credential ω)) :
    (noted number sources).length = sources.length := by
  induction sources generalizing number with
  | nil => rfl
  | cons c rest ih => simp [noted, ih]

theorem noted_append (number : Nat) (before after : List (Credential ω)) :
    noted number (before ++ after) =
      noted number before ++ noted (number + before.length) after := by
  induction before generalizing number with
  | nil => rfl
  | cons c rest ih => simp [noted, ih, Nat.add_assoc, Nat.add_comm 1]

theorem issue_noting {c : Credential ω} {w w' : ω} {x : Except Failure AccessToken}
    (hc : c.issue client w = (x, w')) (number : Nat) (log : List Nat) :
    (c.noting number).issue client (log, w) = (x, log ++ [number], w') := by
  simp [Credential.noting, hc]

theorem Fails.noted {w w' : ω} {failures : List (String × FetchError)}
    (hf : Fails client sources w failures w') (number : Nat) (log : List Nat) :
    Fails client (noted number sources) (log, w) failures
      (log ++ List.range' number sources.length, w') := by
  induction hf generalizing number log with
  | nil w => simpa [Chain.noted] using Fails.nil (log, w)
  | cons hc hs ih =>
      have hrest := ih (number + 1) (log ++ [number])
      simp only [List.append_assoc, List.singleton_append, ← List.range'_succ] at hrest
      exact .cons (issue_noting hc number log) hrest

/-- The log of a call: those that were asked, from the first on, in order and without repetition. -/
theorem Call.noted {w w' : ω} {asked : Nat} {x : Except Failure AccessToken} {memo : Memo}
    (h : Call sources client w asked x memo w') (number : Nat) (log : List Nat) :
    Call (noted number sources) client (log, w) asked x memo
      (log ++ List.range' number asked, w') := by
  have hstop {before : List (Credential ω)} {c : Credential ω} {after : List (Credential ω)}
      (hs : sources = before ++ c :: after) : Chain.noted number sources =
        Chain.noted number before ++ c.noting (number + before.length) ::
          Chain.noted (number + before.length + 1) after := by
    rw [hs, noted_append]
    rfl
  have hlog (n : Nat) : log ++ List.range' number (n + 1) =
      (log ++ List.range' number n) ++ [number + n] := by
    rw [List.range'_concat]
    simp
  cases h with
  | @issued before _ _ _ _ _ _ hs hf hc =>
      rw [hlog, ← length_noted number before]
      refine .issued (hstop hs) (hf.noted number log) ?_
      rw [length_noted]
      exact issue_noting hc _ _
  | @crashed before _ _ _ _ _ _ hs hf hc =>
      rw [hlog, ← length_noted number before]
      refine .crashed (hstop hs) (hf.noted number log) ?_
      rw [length_noted]
      exact issue_noting hc _ _
  | throttled hf hb he =>
      have h := Call.throttled (hf.noted number log) hb he
      rwa [length_noted] at h
  | exhausted hf hn =>
      have h := Call.exhausted (hf.noted number log) hn
      rwa [length_noted] at h

/-! ## Exhaustion -/

theorem Fails.now_le {now : ω → Nat} {w w' : ω} {failures : List (String × FetchError)}
    (hf : Fails client sources w failures w')
    (hnow : ∀ c ∈ sources, c.KeepsTime now) : now w ≤ now w' := by
  induction hf with
  | nil w => exact Nat.le_refl _
  | @cons c _ w _ _ _ _ hc hs ih =>
      have hfirst := hnow c List.mem_cons_self client w
      rw [hc] at hfirst
      exact Nat.le_trans hfirst (ih fun d hd => hnow d (List.mem_cons_of_mem _ hd))

theorem Call.of_memo {w w' : ω} {asked : Nat} {x : Except Failure AccessToken} {why : String}
    (h : Call sources client w asked x (some why) w') :
    asked = sources.length ∧ x = .error (Credential.failed why) ∧
      ∃ failures, Fails client sources w failures w' := by
  cases h with
  | exhausted hf hn => exact ⟨rfl, rfl, _, hf⟩

theorem not_transient_failed {α : Type} (why : String) :
    ¬ Retry.Transient (.error (Credential.failed why) : Except Failure α) := by
  rintro ⟨e, he, ht⟩
  cases he
  cases ht

/-- An exhausted chain gives one answer for all time and never does anything. -/
theorem run_of_exhausted (why : String) (events : List (Event Http.Client ω)) (w : ω) :
    Event.run (issue sources) (Prod.map id) events (some why, w) =
      (List.replicate (Event.questions events) (.error (Credential.failed why)),
        some why, Event.elapsed events w) := by
  have hask (client : Http.Client) (w : ω) (_ : True) :
      issue sources client (some why, w) = (.error (Credential.failed why), some why, w) :=
    issue_of_exhausted sources client why w
  exact Event.run_of_settled (fun w => (some why, w)) (fun _ => True) (fun _ _ => rfl) hask events
    (fun _ _ _ _ => trivial) w trivial

end Chain
end Placeholder
