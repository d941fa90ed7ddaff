/-!
# Runs of events

Questions take turns with what happens elsewhere, which may change the world `ω` but nothing of
what is kept beside it in the state `σ`.
-/
namespace Placeholder

/-- A question, or a change of the world that has nothing to do with it. -/
inductive Event (ι ω : Type) where
  | ask (question : ι)
  | elsewhere (change : ω → ω)

namespace Event

variable {ι ω σ ρ : Type}

/-- The answers to the questions of a run, in order, and the state in which it ends. A change of
the world is one of the state by `lift`. -/
def run (ask : ι → σ → ρ × σ) (lift : (ω → ω) → σ → σ) : List (Event ι ω) → σ → List ρ × σ
  | [], s => ([], s)
  | .ask question :: rest, s =>
    let (answer, s) := ask question s
    let (answers, s) := run ask lift rest s
    (answer :: answers, s)
  | .elsewhere change :: rest, s => run ask lift rest (lift change s)

/-- How many questions there are in a run. -/
def questions : List (Event ι ω) → Nat
  | [] => 0
  | .ask _ :: rest => questions rest + 1
  | .elsewhere _ :: rest => questions rest

/-- The world after a run whose questions leave it as it is. -/
def elapsed : List (Event ι ω) → ω → ω
  | [], w => w
  | .ask _ :: rest, w => elapsed rest w
  | .elsewhere change :: rest, w => elapsed rest (change w)

/-- Nothing that happens elsewhere turns the clock back. -/
def KeepTime (now : ω → Nat) (events : List (Event ι ω)) : Prop :=
  ∀ change, .elsewhere change ∈ events → ∀ w, now w ≤ now (change w)

/-- Where every question has the same answer and changes nothing, as long as the world has a
property that no change takes from it, a whole run has that answer and only the changes are left. -/
theorem run_of_settled {ask : ι → σ → ρ × σ} {lift : (ω → ω) → σ → σ} {answer : ρ}
    (state : ω → σ) (P : ω → Prop)
    (hlift : ∀ change w, lift change (state w) = state (change w))
    (hask : ∀ question w, P w → ask question (state w) = (answer, state w))
    (events : List (Event ι ω))
    (hP : ∀ change, .elsewhere change ∈ events → ∀ w, P w → P (change w)) (w : ω) (hw : P w) :
    run ask lift events (state w) =
      (List.replicate (questions events) answer, state (elapsed events w)) := by
  induction events generalizing w with
  | nil => rfl
  | cons event rest ih =>
      have hrest : ∀ change, .elsewhere change ∈ rest → ∀ w, P w → P (change w) :=
        fun change hc => hP change (List.mem_cons_of_mem _ hc)
      cases event with
      | ask question =>
          simp only [run, hask question w hw, ih hrest w hw, questions, elapsed,
            List.replicate_succ]
      | elsewhere change =>
          have hc : P (change w) := hP change List.mem_cons_self w hw
          simp only [run, hlift, ih hrest (change w) hc, questions, elapsed]

/-- Where questions have the same answers in states that belong together, and neither they nor the
changes of the world part such states, two runs go the same way. -/
theorem run_alike {σ' : Type} {ask : ι → σ → ρ × σ} {ask' : ι → σ' → ρ × σ'}
    {lift : (ω → ω) → σ → σ} {lift' : (ω → ω) → σ' → σ'} {states : σ → σ' → Prop}
    (hask : ∀ question s s', states s s' →
      (ask question s).1 = (ask' question s').1 ∧ states (ask question s).2 (ask' question s').2)
    (hlift : ∀ change s s', states s s' → states (lift change s) (lift' change s'))
    (events : List (Event ι ω)) {s : σ} {s' : σ'} (h : states s s') :
    (run ask lift events s).1 = (run ask' lift' events s').1 ∧
      states (run ask lift events s).2 (run ask' lift' events s').2 := by
  induction events generalizing s s' with
  | nil => exact ⟨rfl, h⟩
  | cons event rest ih =>
      cases event with
      | ask question =>
          obtain ⟨hanswer, hnext⟩ := hask question s s' h
          obtain ⟨hanswers, hend⟩ := ih hnext
          refine ⟨?_, hend⟩
          change (ask question s).1 :: _ = (ask' question s').1 :: _
          rw [hanswer, hanswers]
      | elsewhere change => exact ih (hlift change s s' h)

end Event
end Placeholder
