import Placeholder.Substitution

/-!
# Why a rendering stops

A rendering stops at one of its tokens, and there for one of two causes: an error that aborts the
substitution, or a source that has crashed.
-/
namespace Placeholder

/-- The stop is one of the errors that abort a substitution. -/
def Stop.Aborts (stop : Stop) : Prop := ∃ e, stop = .error e ∧ e.abort = true

namespace Token

variable {t : Token} {stop : Stop}

theorem aborts_of_withoutValue (h : t.withoutValue = .error stop) : stop.Aborts := by
  unfold withoutValue at h
  split at h
  · cases h
    exact ⟨_, rfl, rfl⟩
  · cases h
  · cases h

theorem aborts_of_withoutSource (h : t.withoutSource = .error stop) : stop.Aborts := by
  unfold withoutSource at h
  split at h
  · cases h
    exact ⟨_, rfl, rfl⟩
  · cases h

theorem aborts_or_crash {x : Answer} (h : t.withAnswer x = .error stop) :
    stop.Aborts ∨ ∃ c, stop = .crash c ∧ x = .error (.crash c) := by
  rcases x with (e | c) | (_ | value)
  · rw [withAnswer] at h
    split at h
    · cases h
      exact .inl ⟨_, rfl, rfl⟩
    · exact .inl (aborts_of_withoutValue h)
  · cases h
    exact .inr ⟨c, rfl, rfl⟩
  · exact .inl (aborts_of_withoutValue h)
  · cases h

end Token

namespace Registry

variable {ω : Type} {r : Registry ω} {w w' : ω} {stop : Stop}

/-- The stop is the crash of a source of the registry. -/
def Crashes (r : Registry ω) (stop : Stop) : Prop :=
  ∃ c kind source name w w', stop = .crash c ∧ r.source? kind = some source ∧
    source.ask name w = (.error (.crash c), w')

theorem resolve_stop {t : Token} (h : r.resolve t w = (.error stop, w')) :
    stop.Aborts ∨ r.Crashes stop := by
  unfold resolve at h
  cases hsource : r.source? t.kind with
  | none =>
      rw [hsource] at h
      exact .inl (Token.aborts_of_withoutSource (congrArg Prod.fst h))
  | some source =>
      obtain ⟨x, w₁, hx⟩ : ∃ x w₁, source.ask t.name w = (x, w₁) := ⟨_, _, rfl⟩
      simp only [hsource, hx] at h
      rcases Token.aborts_or_crash (congrArg Prod.fst h) with haborts | ⟨c, hstop, rfl⟩
      · exact .inl haborts
      · exact .inr ⟨c, t.kind, source, t.name, w, w₁, hstop, hsource, hx⟩

theorem renderSegments_stop {segments : List Segment}
    (h : r.renderSegments segments w = (.error stop, w')) : stop.Aborts ∨ r.Crashes stop := by
  induction segments generalizing w w' with
  | nil => cases h
  | cons segment rest ih =>
      cases segment with
      | literal text =>
          obtain ⟨x, w₁, hx⟩ : ∃ x w₁, r.renderSegments rest w = (x, w₁) := ⟨_, _, rfl⟩
          rw [renderSegments, hx] at h
          cases x with
          | error stop =>
              cases h
              exact ih hx
          | ok pieces => cases h
      | token t =>
          obtain ⟨piece, w₁, hp⟩ : ∃ piece w₁, r.resolve t w = (piece, w₁) := ⟨_, _, rfl⟩
          rw [renderSegments, hp] at h
          cases piece with
          | error stop =>
              cases h
              exact resolve_stop hp
          | ok piece =>
              obtain ⟨x, w₂, hx⟩ : ∃ x w₂, r.renderSegments rest w₁ = (x, w₂) := ⟨_, _, rfl⟩
              simp only [hx] at h
              cases x with
              | error stop =>
                  cases h
                  exact ih hx
              | ok pieces => cases h

theorem render_stop {template : String} (h : r.render template w = (.error stop, w')) :
    stop.Aborts ∨ r.Crashes stop := by
  obtain ⟨x, w₁, hx⟩ : ∃ x w₁, r.renderSegments (Template.segments template) w = (x, w₁) :=
    ⟨_, _, rfl⟩
  rw [render, hx] at h
  cases x with
  | error stop =>
      cases h
      exact renderSegments_stop hx
  | ok pieces => cases h

end Registry
end Placeholder
