import Placeholder.Proofs.Substitution.Alike
import Placeholder.Proofs.Template.Growing

/-!
# Substitution in two parts

Segments are rendered one after the other, so those of two parts are rendered by rendering the first
and then, if that has not stopped, the second (`renderSegments_append`). Since a template may be cut
where a token stops, `render_at_boundary` says the same of the two parts of its text.
-/
namespace Placeholder

open Text (cut? from?)

namespace Rendering

instance : Append Rendering := ⟨fun ρ σ => ⟨ρ.pieces ++ σ.pieces⟩⟩

@[simp] theorem pieces_append (ρ σ : Rendering) : (ρ ++ σ).pieces = ρ.pieces ++ σ.pieces := rfl

@[simp] theorem output_append (ρ σ : Rendering) : (ρ ++ σ).output = ρ.output ++ σ.output := by
  simp [output]

@[simp] theorem report_append (ρ σ : Rendering) : (ρ ++ σ).report = ρ.report ++ σ.report := by
  simp [report]

end Rendering

theorem eq_ok_of_map {ω α β : Type} {f : α → β} {run : Except Stop α × ω} {b : β} {w : ω}
    (h : Prod.map (Except.map f) id run = (.ok b, w)) : ∃ a, run = (.ok a, w) ∧ f a = b := by
  rcases run with ⟨stop | a, w'⟩
  · cases h
  · cases h
    exact ⟨a, rfl, rfl⟩

theorem eq_error_of_map {ω α β : Type} {f : α → β} {run : Except Stop α × ω} {stop : Stop} {w : ω}
    (h : Prod.map (Except.map f) id run = (.error stop, w)) : run = (.error stop, w) := by
  rcases run with ⟨stop' | a, w'⟩
  · cases h
    rfl
  · cases h

namespace Registry

variable {ω : Type} {r : Registry ω} {w w₁ : ω} {stop : Stop}

/-! ## Segment by segment -/

theorem renderSegments_literal (text : String) (rest : List Segment) (w : ω) :
    r.renderSegments (.literal text :: rest) w =
      Prod.map (Except.map (.literal text :: ·)) id (r.renderSegments rest w) := by
  rw [renderSegments]
  rcases r.renderSegments rest w with ⟨stop | pieces, w'⟩
  · rfl
  · rfl

theorem renderSegments_of_resolve_error {t : Token} (h : r.resolve t w = (.error stop, w₁))
    (rest : List Segment) : r.renderSegments (.token t :: rest) w = (.error stop, w₁) := by
  simp only [renderSegments, h]

theorem renderSegments_of_resolve {t : Token} {piece : Piece}
    (h : r.resolve t w = (.ok piece, w₁)) (rest : List Segment) :
    r.renderSegments (.token t :: rest) w =
      Prod.map (Except.map (piece :: ·)) id (r.renderSegments rest w₁) := by
  simp only [renderSegments, h]
  rcases r.renderSegments rest w₁ with ⟨stop | pieces, w'⟩
  · rfl
  · rfl

theorem render_eq (r : Registry ω) (template : String) (w : ω) : r.render template w =
    Prod.map (Except.map Rendering.mk) id (r.renderSegments (Template.segments template) w) := by
  rw [render]
  rcases r.renderSegments (Template.segments template) w with ⟨stop | pieces, w'⟩
  · rfl
  · rfl

/-! ## Two parts -/

/-- Renders further segments behind those that were rendered, unless that has stopped. -/
def goOn (r : Registry ω) (more : List Segment) :
    Except Stop (List Piece) × ω → Except Stop (List Piece) × ω
  | (.ok pieces, w) => Prod.map (Except.map (pieces ++ ·)) id (r.renderSegments more w)
  | (.error stop, w) => (.error stop, w)

theorem goOn_cons (more : List Segment) (piece : Piece) (run : Except Stop (List Piece) × ω) :
    r.goOn more (Prod.map (Except.map (piece :: ·)) id run) =
      Prod.map (Except.map (piece :: ·)) id (r.goOn more run) := by
  rcases run with ⟨stop | pieces, w⟩
  · rfl
  · change Prod.map (Except.map (piece :: pieces ++ ·)) id (r.renderSegments more w) = _
    rw [goOn]
    rcases r.renderSegments more w with ⟨stop | later, w'⟩
    · rfl
    · rfl

theorem renderSegments_append (segments more : List Segment) (w : ω) :
    r.renderSegments (segments ++ more) w = r.goOn more (r.renderSegments segments w) := by
  induction segments generalizing w with
  | nil =>
      change r.renderSegments more w = Prod.map (Except.map ([] ++ ·)) id (r.renderSegments more w)
      rcases r.renderSegments more w with ⟨stop | pieces, w'⟩
      · rfl
      · rfl
  | cons s rest ih =>
      rw [List.cons_append]
      cases s with
      | literal text => rw [renderSegments_literal, renderSegments_literal, ih, goOn_cons]
      | token t =>
          rcases ht : r.resolve t w with ⟨x, w'⟩
          cases x with
          | error stop =>
              rw [renderSegments_of_resolve_error ht, renderSegments_of_resolve_error ht]
              rfl
          | ok piece =>
              rw [renderSegments_of_resolve ht, renderSegments_of_resolve ht, ih, goOn_cons]

variable {template left right : String}
  (h : Template.segments template = Template.segments left ++ Template.segments right)

include h

theorem render_of_left_error (hleft : r.render left w = (.error stop, w₁)) :
    r.render template w = (.error stop, w₁) := by
  rw [render_eq] at hleft ⊢
  rw [h, renderSegments_append, eq_error_of_map hleft]
  rfl

theorem render_of_left {ρ : Rendering} (hleft : r.render left w = (.ok ρ, w₁)) :
    r.render template w = Prod.map (Except.map (ρ ++ ·)) id (r.render right w₁) := by
  rw [render_eq] at hleft
  obtain ⟨pieces, hpieces, rfl⟩ := eq_ok_of_map hleft
  rw [render_eq, h, renderSegments_append, hpieces, render_eq r right, goOn]
  rcases r.renderSegments (Template.segments right) w₁ with ⟨stop | later, w₂⟩
  · rfl
  · rfl

omit h

/-! ## Lookups -/

/-- What was noted before a rendering stays in front of what it notes. -/
theorem alike_recorded_behind (r : Registry ω) (before : List (Kind × String)) :
    Alike (fun _ _ => Eq) (fun s s' => s' = (before ++ s.1, s.2)) r.recorded r.recorded := by
  constructor
  · intro kind
    rfl
  · intro kind s s' hs hs' name w w' hw
    obtain ⟨source, hsource, rfl⟩ := Option.map_eq_some_iff.mp hs
    obtain rfl : source.recorded kind = s' := Option.some.inj (hs.symm.trans hs')
    subst hw
    obtain ⟨log, w⟩ := w
    refine ⟨Answer.alike_refl _, ?_⟩
    exact Prod.ext (List.append_assoc before log [(kind, name)]) rfl

theorem render_recorded_behind {x : Except Stop Rendering} {log : List (Kind × String)}
    (h : r.recorded.render template ([], w) = (x, log, w₁)) (before : List (Kind × String)) :
    r.recorded.render template (before, w) = (x, before ++ log, w₁) := by
  have hstart : (before, w) = (before ++ [], w) := by rw [List.append_nil]
  obtain ⟨hresult, hstate⟩ :=
    (r.alike_recorded_behind before).render_eq (w := ([], w)) template hstart
  rw [h] at hresult hstate
  exact Prod.ext hresult hstate

/-- Substitution may be done in parts that meet where a token stops. The first part stops with the
same error as the whole, and then nothing of the second is looked up. Otherwise the second is rendered
from the state that the first has left: the outputs, the reports and the lookups of both follow each
other, and if it stops, so does the whole. -/
theorem render_at_boundary (r : Registry ω) {template : String} {q : Template.Placed}
    (hq : q ∈ Template.scan template) :
    (∀ text x w log w', r.recorded.render text ([], w) = (x, log, w') →
      r.render text w = (x, w')) ∧
    ∃ left right, cut? template 0 q.stopByte = some left ∧
      from? template q.stopByte = some right ∧ ∀ w,
        (∀ stop log w₁, r.recorded.render left ([], w) = (.error stop, log, w₁) →
          r.recorded.render template ([], w) = (.error stop, log, w₁)) ∧
        (∀ ρ log w₁, r.recorded.render left ([], w) = (.ok ρ, log, w₁) →
          (∀ stop log' w₂, r.recorded.render right ([], w₁) = (.error stop, log', w₂) →
            r.recorded.render template ([], w) = (.error stop, log ++ log', w₂)) ∧
          (∀ σ log' w₂, r.recorded.render right ([], w₁) = (.ok σ, log', w₂) →
            ∃ τ, r.recorded.render template ([], w) = (.ok τ, log ++ log', w₂) ∧
              τ.output = ρ.output ++ σ.output ∧ τ.report = ρ.report ++ σ.report)) := by
  constructor
  · intro text x w log w' h
    obtain ⟨hresult, hstate⟩ := r.render_recorded text [] w
    rw [h] at hresult hstate
    exact Prod.ext hresult.symm hstate.symm
  · obtain ⟨left, right, hleft, hright, hsegments⟩ := Template.segments_cut hq
    refine ⟨left, right, hleft, hright, ?_⟩
    intro w
    constructor
    · intro stop log w₁ hstop
      exact render_of_left_error hsegments hstop
    · intro ρ log w₁ hρ
      have hwhole := render_of_left hsegments hρ
      constructor
      · intro stop log' w₂ hstop
        rw [hwhole, render_recorded_behind hstop log]
        rfl
      · intro σ log' w₂ hσ
        rw [render_recorded_behind hσ log] at hwhole
        exact ⟨ρ ++ σ, hwhole, Rendering.output_append ρ σ, Rendering.report_append ρ σ⟩

/-- The cut is behind the second of five tokens, and the fourth one stops the run. -/
theorem render_at_boundary_counting :
    let text := "${vars:A}-${kv:B:x} ${env:C}${kv:D!}${vars:A}"
    ⟨⟨.kv, "B", .fallback "x"⟩, ⟨10, 1⟩⟩ ∈ Template.scan text ∧
      counting.recorded.render text ([], 0) =
        (.error (.error (.fetch .kv "D" (.timeout 5))),
          [(.vars, "A"), (.kv, "B")] ++ [(.kv, "D")], 3) := by
  intro text
  have hq : ⟨⟨.kv, "B", .fallback "x"⟩, ⟨10, 1⟩⟩ ∈ Template.scan text := by decide +kernel
  have hchars : text.toList =
      "${vars:A}-${kv:B:x}".toList ++ " ${env:C}${kv:D!}${vars:A}".toList := by decide
  have hwhole : text.toList = [] ++ ("${vars:A}-${kv:B:x}".toList ++
      " ${env:C}${kv:D!}${vars:A}".toList) := hchars
  obtain ⟨-, left, right, hleft, hright, hparts⟩ := render_at_boundary counting hq
  obtain rfl : left = "${vars:A}-${kv:B:x}" :=
    Option.some.inj (hleft.symm.trans (Text.cut?_of_append hwhole))
  obtain rfl : right = " ${env:C}${kv:D!}${vars:A}" :=
    Option.some.inj (hright.symm.trans (Text.from?_of_append hchars))
  have hfirst : counting.recorded.render "${vars:A}-${kv:B:x}" ([], 0) =
      (.ok ⟨[.token ⟨.vars, "A", .plain⟩ .resolved "A", .literal "-",
        .token ⟨.kv, "B", .fallback "x"⟩ .defaulted "x"]⟩, [(.vars, "A"), (.kv, "B")], 2) := by
    decide +kernel
  have hsecond : counting.recorded.render " ${env:C}${kv:D!}${vars:A}" ([], 2) =
      (.error (.error (.fetch .kv "D" (.timeout 5))), [(.kv, "D")], 3) := by
    decide +kernel
  exact ⟨hq, ((hparts 0).2 _ _ _ hfirst).1 _ _ _ hsecond⟩

end Registry
end Placeholder
