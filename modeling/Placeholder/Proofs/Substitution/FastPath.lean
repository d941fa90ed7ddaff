import Placeholder.Proofs.Substitution.Alike
import Placeholder.Proofs.Template.Segments

/-!
# Substitution and rendering agree

`Registry.substitute` renders a template only if it may hold a token, and then only if it does hold
one. Any other template is one literal (`Template.segments_of_scan_nil`), so rendering it would ask
no source and come to the same text: `substitute_agrees_render`.
-/
namespace Placeholder

namespace Template

theorem opens_iff (cs : List Char) : mayHoldToken.opens cs = true ↔ opening <:+: cs := by
  fun_induction mayHoldToken.opens cs with
  | case1 cs => exact iff_of_true rfl ⟨[], cs, rfl⟩
  | case2 c cs hne ih =>
      rw [ih, List.infix_cons_iff]
      constructor
      · exact Or.inr
      · rintro (⟨more, hmore⟩ | h)
        · obtain ⟨rfl, rfl⟩ := List.cons.inj hmore
          exact absurd rfl (hne _ rfl)
        · exact h
  | case3 => exact iff_of_false Bool.false_ne_true (by decide)

/-- The first look is for the opening of a token. -/
theorem mayHoldToken_iff (template : String) :
    mayHoldToken template = true ↔ opening <:+: template.toList :=
  opens_iff template.toList

theorem holdsToken_iff (template : String) :
    holdsToken (segments template) = false ↔ scan template = [] := by
  rw [← List.map_eq_nil_iff (f := Placed.token), map_token_scan, List.filterMap_eq_nil_iff,
    holdsToken, List.any_eq_false]
  simp only [Option.not_isSome_iff_eq_none]

theorem scan_of_not_opening {template : String} (h : ¬ opening <:+: template.toList) :
    scan template = [] := by
  have hpassed : Passed template.toList [] := by
    apply passed_of_not_opening h
    intro hbrace
    cases hbrace
  rw [← holdsToken_iff, segments_of_passed hpassed, flush_reverse]
  split
  · rfl
  · rfl

/-- A template without tokens is a single literal, and none if it is empty. -/
theorem segments_of_scan_nil {template : String} (h : scan template = []) :
    segments template = if template = "" then [] else [.literal template] := by
  have hliteral : ∀ s ∈ segments template, ∃ text, s = .literal text := by
    intro s hs
    have hnone := List.any_eq_false.mp ((holdsToken_iff template).mpr h) s hs
    cases s with
    | literal text => exact ⟨text, rfl⟩
    | token t => exact absurd rfl hnone
  have hcanonical := canonical_segments template
  have hjoin := join_segments template
  generalize segments template = found at hliteral hcanonical hjoin
  cases found with
  | nil =>
      have hempty : template = "" := hjoin.symm
      rw [if_pos hempty]
  | cons s found =>
      obtain ⟨text, rfl⟩ := hliteral s List.mem_cons_self
      cases found with
      | nil =>
          have htext : text = template := by
            rw [← hjoin]
            simp [Segment.written, Segment.chars]
          have hne := hcanonical.nonempty text List.mem_cons_self
          rw [htext] at hne ⊢
          rw [if_neg hne]
      | cons s' found =>
          obtain ⟨text', rfl⟩ := hliteral s' (by simp)
          exact absurd rfl (hcanonical.separated [] text text' found)

end Template

namespace Registry

variable {ω : Type} (r : Registry ω)

theorem render_of_scan_nil {template : String} (h : Template.scan template = []) (w : ω) :
    ∃ ρ, r.render template w = (.ok ρ, w) ∧ ρ.output = template ∧ ρ.report = [] := by
  have hsegments := Template.segments_of_scan_nil h
  split at hsegments
  · next hempty =>
      rw [render, hsegments]
      exact ⟨⟨[]⟩, rfl, hempty.symm, rfl⟩
  · rw [render, hsegments]
    exact ⟨⟨[.literal template]⟩, rfl, by simp [Rendering.output, Piece.text], rfl⟩

/-- Both looks at a template find out whether a scan finds a token in it. -/
theorem substitute_eq (template : String) (w : ω) : r.substitute template w =
    if Template.scan template = [] then (.ok .unchanged, w)
    else ((r.render template w).1.map fun ρ => .rendered ρ.output, (r.render template w).2) := by
  have hrender : Template.scan template ≠ [] → r.substitute template w =
      ((r.render template w).1.map fun ρ => .rendered ρ.output, (r.render template w).2) := by
    intro hne
    have hholds : Template.holdsToken (Template.segments template) = true := by
      rw [← Bool.not_eq_false, Template.holdsToken_iff]
      exact hne
    have hmay : Template.mayHoldToken template = true := by
      rw [Template.mayHoldToken_iff]
      by_contra hopening
      exact hne (Template.scan_of_not_opening hopening)
    simp only [substitute, hmay, hholds, render, Bool.not_true, Bool.false_eq_true, if_false]
    rcases r.renderSegments (Template.segments template) w with ⟨stop | pieces, w'⟩
    · rfl
    · rfl
  split
  · next hnil =>
      have hholds := (Template.holdsToken_iff template).mpr hnil
      simp [substitute, hholds]
  · next hne => exact hrender hne

theorem substitute_agrees (template : String) (w : ω) :
    (r.substitute template w).1.map (Substituted.output template) =
        (r.render template w).1.map Rendering.output ∧
      (r.substitute template w).2 = (r.render template w).2 := by
  rw [substitute_eq]
  split
  · next hnil =>
      obtain ⟨ρ, hρ, houtput, -⟩ := r.render_of_scan_nil hnil w
      rw [hρ]
      exact ⟨congrArg Except.ok houtput.symm, rfl⟩
  · generalize r.render template w = run
    rcases run with ⟨stop | ρ, w'⟩
    · exact ⟨rfl, rfl⟩
    · exact ⟨rfl, rfl⟩

/-- Noting the lookups changes nothing of a substitution. -/
theorem substitute_recorded (template : String) (log : List (Kind × String)) (w : ω) :
    (r.recorded.substitute template (log, w)).1 = (r.substitute template w).1 ∧
      (r.recorded.substitute template (log, w)).2.2 = (r.substitute template w).2 := by
  obtain ⟨hresult, hstate⟩ := r.render_recorded template log w
  rw [substitute_eq, substitute_eq, hresult]
  split
  · exact ⟨rfl, rfl⟩
  · exact ⟨rfl, hstate⟩

/-- Substituting a template and rendering it with a report agree on every registry and in every
state: in the text or the error, in the lookups and their order, and in the state they leave. If the
template has no opening, or no segment of it is a token, both make no lookup and come to the
template itself. -/
theorem substitute_agrees_render (template : String) (w : ω) :
    (r.substitute template w).1.map (Substituted.output template) =
      (r.render template w).1.map Rendering.output ∧
    (r.substitute template w).2 = (r.render template w).2 ∧
    (∀ log, (r.recorded.substitute template (log, w)).2 = (r.recorded.render template (log, w)).2 ∧
      (r.recorded.substitute template (log, w)).1 = (r.substitute template w).1 ∧
      (r.recorded.substitute template (log, w)).2.2 = (r.substitute template w).2) ∧
    ((r.substitute template w).1 = .ok .unchanged ↔ Template.scan template = []) ∧
    (¬ Template.opening <:+: template.toList ∨
        (∀ s ∈ Template.segments template, s.token? = none) →
      Template.segments template = (if template = "" then [] else [.literal template]) ∧
      ∀ log, r.recorded.substitute template (log, w) = (.ok .unchanged, log, w) ∧
        ∃ ρ, r.recorded.render template (log, w) = (.ok ρ, log, w) ∧
          ρ.output = template ∧ ρ.report = []) := by
  obtain ⟨hresult, hstate⟩ := r.substitute_agrees template w
  refine ⟨hresult, hstate, ?_, ?_, ?_⟩
  · intro log
    exact ⟨(r.recorded.substitute_agrees template (log, w)).2, r.substitute_recorded template log w⟩
  · rw [substitute_eq]
    split
    · next hnil => exact iff_of_true rfl hnil
    · next hne =>
        refine iff_of_false ?_ hne
        cases (r.render template w).1 with
        | error stop => exact nofun
        | ok ρ => exact nofun
  · intro hfast
    have hnil : Template.scan template = [] := by
      rcases hfast with hopening | hsegments
      · exact Template.scan_of_not_opening hopening
      · rw [← Template.holdsToken_iff, Template.holdsToken, List.any_eq_false]
        intro s hs
        rw [hsegments s hs]
        exact Bool.false_ne_true
    refine ⟨Template.segments_of_scan_nil hnil, ?_⟩
    intro log
    rw [substitute_eq, if_pos hnil]
    exact ⟨rfl, r.recorded.render_of_scan_nil hnil (log, w)⟩

end Registry
end Placeholder
