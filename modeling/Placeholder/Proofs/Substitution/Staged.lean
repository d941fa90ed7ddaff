import Placeholder.Proofs.Substitution.Again

/-!
# Substitution in stages

Two pure registries for different kinds may be used one after the other, the second on what the first
has left. Under the conditions on which an output can be rendered again, and if the second has no
token to fill that must be filled, this comes to the same as one rendering with the sources of both:
`outcome_staged`.
-/
namespace Placeholder

namespace Registry

variable {ω : Type} {first second : Registry ω} {t : Token}

/-- The sources of both registries; where both have one, that of the first. -/
def both (first second : Registry ω) : Registry ω :=
  ⟨fun kind => (first.source? kind).or (second.source? kind)⟩

theorem source?_both_of_some {kind : Kind} {source : Source ω}
    (h : first.source? kind = some source) :
    (first.both second).source? kind = first.source? kind := by
  simp [both, h]

theorem source?_both_of_none {kind : Kind} (h : first.source? kind = none) :
    (first.both second).source? kind = second.source? kind := by
  simp [both, h]

theorem Pure.both (hfirst : first.Pure) (hsecond : second.Pure) : (first.both second).Pure := by
  intro kind source hs
  cases hkind : first.source? kind with
  | none =>
      rw [source?_both_of_none hkind] at hs
      exact hsecond kind source hs
  | some found =>
      rw [source?_both_of_some hkind] at hs
      exact hfirst kind source hs

/-- The first piece is filled by the registry, if it is a token that was left, to the text of the
second. -/
def Fills (r : Registry ω) (p p' : Piece) : Prop := ∃ q, r.Places p.again q ∧ q.text = p'.text

theorem output_of_fills {r : Registry ω} {pieces pieces' : List Piece}
    (h : List.Forall₂ r.Fills pieces pieces') :
    ∃ filled, List.Forall₂ r.Places (pieces.map Piece.again) filled ∧
      (Rendering.mk filled).output = (Rendering.mk pieces').output := by
  induction h with
  | nil => exact ⟨[], .nil, rfl⟩
  | cons hp _ ih =>
      obtain ⟨q, hq, htext⟩ := hp
      obtain ⟨filled, hfilled, houtput⟩ := ih
      refine ⟨q :: filled, .cons hq hfilled, ?_⟩
      rw [output_cons, output_cons, htext, houtput]

section Stages

variable (hfirst : first.Pure) (hsecond : second.Pure)
  (hdisjoint : ∀ kind, first.has kind = true → second.has kind = false)

include hdisjoint

theorem source?_second_of_some {kind : Kind} {source : Source ω}
    (h : first.source? kind = some source) : second.source? kind = none := by
  have hhas := hdisjoint kind (by rw [has, h]; rfl)
  exact Option.not_isSome_iff_eq_none.mp (by rw [has] at hhas; simp [hhas])

include hfirst hsecond

/-- One token in two stages: it stops both runs for the same cause, or what the first registry makes
of it is filled by the second to what both make of it together. -/
theorem resolve_staged (hrequired : second.has t.kind = true → t.required = false) (w : ω) :
    Stop.Alike second.Fills (first.resolve t w).1 ((first.both second).resolve t w).1 := by
  cases hs : first.source? t.kind with
  | some source =>
      have hnone := source?_second_of_some hdisjoint hs
      rw [resolve_congr (source?_both_of_some hs)]
      obtain ⟨x, hx⟩ := hfirst.exists_resolve t
      rw [hx w]
      cases x with
      | error stop => exact .stopped stop
      | ok p =>
          refine .done ?_
          cases becomes_of_resolve (hx w) with
          | resolved value => exact ⟨_, .literal value, rfl⟩
          | defaulted htail => exact ⟨_, .literal _, rfl⟩
          | verbatim hreq => exact ⟨_, .token (resolve_of_unregistered hnone hreq w), rfl⟩
  | none =>
      rw [resolve_congr (source?_both_of_none hs)]
      cases hreq : t.required with
      | true =>
          have hnone : second.source? t.kind = none := by
            cases hsource : second.source? t.kind with
            | none => rfl
            | some source =>
                have hnot := hrequired (by rw [has, hsource]; rfl)
                cases hreq.symm.trans hnot
          rw [resolve_congr (hs.trans hnone.symm)]
          simp only [resolve, hnone, Token.withoutSource, hreq, if_true]
          exact .stopped _
      | false =>
          obtain ⟨q, hq⟩ := hsecond.resolve_of_not_required hreq w
          rw [resolve_of_unregistered hs hreq, hq]
          exact .done ⟨q, .token hq, rfl⟩

end Stages

/-- Substituting in two stages is substituting at once. -/
theorem outcome_staged (hfirst : first.Pure) (hsecond : second.Pure)
    (hdisjoint : ∀ kind, first.has kind = true → second.has kind = false) {template : String}
    (hliterals : ∀ text, .literal text ∈ Template.segments template →
      Template.Inert text.toList)
    (hrequired : ∀ q ∈ Template.scan template, second.has q.token.kind = true →
      q.token.required = false) {w : ω}
    (hinserted : ∀ ρ w', first.render template w = (.ok ρ, w') → ∀ p ∈ ρ.pieces,
      ∀ text ∈ p.inserted?, '$' ∉ text.toList) :
    (first.outcome template w).bind (fun text => second.outcome text w) =
      (first.both second).outcome template w := by
  have htoken : ∀ t, .token t ∈ Template.segments template →
      Stop.Alike second.Fills (first.resolve t w).1 ((first.both second).resolve t w).1 := by
    intro t ht
    apply resolve_staged hfirst hsecond hdisjoint
    obtain ⟨q, hq, rfl⟩ := Template.exists_mem_scan ht
    exact hrequired q hq
  have hliteral (text : String) : second.Fills (.literal text) (.literal text) :=
    ⟨_, .literal text, rfl⟩
  have hruns := hfirst.render_alike (hfirst.both hsecond) w hliteral htoken
  rw [outcome_eq, outcome_eq]
  rcases hrender : first.render template w with ⟨x, w₁⟩
  rw [hrender] at hruns
  generalize ((first.both second).render template w).1 = y at hruns
  cases hruns with
  | stopped stop => rfl
  | @done ρ ρ' hpieces =>
      obtain ⟨filled, hfilled, houtput⟩ := output_of_fills hpieces
      have hchars := toList_output (places_of_render hrender)
      have hstable := stable_again hrender hliterals (hinserted _ _ hrender)
      obtain ⟨σ, hσ, hsame, -⟩ := hsecond.render_of_places hchars hstable hfilled w
      change second.outcome ρ.output w = .ok ρ'.output
      rw [outcome_eq, hσ, ← houtput, ← hsame]
      rfl

/-- Of the tokens that the first stage leaves, the second has a value for one. -/
theorem outcome_staged_tables :
    let first := (empty : Registry Unit).register .vars (.ofTable (.ofPairs [("A", "1")]))
    let second := (empty : Registry Unit).register .secrets (.ofTable (.ofPairs [("S", "s")]))
    let text := "a${vars:A}${secrets:S:d} ${kv:K:x}${vars:B:b}${env:E}"
    let between := "a1${secrets:S:d} ${kv:K:x}b${env:E}"
    first.outcome text () = .ok between ∧
      second.outcome between () = .ok "a1s ${kv:K:x}b${env:E}" ∧
      (first.both second).outcome text () = .ok "a1s ${kv:K:x}b${env:E}" := by
  intro first second text between
  have hrun : first.render text () = (.ok ⟨[.literal "a",
      .token ⟨.vars, "A", .plain⟩ .resolved "1",
      .token ⟨.secrets, "S", .fallback "d"⟩ .verbatim "${secrets:S:d}", .literal " ",
      .token ⟨.kv, "K", .fallback "x"⟩ .verbatim "${kv:K:x}",
      .token ⟨.vars, "B", .fallback "b"⟩ .defaulted "b",
      .token ⟨.env, "E", .plain⟩ .verbatim "${env:E}"]⟩, ()) := by
    decide +kernel
  have hbetween : first.outcome text () = .ok between := by
    rw [outcome_eq, hrun]
    decide
  have hsecond : second.outcome between () = .ok "a1s ${kv:K:x}b${env:E}" := by decide +kernel
  have hdisjoint : ∀ kind, first.has kind = true → second.has kind = false := by
    intro kind
    cases kind <;> decide
  refine ⟨hbetween, hsecond, ?_⟩
  rw [← outcome_staged (pure_empty.register (Source.pure_ofTable _) _)
    (pure_empty.register (Source.pure_ofTable _) _) hdisjoint ?_ (by decide +kernel) ?_, hbetween]
  · exact hsecond
  · intro s hs
    rw [← segments_of_places (places_of_render hrun)] at hs
    have hcases : s = "a" ∨ s = " " := by simpa [Piece.segment] using hs
    rcases hcases with rfl | rfl <;> decide
  · intro ρ w' hρ
    cases hrun.symm.trans hρ
    decide

end Registry
end Placeholder
