import Placeholder.Proofs.Substitution.Boundaries
import Placeholder.Proofs.Substitution.FastPath

/-!
# Registries of pure sources

A pure source is a function of the name. A registry of such sources leaves the state alone and
renders every segment by itself. So pieces that it places one by one are what it renders
(`Pure.renderSegments_of_places`), and two such registries can be compared token by token
(`Pure.renderSegments_alike`).
-/
namespace Placeholder

namespace Token

variable {t : Token} {piece : Piece}

/-- The pieces that may stand in the place of a token. -/
inductive Becomes (t : Token) : Piece → Prop
  | resolved (value : String) : Becomes t (.token t .resolved value)
  | defaulted {text : String} (ht : t.tail = .fallback text) :
      Becomes t (.token t .defaulted text)
  | verbatim (ht : t.required = false) : Becomes t (.token t .verbatim t.written)

theorem becomes_of_withoutValue (h : t.withoutValue = .ok piece) : t.Becomes piece := by
  unfold withoutValue at h
  split at h
  · cases h
  · next text ht =>
      cases h
      exact .defaulted ht
  · next ht =>
      cases h
      exact .verbatim (by rw [required, ht])

theorem becomes_of_withoutSource (h : t.withoutSource = .ok piece) : t.Becomes piece := by
  unfold withoutSource at h
  split at h
  · cases h
  · next ht =>
      cases h
      exact .verbatim (Bool.eq_false_iff.mpr ht)

theorem becomes_of_withAnswer {x : Answer} (h : t.withAnswer x = .ok piece) : t.Becomes piece := by
  rcases x with (e | c) | (_ | value)
  · rw [withAnswer] at h
    split at h
    · cases h
    · exact becomes_of_withoutValue h
  · cases h
  · exact becomes_of_withoutValue h
  · cases h
    exact .resolved value

theorem withoutValue_of_not_required (h : t.required = false) :
    ∃ piece, t.withoutValue = .ok piece := by
  unfold withoutValue
  cases ht : t.tail with
  | plain => exact ⟨_, rfl⟩
  | required =>
      rw [required, ht] at h
      cases h
  | fallback text => exact ⟨_, rfl⟩

end Token

/-- The source has one answer for each name, a value or none or an error, and gives it without a
change to the state. -/
def Source.Pure {ω : Type} (source : Source ω) : Prop :=
  ∀ name, ∃ answer : Except FetchError (Option String),
    source.Gives name (answer.mapError Failure.error)

theorem Source.pure_ofTable {ω : Type} (t : Table) : (ofTable t : Source ω).Pure := by
  intro name
  exact ⟨.ok (t.get? name), fun _ => rfl⟩

namespace Registry

variable {ω : Type} {r : Registry ω} {t : Token} {w w' : ω}

theorem becomes_of_resolve {piece : Piece} (h : r.resolve t w = (.ok piece, w')) :
    t.Becomes piece := by
  unfold resolve at h
  split at h
  · exact Token.becomes_of_withoutSource (congrArg Prod.fst h)
  · exact Token.becomes_of_withAnswer (congrArg Prod.fst h)

theorem resolve_of_unregistered (hs : r.source? t.kind = none) (ht : t.required = false) (w : ω) :
    r.resolve t w = (.ok (.token t .verbatim t.written), w) := by
  simp [resolve, hs, Token.withoutSource, ht]

theorem resolve_congr {r' : Registry ω} (h : r'.source? t.kind = r.source? t.kind) (w : ω) :
    r'.resolve t w = r.resolve t w := by
  rw [resolve, resolve, h]

/-- All sources are pure. -/
def Pure (r : Registry ω) : Prop := ∀ kind source, r.source? kind = some source → source.Pure

theorem pure_empty : (empty : Registry ω).Pure := by
  intro kind source hs
  cases hs

namespace Pure

variable (hr : r.Pure)

include hr

theorem register {source : Source ω} (hsource : source.Pure) (kind : Kind) :
    (r.register kind source).Pure := by
  intro k found hfound
  rw [source?_register] at hfound
  split at hfound
  · cases hfound
    exact hsource
  · exact hr k found hfound

/-- What becomes of a token is the same in every state, and the state stays the same. -/
theorem exists_resolve (t : Token) : ∃ x, ∀ w, r.resolve t w = (x, w) := by
  unfold resolve
  cases hs : r.source? t.kind with
  | none => exact ⟨t.withoutSource, fun w => rfl⟩
  | some source =>
      obtain ⟨answer, hanswer⟩ := hr t.kind source hs t.name
      refine ⟨t.withAnswer (answer.mapError Failure.error), ?_⟩
      intro w
      simp only [hanswer w]

theorem resolve_eq {x : Except Stop Piece} (h : r.resolve t w = (x, w')) (v : ω) :
    r.resolve t v = (x, v) := by
  obtain ⟨y, hy⟩ := hr.exists_resolve t
  rw [hy] at h ⊢
  cases h
  rfl

theorem resolve_of_not_required (ht : t.required = false) (w : ω) :
    ∃ piece, r.resolve t w = (.ok piece, w) := by
  cases hs : r.source? t.kind with
  | none => exact ⟨_, resolve_of_unregistered hs ht w⟩
  | some source =>
      obtain ⟨answer, hanswer⟩ := hr t.kind source hs t.name
      obtain ⟨piece, hpiece⟩ := Token.withoutValue_of_not_required ht
      simp only [resolve, hs, hanswer w]
      rcases answer with e | (_ | value)
      · refine ⟨piece, ?_⟩
        simp only [Except.mapError, Token.withAnswer, ht, hpiece, Bool.false_eq_true, if_false]
      · exact ⟨piece, by rw [← hpiece]; rfl⟩
      · exact ⟨_, rfl⟩

end Pure

/-- The text that substitution makes of a template, or what stops it. -/
def outcome (r : Registry ω) (template : String) (w : ω) : Except Stop String :=
  (r.substitute template w).1.map (Substituted.output template)

theorem outcome_eq (r : Registry ω) (template : String) (w : ω) :
    r.outcome template w = (r.render template w).1.map Rendering.output :=
  (r.substitute_agrees template w).1

/-! ## Segment by segment -/

/-- The registry puts the piece in the place of the segment. -/
inductive Places (r : Registry ω) : Segment → Piece → Prop
  | literal (text : String) : Places r (.literal text) (.literal text)
  | token {t piece w w'} (h : r.resolve t w = (.ok piece, w')) : Places r (.token t) piece

theorem places_of_renderSegments {segments : List Segment} {pieces : List Piece}
    (h : r.renderSegments segments w = (.ok pieces, w')) :
    List.Forall₂ r.Places segments pieces := by
  induction segments generalizing w pieces with
  | nil =>
      cases h
      exact .nil
  | cons s rest ih =>
      cases s with
      | literal text =>
          rw [renderSegments_literal] at h
          obtain ⟨more, hmore, rfl⟩ := eq_ok_of_map h
          exact .cons (.literal text) (ih hmore)
      | token t =>
          rcases ht : r.resolve t w with ⟨x, w₁⟩
          cases x with
          | error stop =>
              rw [renderSegments_of_resolve_error ht] at h
              cases h
          | ok piece =>
              rw [renderSegments_of_resolve ht] at h
              obtain ⟨more, hmore, rfl⟩ := eq_ok_of_map h
              exact .cons (.token ht) (ih hmore)

namespace Pure

theorem renderSegments_of_places (hr : r.Pure) {segments : List Segment} {pieces : List Piece}
    (h : List.Forall₂ r.Places segments pieces) (w : ω) :
    r.renderSegments segments w = (.ok pieces, w) := by
  induction h with
  | nil => rfl
  | cons hpiece _ ih =>
      cases hpiece with
      | literal text =>
          rw [renderSegments_literal, ih]
          rfl
      | token ht =>
          rw [renderSegments_of_resolve (hr.resolve_eq ht w), ih]
          rfl

/-- Where two pure registries make of every token related pieces, or stop at it for the same cause,
they do so with all segments. -/
theorem renderSegments_alike (hr : r.Pure) {ω' : Type} {r' : Registry ω'} (hr' : r'.Pure)
    {related : Piece → Piece → Prop} {segments : List Segment} (v : ω')
    (hliteral : ∀ text, related (.literal text) (.literal text))
    (htoken : ∀ t, .token t ∈ segments →
      Stop.Alike related (r.resolve t w).1 (r'.resolve t v).1) :
    Stop.Alike (List.Forall₂ related) (r.renderSegments segments w).1
      (r'.renderSegments segments v).1 := by
  induction segments with
  | nil => exact .done .nil
  | cons s rest ih =>
      have hrest := ih fun t ht => htoken t (List.mem_cons_of_mem s ht)
      have hcons {piece piece' : Piece} (hpiece : related piece piece') :
          Stop.Alike (List.Forall₂ related)
            ((r.renderSegments rest w).1.map (piece :: ·))
            ((r'.renderSegments rest v).1.map (piece' :: ·)) := by
        generalize (r.renderSegments rest w).1 = x, (r'.renderSegments rest v).1 = x' at hrest
        cases hrest with
        | stopped stop => exact .stopped stop
        | done hmore => exact .done (.cons hpiece hmore)
      cases s with
      | literal text =>
          rw [renderSegments_literal, renderSegments_literal]
          exact hcons (hliteral text)
      | token t =>
          obtain ⟨x, hx⟩ := hr.exists_resolve t
          obtain ⟨x', hx'⟩ := hr'.exists_resolve t
          have hpiece := htoken t List.mem_cons_self
          rw [hx, hx'] at hpiece
          cases hpiece with
          | stopped stop =>
              rw [renderSegments_of_resolve_error (hx w), renderSegments_of_resolve_error (hx' v)]
              exact .stopped stop
          | done hp =>
              rw [renderSegments_of_resolve (hx w), renderSegments_of_resolve (hx' v)]
              exact hcons hp

theorem render_alike (hr : r.Pure) {ω' : Type} {r' : Registry ω'} (hr' : r'.Pure)
    {related : Piece → Piece → Prop} {template : String} (v : ω')
    (hliteral : ∀ text, related (.literal text) (.literal text))
    (htoken : ∀ t, .token t ∈ Template.segments template →
      Stop.Alike related (r.resolve t w).1 (r'.resolve t v).1) :
    Stop.Alike (fun ρ ρ' => List.Forall₂ related ρ.pieces ρ'.pieces) (r.render template w).1
      (r'.render template v).1 := by
  have hruns := hr.renderSegments_alike hr' v hliteral htoken
  rw [render_eq, render_eq, Prod.map_fst, Prod.map_fst]
  generalize (r.renderSegments (Template.segments template) w).1 = x,
    (r'.renderSegments (Template.segments template) v).1 = x' at hruns
  cases hruns with
  | stopped stop => exact .stopped stop
  | done hpieces => exact .done hpieces

end Pure

end Registry
end Placeholder
