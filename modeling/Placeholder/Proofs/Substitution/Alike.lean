import Mathlib.Data.List.Forall2
import Placeholder.Proofs.Substitution.Policy

/-!
# What values cannot change

Two registries are alike when they have sources for the same kinds and these answer alike: both with
a value, both without one, or both by the same failure. What rendering does is then the same with
both, and the results differ in nothing but the inserted values (`Registry.Alike.render`). The
sources may keep a state, as long as states that belong together stay so.
-/
namespace Placeholder

/-- Pairs of values that may stand for each other, by kind and name. -/
abbrev Pairing := Kind → String → String → String → Prop

/-- Answers of the same shape, with values that are related. -/
inductive Answer.Alike (values : String → String → Prop) : Answer → Answer → Prop
  | present {v v'} (hv : values v v') : Alike values (.ok (some v)) (.ok (some v'))
  | absent : Alike values (.ok none) (.ok none)
  | failed (f : Failure) : Alike values (.error f) (.error f)

theorem Answer.alike_refl (x : Answer) : Answer.Alike Eq x x := by
  rcases x with f | (_ | value)
  · exact .failed f
  · exact .absent
  · exact .present rfl

/-- Two runs that stop for the same cause, or come to results that are related. -/
inductive Stop.Alike {α β : Type} (related : α → β → Prop) : Except Stop α → Except Stop β → Prop
  | stopped (stop : Stop) : Alike related (.error stop) (.error stop)
  | done {a b} (h : related a b) : Alike related (.ok a) (.ok b)

theorem Answer.Alike.eq {x x' : Answer} (h : Answer.Alike Eq x x') : x = x' := by
  cases h with
  | present hv => rw [hv]
  | absent => rfl
  | failed f => rfl

namespace Piece

/-- The segment of the template in whose place the piece stands. -/
def segment : Piece → Segment
  | literal text => .literal text
  | token t _ _ => .token t

/-- The same piece, but for the value of a token that was resolved. -/
inductive Alike (values : Pairing) : Piece → Piece → Prop
  | literal (text : String) : Alike values (.literal text) (.literal text)
  | resolved {t v v'} (hv : values t.kind t.name v v') :
      Alike values (.token t .resolved v) (.token t .resolved v')
  | unresolved {t outcome text} (ho : outcome ≠ .resolved) :
      Alike values (.token t outcome text) (.token t outcome text)

/-- Pieces that are alike, in the place of this segment. -/
def AlikeFor (values : Pairing) (s : Segment) (p p' : Piece) : Prop :=
  p.segment = s ∧ Alike values p p'

variable {values : Pairing} {p p' : Piece}

theorem Alike.entry?_eq (h : Alike values p p') : p'.entry? = p.entry? := by
  cases h <;> rfl

theorem Alike.eq (h : Alike (fun _ _ => Eq) p p') : p' = p := by
  cases h with
  | literal text => rfl
  | resolved hv => rw [hv]
  | unresolved ho => rfl

end Piece

namespace Rendering

/-- The template as rendered by two runs: segment by segment, with pieces that are alike. -/
structure Alike (values : Pairing) (segments : List Segment) (pieces pieces' : List Piece) :
    Prop where
  segments : pieces.map Piece.segment = segments
  pieces : List.Forall₂ (Piece.Alike values) pieces pieces'

variable {values : Pairing} {segments : List Segment} {pieces pieces' : List Piece}

theorem Alike.nil : Alike values [] [] [] := ⟨rfl, .nil⟩

theorem Alike.cons {s : Segment} {p p' : Piece} (hp : p.AlikeFor values s p')
    (h : Alike values segments pieces pieces') :
    Alike values (s :: segments) (p :: pieces) (p' :: pieces') :=
  ⟨congrArg₂ List.cons hp.1 h.segments, .cons hp.2 h.pieces⟩

theorem Alike.report_eq (h : Alike values segments pieces pieces') :
    (Rendering.mk pieces').report = (Rendering.mk pieces).report := by
  have hpieces := h.pieces
  unfold report
  clear h
  induction hpieces with
  | nil => rfl
  | cons hp _ ih => simp only [List.filterMap_cons, hp.entry?_eq, ih]

theorem Alike.eq (h : Alike (fun _ _ => Eq) segments pieces pieces') : pieces' = pieces := by
  have hpieces := h.pieces
  clear h
  induction hpieces with
  | nil => rfl
  | cons hp _ ih => rw [hp.eq, ih]

end Rendering

namespace Token

variable {values : Pairing} {t : Token}

theorem alike_withoutValue (values : Pairing) (t : Token) :
    Stop.Alike (Piece.AlikeFor values (.token t)) t.withoutValue t.withoutValue := by
  unfold withoutValue
  cases t.tail with
  | plain => exact .done ⟨rfl, .unresolved (by decide)⟩
  | required => exact .stopped _
  | fallback text => exact .done ⟨rfl, .unresolved (by decide)⟩

theorem alike_withoutSource (values : Pairing) (t : Token) :
    Stop.Alike (Piece.AlikeFor values (.token t)) t.withoutSource t.withoutSource := by
  unfold withoutSource
  split
  · exact .stopped _
  · exact .done ⟨rfl, .unresolved (by decide)⟩

theorem alike_withAnswer {x x' : Answer} (h : Answer.Alike (values t.kind t.name) x x') :
    Stop.Alike (Piece.AlikeFor values (.token t)) (t.withAnswer x) (t.withAnswer x') := by
  cases h with
  | present hv => exact .done ⟨rfl, .resolved hv⟩
  | absent => exact t.alike_withoutValue values
  | failed f =>
      cases f with
      | crash c => exact .stopped _
      | error e =>
          rw [withAnswer]
          split
          · exact .stopped _
          · exact t.alike_withoutValue values

end Token

namespace Registry

variable {ω ω' : Type}

/-- Sources for the same kinds that answer alike in states that belong together, and leave states
that belong together. -/
structure Alike (values : Pairing) (states : ω → ω' → Prop) (r : Registry ω) (r' : Registry ω') :
    Prop where
  kinds : ∀ kind, r.has kind = r'.has kind
  answers : ∀ kind s s', r.source? kind = some s → r'.source? kind = some s' →
    ∀ name w w', states w w' →
      Answer.Alike (values kind name) (s.ask name w).1 (s'.ask name w').1 ∧
        states (s.ask name w).2 (s'.ask name w').2

variable {values : Pairing} {states : ω → ω' → Prop} {r : Registry ω} {r' : Registry ω'}
  {w : ω} {w' : ω'}

theorem Alike.sources (h : Alike values states r r') (kind : Kind) :
    (r.source? kind = none ∧ r'.source? kind = none) ∨
      ∃ s s', r.source? kind = some s ∧ r'.source? kind = some s' := by
  have hkind := h.kinds kind
  unfold has at hkind
  cases hs : r.source? kind with
  | none =>
      rw [hs] at hkind
      exact .inl ⟨rfl, Option.not_isSome_iff_eq_none.mp (by simp [← hkind])⟩
  | some s =>
      rw [hs] at hkind
      obtain ⟨s', hs'⟩ := Option.isSome_iff_exists.mp hkind.symm
      exact .inr ⟨s, s', rfl, hs'⟩

/-! ## Rendering -/

theorem Alike.resolve (h : Alike values states r r') (t : Token) (hw : states w w') :
    Stop.Alike (Piece.AlikeFor values (.token t)) (r.resolve t w).1 (r'.resolve t w').1 ∧
      states (r.resolve t w).2 (r'.resolve t w').2 := by
  unfold Registry.resolve
  rcases h.sources t.kind with ⟨hs, hs'⟩ | ⟨s, s', hs, hs'⟩
  · simp only [hs, hs']
    exact ⟨t.alike_withoutSource values, hw⟩
  · obtain ⟨hx, hnext⟩ := h.answers t.kind s s' hs hs' t.name w w' hw
    simp only [hs, hs']
    exact ⟨Token.alike_withAnswer hx, hnext⟩

theorem Alike.renderSegments (h : Alike values states r r') (segments : List Segment)
    (hw : states w w') :
    Stop.Alike (Rendering.Alike values segments) (r.renderSegments segments w).1
        (r'.renderSegments segments w').1 ∧
      states (r.renderSegments segments w).2 (r'.renderSegments segments w').2 := by
  induction segments generalizing w w' with
  | nil => exact ⟨.done .nil, hw⟩
  | cons segment rest ih =>
      cases segment with
      | literal text =>
          obtain ⟨hrest, hnext⟩ := ih hw
          simp only [Registry.renderSegments]
          generalize r.renderSegments rest w = run, r'.renderSegments rest w' = run' at hrest hnext
          obtain ⟨x, w₁⟩ := run
          obtain ⟨x', w₁'⟩ := run'
          cases hrest with
          | stopped stop => exact ⟨.stopped stop, hnext⟩
          | done hpieces => exact ⟨.done (.cons ⟨rfl, .literal text⟩ hpieces), hnext⟩
      | token t =>
          obtain ⟨hpiece, hw₁⟩ := h.resolve t hw
          simp only [Registry.renderSegments]
          generalize r.resolve t w = run, r'.resolve t w' = run' at hpiece hw₁
          obtain ⟨x, w₁⟩ := run
          obtain ⟨x', w₁'⟩ := run'
          cases hpiece with
          | stopped stop => exact ⟨.stopped stop, hw₁⟩
          | done hp =>
              obtain ⟨hrest, hnext⟩ := ih hw₁
              dsimp only
              generalize r.renderSegments rest w₁ = run, r'.renderSegments rest w₁' = run'
                at hrest hnext
              obtain ⟨y, w₂⟩ := run
              obtain ⟨y', w₂'⟩ := run'
              cases hrest with
              | stopped stop => exact ⟨.stopped stop, hnext⟩
              | done hpieces => exact ⟨.done (.cons hp hpieces), hnext⟩

/-- Rendering goes the same way with registries that are alike. -/
theorem Alike.render (h : Alike values states r r') (template : String) (hw : states w w') :
    Stop.Alike (fun ρ ρ' => Rendering.Alike values (Template.segments template) ρ.pieces ρ'.pieces)
        (r.render template w).1 (r'.render template w').1 ∧
      states (r.render template w).2 (r'.render template w').2 := by
  obtain ⟨hrun, hnext⟩ := h.renderSegments (Template.segments template) hw
  unfold Registry.render
  generalize r.renderSegments (Template.segments template) w = run,
    r'.renderSegments (Template.segments template) w' = run' at hrun hnext
  obtain ⟨x, w₁⟩ := run
  obtain ⟨x', w₁'⟩ := run'
  cases hrun with
  | stopped stop => exact ⟨.stopped stop, hnext⟩
  | done hpieces => exact ⟨.done hpieces, hnext⟩

/-- Registries that answer the same render the same. -/
theorem Alike.render_eq (h : Alike (fun _ _ => Eq) states r r') (template : String)
    (hw : states w w') : (r'.render template w').1 = (r.render template w).1 ∧
      states (r.render template w).2 (r'.render template w').2 := by
  obtain ⟨hrun, hnext⟩ := h.render template hw
  refine ⟨?_, hnext⟩
  generalize (r.render template w).1 = x, (r'.render template w').1 = x' at hrun
  cases hrun with
  | stopped stop => rfl
  | done hρ => exact congrArg (fun pieces => Except.ok (Rendering.mk pieces)) hρ.eq

theorem Alike.lookup_eq (h : Alike (fun _ _ => Eq) states r r') (kind : Kind) (name : String)
    (hw : states w w') : (r'.lookup kind name w').1 = (r.lookup kind name w).1 ∧
      states (r.lookup kind name w).2 (r'.lookup kind name w').2 := by
  unfold Registry.lookup
  rcases h.sources kind with ⟨hs, hs'⟩ | ⟨s, s', hs, hs'⟩
  · rw [hs, hs']
    exact ⟨rfl, hw⟩
  · obtain ⟨hx, hnext⟩ := h.answers kind s s' hs hs' name w w' hw
    rw [hs, hs']
    exact ⟨hx.eq.symm, hnext⟩

/-! ## Lookups -/

theorem has_recorded (r : Registry ω) (kind : Kind) : r.recorded.has kind = r.has kind := by
  simp [has, recorded]

/-- With a log beside the states, registries that are alike note the same lookups. -/
theorem Alike.recorded (h : Alike values states r r') :
    Alike values (fun s s' => s.1 = s'.1 ∧ states s.2 s'.2) r.recorded r'.recorded := by
  constructor
  · intro kind
    rw [has_recorded, has_recorded]
    exact h.kinds kind
  · intro kind s s' hs hs' name ⟨log, w⟩ ⟨log', w'⟩ ⟨hlog, hw⟩
    obtain ⟨source, hsource, rfl⟩ := Option.map_eq_some_iff.mp hs
    obtain ⟨source', hsource', rfl⟩ := Option.map_eq_some_iff.mp hs'
    obtain ⟨hx, hnext⟩ := h.answers kind source source' hsource hsource' name w w' hw
    refine ⟨hx, ?_, hnext⟩
    exact congrArg (· ++ [(kind, name)]) hlog

theorem alike_recorded (r : Registry ω) :
    Alike (fun _ _ => Eq) (fun w s => s.2 = w) r r.recorded := by
  constructor
  · intro kind
    exact (has_recorded r kind).symm
  · intro kind s s' hs hs' name w ⟨log, w'⟩ hw
    obtain ⟨source, hsource, rfl⟩ := Option.map_eq_some_iff.mp hs'
    obtain rfl : s = source := Option.some.inj (hs.symm.trans hsource)
    cases hw
    exact ⟨Answer.alike_refl _, rfl⟩

/-- Noting the lookups changes nothing of a rendering. -/
theorem render_recorded (r : Registry ω) (template : String) (log : List (Kind × String)) (w : ω) :
    (r.recorded.render template (log, w)).1 = (r.render template w).1 ∧
      (r.recorded.render template (log, w)).2.2 = (r.render template w).2 := by
  have hstates : (log, w).2 = w := rfl
  exact r.alike_recorded.render_eq template hstates

end Registry

/-! ## Pure sources -/

/-- The source has this answer for a name whenever it is asked, and giving it changes nothing. -/
def Source.Gives {ω : Type} (s : Source ω) (name : String) (x : Answer) : Prop :=
  ∀ w, s.ask name w = (x, w)

namespace Registry

variable {ω ω' : Type} {r : Registry ω} {r' : Registry ω'}

def Gives (r : Registry ω) (kind : Kind) (name : String) (x : Answer) : Prop :=
  ∃ s, r.source? kind = some s ∧ s.Gives name x

/-- Pure sources for the same kinds, which for every name have a value both, or none both, or the
same failure. -/
structure SameShape (r : Registry ω) (r' : Registry ω') : Prop where
  kinds : ∀ kind, r.has kind = r'.has kind
  answers : ∀ kind s s', r.source? kind = some s → r'.source? kind = some s' →
    ∀ name, ∃ x x', s.Gives name x ∧ s'.Gives name x' ∧ Answer.Alike (fun _ _ => True) x x'

/-- The values that two registries have for a name. -/
def respective (r : Registry ω) (r' : Registry ω') : Pairing := fun kind name v v' =>
  r.Gives kind name (.ok (some v)) ∧ r'.Gives kind name (.ok (some v'))

theorem SameShape.alike (h : r.SameShape r') (w : ω) (w' : ω') :
    r.Alike (r.respective r') (fun s s' => s = w ∧ s' = w') r' := by
  constructor
  · exact h.kinds
  · intro kind s s' hs hs' name _ _ ⟨hw, hw'⟩
    subst hw hw'
    obtain ⟨x, x', hx, hx', hshape⟩ := h.answers kind s s' hs hs' name
    rw [hx, hx']
    refine ⟨?_, rfl, rfl⟩
    cases hshape with
    | present => exact .present ⟨⟨s, hs, hx⟩, ⟨s', hs', hx'⟩⟩
    | absent => exact .absent
    | failed f => exact .failed f

/-- Values decide nothing. Two registries of pure sources that have the same shape make the same
lookups for a template, and stop it by the same error or not at all. In the end both have rendered
the segments of the template one by one and report the same; only in the place of a resolved token
each has put the value of its own. -/
theorem render_of_sameShape (h : r.SameShape r') (template : String) (w : ω) (w' : ω') :
    (r.recorded.render template ([], w)).2.1 = (r'.recorded.render template ([], w')).2.1 ∧
      ((∃ stop, r.render template w = (.error stop, w) ∧
          r'.render template w' = (.error stop, w')) ∨
        ∃ ρ ρ', r.render template w = (.ok ρ, w) ∧ r'.render template w' = (.ok ρ', w') ∧
          ρ'.report = ρ.report ∧ ρ.pieces.map Piece.segment = Template.segments template ∧
          List.Forall₂ (Piece.Alike (r.respective r')) ρ.pieces ρ'.pieces) := by
  have halike := h.alike w w'
  constructor
  · let begun : List (Kind × String) × ω := ([], w)
    let begun' : List (Kind × String) × ω' := ([], w')
    have hstart : begun.1 = begun'.1 ∧ begun.2 = w ∧ begun'.2 = w' := ⟨rfl, rfl, rfl⟩
    obtain ⟨-, hlog, -⟩ := halike.recorded.render template hstart
    exact hlog
  · obtain ⟨hrun, hw, hw'⟩ := halike.render template ⟨rfl, rfl⟩
    generalize r.render template w = run, r'.render template w' = run' at hrun hw hw'
    obtain ⟨x, w₁⟩ := run
    obtain ⟨x', w₁'⟩ := run'
    subst hw hw'
    cases hrun with
    | stopped stop => exact .inl ⟨stop, rfl, rfl⟩
    | done hρ => exact .inr ⟨_, _, rfl, rfl, hρ.report_eq, hρ.segments, hρ.pieces⟩

/-- Sources of which one has this value for every name, one has none and one always fails. -/
def answering (value : String) : Registry Nat :=
  ⟨fun
    | .vars => some ⟨"echo", fun _ n => (.ok (some value), n)⟩
    | .env => some ⟨"bare", fun _ n => (.ok none, n)⟩
    | .kv => some ⟨"down", fun _ n => (.error (.error (.timeout 5)), n)⟩
    | .secrets => none⟩

theorem sameShape_answering (v v' : String) : (answering v).SameShape (answering v') := by
  constructor
  · intro kind
    cases kind <;> rfl
  · intro kind s s' hs hs' name
    cases kind with
    | vars =>
        cases hs
        cases hs'
        exact ⟨_, _, fun _ => rfl, fun _ => rfl, .present trivial⟩
    | secrets => cases hs
    | kv =>
        cases hs
        cases hs'
        exact ⟨_, _, fun _ => rfl, fun _ => rfl, .failed _⟩
    | env =>
        cases hs
        cases hs'
        exact ⟨_, _, fun _ => rfl, fun _ => rfl, .absent⟩

/-- A value that has the look of a token is inserted like any other. -/
theorem render_of_sameShape_answering :
    let text := "a${vars:A}${kv:K:d}${env:E}"
    (answering "1").SameShape (answering "${vars:B}") ∧
      ∃ ρ ρ', (answering "1").render text 0 = (.ok ρ, 0) ∧
        (answering "${vars:B}").render text 0 = (.ok ρ', 0) ∧ ρ'.report = ρ.report ∧
        ρ.output = "a1d${env:E}" ∧ ρ'.output = "a${vars:B}d${env:E}" := by
  intro text
  have hshape := sameShape_answering "1" "${vars:B}"
  have hout : ((answering "1").render text 0).1.toOption.map Rendering.output =
      some "a1d${env:E}" := by decide +kernel
  have hout' : ((answering "${vars:B}").render text 0).1.toOption.map Rendering.output =
      some "a${vars:B}d${env:E}" := by decide +kernel
  refine ⟨hshape, ?_⟩
  rcases (render_of_sameShape hshape text 0 0).2 with
    ⟨stop, hstop, _⟩ | ⟨ρ, ρ', hρ, hρ', hreport, _⟩
  · rw [hstop] at hout
    cases hout
  · rw [hρ] at hout
    rw [hρ'] at hout'
    exact ⟨ρ, ρ', hρ, hρ', hreport, Option.some.inj hout, Option.some.inj hout'⟩

end Registry
end Placeholder
