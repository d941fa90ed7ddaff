import Placeholder.Proofs.Substitution.Again

/-!
# Registries that know more

A registry that has every value of another one, and maybe more, resolves every token that the other
resolves, to the same text. So it renders whatever the other renders, and a template that stops it
has stopped the other at the same token or at an earlier one: `render_of_keptBy`. `StopsAt` says at
which token a run stops.
-/
namespace Placeholder

theorem map_eq_error_iff {α β : Type} {f : α → β} {x : Except Stop α} {stop : Stop} :
    x.map f = .error stop ↔ x = .error stop := by
  cases x <;> simp [Except.map]

/-- The second piece stands where the first does, and is the same unless the first is a token
without a value. -/
inductive Piece.RetainedBy : Piece → Piece → Prop
  | literal (text : String) : RetainedBy (.literal text) (.literal text)
  | resolved (t : Token) (value : String) :
      RetainedBy (.token t .resolved value) (.token t .resolved value)
  | unresolved {t outcome outcome' text text'} (ho : outcome ≠ .resolved) :
      RetainedBy (.token t outcome text) (.token t outcome' text')

theorem Token.withoutValue_ne_resolved (t : Token) (value : String) :
    t.withoutValue ≠ .ok (.token t .resolved value) := by
  intro h
  unfold withoutValue at h
  split at h
  · cases h
  · cases h
  · cases h

theorem Token.Becomes.exists_eq {t : Token} {piece : Piece} (h : t.Becomes piece) :
    ∃ outcome text, piece = .token t outcome text := by
  cases h with
  | resolved value => exact ⟨_, _, rfl⟩
  | defaulted ht => exact ⟨_, _, rfl⟩
  | verbatim ht => exact ⟨_, _, rfl⟩

namespace Registry

variable {ω ω' : Type} {r : Registry ω} {r' : Registry ω'} {t : Token} {w w₁ : ω}

/-! ## Where a run stops -/

/-- The token of this number, counted from zero, is the first that stops the run. -/
inductive StopsAt (r : Registry ω) : List Token → ω → Nat → Stop → Prop
  | here {t ts w stop w'} (h : r.resolve t w = (.error stop, w')) : StopsAt r (t :: ts) w 0 stop
  | later {t ts w piece w' i stop} (h : r.resolve t w = (.ok piece, w'))
      (hs : StopsAt r ts w' i stop) : StopsAt r (t :: ts) w (i + 1) stop

theorem StopsAt.unique {ts : List Token} {i j : Nat} {stop stop' : Stop}
    (h : r.StopsAt ts w i stop) (h' : r.StopsAt ts w j stop') : i = j ∧ stop = stop' := by
  induction h generalizing j with
  | here ht =>
      cases h' with
      | here ht' =>
          cases ht.symm.trans ht'
          exact ⟨rfl, rfl⟩
      | later ht' _ => cases ht.symm.trans ht'
  | later ht _ ih =>
      cases h' with
      | here ht' => cases ht.symm.trans ht'
      | later ht' hs' =>
          cases ht.symm.trans ht'
          obtain ⟨rfl, rfl⟩ := ih hs'
          exact ⟨rfl, rfl⟩

theorem renderSegments_error_iff {segments : List Segment} {stop : Stop} :
    (r.renderSegments segments w).1 = .error stop ↔
      ∃ i, r.StopsAt (segments.filterMap Segment.token?) w i stop := by
  induction segments generalizing w with
  | nil =>
      constructor
      · intro h
        cases h
      · rintro ⟨i, h⟩
        cases h
  | cons s rest ih =>
      cases s with
      | literal text =>
          rw [renderSegments_literal, Prod.map_fst, map_eq_error_iff]
          exact ih
      | token t =>
          change _ ↔ ∃ i, r.StopsAt (t :: rest.filterMap Segment.token?) w i stop
          rcases ht : r.resolve t w with ⟨x, w₁⟩
          cases x with
          | error stop₁ =>
              rw [renderSegments_of_resolve_error ht]
              constructor
              · intro h
                cases h
                exact ⟨0, .here ht⟩
              · rintro ⟨i, h⟩
                rw [(h.unique (.here ht)).2]
          | ok piece =>
              rw [renderSegments_of_resolve ht, Prod.map_fst, map_eq_error_iff, ih]
              constructor
              · rintro ⟨i, h⟩
                exact ⟨i + 1, .later ht h⟩
              · rintro ⟨i, h⟩
                cases h with
                | here ht' => cases ht.symm.trans ht'
                | later ht' hs =>
                    cases ht.symm.trans ht'
                    exact ⟨_, hs⟩

theorem render_error_iff {template : String} {stop : Stop} :
    (r.render template w).1 = .error stop ↔
      ∃ i, r.StopsAt ((Template.scan template).map Template.Placed.token) w i stop := by
  rw [Template.map_token_scan, ← renderSegments_error_iff, render_eq, Prod.map_fst,
    map_eq_error_iff]

/-! ## Values that are kept -/

/-- Every value of the registry is one of the other registry too. -/
def KeptBy (r : Registry ω) (r' : Registry ω') : Prop :=
  ∀ kind name value, r.Gives kind name (.ok (some value)) → r'.Gives kind name (.ok (some value))

/-- A source for a kind that had none takes no value away. -/
theorem keptBy_register {kind : Kind} (h : r.source? kind = none) (source : Source ω) :
    r.KeptBy (r.register kind source) := by
  rintro k name value ⟨s, hs, hvalue⟩
  have hne : k ≠ kind := by
    rintro rfl
    cases h.symm.trans hs
  exact ⟨s, by rw [source?_register, if_neg hne, hs], hvalue⟩

theorem Gives.resolve_eq {value : String} (h : r.Gives t.kind t.name (.ok (some value))) (w : ω) :
    r.resolve t w = (.ok (.token t .resolved value), w) := by
  obtain ⟨s, hs, hvalue⟩ := h
  simp only [resolve, hs, hvalue w, Token.withAnswer]

theorem Pure.gives_of_resolve (hr : r.Pure) {value : String}
    (h : r.resolve t w = (.ok (.token t .resolved value), w₁)) :
    r.Gives t.kind t.name (.ok (some value)) := by
  unfold resolve at h
  cases hs : r.source? t.kind with
  | none =>
      simp only [hs, Token.withoutSource] at h
      split at h
      · cases h
      · cases h
  | some source =>
      obtain ⟨answer, hanswer⟩ := hr t.kind source hs t.name
      simp only [hs, hanswer w] at h
      have hwith := congrArg Prod.fst h
      rcases answer with e | (_ | found)
      · simp only [Except.mapError, Token.withAnswer] at hwith
        split at hwith
        · cases hwith
        · exact absurd hwith (t.withoutValue_ne_resolved value)
      · exact absurd hwith (t.withoutValue_ne_resolved value)
      · cases hwith
        exact ⟨source, hs, hanswer⟩

section Kept

variable (hr : r.Pure) (hr' : r'.Pure) (h : r.KeptBy r')

include hr hr' h

/-- What one registry makes of a token, the other retains. -/
theorem Pure.resolve_retained {piece : Piece} (hp : r.resolve t w = (.ok piece, w₁)) (w' : ω') :
    ∃ piece', r'.resolve t w' = (.ok piece', w') ∧ piece.RetainedBy piece' := by
  -- A token without a value under the first registry is not required, and so renders under any.
  have optional {outcome : Outcome} {text : String} (ho : outcome ≠ .resolved)
      (ht : t.required = false) : ∃ piece', r'.resolve t w' = (.ok piece', w') ∧
        (Piece.token t outcome text).RetainedBy piece' := by
    obtain ⟨piece', hpiece'⟩ := hr'.resolve_of_not_required ht w'
    obtain ⟨outcome', text', rfl⟩ := (becomes_of_resolve hpiece').exists_eq
    exact ⟨_, hpiece', .unresolved ho⟩
  cases becomes_of_resolve hp with
  | resolved value =>
      have hvalue := h _ _ _ (hr.gives_of_resolve hp)
      exact ⟨_, hvalue.resolve_eq w', .resolved t value⟩
  | defaulted ht => exact optional (by decide) (by rw [Token.required, ht])
  | verbatim ht => exact optional (by decide) ht

theorem Pure.places_retained {segments : List Segment} {pieces : List Piece}
    (hp : List.Forall₂ r.Places segments pieces) (w' : ω') :
    ∃ pieces', List.Forall₂ r'.Places segments pieces' ∧
      List.Forall₂ Piece.RetainedBy pieces pieces' := by
  induction hp with
  | nil => exact ⟨[], .nil, .nil⟩
  | cons hpiece _ ih =>
      obtain ⟨pieces', hplaces, hretained⟩ := ih
      cases hpiece with
      | literal text => exact ⟨_, .cons (.literal text) hplaces, .cons (.literal text) hretained⟩
      | token ht =>
          obtain ⟨piece', hpiece', hsame⟩ := hr.resolve_retained hr' h ht w'
          exact ⟨_, .cons (.token hpiece') hplaces, .cons hsame hretained⟩

/-- Where the registry that knows more stops, the other has stopped by then. -/
theorem StopsAt.of_keptBy {ts : List Token} {w' : ω'} {j : Nat} {stop' : Stop}
    (hs : r'.StopsAt ts w' j stop') (w : ω) : ∃ i stop, r.StopsAt ts w i stop ∧ i ≤ j := by
  induction hs generalizing w with
  | @here t ts w' _ _ ht' =>
      rcases ht : r.resolve t w with ⟨x, w₁⟩
      cases x with
      | error stop => exact ⟨0, stop, .here ht, Nat.le_refl 0⟩
      | ok piece =>
          obtain ⟨piece', hpiece', -⟩ := hr.resolve_retained hr' h ht w'
          cases ht'.symm.trans hpiece'
  | @later t ts _ _ _ j _ _ _ ih =>
      rcases ht : r.resolve t w with ⟨x, w₁⟩
      cases x with
      | error stop => exact ⟨0, stop, .here ht, Nat.zero_le (j + 1)⟩
      | ok piece =>
          obtain ⟨i, stop, hi, hle⟩ := ih w₁
          exact ⟨i + 1, stop, .later ht hi, Nat.succ_le_succ hle⟩

end Kept

/-- Knowing more breaks nothing. Let a pure registry have every value of another one; for all other
names it may have values, have none or fail, and it may have sources for other kinds. Then it renders
every template that the other renders, segment by segment, and resolves each token that the other
has resolved to the same text. A template that stops it stops the other as well, at the same token
or at an earlier one. -/
theorem render_of_keptBy (hr : r.Pure) (hr' : r'.Pure) (h : r.KeptBy r') (template : String)
    (w : ω) (w' : ω') :
    let tokens := (Template.scan template).map Template.Placed.token
    (∀ ρ, (r.render template w).1 = .ok ρ → ∃ ρ', (r'.render template w').1 = .ok ρ' ∧
      r.outcome template w = .ok ρ.output ∧ r'.outcome template w' = .ok ρ'.output ∧
      ρ.pieces.map Piece.segment = Template.segments template ∧
      List.Forall₂ Piece.RetainedBy ρ.pieces ρ'.pieces) ∧
    (∀ stop', (r'.render template w').1 = .error stop' → ∃ i j stop,
      (r.render template w).1 = .error stop ∧ r.StopsAt tokens w i stop ∧
        r'.StopsAt tokens w' j stop' ∧ i ≤ j) := by
  intro tokens
  constructor
  · intro ρ hρ
    have hplaces := places_of_render (Prod.ext hρ rfl : r.render template w = (.ok ρ, _))
    obtain ⟨pieces', hplaces', hretained⟩ := hr.places_retained hr' h hplaces w'
    have hρ' : (r'.render template w').1 = .ok ⟨pieces'⟩ := by
      rw [render_eq, hr'.renderSegments_of_places hplaces' w']
      rfl
    refine ⟨⟨pieces'⟩, hρ', ?_, ?_, segments_of_places hplaces, hretained⟩
    · rw [outcome_eq, hρ]
      rfl
    · rw [outcome_eq, hρ']
      rfl
  · intro stop' hstop'
    obtain ⟨j, hj⟩ := render_error_iff.mp hstop'
    obtain ⟨i, stop, hi, hle⟩ := hj.of_keptBy hr hr' h w
    exact ⟨i, j, stop, render_error_iff.mpr ⟨i, hi⟩, hi, hj, hle⟩

/-- With secrets besides, one token more is resolved, and the next template stops at another one. -/
theorem render_of_keptBy_secrets :
    let more := (answering "1").register .secrets (.ofTable (.ofPairs [("S", "s")]))
    let text := "${vars:A}${secrets:S:d}"
    let demanding := (Template.scan "${vars:A}${secrets:S!}${env:E!}").map Template.Placed.token
    (answering "1").KeptBy more ∧
      (answering "1").render text 0 = (.ok ⟨[.token ⟨.vars, "A", .plain⟩ .resolved "1",
        .token ⟨.secrets, "S", .fallback "d"⟩ .verbatim "${secrets:S:d}"]⟩, 0) ∧
      more.outcome text 0 = .ok "1s" ∧
      ∃ i j, (answering "1").StopsAt demanding 0 i (.error (.unconfigured .secrets "S")) ∧
        more.StopsAt demanding 0 j (.error (.missing .env "E")) ∧ i ≤ j := by
  intro more text demanding
  have hpure := pure_answering "1"
  have hmore : more.Pure := hpure.register (Source.pure_ofTable _) _
  have hkept : (answering "1").KeptBy more := keptBy_register rfl _
  have hrun : (answering "1").render text 0 = (.ok ⟨[.token ⟨.vars, "A", .plain⟩ .resolved "1",
      .token ⟨.secrets, "S", .fallback "d"⟩ .verbatim "${secrets:S:d}"]⟩, 0) := by
    decide +kernel
  have hstop : ((answering "1").render "${vars:A}${secrets:S!}${env:E!}" 0).1 =
      .error (.error (.unconfigured .secrets "S")) := by
    decide +kernel
  have hstop' : (more.render "${vars:A}${secrets:S!}${env:E!}" 0).1 =
      .error (.error (.missing .env "E")) := by
    decide +kernel
  obtain ⟨ρ', hρ', -, houtcome, -⟩ :=
    (render_of_keptBy hpure hmore hkept text 0 0).1 _ (congrArg Prod.fst hrun)
  obtain ⟨i, j, stop, hsame, hi, hj, hle⟩ := (render_of_keptBy hpure hmore hkept _ 0 0).2 _ hstop'
  cases hstop.symm.trans hsame
  have houtput : (more.render text 0).1.toOption.map Rendering.output = some "1s" := by
    decide +kernel
  rw [hρ'] at houtput
  rw [Option.some.inj houtput] at houtcome
  exact ⟨hkept, hrun, houtcome, i, j, hi, hj, hle⟩

end Registry
end Placeholder
