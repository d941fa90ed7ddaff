import Placeholder.Substitution

/-!
# The policy of a substitution

`Decides` has one rule for each situation in which a token can be, and `Settles` applies the rules
from token to token, each in the state that the one before has left. Rendering a template is such
a run, up to the first token for which the policy has an error: see `Settles.render_eq`,
`Decides.render_eq` and `settles_or_stops`. `Registry.recorded` is the registry that notes every
lookup. What a crashing source does is no matter of the policy.
-/
namespace Placeholder

/-- How a token is rendered: the outcome, and the text in its place. -/
abbrev Decision := Outcome × String

/-- An answer that gives a token no value. -/
inductive Valueless : Answer → Prop
  | absent : Valueless (.ok none)
  | failed (e : FetchError) : Valueless (.error (.error e))

namespace Registry

variable {ω : Type} {r : Registry ω}

/-- No source crashes, whatever it is asked for and in whatever state. -/
def Steady (r : Registry ω) : Prop :=
  ∀ kind source, r.source? kind = some source → ∀ name w c, (source.ask name w).1 ≠ .error (.crash c)

/-- The policy for one token: what is decided about it, and in which state that leaves. -/
inductive Decides (r : Registry ω) (t : Token) (w : ω) : Except RunError Decision → ω → Prop
  | unconfigured (hs : r.source? t.kind = none) (ht : t.tail = .required) :
      Decides r t w (.error (.unconfigured t.kind t.name)) w
  | unregistered (hs : r.source? t.kind = none) (ht : t.tail ≠ .required) :
      Decides r t w (.ok (.verbatim, t.written)) w
  | present {source value w'} (hs : r.source? t.kind = some source)
      (ha : source.ask t.name w = (.ok (some value), w')) :
      Decides r t w (.ok (.resolved, value)) w'
  | missing {source w'} (hs : r.source? t.kind = some source)
      (ha : source.ask t.name w = (.ok none, w')) (ht : t.tail = .required) :
      Decides r t w (.error (.missing t.kind t.name)) w'
  | fetch {source e w'} (hs : r.source? t.kind = some source)
      (ha : source.ask t.name w = (.error (.error e), w')) (ht : t.tail = .required) :
      Decides r t w (.error (.fetch t.kind t.name e)) w'
  | fallback {source answer text w'} (hs : r.source? t.kind = some source)
      (ha : source.ask t.name w = (answer, w')) (hv : Valueless answer)
      (ht : t.tail = .fallback text) :
      Decides r t w (.ok (.defaulted, text)) w'
  | plain {source answer w'} (hs : r.source? t.kind = some source)
      (ha : source.ask t.name w = (answer, w')) (hv : Valueless answer) (ht : t.tail = .plain) :
      Decides r t w (.ok (.verbatim, t.written)) w'

theorem Decides.required {t : Token} {w w' : ω} {e : RunError} (h : r.Decides t w (.error e) w') :
    t.required = true := by
  cases h <;> simp_all [Token.required]

theorem decides_total (hr : r.Steady) (t : Token) (w : ω) : ∃ d w', r.Decides t w d w' := by
  cases hs : r.source? t.kind with
  | none =>
      by_cases ht : t.tail = .required
      · exact ⟨_, _, .unconfigured hs ht⟩
      · exact ⟨_, _, .unregistered hs ht⟩
  | some source =>
      obtain ⟨answer, w', ha⟩ : ∃ answer w', source.ask t.name w = (answer, w') := ⟨_, _, rfl⟩
      have valueless (hv : Valueless answer) (hn : t.tail ≠ .required) :
          ∃ d w', r.Decides t w d w' := by
        cases ht : t.tail with
        | plain => exact ⟨_, _, .plain hs ha hv ht⟩
        | required => exact absurd ht hn
        | fallback text => exact ⟨_, _, .fallback hs ha hv ht⟩
      match answer with
      | .ok (some value) => exact ⟨_, _, .present hs ha⟩
      | .ok none =>
          by_cases ht : t.tail = .required
          · exact ⟨_, _, .missing hs ha ht⟩
          · exact valueless .absent ht
      | .error (.error e) =>
          by_cases ht : t.tail = .required
          · exact ⟨_, _, .fetch hs ha ht⟩
          · exact valueless (.failed e) ht
      | .error (.crash c) => exact absurd (congrArg Prod.fst ha) (hr _ _ hs _ _ c)

end Registry

/-- A decision, as rendering a token gives it. -/
def Token.rendered (t : Token) : Except RunError Decision → Except Stop Piece
  | .ok (outcome, text) => .ok (.token t outcome text)
  | .error e => .error (.error e)

theorem Token.withAnswer_of_valueless {t : Token} {answer : Answer} (hv : Valueless answer)
    (h : t.tail ≠ .required) : t.withAnswer answer = t.withoutValue := by
  cases hv with
  | absent => rfl
  | failed e =>
      have hr : t.required = false := by cases ht : t.tail <;> simp_all [required]
      simp [withAnswer, hr]

namespace Registry

variable {ω : Type} {r : Registry ω}

theorem Decides.resolve_eq {t : Token} {w w' : ω} {d : Except RunError Decision}
    (h : r.Decides t w d w') : r.resolve t w = (t.rendered d, w') := by
  cases h with
  | unconfigured hs ht => simp [resolve, hs, Token.withoutSource, Token.required, ht, Token.rendered]
  | unregistered hs ht =>
      have hr : t.required = false := by cases hk : t.tail <;> simp_all [Token.required]
      simp [resolve, hs, Token.withoutSource, hr, Token.rendered]
  | present hs ha => simp [resolve, hs, ha, Token.withAnswer, Token.rendered]
  | missing hs ha ht =>
      simp [resolve, hs, ha, Token.withAnswer, Token.withoutValue, ht, Token.rendered]
  | fetch hs ha ht =>
      simp [resolve, hs, ha, Token.withAnswer, Token.required, ht, Token.rendered]
  | fallback hs ha hv ht =>
      have hn : t.tail ≠ .required := by simp [ht]
      simp [resolve, hs, ha, Token.withAnswer_of_valueless hv hn, Token.withoutValue, ht,
        Token.rendered]
  | plain hs ha hv ht =>
      have hn : t.tail ≠ .required := by simp [ht]
      simp [resolve, hs, ha, Token.withAnswer_of_valueless hv hn, Token.withoutValue, ht,
        Token.rendered]

/-! ## Runs of the policy -/

/-- The tokens are decided in order, each in the state that the one before has left, and none of
them ends the run. -/
inductive Settles (r : Registry ω) : List Token → ω → List Decision → ω → Prop
  | nil (w : ω) : Settles r [] w [] w
  | cons {t ts w w₁ w₂ d ds} (hd : r.Decides t w (.ok d) w₁) (hs : Settles r ts w₁ ds w₂) :
      Settles r (t :: ts) w (d :: ds) w₂

/-- Either all tokens are settled, or there is a first one that ends the run. -/
theorem settles_or_stops (hr : r.Steady) (ts : List Token) (w : ω) :
    (∃ ds w', r.Settles ts w ds w') ∨
      ∃ before t after ds w₁ e w', ts = before ++ t :: after ∧ r.Settles before w ds w₁ ∧
        r.Decides t w₁ (.error e) w' := by
  induction ts generalizing w with
  | nil => exact .inl ⟨[], w, .nil w⟩
  | cons t ts ih =>
      obtain ⟨d, w₁, hd⟩ := decides_total hr t w
      cases d with
      | error e => exact .inr ⟨[], t, ts, [], w, e, w₁, rfl, .nil w, hd⟩
      | ok d =>
          rcases ih w₁ with ⟨ds, w', hs⟩ | ⟨before, u, after, ds, w₂, e, w', hts, hs, he⟩
          · exact .inl ⟨d :: ds, w', .cons hd hs⟩
          · exact .inr ⟨t :: before, u, after, d :: ds, w₂, e, w', by rw [hts, List.cons_append],
              .cons hd hs, he⟩

end Registry

namespace Segment

/-- Segments with a decision in the place of each token. -/
def filled : List Segment → List Decision → List Piece
  | literal text :: rest, ds => .literal text :: filled rest ds
  | token t :: rest, (outcome, text) :: ds => .token t outcome text :: filled rest ds
  | _, _ => []

/-- The texts of segments, with a given text in the place of each token. -/
def texts : List Segment → List String → List String
  | literal text :: rest, values => text :: texts rest values
  | token _ :: rest, value :: values => value :: texts rest values
  | _, _ => []

theorem map_text_filled (segments : List Segment) (ds : List Decision) :
    (filled segments ds).map Piece.text = texts segments (ds.map Prod.snd) := by
  induction segments generalizing ds with
  | nil => simp [filled, texts]
  | cons s rest ih =>
      cases s with
      | literal text => simp [filled, texts, Piece.text, ih]
      | token t =>
          cases ds with
          | nil => simp [filled, texts]
          | cons d ds => simp [filled, texts, Piece.text, ih]

theorem filterMap_entry?_filled (segments : List Segment) (ds : List Decision) :
    (filled segments ds).filterMap Piece.entry? =
      ((segments.filterMap token?).zip ds).map fun (t, d) => (t.kind, t.name, d.1) := by
  induction segments generalizing ds with
  | nil => simp [filled]
  | cons s rest ih =>
      cases s with
      | literal text => simp [filled, List.filterMap_cons, Piece.entry?, token?, ih]
      | token t =>
          cases ds with
          | nil => simp [filled]
          | cons d ds => simp [filled, Piece.entry?, token?, ih]

end Segment

namespace Registry

variable {ω : Type} {r : Registry ω}

theorem Settles.renderSegments_eq {segments : List Segment} {w w' : ω} {ds : List Decision}
    (h : r.Settles (segments.filterMap Segment.token?) w ds w') :
    r.renderSegments segments w = (.ok (Segment.filled segments ds), w') := by
  induction segments generalizing w ds with
  | nil =>
      cases h
      rfl
  | cons s rest ih =>
      cases s with
      | literal text => simp [renderSegments, Segment.filled, ih h]
      | token t =>
          simp only [Segment.token?, List.filterMap_cons] at h
          cases h with
          | cons hd hs => simp [renderSegments, hd.resolve_eq, Token.rendered, Segment.filled, ih hs]

/-- The first error of the policy ends the rendering, and nothing after it is looked at. -/
theorem Decides.renderSegments_eq {segments : List Segment} {before after : List Token} {t : Token}
    {w w₁ w' : ω} {ds : List Decision} {e : RunError} (hd : r.Decides t w₁ (.error e) w')
    (hs : r.Settles before w ds w₁)
    (h : segments.filterMap Segment.token? = before ++ t :: after) :
    r.renderSegments segments w = (.error (.error e), w') := by
  induction segments generalizing before w ds with
  | nil => simp at h
  | cons s rest ih =>
      cases s with
      | literal text =>
          simp only [Segment.token?, List.filterMap_cons] at h
          simp [renderSegments, ih hs h]
      | token u =>
          simp only [Segment.token?, List.filterMap_cons] at h
          cases hs with
          | nil =>
              obtain ⟨rfl, _⟩ := List.cons.inj h
              simp [renderSegments, hd.resolve_eq, Token.rendered]
          | cons hu hs =>
              obtain ⟨rfl, hrest⟩ := List.cons.inj h
              simp [renderSegments, hu.resolve_eq, Token.rendered, ih hs hrest]

theorem Settles.render_eq {template : String} {w w' : ω} {ds : List Decision}
    (h : r.Settles ((Template.scan template).map Template.Placed.token) w ds w') :
    r.render template w = (.ok ⟨Segment.filled (Template.segments template) ds⟩, w') := by
  rw [Template.map_token_scan] at h
  simp only [render, h.renderSegments_eq]

theorem Decides.render_eq {template : String} {before after : List Token} {t : Token}
    {w w₁ w' : ω} {ds : List Decision} {e : RunError} (hd : r.Decides t w₁ (.error e) w')
    (hs : r.Settles before w ds w₁)
    (h : (Template.scan template).map Template.Placed.token = before ++ t :: after) :
    r.render template w = (.error (.error e), w') := by
  rw [Template.map_token_scan] at h
  simp only [render, hd.renderSegments_eq hs h]

/-! ## Lookups -/

/-- The lookups that tokens call for: one for each token of a kind that has a source. -/
def lookups (r : Registry ω) (ts : List Token) : List (Kind × String) :=
  (ts.filter fun t => r.has t.kind).map fun t => (t.kind, t.name)

theorem lookups_append (r : Registry ω) (ts us : List Token) :
    r.lookups (ts ++ us) = r.lookups ts ++ r.lookups us := by
  simp [lookups]

theorem lookups_of_none {t : Token} (h : r.source? t.kind = none) : r.lookups [t] = [] := by
  simp [lookups, has, h]

theorem lookups_of_some {t : Token} {source : Source ω} (h : r.source? t.kind = some source) :
    r.lookups [t] = [(t.kind, t.name)] := by
  simp [lookups, has, h]

end Registry

/-- The same source, which notes in a log what it is asked for. -/
def Source.recorded {ω : Type} (kind : Kind) (s : Source ω) : Source (List (Kind × String) × ω) :=
  ⟨s.name, fun name (log, w) =>
    let (answer, w) := s.ask name w
    (answer, log ++ [(kind, name)], w)⟩

theorem Source.ask_recorded {ω : Type} {s : Source ω} {name : String} {w w' : ω} {answer : Answer}
    (h : s.ask name w = (answer, w')) (kind : Kind) (log : List (Kind × String)) :
    (s.recorded kind).ask name (log, w) = (answer, log ++ [(kind, name)], w') := by
  simp [recorded, h]

namespace Registry

variable {ω : Type} {r : Registry ω}

/-- The registry whose sources note every lookup in one log. -/
def recorded (r : Registry ω) : Registry (List (Kind × String) × ω) :=
  ⟨fun kind => (r.source? kind).map (Source.recorded kind)⟩

theorem recorded_of_none {kind : Kind} (h : r.source? kind = none) :
    r.recorded.source? kind = none := by
  simp [recorded, h]

theorem recorded_of_some {kind : Kind} {source : Source ω} (h : r.source? kind = some source) :
    r.recorded.source? kind = some (source.recorded kind) := by
  simp [recorded, h]

theorem Decides.recorded {t : Token} {w w' : ω} {d : Except RunError Decision}
    (h : r.Decides t w d w') (log : List (Kind × String)) :
    r.recorded.Decides t (log, w) d (log ++ r.lookups [t], w') := by
  cases h with
  | unconfigured hs ht =>
      rw [lookups_of_none hs, List.append_nil]
      exact .unconfigured (recorded_of_none hs) ht
  | unregistered hs ht =>
      rw [lookups_of_none hs, List.append_nil]
      exact .unregistered (recorded_of_none hs) ht
  | present hs ha =>
      rw [lookups_of_some hs]
      exact .present (recorded_of_some hs) (Source.ask_recorded ha _ log)
  | missing hs ha ht =>
      rw [lookups_of_some hs]
      exact .missing (recorded_of_some hs) (Source.ask_recorded ha _ log) ht
  | fetch hs ha ht =>
      rw [lookups_of_some hs]
      exact .fetch (recorded_of_some hs) (Source.ask_recorded ha _ log) ht
  | fallback hs ha hv ht =>
      rw [lookups_of_some hs]
      exact .fallback (recorded_of_some hs) (Source.ask_recorded ha _ log) hv ht
  | plain hs ha hv ht =>
      rw [lookups_of_some hs]
      exact .plain (recorded_of_some hs) (Source.ask_recorded ha _ log) hv ht

theorem Settles.recorded {ts : List Token} {w w' : ω} {ds : List Decision}
    (h : r.Settles ts w ds w') (log : List (Kind × String)) :
    r.recorded.Settles ts (log, w) ds (log ++ r.lookups ts, w') := by
  induction h generalizing log with
  | nil w => simpa [lookups] using Settles.nil (r := r.recorded) (log, w)
  | @cons t ts _ _ _ _ _ hd _ ih =>
      have hl : r.lookups (t :: ts) = r.lookups [t] ++ r.lookups ts := lookups_append r [t] ts
      rw [hl, ← List.append_assoc]
      exact .cons (hd.recorded log) (ih _)

/-! ## Rendering is the policy -/

/-- Rendering a template is the policy, run over its tokens from left to right. It succeeds exactly
when all tokens are settled, and then with their decisions between the literals; it fails exactly
when there is a required token for which the policy has an error, with the error of the first one.
Either way the log holds one lookup for each token that was reached and whose kind has a source. -/
theorem render_eq_policy (hr : r.Steady) (template : String) (w : ω) :
    let tokens := (Template.scan template).map Template.Placed.token
    let segments := Template.segments template
    (∀ x log w', r.recorded.render template ([], w) = (x, log, w') → r.render template w = (x, w')) ∧
    (∀ ρ log w', r.recorded.render template ([], w) = (.ok ρ, log, w') ↔
      log = r.lookups tokens ∧ ∃ ds, r.Settles tokens w ds w' ∧
        ρ.pieces = Segment.filled segments ds ∧
        ρ.output = String.join (Segment.texts segments (ds.map Prod.snd)) ∧
        ρ.report = (tokens.zip ds).map fun (t, d) => (t.kind, t.name, d.1)) ∧
    (∀ stop log w', r.recorded.render template ([], w) = (.error stop, log, w') ↔
      ∃ before t after ds w₁ e, tokens = before ++ t :: after ∧ r.Settles before w ds w₁ ∧
        t.required = true ∧ r.Decides t w₁ (.error e) w' ∧
        stop = .error e ∧ log = r.lookups (before ++ [t])) := by
  intro tokens segments
  have hok {ds w'} (hs : r.Settles tokens w ds w') :
      r.recorded.render template ([], w) =
        (.ok ⟨Segment.filled segments ds⟩, r.lookups tokens, w') := by
    simpa using (hs.recorded []).render_eq
  have herror {before t after ds w₁ e w'} (hts : tokens = before ++ t :: after)
      (hs : r.Settles before w ds w₁) (hd : r.Decides t w₁ (.error e) w') :
      r.recorded.render template ([], w) =
        (.error (.error e), r.lookups (before ++ [t]), w') := by
    simpa [lookups_append] using (hd.recorded _).render_eq (hs.recorded []) hts
  have hreport (ds : List Decision) : (Rendering.mk (Segment.filled segments ds)).report =
      (tokens.zip ds).map fun (t, d) => (t.kind, t.name, d.1) := by
    simp only [Rendering.report, Segment.filterMap_entry?_filled, tokens, segments,
      Template.map_token_scan]
  refine ⟨?_, ?_, ?_⟩
  · intro x log w' h
    rcases settles_or_stops hr tokens w with ⟨ds, w₂, hs⟩ | ⟨_, _, _, _, _, _, _, hts, hs, hd⟩
    · rw [hok hs] at h
      cases h
      exact hs.render_eq
    · rw [herror hts hs hd] at h
      cases h
      exact hd.render_eq hs hts
  · intro ρ log w'
    constructor
    · intro h
      rcases settles_or_stops hr tokens w with ⟨ds, w₂, hs⟩ | ⟨_, _, _, _, _, _, _, hts, hs, hd⟩
      · rw [hok hs] at h
        cases h
        refine ⟨rfl, ds, hs, rfl, ?_, hreport ds⟩
        simp only [Rendering.output, Segment.map_text_filled]
      · rw [herror hts hs hd] at h
        cases h
    · rintro ⟨rfl, ds, hs, hp, _, _⟩
      rw [hok hs, ← hp]
  · intro stop log w'
    constructor
    · intro h
      rcases settles_or_stops hr tokens w with ⟨ds, w₂, hs⟩ | ⟨before, t, after, ds, w₁, e, w₂, hts, hs, hd⟩
      · rw [hok hs] at h
        cases h
      · rw [herror hts hs hd] at h
        cases h
        exact ⟨before, t, after, ds, w₁, e, hts, hs, hd.required, hd, rfl, rfl⟩
    · rintro ⟨before, t, after, ds, w₁, e, hts, hs, _, hd, rfl, rfl⟩
      exact herror hts hs hd

/-- Sources that count their lookups: one knows every name, the other always fails. -/
def counting : Registry Nat :=
  ⟨fun
    | .vars => some ⟨"echo", fun name n => (.ok (some name), n + 1)⟩
    | .kv => some ⟨"down", fun _ n => (.error (.error (.timeout 5)), n + 1)⟩
    | _ => none⟩

theorem counting_steady : counting.Steady := by
  intro kind source hs name n c
  cases kind <;> cases hs <;> simp

/-- The run ends at the fourth of five tokens, after three lookups. -/
theorem render_eq_policy_counting :
    counting.Steady ∧
      counting.recorded.render "${vars:A}-${kv:B:x} ${env:C}${kv:D!}${vars:A}" ([], 0) =
        (.error (.error (.fetch .kv "D" (.timeout 5))),
          [(.vars, "A"), (.kv, "B"), (.kv, "D")], 3) := by
  refine ⟨counting_steady, ((render_eq_policy counting_steady _ 0).2.2 _ _ _).mpr ?_⟩
  refine ⟨[⟨.vars, "A", .plain⟩, ⟨.kv, "B", .fallback "x"⟩, ⟨.env, "C", .plain⟩],
    ⟨.kv, "D", .required⟩, [⟨.vars, "A", .plain⟩],
    [(.resolved, "A"), (.defaulted, "x"), (.verbatim, "${env:C}")], 2, _,
    by decide +kernel, ?_, rfl, .fetch rfl rfl rfl, rfl, by decide⟩
  have hA : counting.Decides ⟨.vars, "A", .plain⟩ 0 (.ok (.resolved, "A")) 1 := .present rfl rfl
  have hB : counting.Decides ⟨.kv, "B", .fallback "x"⟩ 1 (.ok (.defaulted, "x")) 2 :=
    .fallback rfl rfl (.failed _) rfl
  have hC : counting.Decides ⟨.env, "C", .plain⟩ 2 (.ok (.verbatim, "${env:C}")) 2 :=
    .unregistered rfl (by simp)
  exact .cons hA (.cons hB (.cons hC (.nil 2)))

end Registry
end Placeholder
