import Placeholder.Proofs.Substitution.Pure
import Placeholder.Proofs.Template.Gathered

/-!
# Substituting an output again

If nothing in the literals of a template and in the inserted texts can be the start of a token, the
only tokens of the output are those that were left as written (`Places.stable`, `scan_output`). So a
pure registry that renders the output meets these tokens and no others (`Pure.render_of_places`), and
if it is the same registry, it leaves them as they are once more: `render_again`.
-/
namespace Placeholder

open Text (cut?)

namespace Piece

/-- What a scan finds in the place of a piece: a token only where one was left as written. -/
def again : Piece → Segment
  | literal text => .literal text
  | token t .verbatim _ => .token t
  | token _ .resolved text => .literal text
  | token _ .defaulted text => .literal text

/-- The token that was left as written. -/
def left? : Piece → Option Token
  | token t .verbatim _ => some t
  | _ => none

theorem token?_again (p : Piece) : p.again.token? = p.left? := by
  cases p with
  | literal text => rfl
  | token t outcome text => cases outcome <;> rfl

/-- The text that a source or a fallback has put there, and not the template. -/
def inserted? : Piece → Option String
  | literal _ => none
  | token _ .verbatim _ => none
  | token _ .resolved text => some text
  | token _ .defaulted text => some text

end Piece

/-- The tokens that were left as written, in order. -/
def Rendering.left (ρ : Rendering) : List Token := ρ.pieces.filterMap Piece.left?

theorem Rendering.filter_report (ρ : Rendering) :
    ρ.report.filter (fun e => e.2.2 = .verbatim) = ρ.left.map fun t => (t.kind, t.name, .verbatim) := by
  rw [report, left, List.filter_filterMap, List.map_filterMap]
  congr 1
  funext p
  cases p with
  | literal text => rfl
  | token t outcome text => cases outcome <;> rfl

namespace Registry

variable {ω : Type} {r : Registry ω} {s : Segment} {p : Piece}

theorem Places.segment_eq (h : r.Places s p) : p.segment = s := by
  cases h with
  | literal text => rfl
  | token ht =>
      cases becomes_of_resolve ht with
      | resolved value => rfl
      | defaulted htail => rfl
      | verbatim hreq => rfl

theorem Places.chars_again (h : r.Places s p) : p.again.chars = p.text.toList := by
  cases h with
  | literal text => rfl
  | token ht =>
      cases becomes_of_resolve ht with
      | resolved value => rfl
      | defaulted htail => rfl
      | verbatim hreq => exact (Token.toList_written _).symm

theorem Places.stable (h : r.Places s p) (hs : s.Stable)
    (hinserted : ∀ text ∈ p.inserted?, '$' ∉ text.toList) : p.again.Stable := by
  cases h with
  | literal text => exact hs
  | @token t _ _ _ ht =>
      cases becomes_of_resolve ht with
      | resolved value =>
          exact .literal (Template.inert_of_notMem (hinserted value rfl))
      | @defaulted text htail =>
          exact .literal (Template.inert_of_notMem (hinserted text rfl))
      | verbatim hreq => exact hs

theorem exists_places_of_mem {segments : List Segment} {pieces : List Piece}
    (h : List.Forall₂ r.Places segments pieces) (hp : p ∈ pieces) :
    ∃ s ∈ segments, r.Places s p := by
  induction h with
  | nil => cases hp
  | @cons s piece segments pieces hpiece _ ih =>
      cases hp with
      | head => exact ⟨s, List.mem_cons_self, hpiece⟩
      | tail _ hmem =>
          obtain ⟨s', hs', hplaces⟩ := ih hmem
          exact ⟨s', List.mem_cons_of_mem s hs', hplaces⟩

/-! ## Neighbouring literals -/

theorem places_flush (r : Registry ω) (pending : List Char) :
    ∃ pieces, List.Forall₂ r.Places (Segment.flush pending) pieces ∧
      (Rendering.mk pieces).output = String.ofList pending.reverse ∧
      (Rendering.mk pieces).report = [] := by
  cases pending with
  | nil => exact ⟨[], .nil, rfl, rfl⟩
  | cons c pending =>
      refine ⟨[.literal _], .cons (.literal _) .nil, ?_, rfl⟩
      simp [Rendering.output, Piece.text]

theorem output_cons (p : Piece) (pieces : List Piece) :
    (Rendering.mk (p :: pieces)).output = p.text ++ (Rendering.mk pieces).output := by
  simp [Rendering.output, String.join_cons]

theorem report_cons (p : Piece) (pieces : List Piece) :
    (Rendering.mk (p :: pieces)).report = p.entry?.toList ++ (Rendering.mk pieces).report := by
  cases p <;> rfl

/-- That neighbouring literals are one changes nothing of the output or the report. -/
theorem places_gather {segments : List Segment} {pieces : List Piece}
    (h : List.Forall₂ r.Places segments pieces) (pending : List Char) :
    ∃ gathered, List.Forall₂ r.Places (Template.gather pending segments) gathered ∧
      (Rendering.mk gathered).output =
        String.ofList pending.reverse ++ (Rendering.mk pieces).output ∧
      (Rendering.mk gathered).report = (Rendering.mk pieces).report := by
  induction h generalizing pending with
  | nil =>
      obtain ⟨gathered, hplaces, houtput, hreport⟩ := r.places_flush pending
      refine ⟨gathered, hplaces, ?_, hreport⟩
      rw [houtput]
      exact String.append_empty.symm
  | @cons s piece segments pieces hpiece _ ih =>
      cases hpiece with
      | literal text =>
          obtain ⟨gathered, hplaces, houtput, hreport⟩ := ih (text.toList.reverse ++ pending)
          refine ⟨gathered, hplaces, ?_, hreport⟩
          rw [houtput, output_cons, List.reverse_append, List.reverse_reverse, String.ofList_append,
            String.ofList_toList, String.append_assoc]
          rfl
      | token ht =>
          obtain ⟨before, hbefore, hbout, hbreport⟩ := r.places_flush pending
          obtain ⟨after, hafter, haout, hareport⟩ := ih []
          refine ⟨before ++ piece :: after, List.rel_append hbefore (.cons (.token ht) hafter), ?_, ?_⟩
          · have happend := Rendering.output_append ⟨before⟩ ⟨piece :: after⟩
            rw [hbout, output_cons, haout, List.reverse_nil, String.ofList_nil,
              String.empty_append] at happend
            rw [output_cons]
            exact happend
          · have happend := Rendering.report_append ⟨before⟩ ⟨piece :: after⟩
            rw [hbreport, report_cons, hareport] at happend
            rw [report_cons]
            exact happend

/-- A text put together from segments is rendered as they are. -/
theorem Pure.render_of_places (hr : r.Pure) {template : String} {found : List Segment}
    (htemplate : template.toList = found.flatMap Segment.chars) (hstable : ∀ s ∈ found, s.Stable)
    {pieces : List Piece} (h : List.Forall₂ r.Places found pieces) (w : ω) :
    ∃ σ, r.render template w = (.ok σ, w) ∧ σ.output = (Rendering.mk pieces).output ∧
      σ.report = (Rendering.mk pieces).report := by
  obtain ⟨gathered, hplaces, houtput, hreport⟩ := places_gather h []
  rw [List.reverse_nil, String.ofList_nil, String.empty_append] at houtput
  refine ⟨⟨gathered⟩, ?_, houtput, hreport⟩
  rw [render_eq, Template.segments_written htemplate hstable,
    hr.renderSegments_of_places hplaces w]
  rfl

/-! ## Outputs -/

theorem segments_of_places {segments : List Segment} {pieces : List Piece}
    (h : List.Forall₂ r.Places segments pieces) : pieces.map Piece.segment = segments := by
  induction h with
  | nil => rfl
  | cons hp _ ih => rw [List.map_cons, hp.segment_eq, ih]

theorem toList_output {segments : List Segment} {pieces : List Piece}
    (h : List.Forall₂ r.Places segments pieces) :
    (Rendering.mk pieces).output.toList = (pieces.map Piece.again).flatMap Segment.chars := by
  induction h with
  | nil => rfl
  | cons hp _ ih =>
      rw [output_cons, String.toList_append, ih, List.map_cons, List.flatMap_cons, hp.chars_again]

section Output

variable {template : String} {ρ : Rendering} {w w' : ω}
  (h : r.render template w = (.ok ρ, w'))

include h

theorem places_of_render : List.Forall₂ r.Places (Template.segments template) ρ.pieces := by
  rw [render_eq] at h
  obtain ⟨pieces, hpieces, rfl⟩ := eq_ok_of_map h
  exact places_of_renderSegments hpieces

variable (hliterals : ∀ text, .literal text ∈ Template.segments template →
    Template.Inert text.toList)
  (hinserted : ∀ p ∈ ρ.pieces, ∀ text ∈ p.inserted?, '$' ∉ text.toList)

include hliterals hinserted

theorem stable_again : ∀ s ∈ ρ.pieces.map Piece.again, s.Stable := by
  intro s hs
  obtain ⟨p, hp, rfl⟩ := List.mem_map.mp hs
  obtain ⟨s, hmem, hplaces⟩ := exists_places_of_mem (places_of_render h) hp
  exact hplaces.stable (Template.stable_of_mem_segments hliterals hmem) (hinserted p hp)

/-- The tokens of the output are those that were left as written. -/
theorem scan_output : (Template.scan ρ.output).map Template.Placed.token = ρ.left := by
  have hchars := toList_output (places_of_render h)
  rw [Template.scan_written hchars (stable_again h hliterals hinserted),
    List.filterMap_map, Rendering.left]
  congr 1
  funext p
  exact p.token?_again

end Output

end Registry

namespace Piece

/-- The piece that comes of a piece once it has been written: the text as it stands, or the token
that was left. -/
def kept : Piece → Piece
  | token t .verbatim text => .token t .verbatim text
  | token _ .resolved text => .literal text
  | token _ .defaulted text => .literal text
  | literal text => .literal text

theorem text_kept (p : Piece) : p.kept.text = p.text := by
  cases p with
  | literal text => rfl
  | token t outcome text => cases outcome <;> rfl

theorem entry?_kept (p : Piece) :
    p.kept.entry? = p.left?.map fun t => (t.kind, t.name, .verbatim) := by
  cases p with
  | literal text => rfl
  | token t outcome text => cases outcome <;> rfl

end Piece

theorem Rendering.output_kept (ρ : Rendering) :
    (Rendering.mk (ρ.pieces.map Piece.kept)).output = ρ.output := by
  rw [output, output, List.map_map]
  congr 2
  funext p
  exact p.text_kept

theorem Rendering.report_kept (ρ : Rendering) : (Rendering.mk (ρ.pieces.map Piece.kept)).report =
    ρ.left.map fun t => (t.kind, t.name, .verbatim) := by
  rw [report, left, List.filterMap_map, List.map_filterMap]
  congr 1
  funext p
  exact p.entry?_kept

namespace Registry

variable {ω : Type} {r : Registry ω}

theorem Places.kept {s : Segment} {p : Piece} (h : r.Places s p) : r.Places p.again p.kept := by
  cases h with
  | literal text => exact .literal text
  | token ht =>
      cases becomes_of_resolve ht with
      | resolved value => exact .literal value
      | defaulted htail => exact .literal _
      | verbatim hreq => exact .token ht

theorem places_kept {segments : List Segment} {pieces : List Piece}
    (h : List.Forall₂ r.Places segments pieces) :
    List.Forall₂ r.Places (pieces.map Piece.again) (pieces.map Piece.kept) := by
  induction h with
  | nil => exact .nil
  | cons hp _ ih => exact .cons hp.kept ih

/-- Substitution is idempotent where nothing but a token can start one: no literal of the template
has an opening in it or a dollar sign at its end, and no inserted text has a dollar sign. The pieces
of a successful run stand for the segments of the template; the tokens of its output are those that
were left as written, in order; the text of a token, there as in the template, is the token written;
and the same pure registry renders the output as it is and reports each of them as left again. -/
theorem render_again (hr : r.Pure) {template : String} {ρ : Rendering} {w w' : ω}
    (h : r.render template w = (.ok ρ, w'))
    (hliterals : ∀ text, .literal text ∈ Template.segments template →
      Template.Inert text.toList)
    (hinserted : ∀ p ∈ ρ.pieces, ∀ text ∈ p.inserted?, '$' ∉ text.toList) :
    ρ.pieces.map Piece.segment = Template.segments template ∧
    ρ.report.filter (fun e => e.2.2 = .verbatim) =
      ρ.left.map (fun t => (t.kind, t.name, .verbatim)) ∧
    (Template.scan ρ.output).map Template.Placed.token = ρ.left ∧
    (∀ text, ∀ q ∈ Template.scan text,
      cut? text q.start.byte q.stopByte = some q.token.written) ∧
    ∀ v, ∃ σ, r.render ρ.output v = (.ok σ, v) ∧ σ.output = ρ.output ∧
      σ.report = ρ.left.map (fun t => (t.kind, t.name, .verbatim)) := by
  have hplaces := places_of_render h
  refine ⟨segments_of_places hplaces, ρ.filter_report, scan_output h hliterals hinserted, ?_, ?_⟩
  · intro text q hq
    exact (Template.place_of_mem_scan hq).2.2
  · intro v
    obtain ⟨σ, hσ, houtput, hreport⟩ := hr.render_of_places (toList_output hplaces)
      (stable_again h hliterals hinserted) (places_kept hplaces) v
    exact ⟨σ, hσ, houtput.trans ρ.output_kept, hreport.trans ρ.report_kept⟩

theorem pure_answering (value : String) : (answering value).Pure := by
  intro kind source hs name
  cases kind with
  | vars =>
      cases hs
      exact ⟨.ok (some value), fun _ => rfl⟩
  | secrets => cases hs
  | kv =>
      cases hs
      exact ⟨.error (.timeout 5), fun _ => rfl⟩
  | env =>
      cases hs
      exact ⟨.ok none, fun _ => rfl⟩

/-- A literal has a dollar sign in it, and one of the two tokens that are left has an opening in its
name. -/
theorem render_again_answering :
    let text := "a${vars:A} $\x7benv:E $\x7b\x7d${kv:K:d}${secrets:S:x}$ b"
    let out := "a1 $\x7benv:E $\x7b\x7dd${secrets:S:x}$ b"
    (answering "1").Pure ∧ (answering "1").outcome text 0 = .ok out ∧
      (Template.scan out).map Template.Placed.token =
        [⟨.env, "E $\x7b", .plain⟩, ⟨.secrets, "S", .fallback "x"⟩] ∧
      ∃ σ, (answering "1").render out 7 = (.ok σ, 7) ∧ σ.output = out ∧
        σ.report = [(.env, "E $\x7b", .verbatim), (.secrets, "S", .verbatim)] := by
  intro text out
  have hrun : (answering "1").render text 0 = (.ok ⟨[.literal "a",
      .token ⟨.vars, "A", .plain⟩ .resolved "1", .literal " ",
      .token ⟨.env, "E $\x7b", .plain⟩ .verbatim "$\x7benv:E $\x7b\x7d",
      .token ⟨.kv, "K", .fallback "d"⟩ .defaulted "d",
      .token ⟨.secrets, "S", .fallback "x"⟩ .verbatim "${secrets:S:x}", .literal "$ b"]⟩, 0) := by
    decide +kernel
  have hliterals : ∀ s, .literal s ∈ Template.segments text → Template.Inert s.toList := by
    intro s hs
    rw [← segments_of_places (places_of_render hrun)] at hs
    have hcases : s = "a" ∨ s = " " ∨ s = "$ b" := by simpa [Piece.segment] using hs
    rcases hcases with rfl | rfl | rfl <;> decide
  have hpure := pure_answering "1"
  obtain ⟨-, -, hscan, -, hagain⟩ := render_again hpure hrun hliterals (by decide)
  exact ⟨hpure, by decide +kernel, hscan, hagain 7⟩

end Registry
end Placeholder
