import Mathlib.Data.List.Infix
import Placeholder.Proofs.Template.Written

/-!
# Texts put together from segments

Literals without an opening, neither in them nor begun at their end, and tokens of the grammar may be
written one after the other in any order: a scan of the whole finds the same segments, but for
neighbouring literals, which it takes for one (`segments_written`).
-/
namespace Placeholder

namespace Template

/-- The text has no opening in it and does not end in a dollar sign, so that no token starts in it,
whatever stands behind. -/
structure Inert (cs : List Char) : Prop where
  opening : ¬ opening <:+: cs
  dollar : cs.getLast? ≠ some '$'

instance (cs : List Char) : Decidable (Inert cs) :=
  decidable_of_iff (¬ opening <:+: cs ∧ cs.getLast? ≠ some '$')
    ⟨fun h => ⟨h.1, h.2⟩, fun h => ⟨h.opening, h.dollar⟩⟩

theorem inert_of_notMem {cs : List Char} (h : '$' ∉ cs) : Inert cs := by
  constructor
  · rintro ⟨before, after, rfl⟩
    simp [Template.opening] at h
  · intro hlast
    exact h (List.mem_of_getLast? hlast)

theorem Inert.passed {cs : List Char} (h : Inert cs) (rest : List Char) : Passed cs rest := by
  intro before after he hne
  apply Option.eq_none_iff_forall_not_mem.mpr
  rintro ⟨t, left⟩ hread
  obtain ⟨more, hmore⟩ := Token.opening_of_read? hread
  rcases after with _ | ⟨c, _ | ⟨d, after⟩⟩
  · exact hne rfl
  · obtain ⟨rfl, -⟩ := List.cons.inj hmore
    apply h.dollar
    rw [he, List.getLast?_append]
    rfl
  · obtain ⟨rfl, hd⟩ := List.cons.inj hmore
    obtain ⟨rfl, -⟩ := List.cons.inj hd
    exact h.opening ⟨before, after, by simp [he, Template.opening]⟩

/-- The segments with neighbouring literals made one, behind the characters gathered so far (latest
first). -/
def gather (pending : List Char) : List Segment → List Segment
  | [] => Segment.flush pending
  | .literal text :: rest => gather (text.toList.reverse ++ pending) rest
  | .token t :: rest => Segment.flush pending ++ .token t :: gather [] rest

end Template

/-- The segment is read back as it is written. -/
inductive Segment.Stable : Segment → Prop
  | literal {text : String} (h : Template.Inert text.toList) : Stable (.literal text)
  | token {t : Token} (h : t.Writable) : Stable (.token t)

namespace Template

theorem segmentsFrom_flatMap {segments : List Segment} (h : ∀ s ∈ segments, s.Stable)
    (pending : List Char) :
    segmentsFrom pending (segments.flatMap Segment.chars) = gather pending segments := by
  induction segments generalizing pending with
  | nil =>
      rw [List.flatMap_nil, segmentsFrom]
      rfl
  | cons s segments ih =>
      have hmore := ih fun s' hs' => h s' (List.mem_cons_of_mem s hs')
      rw [List.flatMap_cons]
      cases h s List.mem_cons_self with
      | @literal text htext =>
          exact (segmentsFrom_passed (htext.passed _) pending).trans (hmore _)
      | @token t ht =>
          rw [gather, ← hmore]
          exact segmentsFrom_of_read? (ht.read?_append _) pending

/-- A scan finds again the segments that were written, with neighbouring literals made one. -/
theorem segments_written {template : String} {found : List Segment}
    (htemplate : template.toList = found.flatMap Segment.chars) (h : ∀ s ∈ found, s.Stable) :
    segments template = gather [] found := by
  rw [segments, htemplate, segmentsFrom_flatMap h]

theorem filterMap_token?_flush (pending : List Char) :
    (Segment.flush pending).filterMap Segment.token? = [] := by
  cases pending with
  | nil => rfl
  | cons c pending => rfl

theorem filterMap_token?_gather (pending : List Char) (segments : List Segment) :
    (gather pending segments).filterMap Segment.token? = segments.filterMap Segment.token? := by
  induction segments generalizing pending with
  | nil => exact filterMap_token?_flush pending
  | cons s segments ih =>
      cases s with
      | literal text => exact ih _
      | token t =>
          rw [gather, List.filterMap_append, filterMap_token?_flush, List.nil_append,
            List.filterMap_cons, List.filterMap_cons, ih]

/-- The tokens of a text are those that were written into it. -/
theorem scan_written {template : String} {found : List Segment}
    (htemplate : template.toList = found.flatMap Segment.chars) (h : ∀ s ∈ found, s.Stable) :
    (scan template).map Placed.token = found.filterMap Segment.token? := by
  rw [map_token_scan, segments_written htemplate h, filterMap_token?_gather]

theorem exists_mem_scan {template : String} {t : Token} (h : .token t ∈ segments template) :
    ∃ q ∈ scan template, q.token = t := by
  have hmem : t ∈ (segments template).filterMap Segment.token? :=
    List.mem_filterMap.mpr ⟨_, h, rfl⟩
  rw [← map_token_scan] at hmem
  exact List.mem_map.mp hmem

/-- In a template whose literals are inert all segments are read back as they are written. -/
theorem stable_of_mem_segments {template : String}
    (h : ∀ text, .literal text ∈ segments template → Inert text.toList) {s : Segment}
    (hs : s ∈ segments template) : s.Stable := by
  cases s with
  | literal text => exact .literal (h text hs)
  | token t =>
      obtain ⟨q, hq, rfl⟩ := exists_mem_scan hs
      exact .token (writable_of_mem_scan hq)

end Template
end Placeholder
