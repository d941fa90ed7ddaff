import Placeholder.Proofs.Template.Leftmost
import Placeholder.Proofs.Template.Segments
import Placeholder.Proofs.Text.Cut

/-!
# Stretches of a template

A stretch is a segment with its text and the two bytes between which it stands. The stretches of a
template cover it without gaps (`Tiles`), so each is what a cut between its bytes gives, and no two
overlap. The tokens that a scan finds are those among the stretches.
-/
namespace Placeholder

open Text (cut? utf8Size)

/-- A segment, its text, and the bytes at which it starts and stops. -/
structure Stretch where
  segment : Segment
  text : String
  start : Nat
  stop : Nat
  deriving DecidableEq, Repr

namespace Template

def stretchOf (placed : Position × Segment) : Stretch :=
  ⟨placed.2, placed.2.written, placed.1.byte, (placed.1.past placed.2.chars).byte⟩

def stretches (template : String) : List Stretch := (layout template).map stretchOf

def Placed.stretch (q : Placed) : Stretch :=
  ⟨.token q.token, q.token.written, q.start.byte, q.stopByte⟩

/-- From one byte to the end of the template, each stretch starts where the one before stopped, and
its text is what the template has there. -/
inductive Tiles (template : String) : Nat → List Stretch → Prop
  | done : Tiles template template.utf8ByteSize []
  | next {s : Stretch} {rest : List Stretch} (hlt : s.start < s.stop)
      (hcut : cut? template s.start s.stop = some s.text) (more : Tiles template s.stop rest) :
      Tiles template s.start (s :: rest)

namespace Tiles

variable {template : String} {n : Nat} {found : List Stretch}

theorem le_size (h : Tiles template n found) : n ≤ template.utf8ByteSize := by
  induction h with
  | done => exact Nat.le_refl _
  | next hlt hcut more ih => exact Nat.le_trans (Nat.le_of_lt hlt) ih

theorem of_mem (h : Tiles template n found) {s : Stretch} (hs : s ∈ found) :
    n ≤ s.start ∧ s.start < s.stop ∧ s.stop ≤ template.utf8ByteSize ∧
      cut? template s.start s.stop = some s.text := by
  induction h with
  | done => cases hs
  | next hlt hcut more ih =>
      cases hs with
      | head => exact ⟨Nat.le_refl _, hlt, more.le_size, hcut⟩
      | tail _ hmem =>
          obtain ⟨hle, hrest⟩ := ih hmem
          exact ⟨by omega, hrest⟩

theorem pairwise (h : Tiles template n found) : found.Pairwise fun s s' => s.stop ≤ s'.start := by
  induction h with
  | done => exact List.Pairwise.nil
  | next hlt hcut more ih =>
      apply List.Pairwise.cons
      · intro s' hs'
        exact (more.of_mem hs').1
      · exact ih

end Tiles

theorem layoutFrom_append (p : Position) (before after : List Segment) :
    layoutFrom p (before ++ after) =
      layoutFrom p before ++ layoutFrom (p.past (before.flatMap Segment.chars)) after := by
  induction before generalizing p with
  | nil => rfl
  | cons s before ih =>
      rw [List.cons_append, layoutFrom, ih, List.flatMap_cons, Position.past_append]
      rfl

theorem Canonical.chars_ne_nil {segments : List Segment} (h : Canonical segments) {s : Segment}
    (hs : s ∈ segments) : s.chars ≠ [] := by
  cases s with
  | literal text =>
      intro hnil
      exact h.nonempty text hs (String.toList_eq_nil_iff.mp hnil)
  | token t => exact List.cons_ne_nil _ _

theorem tiles_layoutFrom {template : String} {before : List Char} {segments : List Segment}
    (htemplate : template.toList = before ++ segments.flatMap Segment.chars)
    (hne : ∀ s ∈ segments, s.chars ≠ []) :
    Tiles template (utf8Size before)
      ((layoutFrom (Position.past {} before) segments).map stretchOf) := by
  induction segments generalizing before with
  | nil =>
      have hsize : utf8Size before = template.utf8ByteSize := by
        rw [← Text.utf8Size_toList, htemplate, List.flatMap_nil, List.append_nil]
      rw [hsize]
      exact Tiles.done
  | cons s segments ih =>
      rw [List.flatMap_cons] at htemplate
      have hstop : (stretchOf (Position.past {} before, s)).stop = utf8Size (before ++ s.chars) := by
        simp [stretchOf, Position.past]
      have hstart : (stretchOf (Position.past {} before, s)).start = utf8Size before := by
        simp [stretchOf, Position.past]
      have hrest : template.toList = (before ++ s.chars) ++ segments.flatMap Segment.chars := by
        rw [htemplate, List.append_assoc]
      have hmore := ih hrest fun s' hs' => hne s' (List.mem_cons_of_mem s hs')
      have hpos := Text.utf8Size_pos (hne s List.mem_cons_self)
      rw [layoutFrom, List.map_cons, ← hstart]
      apply Tiles.next
      · rw [hstart, hstop, Text.utf8Size_append]
        omega
      · rw [hstart, hstop, Text.utf8Size_append, Text.cut?_of_append htemplate]
        rfl
      · rw [hstop]
        rw [Position.past_append] at hmore
        exact hmore

theorem tiles_stretches (template : String) : Tiles template 0 (stretches template) := by
  have htemplate : template.toList = [] ++ (segments template).flatMap Segment.chars := by
    rw [chars_segments, List.nil_append]
  exact tiles_layoutFrom htemplate fun s hs => (canonical_segments template).chars_ne_nil hs

theorem map_segment_stretches (template : String) :
    (stretches template).map Stretch.segment = segments template := by
  rw [stretches, List.map_map]
  exact map_snd_layoutFrom {} (segments template)

theorem map_text_stretches (template : String) :
    (stretches template).map Stretch.text = (segments template).map Segment.written := by
  rw [← map_segment_stretches, stretches, List.map_map, List.map_map, List.map_map]
  rfl

/-- The tokens among the stretches are those that a scan finds, at their places. -/
theorem map_stretch_scan (template : String) : (scan template).map Placed.stretch =
    (stretches template).filter fun s => s.segment.token?.isSome := by
  rw [stretches, List.filter_map, scan, List.map_filterMap, ← List.filterMap_eq_filter,
    List.map_filterMap]
  congr 1
  funext placed
  obtain ⟨p, s⟩ := placed
  cases s with
  | literal text => rfl
  | token t => rfl

/-- A token of a scan lies within the template, and is what stands there. -/
theorem place_of_mem_scan {template : String} {q : Placed} (hq : q ∈ scan template) :
    q.start.byte < q.stopByte ∧ q.stopByte ≤ template.utf8ByteSize ∧
      cut? template q.start.byte q.stopByte = some q.token.written := by
  have hmem : q.stretch ∈ (scan template).map Placed.stretch := List.mem_map_of_mem hq
  rw [map_stretch_scan] at hmem
  exact ((tiles_stretches template).of_mem (List.mem_filter.mp hmem).1).2

end Template
end Placeholder
