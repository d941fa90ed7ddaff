import Mathlib.Data.List.Infix
import Placeholder.Proofs.Template.Written

/-!
# Texts that grow

The only closing brace of a token is its last character. So a place where no token starts yet, but
would if the text went on, has no closing brace after it, and no token either. What a scan finds in a
text is therefore found in every longer one (`scan_survives_append`), and a text may be cut where a
token stops without a change to its segments (`segments_cut`).
-/
namespace Placeholder

open Text (cut? from? utf8Size)

theorem Kind.brace_not_mem_name (kind : Kind) : '}' ∉ kind.name.toList := by
  cases kind <;> decide

theorem Tail.Spells.closes {cs : List Char} {tail : Tail} (h : Spells cs tail) :
    ∃ body, cs = body ++ ['}'] ∧ '}' ∉ body := by
  cases h with
  | plain => exact ⟨[], rfl, by decide⟩
  | required => exact ⟨['!'], rfl, by decide⟩
  | @fallback text htext =>
      refine ⟨[':'] ++ text, rfl, ?_⟩
      intro hmem
      rcases List.mem_append.mp hmem with hcolon | hbrace
      · exact absurd hcolon (by decide)
      · exact htext.allowed '}' hbrace rfl

theorem Token.Spells.closes {m : List Char} {t : Token} (h : Spells m t) :
    ∃ body, m = body ++ ['}'] ∧ '}' ∉ body := by
  cases h with
  | @mk kind name cs tail hname htail =>
      obtain ⟨body, rfl, hbody⟩ := htail.closes
      refine ⟨['$', '{'] ++ kind.name.toList ++ [':'] ++ name ++ body, ?_, ?_⟩
      · rw [List.append_assoc _ body]
      · have hkind := kind.brace_not_mem_name
        have hbrace : '}' ∉ name := fun hmem => (hname.allowed '}' hmem).2.2 rfl
        simp [hkind, hbrace, hbody]

namespace Token

theorem read?_append {cs left : List Char} {t : Token} (h : read? cs = some (t, left))
    (rest : List Char) : read? (cs ++ rest) = some (t, left ++ rest) := by
  obtain ⟨m, hm, rfl⟩ := read?_eq_some_iff.mp h
  exact read?_eq_some_iff.mpr ⟨m, hm, List.append_assoc m left rest⟩

theorem read?_of_append {cs rest : List Char} (h : read? (cs ++ rest) = none) :
    read? cs = none := by
  apply Option.eq_none_iff_forall_not_mem.mpr
  rintro ⟨t, left⟩ hread
  cases h.symm.trans (read?_append hread rest)

end Token

namespace Template

theorem starts_iff {cs : List Char} : Starts cs ↔ Token.read? cs ≠ none := by
  constructor
  · intro h hread
    exact not_starts_of_read? hread h
  · intro h
    obtain ⟨⟨t, rest⟩, hread⟩ := Option.ne_none_iff_exists'.mp h
    obtain ⟨m, hm, rfl⟩ := Token.read?_eq_some_iff.mp hread
    exact ⟨m, t, hm, List.prefix_append m rest⟩

/-- Where a text already holds a closing brace, more of it is no help to a token that fails. -/
theorem starts_of_append {cs rest : List Char} (hbrace : '}' ∈ cs) (h : Starts (cs ++ rest)) :
    Starts cs := by
  obtain ⟨m, t, hm, hprefix⟩ := h
  rcases List.prefix_or_prefix_of_prefix hprefix (List.prefix_append cs rest) with hshort | hlong
  · exact ⟨m, t, hm, hshort⟩
  · obtain ⟨body, rfl, hbody⟩ := hm.closes
    rcases List.prefix_concat_iff.mp hlong with hsame | hbefore
    · exact ⟨_, t, hm, hsame ▸ List.prefix_refl _⟩
    · exact absurd (hbefore.mem hbrace) hbody

/-- The tokens that are found in a text come first among those of a longer one. -/
theorem Leftmost.append {p : Position} {cs : List Char} {ts : List Placed} (h : Leftmost p cs ts)
    (rest : List Char) : ∃ us, Leftmost p (cs ++ rest) (ts ++ us) := by
  induction h with
  | @done p cs none => exact ⟨_, leftmost_segmentsFrom p [] (cs ++ rest)⟩
  | @next p skipped m left t ts first ht more ih =>
      obtain ⟨us, hus⟩ := ih
      refine ⟨us, ?_⟩
      rw [List.append_assoc, List.append_assoc]
      apply Leftmost.next _ ht hus
      intro before after he hne hstarts
      -- The token that is found holds a brace, so nothing new starts before it.
      have hbrace : '}' ∈ after ++ (m ++ left) := by
        obtain ⟨body, rfl, -⟩ := ht.closes
        simp
      apply first before after he hne
      apply starts_of_append hbrace
      rw [List.append_assoc, List.append_assoc]
      exact hstarts

theorem scan_prefix_append (template more : String) : scan template <+: scan (template ++ more) := by
  obtain ⟨us, hus⟩ := (leftmost_scan template).append more.toList
  rw [← String.toList_append] at hus
  exact ⟨us, (scan_eq_iff.mpr hus).symm⟩

/-! ## Tokens in their place -/

theorem exists_of_mem_layoutFrom {p q : Position} {s : Segment} {segments : List Segment}
    (h : (q, s) ∈ layoutFrom p segments) :
    ∃ before after, segments = before ++ s :: after ∧ q = p.past (before.flatMap Segment.chars) := by
  induction segments generalizing p with
  | nil => cases h
  | cons u segments ih =>
      rcases List.mem_cons.mp h with he | hmem
      · cases he
        exact ⟨[], segments, rfl, rfl⟩
      · obtain ⟨before, after, rfl, rfl⟩ := ih hmem
        refine ⟨u :: before, after, rfl, ?_⟩
        rw [List.flatMap_cons, Position.past_append]

/-- A token of a scan is one of the segments and stands after those before it. -/
theorem exists_of_mem_scan {template : String} {q : Placed} (hq : q ∈ scan template) :
    ∃ before after, segments template = before ++ .token q.token :: after ∧
      q.start = Position.past {} (before.flatMap Segment.chars) := by
  obtain ⟨⟨p, s⟩, hmem, htoken⟩ := List.mem_filterMap.mp hq
  obtain ⟨t, ht, rfl⟩ := Option.map_eq_some_iff.mp htoken
  cases s with
  | literal text => cases ht
  | token u =>
      cases ht
      exact exists_of_mem_layoutFrom hmem

theorem stopByte_eq {q : Placed} {before : List Char} (h : q.start = Position.past {} before) :
    q.stopByte = utf8Size (before ++ q.token.chars) := by
  rw [Placed.stopByte, h, ← Position.past_append, Position.past, Nat.zero_add]

/-- Every token has stopped where no closing brace follows. -/
theorem stopByte_le {template : String} {before after : List Char}
    (htemplate : template.toList = before ++ after) (hbrace : '}' ∉ after) {q : Placed}
    (hq : q ∈ scan template) : q.stopByte ≤ utf8Size before := by
  obtain ⟨earlier, later, hsegments, hstart⟩ := exists_of_mem_scan hq
  obtain ⟨body, hchars, -⟩ := (writable_of_mem_scan hq).spells.closes
  have hall := chars_segments template
  rw [hsegments, htemplate, List.flatMap_append, List.flatMap_cons] at hall
  change _ ++ (q.token.chars ++ _) = _ at hall
  rw [← List.append_assoc] at hall
  rw [stopByte_eq hstart]
  rcases List.append_eq_append_iff.mp hall with ⟨left, rfl, -⟩ | ⟨beyond, hstop, rfl⟩
  · rw [Text.utf8Size_append _ left]
    exact Nat.le_add_right _ _
  · -- What goes beyond would end in the brace of the token.
    rcases List.eq_nil_or_concat' beyond with rfl | ⟨beyond, c, rfl⟩
    · rw [hstop, List.append_nil]
    · rw [hchars, ← List.append_assoc, ← List.append_assoc] at hstop
      obtain ⟨-, hc⟩ := List.append_inj' hstop rfl
      obtain rfl : '}' = c := List.singleton_inj.mp hc
      exact absurd (by simp) hbrace

/-- More text takes nothing from a scan. The tokens found in a template are the first ones found in
every longer one, the same and in the same places. A candidate that fails there, and no longer does
once the text goes on, has no closing brace after it, and every token has stopped before it. -/
theorem scan_survives_append (template more : String) :
    scan template <+: scan (template ++ more) ∧
    ∀ before after, template.toList = before ++ after → Token.read? after = none →
      Token.read? (after ++ more.toList) ≠ none →
      '}' ∉ after ∧ ∀ q ∈ scan template, q.stopByte ≤ utf8Size before := by
  refine ⟨scan_prefix_append template more, ?_⟩
  intro before after htemplate hfails hcompleted
  have hbrace : '}' ∉ after := by
    intro hmem
    have hstarts := starts_of_append hmem (starts_iff.mpr hcompleted)
    exact not_starts_of_read? hfails hstarts
  exact ⟨hbrace, fun q hq => stopByte_le htemplate hbrace hq⟩

/-! ## Cuts -/

theorem token_notMem_flush (pending : List Char) (t : Token) :
    .token t ∉ Segment.flush pending := by
  cases pending with
  | nil => exact List.not_mem_nil
  | cons c pending => simp [Segment.flush]

/-- A token does not stand among the characters that were only gathered. -/
theorem exists_of_flush_append {pending : List Char} {segments before after : List Segment}
    {t : Token} (h : Segment.flush pending ++ segments = before ++ .token t :: after) :
    ∃ between, before = Segment.flush pending ++ between ∧
      segments = between ++ .token t :: after := by
  rcases List.append_eq_append_iff.mp h with ⟨between, hbefore, hright⟩ | ⟨between, hflush, hright⟩
  · exact ⟨between, hbefore, hright⟩
  · cases between with
    | nil => exact ⟨[], by rw [hflush, List.append_nil, List.append_nil], hright.symm⟩
    | cons s between =>
        obtain ⟨rfl, -⟩ := List.cons.inj hright
        exact absurd (by rw [hflush]; simp) (token_notMem_flush pending t)

/-- The text up to the end of a token has the segments up to that token, and the text behind it has
the others. -/
theorem segmentsFrom_cut {pending cs : List Char} {before after : List Segment} {t : Token}
    (h : segmentsFrom pending cs = before ++ .token t :: after) :
    ∃ left right, cs = left ++ right ∧ segmentsFrom pending left = before ++ [.token t] ∧
      segmentsFrom [] right = after := by
  fun_induction segmentsFrom pending cs generalizing before with
  | case1 pending =>
      rw [← List.append_nil (Segment.flush pending)] at h
      obtain ⟨between, -, hnil⟩ := exists_of_flush_append h
      simp at hnil
  | case2 pending c cs u rest hread ih =>
      obtain ⟨between, rfl, hmore⟩ := exists_of_flush_append h
      obtain ⟨m, hu, hcs⟩ := Token.read?_eq_some_iff.mp hread
      have hfirst (left : List Char) : segmentsFrom pending (m ++ left) =
          Segment.flush pending ++ .token u :: segmentsFrom [] left :=
        segmentsFrom_of_read? (Token.read?_eq_some_iff.mpr ⟨m, hu, rfl⟩) pending
      cases between with
      | nil =>
          obtain ⟨hsame, rfl⟩ := List.cons.inj hmore
          refine ⟨m, rest, hcs, ?_, rfl⟩
          rw [← List.append_nil m, hfirst, hsame]
          simp [segmentsFrom, Segment.flush]
      | cons s between =>
          obtain ⟨rfl, hrest⟩ := List.cons.inj hmore
          obtain ⟨left, right, rfl, hleft, hright⟩ := ih hrest
          refine ⟨m ++ left, right, ?_, ?_, hright⟩
          · rw [hcs, List.append_assoc]
          · rw [hfirst, hleft, List.append_assoc, List.cons_append]
  | case3 pending c cs hread ih =>
      obtain ⟨left, right, rfl, hleft, hright⟩ := ih h
      have hfirst : Token.read? (c :: left) = none := Token.read?_of_append hread
      refine ⟨c :: left, right, rfl, ?_, hright⟩
      rw [segmentsFrom]
      split
      · next hfound => cases hfirst.symm.trans hfound
      · exact hleft

/-- A template may be cut where a token stops: its segments are those of the two parts. -/
theorem segments_cut {template : String} {q : Placed} (hq : q ∈ scan template) :
    ∃ left right, cut? template 0 q.stopByte = some left ∧
      from? template q.stopByte = some right ∧
      segments template = segments left ++ segments right := by
  obtain ⟨before, after, hsegments, hstart⟩ := exists_of_mem_scan hq
  obtain ⟨left, right, htemplate, hleft, hright⟩ := segmentsFrom_cut hsegments
  have hchars : left = before.flatMap Segment.chars ++ q.token.chars := by
    have hall := chars_segmentsFrom [] left
    rw [hleft] at hall
    simpa [Segment.chars] using hall.symm
  have hcut : template.toList = [] ++ (left ++ right) := htemplate
  have hstop : q.stopByte = utf8Size left := by
    rw [stopByte_eq hstart, hchars]
  refine ⟨String.ofList left, String.ofList right, ?_, ?_, ?_⟩
  · have hpart := Text.cut?_of_append hcut
    rwa [Text.utf8Size_nil, Nat.zero_add, ← hstop] at hpart
  · rw [hstop]
    exact Text.from?_of_append htemplate
  · rw [hsegments]
    simp only [segments, String.toList_ofList, hleft, hright, List.append_assoc,
      List.singleton_append]

end Template
end Placeholder
