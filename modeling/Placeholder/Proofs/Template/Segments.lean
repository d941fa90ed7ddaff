import Placeholder.Template

/-!
# The segments of a template

Where no token starts a scan only gathers characters (`segmentsFrom_passed`), and a token starts only
behind a dollar sign and an opening brace. So a text without these two is one literal, and in every
template a literal holds something and has tokens as its neighbours (`Canonical`).
-/
namespace Placeholder

theorem Token.opening_of_read? {cs rest : List Char} {t : Token}
    (h : read? cs = some (t, rest)) : ∃ more, cs = '$' :: '{' :: more := by
  rw [chars_append_of_read? h]
  exact ⟨_, rfl⟩

namespace Template

/-- The characters with which every token starts. -/
def opening : List Char := ['$', '{']

/-- No token starts at any character of `passed`, with `rest` after it. -/
def Passed (passed rest : List Char) : Prop :=
  ∀ before after, passed = before ++ after → after ≠ [] → Token.read? (after ++ rest) = none

theorem passed_cons_iff {c : Char} {passed rest : List Char} :
    Passed (c :: passed) rest ↔ Token.read? (c :: (passed ++ rest)) = none ∧ Passed passed rest := by
  constructor
  · intro h
    refine ⟨h [] (c :: passed) rfl (List.cons_ne_nil c passed), ?_⟩
    intro before after he hne
    exact h (c :: before) after (congrArg (c :: ·) he) hne
  · rintro ⟨hfirst, hmore⟩ before after he hne
    cases before with
    | nil =>
        obtain rfl : after = c :: passed := he.symm
        exact hfirst
    | cons b before => exact hmore before after (List.cons.inj he).2 hne

theorem passed_of_not_opening {passed rest : List Char} (h : ¬ opening <:+: passed)
    (hrest : rest.head? ≠ some '{') : Passed passed rest := by
  intro before after he hne
  apply Option.eq_none_iff_forall_not_mem.mpr
  rintro ⟨t, left⟩ hread
  obtain ⟨more, hmore⟩ := Token.opening_of_read? hread
  rcases after with _ | ⟨c, _ | ⟨d, after⟩⟩
  · exact hne rfl
  · -- Only the dollar sign is passed over, so the brace is the head of the rest.
    have hrest' : rest = '{' :: more := (List.cons.inj hmore).2
    exact hrest (by rw [hrest']; rfl)
  · obtain ⟨rfl, hd⟩ := List.cons.inj hmore
    obtain ⟨rfl, -⟩ := List.cons.inj hd
    exact h ⟨before, after, by simp [he, opening]⟩

theorem segmentsFrom_passed {passed rest : List Char} (h : Passed passed rest)
    (pending : List Char) :
    segmentsFrom pending (passed ++ rest) = segmentsFrom (passed.reverse ++ pending) rest := by
  induction passed generalizing pending with
  | nil => rfl
  | cons c passed ih =>
      obtain ⟨hfirst, hmore⟩ := passed_cons_iff.mp h
      rw [List.cons_append, segmentsFrom]
      split
      · next t left hread => cases hfirst.symm.trans hread
      · rw [ih hmore, List.reverse_cons, List.append_assoc, List.singleton_append]

theorem segmentsFrom_of_read? {cs rest : List Char} {t : Token}
    (h : Token.read? cs = some (t, rest)) (pending : List Char) :
    segmentsFrom pending cs = Segment.flush pending ++ .token t :: segmentsFrom [] rest := by
  obtain ⟨more, rfl⟩ := Token.opening_of_read? h
  rw [segmentsFrom]
  split
  · next u left hread =>
      cases h.symm.trans hread
      rfl
  · next hread => cases h.symm.trans hread

theorem segments_of_passed {template : String} (h : Passed template.toList []) :
    segments template = Segment.flush template.toList.reverse := by
  have hpassed := segmentsFrom_passed h []
  rw [List.append_nil, List.append_nil] at hpassed
  rw [segments, hpassed, segmentsFrom]

/-- The whole text as a literal; no segment for none. -/
theorem flush_reverse (template : String) :
    Segment.flush template.toList.reverse = if template = "" then [] else [.literal template] := by
  split
  · next he => rw [he]; rfl
  · next hne =>
      have hchars : template.toList.reverse ≠ [] := by simpa using hne
      obtain ⟨c, cs, hcs⟩ := List.exists_cons_of_ne_nil hchars
      rw [hcs, Segment.flush, ← hcs, List.reverse_reverse, String.ofList_toList]
      exact List.cons_ne_nil c cs

/-! ## Canonical segments -/

/-- Every literal holds something, and of two neighbours at least one is a token. -/
structure Canonical (segments : List Segment) : Prop where
  nonempty : ∀ text, .literal text ∈ segments → text ≠ ""
  separated : ∀ before a b after, segments ≠ before ++ .literal a :: .literal b :: after

theorem canonical_flush (pending : List Char) : Canonical (Segment.flush pending) := by
  cases pending with
  | nil => exact ⟨by simp [Segment.flush], by simp [Segment.flush]⟩
  | cons c pending =>
      constructor
      · intro text htext
        obtain rfl : text = _ := by simpa [Segment.flush] using htext
        simp
      · intro before a b after he
        have hlength := congrArg List.length he
        simp [Segment.flush] at hlength
        omega

theorem Canonical.flush_token {segments : List Segment} (h : Canonical segments)
    (pending : List Char) (t : Token) :
    Canonical (Segment.flush pending ++ .token t :: segments) := by
  have hflush := canonical_flush pending
  constructor
  · intro text htext
    rcases List.mem_append.mp htext with hmem | hmem
    · exact hflush.nonempty text hmem
    · rcases List.mem_cons.mp hmem with he | hmem
      · cases he
      · exact h.nonempty text hmem
  · intro before a b after he
    -- Two literals in a row stand before the token or after it.
    rcases List.append_eq_append_iff.mp he with ⟨between, rfl, hright⟩ | ⟨between, hleft, hright⟩
    · rcases between with _ | ⟨s, between⟩
      · cases hright
      · obtain ⟨rfl, hmore⟩ := List.cons.inj hright
        exact h.separated between a b after hmore
    · rcases between with _ | ⟨s, _ | ⟨u, between⟩⟩
      · cases hright
      · obtain ⟨-, hmore⟩ := List.cons.inj hright
        cases hmore
      · obtain ⟨rfl, hmore⟩ := List.cons.inj hright
        obtain ⟨rfl, -⟩ := List.cons.inj hmore
        exact hflush.separated before a b between hleft

theorem canonical_segmentsFrom (pending cs : List Char) : Canonical (segmentsFrom pending cs) := by
  fun_induction segmentsFrom pending cs with
  | case1 pending => exact canonical_flush pending
  | case2 pending c cs t rest hread ih => exact ih.flush_token pending t
  | case3 pending c cs hread ih => exact ih

theorem canonical_segments (template : String) : Canonical (segments template) :=
  canonical_segmentsFrom [] template.toList

theorem join_written (segments : List Segment) :
    (String.join (segments.map Segment.written)).toList = segments.flatMap Segment.chars := by
  induction segments with
  | nil => rfl
  | cons s rest ih =>
      rw [List.map_cons, String.join_cons, String.toList_append, ih, List.flatMap_cons,
        Segment.written, String.toList_ofList]

/-- Nothing is lost: the segments written one after the other are the template. -/
theorem join_segments (template : String) :
    String.join ((segments template).map Segment.written) = template := by
  apply String.toList_inj.mp
  rw [join_written, chars_segments]

end Template
end Placeholder
