import Placeholder.Text

/-!
# Pieces and lines of a text

`Text.pieces` cuts a text at its marks. There is one piece more than there are marks, and a text put
together at a mark has the pieces of both parts. Lines are the pieces between line breaks.
-/
namespace Placeholder.Text

variable {isMark : Char → Bool} {cs : List Char}

theorem pieces_of_none (h : ∀ c ∈ cs, isMark c = false) : pieces isMark cs = [cs] := by
  induction cs with
  | nil => rfl
  | cons c cs ih =>
      have hrest := ih fun d hd => h d (List.mem_cons_of_mem c hd)
      simp only [pieces, h c List.mem_cons_self, hrest]
      rfl

theorem exists_pieces_cons (isMark : Char → Bool) (cs : List Char) :
    ∃ first more, pieces isMark cs = first :: more := by
  unfold pieces
  split
  · exact ⟨_, _, rfl⟩
  · split
    · exact ⟨_, _, rfl⟩
    · split
      · exact ⟨_, _, rfl⟩
      · exact ⟨_, _, rfl⟩

theorem pieces_append_mark (isMark : Char → Bool) (cs : List Char) {x : Char}
    (hx : isMark x = true) (rest : List Char) :
    pieces isMark (cs ++ x :: rest) = pieces isMark cs ++ pieces isMark rest := by
  induction cs with
  | nil => simp only [List.nil_append, pieces, hx, if_true, List.singleton_append]
  | cons c cs ih =>
      rw [List.cons_append, pieces, pieces, ih]
      split
      · rfl
      · obtain ⟨first, more, hcs⟩ := exists_pieces_cons isMark cs
        rw [hcs]
        rfl

theorem pieces_append (h : ∀ c ∈ cs, isMark c = false) {x : Char} (hx : isMark x = true)
    (rest : List Char) : pieces isMark (cs ++ x :: rest) = cs :: pieces isMark rest := by
  rw [pieces_append_mark isMark cs hx, pieces_of_none h, List.singleton_append]

/-- Runs without a mark, put together by marks, are the pieces of what comes of it. -/
theorem pieces_intercalate {x : Char} (hx : isMark x = true) {runs : List (List Char)}
    (hne : runs ≠ []) (h : ∀ run ∈ runs, ∀ c ∈ run, isMark c = false) :
    pieces isMark ([x].intercalate runs) = runs := by
  induction runs with
  | nil => exact absurd rfl hne
  | cons run rest ih =>
      have hrun := h run List.mem_cons_self
      cases rest with
      | nil =>
          rw [List.intercalate_singleton]
          exact pieces_of_none hrun
      | cons next rest =>
          have hrest := ih (List.cons_ne_nil _ _) fun r hr => h r (List.mem_cons_of_mem run hr)
          rw [List.intercalate_cons_cons, List.append_assoc, List.singleton_append,
            pieces_append hrun hx, hrest]

theorem length_pieces (isMark : Char → Bool) (cs : List Char) :
    (pieces isMark cs).length = cs.countP isMark + 1 := by
  induction cs with
  | nil => rfl
  | cons c cs ih =>
      obtain ⟨first, more, hcs⟩ := exists_pieces_cons isMark cs
      rw [hcs, List.length_cons] at ih
      rw [pieces, hcs, List.countP_cons]
      split
      · simp only [List.length_cons]
        omega
      · simp only [List.length_cons]
        omega

/-- What has no mark joins the first piece of what stands behind it. -/
theorem pieces_append_of_none (h : ∀ c ∈ cs, isMark c = false) {rest first : List Char}
    {more : List (List Char)} (hrest : pieces isMark rest = first :: more) :
    pieces isMark (cs ++ rest) = (cs ++ first) :: more := by
  induction cs with
  | nil => exact hrest
  | cons c cs ih =>
      rw [List.cons_append, pieces, h c List.mem_cons_self,
        ih fun d hd => h d (List.mem_cons_of_mem c hd)]
      rfl

/-! ## Lines -/

/-- The number of line breaks. -/
def breaks (s : String) : Nat := s.toList.count '\n'

def lines (s : String) : List String := (pieces (· == '\n') s.toList).map String.ofList

@[simp] theorem breaks_append (a b : String) : breaks (a ++ b) = breaks a + breaks b := by
  simp [breaks]

theorem length_lines (s : String) : (lines s).length = breaks s + 1 := by
  rw [lines, List.length_map, length_pieces]
  rfl

theorem ne_break_of_breaks {s : String} (h : breaks s = 0) : ∀ c ∈ s.toList, (c == '\n') = false := by
  intro c hc
  rw [beq_eq_false_iff_ne]
  rintro rfl
  exact List.count_eq_zero.mp h hc

theorem lines_of_breaks {s : String} (h : breaks s = 0) : lines s = [s] := by
  rw [lines, pieces_of_none (ne_break_of_breaks h), List.map_singleton, String.ofList_toList]

/-- What has no line break stands at the head of the first line. -/
theorem lines_append_of_breaks {lead : String} (h : breaks lead = 0) (rest : String) :
    ∃ first more, lines (lead ++ rest) = (lead ++ first) :: more ∧ more.length = breaks rest := by
  obtain ⟨first, more, hrest⟩ := exists_pieces_cons (· == '\n') rest.toList
  refine ⟨String.ofList first, more.map String.ofList, ?_, ?_⟩
  · rw [lines, String.toList_append, pieces_append_of_none (ne_break_of_breaks h) hrest,
      List.map_cons, String.ofList_append, String.ofList_toList]
  · have hlength := length_lines rest
    rw [lines, hrest, List.map_cons, List.length_cons] at hlength
    exact Nat.succ.inj hlength

theorem lines_append_break (a b : String) : lines (a ++ "\n" ++ b) = lines a ++ lines b := by
  have hlist : (a ++ "\n" ++ b).toList = a.toList ++ '\n' :: b.toList := by
    rw [String.toList_append, String.toList_append, List.append_assoc]
    rfl
  rw [lines, hlist, pieces_append_mark _ _ (by rfl), List.map_append]
  rfl

/-- Texts that are all ended by a line break have their own lines, and an empty one stands last. -/
theorem lines_join (texts : List String) :
    lines (String.join (texts.map (· ++ "\n"))) = texts.flatMap lines ++ [""] := by
  induction texts with
  | nil => rfl
  | cons text texts ih =>
      rw [List.map_cons, String.join_cons, lines_append_break, ih, List.flatMap_cons,
        List.append_assoc]

end Placeholder.Text
