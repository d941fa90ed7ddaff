import Placeholder.Proofs.Template.Offsets

/-!
# Tokens written and read

A token that the grammar has is found again where it was written, whatever stands behind it and
whatever without an opening stands before it. Every token of a scan is one of these, and its text is
the token written. So two tokens with one text are the same.
-/
namespace Placeholder

open Text (cut?)

/-- The name and the fallback are such as the grammar has. -/
structure Token.Writable (t : Token) : Prop where
  name : IsName t.name.toList
  fallback : ∀ text, t.tail = .fallback text → IsFallback text.toList

namespace Token

theorem Writable.spells {t : Token} (h : t.Writable) : Spells t.chars t := by
  obtain ⟨kind, name, tail⟩ := t
  have htail : Tail.Spells tail.chars tail := by
    cases tail with
    | plain => exact .plain
    | required => exact .required
    | fallback text =>
        have hspells := Tail.Spells.fallback (h.fallback text rfl)
        rw [String.ofList_toList] at hspells
        exact hspells
  have hspells := Spells.mk kind h.name htail
  rw [String.ofList_toList] at hspells
  rw [← hspells.eq_chars]
  exact hspells

theorem Spells.writable {m : List Char} {t : Token} (h : Spells m t) : t.Writable := by
  cases h with
  | mk kind hn ht =>
      constructor
      · rw [String.toList_ofList]
        exact hn
      · intro text htail
        cases ht with
        | plain => cases htail
        | required => cases htail
        | fallback hf =>
            cases htail
            rw [String.toList_ofList]
            exact hf

theorem Writable.read?_append {t : Token} (h : t.Writable) (rest : List Char) :
    read? (t.chars ++ rest) = some (t, rest) :=
  read?_eq_some_iff.mpr ⟨t.chars, h.spells, rfl⟩

theorem Writable.eq_of_written {t t' : Token} (h : t.Writable) (h' : t'.Writable)
    (hw : t.written = t'.written) : t = t' := by
  have hread := h.read?_append []
  rw [← toList_written, hw, toList_written, h'.read?_append] at hread
  exact congrArg Prod.fst (Option.some.inj hread).symm

end Token

namespace Template

/-- The token as it is found when a text stands before the template. -/
def Placed.behind (before : String) (q : Placed) : Placed :=
  ⟨q.token, ⟨q.start.byte + before.utf8ByteSize, q.start.line + before.toList.count '\n'⟩⟩

theorem behind_eq (before : String) (q : Placed) :
    q.behind before = ⟨q.token, q.start.past before.toList⟩ := by
  rw [Placed.behind, Position.past, Text.utf8Size_toList]

theorem Position.past_comm (p : Position) (a b : List Char) :
    (p.past a).past b = (p.past b).past a := by
  simp only [past, Nat.add_right_comm]

theorem tokensOf_layoutFrom_past (p : Position) (before : String) (segments : List Segment) :
    tokensOf (layoutFrom (p.past before.toList) segments) =
      (tokensOf (layoutFrom p segments)).map (Placed.behind before) := by
  induction segments generalizing p with
  | nil => rfl
  | cons s segments ih =>
      have hmore := ih (p.past s.chars)
      rw [Position.past_comm] at hmore
      cases s with
      | literal text => exact hmore
      | token t =>
          change ⟨t, p.past before.toList⟩ :: tokensOf _ = Placed.behind before ⟨t, p⟩ :: _
          rw [hmore, behind_eq]
          rfl

theorem scan_append {t : Token} (ht : t.Writable) {u : String} (hu : ¬ opening <:+: u.toList)
    (v : String) : scan (u ++ t.written ++ v) =
      ⟨t, Position.past {} u.toList⟩ :: (scan v).map (Placed.behind (u ++ t.written)) := by
  have hpassed : Passed u.toList (t.chars ++ v.toList) := by
    apply passed_of_not_opening hu
    intro hbrace
    cases hbrace
  have hsegments : segments (u ++ t.written ++ v) =
      Segment.flush (u.toList.reverse ++ []) ++ .token t :: segments v := by
    rw [segments, String.toList_append, String.toList_append, Token.toList_written,
      List.append_assoc, segmentsFrom_passed hpassed, segmentsFrom_of_read? (ht.read?_append _)]
    rfl
  have hplace : (Position.past {} u.toList).past t.chars =
      Position.past {} (u ++ t.written).toList := by
    rw [String.toList_append, Token.toList_written, Position.past_append]
  change tokensOf (layoutFrom {} _) = _
  rw [hsegments, tokensOf_flush_append, List.append_nil, List.reverse_reverse]
  change ⟨t, Position.past {} u.toList⟩ :: tokensOf (layoutFrom (Position.past _ t.chars) _) = _
  rw [hplace, tokensOf_layoutFrom_past]
  rfl

theorem Leftmost.writable {p : Position} {cs : List Char} {ts : List Placed}
    (h : Leftmost p cs ts) {q : Placed} (hq : q ∈ ts) : q.token.Writable := by
  induction h with
  | done none => cases hq
  | next first ht more ih =>
      cases hq with
      | head => exact ht.writable
      | tail _ hmem => exact ih hmem

theorem writable_of_mem_scan {template : String} {q : Placed} (hq : q ∈ scan template) :
    q.token.Writable :=
  (leftmost_scan template).writable hq

/-- A token is found where it was written, and only there, exactly if the grammar has it. -/
theorem scan_written_iff {t : Token} : scan t.written = [⟨t, {}⟩] ↔ t.Writable := by
  constructor
  · intro h
    have hmem : ⟨t, {}⟩ ∈ scan t.written := by
      rw [h]
      exact List.mem_singleton.mpr rfl
    exact writable_of_mem_scan hmem
  · intro ht
    have hempty : ¬ opening <:+: "".toList := by decide
    have hscan := scan_append ht hempty ""
    have hnone : scan "" = [] := by
      simp [scan, layout, segments, segmentsFrom, Segment.flush, layoutFrom]
    rw [String.empty_append, String.append_empty, hnone] at hscan
    exact hscan

theorem token_of_mem_stretches {template : String} {s : Stretch} (hs : s ∈ stretches template)
    {t : Token} (ht : s.segment = .token t) : t.Writable ∧ s.text = t.written ∧
      cut? template s.start s.stop = some s.text := by
  have htoken : s ∈ (scan template).map Placed.stretch := by
    rw [map_stretch_scan]
    refine List.mem_filter.mpr ⟨hs, ?_⟩
    rw [ht]
    rfl
  obtain ⟨q, hq, rfl⟩ := List.mem_map.mp htoken
  cases ht
  exact ⟨writable_of_mem_scan hq, rfl, (place_of_mem_scan hq).2.2⟩

/-- Writing and reading are inverse. Behind a text without an opening the token written is the first
one found, at the end of that text, and the others are those of what follows. What the scan by bytes
cuts out for a token is the token written. And tokens that are written alike are the same, so no two
forms meet. -/
theorem scan_inverts_written :
    (∀ (t : Token) (u v : String), t.Writable → ¬ opening <:+: u.toList →
      scan (u ++ t.written ++ v) =
        ⟨t, Position.past {} u.toList⟩ :: (scan v).map (Placed.behind (u ++ t.written)) ∧
      (Position.past {} u.toList).byte = u.utf8ByteSize) ∧
    (∀ template, ∃ found, stretches? template = some found ∧
      (scan template).map Placed.stretch = found.filter (fun s => s.segment.token?.isSome) ∧
      ∀ s ∈ found, ∀ t, s.segment = .token t →
        t.Writable ∧ s.text = t.written ∧ cut? template s.start s.stop = some s.text) ∧
    (∀ t t' : Token, t.Writable → t'.Writable → t.written = t'.written → t = t') := by
  refine ⟨?_, ?_, ?_⟩
  · intro t u v ht hu
    refine ⟨scan_append ht hu v, ?_⟩
    rw [Position.past, Text.utf8Size_toList]
    exact Nat.zero_add _
  · intro template
    refine ⟨stretches template, stretches?_eq template, map_stretch_scan template, ?_⟩
    intro s hs t ht
    exact token_of_mem_stretches hs ht
  · intro t t' ht ht' hw
    exact ht.eq_of_written ht' hw

/-- The text before ends in a dollar sign and holds a character of two bytes, and the name has an
opening and a line break in it. -/
theorem scan_inverts_written_opening :
    scan ("é$" ++ (Token.mk .kv "A $\x7b\n" (.fallback "x:!")).written ++
        (Token.mk .env "B" .required).written) =
      [⟨⟨.kv, "A $\x7b\n", .fallback "x:!"⟩, ⟨3, 1⟩⟩, ⟨⟨.env, "B", .required⟩, ⟨18, 2⟩⟩] := by
  have hfirst : (Token.mk .kv "A $\x7b\n" (.fallback "x:!")).Writable := by
    refine ⟨⟨by decide, by simp⟩, ?_⟩
    intro text htext
    cases htext
    exact ⟨by decide, by simp⟩
  have hsecond : (Token.mk .env "B" .required).Writable := by
    refine ⟨⟨by decide, by simp⟩, ?_⟩
    intro text htext
    cases htext
  have hopening : ¬ opening <:+: "é$".toList := by decide
  have hscan := (scan_inverts_written.1 _ "é$" (Token.mk .env "B" .required).written hfirst
    hopening).1
  rw [scan_written_iff.mpr hsecond] at hscan
  rw [hscan]
  rfl

end Template
end Placeholder
