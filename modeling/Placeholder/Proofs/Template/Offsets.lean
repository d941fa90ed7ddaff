import Placeholder.Proofs.Template.Stretches

/-!
# Scanning by bytes

The scan as it goes over a text in memory. It keeps two places, the one where the literal text begins
and the one from which on it looks for the next token, and it finds the end of a token by adding up
the sizes of its parts. Everything it looks at is cut out between two such places.
`stretches?_eq` says that no cut ever fails, and that what comes of it are the stretches of the
template.
-/
namespace Placeholder

open Text (cut? from? offset? startsIn upTo? utf8Size)

/-- Reads a tail, and how many bytes it takes. The outer option is none when a cut fails. -/
def Tail.byBytes? (s : String) : Option (Option (Tail × Nat)) :=
  match s.toList with
  | [] => none
  | '}' :: _ => some (some (plain, 1))
  | '!' :: _ =>
    (from? s 1).map fun rest => if startsIn ['}'] rest.toList then some (required, 2) else none
  | _ :: _ =>
    (from? s 1).bind fun value =>
      (upTo? ['}'] value).map fun found => found.map fun (text, size) => (fallback text, size + 2)

/-- Reads the token behind the opening at a byte, and the place where it stops. -/
def Token.byBytes? (template : String) (start : Nat) : Option (Option (Token × Nat)) :=
  (from? template (start + 2)).bind fun body =>
    match readKind? body.toList with
    | none => some none
    | some (kind, rest) =>
      (upTo? nameStops (String.ofList rest)).bind fun found =>
        match found with
        | none => some none
        | some (name, size) =>
          (from? (String.ofList rest) size).bind fun ending =>
            (Tail.byBytes? ending).map fun found => found.map fun (tail, tailSize) =>
              (⟨kind, name, tail⟩, start + 2 + kind.name.utf8ByteSize + 1 + size + tailSize)

theorem Token.lt_of_byBytes? {template : String} {start stop : Nat} {t : Token}
    (h : byBytes? template start = some (some (t, stop))) : start < stop := by
  obtain ⟨body, -, h⟩ := Option.bind_eq_some_iff.mp h
  split at h
  · cases h
  · obtain ⟨found, -, h⟩ := Option.bind_eq_some_iff.mp h
    split at h
    · cases h
    · obtain ⟨ending, -, h⟩ := Option.bind_eq_some_iff.mp h
      obtain ⟨found, -, h⟩ := Option.map_eq_some_iff.mp h
      obtain ⟨⟨tail, size⟩, -, h⟩ := Option.map_eq_some_iff.mp h
      have hstop := congrArg Prod.snd h
      simp only at hstop
      omega

namespace Template

/-- The text goes on with the opening of a token. -/
def opens (cs : List Char) : Bool := opening.isPrefixOf cs

/-- The literal between two bytes; none where it would be empty. -/
def literal? (template : String) (start stop : Nat) : Option (List Stretch) :=
  if start < stop then
    (cut? template start stop).map fun text => [⟨.literal text, text, start, stop⟩]
  else some []

/-- The stretches from the byte `literal` on, where it has no token before `pos`. -/
def stretchesFrom? (template : String) (literal pos : Nat) : Option (List Stretch) :=
  match _hrest : from? template pos with
  | none => none
  | some rest =>
    match _hoffset : offset? opens rest.toList with
    | none => literal? template literal template.utf8ByteSize
    | some offset =>
      match _hread : Token.byBytes? template (pos + offset) with
      | none => none
      | some none => stretchesFrom? template literal (pos + offset + 1)
      | some (some (t, stop)) =>
        (literal? template literal (pos + offset)).bind fun before =>
          (cut? template (pos + offset) stop).bind fun raw =>
            (stretchesFrom? template stop stop).map fun more =>
              before ++ ⟨.token t, raw, pos + offset, stop⟩ :: more
termination_by template.utf8ByteSize - pos
decreasing_by
  · have hsize := Text.size_of_from? _hrest
    have hlt := Text.offset?_lt _hoffset
    rw [Text.utf8Size_toList] at hlt
    omega
  · have hsize := Text.size_of_from? _hrest
    have hlt := Text.offset?_lt _hoffset
    have hstop := Token.lt_of_byBytes? _hread
    rw [Text.utf8Size_toList] at hlt
    omega

def stretches? (template : String) : Option (List Stretch) := stretchesFrom? template 0 0

end Template

namespace Tail

theorem read?_bang {rest : List Char} :
    read? ('!' :: rest) = if startsIn ['}'] rest then some (required, rest.tail) else none := by
  rcases rest with _ | ⟨c, rest⟩
  · rfl
  · by_cases hc : c = '}'
    · subst hc
      rfl
    · have hnot : startsIn ['}'] (c :: rest) = false := by simpa [startsIn] using hc
      rw [hnot]
      unfold read?
      split
      · next heq => cases heq
      · next heq => exact absurd (List.cons.inj (List.cons.inj heq).2).1 hc
      · next heq => cases heq
      · rfl

theorem utf8Size_fallback (text : List Char) :
    utf8Size (fallback (String.ofList text)).chars = utf8Size text + 2 := by
  have hchars : (fallback (String.ofList text)).chars = [':'] ++ text ++ ['}'] := by simp [chars]
  have hcolon : utf8Size [':'] = 1 := rfl
  have hbrace : utf8Size ['}'] = 1 := rfl
  rw [hchars, Text.utf8Size_append, Text.utf8Size_append, hcolon, hbrace]
  omega

theorem from?_one {c : Char} (hc : c.utf8Size = 1) (rest : List Char) :
    from? (String.ofList (c :: rest)) 1 = some (String.ofList rest) := by
  have hone : utf8Size [c] = 1 := hc
  rw [← hone]
  apply Text.from?_of_append
  rw [String.toList_ofList, List.singleton_append]

theorem byBytes?_colon (rest : List Char) : byBytes? (String.ofList (':' :: rest)) =
    some ((read? (':' :: rest)).map fun (tail, _) => (tail, utf8Size tail.chars)) := by
  simp only [byBytes?, String.toList_ofList, from?_one (c := ':') rfl rest, Option.bind_some]
  -- The fallback is what stands before the first brace, and is none if either is missing.
  cases htake : Text.takeUntil ['}'] rest with
  | nil => simp [Text.upTo?_of_takeUntil_nil htake, read?, htake]
  | cons c text =>
      cases hdrop : Text.dropUntil ['}'] rest with
      | nil => simp [Text.upTo?_of_dropUntil_nil hdrop, read?, htake, hdrop]
      | cons brace after =>
          have htake' : Text.takeUntil ['}'] rest ≠ [] := by simp [htake]
          have hdrop' : Text.dropUntil ['}'] rest ≠ [] := by simp [hdrop]
          rw [Text.upTo?_of_ne_nil htake' hdrop', htake]
          simp only [read?, htake, hdrop, Option.map_some, utf8Size_fallback]
          rfl

theorem byBytes?_eq {cs : List Char} (h : startsIn Token.nameStops cs = true) :
    byBytes? (String.ofList cs) =
      some ((read? cs).map fun (tail, _) => (tail, utf8Size tail.chars)) := by
  rcases cs with _ | ⟨c, rest⟩
  · cases h
  have hmem : c = ':' ∨ c = '!' ∨ c = '}' := by simpa [startsIn, Token.nameStops] using h
  rcases hmem with rfl | rfl | rfl
  · exact byBytes?_colon rest
  · simp only [byBytes?, String.toList_ofList, from?_one (c := '!') rfl rest, Option.map_some,
      read?_bang]
    split
    · rfl
    · rfl
  · simp only [byBytes?, String.toList_ofList]
    rfl

end Tail

namespace Token

theorem utf8Size_chars (kind : Kind) (name : List Char) (tail : Tail) :
    utf8Size (Token.mk kind (String.ofList name) tail).chars =
      2 + kind.name.utf8ByteSize + 1 + utf8Size name + utf8Size tail.chars := by
  have hopening : utf8Size ['$', '{'] = 2 := rfl
  have hcolon : utf8Size [':'] = 1 := rfl
  have hchars : (Token.mk kind (String.ofList name) tail).chars =
      ['$', '{'] ++ kind.name.toList ++ [':'] ++ name ++ tail.chars := by
    simp [chars]
  rw [hchars, Text.utf8Size_append, Text.utf8Size_append, Text.utf8Size_append,
    Text.utf8Size_append, Text.utf8Size_toList, hopening, hcolon]

theorem byBytes?_eq {template : String} {before cs : List Char}
    (h : template.toList = before ++ '$' :: '{' :: cs) :
    byBytes? template (utf8Size before) = some ((read? ('$' :: '{' :: cs)).map fun (t, _) =>
      (t, utf8Size before + utf8Size t.chars)) := by
  have hbody : from? template (utf8Size before + 2) = some (String.ofList cs) := by
    have htwo : utf8Size before + 2 = utf8Size (before ++ ['$', '{']) := by
      rw [Text.utf8Size_append]
      rfl
    rw [htwo]
    apply Text.from?_of_append
    rw [h, List.append_assoc]
    rfl
  simp only [byBytes?, hbody, Option.bind_some, String.toList_ofList, read?]
  cases hkind : readKind? cs with
  | none => rfl
  | some found =>
      obtain ⟨kind, rest⟩ := found
      simp only [Option.bind_some]
      cases htake : Text.takeUntil nameStops rest with
      | nil => simp [Text.upTo?_of_takeUntil_nil htake, readBody?, htake]
      | cons c name =>
          cases hdrop : Text.dropUntil nameStops rest with
          | nil => simp [Text.upTo?_of_dropUntil_nil hdrop, readBody?, htake, hdrop, Tail.read?]
          | cons stop after =>
              have hstop := Text.startsIn_of_dropUntil hdrop
              have hrest : (String.ofList rest).toList = (c :: name) ++ stop :: after := by
                rw [String.toList_ofList, ← htake, ← hdrop, Text.takeUntil_append_dropUntil]
              have htake' : Text.takeUntil nameStops rest ≠ [] := by simp [htake]
              have hdrop' : Text.dropUntil nameStops rest ≠ [] := by simp [hdrop]
              have hname := Text.upTo?_of_ne_nil htake' hdrop'
              rw [htake] at hname
              simp only [hname, Text.from?_of_append hrest, Option.bind_some,
                Tail.byBytes?_eq hstop, Option.map_some, readBody?, htake, hdrop, Option.map_map]
              congr 2
              funext found
              obtain ⟨tail, left⟩ := found
              simp only [Function.comp_apply, utf8Size_chars, Prod.mk.injEq, true_and]
              omega

end Token

namespace Template

theorem passed_of_not_opens {passed rest : List Char}
    (h : ∀ before after, passed = before ++ after → after ≠ [] → opens (after ++ rest) = false) :
    Passed passed rest := by
  intro before after he hne
  apply Option.eq_none_iff_forall_not_mem.mpr
  rintro ⟨t, left⟩ hread
  obtain ⟨more, hmore⟩ := Token.opening_of_read? hread
  have hopens := h before after he hne
  rw [hmore] at hopens
  cases hopens

theorem literal?_eq {template : String} {before after pending : List Char}
    (h : template.toList = before ++ (pending.reverse ++ after)) :
    literal? template (utf8Size before) (utf8Size (before ++ pending.reverse)) =
      some ((layoutFrom (Position.past {} before) (Segment.flush pending)).map stretchOf) := by
  rw [Text.utf8Size_append]
  cases pending with
  | nil => simp [literal?, Segment.flush, layoutFrom]
  | cons c pending =>
      have hne : (c :: pending).reverse ≠ [] := by simp
      have hpos := Text.utf8Size_pos hne
      rw [literal?, if_pos (by omega), Text.cut?_of_append h]
      simp [Segment.flush, layoutFrom, stretchOf, Segment.written, Segment.chars, Position.past]

/-- One step of the scan, without the facts by which it is known to end. -/
theorem stretchesFrom?_eq (template : String) (literal pos : Nat) :
    stretchesFrom? template literal pos = (from? template pos).bind fun rest =>
      match offset? opens rest.toList with
      | none => literal? template literal template.utf8ByteSize
      | some offset =>
        (Token.byBytes? template (pos + offset)).bind fun found =>
          match found with
          | none => stretchesFrom? template literal (pos + offset + 1)
          | some (t, stop) =>
            (literal? template literal (pos + offset)).bind fun before =>
              (cut? template (pos + offset) stop).bind fun raw =>
                (stretchesFrom? template stop stop).map fun more =>
                  before ++ ⟨.token t, raw, pos + offset, stop⟩ :: more := by
  rw [stretchesFrom?]
  split
  · next hrest => rw [hrest]; rfl
  · next rest hrest =>
      rw [hrest, Option.bind_some]
      split
      · next hoffset => rw [hoffset]
      · next offset hoffset =>
          rw [hoffset]
          dsimp only
          split
          · next hread => rw [hread]; rfl
          · next hread => rw [hread]; rfl
          · next t stop hread => rw [hread]; rfl

section Step

variable {template rest : String} {literal pos : Nat} (hrest : from? template pos = some rest)

include hrest

theorem stretchesFrom?_last (hoffset : offset? opens rest.toList = none) :
    stretchesFrom? template literal pos = literal? template literal template.utf8ByteSize := by
  rw [stretchesFrom?_eq, hrest, Option.bind_some, hoffset]

variable {offset : Nat} (hoffset : offset? opens rest.toList = some offset)

include hoffset

theorem stretchesFrom?_skip (hread : Token.byBytes? template (pos + offset) = some none) :
    stretchesFrom? template literal pos = stretchesFrom? template literal (pos + offset + 1) := by
  rw [stretchesFrom?_eq, hrest, Option.bind_some, hoffset]
  dsimp only
  rw [hread, Option.bind_some]

theorem stretchesFrom?_token {t : Token} {stop : Nat} {before more : List Stretch} {raw : String}
    (hread : Token.byBytes? template (pos + offset) = some (some (t, stop)))
    (hbefore : literal? template literal (pos + offset) = some before)
    (hraw : cut? template (pos + offset) stop = some raw)
    (hmore : stretchesFrom? template stop stop = some more) :
    stretchesFrom? template literal pos =
      some (before ++ ⟨.token t, raw, pos + offset, stop⟩ :: more) := by
  rw [stretchesFrom?_eq, hrest, Option.bind_some, hoffset]
  dsimp only
  rw [hread, Option.bind_some]
  dsimp only
  rw [hbefore, Option.bind_some, hraw, Option.bind_some, hmore, Option.map_some]

end Step

theorem map_stretchOf_flush_token (before pending : List Char) (t : Token) (more : List Segment) :
    (layoutFrom (Position.past {} before) (Segment.flush pending ++ .token t :: more)).map stretchOf =
      (layoutFrom (Position.past {} before) (Segment.flush pending)).map stretchOf ++
        ⟨.token t, t.written, utf8Size (before ++ pending.reverse),
          utf8Size (before ++ pending.reverse ++ t.chars)⟩ ::
        (layoutFrom (Position.past {} (before ++ pending.reverse ++ t.chars)) more).map stretchOf := by
  have hbyte (cs : List Char) : (Position.past {} cs).byte = utf8Size cs := Nat.zero_add _
  rw [layoutFrom_append, Segment.flatMap_chars_flush, List.map_append, layoutFrom, List.map_cons,
    ← hbyte, ← hbyte, Position.past_append, Position.past_append, Position.past_append]
  rfl

/-- The invariant of the scan. Its first place stands after `before`, and from there to its second
place lies the literal text read so far, latest first. -/
def Reads (template : String) (before pending cs : List Char) : Prop :=
  stretchesFrom? template (utf8Size before) (utf8Size (before ++ pending.reverse)) =
    some ((layoutFrom (Position.past {} before) (segmentsFrom pending cs)).map stretchOf)

namespace Reads

variable {template : String} {before pending passed : List Char}

theorem last (h : template.toList = before ++ (pending.reverse ++ passed))
    (hpassed : Passed passed []) (hoffset : offset? opens passed = none) :
    Reads template before pending passed := by
  have hrest : from? template (utf8Size (before ++ pending.reverse)) =
      some (String.ofList passed) := by
    apply Text.from?_of_append
    rw [h, List.append_assoc]
  have hall : template.toList = before ++ ((passed.reverse ++ pending).reverse ++ []) := by
    rw [h, List.reverse_append, List.reverse_reverse, List.append_nil]
  have hsize : template.utf8ByteSize = utf8Size (before ++ (passed.reverse ++ pending).reverse) := by
    rw [← Text.utf8Size_toList, hall, List.append_nil]
  have hsegments := segmentsFrom_passed hpassed pending
  rw [List.append_nil] at hsegments
  rw [← String.toList_ofList (l := passed)] at hoffset
  rw [Reads, stretchesFrom?_last hrest hoffset, hsize, literal?_eq hall, hsegments, segmentsFrom]

variable {more : List Char} (h : template.toList =
  before ++ (pending.reverse ++ (passed ++ '$' :: '{' :: more)))
  (hpassed : Passed passed ('$' :: '{' :: more))
  (hoffset : offset? opens (passed ++ '$' :: '{' :: more) = some (utf8Size passed))

include h

theorem rest : from? template (utf8Size (before ++ pending.reverse)) =
    some (String.ofList (passed ++ '$' :: '{' :: more)) := by
  apply Text.from?_of_append
  rw [h, List.append_assoc]

theorem byBytes? : Token.byBytes? template (utf8Size (before ++ pending.reverse) + utf8Size passed) =
    some ((Token.read? ('$' :: '{' :: more)).map fun (t, _) =>
      (t, utf8Size (before ++ pending.reverse ++ passed ++ t.chars))) := by
  have hplace : template.toList = (before ++ pending.reverse ++ passed) ++ '$' :: '{' :: more := by
    rw [h, List.append_assoc, List.append_assoc]
  simp only [← Text.utf8Size_append, Token.byBytes?_eq hplace]

include hpassed hoffset

theorem skip (hread : Token.read? ('$' :: '{' :: more) = none)
    (next : Reads template before ('$' :: (passed.reverse ++ pending)) ('{' :: more)) :
    Reads template before pending (passed ++ '$' :: '{' :: more) := by
  have htoken := byBytes? h
  rw [hread] at htoken
  -- The dollar sign joins the literal text.
  have hpassed' : Passed ['$'] ('{' :: more) := by
    apply passed_cons_iff.mpr
    refine ⟨hread, ?_⟩
    intro a b he hne
    exact absurd (List.append_eq_nil_iff.mp he.symm).2 hne
  have hsegments := segmentsFrom_passed hpassed' (passed.reverse ++ pending)
  have hplace : utf8Size (before ++ pending.reverse) + utf8Size passed + 1 =
      utf8Size (before ++ ('$' :: (passed.reverse ++ pending)).reverse) := by
    have hone : utf8Size ['$'] = 1 := rfl
    simp only [List.reverse_cons, List.reverse_append, List.reverse_reverse, Text.utf8Size_append,
      hone]
    omega
  rw [← String.toList_ofList (l := passed ++ _)] at hoffset
  rw [Reads, stretchesFrom?_skip (rest h) hoffset htoken, hplace, next,
    segmentsFrom_passed hpassed]
  exact congrArg (fun found => some ((layoutFrom _ found).map stretchOf)) hsegments.symm

theorem token {t : Token} {left : List Char}
    (hread : Token.read? ('$' :: '{' :: more) = some (t, left))
    (next : Reads template (before ++ pending.reverse ++ passed ++ t.chars) [] left) :
    Reads template before pending (passed ++ '$' :: '{' :: more) := by
  have htoken := byBytes? h
  rw [hread, Option.map_some] at htoken
  have hchars := Token.chars_append_of_read? hread
  have hplace : utf8Size (before ++ pending.reverse ++ passed) =
      utf8Size (before ++ pending.reverse) + utf8Size passed := Text.utf8Size_append _ _
  have hpassed' : before ++ (passed.reverse ++ pending).reverse =
      before ++ pending.reverse ++ passed := by
    rw [List.reverse_append, List.reverse_reverse, List.append_assoc]
  have hall : template.toList =
      before ++ ((passed.reverse ++ pending).reverse ++ '$' :: '{' :: more) := by
    rw [← List.append_assoc, hpassed', h, List.append_assoc, List.append_assoc]
  have hliteral := literal?_eq hall
  have hraw : cut? template (utf8Size (before ++ pending.reverse ++ passed))
      (utf8Size (before ++ pending.reverse ++ passed ++ t.chars)) = some t.written := by
    rw [Text.utf8Size_append _ t.chars]
    apply Text.cut?_of_append
    rw [h, hchars, List.append_assoc, List.append_assoc]
  rw [Reads, List.reverse_nil, List.append_nil] at next
  rw [hpassed', hplace] at hliteral
  rw [hplace] at hraw
  rw [← String.toList_ofList (l := passed ++ _)] at hoffset
  rw [Reads, stretchesFrom?_token (rest h) hoffset htoken hliteral hraw next,
    segmentsFrom_passed hpassed, segmentsFrom_of_read? hread, map_stretchOf_flush_token, hpassed',
    hplace]

end Reads

theorem reads {template : String} {before pending cs : List Char}
    (h : template.toList = before ++ (pending.reverse ++ cs)) :
    Reads template before pending cs := by
  -- The induction is on what is left to scan, at a place that moves through it.
  induction hlength : cs.length using Nat.strong_induction_on generalizing before cs pending with
  | h n ih =>
    obtain ⟨passed, rest, rfl, hpassed, hend⟩ := Text.offset?_cases opens cs
    have hpassed' := passed_of_not_opens hpassed
    rcases hend with ⟨rfl, hnone⟩ | ⟨-, hopens, hsome⟩
    · rw [List.append_nil] at h hnone ⊢
      exact Reads.last h hpassed' hnone
    · obtain ⟨more, rfl⟩ := List.isPrefixOf_iff_prefix.mp hopens
      change template.toList = before ++ (pending.reverse ++ (passed ++ '$' :: '{' :: more)) at h
      have hless : ('{' :: more).length < n := by
        rw [← hlength]
        simp [opening]
        omega
      cases hread : Token.read? ('$' :: '{' :: more) with
      | none =>
          apply Reads.skip h hpassed' hsome hread
          refine ih _ hless ?_ rfl
          rw [h]
          simp
      | some found =>
          obtain ⟨t, left⟩ := found
          have hless' : left.length < n := by
            have hlt := Token.length_lt_of_read? hread
            simp only [List.length_cons] at hlt hless
            omega
          apply Reads.token h hpassed' hsome hread
          refine ih _ hless' ?_ rfl
          rw [h, Token.chars_append_of_read? hread]
          simp

theorem stretches?_eq (template : String) : stretches? template = some (stretches template) := by
  have h : template.toList = [] ++ (([] : List Char).reverse ++ template.toList) := rfl
  exact reads h

/-- Scanning is lossless and canonical. No cut fails that the scan by bytes makes, and it finds the
segments of the template, each with its text and place. The texts one after the other are the
template, no literal is empty or next to another, and the segments cover the template without gaps.
The tokens among them are those of the scan: each within the template, where its text stands, and
behind the one before. -/
theorem scan_canonical (template : String) :
    stretches? template = some (stretches template) ∧
    (stretches template).map Stretch.segment = segments template ∧
    (stretches template).map Stretch.text = (segments template).map Segment.written ∧
    String.join ((stretches template).map Stretch.text) = template ∧
    Canonical (segments template) ∧
    Tiles template 0 (stretches template) ∧
    (scan template).map Placed.stretch =
      (stretches template).filter (fun s => s.segment.token?.isSome) ∧
    (scan template).Pairwise (fun q r => q.start.byte < r.start.byte ∧ q.stopByte ≤ r.start.byte) ∧
    (∀ q ∈ scan template, q.start.byte < q.stopByte ∧ q.stopByte ≤ template.utf8ByteSize ∧
      cut? template q.start.byte q.stopByte = some q.token.written) := by
  have htiles := tiles_stretches template
  have hscan := map_stretch_scan template
  refine ⟨stretches?_eq template, map_segment_stretches template, map_text_stretches template, ?_,
    canonical_segments template, htiles, hscan, ?_, fun q hq => place_of_mem_scan hq⟩
  · rw [map_text_stretches]
    exact join_segments template
  · have hpairs := htiles.pairwise.filter fun s => s.segment.token?.isSome
    rw [← hscan, List.pairwise_map] at hpairs
    apply hpairs.imp_of_mem
    intro q r hq _ hle
    exact ⟨Nat.lt_of_lt_of_le (place_of_mem_scan hq).1 hle, hle⟩

end Template
end Placeholder
