import Placeholder.Program.Run
import Placeholder.Proofs.Template.Growing
import Placeholder.Proofs.Text.Lines

/-!
# What a listing shows

A scan of a template with tokens lists them: a heading, and then one entry for each token, in their
order. An entry begins a line of its own with the line of the template on which the token starts.
Names and fallbacks are shown as they stand, so an entry has as many line breaks as its token
(`run_scan_lists`), and it takes one line only if that has none (`run_scan_brokenToken`).
-/
namespace Placeholder

/-! ## Places -/

namespace Template

/-- One place is not behind the other, in bytes and in lines. -/
structure Position.Before (p q : Position) : Prop where
  byte : p.byte ≤ q.byte
  line : p.line ≤ q.line

theorem Position.Before.trans {p q r : Position} (h : p.Before q) (h' : q.Before r) :
    p.Before r :=
  ⟨Nat.le_trans h.byte h'.byte, Nat.le_trans h.line h'.line⟩

theorem Position.before_past (p : Position) (cs : List Char) : p.Before (p.past cs) :=
  ⟨Nat.le_add_right _ _, Nat.le_add_right _ _⟩

theorem before_of_mem_layoutFrom {p : Position} {segments : List Segment}
    {placed : Position × Segment} (h : placed ∈ layoutFrom p segments) : p.Before placed.1 := by
  obtain ⟨before, after, -, hplace⟩ := exists_of_mem_layoutFrom h
  rw [hplace]
  exact p.before_past _

theorem pairwise_layoutFrom (p : Position) (segments : List Segment) :
    (layoutFrom p segments).Pairwise fun a b => (a.1.past a.2.chars).Before b.1 := by
  induction segments generalizing p with
  | nil => exact List.Pairwise.nil
  | cons s segments ih => exact List.Pairwise.cons (fun b hb => before_of_mem_layoutFrom hb) (ih _)

/-- A token of a scan starts behind the end of every one before it. -/
theorem pairwise_scan (template : String) : (scan template).Pairwise fun p q =>
    (p.start.past p.token.chars).Before q.start := by
  refine (pairwise_layoutFrom {} (segments template)).filterMap _ ?_
  rintro ⟨p, s⟩ ⟨q, u⟩ hbefore a ha b hb
  obtain ⟨t, ht, rfl⟩ := Option.map_eq_some_iff.mp ha
  obtain ⟨t', ht', rfl⟩ := Option.map_eq_some_iff.mp hb
  cases s with
  | literal text => cases ht
  | token t =>
      cases ht
      exact hbefore

/-- The token stands behind this text in the template, and its place is the end of that text. -/
structure Placed.Stands (template : String) (p : Placed) (before after : List Char) : Prop where
  text : template.toList = before ++ (p.token.chars ++ after)
  byte : p.start.byte = Text.utf8Size before
  line : p.start.line = before.count '\n' + 1

theorem stands_of_mem_scan {template : String} {p : Placed} (hp : p ∈ scan template) :
    ∃ before after, p.Stands template before after := by
  obtain ⟨before, after, hsegments, hstart⟩ := exists_of_mem_scan hp
  refine ⟨before.flatMap Segment.chars, after.flatMap Segment.chars, ?_, ?_, ?_⟩
  · rw [← chars_segments, hsegments, List.flatMap_append, List.flatMap_cons]
    rfl
  · rw [hstart]
    exact Nat.zero_add _
  · rw [hstart]
    exact Nat.add_comm _ _

end Template

namespace Program

open Text (breaks lines)

/-! ## Parts without line breaks -/

theorem breaks_paint (colours : Bool) (p : Paint) (s : String) :
    breaks (paint colours p s) = breaks s := by
  have hcode : breaks p.code = 0 := by cases p <;> decide
  have hstart : breaks "\x1b[" = 0 := by decide
  have hclose : breaks "m" = 0 := by decide
  have hreset : breaks "\x1b[0m" = 0 := by decide
  unfold paint
  split
  · simp only [Text.breaks_append, hcode, hstart, hclose, hreset, Nat.zero_add, Nat.add_zero]
  · rfl

theorem breaks_toString (n : Nat) : breaks (toString n) = 0 := by
  rw [breaks, Nat.toString_eq_ofList_toDigits, String.toList_ofList, List.count_eq_zero]
  intro hmem
  exact absurd (Nat.isDigit_of_mem_toDigits (by decide) (by decide) hmem) (by decide)

theorem toList_pushn (s : String) (c : Char) (n : Nat) :
    (s.pushn c n).toList = s.toList ++ List.replicate n c := by
  induction n with
  | zero => exact (List.append_nil _).symm
  | succ n ih =>
      have hstep : s.pushn c (n + 1) = (s.pushn c n).push c := rfl
      rw [hstep, String.toList_push, ih, List.append_assoc, ← List.replicate_succ']

/-- A number stands at the right of its column, behind blanks. -/
theorem toList_column (n : Nat) : (column n).toList =
    List.replicate (4 - (toString n).length) ' ' ++ (toString n).toList := by
  rw [column, String.toList_append, toList_pushn]
  rfl

theorem breaks_column (n : Nat) : breaks (column n) = 0 := by
  have hdigits := breaks_toString n
  rw [breaks] at hdigits ⊢
  rw [toList_column, List.count_append, hdigits, List.count_replicate]
  rfl

theorem breaks_kindText (colours : Bool) (kind : Kind) : breaks (kindText colours kind) = 0 := by
  rw [kindText, breaks_paint]
  cases kind <;> decide

/-! ## Entries -/

variable (colours : Bool)

/-- The heading of a listing, for a number of tokens. -/
def heading (file : String) (n : Nat) : String :=
  paint colours .cyan "→" ++ " " ++ toString n ++ " placeholder(s) in '" ++ file ++ "'"

/-- What an entry begins with. -/
def lead (p : Template.Placed) : String :=
  "  " ++ column p.start.line ++ "  " ++ kindText colours p.token.kind ++ ":"

/-- What an entry shows of a token. -/
def entry (p : Template.Placed) : String :=
  lead colours p ++ (p.token.name ++ "  " ++ marker colours p.token)

theorem tokenLine_eq (p : Template.Placed) : tokenLine colours p = entry colours p ++ "\n" := by
  simp only [tokenLine, line, entry, lead, String.append_assoc]

theorem listing_eq (file : String) {template : String} (h : Template.scan template ≠ []) :
    listing colours file template =
      heading colours file (Template.scan template).length ++ "\n" ++
        String.join (((Template.scan template).map (entry colours)).map (· ++ "\n")) := by
  have hentries : (Template.scan template).map (tokenLine colours) =
      ((Template.scan template).map (entry colours)).map (· ++ "\n") := by
    rw [List.map_map]
    exact List.map_congr_left fun p _ => tokenLine_eq colours p
  have hempty : (Template.scan template).isEmpty = false := by simpa using h
  simp only [listing, hempty, Bool.false_eq_true, if_false, hentries]
  rfl

theorem breaks_heading (file : String) (n : Nat) :
    breaks (heading colours file n) = breaks file := by
  have harrow : breaks "→" = 0 := by decide
  have hblank : breaks " " = 0 := by decide
  have hwords : breaks " placeholder(s) in '" = 0 := by decide
  have hquote : breaks "'" = 0 := by decide
  simp only [heading, Text.breaks_append, breaks_paint, breaks_toString, harrow, hblank, hwords,
    hquote, Nat.zero_add, Nat.add_zero]

theorem breaks_lead (p : Template.Placed) : breaks (lead colours p) = 0 := by
  have hblanks : breaks "  " = 0 := by decide
  have hcolon : breaks ":" = 0 := by decide
  simp only [lead, Text.breaks_append, breaks_column, breaks_kindText, hblanks, hcolon]

theorem toList_lead (p : Template.Placed) : (lead colours p).toList =
    List.replicate (2 + (4 - (toString p.start.line).length)) ' ' ++
      ((toString p.start.line).toList ++
        ("  " ++ kindText colours p.token.kind ++ ":").toList) := by
  have hblanks : "  ".toList = List.replicate 2 ' ' := rfl
  rw [List.replicate_add, ← hblanks]
  simp only [lead, String.toList_append, toList_column, List.append_assoc]

theorem breaks_marker (t : Token) : breaks (marker colours t) = t.tail.chars.count '\n' := by
  obtain ⟨kind, name, tail⟩ := t
  cases tail with
  | plain =>
      simp only [marker, breaks_paint]
      decide
  | required =>
      simp only [marker, breaks_paint]
      decide
  | fallback text =>
      have hdefault : breaks "default: " = 0 := by decide
      rw [marker, Text.breaks_append, hdefault, Nat.zero_add]
      simp [Tail.chars, breaks]

theorem count_chars (t : Token) :
    t.chars.count '\n' = breaks t.name + t.tail.chars.count '\n' := by
  have hkind : t.kind.name.toList.count '\n' = 0 := by cases t.kind <;> decide
  simp [Token.chars, hkind, breaks]

/-- What is shown behind the beginning of an entry has the line breaks of the token. -/
theorem breaks_shown (t : Token) :
    breaks (t.name ++ "  " ++ marker colours t) = t.chars.count '\n' := by
  have hblanks : breaks "  " = 0 := by decide
  rw [Text.breaks_append, Text.breaks_append, hblanks, breaks_marker, count_chars, Nat.add_zero]

/-- An entry begins with its number and kind, and each line break of its token continues it on
another line. -/
theorem lines_entry (p : Template.Placed) : ∃ first more,
    lines (entry colours p) = (lead colours p ++ first) :: more ∧
      more.length = p.token.chars.count '\n' := by
  rw [← breaks_shown colours p.token]
  exact Text.lines_append_of_breaks (breaks_lead colours p) _

theorem lines_entry_of_count {p : Template.Placed} (h : p.token.chars.count '\n' = 0) :
    lines (entry colours p) = [entry colours p] := by
  apply Text.lines_of_breaks
  rw [entry, Text.breaks_append, breaks_lead, breaks_shown, h]

/-! ## Listings -/

theorem lines_listing (file : String) {template : String} (h : Template.scan template ≠ []) :
    lines (listing colours file template) =
      lines (heading colours file (Template.scan template).length) ++
        (Template.scan template).flatMap (fun p => lines (entry colours p)) ++ [""] := by
  rw [listing_eq colours file h, Text.lines_append_break, Text.lines_join, List.flatMap_map,
    List.append_assoc]

variable {ω : Type} {out : Outside ω} {s : Start} {w : ω} {file template : String}

theorem run_scan (hcommand : Command.ofWords s.words = .ok (.scan file))
    (hread : Program.template s file = .ok template) : run out s w =
      (.ok { stdout := listing (Program.colours s.environment) file template, files := s.files },
        w) := by
  simp only [run, hcommand, scan, hread]

/-- Where nothing has a line break, each entry takes one line. -/
theorem lines_listing_of_count (hfile : breaks file = 0)
    (hnone : ∀ p ∈ Template.scan template, p.token.chars.count '\n' = 0)
    (htokens : Template.scan template ≠ []) : lines (listing colours file template) =
      heading colours file (Template.scan template).length ::
        (Template.scan template).map (entry colours) ++ [""] := by
  have hheading : breaks (heading colours file (Template.scan template).length) = 0 := by
    rw [breaks_heading, hfile]
  have hentries : (Template.scan template).flatMap (fun p => lines (entry colours p)) =
      (Template.scan template).map (entry colours) := by
    rw [← List.flatMap_singleton' ((Template.scan template).map (entry colours)), List.flatMap_map]
    exact List.flatMap_congr fun p hp => lines_entry_of_count colours (hnone p hp)
  rw [lines_listing colours file htokens, Text.lines_of_breaks hheading, hentries]
  rfl

/-- A scan of a template with tokens ends well and changes nothing. What it puts out is a heading
with the number of tokens, and one entry for each of them, in their order in the template. Each
entry begins a line, with the line of the template on which the opening of the token stands, so these
numbers never go down, and with its kind. It goes on with the name and what happens without a value,
as they stand, so it takes one line and one more for each line break that the token has. -/
theorem run_scan_lists (hcommand : Command.ofWords s.words = .ok (.scan file))
    (hread : Program.template s file = .ok template) (htokens : Template.scan template ≠ []) :
    let colours := Program.colours s.environment
    let tokens := Template.scan template
    let heading := heading colours file tokens.length
    let stdout := heading ++ "\n" ++ String.join ((tokens.map (entry colours)).map (· ++ "\n"))
    run out s w = (.ok { stdout, files := s.files }, w) ∧
      lines stdout = lines heading ++ tokens.flatMap (fun p => lines (entry colours p)) ++ [""] ∧
      (lines heading).length = breaks file + 1 ∧
      (∀ p ∈ tokens,
        (∃ before after, p.Stands template before after) ∧
        (∃ blanks, (lead colours p).toList = List.replicate blanks ' ' ++
          ((toString p.start.line).toList ++
            ("  " ++ kindText colours p.token.kind ++ ":").toList)) ∧
        (∃ first more, lines (entry colours p) = (lead colours p ++ first) :: more ∧
          more.length = p.token.chars.count '\n')) ∧
      tokens.Pairwise (fun p q =>
        p.stopByte ≤ q.start.byte ∧ p.start.line ≤ q.start.line) ∧
      (breaks file = 0 → (∀ p ∈ tokens, p.token.chars.count '\n' = 0) →
        lines stdout = heading :: tokens.map (entry colours) ++ [""]) := by
  intro colours tokens heading stdout
  have hlisting : listing colours file template = stdout := listing_eq colours file htokens
  refine ⟨?_, ?_, ?_, ?_, ?_, ?_⟩
  · rw [run_scan hcommand hread, hlisting]
  · rw [← hlisting]
    exact lines_listing colours file htokens
  · rw [Text.length_lines, breaks_heading]
  · intro p hp
    exact ⟨Template.stands_of_mem_scan hp, ⟨_, toList_lead colours p⟩, lines_entry colours p⟩
  · apply (Template.pairwise_scan template).imp
    intro p q hbefore
    have hstart := (p.start.before_past p.token.chars).trans hbefore
    exact ⟨hbefore.byte, hstart.line⟩
  · intro hfile hnone
    rw [← hlisting]
    exact lines_listing_of_count colours hfile hnone htokens

/-- Scans the template in a file `t`. -/
def scanning (template : String) : Start where
  words := ["scan", "t"]
  environ := []
  files := { directory := [], contents := [(["t"], template.toUTF8)] }

theorem template_of_toOption (h : (Program.template s file).toOption = some template) :
    Program.template s file = .ok template := by
  cases hread : Program.template s file with
  | error e =>
      rw [hread] at h
      cases h
  | ok text =>
      rw [hread] at h
      exact congrArg _ (Option.some.inj h)

/-- Two tokens without line breaks, the second one on the second line. -/
def twoTokens : String := "$\x7bvars:A:1\x7d\n$\x7benv:B!\x7d"

theorem run_scan_lists_twoTokens : ∃ stdout,
    run (Outside.isolated 0) (scanning twoTokens) 0 =
      (.ok { stdout, files := (scanning twoTokens).files }, 0) ∧
    lines stdout =
      ["→ 2 placeholder(s) in 't'", "     1  vars:A  default: 1", "     2  env:B  required", ""] := by
  have htokens : Template.scan twoTokens =
      [⟨⟨.vars, "A", .fallback "1"⟩, {}⟩, ⟨⟨.env, "B", .required⟩, ⟨12, 2⟩⟩] := by decide +kernel
  have hne : Template.scan twoTokens ≠ [] := by simp [htokens]
  have hread : Program.template (scanning twoTokens) "t" = .ok twoTokens :=
    template_of_toOption (by decide +kernel)
  obtain ⟨hrun, -, -, -, -, hlines⟩ :=
    @run_scan_lists Nat (Outside.isolated 0) (scanning twoTokens) 0 "t" twoTokens rfl hread hne
  refine ⟨_, hrun, ?_⟩
  have hcolours : Program.colours (scanning twoTokens).environment = false := by decide +kernel
  have hnone : ∀ p ∈ Template.scan twoTokens, p.token.chars.count '\n' = 0 := by
    rw [htokens]
    decide
  rw [hlines (by decide) hnone, htokens, hcolours]
  decide +kernel

/-- A token with a line break in its name. -/
def brokenToken : String := "$\x7bvars:A\nB\x7d"

/-- The entry of the only token takes two lines. -/
theorem run_scan_brokenToken :
    Template.scan brokenToken = [⟨⟨.vars, "A\nB", .plain⟩, {}⟩] ∧ ∃ stdout,
      run (Outside.isolated 0) (scanning brokenToken) 0 =
        (.ok { stdout, files := (scanning brokenToken).files }, 0) ∧
      lines stdout = ["→ 1 placeholder(s) in 't'", "     1  vars:A", "B  optional", ""] := by
  have hread : Program.template (scanning brokenToken) "t" = .ok brokenToken :=
    template_of_toOption (by decide +kernel)
  exact ⟨by decide +kernel, _, run_scan rfl hread, by decide +kernel⟩

end Program
end Placeholder
