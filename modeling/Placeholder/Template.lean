import Placeholder.Token

/-!
# Templates

A template is cut into literal text and tokens in one pass. At a place where no token starts the
scan moves on by one character, so a failed candidate may overlap a later token.
`Template.chars_segments` says that the segments written one after the other are the template.
-/
namespace Placeholder

/-- A stretch of a template. -/
inductive Segment where
  | literal (text : String)
  | token (t : Token)
  deriving DecidableEq, Repr

namespace Segment

/-- The segment as it stands in the template. -/
def chars : Segment → List Char
  | literal text => text.toList
  | token t => t.chars

def written (s : Segment) : String := String.ofList s.chars

def token? : Segment → Option Token
  | literal _ => none
  | token t => some t

/-- The literal made of the characters read so far, latest first; no segment for none. -/
def flush : (pending : List Char) → List Segment
  | [] => []
  | pending => [literal (String.ofList pending.reverse)]

theorem flatMap_chars_flush (pending : List Char) :
    (flush pending).flatMap chars = pending.reverse := by
  cases pending <;> simp [flush, chars]

end Segment

namespace Template

/-- The segments of the literal text read so far (latest character first) and of what follows. -/
def segmentsFrom (pending : List Char) (cs : List Char) : List Segment :=
  match cs with
  | [] => Segment.flush pending
  | c :: cs =>
    match _found : Token.read? (c :: cs) with
    | some (t, rest) => Segment.flush pending ++ .token t :: segmentsFrom [] rest
    | none => segmentsFrom (c :: pending) cs
termination_by cs.length
decreasing_by
  · exact Token.length_lt_of_read? _found
  · simp

def segments (template : String) : List Segment := segmentsFrom [] template.toList

theorem chars_segmentsFrom (pending cs : List Char) :
    (segmentsFrom pending cs).flatMap Segment.chars = pending.reverse ++ cs := by
  fun_induction segmentsFrom pending cs with
  | case1 pending => simp [Segment.flatMap_chars_flush]
  | case2 pending c cs t rest h ih =>
    simp [Segment.flatMap_chars_flush, Segment.chars, ih, Token.chars_append_of_read? h]
  | case3 pending c cs h ih => simp [ih]

theorem chars_segments (template : String) :
    (segments template).flatMap Segment.chars = template.toList := by
  simp [segments, chars_segmentsFrom]

structure Position where
  /-- Bytes of UTF-8 before it. -/
  byte : Nat := 0
  /-- Its line, counted from 1. -/
  line : Nat := 1
  deriving DecidableEq, Repr

namespace Position

/-- The place after a text that starts here. -/
def past (p : Position) (cs : List Char) : Position :=
  ⟨p.byte + Text.utf8Size cs, p.line + cs.count '\n'⟩

@[simp] theorem past_nil (p : Position) : p.past [] = p := rfl

theorem past_append (p : Position) (a b : List Char) : p.past (a ++ b) = (p.past a).past b := by
  simp [past, Nat.add_assoc]

end Position

/-- Each segment with the place at which it starts. -/
def layoutFrom (p : Position) : List Segment → List (Position × Segment)
  | [] => []
  | s :: rest => (p, s) :: layoutFrom (p.past s.chars) rest

def layout (template : String) : List (Position × Segment) :=
  layoutFrom {} (segments template)

/-- A token and where it starts. -/
structure Placed where
  token : Token
  start : Position
  deriving DecidableEq, Repr

namespace Placed

def stopByte (p : Placed) : Nat := (p.start.past p.token.chars).byte

end Placed

def scan (template : String) : List Placed :=
  (layout template).filterMap fun (p, s) => s.token?.map fun t => ⟨t, p⟩

theorem map_snd_layoutFrom (p : Position) (segments : List Segment) :
    (layoutFrom p segments).map Prod.snd = segments := by
  induction segments generalizing p with
  | nil => rfl
  | cons s rest ih => simp [layoutFrom, ih]

theorem map_token_scan (template : String) :
    (scan template).map Placed.token = (segments template).filterMap Segment.token? := by
  rw [← map_snd_layoutFrom {} (segments template)]
  simp only [scan, layout, List.map_filterMap, List.filterMap_map]
  congr 1
  funext ⟨p, s⟩
  cases s <;> rfl

end Template
end Placeholder
