import Placeholder.Template
import Placeholder.Registry
import Placeholder.RunError

/-!
# Substitution

A template is rendered segment by segment from left to right. A token of a kind that has a source
causes one lookup; what its answer means depends on the tail of the token:

* a value is inserted, also an empty one, and never scanned again;
* without a value a required token stops the run, and any other gives its fallback, else itself;
* a failed lookup counts as no value, but stops the run when the token is required.

A token of a kind that has no source causes no lookup. It stays as written or, when required,
stops the run. Nothing is rendered when the run stops.
-/
namespace Placeholder

/-- How a token was rendered. -/
inductive Outcome where
  /-- By a value of its source. -/
  | resolved
  /-- By its fallback. -/
  | defaulted
  /-- As written. -/
  | verbatim
  deriving DecidableEq, Repr

/-- A segment of a rendered template. -/
inductive Piece where
  | literal (text : String)
  | token (t : Token) (outcome : Outcome) (text : String)
  deriving DecidableEq, Repr

namespace Piece

def text : Piece → String
  | literal text => text
  | token _ _ text => text

/-- What a report says of the piece: kind, name and outcome of a token, never its value. -/
def entry? : Piece → Option (Kind × String × Outcome)
  | literal _ => none
  | token t outcome _ => some (t.kind, t.name, outcome)

end Piece

structure Rendering where
  pieces : List Piece
  deriving DecidableEq, Repr

namespace Rendering

def output (r : Rendering) : String := String.join (r.pieces.map Piece.text)

/-- The tokens in order, with what became of them. -/
def report (r : Rendering) : List (Kind × String × Outcome) := r.pieces.filterMap Piece.entry?

def count (r : Rendering) (outcome : Outcome) : Nat :=
  r.report.countP fun (_, _, o) => o = outcome

end Rendering

/-- What ends a run before its time. -/
inductive Stop where
  | error (e : RunError)
  | crash (c : Crash)
  deriving DecidableEq, Repr

namespace Token

/-- What a token becomes when its source has no value for it. -/
def withoutValue (t : Token) : Except Stop Piece :=
  match t.tail with
  | .required => .error (.error (.missing t.kind t.name))
  | .fallback text => .ok (.token t .defaulted text)
  | .plain => .ok (.token t .verbatim t.written)

/-- What a token becomes when its kind has no source. -/
def withoutSource (t : Token) : Except Stop Piece :=
  if t.required then .error (.error (.unconfigured t.kind t.name))
  else .ok (.token t .verbatim t.written)

/-- What a token becomes by the answer of its source. -/
def withAnswer (t : Token) : Answer → Except Stop Piece
  | .ok (some value) => .ok (.token t .resolved value)
  | .ok none => t.withoutValue
  | .error (.error e) =>
    if t.required then .error (.error (.fetch t.kind t.name e)) else t.withoutValue
  | .error (.crash c) => .error (.crash c)

end Token

namespace Registry

variable {ω : Type}

def resolve (r : Registry ω) (t : Token) (w : ω) : Except Stop Piece × ω :=
  match r.source? t.kind with
  | none => (t.withoutSource, w)
  | some source =>
    let (answer, w) := source.ask t.name w
    (t.withAnswer answer, w)

/-- Renders segments in order, up to the first token that stops the run. -/
def renderSegments (r : Registry ω) : List Segment → ω → Except Stop (List Piece) × ω
  | [], w => (.ok [], w)
  | .literal text :: rest, w =>
    match r.renderSegments rest w with
    | (.ok pieces, w) => (.ok (.literal text :: pieces), w)
    | (.error stop, w) => (.error stop, w)
  | .token t :: rest, w =>
    match r.resolve t w with
    | (.error stop, w) => (.error stop, w)
    | (.ok piece, w) =>
      match r.renderSegments rest w with
      | (.ok pieces, w) => (.ok (piece :: pieces), w)
      | (.error stop, w) => (.error stop, w)

/-- Renders a template and keeps what became of each token. -/
def render (r : Registry ω) (template : String) (w : ω) : Except Stop Rendering × ω :=
  match r.renderSegments (Template.segments template) w with
  | (.ok pieces, w) => (.ok ⟨pieces⟩, w)
  | (.error stop, w) => (.error stop, w)

end Registry

inductive Substituted where
  /-- The template holds no token and is its own result. -/
  | unchanged
  | rendered (text : String)
  deriving DecidableEq, Repr

def Substituted.output (template : String) : Substituted → String
  | unchanged => template
  | rendered text => text

namespace Template

/-- Some place of the text could start a token. -/
def mayHoldToken (template : String) : Bool := opens template.toList
where
  opens : List Char → Bool
    | '$' :: '{' :: _ => true
    | _ :: rest => opens rest
    | [] => false

def holdsToken (segments : List Segment) : Bool := segments.any fun s => s.token?.isSome

end Template

/-- Renders a template; one without tokens is given back as it is, and no source is asked. -/
def Registry.substitute {ω : Type} (r : Registry ω) (template : String) (w : ω) :
    Except Stop Substituted × ω :=
  if !Template.mayHoldToken template then (.ok .unchanged, w)
  else
    let segments := Template.segments template
    if !Template.holdsToken segments then (.ok .unchanged, w)
    else
      match r.renderSegments segments w with
      | (.ok pieces, w) => (.ok (.rendered (Rendering.mk pieces).output), w)
      | (.error stop, w) => (.error stop, w)

end Placeholder
