import Placeholder.Environment
import Placeholder.Files
import Placeholder.Text.Blank

/-!
# Files of variables

A file may give variables that the environment does not have yet, one assignment a line. Values
stand bare, in single quotes or in double quotes, run over lines while a quote is open, and may
name earlier variables after a dollar sign. Reading stops at the first line that is no assignment;
what was read before it counts. Which characters beyond ASCII are letters or digits in the name of
a variable is told by whole blocks of characters only.
-/
namespace Placeholder.Assignments

/-! ## Lines -/

/-- What is open while a line is cut off. -/
inductive Open where
  | nothing
  /-- A blank came just before, after which a mark begins a comment. -/
  | blank
  | escape
  | single
  | singleEscape
  | double
  | doubleEscape
  deriving DecidableEq, Repr

def isLineEnd (c : Char) : Bool := c == '\n' || c == '\r'

/-- What is open after a character; none when it begins a comment. -/
def Open.next : Open → Char → Option Open
  | .blank, '#' => none
  | .nothing, '\\' => some .escape
  | .blank, '\\' => some .escape
  | .nothing, '"' => some .double
  | .blank, '"' => some .double
  | .nothing, '\'' => some .single
  | .blank, '\'' => some .single
  | .nothing, c => some (if Text.isBlank c && !isLineEnd c then .blank else .nothing)
  | .blank, _ => some .nothing
  | .escape, _ => some .nothing
  | .double, '\\' => some .doubleEscape
  | .double, '"' => some .nothing
  | .double, _ => some .double
  | .doubleEscape, _ => some .double
  | .single, '\\' => some .singleEscape
  | .single, '\'' => some .nothing
  | .single, _ => some .single
  | .singleEscape, _ => some .single

/-- Goes along a line: what stands before a comment, and what is open at the end of a line without
one. -/
def Open.along : Open → List Char → List Char × Option Open
  | state, [] => ([], some state)
  | state, c :: rest =>
    match state.next c with
    | none => ([], none)
    | some state =>
      let (kept, last) := along state rest
      (c :: kept, last)

def withoutEnd (line : List Char) : List Char :=
  match line.reverse with
  | '\n' :: '\r' :: rest => rest.reverse
  | '\n' :: rest => rest.reverse
  | _ => line

def trimStart (cs : List Char) : List Char := cs.dropWhile Text.isBlank

/-- Joins lines while a quote is open; none marks a place where reading breaks off. A line is none
when it is no text. -/
def joined : (before : List Char) → Open → List (Option (List Char)) → List (Option (List Char))
  | _, state, [] => if state = .nothing then [] else [none]
  | _, _, none :: _ => [none]
  | before, state, some line :: rest =>
    if (trimStart (before ++ line)).head? = some '#' then some [] :: joined [] .nothing rest
    else
      match state.along line with
      | (kept, none) => some (before ++ kept) :: joined [] .nothing rest
      | (_, some .nothing) => some (withoutEnd (before ++ line)) :: joined [] .nothing rest
      | (_, some state) => joined (before ++ line) state rest

def cutLines : List UInt8 → List (List UInt8)
  | [] => []
  | b :: rest =>
    match b, cutLines rest with
    | 10, lines => [10] :: lines
    | b, [] => [[b]]
    | b, line :: lines => (b :: line) :: lines

def textOf? (line : List UInt8) : Option (List Char) :=
  (String.fromUTF8? ⟨line.toArray⟩).map String.toList

def withoutMark : List UInt8 → List UInt8
  | 0xEF :: 0xBB :: 0xBF :: rest => rest
  | bytes => bytes

/-! ## Values -/

/-- The blocks of letters and digits beyond ASCII. -/
def letterBlocks : List (Nat × Nat) :=
  [(0xAA, 0xAA), (0xB2, 0xB3), (0xB5, 0xB5), (0xB9, 0xBA), (0xBC, 0xBE), (0xC0, 0xD6),
    (0xD8, 0xF6), (0xF8, 0x2C1), (0x370, 0x374), (0x376, 0x37D), (0x386, 0x386),
    (0x388, 0x481), (0x48A, 0x559), (0x561, 0x588), (0x5D0, 0x5F2), (0x620, 0x64A),
    (0x660, 0x669), (0x66E, 0x66F), (0x671, 0x6D3), (0x904, 0x939), (0xE01, 0xE30),
    (0x10A0, 0x10FF), (0x1100, 0x1248), (0x1E00, 0x1FBC), (0x2150, 0x2189), (0x3005, 0x3007),
    (0x3041, 0x3096), (0x30A1, 0x30FA), (0x3105, 0x318E), (0x3400, 0x4DBF), (0x4E00, 0x9FFF),
    (0xA000, 0xA48C), (0xAC00, 0xD7A3), (0xF900, 0xFAD9), (0xFF10, 0xFF19), (0xFF21, 0xFF3A),
    (0xFF41, 0xFF5A), (0xFF66, 0xFFDC), (0x20000, 0x2FA1D)]

def isLetterOrDigit (c : Char) : Bool :=
  c.isAlphanum || letterBlocks.any fun (a, b) => a ≤ c.toNat && c.toNat ≤ b

/-- A variable whose name is being read. -/
inductive Naming where
  | bare (name : List Char)
  | braced (name : List Char)

/-- Where the reading of a value stands. Text is kept last character first. -/
structure Reading where
  single : Bool := false
  double : Bool := false
  escaped : Bool := false
  /-- A blank has ended the value. -/
  ended : Bool := false
  naming : Option Naming := none
  out : List Char := []

namespace Reading

variable (env : Environment)

def valueOf (reversed : List Char) : List Char :=
  ((env.get? (String.ofList reversed.reverse)).getD "").toList

def push (r : Reading) (c : Char) : Reading := { r with out := c :: r.out }

/-- Puts the value of a variable in place of its name. -/
def resolve (r : Reading) (name : List Char) : Reading :=
  { r with naming := none, out := (valueOf env name).reverse ++ r.out }

/-- The characters that may stand after a backslash, and what they stand for. -/
def escapes : List (Char × Char) :=
  [('\\', '\\'), ('\'', '\''), ('"', '"'), ('$', '$'), (' ', ' '), ('n', '\n')]

/-- Goes on inside the name of a variable. -/
def nextInName (r : Reading) (n : Naming) (c : Char) : Reading :=
  match n with
  | .bare name =>
    if isLetterOrDigit c then { r with naming := some (.bare (c :: name)) }
    else if c = '{' && name.isEmpty then { r with naming := some (.braced []) }
    else
      let r := r.resolve env name
      if c = '$' then { r with naming := some (.bare []) } else r.push c
  | .braced name =>
    if isLetterOrDigit c then { r with naming := some (.braced (c :: name)) }
    else if c = '}' then r.resolve env name
    else { r with naming := some (.braced (c :: name)) }

/-- Goes on outside of a name and of single quotes. -/
def nextPlain (r : Reading) (c : Char) : Reading :=
  if c = '$' then { r with naming := some (.bare []) }
  else if r.double then
    if c = '"' then { r with double := false }
    else if c = '\\' then { r with escaped := true }
    else r.push c
  else if c = '\'' then { r with single := true }
  else if c = '"' then { r with double := true }
  else if c = '\\' then { r with escaped := true }
  else if c = ' ' || c = '\t' then { r with ended := true }
  else r.push c

/-- The value when nothing follows; none while a quote or a brace is open. -/
def finish (r : Reading) : Option String :=
  if r.single || r.double then none
  else
    match r.naming with
    | some (.braced _) => none
    | some (.bare name) => some (String.ofList (r.resolve env name).out.reverse)
    | none => some (String.ofList r.out.reverse)

def value? : Reading → List Char → Option String
  | r, [] => r.finish env
  | r, c :: rest =>
    if r.ended then
      if c = ' ' || c = '\t' then value? r rest
      else if c = '#' then r.finish env
      else none
    else if r.escaped then
      match escapes.lookup c with
      | some e => value? { r.push e with escaped := false } rest
      | none => none
    else if r.single then
      value? (if c = '\'' then { r with single := false } else r.push c) rest
    else
      match r.naming with
      | some n => value? (r.nextInName env n c) rest
      | none => value? (r.nextPlain c) rest

end Reading

/-! ## Assignments -/

def isNameStart (c : Char) : Bool := c.isAlpha || c == '_'

def isNameChar (c : Char) : Bool := c.isAlphanum || c == '_' || c == '.'

/-- A name, and what follows it after blanks. -/
def name? (cs : List Char) : Option (String × List Char) :=
  match cs with
  | c :: _ =>
    if isNameStart c then
      some (String.ofList (cs.takeWhile isNameChar), trimStart (cs.dropWhile isNameChar))
    else none
  | [] => none

def afterEquals? : List Char → Option (List Char)
  | '=' :: rest => some (trimStart rest)
  | _ => none

/-- A name and what is assigned to it. The word `export` may stand before the name, or be it. -/
def sides? (line : List Char) : Option (String × List Char) :=
  (name? line).bind fun (name, rest) =>
    match afterEquals? rest with
    | some right => some (name, right)
    | none =>
      if name = "export" then
        (name? rest).bind fun (name, rest) => (afterEquals? rest).map fun right => (name, right)
      else none

/-- The assignment on a line; none within for a line without one. -/
def assignment? (env : Environment) (line : List Char) : Option (Option (String × String)) :=
  let line := trimStart (trimStart line.reverse).reverse
  if line.isEmpty || line.head? = some '#' then some none
  else
    (sides? line).bind fun (name, right) =>
      if right.isEmpty || right.head? = some '#' then some (some (name, ""))
      else (Reading.value? env {} right).map fun value => some (name, value)

/-- Adds variables line by line; those that are there already stay. -/
def add : (lines : List (Option (List Char))) → Environment → Environment
  | some line :: rest, env =>
    match assignment? env line with
    | some (some (name, value)) =>
      add rest (if (env.get? name).isSome then env else env.insert name value)
    | some none => add rest env
    | none => env
  | _, env => env

def load (bytes : ByteArray) (env : Environment) : Environment :=
  add (joined [] .nothing ((cutLines (withoutMark bytes.toList)).map textOf?)) env

def fileName : String := ".env"

/-- Where the file may be: in a directory, or above it. -/
def candidates (directory : List String) : List String :=
  (List.range (directory.length + 1)).map fun n =>
    Files.join (Files.absolute (directory.take (directory.length - n))) fileName

def nearest? (fs : Files) : Option String := (candidates fs.directory).find? fs.isFile

def loadNearest (fs : Files) (env : Environment) : Environment :=
  match nearest? fs with
  | none => env
  | some path =>
    match fs.read path with
    | .ok bytes => load bytes env
    | .error _ => env

end Placeholder.Assignments
