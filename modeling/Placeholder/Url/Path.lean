import Placeholder.Url.Percent

/-!
# Paths

The path of a URL is a list of encoded segments; in text a slash stands before each. Dots for the
directory itself and for the one above it are resolved while a path is read, so no segment of a
path is such a mark. Drive letters in paths of files are not modelled.
-/
namespace Placeholder.Url

inductive Path where
  | segments (segments : List String)
  /-- The path of a URL that is only a name, such as an address for mail. -/
  | name (text : String)
  deriving DecidableEq, Repr

namespace Path

/-- A segment, with dots that may be encoded read as dots. -/
def plainDots : List Char → List Char
  | '%' :: '2' :: 'e' :: rest => '.' :: plainDots rest
  | '%' :: '2' :: 'E' :: rest => '.' :: plainDots rest
  | c :: rest => c :: plainDots rest
  | [] => []

def isDot (segment : String) : Bool := plainDots segment.toList == ['.']

def isDoubleDot (segment : String) : Bool := plainDots segment.toList == ['.', '.']

/-- Goes along one segment from a directory. After the `last` one, a directory ends in a slash. -/
def enter (directory : List String) (last : Bool) (segment : String) : List String :=
  if isDoubleDot segment then directory.dropLast ++ if last then [""] else []
  else if isDot segment then directory ++ if last then [""] else []
  else directory ++ [segment]

/-- Goes along segments from a directory. -/
def follow : (directory : List String) → (segments : List String) → List String
  | directory, [] => directory
  | directory, [s] => enter directory true s
  | directory, s :: rest => follow (enter directory false s) rest

def segmentsText (segments : List String) : String := String.join (segments.map ("/" ++ ·))

def text : Path → String
  | segments ss => segmentsText ss
  | name t => t

/-- The segments without an empty last one, which a final slash leaves. -/
def dropFinalSlash (segments : List String) : List String :=
  match segments.reverse with
  | "" :: rest => if rest.isEmpty then segments else rest.reverse
  | _ => segments

/-- The characters of a segment that count: no tab and no line break does. -/
def isWritten (c : Char) : Bool := c ≠ '\t' && c ≠ '\n' && c ≠ '\r'

/-- Adds a segment given as text. A segment of dots leaves the path alone, and the root is not a
directory of its own. -/
def push (c : Percent.Class) (segments : List String) (segment : String) : List String :=
  if segment = "." || segment = ".." then segments
  else
    let directory := if segments = [""] then [] else segments
    enter directory true (Percent.encodeChars c (segment.toList.filter isWritten))

end Path
end Placeholder.Url
