import Placeholder.Binary64

/-!
# JSON values

A JSON value with its members sorted by name and no name twice, and its compact text. Whole
numbers are kept apart from the others: `1` and `1.0` are different values.
-/
namespace Placeholder

/-- A number: whole up to 2^64 - 1, whole down to -2^63, or a double. -/
inductive Json.Number where
  | natural (n : Nat)
  | negative (n : Nat)
  | real (x : Binary64)
  deriving DecidableEq, Repr

inductive Json where
  | null
  | bool (b : Bool)
  | number (n : Json.Number)
  | string (s : String)
  | array (items : List Json)
  | object (members : List (String × Json))
  deriving Repr, Inhabited

namespace Json

def ofNat (n : Nat) : Json := .number (.natural n)

def ofOption {α : Type} (f : α → Json) : Option α → Json
  | none => null
  | some a => f a

def text? : Json → Option String
  | string s => some s
  | _ => none

def natural? : Json → Option Nat
  | number (.natural n) => some n
  | _ => none

def bool? : Json → Option Bool
  | bool b => some b
  | _ => none

def items? : Json → Option (List Json)
  | array items => some items
  | _ => none

def members? : Json → Option (List (String × Json))
  | object members => some members
  | _ => none

def member? (j : Json) (name : String) : Option Json :=
  j.members?.bind fun members => members.lookup name

/-- Puts a member in its place by name; a later member replaces an earlier one. -/
def insertMember (name : String) (value : Json) :
    List (String × Json) → List (String × Json)
  | [] => [(name, value)]
  | (n, v) :: rest =>
    if name = n then (name, value) :: rest
    else if name < n then (name, value) :: (n, v) :: rest
    else (n, v) :: insertMember name value rest

/-- An object of these members, of which the last with a name counts. -/
def ofMembers (members : List (String × Json)) : Json :=
  object (members.foldl (fun acc (n, v) => insertMember n v acc) [])

/-! ## Compact text -/

def hexDigit (n : Nat) : Char := (Nat.digitChar n)

/-- A character inside quotes: short escapes where there is one, `\u` for other controls. -/
def escaped (c : Char) : List Char :=
  match c with
  | '"' => ['\\', '"']
  | '\\' => ['\\', '\\']
  | '\n' => ['\\', 'n']
  | '\r' => ['\\', 'r']
  | '\t' => ['\\', 't']
  | c =>
    if c.toNat = 8 then ['\\', 'b']
    else if c.toNat = 12 then ['\\', 'f']
    else if c.toNat < 32 then
      ['\\', 'u', '0', '0', hexDigit (c.toNat / 16), hexDigit (c.toNat % 16)]
    else [c]

def quoted (s : String) : String :=
  String.ofList ('"' :: s.toList.flatMap escaped ++ ['"'])

def Number.text : Number → String
  | natural n => toString n
  | negative n => "-" ++ toString n
  | real x => x.text

mutual

/-- The text without any blank. -/
def text : Json → String
  | null => "null"
  | bool b => if b then "true" else "false"
  | number n => n.text
  | string s => quoted s
  | array items => "[" ++ ",".intercalate (textItems items) ++ "]"
  | object members => "\x7b" ++ ",".intercalate (textMembers members) ++ "\x7d"

def textItems : List Json → List String
  | [] => []
  | j :: rest => text j :: textItems rest

def textMembers : List (String × Json) → List String
  | [] => []
  | (n, j) :: rest => (quoted n ++ ":" ++ text j) :: textMembers rest

end

end Json
end Placeholder
