import Placeholder.RunError

/-!
# Vault names

A vault name becomes a label of a host name, so what it may hold is checked before it is used.
-/
namespace Placeholder.Vault

def domain : String := "vault.azure.net"

namespace Name

inductive Fault where
  | length
  | characters
  | doubledHyphen
  deriving DecidableEq, Repr

def Fault.message : Fault → String
  | length => "must be 3-24 characters long"
  | characters =>
    "must start with a letter, end with a letter or digit, and contain only letters, digits " ++
      "and hyphens"
  | doubledHyphen => "must not contain consecutive hyphens"

def isInner (c : Char) : Bool := c.isAlphanum || c == '-'

/-- A letter, letters, digits and hyphens, and at the end a letter or digit. The pattern for names
also bounds how many stand between the first and the last; `fault?` has counted them by then. -/
def wellSpelled : List Char → Bool
  | [] => false
  | c :: rest => c.isAlpha && rest.all isInner && (c :: rest).getLast?.any Char.isAlphanum

def doublesHyphen : List Char → Bool
  | '-' :: '-' :: _ => true
  | _ :: rest => doublesHyphen rest
  | [] => false

/-- The first fault of a name; its length is counted in bytes. -/
def fault? (name : String) : Option Fault :=
  if name.utf8ByteSize < 3 || name.utf8ByteSize > 24 then some .length
  else if !wellSpelled name.toList then some .characters
  else if doublesHyphen name.toList then some .doubledHyphen
  else none

def check (name : String) : Except RunError Unit :=
  match fault? name with
  | some fault => .error (.vaultName name fault.message)
  | none => .ok ()

def url (name : String) : Except RunError String :=
  (check name).map fun _ => "https://" ++ name ++ "." ++ domain ++ "/"

end Name
end Placeholder.Vault
