/-!
# Kinds of value source

The four names that may stand after `$` and an opening brace in a template. The order of
`Kind.all` is the order in which the grammar tries them and in which registries list them.
-/
namespace Placeholder

/-- Where the value of a placeholder comes from. -/
inductive Kind where
  /-- Deployment variables. -/
  | vars
  /-- Secret values handed to the job. -/
  | secrets
  /-- Secrets kept in a key vault. -/
  | kv
  /-- The process environment. -/
  | env
  deriving DecidableEq, Repr, Inhabited

namespace Kind

def all : List Kind := [.vars, .secrets, .kv, .env]

/-- The kind as written in a template. -/
def name : Kind → String
  | .vars => "vars"
  | .secrets => "secrets"
  | .kv => "kv"
  | .env => "env"

/-- The kind as listed in the summary of a registry. -/
def label : Kind → String
  | .vars => "Vars"
  | .secrets => "Secrets"
  | .kv => "Kv"
  | .env => "Env"

def index : Kind → Nat
  | .vars => 0
  | .secrets => 1
  | .kv => 2
  | .env => 3

def ofName? (s : String) : Option Kind := all.find? fun k => k.name == s

def unknownMessage (s : String) : String :=
  "Unknown source kind: '" ++ s ++ "'. Available: vars, secrets, kv, env"

def after (k : Kind) : List Kind := all.filter fun other => k.index < other.index

/-- The name right-aligned to eight columns, in brackets. -/
def column (k : Kind) : String :=
  "[" ++ "".pushn ' ' (8 - k.name.length) ++ k.name ++ "]"

end Kind
end Placeholder
