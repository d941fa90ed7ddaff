import Placeholder.Kind
import Placeholder.FetchError
import Placeholder.Table
import Placeholder.Text.Quoted

/-!
# Sources and registries

A source answers for one name at a time. Asking may change the state `ω` that all sources share:
logs, caches, the world outside. A registry says which source stands for which kind; it keeps no
answer and asks nothing on its own.
-/
namespace Placeholder

structure Source (ω : Type) where
  name : String
  ask : String → ω → Answer × ω

/-- The source that answers from a table and never fails. -/
def Source.ofTable {ω : Type} (t : Table) : Source ω :=
  ⟨"map", fun name w => (.ok (t.get? name), w)⟩

/-- The source for each kind that has one. -/
structure Registry (ω : Type) where
  source? : Kind → Option (Source ω)

namespace Registry

variable {ω : Type}

def empty : Registry ω := ⟨fun _ => none⟩

/-- Sets the source of a kind in place of the one before. -/
def register (r : Registry ω) (kind : Kind) (source : Source ω) : Registry ω :=
  ⟨fun k => if k = kind then some source else r.source? k⟩

@[simp] theorem source?_register (r : Registry ω) (kind k : Kind) (source : Source ω) :
    (r.register kind source).source? k = if k = kind then some source else r.source? k :=
  rfl

def has (r : Registry ω) (kind : Kind) : Bool := (r.source? kind).isSome

/-- The kinds that have a source, in the order of `Kind.all`. -/
def kinds (r : Registry ω) : List Kind := Kind.all.filter r.has

def size (r : Registry ω) : Nat := r.kinds.length

def isEmpty (r : Registry ω) : Bool := r.kinds.isEmpty

/-- Asks the source of a kind; a kind without one has no values. -/
def lookup (r : Registry ω) (kind : Kind) (name : String) (w : ω) : Answer × ω :=
  match r.source? kind with
  | some source => source.ask name w
  | none => (.ok none, w)

def sourceNames (r : Registry ω) : List (Kind × String) :=
  r.kinds.filterMap fun kind => (r.source? kind).map fun source => (kind, source.name)

/-- The sources by kind, as a log shows them. -/
def summary (r : Registry ω) : String :=
  let entry (e : Kind × String) : String := e.1.label ++ ": " ++ Text.quoted e.2
  "\x7b" ++ ", ".intercalate (r.sourceNames.map entry) ++ "\x7d"

end Registry
end Placeholder
