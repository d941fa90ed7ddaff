import Placeholder.Table

/-!
# The environment of a process

A snapshot of the variables, taken once. Variables whose name or value is no text are left out.
-/
namespace Placeholder

abbrev Environment := Table

namespace Environment

def ofBytes (pairs : List (ByteArray × ByteArray)) : Environment :=
  Table.ofPairs (pairs.filterMap fun (name, value) =>
    (String.fromUTF8? name).bind fun name =>
      (String.fromUTF8? value).map fun value => (name, value))

def nonEmpty? (env : Environment) (name : String) : Option String :=
  (env.get? name).filter fun value => !value.isEmpty

end Environment
end Placeholder
