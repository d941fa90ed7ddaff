import Placeholder.Config.Layer
import Placeholder.Toml.Reader
import Placeholder.RunError

/-!
# Config files

A config file holds a layer of defaults and a layer for each environment. It is a TOML document;
names that are not known are passed over, and any fault makes the whole file unreadable.
-/
namespace Placeholder

structure ConfigFile where
  defaults : Layer := {}
  environments : List (String × Layer) := []
  deriving DecidableEq, Repr

namespace ConfigFile

def environment? (c : ConfigFile) (name : String) : Option Layer := c.environments.lookup name

def environmentsOf? : Toml → Option (List (String × Layer))
  | .table members => members.mapM fun (name, v) => (Layer.ofToml? v).map fun layer => (name, layer)
  | _ => none

def ofMembers? (members : List (String × Toml)) : Option ConfigFile :=
  (((members.lookup "defaults").map Layer.ofToml?).getD (some {})).bind fun defaults =>
  (((members.lookup "environments").map environmentsOf?).getD (some [])).map fun environments =>
    { defaults, environments }

def unreadable : RunError := .config ("Failed to parse config file: " ++ detail)

def parse (text : String) : Except RunError ConfigFile :=
  match (Toml.ofText? text).bind ofMembers? with
  | some c => .ok c
  | none => .error unreadable

end ConfigFile
end Placeholder
