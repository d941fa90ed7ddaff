/-!
# TOML values

The values of a TOML 1.0 document. Floats and dates carry nothing: the settings read here hold
neither, so it is enough to know that a value is one.
-/
namespace Placeholder

inductive Toml where
  | string (s : String)
  | integer (n : Int)
  | float
  | boolean (b : Bool)
  | datetime
  | array (items : List Toml)
  | table (members : List (String × Toml))
  deriving Repr, Inhabited

namespace Toml

/-- A line of a document that is not blank. -/
inductive Statement where
  /-- A value under a dotted key. -/
  | assign (path : List String) (key : String) (value : Toml)
  /-- The head of a table. -/
  | table (path : List String) (key : String)
  /-- The head of an element of an array of tables. -/
  | element (path : List String) (key : String)
  deriving Repr

/-- What stands under a key while a document is read. -/
inductive Item where
  /-- A value, which nothing can be added to. -/
  | leaf (value : Toml)
  /-- A table; `implicit` when no head has named it, `dotted` when dotted keys made it. -/
  | table (implicit dotted : Bool) (members : List (String × Item))
  /-- An array of tables. -/
  | elements (tables : List (List (String × Item)))
  deriving Inhabited

abbrev Members := List (String × Item)

namespace Members

/-- Puts an item under a key in place of the one before. -/
def set (key : String) (item : Item) : Members → Members
  | [] => [(key, item)]
  | (k, i) :: rest => if k = key then (key, item) :: rest else (k, i) :: set key item rest

/-- Changes the table at the end of a path, and makes the tables on the way that are missing.
By dotted keys only tables without a head of their own can be changed. `change` is told whether
dotted keys made the table. -/
def within (dotted : Bool) (change : Bool → Members → Option Members) :
    (path : List String) → (madeDotted : Bool) → Members → Option Members
  | [], madeDotted, ms => change madeDotted ms
  | key :: path, _, ms =>
    match ms.lookup key with
    | none =>
      (within dotted change path dotted []).map fun sub => set key (.table true dotted sub) ms
    | some (.leaf _) => none
    | some (.table implicit made sub) =>
      if dotted && !implicit then none
      else (within dotted change path made sub).map fun sub => set key (.table implicit made sub) ms
    | some (.elements tables) =>
      match tables.reverse with
      | [] => none
      | last :: before =>
        (within dotted change path false last).map fun last =>
          set key (.elements (last :: before).reverse) ms

/-- Adds a value under a key that is free. -/
def assign (path : List String) (key : String) (item : Item) (ms : Members) : Option Members :=
  within true
    (fun madeDotted ms =>
      if madeDotted == path.isEmpty then none
      else if (ms.lookup key).isSome then none
      else some (set key item ms))
    path false ms

/-- Starts the table that a head names. -/
def openTable (key : String) (ms : Members) : Option Members :=
  match ms.lookup key with
  | none => some (set key (.table false false []) ms)
  | some (.table true false sub) => some (set key (.table false false sub) ms)
  | some _ => none

/-- Starts the next element of an array of tables. -/
def openElement (key : String) (ms : Members) : Option Members :=
  match ms.lookup key with
  | none => some (set key (.elements [[]]) ms)
  | some (.elements tables) => some (set key (.elements (tables ++ [[]])) ms)
  | some _ => none

end Members

mutual

def Item.value : Item → Toml
  | .leaf v => v
  | .table _ _ members => .table (memberValues members)
  | .elements tables => .array (tableValues tables)

def memberValues : List (String × Item) → List (String × Toml)
  | [] => []
  | (k, i) :: rest => (k, i.value) :: memberValues rest

def tableValues : List (List (String × Item)) → List Toml
  | [] => []
  | ms :: rest => .table (memberValues ms) :: tableValues rest

end

/-- The table made by statements that follow the head at `path`. -/
def build : (path : List String) → Members → List Statement → Option Members
  | _, ms, [] => some ms
  | path, ms, .assign dots key value :: rest =>
    (Members.within false (fun _ ms => ms.assign dots key (.leaf value)) path false ms).bind
      fun ms => build path ms rest
  | _, ms, .table path key :: rest =>
    (Members.within false (fun _ ms => ms.openTable key) path false ms).bind
      fun ms => build (path ++ [key]) ms rest
  | _, ms, .element path key :: rest =>
    (Members.within false (fun _ ms => ms.openElement key) path false ms).bind
      fun ms => build (path ++ [key]) ms rest

/-- The members of an inline table made by its assignments. -/
def inlineMembers (assignments : List (List String × String × Toml)) :
    Option (List (String × Toml)) :=
  (assignments.foldlM (fun ms (dots, key, value) => Members.assign dots key (.leaf value) ms)
    []).map memberValues

end Toml
end Placeholder
